import LayeredConfig.Proofs.Tree.Storing
import Mathlib.Data.List.Induction

/-!
# Texts stored at paths of keys

A path of keys can always be stored at (`set_of_keys`): what is no map becomes one.  When texts are
stored one after the other and none at a path that leads to an earlier one, a text gives way only to
those that lie below it:

    Furthest ls l    the text l is one of ls, and none of ls lies below it
    Holds t ls       the furthest of ls are read in t; every other node is a map with entries

`Holds` is what storing one more text keeps (`Holds.set`), so it is true of the tree that a whole
list of texts leaves (`holds_storeAll`).
-/

namespace LayeredConfig

namespace Tree

/-- The tree after the texts were stored at their paths, one after the other. -/
def storeAll (ls : List (Path × String)) (t : Tree) : Tree :=
  ls.foldl (fun t l => (set (value l.2) l.1 t).1) t

/-- A text with no other one below its path. -/
def Furthest (ls : List (Path × String)) (l : Path × String) : Prop :=
  l ∈ ls ∧ ∀ m ∈ ls, l.1 <+: m.1 → m.1 = l.1

/-- The furthest texts are read in the tree, and what else stands in it are maps with entries. -/
structure Holds (t : Tree) (ls : List (Path × String)) : Prop where
  isMap : t.isMap = true
  text : ∀ l, Furthest ls l → t.get? l.1 = some (value l.2)
  node : ∀ p x, p ≠ [] → t.get? p = some x →
    (x.isMap = true ∧ x.isEmptyMap = false) ∨ ∃ l, Furthest ls l ∧ l.1 = p ∧ x = value l.2

/-! ## Lemmas -/

variable {v t u x c : Tree} {p q : Path} {s : String}

/-! ### Every call keeps keys apart -/

theorem Appended.distinct {s : Segment} (h : Appended s c t u) (ht : t.Distinct)
    (hc : c.Distinct) : u.Distinct := by
  cases h with
  | @entry k es hk c =>
    rw [distinct_map_iff] at ht ⊢
    rw [← Assoc.insert_of_not_mem c hk]
    refine ⟨Assoc.nodup_keys_insert k c ht.1, ?_⟩
    intro e he
    rcases Assoc.mem_insert he with rfl | he
    · exact hc
    · exact ht.2 e he
  | item ts c =>
    rw [distinct_array_iff] at ht ⊢
    intro y hy
    rcases List.mem_append.mp hy with hy | hy
    · exact ht y hy
    · exact List.mem_singleton.mp hy ▸ hc

theorem distinct_store (v : Tree) (hv : v.Distinct) (p : Path) (t : Tree) (ht : t.Distinct) :
    (store v p t).1.Distinct := by
  induction p generalizing t with
  | nil => exact hv
  | cons s p ih =>
    cases hput : put? (store v p (t.childOrNew s)).1 s t with
    | none =>
      rw [store_cons_of_none hput]
      exact ht
    | some u =>
      have hchild : (t.childOrNew s).Distinct := by
        unfold childOrNew
        cases hx : t.child? s with
        | none => exact distinct_map_iff.mpr (by simp [Assoc.keys])
        | some x => exact ht.of_child? hx
      rw [store_cons_of_some hput]
      rcases put?_cases hput with ⟨b, hswapped⟩ | happended | ⟨k, -, -, rfl⟩
      · exact hswapped.distinct ht (ih _ hchild)
      · exact happended.distinct ht (ih _ hchild)
      · exact distinct_map_iff.mpr (by simpa [Assoc.keys] using ih _ hchild)

theorem distinct_set (hv : v.Distinct) (hp : p ≠ []) (ht : t.Distinct) :
    (set v p t).1.Distinct := by
  rw [(set_eq_store v t hp).1]
  exact distinct_store v hv p t ht

theorem distinct_storeAll {ls : List (Path × String)} (hls : ∀ l ∈ ls, l.1 ≠ [])
    (ht : t.Distinct) : (storeAll ls t).Distinct := by
  induction ls generalizing t with
  | nil => exact ht
  | cons l ls ih =>
    rw [List.forall_mem_cons] at hls
    exact ih hls.2 (distinct_set trivial hls.1 ht)

/-! ### What one text changes -/

theorem set_of_keys (v t : Tree) (hp : p ≠ []) (hkeys : ∀ s ∈ p, s.isKey = true) :
    (set v p t).2 = .ok () := by
  rw [(set_eq_store v t hp).2, store_done_iff]
  rintro q i r rfl
  cases hkeys (.index i) (List.mem_append_right q List.mem_cons_self)

theorem get?_set (v t : Tree) (hp : p ≠ []) (hkeys : ∀ s ∈ p, s.isKey = true) :
    (set v p t).1.get? p = some v := by
  have hdone := (set_eq_store v t hp).2.mp (set_of_keys v t hp hkeys)
  rw [(set_eq_store v t hp).1, get?_store hdone]

/-- A node with a child under a key. -/
theorem filled_of_child? {k : String} (h : x.child? (.key k) = some c) :
    x.isMap = true ∧ x.isEmptyMap = false := by
  cases x with
  | value w => cases h
  | array ts => cases h
  | map es =>
    cases es with
    | nil => cases h
    | cons e es => exact ⟨rfl, rfl⟩

/-- The nodes on the way to a node are maps with entries. -/
theorem filled_of_get? (h : t.get? p = some x) (hkeys : ∀ s ∈ p, s.isKey = true)
    (hq : q <+: p) (hne : q ≠ p) :
    ∃ y, t.get? q = some y ∧ y.isMap = true ∧ y.isEmptyMap = false := by
  obtain ⟨r, rfl⟩ := hq
  obtain _ | ⟨s, r⟩ := r
  · exact absurd (List.append_nil q).symm hne
  · rw [get?_append] at h
    obtain ⟨y, hy, h⟩ := Option.bind_eq_some_iff.mp h
    obtain ⟨c, hc, -⟩ := Option.bind_eq_some_iff.mp h
    cases s with
    | key k => exact ⟨y, hy, filled_of_child? hc⟩
    | index i => cases hkeys (.index i) (List.mem_append_right q List.mem_cons_self)

/-- Nothing stands below a text. -/
theorem eq_of_get?_below (h : t.get? p = some (value s)) (hq : p <+: q)
    (hx : t.get? q = some x) : q = p := by
  obtain ⟨r, rfl⟩ := hq
  rw [get?_append, h, Option.bind_some] at hx
  cases r with
  | nil => exact List.append_nil p
  | cons s' r => cases s' <;> cases hx

/-- Where two paths part, when neither leads through the other. -/
theorem exists_turn (hqp : ¬ q <+: p) (hpq : ¬ p <+: q) :
    ∃ w s r s' r', p = w ++ s :: r ∧ q = w ++ s' :: r' ∧ s' ≠ s := by
  induction p generalizing q with
  | nil => exact absurd List.nil_prefix hpq
  | cons s p ih =>
    cases q with
    | nil => exact absurd List.nil_prefix hqp
    | cons s' q =>
      by_cases hss : s' = s
      · subst hss
        rw [List.prefix_cons_inj] at hqp hpq
        obtain ⟨w, a, r, a', r', rfl, rfl, hne⟩ := ih hqp hpq
        exact ⟨s' :: w, a, r, a', r', rfl, rfl, hne⟩
      · exact ⟨[], s, p, s', q, rfl, rfl, hss⟩

/-- A path of keys that parts from the one stored at reads as before. -/
theorem get?_set_of_apart (v t : Tree) (hkeys : ∀ s ∈ p, s.isKey = true) (hqp : ¬ q <+: p)
    (hpq : ¬ p <+: q) (hq : ∀ s ∈ q, s.isKey = true) : (set v p t).1.get? q = t.get? q := by
  obtain ⟨w, s, r, s', r', rfl, rfl, hne⟩ := exists_turn hqp hpq
  have hs : s.isKey = true := hkeys s (List.mem_append_right w List.mem_cons_self)
  have hs' : s'.isKey = true := hq s' (List.mem_append_right w List.mem_cons_self)
  rw [(set_eq_store v t (by simp)).1]
  exact get?_store_of_turn v t w r r' (hs'.trans hs.symm) hne

/-- What is read along a path that parts from the one stored at was there before. -/
theorem get?_of_get?_set (hkeys : ∀ s ∈ p, s.isKey = true) (hqp : ¬ q <+: p) (hpq : ¬ p <+: q)
    (h : (set v p t).1.get? q = some x) : t.get? q = some x := by
  obtain ⟨w, s, r, s', r', rfl, rfl, hne⟩ := exists_turn hqp hpq
  have hp : w ++ s :: r ≠ [] := by simp
  have hs : s.isKey = true := hkeys s (List.mem_append_right w List.mem_cons_self)
  cases s' with
  | key k =>
    have halike : (Segment.key k).isKey = s.isKey := hs.symm
    rwa [(set_eq_store v t hp).1, get?_store_of_turn v t w r r' halike hne] at h
  | index i =>
    -- the node at which the paths part is a map afterwards, so no index leads on
    obtain ⟨y, hy, hmap, -⟩ := filled_of_get? (get?_set v t hp hkeys) hkeys
      (List.prefix_append w (s :: r)) (by simp)
    rw [get?_append, hy, Option.bind_some] at h
    cases y with
    | value z => cases hmap
    | array ts => cases hmap
    | map es => cases h

/-! ### What a list of texts leaves -/

theorem Furthest.of_append {ls : List (Path × String)} {l m : Path × String}
    (h : Furthest (ls ++ [m]) l) (hl : l ∈ ls) : Furthest ls l :=
  ⟨hl, fun k hk => h.2 k (List.mem_append_left _ hk)⟩

theorem Furthest.append {ls : List (Path × String)} {l m : Path × String} (h : Furthest ls l)
    (hm : ¬ l.1 <+: m.1) : Furthest (ls ++ [m]) l := by
  refine ⟨List.mem_append_left _ h.1, ?_⟩
  intro k hk hlk
  rcases List.mem_append.mp hk with hk | hk
  · exact h.2 k hk hlk
  · obtain rfl := List.mem_singleton.mp hk
    exact absurd hlk hm

theorem furthest_last {ls : List (Path × String)} {l : Path × String}
    (h : ∀ k ∈ ls, ¬ l.1 <+: k.1) : Furthest (ls ++ [l]) l := by
  refine ⟨List.mem_append_right ls (List.mem_singleton_self l), ?_⟩
  intro k hk hlk
  rcases List.mem_append.mp hk with hk | hk
  · exact absurd hlk (h k hk)
  · rw [List.mem_singleton.mp hk]

theorem holds_nil : empty.Holds [] := by
  refine ⟨rfl, fun l h => absurd h.1 List.not_mem_nil, ?_⟩
  intro p x hp hx
  rw [get?_empty hp] at hx
  cases hx

/-- One more text, at a path that leads to none of the others. -/
theorem Holds.set {ls : List (Path × String)} (h : t.Holds ls)
    (hls : ∀ l ∈ ls, ∀ s ∈ l.1, s.isKey = true) (hp : p ≠ [])
    (hkeys : ∀ s ∈ p, s.isKey = true) (hnew : ∀ l ∈ ls, ¬ p <+: l.1) :
    (set (value s) p t).1.Holds (ls ++ [(p, s)]) := by
  have hget := get?_set (value s) t hp hkeys
  constructor
  · obtain ⟨y, hy, hmap, -⟩ := filled_of_get? hget hkeys List.nil_prefix hp.symm
    exact Option.some.inj hy ▸ hmap
  · intro l hl
    rcases List.mem_append.mp hl.1 with hmem | hmem
    · have hlp : ¬ l.1 <+: p := by
        intro hlp
        have heq := hl.2 (p, s) (List.mem_append_right ls (List.mem_singleton_self _)) hlp
        exact hnew l hmem (heq ▸ List.prefix_refl p)
      rw [get?_set_of_apart (value s) t hkeys hlp (hnew l hmem) (hls l hmem)]
      exact h.text l (hl.of_append hmem)
    · obtain rfl := List.mem_singleton.mp hmem
      exact hget
  · intro q x hq hx
    -- on the way, at the path, below it, or apart from it
    by_cases hqp : q <+: p
    · by_cases heq : q = p
      · subst heq
        exact .inr ⟨(q, s), furthest_last hnew, rfl, Option.some.inj (hx.symm.trans hget)⟩
      · obtain ⟨y, hy, hfilled⟩ := filled_of_get? hget hkeys hqp heq
        exact .inl (Option.some.inj (hy.symm.trans hx) ▸ hfilled)
    · by_cases hpq : p <+: q
      · exact absurd (eq_of_get?_below hget hpq hx ▸ List.prefix_refl q) hqp
      · rcases h.node q x hq (get?_of_get?_set hkeys hqp hpq hx) with hfilled | ⟨l, hl, rfl, rfl⟩
        · exact .inl hfilled
        · exact .inr ⟨l, hl.append hqp, rfl, rfl⟩

theorem holds_storeAll {ls : List (Path × String)} (hne : ∀ l ∈ ls, l.1 ≠ [])
    (hkeys : ∀ l ∈ ls, ∀ s ∈ l.1, s.isKey = true) (horder : ls.Pairwise fun l m => ¬ m.1 <+: l.1) :
    (storeAll ls empty).Holds ls := by
  induction ls using List.reverseRecOn with
  | nil => exact holds_nil
  | append_singleton ls l ih =>
    rw [List.forall_mem_append, List.forall_mem_singleton] at hne hkeys
    rw [List.pairwise_append] at horder
    have hold := ih hne.1 hkeys.1 horder.1
    rw [storeAll, List.foldl_append]
    exact hold.set hkeys.1 hne.2 hkeys.2
      fun m hm => horder.2.2 m hm l (List.mem_singleton_self l)

/-- The texts of the tree are the furthest ones. -/
theorem Holds.get?_eq_some_iff {ls : List (Path × String)} (h : t.Holds ls) :
    t.get? p = some (value s) ↔ Furthest ls (p, s) := by
  refine ⟨?_, fun hl => h.text (p, s) hl⟩
  intro hget
  have hp : p ≠ [] := by
    rintro rfl
    have hmap := h.isMap
    rw [Option.some.inj hget] at hmap
    cases hmap
  rcases h.node p _ hp hget with ⟨hmap, -⟩ | ⟨l, hl, rfl, hx⟩
  · cases hmap
  · rw [Tree.value.inj hx]
    exact hl

end Tree

end LayeredConfig
