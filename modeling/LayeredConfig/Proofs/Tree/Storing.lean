import LayeredConfig.Proofs.Tree.Step

/-!
# Storing a tree at a path

`set` goes down the path, puts what it stored below back as the child of every node on the way
(`store`, the same walk with the root as its end), and stops at an index that leads nowhere.

    it stores              ↔ every index of the path has an array with room for it  (store_done_iff)
    it has stored          → the tree is read at the path                           (get?_store)
    it has not stored      → nothing was and is read at the path              (get?_store_eq_none)
    a path that turns away → reads as before                                  (get?_store_of_turn)

A node that stands on the way exchanges the next child or gets it as its last one
(`exists_on_way`): its other children keep their places.
-/

namespace LayeredConfig

namespace Tree

/-- The child that a segment leads to, or the map that is made in its place. -/
def childOrNew (s : Segment) (t : Tree) : Tree := (t.child? s).getD empty

/-- The tree after `v` was stored at the path, the root included, and whether it was. -/
def store (v : Tree) : Path → Tree → Tree × Bool
  | [], _ => (v, true)
  | s :: p, t =>
    match put? (store v p (t.childOrNew s)).1 s t with
    | some u => (u, (store v p (t.childOrNew s)).2)
    | none => (t, false)

/-! ## Lemmas -/

variable {v t u x : Tree} {p q r : Path} {s s' : Segment}

/-! ### The walk of `set` -/

theorem set_singleton_of_some (h : put? v s t = some u) : set v [s] t = (u, .ok ()) := by
  cases s with
  | key k =>
    obtain rfl := Option.some.inj h
    rw [set]
  | index i =>
    cases t with
    | value w => cases h
    | map es => cases h
    | array ts =>
      rw [put?] at h
      rw [set]
      split at h
      · next hi => rw [if_pos hi, Option.some.inj h]
      · next hi =>
        split at h
        · next heq => rw [if_neg hi, if_pos heq, Option.some.inj h]
        · cases h

theorem set_singleton_of_none (h : put? v s t = none) : ∃ e, set v [s] t = (t, .error e) := by
  obtain ⟨i, rfl, hroom⟩ := put?_eq_none_iff.mp h
  cases t with
  | value w => exact ⟨.notAnArray, rfl⟩
  | map es => exact ⟨.notAnArray, rfl⟩
  | array ts =>
    have hi := hroom ts rfl
    refine ⟨.outOfBounds i ts.length, ?_⟩
    rw [set, if_neg (by omega), if_neg (by omega)]

theorem set_cons_of_some (hp : p ≠ []) (h : put? (set v p (t.childOrNew s)).1 s t = some u) :
    set v (s :: p) t = (u, (set v p (t.childOrNew s)).2) := by
  cases s with
  | key k =>
    have hchild : t.childOrNew (.key k) = (Assoc.get? k t.entries).getD empty := by
      cases t <;> rfl
    rw [hchild] at h ⊢
    obtain rfl := Option.some.inj h
    rw [set]
    exact hp
  | index i =>
    cases t with
    | value w => cases h
    | map es => cases h
    | array ts =>
      rw [put?] at h
      rw [set]
      split at h
      · next hi =>
        have hchild : (array ts).childOrNew (.index i) = ts[i] := by
          show ts[i]?.getD empty = ts[i]
          rw [List.getElem?_eq_getElem hi, Option.getD_some]
        rw [hchild] at h ⊢
        rw [dif_pos hi, ← Option.some.inj h]
      · next hi =>
        split at h
        · next heq =>
          have hchild : (array ts).childOrNew (.index i) = empty := by
            show ts[i]?.getD empty = empty
            rw [List.getElem?_eq_none (by omega), Option.getD_none]
          rw [hchild] at h ⊢
          rw [dif_neg hi, if_pos heq, ← Option.some.inj h]
        · cases h
      · exact hp

theorem set_cons_of_none (hp : p ≠ []) (h : put? (set v p (t.childOrNew s)).1 s t = none) :
    ∃ e, set v (s :: p) t = (t, .error e) := by
  obtain ⟨s', p, rfl⟩ := List.exists_cons_of_ne_nil hp
  obtain ⟨i, rfl, hroom⟩ := put?_eq_none_iff.mp h
  refine ⟨.unreachable i, ?_⟩
  cases t with
  | value w => rfl
  | map es => rfl
  | array ts =>
    have hi := hroom ts rfl
    rw [set, dif_neg (by omega), if_neg (by omega)]
    exact hp

theorem store_cons_of_some (h : put? (store v p (t.childOrNew s)).1 s t = some u) :
    store v (s :: p) t = (u, (store v p (t.childOrNew s)).2) := by
  rw [store, h]

theorem store_cons_of_none (h : put? (store v p (t.childOrNew s)).1 s t = none) :
    store v (s :: p) t = (t, false) := by
  rw [store, h]

/-- `set` walks like `store`, and fails when that does not store. -/
theorem set_eq_store (v t : Tree) (hp : p ≠ []) : (set v p t).1 = (store v p t).1 ∧
    ((set v p t).2 = .ok () ↔ (store v p t).2 = true) := by
  induction p generalizing t with
  | nil => exact absurd rfl hp
  | cons s p ih =>
    by_cases hnil : p = []
    · subst hnil
      cases hput : put? v s t with
      | some u =>
        rw [set_singleton_of_some hput, store_cons_of_some (p := []) hput]
        exact ⟨rfl, by simp [store]⟩
      | none =>
        obtain ⟨e, he⟩ := set_singleton_of_none hput
        rw [he, store_cons_of_none (p := []) hput]
        simp
    · obtain ⟨hfst, hsnd⟩ := ih (t.childOrNew s) hnil
      cases hput : put? (store v p (t.childOrNew s)).1 s t with
      | some u =>
        rw [store_cons_of_some hput, set_cons_of_some hnil (hfst ▸ hput)]
        exact ⟨rfl, hsnd⟩
      | none =>
        obtain ⟨e, he⟩ := set_cons_of_none hnil (hfst ▸ hput)
        rw [he, store_cons_of_none hput]
        simp

/-! ### When it stores -/

theorem get?_empty (hp : p ≠ []) : empty.get? p = none := by
  obtain ⟨s, q, rfl⟩ := List.exists_cons_of_ne_nil hp
  cases s <;> rfl

theorem get?_childOrNew_array {ts : List Tree} :
    (t.childOrNew s).get? q = some (array ts) ↔ t.get? (s :: q) = some (array ts) := by
  rw [childOrNew, get?_cons]
  cases t.child? s with
  | some x => rfl
  | none =>
    cases q with
    | nil => simp [empty]
    | cons s' q => simp [get?_empty]

/-- Whether it stores can be told from the tree before, although the walk changes it: below a map
that it made, no index has an array. -/
theorem store_done_iff (v : Tree) (p : Path) (t : Tree) : (store v p t).2 = true ↔
    ∀ q i r, p = q ++ .index i :: r → ∃ ts, t.get? q = some (array ts) ∧ i ≤ ts.length := by
  induction p generalizing t with
  | nil => simp [store]
  | cons s p ih =>
    have hdone : (store v (s :: p) t).2 = true ↔
        (put? (store v p (t.childOrNew s)).1 s t).isSome = true ∧
          (store v p (t.childOrNew s)).2 = true := by
      cases hput : put? (store v p (t.childOrNew s)).1 s t with
      | some u => rw [store_cons_of_some hput]; simp
      | none => rw [store_cons_of_none hput]; simp
    rw [hdone, put?_isSome_iff, ih]
    constructor
    · rintro ⟨hhere, hbelow⟩ q i r hq
      cases q with
      | nil =>
        obtain ⟨rfl, rfl⟩ := List.cons.inj hq
        obtain ⟨ts, rfl, hi⟩ := hhere i rfl
        exact ⟨ts, rfl, hi⟩
      | cons s' q =>
        obtain ⟨rfl, hp⟩ := List.cons.inj hq
        obtain ⟨ts, hts, hi⟩ := hbelow q i r hp
        exact ⟨ts, get?_childOrNew_array.mp hts, hi⟩
    · intro h
      constructor
      · rintro i rfl
        obtain ⟨ts, hts, hi⟩ := h [] i p rfl
        exact ⟨ts, Option.some.inj hts, hi⟩
      · rintro q i r rfl
        obtain ⟨ts, hts, hi⟩ := h (s :: q) i r rfl
        exact ⟨ts, get?_childOrNew_array.mpr hts, hi⟩

/-! ### What is read afterwards -/

theorem get?_store (h : (store v p t).2 = true) : (store v p t).1.get? p = some v := by
  induction p generalizing t with
  | nil => rfl
  | cons s p ih =>
    cases hput : put? (store v p (t.childOrNew s)).1 s t with
    | some u =>
      rw [store_cons_of_some hput] at h ⊢
      rw [get?_cons, child?_put? hput]
      exact ih h
    | none =>
      rw [store_cons_of_none hput] at h
      cases h

theorem get?_eq_none_of_childOrNew (h : (t.childOrNew s).get? q = none) :
    t.get? (s :: q) = none := by
  rw [childOrNew] at h
  rw [get?_cons]
  cases hx : t.child? s with
  | none => rfl
  | some x => rw [hx] at h; exact h

theorem get?_store_eq_none (h : (store v p t).2 = false) :
    t.get? p = none ∧ (store v p t).1.get? p = none := by
  induction p generalizing t with
  | nil => cases h
  | cons s p ih =>
    cases hput : put? (store v p (t.childOrNew s)).1 s t with
    | some u =>
      rw [store_cons_of_some hput] at h ⊢
      obtain ⟨hbefore, hafter⟩ := ih h
      refine ⟨get?_eq_none_of_childOrNew hbefore, ?_⟩
      rw [get?_cons, child?_put? hput]
      exact hafter
    | none =>
      have hnone : t.get? (s :: p) = none := by
        rw [get?_cons, child?_eq_none_of_put?_eq_none hput]
        rfl
      rw [store_cons_of_none hput]
      exact ⟨hnone, hnone⟩

/-- A path that turns away from the walk, into the same node with another key or another index. -/
theorem get?_store_of_turn (v t : Tree) (q r r' : Path) (halike : s'.isKey = s.isKey)
    (hne : s' ≠ s) : (store v (q ++ s :: r) t).1.get? (q ++ s' :: r') = t.get? (q ++ s' :: r') := by
  induction q generalizing t with
  | nil =>
    rw [List.nil_append, List.nil_append]
    cases hput : put? (store v r (t.childOrNew s)).1 s t with
    | some u =>
      rw [store_cons_of_some hput, get?_cons, child?_put?_of_ne hput halike hne, get?_cons]
    | none => rw [store_cons_of_none hput]
  | cons s₀ q ih =>
    rw [List.cons_append, List.cons_append]
    cases hput : put? (store v (q ++ s :: r) (t.childOrNew s₀)).1 s₀ t with
    | none => rw [store_cons_of_none hput]
    | some u =>
      rw [store_cons_of_some hput, get?_cons, child?_put? hput, Option.bind_some, ih, childOrNew,
        get?_cons]
      cases t.child? s₀ with
      | some x => rfl
      | none => exact get?_empty (by simp)

/-- A node that stands on the way has the rest of the path stored below it. -/
theorem store_on_way (v : Tree) (h : t.get? q = some x) (s : Segment) (r : Path) :
    (store v (q ++ s :: r) t).1.get? q = some (store v (s :: r) x).1 := by
  induction q generalizing t with
  | nil =>
    obtain rfl := Option.some.inj h
    rfl
  | cons s₀ q ih =>
    obtain ⟨a, ha, hq⟩ := Option.bind_eq_some_iff.mp h
    obtain ⟨u, hu⟩ := exists_swapped ha (store v (q ++ s :: r) a).1
    have hchild : t.childOrNew s₀ = a := by rw [childOrNew, ha, Option.getD_some]
    rw [List.cons_append, store_cons_of_some (hchild ▸ hu.put?_eq), get?_cons, hu.child?_right]
    exact ih hq

/-- What becomes of a node on the way: the next child is exchanged or comes last, and a node of
another kind than the segment asks for is replaced by a map. -/
theorem exists_on_way (h : (store v (q ++ s :: r) t).2 = true) (hq : t.get? q = some x) :
    ∃ y c, (store v (q ++ s :: r) t).1.get? q = some y ∧ y.child? s = some c ∧
      ((∃ b, Swapped s b c x y) ∨ Appended s c x y ∨
        ∃ k, s = .key k ∧ x.isMap = false ∧ y = map [(k, c)]) := by
  have hroom : (put? (store v r (x.childOrNew s)).1 s x).isSome = true := by
    refine put?_isSome_iff.mpr fun i hi => ?_
    obtain ⟨ts, hts, hle⟩ := (store_done_iff v _ t).mp h q i r (hi ▸ rfl)
    exact ⟨ts, Option.some.inj (hq.symm.trans hts), hle⟩
  obtain ⟨y, hy⟩ := Option.isSome_iff_exists.mp hroom
  rw [store_on_way v hq, store_cons_of_some hy]
  exact ⟨y, _, rfl, child?_put? hy, put?_cases hy⟩

/-! ## Top theorem (proved from the lemmas above) -/

/-- Storing a tree at a path: when it succeeds, what is read afterwards at the path, at the nodes on
the way and at the paths that turn away from it, and what a failure leaves. -/
theorem set_by_path (v t : Tree) :
    (∀ p, (set v p t).2 = .ok () ↔ p ≠ [] ∧ ∀ q i r, p = q ++ .index i :: r →
      ∃ ts, t.get? q = some (array ts) ∧ i ≤ ts.length) ∧
    (∀ p, (set v p t).2 = .ok () → (set v p t).1.get? p = some v) ∧
    (∀ q s r x, (set v (q ++ s :: r) t).2 = .ok () → t.get? q = some x →
      ∃ y c, (set v (q ++ s :: r) t).1.get? q = some y ∧ y.child? s = some c ∧
        ((∃ b, Swapped s b c x y) ∨ Appended s c x y ∨
          ∃ k, s = .key k ∧ x.isMap = false ∧ y = map [(k, c)])) ∧
    (∀ q s r s' r', s'.isKey = s.isKey → s' ≠ s →
      (set v (q ++ s :: r) t).1.get? (q ++ s' :: r') = t.get? (q ++ s' :: r')) ∧
    (∀ p, p ≠ [] → (set v p t).2 ≠ .ok () →
      t.get? p = none ∧ (set v p t).1.get? p = none) ∧
    set v [] t = (t, .error .root) := by
  have hway : ∀ (q : Path) (s : Segment) (r : Path), q ++ s :: r ≠ [] := fun q s r => by simp
  refine ⟨?_, ?_, ?_, ?_, ?_, by rw [set]⟩
  · intro p
    by_cases hp : p = []
    · subst hp
      simp [set]
    · rw [(set_eq_store v t hp).2, store_done_iff]
      exact ⟨fun h => ⟨hp, h⟩, fun h => h.2⟩
  · intro p h
    have hp : p ≠ [] := by
      rintro rfl
      rw [set] at h
      cases h
    rw [(set_eq_store v t hp).2] at h
    rw [(set_eq_store v t hp).1, get?_store h]
  · intro q s r x h hq
    rw [(set_eq_store v t (hway q s r)).2] at h
    rw [(set_eq_store v t (hway q s r)).1]
    exact exists_on_way h hq
  · intro q s r s' r' halike hne
    rw [(set_eq_store v t (hway q s r)).1]
    exact get?_store_of_turn v t q r r' halike hne
  · intro p hp h
    rw [ne_eq, (set_eq_store v t hp).2, Bool.not_eq_true] at h
    rw [(set_eq_store v t hp).1]
    exact get?_store_eq_none h

/-- A map goes behind the last element of an array and gets two keys; below a map that was made on
the way no index leads on, and nothing but that map is new. -/
theorem set_by_path_halfway :
    let t := map [("a", value "1"), ("l", array [map [("k", value "2")]])]
    let v := value "3"
    let p : Path := [.key "l", .index 1, .key "x", .key "y"]
    let p' : Path := [.key "a", .key "m", .index 0]
    (set v p t).2 = .ok () ∧ (set v p t).1.get? p = some v ∧
      (set v p t).1.get? [.key "l", .index 0, .key "k"] = some (value "2") ∧
      (∃ y c, (set v p t).1.get? [.key "l"] = some y ∧ y.child? (.index 1) = some c ∧
        Appended (.index 1) c (array [map [("k", value "2")]]) y) ∧
      (set v p' t).2 ≠ .ok () ∧ (set v p' t).1.get? p' = none ∧
      (set v p' t).1.get? [.key "a"] = some (map [("m", empty)]) := by
  intro t v p p'
  obtain ⟨hok, hget, hnodes, hturn, hfail, -⟩ := set_by_path v t
  have hp : (set v p t).2 = .ok () := rfl
  have hp' : (set v p' t).2 ≠ .ok () := by
    intro h
    obtain ⟨-, hroom⟩ := (hok p').mp h
    obtain ⟨ts, hts, -⟩ := hroom [.key "a", .key "m"] 0 [] rfl
    cases hts
  refine ⟨hp, hget p hp, ?_, ?_, hp', (hfail p' (by simp [p']) hp').2, rfl⟩
  · exact hturn [.key "l"] (.index 1) [.key "x", .key "y"] (.index 0) [.key "k"] rfl (by decide)
  · obtain ⟨y, c, hy, hc, hcases⟩ := hnodes [.key "l"] (.index 1) [.key "x", .key "y"] _ hp rfl
    refine ⟨y, c, hy, hc, ?_⟩
    rcases hcases with ⟨b, hswapped⟩ | happended | ⟨k, hk, -⟩
    · cases hswapped.child?_left
    · exact happended
    · cases hk

end Tree

end LayeredConfig
