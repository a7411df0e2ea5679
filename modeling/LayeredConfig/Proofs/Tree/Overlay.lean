import LayeredConfig.Tree.Merge
import Mathlib.Data.List.Induction

/-!
# What is read from trees laid over each other

Along a path of keys the upper tree of a merge either has its say or lets the lower one through.
It has its say (`Covers`) when a node of its own stands at the path, or a value or an array stands
in the way of it.

    upper has a node y at p        → y over what the lower one has there  (get?_merge_of_some)
    upper covers p without a node  → nothing                              (get?_merge_of_covers)
    upper does not cover p         → what the lower one has there         (get?_merge_of_not_covers)

For a whole list of trees it follows which of them a value or an array was read from: the last one
that covers the path (`get?_mergeAll_eq_some_iff`).  Two trees of which neither covers a value or an
array of the other (`Apart`) can change places; the same values and arrays are read afterwards
(`SameLeaves`, `sameLeaves_mergeAll`).
-/

namespace LayeredConfig

/-- The path through the given keys. -/
def Path.ofKeys (keys : List String) : Path := keys.map Segment.key

namespace Tree

/-- A node stands at the path, or a value or an array stands in its way. -/
def Covers (t : Tree) (p : Path) : Prop :=
  (∃ u, t.get? p = some u) ∨ ∃ q u, q <+: p ∧ q ≠ p ∧ t.get? q = some u ∧ u.isMap = false

/-- A tree laid over what stands at its place, if anything does. -/
def mergeOnto (lower : Option Tree) (upper : Tree) : Tree :=
  match lower with
  | some t => t.merge upper
  | none => upper

/-- Neither tree covers a path at which the other one has a value or an array. -/
def Apart (t u : Tree) : Prop :=
  ∀ ks v, v.isMap = false →
    (t.get? (Path.ofKeys ks) = some v → ¬ u.Covers (Path.ofKeys ks)) ∧
      (u.get? (Path.ofKeys ks) = some v → ¬ t.Covers (Path.ofKeys ks))

/-- The same values and arrays are read at every path of keys. -/
def SameLeaves (t u : Tree) : Prop :=
  ∀ ks v, v.isMap = false →
    (t.get? (Path.ofKeys ks) = some v ↔ u.get? (Path.ofKeys ks) = some v)

/-! ## Lemmas -/

theorem eq_map_of_isMap {t : Tree} (h : t.isMap = true) : ∃ es, t = map es := by
  cases t with
  | map es => exact ⟨es, rfl⟩
  | _ => cases h

theorem child?_of_not_isMap {t : Tree} (h : t.isMap = false) (k : String) :
    t.child? (.key k) = none := by
  cases t with
  | map es => cases h
  | _ => rfl

theorem merge_of_upper_not_isMap (t : Tree) {u : Tree} (h : u.isMap = false) : t.merge u = u := by
  cases u with
  | value s => exact merge_value t s
  | array us => exact merge_array t us
  | map fs => cases h

theorem merge_of_lower_not_isMap {t : Tree} (h : t.isMap = false) (u : Tree) : t.merge u = u := by
  cases t with
  | map es => cases h
  | _ => cases u <;> rfl

theorem isMap_mergeOnto (lower : Option Tree) {upper : Tree} (h : upper.isMap = true) :
    (mergeOnto lower upper).isMap = true := by
  obtain ⟨fs, rfl⟩ := eq_map_of_isMap h
  cases lower with
  | none => rfl
  | some t => cases t <;> rfl

theorem mergeOnto_of_not_isMap (lower : Option Tree) {upper : Tree} (h : upper.isMap = false) :
    mergeOnto lower upper = upper := by
  cases lower with
  | none => rfl
  | some t => exact merge_of_upper_not_isMap t h

theorem distinct_of_get? {es : List (String × Tree)} (h : (map es).Distinct) {k : String} {t : Tree}
    (hk : Assoc.get? k es = some t) : t.Distinct :=
  (distinct_map_iff.mp h).2 (k, t) (Assoc.mem_of_get? hk)

theorem distinct_of_get?_ofKeys {t u : Tree} (h : t.Distinct) {ks : List String}
    (hu : t.get? (Path.ofKeys ks) = some u) : u.Distinct := h.of_get? hu

theorem mergeEntries_cons (es fs : List (String × Tree)) (f : String × Tree) :
    mergeEntries es (f :: fs) =
      mergeEntries (Assoc.insert f.1 (mergeOnto (Assoc.get? f.1 es) f.2) es) fs := by
  rw [mergeEntries]
  cases Assoc.get? f.1 es <;> rfl

/-- Each key of the upper map stands over what the lower map has under it. -/
theorem get?_mergeEntries {fs : List (String × Tree)} (h : (Assoc.keys fs).Nodup)
    (es : List (String × Tree)) (k : String) :
    Assoc.get? k (mergeEntries es fs) =
      match Assoc.get? k fs with
      | some u => some (mergeOnto (Assoc.get? k es) u)
      | none => Assoc.get? k es := by
  induction fs generalizing es with
  | nil => rfl
  | cons f fs ih =>
    rw [Assoc.keys_cons, List.nodup_cons] at h
    rw [mergeEntries_cons, ih h.2, Assoc.get?_insert]
    by_cases hk : f.1 = k
    · subst hk
      have hnone : Assoc.get? f.1 fs = none := (Assoc.get?_eq_none_iff f.1 fs).mpr h.1
      rw [hnone, Assoc.get?, if_pos rfl, if_pos rfl]
    · rw [Assoc.get?, if_neg hk, if_neg hk]

theorem child?_merge_map {fs : List (String × Tree)} (h : (map fs).Distinct) (a : Tree)
    (k : String) :
    (a.merge (map fs)).child? (.key k) =
      match Assoc.get? k fs with
      | some u => some (mergeOnto (a.child? (.key k)) u)
      | none => a.child? (.key k) := by
  by_cases ha : a.isMap = true
  · obtain ⟨es, rfl⟩ := eq_map_of_isMap ha
    exact get?_mergeEntries h.1 es k
  · have ha : a.isMap = false := by simpa using ha
    rw [merge_of_lower_not_isMap ha, child?_of_not_isMap ha]
    show Assoc.get? k fs = _
    cases Assoc.get? k fs <;> rfl

theorem get?_ofKeys_cons (k : String) (ks : List String) (t : Tree) :
    t.get? (Path.ofKeys (k :: ks)) = (t.child? (.key k)).bind (get? (Path.ofKeys ks)) := rfl

theorem get?_ofKeys_of_not_isMap {t : Tree} (h : t.isMap = false) (k : String) (ks : List String) :
    t.get? (Path.ofKeys (k :: ks)) = none := by
  rw [get?_ofKeys_cons, child?_of_not_isMap h]
  rfl

/-! ### Covering -/

theorem covers_nil (t : Tree) : t.Covers [] := .inl ⟨t, rfl⟩

theorem covers_of_not_isMap {t : Tree} (h : t.isMap = false) (p : Path) : t.Covers p := by
  cases p with
  | nil => exact covers_nil t
  | cons s p => exact .inr ⟨[], t, List.nil_prefix, by simp, rfl, h⟩

theorem covers_map_cons {es : List (String × Tree)} {s : Segment} {p : Path} :
    (map es).Covers (s :: p) ↔ ∃ u, (map es).child? s = some u ∧ u.Covers p := by
  constructor
  · rintro (⟨u, hu⟩ | ⟨q, u, hq, hne, hu, hmap⟩)
    · obtain ⟨v, hv, hu⟩ := Option.bind_eq_some_iff.mp hu
      exact ⟨v, hv, .inl ⟨u, hu⟩⟩
    · cases q with
      | nil =>
        obtain rfl := Option.some.inj hu
        cases hmap
      | cons s' q =>
        obtain ⟨rfl, hq'⟩ := List.cons_prefix_cons.mp hq
        obtain ⟨v, hv, hu⟩ := Option.bind_eq_some_iff.mp hu
        exact ⟨v, hv, .inr ⟨q, u, hq', fun h => hne (by rw [h]), hu, hmap⟩⟩
  · rintro ⟨v, hv, ⟨u, hu⟩ | ⟨q, u, hq, hne, hu, hmap⟩⟩
    · refine .inl ⟨u, ?_⟩
      rw [get?_cons, hv]
      exact hu
    · refine .inr ⟨s :: q, u, List.cons_prefix_cons.mpr ⟨rfl, hq⟩, ?_, ?_, hmap⟩
      · exact fun h => hne (List.cons.inj h).2
      · rw [get?_cons, hv]
        exact hu

theorem get?_eq_none_of_not_covers {t : Tree} {p : Path} (h : ¬ t.Covers p) : t.get? p = none := by
  rw [Option.eq_none_iff_forall_ne_some]
  intro u hu
  exact h (.inl ⟨u, hu⟩)

/-! ### Two trees -/

section Two

variable {b : Tree} (hb : b.Distinct) (a : Tree) {ks : List String}

include hb

theorem get?_merge_of_some {y : Tree} (h : b.get? (Path.ofKeys ks) = some y) :
    (a.merge b).get? (Path.ofKeys ks) = some (mergeOnto (a.get? (Path.ofKeys ks)) y) := by
  induction ks generalizing a b with
  | nil =>
    obtain rfl := Option.some.inj h
    rfl
  | cons k ks ih =>
    by_cases hmap : b.isMap = true
    · obtain ⟨fs, rfl⟩ := eq_map_of_isMap hmap
      obtain ⟨u, hu, hy⟩ := Option.bind_eq_some_iff.mp h
      have hu' : Assoc.get? k fs = some u := hu
      rw [get?_ofKeys_cons, child?_merge_map hb, hu', get?_ofKeys_cons]
      dsimp only
      rw [Option.bind_some]
      cases a.child? (.key k) with
      | none => exact hy
      | some t => exact ih (distinct_of_get? hb hu') t hy
    · rw [get?_ofKeys_of_not_isMap (by simpa using hmap)] at h
      cases h

theorem get?_merge_of_not_covers (h : ¬ b.Covers (Path.ofKeys ks)) :
    (a.merge b).get? (Path.ofKeys ks) = a.get? (Path.ofKeys ks) := by
  induction ks generalizing a b with
  | nil => exact absurd (covers_nil b) h
  | cons k ks ih =>
    by_cases hmap : b.isMap = true
    · obtain ⟨fs, rfl⟩ := eq_map_of_isMap hmap
      rw [get?_ofKeys_cons, get?_ofKeys_cons, child?_merge_map hb]
      cases hu : Assoc.get? k fs with
      | none => rfl
      | some u =>
        have hcov : ¬ u.Covers (Path.ofKeys ks) := fun hc => h (covers_map_cons.mpr ⟨u, hu, hc⟩)
        dsimp only
        rw [Option.bind_some]
        cases a.child? (.key k) with
        | none => exact get?_eq_none_of_not_covers hcov
        | some t => exact ih (distinct_of_get? hb hu) t hcov
    · exact absurd (covers_of_not_isMap (by simpa using hmap) _) h

theorem get?_merge_of_covers (h : b.Covers (Path.ofKeys ks)) (hn : b.get? (Path.ofKeys ks) = none) :
    (a.merge b).get? (Path.ofKeys ks) = none := by
  induction ks generalizing a b with
  | nil => cases hn
  | cons k ks ih =>
    by_cases hmap : b.isMap = true
    · obtain ⟨fs, rfl⟩ := eq_map_of_isMap hmap
      obtain ⟨u, hu, hcov⟩ := covers_map_cons.mp h
      have hu' : Assoc.get? k fs = some u := hu
      rw [get?_ofKeys_cons, hu, Option.bind_some] at hn
      rw [get?_ofKeys_cons, child?_merge_map hb, hu']
      dsimp only
      rw [Option.bind_some]
      cases a.child? (.key k) with
      | none => exact hn
      | some t => exact ih (distinct_of_get? hb hu') t hcov hn
    · have hmap : b.isMap = false := by simpa using hmap
      rw [merge_of_upper_not_isMap a hmap]
      exact hn

/-- A value or an array is read from the upper tree, or from the lower one where the upper tree
does not cover the path. -/
theorem get?_merge_eq_some_iff {u : Tree} (hu : u.isMap = false) :
    (a.merge b).get? (Path.ofKeys ks) = some u ↔ b.get? (Path.ofKeys ks) = some u ∨
      ¬ b.Covers (Path.ofKeys ks) ∧ a.get? (Path.ofKeys ks) = some u := by
  by_cases hcov : b.Covers (Path.ofKeys ks)
  · cases hget : b.get? (Path.ofKeys ks) with
    | none => simp [get?_merge_of_covers hb a hcov hget, hcov]
    | some y =>
      rw [get?_merge_of_some hb a hget, Option.some_inj, Option.some_inj]
      by_cases hy : y.isMap = true
      · have hmap := isMap_mergeOnto (a.get? (Path.ofKeys ks)) hy
        have hne : mergeOnto (a.get? (Path.ofKeys ks)) y ≠ u := by
          intro h
          rw [h, hu] at hmap
          cases hmap
        have hne' : y ≠ u := by
          rintro rfl
          rw [hu] at hy
          cases hy
        simp [hne, hne', hcov]
      · rw [mergeOnto_of_not_isMap _ (by simpa using hy)]
        simp [hcov]
  · rw [get?_merge_of_not_covers hb a hcov, get?_eq_none_of_not_covers hcov]
    simp [hcov]

end Two

/-! ### Any number of trees -/

theorem mergeAll_append (ts : List Tree) (t : Tree) :
    mergeAll (ts ++ [t]) = (mergeAll ts).merge t := by
  unfold mergeAll
  rw [List.foldl_append]
  rfl

theorem isMap_mergeAll {ts : List Tree} (h : ∀ t ∈ ts, t.isMap = true) :
    (mergeAll ts).isMap = true := by
  induction ts using List.reverseRecOn with
  | nil => rfl
  | append_singleton ts t _ =>
    rw [mergeAll_append]
    exact isMap_mergeOnto (some (mergeAll ts)) (h t (by simp))

/-- What a list is split at is its last element, or it lies before it. -/
theorem split_append_singleton {α : Type} {xs low high : List α} {a b : α}
    (h : xs ++ [b] = low ++ a :: high) :
    (high = [] ∧ low = xs ∧ a = b) ∨ ∃ rest, high = rest ++ [b] ∧ xs = low ++ a :: rest := by
  cases high using List.reverseRecOn with
  | nil =>
    obtain ⟨hxs, hba⟩ := List.append_inj' h rfl
    exact .inl ⟨rfl, hxs.symm, (List.cons.inj hba).1.symm⟩
  | append_singleton rest c =>
    rw [← List.cons_append, ← List.append_assoc] at h
    obtain ⟨hxs, hbc⟩ := List.append_inj' h rfl
    exact .inr ⟨rest, by rw [(List.cons.inj hbc).1], hxs⟩

/-- A value or an array at a path of keys is that of the last tree that covers the path. -/
theorem get?_mergeAll_eq_some_iff {ts : List Tree} (hd : ∀ t ∈ ts, t.Distinct) {ks : List String}
    {u : Tree} (hu : u.isMap = false) :
    (mergeAll ts).get? (Path.ofKeys ks) = some u ↔
      ∃ low t high, ts = low ++ t :: high ∧ t.get? (Path.ofKeys ks) = some u ∧
        ∀ m ∈ high, ¬ m.Covers (Path.ofKeys ks) := by
  induction ts using List.reverseRecOn with
  | nil =>
    constructor
    · intro h
      cases ks with
      | nil =>
        obtain rfl := Option.some.inj h
        cases hu
      | cons k ks => cases h
    · rintro ⟨low, t, high, h, -⟩
      simp at h
  | append_singleton ts b ih =>
    have hb : b.Distinct := hd b (by simp)
    have ih := ih fun t ht => hd t (List.mem_append_left _ ht)
    rw [mergeAll_append, get?_merge_eq_some_iff hb _ hu, ih]
    constructor
    · rintro (h | ⟨hcov, low, t, high, rfl, ht, hhigh⟩)
      · exact ⟨ts, b, [], rfl, h, by simp⟩
      · refine ⟨low, t, high ++ [b], by simp, ht, ?_⟩
        intro m hm
        rcases List.mem_append.mp hm with hm | hm
        · exact hhigh m hm
        · rw [List.mem_singleton.mp hm]
          exact hcov
    · rintro ⟨low, t, high, hsplit, ht, hhigh⟩
      rcases split_append_singleton hsplit with ⟨-, -, rfl⟩ | ⟨rest, rfl, rfl⟩
      · exact .inl ht
      · exact .inr ⟨hhigh b (by simp), low, t, rest, rfl, ht,
          fun m hm => hhigh m (List.mem_append_left _ hm)⟩

/-! ### Trees that change places -/

theorem SameLeaves.refl (t : Tree) : t.SameLeaves t := fun _ _ _ => Iff.rfl

theorem SameLeaves.trans {t u v : Tree} (h : t.SameLeaves u) (h' : u.SameLeaves v) :
    t.SameLeaves v :=
  fun ks w hw => (h ks w hw).trans (h' ks w hw)

theorem SameLeaves.merge {t u v : Tree} (hv : v.Distinct) (h : t.SameLeaves u) :
    (t.merge v).SameLeaves (u.merge v) := by
  intro ks w hw
  rw [get?_merge_eq_some_iff hv t hw, get?_merge_eq_some_iff hv u hw, h ks w hw]

theorem SameLeaves.foldl {t u : Tree} {vs : List Tree} (hvs : ∀ v ∈ vs, v.Distinct)
    (h : t.SameLeaves u) : (vs.foldl Tree.merge t).SameLeaves (vs.foldl Tree.merge u) := by
  induction vs generalizing t u with
  | nil => exact h
  | cons v vs ih =>
    exact ih (fun w hw => hvs w (List.mem_cons_of_mem v hw)) (h.merge (hvs v List.mem_cons_self))

theorem not_covers_of_key_not_mem {es : List (String × Tree)} {k : String}
    (hk : k ∉ Assoc.keys es) (p : Path) : ¬ (map es).Covers (.key k :: p) := by
  intro h
  obtain ⟨u, hu, -⟩ := covers_map_cons.mp h
  have hnone : (map es).child? (.key k) = none := (Assoc.get?_eq_none_iff k es).mpr hk
  rw [hnone] at hu
  cases hu

/-- Maps without a common key are apart. -/
theorem apart_of_disjoint {es fs : List (String × Tree)}
    (h : (Assoc.keys es).Disjoint (Assoc.keys fs)) : (map es).Apart (map fs) := by
  have hmem : ∀ {gs : List (String × Tree)} {k : String} {ks : List String} {v : Tree},
      (map gs).get? (Path.ofKeys (k :: ks)) = some v → k ∈ Assoc.keys gs := by
    intro gs k ks v hv
    by_contra hk
    exact not_covers_of_key_not_mem hk (Path.ofKeys ks) (.inl ⟨v, hv⟩)
  intro ks v hv
  cases ks with
  | nil =>
    have hroot : ∀ gs, (map gs).get? (Path.ofKeys []) ≠ some v := by
      intro gs h
      obtain rfl := Option.some.inj h
      cases hv
    exact ⟨fun h => absurd h (hroot es), fun h => absurd h (hroot fs)⟩
  | cons k ks =>
    constructor
    · exact fun hk => not_covers_of_key_not_mem (h (hmem hk)) _
    · exact fun hk => not_covers_of_key_not_mem (fun hk' => h hk' (hmem hk)) _

theorem sameLeaves_merge_merge (t : Tree) {u v : Tree} (hu : u.Distinct) (hv : v.Distinct)
    (h : u.Apart v) : ((t.merge u).merge v).SameLeaves ((t.merge v).merge u) := by
  intro ks w hw
  obtain ⟨huv, hvu⟩ := h ks w hw
  simp only [get?_merge_eq_some_iff hu _ hw, get?_merge_eq_some_iff hv _ hw]
  constructor
  · rintro (h | ⟨hv, h | ⟨hu, h⟩⟩)
    · exact .inr ⟨hvu h, .inl h⟩
    · exact .inl h
    · exact .inr ⟨hu, .inr ⟨hv, h⟩⟩
  · rintro (h | ⟨hu, h | ⟨hv, h⟩⟩)
    · exact .inr ⟨huv h, .inl h⟩
    · exact .inl h
    · exact .inr ⟨hv, .inr ⟨hu, h⟩⟩

/-- A tree moved above others that it is apart from. -/
theorem sameLeaves_foldl {u : Tree} {vs : List Tree} (hu : u.Distinct)
    (hvs : ∀ v ∈ vs, v.Distinct ∧ u.Apart v) (t : Tree) :
    (vs.foldl Tree.merge (t.merge u)).SameLeaves ((vs.foldl Tree.merge t).merge u) := by
  induction vs generalizing t with
  | nil => exact SameLeaves.refl _
  | cons v vs ih =>
    obtain ⟨hv, huv⟩ := hvs v List.mem_cons_self
    have hvs := fun w hw => hvs w (List.mem_cons_of_mem v hw)
    have hswap := sameLeaves_merge_merge t hu hv huv
    exact (hswap.foldl fun w hw => (hvs w hw).1).trans (ih hvs (t.merge v))

theorem sameLeaves_mergeAll {low ts high : List Tree} {t : Tree} (ht : t.Distinct)
    (hts : ∀ u ∈ ts, u.Distinct ∧ t.Apart u) (hhigh : ∀ u ∈ high, u.Distinct) :
    (mergeAll (low ++ t :: (ts ++ high))).SameLeaves (mergeAll (low ++ ts ++ t :: high)) := by
  unfold mergeAll
  simp only [List.foldl_append, List.foldl_cons]
  exact (sameLeaves_foldl ht hts _).foldl hhigh

end Tree

end LayeredConfig
