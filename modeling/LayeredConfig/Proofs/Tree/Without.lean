import LayeredConfig.Proofs.Tree.Overlay

/-!
# A key left out

Maps are merged key by key, so that what stands under one key of the root does not reach the others:
leaving a key out before maps are laid over each other, or afterwards, comes to the same, and the
other keys stay in the order in which they first came up.

    t, u maps → (t.merge u).without k = (t.without k).merge (u.without k)        (without_merge)
    all maps  → (mergeAll ts).without k = mergeAll (ts.map (without k))          (without_mergeAll)

A tree that has no other key at its root then counts for nothing (`mergeAll_map_filter`).
-/

namespace LayeredConfig

namespace Tree

/-- The tree without a key of its root. -/
def without (key : String) : Tree → Tree
  | map es => map (es.filter fun e => e.1 ≠ key)
  | t => t

/-! ## Lemmas -/

theorem isMap_without (k : String) {t : Tree} (h : t.isMap = true) :
    (t.without k).isMap = true := by
  obtain ⟨es, rfl⟩ := eq_map_of_isMap h
  rfl

/-- The other keys are found as before. -/
theorem get?_without {k key : String} (h : k ≠ key) (p : Path) {t : Tree} (ht : t.isMap = true) :
    (t.without key).get? (.key k :: p) = t.get? (.key k :: p) := by
  obtain ⟨es, rfl⟩ := eq_map_of_isMap ht
  show (Assoc.get? k (es.filter fun e => e.1 ≠ key)).bind (get? p) = (Assoc.get? k es).bind (get? p)
  rw [Assoc.get?_filter_of_ne h]

theorem filter_mergeEntries (k : String) (es fs : List (String × Tree)) :
    (mergeEntries es fs).filter (fun e => e.1 ≠ k) =
      mergeEntries (es.filter fun e => e.1 ≠ k) (fs.filter fun e => e.1 ≠ k) := by
  induction fs generalizing es with
  | nil => rfl
  | cons f fs ih =>
    rw [mergeEntries_cons, ih, List.filter_cons]
    by_cases hf : f.1 = k
    · rw [if_neg (by simpa using hf), hf, Assoc.filter_insert_self]
    · rw [if_pos (decide_eq_true hf), mergeEntries_cons, Assoc.filter_insert_of_ne hf,
        Assoc.get?_filter_of_ne hf]

theorem without_merge (k : String) {t u : Tree} (ht : t.isMap = true) (hu : u.isMap = true) :
    (t.merge u).without k = (t.without k).merge (u.without k) := by
  obtain ⟨es, rfl⟩ := eq_map_of_isMap ht
  obtain ⟨fs, rfl⟩ := eq_map_of_isMap hu
  exact congrArg map (filter_mergeEntries k es fs)

theorem without_mergeAll (k : String) {ts : List Tree} (h : ∀ t ∈ ts, t.isMap = true) :
    (mergeAll ts).without k = mergeAll (ts.map (without k)) := by
  induction ts using List.reverseRecOn with
  | nil => rfl
  | append_singleton ts t ih =>
    have hts : ∀ u ∈ ts, u.isMap = true := fun u hu => h u (List.mem_append_left _ hu)
    rw [mergeAll_append, List.map_append, List.map_singleton, mergeAll_append, ← ih hts]
    exact without_merge k (isMap_mergeAll hts) (h t (by simp))

theorem merge_empty {t : Tree} (h : t.isMap = true) : t.merge empty = t := by
  obtain ⟨es, rfl⟩ := eq_map_of_isMap h
  rfl

/-- Empty maps among maps count for nothing. -/
theorem mergeAll_map_filter {α : Type} {f : α → Tree} {p : α → Bool} {xs : List α}
    (hmaps : ∀ x ∈ xs, (f x).isMap = true) (h : ∀ x ∈ xs, p x = false → f x = empty) :
    mergeAll (xs.map f) = mergeAll ((xs.filter p).map f) := by
  induction xs using List.reverseRecOn with
  | nil => rfl
  | append_singleton xs x ih =>
    have hmaps' : ∀ y ∈ xs, (f y).isMap = true := fun y hy => hmaps y (List.mem_append_left _ hy)
    have ih := ih hmaps' fun y hy => h y (List.mem_append_left _ hy)
    rw [List.map_append, List.map_singleton, mergeAll_append, List.filter_append, List.map_append]
    cases hx : p x with
    | true =>
      rw [List.filter_cons, hx, if_pos rfl, List.filter_nil, List.map_singleton, mergeAll_append,
        ih]
    | false =>
      have hempty := h x (by simp) hx
      rw [List.filter_cons, hx, if_neg Bool.false_ne_true, List.filter_nil, List.map_nil,
        List.append_nil, hempty, merge_empty, ih]
      exact isMap_mergeAll fun t ht => by
        obtain ⟨y, hy, rfl⟩ := List.mem_map.mp ht
        exact hmaps' y hy

end Tree

end LayeredConfig
