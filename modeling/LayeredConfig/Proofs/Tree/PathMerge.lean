import LayeredConfig.Proofs.Tree.Overlay

/-!
# A merge, path by path

What is read after one tree was laid over another depends on how far the upper tree reaches along
the path (`Deepest`).

    upper has a node y at p           → y, or the merge where both are maps
    upper ends at a map before p      → what the lower one has
    upper ends at a value or an array → nothing

Below an array of the upper tree nothing of the lower one is read (`get?_merge_append_of_array`).
The keys of a merged map are those of the lower map and then the new ones of the upper map, each in
their order (`keys_mergeEntries`).
-/

namespace LayeredConfig

namespace Tree

/-- `q` is the longest part of the path, from the root on, at which the tree has a node, and `u` is
that node. -/
structure Deepest (t : Tree) (p q : Path) (u : Tree) : Prop where
  isPrefix : q <+: p
  get?_eq : t.get? q = some u
  longest : ∀ r, r <+: p → (t.get? r).isSome = true → r <+: q

/-! ## Lemmas -/

theorem exists_deepest (t : Tree) (p : Path) : ∃ q u, t.Deepest p q u := by
  induction p using List.reverseRecOn with
  | nil => exact ⟨[], t, List.prefix_rfl, rfl, fun r hr _ => hr⟩
  | append_singleton p s ih =>
    cases hget : t.get? (p ++ [s]) with
    | some u => exact ⟨p ++ [s], u, List.prefix_rfl, hget, fun r hr _ => hr⟩
    | none =>
      obtain ⟨q, u, hq, hu, hlongest⟩ := ih
      refine ⟨q, u, hq.trans (List.prefix_append p [s]), hu, ?_⟩
      intro r hr hsome
      rcases List.prefix_concat_iff.mp hr with rfl | hr
      · rw [hget] at hsome
        cases hsome
      · exact hlongest r hr hsome

/-- No key leads on from a value or an array. -/
theorem get?_eq_none_of_not_isMap {t u : Tree} {q p : Path} (hq : q <+: p) (hne : q ≠ p)
    (hkeys : ∀ s ∈ p, ∃ k, s = Segment.key k) (hu : t.get? q = some u) (hmap : u.isMap = false) :
    t.get? p = none := by
  obtain ⟨r, rfl⟩ := hq
  cases r with
  | nil => exact absurd (List.append_nil q).symm hne
  | cons s r =>
    obtain ⟨k, rfl⟩ := hkeys s (by simp)
    rw [get?_append, hu, Option.bind_some, get?_cons, child?_of_not_isMap hmap]
    rfl

theorem exists_key_of_mem_ofKeys {ks : List String} {s : Segment} (h : s ∈ Path.ofKeys ks) :
    ∃ k, s = Segment.key k := by
  obtain ⟨k, -, rfl⟩ := List.mem_map.mp h
  exact ⟨k, rfl⟩

/-- A tree without a node at the path has its say there when it ends at a value or an array. -/
theorem Deepest.covers_iff {t u : Tree} {q : Path} {ks : List String}
    (h : t.Deepest (Path.ofKeys ks) q u) (hn : t.get? (Path.ofKeys ks) = none) :
    t.Covers (Path.ofKeys ks) ↔ u.isMap = false := by
  constructor
  · rintro (⟨v, hv⟩ | ⟨r, v, hr, -, hv, hmap⟩)
    · rw [hn] at hv
      cases hv
    · have hrq : r <+: q := h.longest r hr (by rw [hv]; rfl)
      have hkeys : ∀ s ∈ q, ∃ k, s = Segment.key k := fun s hs =>
        exists_key_of_mem_ofKeys (h.isPrefix.subset hs)
      have heq : r = q := by
        by_contra hne
        have hnone := get?_eq_none_of_not_isMap hrq hne hkeys hv hmap
        rw [h.get?_eq] at hnone
        cases hnone
      subst heq
      obtain rfl := Option.some.inj (h.get?_eq.symm.trans hv)
      exact hmap
  · intro hmap
    refine .inr ⟨q, u, h.isPrefix, ?_, h.get?_eq, hmap⟩
    rintro rfl
    rw [h.get?_eq] at hn
    cases hn

/-- Where the upper tree has no node, the lower one is read as long as no value or array stands in
the way. -/
theorem get?_merge_of_none {b : Tree} (hb : b.Distinct) (a : Tree) {ks : List String}
    (hn : b.get? (Path.ofKeys ks) = none) {q : Path} {u : Tree}
    (h : b.Deepest (Path.ofKeys ks) q u) : (a.merge b).get? (Path.ofKeys ks) =
      if u.isMap then a.get? (Path.ofKeys ks) else none := by
  have hcovers := h.covers_iff hn
  cases hmap : u.isMap with
  | true =>
    rw [hmap] at hcovers
    exact get?_merge_of_not_covers hb a (by simp [hcovers])
  | false =>
    rw [hmap] at hcovers
    exact get?_merge_of_covers hb a (hcovers.mpr rfl) hn

theorem get?_merge_append_of_array {b : Tree} (hb : b.Distinct) (a : Tree) {q : Path}
    {ts : List Tree} (h : b.get? q = some (array ts)) (r : Path) :
    (a.merge b).get? (q ++ r) = b.get? (q ++ r) := by
  induction q generalizing a b with
  | nil =>
    obtain rfl := Option.some.inj h
    rw [merge_array]
  | cons s q ih =>
    by_cases hmap : b.isMap = true
    · obtain ⟨fs, rfl⟩ := eq_map_of_isMap hmap
      obtain ⟨u, hu, hq⟩ := Option.bind_eq_some_iff.mp h
      cases s with
      | index i => cases hu
      | key k =>
        have hu' : Assoc.get? k fs = some u := hu
        rw [List.cons_append, get?_cons, get?_cons, child?_merge_map hb, hu', hu]
        cases a.child? (.key k) with
        | none => rfl
        | some t => exact ih (distinct_of_get? hb hu') t hq
    · rw [merge_of_upper_not_isMap a (by simpa using hmap)]

theorem keys_mergeEntries {fs : List (String × Tree)} (h : (Assoc.keys fs).Nodup)
    (es : List (String × Tree)) : Assoc.keys (mergeEntries es fs) =
      Assoc.keys es ++ (Assoc.keys fs).filter fun k => k ∉ Assoc.keys es := by
  induction fs generalizing es with
  | nil => simp [mergeEntries]
  | cons f fs ih =>
    rw [Assoc.keys_cons, List.nodup_cons] at h
    rw [mergeEntries_cons, ih h.2, Assoc.keys_cons, List.filter_cons]
    by_cases hf : f.1 ∈ Assoc.keys es
    · rw [Assoc.keys_insert_of_mem _ hf, if_neg (by simpa using hf)]
    · have hnew : (Assoc.keys fs).filter (fun k => k ∉ Assoc.keys es ++ [f.1]) =
          (Assoc.keys fs).filter fun k => k ∉ Assoc.keys es := by
        apply List.filter_congr
        intro k hk
        have hne : k ≠ f.1 := fun hkf => h.1 (hkf ▸ hk)
        simp [hne]
      rw [Assoc.keys_insert_of_not_mem _ hf, hnew, if_pos (by simpa using hf), List.append_assoc]
      rfl

/-! ## Top theorem (proved from the lemmas above) -/

/-- What is read at every path of keys after a tree, of which no map names a key twice, was laid
over another, what is read below its arrays, and the keys of the merged maps. -/
theorem get?_merge_by_path {b : Tree} (hb : b.Distinct) (a : Tree) :
    let m := a.merge b
    (∀ ks, let p := Path.ofKeys ks
      (∀ y, b.get? p = some y → m.get? p =
        match a.get? p with
        | some x => if x.isMap && y.isMap then some (x.merge y) else some y
        | none => some y) ∧
      (b.get? p = none → (∃ q u, b.Deepest p q u) ∧
        ∀ q u, b.Deepest p q u → m.get? p = if u.isMap then a.get? p else none)) ∧
    (∀ q ts r, b.get? q = some (array ts) → m.get? (q ++ r) = b.get? (q ++ r)) ∧
    ∀ ks es fs, let p := Path.ofKeys ks
      a.get? p = some (map es) → b.get? p = some (map fs) →
      ∃ gs, m.get? p = some (map gs) ∧ Assoc.keys gs =
        Assoc.keys es ++ (Assoc.keys fs).filter fun k => k ∉ Assoc.keys es := by
  intro m
  refine ⟨?_, fun q ts r h => get?_merge_append_of_array hb a h r, ?_⟩
  · intro ks p
    constructor
    · intro y hy
      rw [get?_merge_of_some hb a hy]
      cases ha : a.get? p with
      | none => rfl
      | some x =>
        show some (x.merge y) = if x.isMap && y.isMap then some (x.merge y) else some y
        cases hx : x.isMap with
        | false => rw [merge_of_lower_not_isMap hx]; rfl
        | true =>
          cases hy' : y.isMap with
          | false => rw [merge_of_upper_not_isMap x hy']; rfl
          | true => rfl
    · intro hn
      exact ⟨exists_deepest b p, fun q u h => get?_merge_of_none hb a hn h⟩
  · intro ks es fs p ha hfs
    refine ⟨mergeEntries es fs, ?_, ?_⟩
    · rw [get?_merge_of_some hb a hfs, ha]
      rfl
    · exact keys_mergeEntries (distinct_map_iff.mp (distinct_of_get?_ofKeys hb hfs)).1 es

/-- The lower tree shows through a map of the upper one, not through a value or an array. -/
theorem get?_merge_by_path_conflict :
    let a : Tree := map [("x", map [("p", value "1"), ("q", value "2")]),
      ("y", map [("k", value "3")])]
    let b : Tree := map [("x", map [("r", array [map [("s", value "4")]]), ("q", map [])]),
      ("y", value "5")]
    let m := a.merge b
    b.Distinct ∧ m.get? (Path.ofKeys ["x", "p"]) = some (value "1") ∧
      m.get? (Path.ofKeys ["y", "k"]) = none ∧
      m.get? [.key "x", .key "r", .index 0, .key "s"] = some (value "4") ∧
      ∃ gs, m.get? (Path.ofKeys ["x"]) = some (map gs) ∧ Assoc.keys gs = ["p", "q", "r"] := by
  intro a b m
  have hb : b.Distinct := by decide
  obtain ⟨hpaths, harrays, hkeys⟩ := get?_merge_by_path hb a
  -- in both places the upper tree ends one key before the path
  have hdeepest : ∀ j k u, b.get? (Path.ofKeys [j]) = some u →
      b.get? (Path.ofKeys [j, k]) = none → b.Deepest (Path.ofKeys [j, k]) (Path.ofKeys [j]) u := by
    intro j k u hu hn
    refine ⟨List.prefix_append [Segment.key j] [Segment.key k], hu, ?_⟩
    intro r hr hsome
    have hparts : r <+: [Segment.key j] ++ [Segment.key k] := hr
    rcases List.prefix_concat_iff.mp hparts with rfl | hr
    · rw [show b.get? ([Segment.key j] ++ [Segment.key k]) = none from hn] at hsome
      cases hsome
    · exact hr
  have hp := ((hpaths ["x", "p"]).2 rfl).2 _ _ (hdeepest "x" "p" _ rfl rfl)
  have hk := ((hpaths ["y", "k"]).2 rfl).2 _ _ (hdeepest "y" "k" _ rfl rfl)
  exact ⟨hb, hp, hk, harrays [.key "x", .key "r"] _ [.index 0, .key "s"] rfl,
    hkeys ["x"] _ _ rfl rfl⟩

end Tree

end LayeredConfig
