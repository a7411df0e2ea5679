import LayeredConfig.Tree.Flatten
import Mathlib.Data.List.Basic
import Mathlib.Data.List.Nodup

/-!
# The values of a tree and where they stand

`leaves` lists the values of a tree, each with its path.  That is what lookup finds, once for every
path, and as many as there are values (`countValues`):

    (p, s) ∈ t.leaves ↔ t.get? p = some (value s)                                  (mem_leaves_iff)
    no path is listed twice                                                   (nodup_paths_leaves)
    t.leaves.length = t.countValues                                               (length_leaves)

The first two need maps that name no key twice.  Below a longer path there are the same leaves, so
that the recursion can be read as one over the children (`leaves_array`, `leaves_map`).
-/

namespace LayeredConfig.Tree

mutual

/-- How many values a tree has. -/
def countValues : Tree → Nat
  | value _ => 1
  | array ts => countItems ts
  | map es => countEntries es

def countItems : List Tree → Nat
  | [] => 0
  | t :: ts => countValues t + countItems ts

def countEntries : List (String × Tree) → Nat
  | [] => 0
  | (_, t) :: es => countValues t + countEntries es

end

mutual

/-- The segments that lead from the nodes of a tree to their children, at every depth. -/
def segments : Tree → List Segment
  | value _ => []
  | array ts => segmentsOfItems 0 ts
  | map es => segmentsOfEntries es

def segmentsOfItems (i : Nat) : List Tree → List Segment
  | [] => []
  | t :: ts => .index i :: (segments t ++ segmentsOfItems (i + 1) ts)

def segmentsOfEntries : List (String × Tree) → List Segment
  | [] => []
  | (k, t) :: es => .key k :: (segments t ++ segmentsOfEntries es)

end

/-! ## Lemmas -/

variable {t u : Tree} {ts : List Tree} {es : List (String × Tree)} {p : Path} {s : String}

/-! ### Leaves of the children -/

theorem leavesOfItems_eq (path : Path) (i : Nat) (ts : List Tree) :
    leavesOfItems path i ts =
      (ts.zipIdx i).flatMap fun x => leavesAt (path ++ [.index x.2]) x.1 := by
  induction ts generalizing i with
  | nil => rw [leavesOfItems, List.zipIdx_nil, List.flatMap_nil]
  | cons t ts ih => rw [leavesOfItems, ih, List.zipIdx_cons, List.flatMap_cons]

theorem leavesOfEntries_eq (path : Path) (es : List (String × Tree)) :
    leavesOfEntries path es = es.flatMap fun e => leavesAt (path ++ [.key e.1]) e.2 := by
  induction es with
  | nil => rw [leavesOfEntries, List.flatMap_nil]
  | cons e es ih => rw [leavesOfEntries, ih, List.flatMap_cons]

/-- The leaves below a path are the leaves with that path in front. -/
theorem leavesAt_eq (path : Path) (t : Tree) :
    leavesAt path t = t.leaves.map fun l => (path ++ l.1, l.2) := by
  induction t using Tree.induction generalizing path with
  | value s => simp [leaves, leavesAt]
  | array ts ih =>
    rw [leaves, leavesAt, leavesAt, leavesOfItems_eq, leavesOfItems_eq, List.map_flatMap]
    apply List.flatMap_congr
    intro x hx
    have hmem : x.1 ∈ ts := List.mem_of_getElem? (List.mem_zipIdx_iff_getElem?.mp hx)
    rw [ih x.1 hmem, ih x.1 hmem, List.map_map]
    simp
  | map es ih =>
    rw [leaves, leavesAt, leavesAt, leavesOfEntries_eq, leavesOfEntries_eq, List.map_flatMap]
    apply List.flatMap_congr
    intro e he
    rw [ih e he, ih e he, List.map_map]
    simp

theorem leaves_array (ts : List Tree) : (array ts).leaves =
    ts.zipIdx.flatMap fun x => x.1.leaves.map fun l => (.index x.2 :: l.1, l.2) := by
  rw [leaves, leavesAt, leavesOfItems_eq]
  simp [leavesAt_eq]

theorem leaves_map (es : List (String × Tree)) : (map es).leaves =
    es.flatMap fun e => e.2.leaves.map fun l => (.key e.1 :: l.1, l.2) := by
  rw [leaves, leavesAt, leavesOfEntries_eq]
  simp [leavesAt_eq]

/-! ### Leaves and lookup -/

theorem mem_leaves_iff (h : t.Distinct) : (p, s) ∈ t.leaves ↔ t.get? p = some (value s) := by
  induction t using Tree.induction generalizing p with
  | value v =>
    cases p with
    | nil => simp [leaves, leavesAt, eq_comm]
    | cons s' p =>
      have hnone : (value v).get? (s' :: p) = none := by cases s' <;> rfl
      simp [leaves, leavesAt, hnone]
  | array ts ih =>
    rw [distinct_array_iff] at h
    rw [leaves_array, List.mem_flatMap]
    constructor
    · rintro ⟨⟨u, i⟩, hu, hbelow⟩
      obtain ⟨l, hl, ⟨⟩⟩ := List.mem_map.mp hbelow
      have hchild : ts[i]? = some u := List.mem_zipIdx_iff_getElem?.mp hu
      have hmem : u ∈ ts := List.mem_of_getElem? hchild
      show (ts[i]?).bind (get? l.1) = _
      rw [hchild]
      exact (ih u hmem (h u hmem)).mp hl
    · intro hget
      obtain _ | ⟨k | i, q⟩ := p
      · cases hget
      · cases hget
      · obtain ⟨u, hchild, hq⟩ := Option.bind_eq_some_iff.mp hget
        have hmem : u ∈ ts := List.mem_of_getElem? hchild
        refine ⟨(u, i), List.mem_zipIdx_iff_getElem?.mpr hchild, List.mem_map.mpr ?_⟩
        exact ⟨(q, s), (ih u hmem (h u hmem)).mpr hq, rfl⟩
  | map es ih =>
    rw [distinct_map_iff] at h
    rw [leaves_map, List.mem_flatMap]
    constructor
    · rintro ⟨e, he, hbelow⟩
      obtain ⟨l, hl, ⟨⟩⟩ := List.mem_map.mp hbelow
      show (Assoc.get? e.1 es).bind (get? l.1) = _
      rw [Assoc.get?_of_mem h.1 he]
      exact (ih e he (h.2 e he)).mp hl
    · intro hget
      obtain _ | ⟨k | i, q⟩ := p
      · cases hget
      · obtain ⟨u, hchild, hq⟩ := Option.bind_eq_some_iff.mp hget
        have hmem : (k, u) ∈ es := Assoc.mem_of_get? hchild
        refine ⟨(k, u), hmem, List.mem_map.mpr ?_⟩
        exact ⟨(q, s), (ih (k, u) hmem (h.2 (k, u) hmem)).mpr hq, rfl⟩
      · cases hget

theorem paths_below (s : Segment) (ls : List (Path × String)) :
    (ls.map fun l => (s :: l.1, l.2)).map Prod.fst = (ls.map Prod.fst).map (s :: ·) := by
  rw [List.map_map, List.map_map]
  rfl

/-- The paths of two children differ in their first segment. -/
theorem disjoint_below {s s' : Segment} (h : s ≠ s') (ps qs : List Path) :
    List.Disjoint (ps.map (s :: ·)) (qs.map (s' :: ·)) := by
  intro p hp hq
  obtain ⟨p', -, rfl⟩ := List.mem_map.mp hp
  obtain ⟨q', -, heq⟩ := List.mem_map.mp hq
  exact h (List.cons.inj heq).1.symm

theorem nodup_paths_leaves (h : t.Distinct) : (t.leaves.map Prod.fst).Nodup := by
  induction t using Tree.induction with
  | value v => simp [leaves, leavesAt]
  | array ts ih =>
    rw [distinct_array_iff] at h
    rw [leaves_array, List.map_flatMap]
    simp only [paths_below]
    rw [List.nodup_flatMap]
    constructor
    · rintro ⟨u, i⟩ hu
      have hmem : u ∈ ts := List.mem_of_getElem? (List.mem_zipIdx_iff_getElem?.mp hu)
      exact (ih u hmem (h u hmem)).map List.cons_injective
    · have hpositions : (ts.zipIdx.map Prod.snd).Nodup := by
        rw [List.zipIdx_map_snd]
        exact List.nodup_range'
      refine (List.pairwise_map.mp hpositions).imp ?_
      intro x y hxy
      exact disjoint_below (fun hs => hxy (Segment.index.inj hs)) _ _
  | map es ih =>
    rw [distinct_map_iff] at h
    rw [leaves_map, List.map_flatMap]
    simp only [paths_below]
    rw [List.nodup_flatMap]
    constructor
    · intro e he
      exact (ih e he (h.2 e he)).map List.cons_injective
    · refine (List.pairwise_map.mp h.1).imp ?_
      intro d e hde
      exact disjoint_below (fun hs => hde (Segment.key.inj hs)) _ _

/-! ### Counting leaves -/

theorem length_leavesOfItems (h : ∀ t ∈ ts, ∀ path, (leavesAt path t).length = t.countValues)
    (path : Path) (i : Nat) : (leavesOfItems path i ts).length = countItems ts := by
  induction ts generalizing i with
  | nil => rfl
  | cons t ts ih =>
    rw [List.forall_mem_cons] at h
    rw [leavesOfItems, List.length_append, h.1, ih h.2, countItems]

theorem length_leavesOfEntries (h : ∀ e ∈ es, ∀ path, (leavesAt path e.2).length = e.2.countValues)
    (path : Path) : (leavesOfEntries path es).length = countEntries es := by
  induction es with
  | nil => rfl
  | cons e es ih =>
    rw [List.forall_mem_cons] at h
    rw [leavesOfEntries, List.length_append, h.1, ih h.2, countEntries]

theorem length_leavesAt (path : Path) (t : Tree) : (leavesAt path t).length = t.countValues := by
  induction t using Tree.induction generalizing path with
  | value s => rfl
  | array ts ih => exact length_leavesOfItems ih path 0
  | map es ih => exact length_leavesOfEntries ih path

theorem length_leaves (t : Tree) : t.leaves.length = t.countValues := length_leavesAt [] t

/-! ### Segments on the way -/

theorem segmentsOfItems_eq (i : Nat) (ts : List Tree) :
    segmentsOfItems i ts = (ts.zipIdx i).flatMap fun x => .index x.2 :: x.1.segments := by
  induction ts generalizing i with
  | nil => rw [segmentsOfItems, List.zipIdx_nil, List.flatMap_nil]
  | cons t ts ih => rw [segmentsOfItems, ih, List.zipIdx_cons, List.flatMap_cons, List.cons_append]

theorem segmentsOfEntries_eq (es : List (String × Tree)) :
    segmentsOfEntries es = es.flatMap fun e => .key e.1 :: e.2.segments := by
  induction es with
  | nil => rw [segmentsOfEntries, List.flatMap_nil]
  | cons e es ih => rw [segmentsOfEntries, ih, List.flatMap_cons, List.cons_append]

theorem mem_segments_of_child? {s : Segment} (h : t.child? s = some u) :
    s ∈ t.segments ∧ ∀ x ∈ u.segments, x ∈ t.segments := by
  cases s with
  | key k =>
    cases t with
    | value v => cases h
    | array ts => cases h
    | map es =>
      rw [segments, segmentsOfEntries_eq]
      have hmem : (k, u) ∈ es := Assoc.mem_of_get? h
      exact ⟨List.mem_flatMap.mpr ⟨(k, u), hmem, List.mem_cons_self⟩,
        fun x hx => List.mem_flatMap.mpr ⟨(k, u), hmem, List.mem_cons_of_mem _ hx⟩⟩
  | index i =>
    cases t with
    | value v => cases h
    | map es => cases h
    | array ts =>
      rw [segments, segmentsOfItems_eq]
      have hmem : (u, i) ∈ ts.zipIdx := List.mem_zipIdx_iff_getElem?.mpr h
      exact ⟨List.mem_flatMap.mpr ⟨(u, i), hmem, List.mem_cons_self⟩,
        fun x hx => List.mem_flatMap.mpr ⟨(u, i), hmem, List.mem_cons_of_mem _ hx⟩⟩

theorem mem_segments_of_get? (h : t.get? p = some u) : ∀ s ∈ p, s ∈ t.segments := by
  induction p generalizing t with
  | nil => simp
  | cons s p ih =>
    obtain ⟨v, hv, hp⟩ := Option.bind_eq_some_iff.mp h
    obtain ⟨hs, hsub⟩ := mem_segments_of_child? hv
    exact List.forall_mem_cons.mpr ⟨hs, fun x hx => hsub x (ih hp x hx)⟩

end LayeredConfig.Tree
