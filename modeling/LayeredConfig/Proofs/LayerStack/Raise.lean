import LayeredConfig.Proofs.LayerStack.Order
import LayeredConfig.Proofs.LayerStack.Override

/-!
# Registering a layer again as it is

Among layers in ascending order, a layer comes to lie above those that do not outrank it
(`exists_split_register`).  One that is registered again as it is passes the later layers of its
priority and nothing else (`Raised`, `raised_register_self`):

    low, l, ties, high  becomes  low, ties, l, high

The names change unless there are no ties (`Raised.names_eq_iff`); the merged view stays when there
are none (`Raised.merged_eq`), and its values and arrays stay when `l` is apart from each of them
(`Raised.sameLeaves`).
-/

namespace LayeredConfig

namespace LayerStack

/-- One stack is the other with a layer moved above the later ones of its priority. -/
structure Raised (l : Layer) (low ties high : List Layer) (s s' : LayerStack) : Prop where
  before : s.layers = low ++ l :: (ties ++ high)
  after : s'.layers = low ++ ties ++ l :: high
  priority_ties : ∀ m ∈ ties, m.priority = l.priority
  priority_high : ∀ m ∈ high, l.priority < m.priority

/-! ## Lemmas -/

/-- Moving an element past others changes a list of distinct elements, unless there are none. -/
theorem move_eq_self_iff {α : Type} {a : α} {low xs high : List α}
    (h : (low ++ a :: (xs ++ high)).Nodup) :
    low ++ xs ++ a :: high = low ++ a :: (xs ++ high) ↔ xs = [] := by
  constructor
  · intro heq
    rw [List.append_assoc, List.append_cancel_left_eq] at heq
    cases xs with
    | nil => rfl
    | cons x xs =>
      obtain rfl : x = a := (List.cons.inj heq).1
      rw [List.nodup_append, List.nodup_cons] at h
      exact absurd List.mem_cons_self h.2.1.1
  · rintro rfl
    simp

theorem exists_split_register {s : LayerStack}
    (hasc : s.layers.Pairwise fun l m => l.priority ≤ m.priority) (l : Layer) :
    ∃ low high, s.others l.name = low ++ high ∧ (s.register l).layers = low ++ l :: high ∧
      (∀ m ∈ low, m.priority ≤ l.priority) ∧ ∀ m ∈ high, l.priority < m.priority := by
  have hasc' : (s.others l.name).Pairwise fun l m => l.priority ≤ m.priority := hasc.filter _
  obtain ⟨low, high, hsplit, hlow, hhigh⟩ := exists_split hasc' l.priority
  refine ⟨low, high, hsplit, ?_, hlow, hhigh⟩
  show place l (s.others l.name) = _
  rw [hsplit, place_eq hlow hhigh]

theorem raised_register_self {s : LayerStack} (hnd : s.names.Nodup)
    (hasc : s.layers.Pairwise fun l m => l.priority ≤ m.priority) {l : Layer} (hl : l ∈ s.layers) :
    ∃ low ties high, Raised l low ties high s (s.register l) := by
  obtain ⟨low, rest, hsplit⟩ := List.append_of_mem hl
  rw [hsplit, List.pairwise_append, List.pairwise_cons] at hasc
  obtain ⟨-, ⟨hrest, hasc'⟩, hlow⟩ := hasc
  obtain ⟨ties, high, rfl, hties, hhigh⟩ := exists_split hasc' l.priority
  have hothers : s.others l.name = low ++ ties ++ high := by
    rw [names, hsplit, List.map_append, List.map_cons, List.nodup_append, List.nodup_cons] at hnd
    obtain ⟨-, ⟨hnotin, -⟩, hdisj⟩ := hnd
    have hlow' : ∀ m ∈ low, decide (m.name ≠ l.name) = true := by
      intro m hm
      exact decide_eq_true (hdisj m.name (List.mem_map_of_mem hm) l.name List.mem_cons_self)
    have hrest' : ∀ m ∈ ties ++ high, decide (m.name ≠ l.name) = true := by
      intro m hm
      refine decide_eq_true fun hname => hnotin ?_
      exact hname ▸ List.mem_map_of_mem hm
    unfold others
    rw [hsplit, List.filter_append, List.filter_cons, if_neg (by simp),
      List.filter_eq_self.mpr hlow', List.filter_eq_self.mpr hrest', List.append_assoc]
  refine ⟨low, ties, high, hsplit, ?_, ?_, hhigh⟩
  · show place l (s.others l.name) = _
    rw [hothers]
    apply place_eq
    · intro m hm
      rcases List.mem_append.mp hm with hm | hm
      · exact hlow m hm l List.mem_cons_self
      · exact hties m hm
    · exact hhigh
  · intro m hm
    exact Int32.le_antisymm (hties m hm) (hrest m (List.mem_append_left _ hm))

section Raised

variable {l : Layer} {low ties high : List Layer} {s s' : LayerStack}
  (h : Raised l low ties high s s')

include h

theorem Raised.names_before : s.names =
    low.map Layer.name ++ l.name :: (ties.map Layer.name ++ high.map Layer.name) := by
  unfold names
  rw [h.before]
  simp

theorem Raised.names_after : s'.names =
    low.map Layer.name ++ ties.map Layer.name ++ l.name :: high.map Layer.name := by
  unfold names
  rw [h.after]
  simp

theorem Raised.mem_of_mem_ties {m : Layer} (hm : m ∈ ties) : m ∈ s.layers := by
  rw [h.before]
  simp [hm]

theorem Raised.mem_of_mem_high {m : Layer} (hm : m ∈ high) : m ∈ s.layers := by
  rw [h.before]
  simp [hm]

theorem Raised.names_eq_iff (hs : s.Consistent) :
    s'.names = s.names ↔ ties.map Layer.name = [] := by
  have hnd := hs.nodup_names
  rw [h.names_before] at hnd
  rw [h.names_before, h.names_after]
  exact move_eq_self_iff hnd

theorem Raised.merged_eq (hs : s.Consistent) (hs' : s'.Consistent) (hties : ties = []) :
    s'.merged = s.merged := by
  rw [hs.merged_eq, hs'.merged_eq, h.before, h.after, hties]
  simp

theorem Raised.sameLeaves (hs : s.Consistent) (hs' : s'.Consistent)
    (hties : ∀ m ∈ ties, l.tree.Apart m.tree) : s.merged.SameLeaves s'.merged := by
  rw [hs.merged_eq, hs'.merged_eq, h.before, h.after]
  simp only [List.map_append, List.map_cons]
  apply Tree.sameLeaves_mergeAll
  · exact hs.distinct l (by simp [h.before])
  · intro u hu
    obtain ⟨m, hm, rfl⟩ := List.mem_map.mp hu
    exact ⟨hs.distinct m (h.mem_of_mem_ties hm), hties m hm⟩
  · intro u hu
    obtain ⟨m, hm, rfl⟩ := List.mem_map.mp hu
    exact hs.distinct m (h.mem_of_mem_high hm)

end Raised

end LayerStack

end LayeredConfig
