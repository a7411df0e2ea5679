import LayeredConfig.LayerStack
import Mathlib.Data.List.Induction

/-!
# Merge order: the stable sort by priority

`mergeOrder` sorts by priority and keeps the order of the list among equal priorities.  Two
properties fix a list in merge order: it ascends by priority, and for each priority it holds the
same elements in the same order as the list it came from.

    xs, ys ascending, same ties for every priority → xs = ys                      (eq_of_ties)

From this, filtering and mapping commute with sorting, and a layer put on top of those that do not
outrank it is the layer sorted in as the last one:

    place l (mergeOrder priority ls) = mergeOrder priority (ls ++ [l])            (place_mergeOrder)
    layers registered one by one, names distinct → the stack of their merge order (registerAll_eq)
-/

namespace LayeredConfig

/-- The elements by ascending priority; equal priorities stay in the order of the list. -/
def mergeOrder {α : Type} (priority : α → Priority) (xs : List α) : List α :=
  xs.mergeSort fun a b => decide (priority a ≤ priority b)

variable {α β : Type} {priority : α → Priority}

/-- The elements of one priority, in their order. -/
def ties (priority : α → Priority) (p : Priority) (xs : List α) : List α :=
  xs.filter fun a => priority a = p

/-! ## Lemmas -/

theorem le_trans_of_priority (priority : α → Priority) (a b c : α)
    (hab : decide (priority a ≤ priority b) = true)
    (hbc : decide (priority b ≤ priority c) = true) :
    decide (priority a ≤ priority c) = true :=
  decide_eq_true (Int32.le_trans (of_decide_eq_true hab) (of_decide_eq_true hbc))

theorem le_total_of_priority (priority : α → Priority) (a b : α) :
    (decide (priority a ≤ priority b) || decide (priority b ≤ priority a)) = true := by
  rw [Bool.or_eq_true, decide_eq_true_eq, decide_eq_true_eq]
  exact Int32.le_total _ _

theorem perm_mergeOrder (priority : α → Priority) (xs : List α) :
    (mergeOrder priority xs).Perm xs :=
  List.mergeSort_perm _ _

theorem mem_mergeOrder {a : α} {xs : List α} : a ∈ mergeOrder priority xs ↔ a ∈ xs :=
  (perm_mergeOrder priority xs).mem_iff

theorem ascending_mergeOrder (priority : α → Priority) (xs : List α) :
    (mergeOrder priority xs).Pairwise fun a b => priority a ≤ priority b := by
  have h := List.pairwise_mergeSort (le_trans_of_priority priority)
    (le_total_of_priority priority) xs
  exact h.imp fun hab => of_decide_eq_true hab

theorem ties_append (p : Priority) (xs ys : List α) :
    ties priority p (xs ++ ys) = ties priority p xs ++ ties priority p ys :=
  List.filter_append xs ys

/-- Sorting moves no element past another one of its priority. -/
theorem ties_mergeOrder (p : Priority) (xs : List α) :
    ties priority p (mergeOrder priority xs) = ties priority p xs := by
  have hsub : (ties priority p xs).Sublist (mergeOrder priority xs) := by
    apply List.sublist_mergeSort (le_trans_of_priority priority) (le_total_of_priority priority)
    · apply List.pairwise_of_forall_mem_list
      intro a ha b hb
      have ha' : priority a = p := by simpa using (List.mem_filter.mp ha).2
      have hb' : priority b = p := by simpa using (List.mem_filter.mp hb).2
      rw [ha', hb']
      exact decide_eq_true Int32.le_rfl
    · exact List.filter_sublist
  have hself : ties priority p (ties priority p xs) = ties priority p xs := by
    unfold ties
    rw [List.filter_filter]
    simp
  have hlen : (ties priority p (mergeOrder priority xs)).length = (ties priority p xs).length :=
    ((perm_mergeOrder priority xs).filter _).length_eq
  have hsub' : (ties priority p xs).Sublist (ties priority p (mergeOrder priority xs)) := by
    have := hsub.filter fun a => decide (priority a = p)
    rwa [← ties, ← ties, hself] at this
  exact (hsub'.eq_of_length hlen.symm).symm

/-- A list that ascends by priority is determined by its ties. -/
theorem eq_of_ties {xs ys : List α} (hx : xs.Pairwise fun a b => priority a ≤ priority b)
    (hy : ys.Pairwise fun a b => priority a ≤ priority b)
    (h : ∀ p, ties priority p xs = ties priority p ys) : xs = ys := by
  induction xs generalizing ys with
  | nil =>
    cases ys with
    | nil => rfl
    | cons b ys =>
      have := h (priority b)
      simp [ties] at this
  | cons a xs ih =>
    cases ys with
    | nil =>
      have := h (priority a)
      simp [ties] at this
    | cons b ys =>
      rw [List.pairwise_cons] at hx hy
      -- each head occurs in the other list, so neither outranks the other
      have hab : priority a ≤ priority b := by
        have hb : b ∈ ties priority (priority b) (a :: xs) := by
          rw [h]
          simp [ties]
        rcases List.mem_cons.mp (List.mem_filter.mp hb).1 with rfl | hb
        · exact Int32.le_rfl
        · exact hx.1 b hb
      have hba : priority b ≤ priority a := by
        have ha : a ∈ ties priority (priority a) (b :: ys) := by
          rw [← h]
          simp [ties]
        rcases List.mem_cons.mp (List.mem_filter.mp ha).1 with rfl | ha
        · exact Int32.le_rfl
        · exact hy.1 a ha
      have hpri : priority b = priority a := Int32.le_antisymm hba hab
      have hhead : a = b := by
        have := h (priority a)
        simp only [ties, List.filter_cons, decide_true, if_true, hpri] at this
        exact (List.cons.inj this).1
      subst hhead
      congr 1
      apply ih hx.2 hy.2
      intro p
      have := h p
      simp only [ties, List.filter_cons] at this ⊢
      split at this
      · exact (List.cons.inj this).2
      · exact this

theorem eq_mergeOrder {xs ys : List α} (hy : ys.Pairwise fun a b => priority a ≤ priority b)
    (h : ∀ p, ties priority p ys = ties priority p xs) : ys = mergeOrder priority xs :=
  eq_of_ties hy (ascending_mergeOrder priority xs) fun p => by rw [h, ties_mergeOrder]

theorem filter_mergeOrder (q : α → Bool) (xs : List α) :
    (mergeOrder priority xs).filter q = mergeOrder priority (xs.filter q) := by
  apply eq_mergeOrder
  · exact (ascending_mergeOrder priority xs).filter q
  · intro p
    have hswap : ∀ zs : List α, ties priority p (zs.filter q) = (ties priority p zs).filter q := by
      intro zs
      unfold ties
      rw [List.filter_filter, List.filter_filter]
      simp only [Bool.and_comm]
    rw [hswap, hswap, ties_mergeOrder]

theorem map_mergeOrder (f : α → β) (priority : β → Priority) (xs : List α) :
    (mergeOrder (priority ∘ f) xs).map f = mergeOrder priority (xs.map f) :=
  List.map_mergeSort fun _ _ _ _ => rfl

/-- Elements that do not tie can be sorted in one after the other in either order. -/
theorem mergeOrder_append_append (xs : List α) {a b : α}
    (h : priority a ≠ priority b) :
    mergeOrder priority (xs ++ [a] ++ [b]) = mergeOrder priority (xs ++ [b] ++ [a]) := by
  apply eq_mergeOrder (ascending_mergeOrder priority _)
  intro p
  rw [ties_mergeOrder]
  unfold ties
  simp only [List.filter_append, List.append_assoc, List.filter_cons, List.filter_nil]
  by_cases ha : priority a = p
  · have hb : ¬ priority b = p := fun hb => h (ha.trans hb.symm)
    simp [ha, hb]
  · simp [ha]

/-- An element that nothing outranks, at the end of the list, stays there. -/
theorem mergeOrder_append_greatest {xs : List α} {a : α} (h : ∀ x ∈ xs, priority x ≤ priority a) :
    mergeOrder priority (xs ++ [a]) = mergeOrder priority xs ++ [a] := by
  symm
  apply eq_mergeOrder
  · rw [List.pairwise_append]
    refine ⟨ascending_mergeOrder priority xs, List.pairwise_singleton _ _, ?_⟩
    intro x hx b hb
    rw [List.mem_singleton.mp hb]
    exact h x (mem_mergeOrder.mp hx)
  · intro p
    rw [ties_append, ties_append, ties_mergeOrder]

/-- What nothing outranks comes last, in the order of the list. -/
theorem mergeOrder_eq_append_ties {p : Priority} {xs : List α} (h : ∀ a ∈ xs, priority a ≤ p) :
    mergeOrder priority xs =
      mergeOrder priority (xs.filter fun a => priority a ≠ p) ++ ties priority p xs := by
  symm
  apply eq_mergeOrder
  · rw [List.pairwise_append]
    refine ⟨ascending_mergeOrder priority _, ?_, ?_⟩
    · apply List.pairwise_of_forall_mem_list
      intro a ha b hb
      rw [of_decide_eq_true (List.mem_filter.mp ha).2, of_decide_eq_true (List.mem_filter.mp hb).2]
      exact Int32.le_rfl
    · intro a ha b hb
      rw [of_decide_eq_true (List.mem_filter.mp hb).2]
      exact h a (List.mem_filter.mp (mem_mergeOrder.mp ha)).1
  · intro q
    rw [ties_append, ties_mergeOrder]
    unfold ties
    rw [List.filter_filter, List.filter_filter]
    by_cases hq : q = p
    · subst hq
      simp
    · have hlow : ∀ a, (decide (priority a = q) && decide (priority a ≠ p)) =
          decide (priority a = q) := by
        intro a
        by_cases ha : priority a = q
        · simp [ha, hq]
        · simp [ha]
      have hties : ∀ a, (decide (priority a = q) && decide (priority a = p)) = false := by
        intro a
        by_cases ha : priority a = q
        · simp [ha, hq]
        · simp [ha]
      simp only [hlow, hties]
      simp

namespace LayerStack

theorem place_eq {l : Layer} {low high : List Layer} (hlow : ∀ m ∈ low, m.priority ≤ l.priority)
    (hhigh : ∀ m ∈ high, l.priority < m.priority) : place l (low ++ high) = low ++ l :: high := by
  induction low with
  | nil =>
    cases high with
    | nil => rfl
    | cons m ms =>
      have hm : ¬ m.priority ≤ l.priority := by
        rw [Int32.not_le]
        exact hhigh m List.mem_cons_self
      rw [List.nil_append, place, if_neg hm, List.nil_append]
  | cons m ms ih =>
    rw [List.cons_append, place, if_pos (hlow m List.mem_cons_self), List.cons_append,
      ih fun k hk => hlow k (List.mem_cons_of_mem m hk)]

/-- A list of layers in ascending order splits at any priority. -/
theorem exists_split {ls : List Layer} (h : ls.Pairwise fun l m => l.priority ≤ m.priority)
    (p : Priority) : ∃ low high, ls = low ++ high ∧ (∀ m ∈ low, m.priority ≤ p) ∧
      ∀ m ∈ high, p < m.priority := by
  induction ls with
  | nil => exact ⟨[], [], rfl, by simp, by simp⟩
  | cons l ls ih =>
    rw [List.pairwise_cons] at h
    by_cases hl : l.priority ≤ p
    · obtain ⟨low, high, rfl, hlow, hhigh⟩ := ih h.2
      refine ⟨l :: low, high, rfl, ?_, hhigh⟩
      intro m hm
      rcases List.mem_cons.mp hm with rfl | hm
      · exact hl
      · exact hlow m hm
    · have hlt : p < l.priority := Int32.not_le.mp hl
      refine ⟨[], l :: ls, rfl, by simp, ?_⟩
      intro m hm
      rcases List.mem_cons.mp hm with rfl | hm
      · exact hlt
      · exact Int32.lt_of_lt_of_le hlt (h.1 m hm)

/-- Putting a layer on top of those that do not outrank it sorts it in as the last one. -/
theorem place_mergeOrder (l : Layer) (ls : List Layer) :
    place l (mergeOrder Layer.priority ls) = mergeOrder Layer.priority (ls ++ [l]) := by
  have hasc := ascending_mergeOrder Layer.priority ls
  have hties : ∀ p, ties Layer.priority p (mergeOrder Layer.priority ls) =
      ties Layer.priority p ls := fun p => ties_mergeOrder p ls
  obtain ⟨low, high, hsplit, hlow, hhigh⟩ := exists_split hasc l.priority
  rw [hsplit] at hasc hties ⊢
  rw [place_eq hlow hhigh]
  rw [List.pairwise_append] at hasc
  apply eq_mergeOrder
  · rw [List.pairwise_append, List.pairwise_cons]
    refine ⟨hasc.1, ⟨fun m hm => Int32.le_of_lt (hhigh m hm), hasc.2.1⟩, ?_⟩
    intro m hm k hk
    rcases List.mem_cons.mp hk with rfl | hk
    · exact hlow m hm
    · exact hasc.2.2 m hm k hk
  · intro p
    have hp := hties p
    simp only [ties, List.filter_append, List.filter_cons, List.filter_nil] at hp ⊢
    rw [← hp]
    by_cases hl : l.priority = p
    · -- no layer above has the priority of `l`
      have hnone : high.filter (fun m => decide (m.priority = p)) = [] := by
        rw [List.filter_eq_nil_iff]
        intro m hm hmp
        have hlt := hhigh m hm
        rw [of_decide_eq_true hmp, ← hl] at hlt
        exact Int32.lt_irrefl hlt
      simp [hl, hnone]
    · simp [hl]

/-! ## Registering in merge order -/

/-- The stack of the layers in merge order. -/
def sorted (ls : List Layer) : LayerStack := ofLayers (mergeOrder Layer.priority ls)

theorem register_sorted (l : Layer) (ls : List Layer) :
    (sorted ls).register l = sorted (ls.filter (fun m => m.name ≠ l.name) ++ [l]) := by
  show ofLayers (place l ((mergeOrder Layer.priority ls).filter fun m => m.name ≠ l.name)) = _
  rw [filter_mergeOrder, place_mergeOrder, sorted]

theorem unregister_sorted (name : String) (ls : List Layer) :
    (sorted ls).unregister name = sorted (ls.filter fun m => m.name ≠ name) := by
  unfold unregister
  split
  · show ofLayers ((mergeOrder Layer.priority ls).filter fun m => m.name ≠ name) = _
    rw [filter_mergeOrder, sorted]
  · next h =>
    have hnone : ((sorted ls).layer? name) = none := by simpa using h
    have hall : ∀ m ∈ ls, decide (m.name ≠ name) = true := by
      intro m hm
      have hm' : m ∈ (sorted ls).layers := mem_mergeOrder.mpr hm
      have := List.find?_eq_none.mp hnone m hm'
      simpa using this
    rw [List.filter_eq_self.mpr hall]

theorem sorted_nil : sorted [] = {} := by
  simp [sorted, mergeOrder, ofLayers, Tree.mergeAll]

/-- Layers of different names, registered one after the other, lie in merge order. -/
theorem registerAll_eq {ls : List Layer} (h : (ls.map Layer.name).Nodup) :
    ls.foldl register {} = sorted ls := by
  induction ls using List.reverseRecOn with
  | nil => exact sorted_nil.symm
  | append_singleton ls l ih =>
    rw [List.map_append, List.nodup_append] at h
    obtain ⟨hls, -, hne⟩ := h
    rw [List.foldl_append, ih hls, List.foldl_cons, List.foldl_nil, register_sorted]
    congr 2
    rw [List.filter_eq_self]
    intro m hm
    have := hne m.name (List.mem_map_of_mem hm) l.name (by simp)
    simpa using this

end LayerStack

end LayeredConfig
