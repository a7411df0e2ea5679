import LayeredConfig.Assoc
import Mathlib.Data.List.Perm.Basic

/-!
# Entries put in order

`ordered cmp es` puts the entries one after the other at their places.  When no key comes twice,
the outcome is the entries in ascending order, whatever order they came in:

    (ordered cmp es).Perm es                                             (ordered_perm)
    the keys of ordered cmp es ascend                                    (pairwise_ordered)
    es.Perm fs → ordered cmp es = ordered cmp fs                         (ordered_eq_of_perm)

Entries that are left out leave the order of the others alone (`ordered_filter`).
-/

namespace LayeredConfig.Assoc

/-- The entries put at their places, one after the other. -/
def ordered {α β : Type} (cmp : α → α → Ordering) (es : List (α × β)) : List (α × β) :=
  es.foldl (fun acc e => insertSorted cmp e.1 e.2 acc) []

/-! ## Lemmas -/

variable {α β : Type} {cmp : α → α → Ordering} {k : α} {v : β} {e : α × β} {es fs : List (α × β)}

theorem insertSorted_perm [Std.LawfulEqCmp cmp] (h : k ∉ keys es) (v : β) :
    (insertSorted cmp k v es).Perm ((k, v) :: es) := by
  induction es with
  | nil => exact List.Perm.refl _
  | cons e es ih =>
    rw [keys_cons, List.mem_cons, not_or] at h
    unfold insertSorted
    cases hcmp : cmp k e.1 with
    | lt => exact List.Perm.refl _
    | eq => exact absurd (Std.LawfulEqCmp.eq_of_compare hcmp) h.1
    | gt => exact ((ih h.2).cons e).trans (List.Perm.swap (k, v) e es)

theorem key_of_mem_insertSorted (h : e ∈ insertSorted cmp k v es) : e.1 = k ∨ e.1 ∈ keys es := by
  induction es with
  | nil => exact .inl (congrArg Prod.fst (List.mem_singleton.mp h))
  | cons d es ih =>
    unfold insertSorted at h
    rw [keys_cons, List.mem_cons]
    cases hcmp : cmp k d.1 with
    | lt =>
      rw [hcmp] at h
      rcases List.mem_cons.mp h with rfl | h
      · exact .inl rfl
      · exact .inr (List.mem_cons.mp (List.mem_map_of_mem h))
    | eq =>
      rw [hcmp] at h
      rcases List.mem_cons.mp h with rfl | h
      · exact .inr (.inl rfl)
      · exact .inr (.inr (List.mem_map_of_mem h))
    | gt =>
      rw [hcmp] at h
      rcases List.mem_cons.mp h with rfl | h
      · exact .inr (.inl rfl)
      · exact (ih h).imp_right .inr

theorem pairwise_insertSorted [Std.TransCmp cmp] (h : es.Pairwise fun a b => cmp a.1 b.1 = .lt)
    (k : α) (v : β) : (insertSorted cmp k v es).Pairwise fun a b => cmp a.1 b.1 = .lt := by
  induction es with
  | nil => exact List.pairwise_singleton _ _
  | cons e es ih =>
    rw [List.pairwise_cons] at h
    unfold insertSorted
    cases hcmp : cmp k e.1 with
    | lt =>
      refine List.pairwise_cons.mpr ⟨?_, List.pairwise_cons.mpr h⟩
      intro d hd
      rcases List.mem_cons.mp hd with rfl | hd
      · exact hcmp
      · exact Std.TransCmp.lt_trans hcmp (h.1 d hd)
    | eq => exact List.pairwise_cons.mpr h
    | gt =>
      refine List.pairwise_cons.mpr ⟨?_, ih h.2⟩
      intro d hd
      rcases key_of_mem_insertSorted hd with hk | hk
      · rw [hk]
        exact Std.OrientedCmp.gt_iff_lt.mp hcmp
      · obtain ⟨d', hd', heq⟩ := List.mem_map.mp hk
        rw [← heq]
        exact h.1 d' hd'

theorem ordered_perm [Std.LawfulEqCmp cmp] (h : (keys es).Nodup) : (ordered cmp es).Perm es := by
  have hfold : ∀ acc : List (α × β), (keys (acc ++ es)).Nodup →
      (es.foldl (fun acc e => insertSorted cmp e.1 e.2 acc) acc).Perm (acc ++ es) := by
    clear h
    induction es with
    | nil =>
      intro acc _
      rw [List.append_nil]
      exact List.Perm.refl _
    | cons e es ih =>
      intro acc h
      have hnew : e.1 ∉ keys acc := not_mem_keys_of_nodup h
      have hput : (insertSorted cmp e.1 e.2 acc ++ es).Perm (acc ++ e :: es) :=
        ((insertSorted_perm hnew e.2).append_right es).trans List.perm_middle.symm
      have hnd : (keys (insertSorted cmp e.1 e.2 acc ++ es)).Nodup :=
        (hput.map Prod.fst).nodup_iff.mpr h
      exact (ih _ hnd).trans hput
  exact hfold [] h

theorem pairwise_ordered [Std.TransCmp cmp] (es : List (α × β)) :
    (ordered cmp es).Pairwise fun a b => cmp a.1 b.1 = .lt := by
  have hfold : ∀ acc : List (α × β), (acc.Pairwise fun a b => cmp a.1 b.1 = .lt) →
      (es.foldl (fun acc e => insertSorted cmp e.1 e.2 acc) acc).Pairwise
        fun a b => cmp a.1 b.1 = .lt := by
    induction es with
    | nil => exact fun acc h => h
    | cons e es ih => exact fun acc h => ih _ (pairwise_insertSorted h e.1 e.2)
  exact hfold [] List.Pairwise.nil

/-- There is one way to put entries in order. -/
theorem eq_of_perm_of_pairwise [Std.OrientedCmp cmp] (hperm : es.Perm fs)
    (hes : es.Pairwise fun a b => cmp a.1 b.1 = .lt)
    (hfs : fs.Pairwise fun a b => cmp a.1 b.1 = .lt) : es = fs := by
  refine hperm.eq_of_pairwise ?_ hes hfs
  intro a b _ _ hab hba
  rw [Std.OrientedCmp.gt_of_lt hab] at hba
  cases hba

/-- The order in which the entries come does not matter. -/
theorem ordered_eq_of_perm [Std.TransCmp cmp] [Std.LawfulEqCmp cmp] (h : (keys es).Nodup)
    (hperm : es.Perm fs) : ordered cmp es = ordered cmp fs := by
  have hfs : (keys fs).Nodup := (hperm.map Prod.fst).nodup_iff.mp h
  have hboth : (ordered cmp es).Perm (ordered cmp fs) :=
    ((ordered_perm h).trans hperm).trans (ordered_perm hfs).symm
  exact eq_of_perm_of_pairwise hboth (pairwise_ordered es) (pairwise_ordered fs)

theorem ordered_filter [Std.TransCmp cmp] [Std.LawfulEqCmp cmp] (h : (keys es).Nodup)
    (p : α × β → Bool) : ordered cmp (es.filter p) = (ordered cmp es).filter p := by
  have hfilter : (keys (es.filter p)).Nodup := h.sublist (List.filter_sublist.map Prod.fst)
  have hboth : (ordered cmp (es.filter p)).Perm ((ordered cmp es).filter p) :=
    (ordered_perm hfilter).trans ((ordered_perm h).filter p).symm
  exact eq_of_perm_of_pairwise hboth (pairwise_ordered _) ((pairwise_ordered es).filter p)

end LayeredConfig.Assoc
