import LayeredConfig.Profile.Active

/-!
# The levels of a decorated key

Peeling a key takes off one decoration after the other, the last one first (`Decoration.levels`);
what is left is the bare name (`Decoration.strip`).  Both ask the same question at every step, so
the active profiles decide about a key level by level:

    every level lists an active profile → the key survives as its bare name    (resolve?_eq_some_iff)
    some level lists none               → the key is dropped                   (resolve?_eq_none_iff)
-/

namespace LayeredConfig

namespace Decoration

/-- The decorations of a key, the last one first. -/
def levels (key : List Char) : List Decoration :=
  match _h : parse? key with
  | none => []
  | some d => d :: levels d.name
termination_by key.length
decreasing_by exact length_name_lt _h

/-! ## Lemmas -/

theorem levels_of_plain {key : List Char} (h : parse? key = none) : levels key = [] := by
  rw [levels]
  split
  · rfl
  · next hd =>
    rw [h] at hd
    cases hd

theorem levels_of_decorated {key : List Char} {d : Decoration} (h : parse? key = some d) :
    levels key = d :: levels d.name := by
  rw [levels]
  split
  · next hd =>
    rw [h] at hd
    cases hd
  · next d' hd =>
    obtain rfl := Option.some.inj (h.symm.trans hd)
    rfl

theorem strip_of_plain {key : List Char} (h : parse? key = none) : strip key = key := by
  rw [strip]
  split
  · rfl
  · next hd =>
    rw [h] at hd
    cases hd

theorem strip_of_decorated {key : List Char} {d : Decoration} (h : parse? key = some d) :
    strip key = strip d.name := by
  rw [strip]
  split
  · next hd =>
    rw [h] at hd
    cases hd
  · next d' hd =>
    obtain rfl := Option.some.inj (h.symm.trans hd)
    rfl

end Decoration

namespace ProfileSet

variable {P : ProfileSet}

/-- One of the profiles that the decoration lists is active. -/
def Admits (P : ProfileSet) (d : Decoration) : Prop := ∃ x ∈ d.profiles, String.ofList x ∈ P

theorem meets_eq_true_iff {d : Decoration} :
    P.meets (d.profiles.map String.ofList) = true ↔ P.Admits d := by
  simp [meets, Admits]

theorem resolveLetters_eq_some_iff {key name : List Char} :
    P.resolveLetters key = some name ↔
      (∀ d ∈ Decoration.levels key, P.Admits d) ∧ name = Decoration.strip key := by
  fun_induction P.resolveLetters key with
  | case1 key hd =>
    rw [Decoration.levels_of_plain hd, Decoration.strip_of_plain hd]
    simp [eq_comm]
  | case2 key d hd hmeets ih =>
    rw [Decoration.levels_of_decorated hd, Decoration.strip_of_decorated hd, ih,
      List.forall_mem_cons]
    simp [meets_eq_true_iff.mp hmeets]
  | case3 key d hd hmeets =>
    rw [Decoration.levels_of_decorated hd, List.forall_mem_cons, ← meets_eq_true_iff]
    simp [hmeets]

theorem resolve?_eq_some_iff {key name : String} :
    P.resolve? key = some name ↔ (∀ d ∈ Decoration.levels key.toList, P.Admits d) ∧
      name = String.ofList (Decoration.strip key.toList) := by
  rw [resolve?, Option.map_eq_some_iff]
  constructor
  · rintro ⟨letters, hletters, rfl⟩
    obtain ⟨hadmits, rfl⟩ := resolveLetters_eq_some_iff.mp hletters
    exact ⟨hadmits, rfl⟩
  · rintro ⟨hadmits, rfl⟩
    exact ⟨_, resolveLetters_eq_some_iff.mpr ⟨hadmits, rfl⟩, rfl⟩

theorem resolve?_eq_none_iff {key : String} :
    P.resolve? key = none ↔ ∃ d ∈ Decoration.levels key.toList, ¬ P.Admits d := by
  rw [Option.eq_none_iff_forall_ne_some]
  constructor
  · intro h
    refine Classical.byContradiction fun hnone => ?_
    have hall : ∀ d ∈ Decoration.levels key.toList, P.Admits d := fun d hd =>
      Classical.byContradiction fun hnot => hnone ⟨d, hd, hnot⟩
    exact h _ (resolve?_eq_some_iff.mpr ⟨hall, rfl⟩)
  · rintro ⟨d, hd, hnot⟩ name hname
    exact hnot ((resolve?_eq_some_iff.mp hname).1 d hd)

end ProfileSet

end LayeredConfig
