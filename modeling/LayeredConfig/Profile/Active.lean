import LayeredConfig.Profile.Decoration

/-! Sets of active profiles.

A set is an ascending list of names without repetition, so two sets with the same names are equal.
The names are trimmed and never blank when they come from a list in text (`parse`) or from a list of
names (`ofList`). -/

namespace LayeredConfig

/-- The profiles that are switched on. -/
structure ProfileSet where
  names : List String
  ascending : names.Pairwise (· < ·) := by simp
  deriving DecidableEq

namespace ProfileSet

def empty : ProfileSet := ⟨[], List.Pairwise.nil⟩

instance : Inhabited ProfileSet := ⟨empty⟩

instance : Membership String ProfileSet := ⟨fun P x => x ∈ P.names⟩

instance (x : String) (P : ProfileSet) : Decidable (x ∈ P) :=
  inferInstanceAs (Decidable (x ∈ P.names))

/-- A name put at its place in an ascending list. -/
def place (x : String) : List String → List String
  | [] => [x]
  | y :: ys => if x < y then x :: y :: ys else if x = y then y :: ys else y :: place x ys

theorem mem_place {x z : String} {ys : List String} : z ∈ place x ys ↔ z = x ∨ z ∈ ys := by
  induction ys with
  | nil => simp [place]
  | cons y ys ih =>
    rw [place]
    split
    · simp
    · split
      · next h => subst h; simp
      · simp only [List.mem_cons, ih]
        exact or_left_comm

theorem pairwise_place {x : String} {ys : List String} (h : ys.Pairwise (· < ·)) :
    (place x ys).Pairwise (· < ·) := by
  induction ys with
  | nil => simp [place]
  | cons y ys ih =>
    rw [List.pairwise_cons] at h
    rw [place]
    split
    · next hxy =>
      refine List.pairwise_cons.mpr ⟨?_, List.pairwise_cons.mpr h⟩
      intro z hz
      rcases List.mem_cons.mp hz with rfl | hz
      · exact hxy
      · exact String.lt_trans hxy (h.1 z hz)
    · next hxy =>
      split
      · exact List.pairwise_cons.mpr h
      · next hne =>
        refine List.pairwise_cons.mpr ⟨?_, ih h.2⟩
        intro z hz
        rcases mem_place.mp hz with rfl | hz
        · refine Decidable.byContradiction fun hyz => hne ?_
          exact String.le_antisymm (String.not_lt.mp hyz) (String.not_lt.mp hxy)
        · exact h.1 z hz

def insert (x : String) (P : ProfileSet) : ProfileSet :=
  ⟨place x P.names, pairwise_place P.ascending⟩

/-- The set of the given names, trimmed, without the blank ones. -/
def ofList (xs : List String) : ProfileSet :=
  ((xs.map Text.trimmed).filter (· ≠ "")).foldr insert empty

/-- The set of the names in a comma-separated list. -/
def parse (list : String) : ProfileSet :=
  ((Decoration.tokens list.toList).map String.ofList).foldr insert empty

/-- The names joined by commas. -/
def display (P : ProfileSet) : String := String.intercalate "," P.names

def isEmpty (P : ProfileSet) : Bool := P.names.isEmpty

/-- Whether one of the names is active. -/
def meets (P : ProfileSet) (names : List String) : Bool := names.any fun x => decide (x ∈ P)

/-- The name of a key whose decorations all mention an active profile. -/
def resolveLetters (P : ProfileSet) (key : List Char) : Option (List Char) :=
  match _h : Decoration.parse? key with
  | none => some key
  | some d => if P.meets (d.profiles.map String.ofList) then P.resolveLetters d.name else none
termination_by key.length
decreasing_by exact Decoration.length_name_lt _h

/-- The bare name under which a key survives, or `none` when a decoration drops it. -/
def resolve? (P : ProfileSet) (key : String) : Option String :=
  (P.resolveLetters key.toList).map String.ofList

/-! ## Lemmas -/

theorem not_mem_empty (x : String) : x ∉ empty := List.not_mem_nil

theorem mem_insert {x z : String} {P : ProfileSet} : z ∈ P.insert x ↔ z = x ∨ z ∈ P := mem_place

theorem resolveLetters_of_plain (P : ProfileSet) {key : List Char}
    (h : Decoration.parse? key = none) : P.resolveLetters key = some key := by
  rw [resolveLetters]
  split
  · rfl
  · next hd =>
    rw [h] at hd
    cases hd

theorem resolveLetters_of_decorated (P : ProfileSet) {key : List Char} {d : Decoration}
    (h : Decoration.parse? key = some d) : P.resolveLetters key =
      if P.meets (d.profiles.map String.ofList) then P.resolveLetters d.name else none := by
  rw [resolveLetters]
  split
  · next hd =>
    rw [h] at hd
    cases hd
  · next d' hd =>
    obtain rfl := Option.some.inj (h.symm.trans hd)
    rfl

/-- What is left of a key has no decoration and is what the key starts with. -/
theorem resolveLetters_eq_some {P : ProfileSet} {key name : List Char}
    (h : P.resolveLetters key = some name) :
    Decoration.parse? name = none ∧ name <+: key ∧ (name = [] → key = []) := by
  fun_induction P.resolveLetters key with
  | case1 key hk =>
    obtain rfl := Option.some.inj h
    exact ⟨hk, List.prefix_rfl, id⟩
  | case2 key d hd hmeets ih =>
    obtain ⟨hplain, hpre, hnil⟩ := ih h
    obtain ⟨hname, hne⟩ := Decoration.name_isPrefix hd
    exact ⟨hplain, hpre.trans hname, fun h => absurd (hnil h) hne⟩
  | case3 key d hd hmeets => cases h

theorem mem_foldr_insert {x : String} {xs : List String} : x ∈ xs.foldr insert empty ↔ x ∈ xs := by
  induction xs with
  | nil => simp [not_mem_empty]
  | cons y ys ih => rw [List.foldr_cons, mem_insert, ih, List.mem_cons]

theorem mem_parse {x list : String} :
    x ∈ parse list ↔ ∃ t ∈ Decoration.tokens list.toList, String.ofList t = x := by
  rw [parse, mem_foldr_insert, List.mem_map]

theorem mem_ofList {x : String} {xs : List String} :
    x ∈ ofList xs ↔ (∃ y ∈ xs, Text.trimmed y = x) ∧ x ≠ "" := by
  rw [ofList, mem_foldr_insert, List.mem_filter, List.mem_map, decide_eq_true_iff]

end ProfileSet

end LayeredConfig
