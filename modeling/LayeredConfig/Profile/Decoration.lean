import LayeredConfig.Text.Blank

/-! Key decorations.

A key may end in a list of profiles between angle brackets, as in `datasource<dev, test>`.  The
list starts after the last opening bracket, holds no closing bracket and names at least one profile;
the name before it, without blanks at its end, is not empty.  Any other text is a plain key.

Decorations stack: `name` may be decorated again.  `strip` peels them all, and it ends because the
name of a decoration is shorter than its key (`length_name_lt`). -/

namespace LayeredConfig

/-- What a decorated key says: the name under the decoration and the profiles listed. -/
structure Decoration where
  name : List Char
  profiles : List (List Char)
  deriving DecidableEq, Repr

namespace Decoration

/-- The names in a comma-separated list, trimmed, without the blank ones. -/
def tokens (list : List Char) : List (List Char) :=
  ((list.splitOn ',').map Text.trim).filter (· ≠ [])

/-- The text before and after the last letter `c`. -/
def splitLast? (c : Char) : List Char → Option (List Char × List Char)
  | [] => none
  | d :: ds =>
    match splitLast? c ds with
    | some (front, back) => some (d :: front, back)
    | none => if d = c then some ([], ds) else none

/-- The decoration at the end of a key, if it has one. -/
def parse? (key : List Char) : Option Decoration :=
  if key.getLast? = some '>' then
    (splitLast? '<' key.dropLast).bind fun (front, list) =>
      let name := Text.trimEnd front
      let profiles := tokens list
      if name = [] ∨ '>' ∈ list ∨ profiles = [] then none else some ⟨name, profiles⟩
  else none

/-! ## Lemmas -/

theorem splitLast?_eq_none_iff {c : Char} {cs : List Char} : splitLast? c cs = none ↔ c ∉ cs := by
  induction cs with
  | nil => simp [splitLast?]
  | cons d ds ih =>
    rw [splitLast?, List.mem_cons, not_or, ← ih]
    split
    · next hs => simp [hs]
    · next hs => simp [hs, eq_comm]

theorem splitLast?_append {c : Char} {back : List Char} (h : c ∉ back) (front : List Char) :
    splitLast? c (front ++ c :: back) = some (front, back) := by
  induction front with
  | nil =>
    rw [List.nil_append, splitLast?, splitLast?_eq_none_iff.mpr h]
    exact if_pos rfl
  | cons d front ih => rw [List.cons_append, splitLast?, ih]

theorem splitLast?_eq_some {c : Char} {cs front back : List Char}
    (h : splitLast? c cs = some (front, back)) : cs = front ++ c :: back ∧ c ∉ back := by
  induction cs generalizing front with
  | nil => cases h
  | cons d ds ih =>
    rw [splitLast?] at h
    split at h
    · next f b hs =>
      obtain ⟨rfl, rfl⟩ := Prod.mk.inj (Option.some.inj h)
      obtain ⟨hds, hb⟩ := ih hs
      exact ⟨by rw [hds, List.cons_append], hb⟩
    · next hs =>
      split at h
      · next hd =>
        obtain ⟨rfl, rfl⟩ := Prod.mk.inj (Option.some.inj h)
        exact ⟨by rw [hd, List.nil_append], splitLast?_eq_none_iff.mp hs⟩
      · cases h

/-- The name of a decoration is what its key starts with. -/
theorem name_isPrefix {key : List Char} {d : Decoration} (h : parse? key = some d) :
    d.name <+: key ∧ d.name ≠ [] := by
  rw [parse?] at h
  split at h
  · obtain ⟨⟨front, list⟩, hs, hd⟩ := Option.bind_eq_some_iff.mp h
    dsimp only at hd
    split at hd
    · cases hd
    · next hno =>
      cases Option.some.inj hd
      have hfront : front <+: key.dropLast := ⟨'<' :: list, (splitLast?_eq_some hs).1.symm⟩
      refine ⟨?_, fun hnil => hno (.inl hnil)⟩
      exact (Text.trimEnd_isPrefix front).trans (hfront.trans (List.dropLast_prefix key))
  · cases h

theorem length_name_lt {key : List Char} {d : Decoration} (h : parse? key = some d) :
    d.name.length < key.length := by
  rw [parse?] at h
  split at h
  · next hk =>
    obtain ⟨⟨front, list⟩, hs, hd⟩ := Option.bind_eq_some_iff.mp h
    dsimp only at hd
    split at hd
    · cases hd
    · cases Option.some.inj hd
      have hl := congrArg List.length (splitLast?_eq_some hs).1
      have ht := Text.length_trimEnd_le front
      simp only [List.length_dropLast, List.length_append, List.length_cons] at hl
      show (Text.trimEnd front).length < key.length
      omega
  · cases h

/-! ## Peeling -/

/-- The key without any decoration. -/
def strip (key : List Char) : List Char :=
  match _h : parse? key with
  | none => key
  | some d => strip d.name
termination_by key.length
decreasing_by exact length_name_lt _h

end Decoration

end LayeredConfig
