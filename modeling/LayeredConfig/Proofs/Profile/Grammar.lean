import LayeredConfig.Proofs.Profile.Levels
import LayeredConfig.Proofs.Text.Parts

/-!
# How a decorated key is written

A decorated key is a front, then a list of profiles between angle brackets (`Written`).  Reading
finds a decoration in exactly these keys, and a key can be taken apart in one way only.

    parse? key = some d ↔ ∃ front list, Written front list key d         (parse?_eq_some_iff)
    front, list and d are the only ones with Written front list key d    (Written.unique)

The other way round, a decoration written out with a comma and a blank between its profiles is read
back (`parse?_letters`).  A decoration that its name ends in stays with the name: it is the next
level of the key.
-/

namespace LayeredConfig

namespace Decoration

/-- The key is the front with the list between angle brackets after it, and this says `d`: the name
is the front without the blanks at its end, the profiles are what stands between the commas of the
list, trimmed, where it is not blank. -/
structure Written (front list key : List Char) (d : Decoration) : Prop where
  key_eq : key = front ++ '<' :: (list ++ ['>'])
  no_opening : '<' ∉ list
  no_closing : '>' ∉ list
  name_eq : d.name = Text.trimEnd front
  name_ne : d.name ≠ []
  profiles_eq : ∃ parts, Text.Parts ',' list parts ∧
    d.profiles = (parts.map Text.trim).filter (· ≠ [])
  profiles_ne : d.profiles ≠ []

/-- The name and the list can be told from the letters of the key: no blanks at the end of the name
or around a profile, and no comma or bracket in a profile. -/
structure Legible (d : Decoration) : Prop where
  name_ne : d.name ≠ []
  name_end : Text.trimEnd d.name = d.name
  profiles_ne : d.profiles ≠ []
  profile_ne : ∀ x ∈ d.profiles, x ≠ []
  profile_trim : ∀ x ∈ d.profiles, Text.trim x = x
  profile_letters : ∀ x ∈ d.profiles, ',' ∉ x ∧ '<' ∉ x ∧ '>' ∉ x

/-- The key that carries the decoration. -/
def letters (d : Decoration) : List Char :=
  d.name ++ '<' :: ([',', ' '].intercalate d.profiles ++ ['>'])

/-! ## Lemmas -/

theorem tokens_eq_iff {list : List Char} {profiles : List (List Char)} :
    tokens list = profiles ↔
      ∃ parts, Text.Parts ',' list parts ∧ profiles = (parts.map Text.trim).filter (· ≠ []) := by
  constructor
  · rintro rfl
    exact ⟨list.splitOn ',', Text.parts_iff.mpr rfl, rfl⟩
  · rintro ⟨parts, hparts, rfl⟩
    rw [tokens, Text.parts_iff.mp hparts]

theorem parse?_eq_some_iff {key : List Char} {d : Decoration} :
    parse? key = some d ↔ ∃ front list, Written front list key d := by
  constructor
  · intro h
    rw [parse?] at h
    split at h
    · next hlast =>
      obtain ⟨⟨front, list⟩, hsplit, hd⟩ := Option.bind_eq_some_iff.mp h
      obtain ⟨hbody, hopening⟩ := splitLast?_eq_some hsplit
      dsimp only at hd
      split at hd
      · cases hd
      · next hgood =>
        rw [not_or, not_or] at hgood
        cases Option.some.inj hd
        have hkey : key = front ++ '<' :: (list ++ ['>']) := by
          rw [← List.dropLast_append_getLast? '>' hlast, hbody]
          simp
        exact ⟨front, list, hkey, hopening, hgood.2.1, rfl, hgood.1, tokens_eq_iff.mp rfl,
          hgood.2.2⟩
    · cases h
  · rintro ⟨front, list, hkey, hopening, hclosing, hname, hname_ne, hprofiles, hprofiles_ne⟩
    have hend : key = front ++ '<' :: list ++ ['>'] := by rw [hkey]; simp
    have htokens := tokens_eq_iff.mpr hprofiles
    have hgood : ¬(Text.trimEnd front = [] ∨ '>' ∈ list ∨ tokens list = []) := by
      rw [← hname, htokens]
      simp [hname_ne, hclosing, hprofiles_ne]
    rw [parse?, hend, List.getLast?_concat, if_pos rfl, List.dropLast_concat,
      splitLast?_append hopening, Option.bind_some]
    dsimp only
    rw [if_neg hgood, ← hname, htokens]

theorem Written.unique {front front' list list' key : List Char} {d d' : Decoration}
    (h : Written front list key d) (h' : Written front' list' key d') :
    front = front' ∧ list = list' ∧ d = d' := by
  have hbody : front ++ '<' :: list = front' ++ '<' :: list' := by
    have hkey := h.key_eq.symm.trans h'.key_eq
    rw [← List.cons_append, ← List.cons_append, ← List.append_assoc, ← List.append_assoc] at hkey
    exact List.append_cancel_right hkey
  have hsplit := splitLast?_append h.no_opening front
  rw [hbody, splitLast?_append h'.no_opening] at hsplit
  obtain ⟨rfl, rfl⟩ := Prod.mk.inj (Option.some.inj hsplit)
  have hd := parse?_eq_some_iff.mpr ⟨_, _, h⟩
  rw [parse?_eq_some_iff.mpr ⟨_, _, h'⟩] at hd
  exact ⟨rfl, rfl, (Option.some.inj hd).symm⟩

/-! ### Writing a decoration -/

/-- The blanks after the commas belong to the parts of the list, which are trimmed. -/
theorem intercalate_comma_blank (x : List Char) (xs : List (List Char)) :
    [',', ' '].intercalate (x :: xs) = [','].intercalate (x :: xs.map (' ' :: ·)) := by
  induction xs generalizing x with
  | nil => rfl
  | cons y ys ih =>
    rw [List.intercalate_cons_cons, ih, List.map_cons, List.intercalate_cons_cons]
    cases ys <;> simp

theorem tokens_of_parts {list : List Char} {parts words : List (List Char)}
    (hparts : Text.Parts ',' list parts) (htrim : parts.map Text.trim = words)
    (hne : ∀ word ∈ words, word ≠ []) : tokens list = words := by
  refine tokens_eq_iff.mpr ⟨parts, hparts, ?_⟩
  rw [htrim, List.filter_eq_self.mpr fun word hword => decide_eq_true (hne word hword)]

theorem tokens_intercalate {profiles : List (List Char)} (hne : profiles ≠ [])
    (hblank : ∀ x ∈ profiles, x ≠ []) (htrim : ∀ x ∈ profiles, Text.trim x = x)
    (hcomma : ∀ x ∈ profiles, ',' ∉ x) : tokens ([',', ' '].intercalate profiles) = profiles := by
  obtain ⟨x, xs, rfl⟩ := List.exists_cons_of_ne_nil hne
  rw [intercalate_comma_blank]
  refine tokens_of_parts ⟨by simp, ?_, rfl⟩ ?_ hblank
  · intro part hpart
    rcases List.mem_cons.mp hpart with rfl | hpart
    · exact hcomma part List.mem_cons_self
    · obtain ⟨y, hy, rfl⟩ := List.mem_map.mp hpart
      simpa using hcomma y (List.mem_cons_of_mem x hy)
  · rw [List.map_cons, htrim x List.mem_cons_self, List.map_map]
    congr 1
    conv => rhs; rw [← List.map_id xs]
    apply List.map_congr_left
    intro y hy
    exact (Text.trim_blank_cons rfl y).trans (htrim y (List.mem_cons_of_mem x hy))

theorem not_mem_intercalate {c : Char} {profiles : List (List Char)} (hcomma : c ≠ ',')
    (hblank : c ≠ ' ') (h : ∀ x ∈ profiles, c ∉ x) : c ∉ [',', ' '].intercalate profiles := by
  induction profiles with
  | nil => simp
  | cons x xs ih =>
    rw [List.forall_mem_cons] at h
    cases xs with
    | nil => simpa using h.1
    | cons y ys =>
      rw [List.intercalate_cons_cons]
      simp only [List.mem_append, List.mem_cons, List.not_mem_nil, not_or]
      exact ⟨⟨h.1, hcomma, hblank, id⟩, ih h.2⟩

theorem Legible.written {d : Decoration} (h : d.Legible) :
    Written d.name ([',', ' '].intercalate d.profiles) d.letters d where
  key_eq := rfl
  no_opening := not_mem_intercalate (by decide) (by decide) fun x hx => (h.profile_letters x hx).2.1
  no_closing := not_mem_intercalate (by decide) (by decide) fun x hx => (h.profile_letters x hx).2.2
  name_eq := h.name_end.symm
  name_ne := h.name_ne
  profiles_eq := tokens_eq_iff.mp (tokens_intercalate h.profiles_ne h.profile_ne h.profile_trim
    fun x hx => (h.profile_letters x hx).1)
  profiles_ne := h.profiles_ne

theorem parse?_letters {d : Decoration} (h : d.Legible) : parse? d.letters = some d :=
  parse?_eq_some_iff.mpr ⟨_, _, h.written⟩

/-! ## Top theorem (proved from the lemmas above) -/

/-- Exactly the keys that are written as a front and a list of profiles between angle brackets have
a decoration; a key is taken apart in one way only; and what is written out is read back, with the
decorations that its name ends in below it. -/
theorem reads_what_is_written :
    (∀ key d, parse? key = some d ↔ ∃ front list, Written front list key d) ∧
    (∀ key front list d front' list' d', Written front list key d →
      Written front' list' key d' → front = front' ∧ list = list' ∧ d = d') ∧
    ∀ d : Decoration, d.Legible →
      parse? d.letters = some d ∧ levels d.letters = d :: levels d.name :=
  ⟨fun _ _ => parse?_eq_some_iff, fun _ _ _ _ _ _ _ h h' => h.unique h',
    fun _ h => ⟨parse?_letters h, levels_of_decorated (parse?_letters h)⟩⟩

/-- A key that is decorated twice, with blanks and an empty part in its list, and the same
decoration written out. -/
theorem reads_what_is_written_stacked :
    let d : Decoration := ⟨"cache<eu>".toList, ["dev".toList, "test".toList]⟩
    let key := "cache<eu> <dev,, test >".toList
    d.Legible ∧ parse? key = some d ∧
      (∀ front list d', Written front list key d' →
        front = "cache<eu> ".toList ∧ list = "dev,, test ".toList ∧ d' = d) ∧
      parse? "cache<eu><dev, test>".toList = some d ∧
      levels "cache<eu><dev, test>".toList = d :: levels "cache<eu>".toList := by
  intro d key
  have hlegible : d.Legible := by constructor <;> decide
  have hwritten : Written "cache<eu> ".toList "dev,, test ".toList key d := by
    refine ⟨by decide, by decide, by decide, by decide, by decide,
      ⟨["dev".toList, [], " test ".toList], ⟨by decide, by decide, by decide⟩, by decide⟩,
      by decide⟩
  obtain ⟨hread, hunique, hletters⟩ := reads_what_is_written
  exact ⟨hlegible, (hread key d).mpr ⟨_, _, hwritten⟩,
    fun front list d' h => hunique key _ _ _ _ _ _ h hwritten, hletters d hlegible⟩

end Decoration

end LayeredConfig
