import LayeredConfig.Proofs.Profile.Grammar
import Mathlib.Data.List.Sort

/-!
# The names in a list of profiles

A list of profiles holds the words between its commas, and the set read from it has just these as
its names.  The list in a decoration is read in the same way, so that its profiles are words, too:

    x ∈ parse list ↔ Word ',' list x                                             (mem_parse_iff)
    parse list = parse list' ↔ list and list' have the same words                (parse_eq_iff)

A set whose names can stand in a list is read back from its display (`parse_display`).
-/

namespace LayeredConfig

open Text (Word)

/-! ## Lemmas -/

namespace Decoration

theorem mem_tokens_iff {list word : List Char} : word ∈ tokens list ↔ Word ',' list word := by
  have hparts := Text.parts_iff.mpr (rfl : list.splitOn ',' = _)
  rw [hparts.word_iff (by decide), tokens, List.mem_filter, List.mem_map, decide_eq_true_iff,
    and_comm]

/-- Words with nothing but commas between them; no word at all is an empty text. -/
theorem tokens_intercalate_comma {words : List (List Char)} (hne : ∀ word ∈ words, word ≠ [])
    (hcomma : ∀ word ∈ words, ',' ∉ word) (htrim : ∀ word ∈ words, Text.trim word = word) :
    tokens ([','].intercalate words) = words := by
  by_cases hwords : words = []
  · rw [hwords]
    rfl
  · refine tokens_of_parts ⟨hwords, hcomma, rfl⟩ ?_ hne
    exact (List.map_congr_left htrim).trans (List.map_id words)

/-- The profiles of a decoration are the words of its list. -/
theorem Written.mem_profiles_iff {front list key word : List Char} {d : Decoration}
    (h : Written front list key d) : word ∈ d.profiles ↔ Word ',' list word := by
  rw [← tokens_eq_iff.mpr h.profiles_eq, mem_tokens_iff]

end Decoration

namespace ProfileSet

variable {P Q : ProfileSet} {list list' x : String}

theorem mem_parse_iff : x ∈ parse list ↔ Word ',' list.toList x.toList := by
  rw [mem_parse, ← Decoration.mem_tokens_iff]
  constructor
  · rintro ⟨word, hword, rfl⟩
    rwa [String.toList_ofList]
  · exact fun h => ⟨x.toList, h, String.ofList_toList⟩

/-- A set is known by its members. -/
theorem ext_of_mem (h : ∀ x, x ∈ P ↔ x ∈ Q) : P = Q := by
  obtain ⟨names, hnames⟩ := P
  obtain ⟨names', hnames'⟩ := Q
  congr 1
  exact hnames.eq_of_mem_iff hnames' h

theorem parse_eq_iff :
    parse list = parse list' ↔ ∀ word, Word ',' list.toList word ↔ Word ',' list'.toList word := by
  constructor
  · intro h word
    have hmem : String.ofList word ∈ parse list ↔ String.ofList word ∈ parse list' := by rw [h]
    simpa only [mem_parse_iff, String.toList_ofList] using hmem
  · exact fun h => ext_of_mem fun x => by rw [mem_parse_iff, mem_parse_iff, h]

/-- Names without commas and without blanks at their ends can be joined and read again. -/
theorem parse_display (h : ∀ x ∈ P, x ≠ "" ∧ ',' ∉ x.toList ∧ Text.trim x.toList = x.toList) :
    parse P.display = P := by
  have htokens : Decoration.tokens P.display.toList = P.names.map String.toList := by
    rw [display, String.toList_intercalate]
    refine Decoration.tokens_intercalate_comma ?_ ?_ ?_
    · exact List.forall_mem_map.mpr fun x hx => by simpa using (h x hx).1
    · exact List.forall_mem_map.mpr fun x hx => (h x hx).2.1
    · exact List.forall_mem_map.mpr fun x hx => (h x hx).2.2
  refine ext_of_mem fun x => ?_
  rw [mem_parse, htokens]
  constructor
  · rintro ⟨word, hword, rfl⟩
    obtain ⟨y, hy, rfl⟩ := List.mem_map.mp hword
    rwa [String.ofList_toList]
  · exact fun hx => ⟨x.toList, List.mem_map_of_mem hx, String.ofList_toList⟩

theorem parse_display_parse (list : String) : parse (parse list).display = parse list := by
  refine parse_display fun x hx => ?_
  have hword := mem_parse_iff.mp hx
  exact ⟨by simpa using hword.ne_nil, hword.not_mem, hword.trim_eq⟩

/-- A set meets the profiles of a decoration when its own list and that of the decoration have a
word in common. -/
theorem meets_parse_iff {front listed key : List Char} {d : Decoration}
    (h : Decoration.Written front listed key d) :
    (parse list).meets (d.profiles.map String.ofList) = true ↔
      ∃ word, Word ',' listed word ∧ Word ',' list.toList word := by
  simp only [meets_eq_true_iff, Admits, h.mem_profiles_iff, mem_parse_iff, String.toList_ofList]

/-! ## Top theorem (proved from the lemmas above) -/

/-- The names of a set that is read from a text are the words between the commas of the text, so
that the display is read back and two texts make one set when they have the same words.  The
profiles of a decoration are the words of its list, and one of them is active when it is a word of
the text, too. -/
theorem parse_by_words :
    (∀ list x, x ∈ parse list ↔ Word ',' list.toList x.toList) ∧
    (∀ list, parse (parse list).display = parse list) ∧
    (∀ list list', parse list = parse list' ↔
      ∀ word, Word ',' list.toList word ↔ Word ',' list'.toList word) ∧
    ∀ key d, Decoration.parse? key = some d → ∃ front listed,
      Decoration.Written front listed key d ∧
      (∀ word, word ∈ d.profiles ↔ Word ',' listed word) ∧
      ∀ list,
        (∀ word ∈ d.profiles, String.ofList word ∈ parse list ↔ Word ',' list.toList word) ∧
        ((parse list).meets (d.profiles.map String.ofList) = true ↔
          ∃ word, Word ',' listed word ∧ Word ',' list.toList word) := by
  refine ⟨fun list x => mem_parse_iff, parse_display_parse, fun list list' => parse_eq_iff, ?_⟩
  intro key d hd
  obtain ⟨front, listed, hwritten⟩ := Decoration.parse?_eq_some_iff.mp hd
  refine ⟨front, listed, hwritten, fun word => hwritten.mem_profiles_iff, fun list => ⟨?_, ?_⟩⟩
  · intro word _
    rw [mem_parse_iff, String.toList_ofList]
  · exact meets_parse_iff hwritten

/-- The same three names twice: with a repetition, empty and blank parts and blanks of several kinds,
and as the display has them; and a decoration that lists one of them. -/
theorem parse_by_words_respelled :
    let list := " test,dev\u00a0,,\u2003,eu , dev"
    let d : Decoration := ⟨"cache".toList, ["prod".toList, "eu".toList]⟩
    "dev" ∈ parse list ∧ (parse list).display = "dev,eu,test" ∧
      parse "dev,eu,test" = parse list ∧
      (∀ word, Word ',' "dev,eu,test".toList word ↔ Word ',' list.toList word) ∧
      Decoration.parse? "cache<prod,\t eu>".toList = some d ∧
      (parse list).meets (d.profiles.map String.ofList) = true ∧
      ¬ Word ',' list.toList "prod".toList := by
  intro list d
  have hdisplay : (parse list).display = "dev,eu,test" := by decide +kernel
  have hd : Decoration.parse? "cache<prod,\t eu>".toList = some d := by decide +kernel
  obtain ⟨hmem, hround, hsame, hlisted⟩ := parse_by_words
  have hparse : parse "dev,eu,test" = parse list := hdisplay ▸ hround list
  obtain ⟨front, listed, -, hprofiles, hactive⟩ := hlisted _ d hd
  obtain ⟨hword, hmeets⟩ := hactive list
  have heu : "eu".toList ∈ d.profiles := by decide
  have hactive_eu : Word ',' list.toList "eu".toList := (hword _ heu).mp (by decide +kernel)
  have hprod : String.ofList "prod".toList ∉ parse list := by decide +kernel
  refine ⟨(hmem list "dev").mpr ?_, hdisplay, hparse, (hsame _ _).mp hparse, hd,
    hmeets.mpr ⟨_, (hprofiles _).mp heu, hactive_eu⟩, ?_⟩
  · exact {
      ne_nil := by decide
      not_mem := by decide
      head_not_blank := by rintro _ ⟨⟩; decide
      last_not_blank := by rintro _ ⟨⟩; decide
      stands := ⟨" test,".toList, [], ['\u00a0'], ",,\u2003,eu , dev".toList, by decide,
        by rintro _ ⟨⟩; rfl, List.forall_mem_nil _, List.forall_mem_singleton.mpr (by decide),
        by rintro _ ⟨⟩; rfl⟩ }
  · exact fun h => hprod ((hword _ (by decide)).mpr h)

end ProfileSet

end LayeredConfig
