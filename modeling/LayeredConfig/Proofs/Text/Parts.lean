import LayeredConfig.Text.Blank
import Mathlib.Data.List.Basic
import Mathlib.Data.List.TakeWhile

/-!
# Texts in parts

A text is cut at every letter `c`, and what stands between the cuts are its parts (`Parts`).  They
are those of the library's `splitOn`, and each is told by the letters around it:

    Parts c text parts ↔ text.splitOn c = parts                                      (parts_iff)
    part ∈ parts ↔ part has no c and stands between two of them, or the text ends    (Parts.mem_iff)

What a part has between its blanks is a word, unless it is all blank (`Word`):

    Word c text word ↔ word is a part, trimmed, and not empty                    (Parts.word_iff)
-/

namespace LayeredConfig

namespace Text

/-- The parts of a text between the letters `c`; a text without that letter is one part. -/
structure Parts (c : Char) (text : List Char) (parts : List (List Char)) : Prop where
  ne_nil : parts ≠ []
  not_mem : ∀ part ∈ parts, c ∉ part
  joined : [c].intercalate parts = text

/-- The word stands in the text between two letters `c`, or the ends of the text, with nothing but
blanks around it.  It is not empty, has no such letter and neither starts nor ends with a blank. -/
structure Word (c : Char) (text word : List Char) : Prop where
  ne_nil : word ≠ []
  not_mem : c ∉ word
  head_not_blank : ∀ d ∈ word.head?, isBlank d = false
  last_not_blank : ∀ d ∈ word.getLast?, isBlank d = false
  stands : ∃ front left right back, text = front ++ (left ++ word ++ right) ++ back ∧
    (∀ d ∈ front.getLast?, d = c) ∧ (∀ d ∈ left, isBlank d = true) ∧
    (∀ d ∈ right, isBlank d = true) ∧ ∀ d ∈ back.head?, d = c

/-! ## Lemmas -/

variable {c : Char} {text front back part word cs : List Char} {parts qs : List (List Char)}

/-! ### Cutting a text -/

theorem exists_parts (c : Char) (text : List Char) : ∃ parts, Parts c text parts := by
  induction text with
  | nil => exact ⟨[[]], by simp, by simp, rfl⟩
  | cons d text ih =>
    obtain ⟨_ | ⟨part, parts⟩, hne, hnot, rfl⟩ := ih
    · exact absurd rfl hne
    -- the letter in front either ends an empty part or belongs to the first one
    by_cases hd : d = c
    · subst hd
      exact ⟨[] :: part :: parts, by simp, by simpa using hnot, by simp⟩
    · have hfirst : c ∉ d :: part := by
        rw [List.mem_cons, not_or]
        exact ⟨fun hc => hd hc.symm, hnot part List.mem_cons_self⟩
      refine ⟨(d :: part) :: parts, by simp, ?_, ?_⟩
      · exact List.forall_mem_cons.mpr ⟨hfirst, fun p hp => hnot p (List.mem_cons_of_mem part hp)⟩
      · cases parts <;> simp

theorem parts_iff : Parts c text parts ↔ text.splitOn c = parts := by
  constructor
  · rintro ⟨hne, hnot, rfl⟩
    exact List.splitOn_intercalate c hnot hne
  · rintro rfl
    obtain ⟨parts, hparts⟩ := exists_parts c text
    have hsplit : text.splitOn c = parts := by
      rw [← hparts.joined]
      exact List.splitOn_intercalate c hparts.not_mem hparts.ne_nil
    rw [hsplit]
    exact hparts

theorem Parts.unique (h : Parts c text parts) (h' : Parts c text qs) : parts = qs :=
  (parts_iff.mp h).symm.trans (parts_iff.mp h')

theorem parts_singleton (h : c ∉ part) : Parts c part [part] :=
  ⟨by simp, by simpa using h, List.intercalate_singleton⟩

theorem Parts.append_cons (h : Parts c front parts) (h' : Parts c back qs) :
    Parts c (front ++ c :: back) (parts ++ qs) where
  ne_nil := by simp [h.ne_nil]
  not_mem := List.forall_mem_append.mpr ⟨h.not_mem, h'.not_mem⟩
  joined := by
    rw [← h.joined, ← h'.joined]
    have hne := h.ne_nil
    clear h
    induction parts with
    | nil => exact absurd rfl hne
    | cons x xs ih =>
      cases xs with
      | nil =>
        rw [List.singleton_append, List.intercalate_cons_of_ne_nil h'.ne_nil,
          List.intercalate_singleton, List.append_assoc]
        rfl
      | cons y ys =>
        rw [List.cons_append, List.cons_append, List.intercalate_cons_cons, ← List.cons_append,
          ih (by simp), List.intercalate_cons_cons]
        simp

/-- A part has no cut in it and a cut at each side, or an end of the text. -/
theorem Parts.mem_iff (h : Parts c text parts) : part ∈ parts ↔ c ∉ part ∧
    ∃ front back, text = front ++ part ++ back ∧ (∀ d ∈ front.getLast?, d = c) ∧
      ∀ d ∈ back.head?, d = c := by
  constructor
  · intro hpart
    refine ⟨h.not_mem part hpart, ?_⟩
    obtain ⟨xs, ys, rfl⟩ := List.append_of_mem hpart
    rw [← h.joined]
    clear h hpart
    induction xs with
    | nil =>
      cases ys with
      | nil => exact ⟨[], [], by simp, by simp, by simp⟩
      | cons y ys => exact ⟨[], c :: [c].intercalate (y :: ys), by simp, by simp, by simp⟩
    | cons x xs ih =>
      obtain ⟨front, back, htext, hfront, hback⟩ := ih
      refine ⟨x ++ c :: front, back, ?_, ?_, hback⟩
      · rw [List.cons_append, List.intercalate_cons_of_ne_nil (by simp), htext]
        simp
      · cases front with
        | nil => simp
        | cons d front => simpa using hfront
  · rintro ⟨hpart, front, back, rfl, hfront, hback⟩
    have hbehind : ∃ qs, Parts c (part ++ back) (part :: qs) := by
      cases back with
      | nil => exact ⟨[], by simpa using parts_singleton hpart⟩
      | cons d back =>
        obtain rfl : d = c := hback d rfl
        obtain ⟨qs, hqs⟩ := exists_parts d back
        exact ⟨qs, (parts_singleton hpart).append_cons hqs⟩
    obtain ⟨qs, hqs⟩ := hbehind
    have hbefore : ∃ ps, Parts c (front ++ part ++ back) (ps ++ part :: qs) := by
      rcases List.eq_nil_or_concat' front with rfl | ⟨front, d, rfl⟩
      · exact ⟨[], hqs⟩
      · obtain rfl : d = c := hfront d (by simp)
        obtain ⟨ps, hps⟩ := exists_parts d front
        exact ⟨ps, by simpa using hps.append_cons hqs⟩
    obtain ⟨ps, hps⟩ := hbefore
    rw [h.unique hps]
    simp

/-- A text is cut at the first letter `c`. -/
theorem takeWhile_until (h : c ∉ front) (hback : ∀ d ∈ back.head?, d = c) :
    (front ++ back).takeWhile (· ≠ c) = front ∧ (front ++ back).dropWhile (· ≠ c) = back := by
  have hfront : ∀ d ∈ front, decide (d ≠ c) = true := by
    intro d hd
    refine decide_eq_true ?_
    rintro rfl
    exact h hd
  rw [List.takeWhile_append_of_pos hfront, List.dropWhile_append_of_pos hfront]
  cases back with
  | nil => simp
  | cons d back =>
    obtain rfl : d = c := hback d rfl
    simp

/-! ### Blanks around a text -/

theorem trim_blank_cons {c : Char} (h : isBlank c = true) (cs : List Char) :
    trim (c :: cs) = trim cs := by
  rw [trim, trim, trimStart, trimStart, List.dropWhile_cons_of_pos h]

/-- Letters of which nothing is left are blank. -/
theorem isBlank_of_trim_eq_nil {cs : List Char} (h : trim cs = []) : ∀ c ∈ cs, isBlank c = true := by
  intro c hc
  by_contra hblank
  have hmem := mem_trim_of_not_blank hc (by simpa using hblank)
  rw [h] at hmem
  cases hmem

/-- Blanks around a text do not count. -/
theorem trim_padded {front back : List Char} (hfront : ∀ c ∈ front, isBlank c = true)
    (hback : ∀ c ∈ back, isBlank c = true) (cs : List Char) :
    trim (front ++ cs ++ back) = trim cs := by
  have hstart : trimStart (front ++ cs ++ back) = trimStart (cs ++ back) := by
    rw [List.append_assoc]
    exact List.dropWhile_append_of_pos hfront
  have hback' : ∀ c ∈ back.reverse, isBlank c = true := fun c hc => hback c (List.mem_reverse.mp hc)
  by_cases hcs : trimStart cs = []
  · -- nothing but blanks is left of a text of blanks
    have hall : ∀ c ∈ cs ++ back, isBlank c = true := by
      have hblank := List.dropWhile_eq_nil_iff.mp hcs
      intro c hc
      rcases List.mem_append.mp hc with hc | hc
      · exact hblank c hc
      · exact hback c hc
    have hnil : trimStart (cs ++ back) = [] := List.dropWhile_eq_nil_iff.mpr hall
    rw [trim, hstart, hnil, trim, hcs]
  · have happend : trimStart (cs ++ back) = trimStart cs ++ back := by
      rw [trimStart, List.dropWhile_append, if_neg (by simpa [trimStart] using hcs)]
      rfl
    rw [trim, hstart, happend, trim, trimEnd, List.reverse_append,
      List.dropWhile_append_of_pos hback']
    rfl

/-- What trimming takes away are blanks. -/
theorem exists_padding (cs : List Char) : ∃ left right, cs = left ++ trim cs ++ right ∧
    (∀ d ∈ left, isBlank d = true) ∧ ∀ d ∈ right, isBlank d = true := by
  have hend : ∀ ds : List Char, ds = trimEnd ds ++ (ds.reverse.takeWhile isBlank).reverse := by
    intro ds
    rw [trimEnd, ← List.reverse_append, List.takeWhile_append_dropWhile, List.reverse_reverse]
  refine ⟨cs.takeWhile isBlank, ((trimStart cs).reverse.takeWhile isBlank).reverse, ?_, ?_, ?_⟩
  · rw [List.append_assoc, trim, ← hend, trimStart, List.takeWhile_append_dropWhile]
  · exact fun d hd => List.mem_takeWhile_imp hd
  · exact fun d hd => List.mem_takeWhile_imp (List.mem_reverse.mp hd)

/-! ### Words -/

theorem Word.trim_eq (h : Word c text word) : trim word = word :=
  trim_eq_self h.head_not_blank h.last_not_blank

/-- The words are the trimmed parts that are not empty. -/
theorem Parts.word_iff (h : Parts c text parts) (hc : isBlank c = false) :
    Word c text word ↔ word ≠ [] ∧ ∃ part ∈ parts, trim part = word := by
  constructor
  · intro hword
    obtain ⟨front, left, right, back, htext, hfront, hleft, hright, hback⟩ := hword.stands
    refine ⟨hword.ne_nil, left ++ word ++ right, h.mem_iff.mpr ⟨?_, front, back, htext, hfront,
      hback⟩, (trim_padded hleft hright word).trans hword.trim_eq⟩
    have hnot : ∀ ds : List Char, (∀ d ∈ ds, isBlank d = true) → c ∉ ds := by
      intro ds hds hmem
      rw [hds c hmem] at hc
      cases hc
    simp only [List.mem_append, not_or]
    exact ⟨⟨hnot left hleft, hword.not_mem⟩, hnot right hright⟩
  · rintro ⟨hne, part, hpart, rfl⟩
    obtain ⟨hcut, front, back, htext, hfront, hback⟩ := h.mem_iff.mp hpart
    obtain ⟨left, right, hpadding, hleft, hright⟩ := exists_padding part
    refine ⟨hne, ?_, head?_trim part, getLast?_trim part, front, left, right, back, ?_, hfront,
      hleft, hright, hback⟩
    · intro hmem
      apply hcut
      rw [hpadding]
      simp [hmem]
    · rw [← hpadding]
      exact htext

end Text

end LayeredConfig
