/-! Blank characters, and trimming.

A character is blank when it has the Unicode property White_Space: 25 code points, listed in
`isBlank`.  All trimming of the library goes through it, so a no-break space is trimmed and a
zero-width space is not.

Main facts: trimmed text neither starts nor ends with a blank (`head?_trim`, `getLast?_trim`),
trimming twice is trimming once (`trim_trim`), and letters that are not blank stay
(`mem_trim_of_not_blank`). -/

namespace LayeredConfig.Text

/-- The code points with the property White_Space. -/
def isBlank (c : Char) : Bool :=
  let n := c.toNat
  (9 ≤ n && n ≤ 13) || n = 0x20 || n = 0x85 || n = 0xA0 || n = 0x1680 ||
    (0x2000 ≤ n && n ≤ 0x200A) || n = 0x2028 || n = 0x2029 || n = 0x202F || n = 0x205F ||
    n = 0x3000

/-- The letters without the blanks in front. -/
def trimStart (cs : List Char) : List Char := cs.dropWhile isBlank

/-- The letters without the blanks at the end. -/
def trimEnd (cs : List Char) : List Char := (cs.reverse.dropWhile isBlank).reverse

/-- The letters without the blanks at either end. -/
def trim (cs : List Char) : List Char := trimEnd (trimStart cs)

/-- Text without the blanks at either end. -/
def trimmed (s : String) : String := String.ofList (trim s.toList)

/-- Text of blanks only, the empty text included. -/
def isBlankText (s : String) : Bool := s.toList.all isBlank

/-! ## Lemmas -/

theorem length_trimEnd_le (cs : List Char) : (trimEnd cs).length ≤ cs.length := by
  have h := (List.dropWhile_sublist (l := cs.reverse) isBlank).length_le
  simpa [trimEnd] using h

theorem head?_dropWhile_blank (cs : List Char) :
    ∀ c ∈ (cs.dropWhile isBlank).head?, isBlank c = false := by
  intro c hc
  have h := List.head?_dropWhile_not isBlank cs
  rw [Option.mem_def] at hc
  rw [hc] at h
  simpa using h

/-- Trimmed text does not end with a blank. -/
theorem getLast?_trimEnd (cs : List Char) : ∀ c ∈ (trimEnd cs).getLast?, isBlank c = false := by
  intro c hc
  rw [trimEnd, List.getLast?_reverse] at hc
  exact head?_dropWhile_blank _ c hc

theorem getLast?_trim (cs : List Char) : ∀ c ∈ (trim cs).getLast?, isBlank c = false :=
  getLast?_trimEnd _

theorem trimEnd_eq_self {cs : List Char} (h : ∀ c ∈ cs.getLast?, isBlank c = false) :
    trimEnd cs = cs := by
  have hr : cs.reverse.dropWhile isBlank = cs.reverse := by
    rw [← List.head?_reverse] at h
    cases hcs : cs.reverse with
    | nil => rfl
    | cons c r =>
      rw [hcs] at h
      simp [h c rfl]
  rw [trimEnd, hr, List.reverse_reverse]

theorem trimStart_eq_self {cs : List Char} (h : ∀ c ∈ cs.head?, isBlank c = false) :
    trimStart cs = cs := by
  cases cs with
  | nil => rfl
  | cons c r => simp [trimStart, h c rfl]

/-- `trimEnd` keeps the front of its argument. -/
theorem trimEnd_isPrefix (cs : List Char) : trimEnd cs <+: cs := by
  have h : cs.reverse.dropWhile isBlank <:+ cs.reverse := List.dropWhile_suffix _
  simpa [trimEnd] using List.reverse_prefix.mpr h

theorem head?_trim (cs : List Char) : ∀ c ∈ (trim cs).head?, isBlank c = false := by
  intro c hc
  obtain ⟨r, hr⟩ := trimEnd_isPrefix (trimStart cs)
  refine head?_dropWhile_blank cs c ?_
  rw [show cs.dropWhile isBlank = trim cs ++ r from hr.symm]
  cases ht : trim cs with
  | nil => rw [ht] at hc; cases hc
  | cons d ds => rw [ht] at hc; simpa using hc

theorem trim_eq_self {cs : List Char} (hhead : ∀ c ∈ cs.head?, isBlank c = false)
    (hlast : ∀ c ∈ cs.getLast?, isBlank c = false) : trim cs = cs := by
  rw [trim, trimStart_eq_self hhead, trimEnd_eq_self hlast]

theorem trim_trim (cs : List Char) : trim (trim cs) = trim cs := by
  exact trim_eq_self (head?_trim cs) (getLast?_trim cs)

/-- Digits are no blanks. -/
theorem trim_digits {cs : List Char} (h : ∀ c ∈ cs, c.isDigit = true) : trim cs = cs := by
  have hblank : ∀ c ∈ cs, isBlank c = false := by
    intro c hc
    have hdigit := h c hc
    simp only [Char.isDigit, Bool.and_eq_true, decide_eq_true_eq, ge_iff_le] at hdigit
    have hlow : 48 ≤ c.toNat := hdigit.1
    have hhigh : c.toNat ≤ 57 := hdigit.2
    simp [isBlank]
    omega
  exact trim_eq_self (fun c hc => hblank c (List.mem_of_mem_head? hc))
    (fun c hc => hblank c (List.mem_of_mem_getLast? hc))

theorem mem_trimStart_of_not_blank {c : Char} {cs : List Char} (hc : c ∈ cs)
    (h : isBlank c = false) : c ∈ trimStart cs := by
  rw [← List.takeWhile_append_dropWhile (p := isBlank) (l := cs), List.mem_append] at hc
  rcases hc with hc | hc
  · have hall := List.all_takeWhile (p := isBlank) (l := cs)
    have hblank := List.all_eq_true.mp hall c hc
    rw [h] at hblank
    cases hblank
  · exact hc

theorem mem_trim_of_not_blank {c : Char} {cs : List Char} (hc : c ∈ cs)
    (h : isBlank c = false) : c ∈ trim cs := by
  have hfront := List.mem_reverse.mpr (mem_trimStart_of_not_blank hc h)
  exact List.mem_reverse.mpr (mem_trimStart_of_not_blank hfront h)

end LayeredConfig.Text
