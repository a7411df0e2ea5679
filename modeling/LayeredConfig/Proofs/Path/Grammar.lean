import LayeredConfig.Path.Expression
import LayeredConfig.Proofs.Text.Parts
import Mathlib.Data.List.Induction

/-!
# How a path is written

An expression is empty, or it consists of parts with dots between them, each a key and any number
of indices in brackets (`Written`).  Reading accepts exactly that:

    parse e = ok p  ↔ Written e.toList p                                        (parse_eq_ok_iff)

A path can be written when it is canonical: it does not start with an index, its keys are neither
empty nor hold a dot or an opening bracket, and its positions fit 64 bits.  The display form is one
way to write it, so that reading takes it back.

    parse e = ok p  → p is canonical                                         (Written.canonical)
    p is canonical  → parse p.display = ok p                                     (parse_display)

A closing bracket is an ordinary letter of a key, and so are blanks; an index may have blanks
around it, a plus sign and leading zeros, which the display form drops.
-/

namespace LayeredConfig

/-- A segment that an expression can name. -/
def Segment.Addressable : Segment → Prop
  | .key name => name ≠ "" ∧ '.' ∉ name.toList ∧ '[' ∉ name.toList
  | .index i => i < Nat.pow 2 64

instance : DecidablePred Segment.Addressable
  | .key name => inferInstanceAs (Decidable (name ≠ "" ∧ '.' ∉ name.toList ∧ '[' ∉ name.toList))
  | .index i => inferInstanceAs (Decidable (i < Nat.pow 2 64))

namespace Path

/-- The letters between two brackets that denote an index: blanks around digits, with a plus sign
in front of the digits or without. -/
structure IndexLetters (letters : List Char) (i : Nat) : Prop where
  trimmed : ∃ digits, (Text.trim letters = digits ∨ Text.trim letters = '+' :: digits) ∧
    digits ≠ [] ∧ (∀ c ∈ digits, c.isDigit = true) ∧ Decimal.digitsValue digits = i
  fits : i < Nat.pow 2 64

/-- Indices in brackets, one right after the other. -/
inductive Groups : List Char → List Nat → Prop where
  | nil : Groups [] []
  | cons {letters rest : List Char} {i : Nat} {is : List Nat} (h : IndexLetters letters i)
    (hrest : Groups rest is) : Groups ('[' :: (letters ++ ']' :: rest)) (i :: is)

/-- What stands between two dots: a key and the indices below it. -/
inductive PartLetters : List Char → Path → Prop where
  | intro {name groups : List Char} {is : List Nat} (ne_nil : name ≠ []) (no_dot : '.' ∉ name)
    (no_bracket : '[' ∉ name) (h : Groups groups is) :
    PartLetters (name ++ groups) (.key (String.ofList name) :: is.map .index)

/-- The letters of an expression, and the path that they denote. -/
inductive Written : List Char → Path → Prop where
  | root : Written [] []
  | joined {parts : List (List Char × Path)} (ne_nil : parts ≠ [])
    (h : ∀ part ∈ parts, PartLetters part.1 part.2) :
    Written (['.'].intercalate (parts.map Prod.fst)) (parts.flatMap Prod.snd)

/-- A path that an expression can denote: the root, or a path that starts with a key. -/
structure Canonical (p : Path) : Prop where
  starts : ∀ i, p.head? ≠ some (.index i)
  addressable : ∀ s ∈ p, s.Addressable

/-! ## Lemmas -/

section Reading

variable {letters part : List Char} {i : Nat} {is : List Nat} {p : Path}

/-! ### Indices -/

theorem readSigned?_eq_some_iff {cs : List Char} {n : Int} :
    indexKind.readSigned? cs = some n ↔ ∃ digits, (cs = digits ∨ cs = '+' :: digits) ∧
      digits ≠ [] ∧ (∀ c ∈ digits, c.isDigit = true) ∧ (Decimal.digitsValue digits : Int) = n := by
  -- a sign in front is no digit, so at most one of the two readings is left
  have hplain : (Decimal.readNat? cs).map Int.ofNat = some n ↔ cs ≠ [] ∧
      (∀ c ∈ cs, c.isDigit = true) ∧ (Decimal.digitsValue cs : Int) = n := by
    simp [Decimal.readNat?_eq_some, and_assoc]
  unfold Decimal.IntKind.readSigned?
  split
  · next ds =>
    simp [Decimal.readNat?_eq_some, and_assoc]
  · next ds =>
    simp [indexKind]
  · next hplus hminus =>
    rw [hplain]
    constructor
    · intro h
      exact ⟨cs, .inl rfl, h⟩
    · rintro ⟨ds, hds | hds, h⟩
      · exact hds ▸ h
      · exact absurd hds (hplus ds)

theorem inRange_indexKind (n : Nat) : indexKind.InRange (n : Int) ↔ n < Nat.pow 2 64 := by
  show (0 : Int) ≤ n ∧ (n : Int) ≤ (Nat.pow 2 64 : Nat) - 1 ↔ n < Nat.pow 2 64
  generalize Nat.pow 2 64 = bound
  omega

theorem readIndex?_eq_some_iff : readIndex? letters = some i ↔ IndexLetters letters i := by
  rw [readIndex?, Decimal.IntKind.read?, Option.map_eq_some_iff]
  constructor
  · rintro ⟨n, hn, rfl⟩
    rw [Option.filter_eq_some_iff, decide_eq_true_eq] at hn
    obtain ⟨digits, htrim, hne, hdigits, rfl⟩ := readSigned?_eq_some_iff.mp hn.1
    exact ⟨⟨digits, htrim, hne, hdigits, rfl⟩, (inRange_indexKind _).mp hn.2⟩
  · rintro ⟨⟨digits, htrim, hne, hdigits, rfl⟩, hfits⟩
    refine ⟨(Decimal.digitsValue digits : Int), ?_, Int.toNat_natCast _⟩
    rw [Option.filter_eq_some_iff, decide_eq_true_eq]
    exact ⟨readSigned?_eq_some_iff.mpr ⟨digits, htrim, hne, hdigits, rfl⟩,
      (inRange_indexKind _).mpr hfits⟩

theorem IndexLetters.mem (h : IndexLetters letters i) {c : Char} (hc : c ∈ letters) :
    Text.isBlank c = true ∨ c = '+' ∨ c.isDigit = true := by
  obtain ⟨digits, htrim, -, hdigits, -⟩ := h.trimmed
  by_cases hblank : Text.isBlank c = true
  · exact .inl hblank
  · have hmem : c ∈ Text.trim letters := Text.mem_trim_of_not_blank hc (by simpa using hblank)
    rcases htrim with htrim | htrim
    · exact .inr (.inr (hdigits c (htrim ▸ hmem)))
    · rw [htrim, List.mem_cons] at hmem
      exact .inr (hmem.imp_right (hdigits c))

theorem IndexLetters.not_mem (h : IndexLetters letters i) {c : Char}
    (hc : c = '.' ∨ c = '[' ∨ c = ']') : c ∉ letters := by
  intro hmem
  have hkind := h.mem hmem
  rcases hc with rfl | rfl | rfl <;> revert hkind <;> decide

/-! ### Parts -/

theorem Groups.no_dot (h : Groups letters is) : '.' ∉ letters := by
  induction h with
  | nil => exact List.not_mem_nil
  | cons hindex _ ih =>
    have hin := hindex.not_mem (c := '.') (.inl rfl)
    simp [hin, ih]

theorem Groups.fits (h : Groups letters is) : ∀ i ∈ is, i < Nat.pow 2 64 := by
  induction h with
  | nil => simp
  | cons hindex _ ih => exact List.forall_mem_cons.mpr ⟨hindex.fits, ih⟩

theorem parseIndices_of_groups (h : Groups letters is) :
    parseIndices letters = .ok (is.map .index) := by
  induction h with
  | nil => rw [parseIndices]; rfl
  | @cons letters rest i is hindex hrest ih =>
    -- an index ends at the first closing bracket
    have hclosing : ∀ c ∈ (']' :: rest).head?, c = ']' := by simp
    obtain ⟨htake, hdrop⟩ := Text.takeWhile_until (hindex.not_mem (.inr (.inr rfl))) hclosing
    rw [parseIndices, if_neg (by simp)]
    split
    · next hnil => rw [hdrop] at hnil; cases hnil
    · next hcons =>
      rw [hdrop] at hcons
      obtain ⟨-, rfl⟩ := List.cons.inj hcons
      dsimp only
      rw [htake, readIndex?_eq_some_iff.mpr hindex]
      dsimp only
      rw [ih]
      rfl

theorem groups_of_parseIndices (h : parseIndices letters = .ok p) :
    ∃ is, Groups letters is ∧ p = is.map .index := by
  fun_induction parseIndices letters generalizing p with
  | case1 =>
    cases h
    exact ⟨[], .nil, rfl⟩
  | case2 c cs hc => cases h
  | case3 c cs hc hnil => cases h
  | case4 => cases h
  | case5 c cs hc closing rest hcons shorter text i hread =>
    rename_i ih
    obtain ⟨q, hq, rfl⟩ : ∃ q, parseIndices rest = .ok q ∧ p = .index i :: q := by
      cases hq : parseIndices rest with
      | error e => rw [hq] at h; cases h
      | ok q => rw [hq] at h; exact ⟨q, rfl, (Except.ok.inj h).symm⟩
    obtain ⟨is, hgroups, rfl⟩ := ih hq
    obtain rfl : c = '[' := not_not.mp hc
    have hclosing : closing = ']' := by
      have hhead := List.head?_dropWhile_not (fun c => decide (c ≠ ']')) cs
      rw [hcons] at hhead
      simpa using hhead
    have hletters : cs = text ++ ']' :: rest := by
      have hsplit := List.takeWhile_append_dropWhile (p := fun c => decide (c ≠ ']')) (l := cs)
      rw [hcons, hclosing] at hsplit
      exact hsplit.symm
    rw [hletters]
    exact ⟨i :: is, .cons (readIndex?_eq_some_iff.mp hread) hgroups, rfl⟩

theorem PartLetters.no_dot (h : PartLetters part p) : '.' ∉ part := by
  cases h with
  | intro hne hdot hbracket hgroups => simp [hdot, hgroups.no_dot]

theorem PartLetters.ne_nil (h : PartLetters part p) : part ≠ [] := by
  cases h with
  | intro hne hdot hbracket hgroups => simp [hne]

theorem Groups.head_eq (h : Groups letters is) : ∀ c ∈ letters.head?, c = '[' := by
  cases h with
  | nil => simp
  | cons hindex hrest => simp

theorem parsePart_eq_ok_iff (h : '.' ∉ part) : parsePart part = .ok p ↔ PartLetters part p := by
  constructor
  · intro hp
    rw [parsePart] at hp
    split at hp
    · cases hp
    · next hname =>
      have hsplit := List.takeWhile_append_dropWhile (p := fun c => decide (c ≠ '[')) (l := part)
      cases hq : parseIndices (part.dropWhile (· ≠ '[')) with
      | error e => rw [hq] at hp; cases hp
      | ok q =>
        rw [hq] at hp
        obtain rfl := Except.ok.inj hp
        obtain ⟨is, hgroups, rfl⟩ := groups_of_parseIndices hq
        have hdot : '.' ∉ part.takeWhile (· ≠ '[') :=
          fun hmem => h ((List.takeWhile_sublist _).subset hmem)
        have hbracket : '[' ∉ part.takeWhile (· ≠ '[') := by
          intro hmem
          have hall := List.all_eq_true.mp (List.all_takeWhile (p := (· ≠ '[')) (l := part)) _ hmem
          simp at hall
        have hpart := PartLetters.intro hname hdot hbracket hgroups
        rwa [hsplit] at hpart
  · rintro ⟨hne, hdot, hbracket, hgroups⟩
    -- the key ends at the first opening bracket
    obtain ⟨htake, hdrop⟩ := Text.takeWhile_until hbracket hgroups.head_eq
    rw [parsePart, htake, hdrop, if_neg hne, parseIndices_of_groups hgroups]
    rfl

theorem parseParts_cons_eq_ok_iff {parts : List (List Char)} :
    parseParts (part :: parts) = .ok p ↔
      ∃ q r, parsePart part = .ok q ∧ parseParts parts = .ok r ∧ p = q ++ r := by
  rw [parseParts]
  cases parsePart part with
  | error e => simp [bind, Except.bind]
  | ok q =>
    cases parseParts parts with
    | error e => simp [bind, Except.bind]
    | ok r =>
      show Except.ok (q ++ r) = .ok p ↔ _
      constructor
      · intro h
        exact ⟨q, r, rfl, rfl, (Except.ok.inj h).symm⟩
      · rintro ⟨_, _, ⟨⟩, ⟨⟩, rfl⟩
        rfl

theorem parseParts_eq_ok_iff {parts : List (List Char)} (h : ∀ part ∈ parts, '.' ∉ part) :
    parseParts parts = .ok p ↔ ∃ read : List (List Char × Path), read.map Prod.fst = parts ∧
      (∀ x ∈ read, PartLetters x.1 x.2) ∧ p = read.flatMap Prod.snd := by
  induction parts generalizing p with
  | nil =>
    constructor
    · intro hp
      obtain rfl := Except.ok.inj hp
      exact ⟨[], rfl, by simp, rfl⟩
    · rintro ⟨read, hread, -, rfl⟩
      rw [List.map_eq_nil_iff.mp hread]
      rfl
  | cons part parts ih =>
    rw [List.forall_mem_cons] at h
    rw [parseParts_cons_eq_ok_iff]
    constructor
    · rintro ⟨q, r, hq, hr, rfl⟩
      obtain ⟨read, rfl, hread, rfl⟩ := (ih h.2).mp hr
      refine ⟨(part, q) :: read, rfl, ?_, rfl⟩
      exact List.forall_mem_cons.mpr ⟨(parsePart_eq_ok_iff h.1).mp hq, hread⟩
    · rintro ⟨_ | ⟨x, read⟩, hparts, hread, rfl⟩
      · cases hparts
      · obtain ⟨rfl, rfl⟩ := List.cons.inj hparts
        rw [List.forall_mem_cons] at hread
        exact ⟨x.2, read.flatMap Prod.snd, (parsePart_eq_ok_iff h.1).mpr hread.1,
          (ih h.2).mpr ⟨read, rfl, hread.2, rfl⟩, rfl⟩

/-! ### Expressions -/

theorem parse_eq_ok_iff {e : String} : parse e = .ok p ↔ Written e.toList p := by
  rw [parse]
  split
  · next hempty =>
    rw [hempty]
    constructor
    · intro h
      obtain rfl := Except.ok.inj h
      exact .root
    · intro h
      generalize hletters : ([] : List Char) = letters at h
      cases h with
      | root => rfl
      | @joined parts hne h =>
        obtain ⟨x, parts, rfl⟩ := List.exists_cons_of_ne_nil hne
        have hx := (h x List.mem_cons_self).ne_nil
        cases parts with
        | nil => simp [hx.symm] at hletters
        | cons y parts => simp [List.intercalate_cons_cons, hx] at hletters
  · next hne =>
    have hparts : Text.Parts '.' e.toList (e.toList.splitOn '.') := Text.parts_iff.mpr rfl
    rw [parseParts_eq_ok_iff hparts.not_mem]
    constructor
    · rintro ⟨read, hread, hletters, rfl⟩
      have hne_nil : read ≠ [] := by
        rintro rfl
        exact hparts.ne_nil hread.symm
      have hwritten := Written.joined hne_nil hletters
      rwa [hread, hparts.joined] at hwritten
    · intro h
      generalize hletters : e.toList = letters at h
      cases h with
      | root => exact absurd hletters hne
      | @joined read hread h =>
        refine ⟨read, ?_, h, rfl⟩
        refine (Text.parts_iff.mp ⟨by simpa using hread, ?_, rfl⟩).symm
        intro part hpart
        obtain ⟨x, hx, rfl⟩ := List.mem_map.mp hpart
        exact (h x hx).no_dot

end Reading

/-! ### Canonical paths and their display form -/

section Display

variable {letters : List Char} {p : Path} {k : String} {i : Nat}

theorem PartLetters.canonical (h : PartLetters letters p) :
    (∃ name rest, p = .key name :: rest) ∧ ∀ s ∈ p, s.Addressable := by
  cases h with
  | @intro name groups is hne hdot hbracket hgroups =>
    refine ⟨⟨_, _, rfl⟩, List.forall_mem_cons.mpr ⟨?_, ?_⟩⟩
    · refine ⟨?_, by simpa using hdot, by simpa using hbracket⟩
      intro hempty
      have hnil := congrArg String.toList hempty
      rw [String.toList_ofList] at hnil
      exact hne hnil
    · intro s hs
      obtain ⟨i, hi, rfl⟩ := List.mem_map.mp hs
      exact hgroups.fits i hi

theorem Written.canonical (h : Written letters p) : Canonical p := by
  cases h with
  | root => exact ⟨by simp, by simp⟩
  | @joined parts hne hparts =>
    refine ⟨?_, ?_⟩
    · intro i hi
      obtain ⟨x, rest, rfl⟩ := List.exists_cons_of_ne_nil hne
      obtain ⟨⟨name, path, hx⟩, -⟩ := (hparts x List.mem_cons_self).canonical
      rw [List.flatMap_cons, hx] at hi
      cases hi
    · intro s hs
      obtain ⟨x, hx, hs⟩ := List.mem_flatMap.mp hs
      exact (hparts x hx).canonical.2 s hs

theorem Groups.append {front back : List Char} {is js : List Nat} (h : Groups front is)
    (hback : Groups back js) : Groups (front ++ back) (is ++ js) := by
  induction h with
  | nil => exact hback
  | @cons letters rest i is hindex hrest ih =>
    have happ := Groups.cons hindex ih
    simpa using happ

theorem indexLetters_toString (h : i < Nat.pow 2 64) : IndexLetters (toString i).toList i := by
  have hletters : (toString i).toList = Nat.toDigits 10 i := by
    rw [Nat.toString_eq_repr, Nat.toList_repr]
  have hdigits : ∀ c ∈ Nat.toDigits 10 i, c.isDigit = true := fun c hc =>
    Nat.isDigit_of_mem_toDigits (by decide) (by decide) hc
  have hvalue : Decimal.digitsValue (Nat.toDigits 10 i) = i :=
    Nat.ofDigitChars_toDigits (by decide) (by decide)
  rw [hletters]
  exact ⟨⟨_, .inl (Text.trim_digits hdigits), Nat.toDigits_ne_nil, hdigits, hvalue⟩, h⟩

theorem intercalate_append_singleton (sep x : List Char) {xs : List (List Char)} (h : xs ≠ []) :
    sep.intercalate (xs ++ [x]) = sep.intercalate xs ++ (sep ++ x) := by
  induction xs with
  | nil => exact absurd rfl h
  | cons y xs ih =>
    cases xs with
    | nil => simp
    | cons z xs =>
      rw [List.cons_append, List.cons_append, List.intercalate_cons_cons,
        List.intercalate_cons_cons, ← List.cons_append, ih (by simp)]
      simp

/-- Letters behind the last part belong to that part. -/
theorem intercalate_append_last (sep x y : List Char) (xs : List (List Char)) :
    sep.intercalate (xs ++ [x ++ y]) = sep.intercalate (xs ++ [x]) ++ y := by
  by_cases h : xs = []
  · subst h
    simp
  · rw [intercalate_append_singleton sep _ h, intercalate_append_singleton sep _ h]
    simp

theorem partLetters_key (h : (Segment.key k).Addressable) : PartLetters k.toList [.key k] := by
  obtain ⟨hne, hdot, hbracket⟩ := h
  have hpart := PartLetters.intro (by simpa using hne) hdot hbracket .nil
  rwa [List.append_nil, String.ofList_toList] at hpart

theorem PartLetters.index {part : List Char} (h : PartLetters part p) (hi : i < Nat.pow 2 64) :
    PartLetters (part ++ '[' :: ((toString i).toList ++ [']'])) (p ++ [.index i]) := by
  cases h with
  | @intro name groups is hne hdot hbracket hgroups =>
    have hlast := hgroups.append (.cons (indexLetters_toString hi) .nil)
    have hpart := PartLetters.intro hne hdot hbracket hlast
    simpa using hpart

/-- One more segment is written behind what is there already. -/
theorem Written.append_segment {s : Segment} (h : Written letters p) (hp : p ≠ [])
    (hs : s.Addressable) : Written (letters ++ s.display.toList) (p ++ [s]) := by
  cases h with
  | root => exact absurd rfl hp
  | @joined parts hne hparts =>
    cases s with
    | key k =>
      have hall : ∀ x ∈ parts ++ [(k.toList, [Segment.key k])], PartLetters x.1 x.2 :=
        List.forall_mem_append.mpr ⟨hparts, by simpa using partLetters_key hs⟩
      have hwritten := Written.joined (by simp) hall
      rw [List.map_append, List.map_singleton,
        intercalate_append_singleton _ _ (by simpa using hne)] at hwritten
      simpa [Segment.display] using hwritten
    | index i =>
      obtain ⟨front, x, hconcat⟩ := (List.eq_nil_or_concat parts).resolve_left hne
      rw [List.concat_eq_append] at hconcat
      subst hconcat
      rw [List.forall_mem_append] at hparts
      have hlast := (hparts.2 x (by simp)).index hs
      have hall : ∀ y ∈ front ++ [(x.1 ++ '[' :: ((toString i).toList ++ [']']),
          x.2 ++ [Segment.index i])], PartLetters y.1 y.2 :=
        List.forall_mem_append.mpr ⟨hparts.1, by simpa using hlast⟩
      have hwritten := Written.joined (by simp) hall
      rw [List.map_append, List.map_singleton, intercalate_append_last] at hwritten
      simpa [Segment.display] using hwritten

theorem display_append {s : Segment} (hp : p ≠ []) :
    display (p ++ [s]) = display p ++ s.display := by
  obtain ⟨s', p, rfl⟩ := List.exists_cons_of_ne_nil hp
  cases s' <;> simp [display, String.join_append, String.append_assoc]

theorem Canonical.written (h : Canonical p) : Written p.display.toList p := by
  induction p using List.reverseRecOn with
  | nil => exact .root
  | append_singleton p s ih =>
    obtain ⟨hstarts, haddressable⟩ := h
    rw [List.forall_mem_append] at haddressable
    by_cases hp : p = []
    · subst hp
      cases s with
      | index i => exact absurd rfl (hstarts i)
      | key k =>
        have hk := partLetters_key (haddressable.2 (.key k) (by simp))
        have hwritten := @Written.joined [(k.toList, [.key k])] (by simp) (by simpa using hk)
        simpa [display] using hwritten
    · have hfront : Canonical p := by
        refine ⟨fun i hi => hstarts i ?_, haddressable.1⟩
        rw [List.head?_append, hi]
        rfl
      rw [display_append hp, String.toList_append]
      exact (ih hfront).append_segment hp (haddressable.2 s (by simp))

theorem parse_display (h : Canonical p) : parse p.display = .ok p :=
  parse_eq_ok_iff.mpr h.written

end Display

/-! ## Top theorem (proved from the lemmas above) -/

/-- Exactly the expressions that are written as parts with dots between them are read, as the path
that they denote; what is read is canonical, and a canonical path is read back from its display
form, so that displaying what was read and reading it again changes nothing. -/
theorem parse_display_inverse :
    (∀ e p, parse e = .ok p ↔ Written e.toList p) ∧
    (∀ e p, parse e = .ok p → Canonical p) ∧
    (∀ p, Canonical p → parse p.display = .ok p) ∧
    ∀ e p, parse e = .ok p → parse p.display = parse e := by
  refine ⟨fun e p => parse_eq_ok_iff, ?_, fun p => parse_display, ?_⟩
  · intro e p h
    exact (parse_eq_ok_iff.mp h).canonical
  · intro e p h
    rw [h, parse_display (parse_eq_ok_iff.mp h).canonical]

/-- A closing bracket in a key, blanks and a plus sign around an index, and a key that is a blank and
a letter; with a letter behind the bracket there is nothing to read. -/
theorem parse_display_inverse_spelled :
    let e := "a]b[ +007 ][2]. c"
    let p : Path := [.key "a]b", .index 7, .index 2, .key " c"]
    parse e = .ok p ∧ Canonical p ∧ p.display = "a]b[7][2]. c" ∧ parse "a]b[7][2]. c" = parse e ∧
      ∀ q, ¬ Written "a[0]b".toList q := by
  intro e p
  obtain ⟨hread, hcanonical, hback, hagain⟩ := parse_display_inverse
  have hparse : parse e = .ok p := by decide +kernel
  have hfault : parse "a[0]b" = .error .trailingText := by decide +kernel
  have hdisplay : p.display = "a]b[7][2]. c" := by decide
  refine ⟨hparse, hcanonical e p hparse, hdisplay, ?_, ?_⟩
  · rw [← hdisplay, hagain e p hparse]
  · intro q hq
    have hok := (hread "a[0]b" q).mpr hq
    rw [hfault] at hok
    cases hok

end Path

end LayeredConfig
