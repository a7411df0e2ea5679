import LayeredConfig.Decimal.Digits
import LayeredConfig.Text.Blank
import Mathlib.Data.List.Induction
import Mathlib.Data.Nat.Digits.Defs

/-!
# How an integer is written

An integer is written as digits, the highest first and with any number of zeros in front, and as a
sign before them: a plus sign for every kind, a minus sign for a signed one (`Written`).  Reading
accepts exactly that, as long as the number fits the kind (`Fits`); the digits are read one by one
from the front, and what comes out is their value by position.

    k.read? cs = some n  ↔ k.Written cs n and k.Fits n                       (read?_eq_some_iff)
    k.Fits n             → k.Written (toString n).toList n                    (written_toString)
-/

namespace LayeredConfig.Decimal

/-- Digits and the number that they denote by their positions. -/
structure Numeral (cs : List Char) (n : Nat) : Prop where
  ne_nil : cs ≠ []
  digits : ∀ c ∈ cs, '0' ≤ c ∧ c ≤ '9'
  value_eq : Nat.ofDigits 10 (cs.reverse.map fun c => c.toNat - '0'.toNat) = n

namespace IntKind

/-- The letters of an integer of a kind, whatever its size. -/
inductive Written (k : IntKind) : List Char → Int → Prop where
  | bare {cs : List Char} {n : Nat} (h : Numeral cs n) : Written k cs n
  | plus {cs : List Char} {n : Nat} (h : Numeral cs n) : Written k ('+' :: cs) n
  | minus {cs : List Char} {n : Nat} (hsigned : k.signed = true) (h : Numeral cs n) :
    Written k ('-' :: cs) (-n)

/-- The integers of a kind: half of them are negative in a signed one, none in the others. -/
def Fits (k : IntKind) (n : Int) : Prop :=
  if k.signed then -2 ^ (k.bits - 1) ≤ n ∧ n < 2 ^ (k.bits - 1) else 0 ≤ n ∧ n < 2 ^ k.bits

instance (k : IntKind) (n : Int) : Decidable (k.Fits n) :=
  inferInstanceAs (Decidable (ite _ _ _))

end IntKind

/-! ## Lemmas -/

theorem isDigit_iff {c : Char} : c.isDigit = true ↔ '0' ≤ c ∧ c ≤ '9' := by
  simp only [Char.isDigit, Bool.and_eq_true, decide_eq_true_eq]
  rfl

/-- Digits read from the front have their value by position. -/
theorem digitsValue_eq_ofDigits (cs : List Char) :
    digitsValue cs = Nat.ofDigits 10 (cs.reverse.map fun c => c.toNat - '0'.toNat) := by
  induction cs using List.reverseRecOn with
  | nil => rfl
  | append_singleton cs c ih =>
    rw [List.reverse_append, List.reverse_singleton, List.singleton_append, List.map_cons,
      Nat.ofDigits_cons, ← ih, digitsValue, valueIn, List.foldl_append, List.foldl_cons,
      List.foldl_nil, Nat.add_comm]
    rfl

theorem readNat?_eq_some_iff {cs : List Char} {n : Nat} : readNat? cs = some n ↔ Numeral cs n := by
  rw [readNat?_eq_some, digitsValue_eq_ofDigits]
  simp only [isDigit_iff]
  exact ⟨fun ⟨⟨hne, hdigits⟩, hvalue⟩ => ⟨hne, hdigits, hvalue⟩, fun h => ⟨⟨h.1, h.2⟩, h.3⟩⟩

namespace Numeral

variable {cs : List Char} {n : Nat}

/-- A sign is no digit. -/
theorem head_ne (h : Numeral cs n) {c : Char} (hc : c.isDigit = false) (rest : List Char) :
    cs ≠ c :: rest := by
  rintro rfl
  have hdigit := isDigit_iff.mpr (h.digits c List.mem_cons_self)
  rw [hc] at hdigit
  cases hdigit

end Numeral

theorem numeral_toString (n : Nat) : Numeral (toString n).toList n := by
  have hletters : (toString n).toList = Nat.toDigits 10 n := by
    rw [Nat.toString_eq_repr, Nat.toList_repr]
  rw [hletters]
  refine readNat?_eq_some_iff.mp (readNat?_eq_some.mpr ⟨⟨?_, ?_⟩, ?_⟩)
  · exact Nat.toDigits_ne_nil
  · exact fun c hc => Nat.isDigit_of_mem_toDigits (by decide) (by decide) hc
  · have hvalue := Nat.ofDigitChars_ten_toDigits (n := n)
    rw [Nat.ofDigitChars_eq_foldl] at hvalue
    exact hvalue

namespace IntKind

variable {k : IntKind} {cs : List Char} {n : Int}

theorem inRange_iff_fits : k.InRange n ↔ k.Fits n := by
  unfold InRange Fits IntKind.min IntKind.max
  split <;> exact and_congr_right fun _ => Int.le_sub_one_iff

theorem readSigned?_eq_some_iff : k.readSigned? cs = some n ↔ k.Written cs n := by
  constructor
  · intro h
    unfold readSigned? at h
    split at h
    · obtain ⟨m, hm, rfl⟩ := Option.map_eq_some_iff.mp h
      exact .plus (readNat?_eq_some_iff.mp hm)
    · split at h
      · next hsigned =>
        obtain ⟨m, hm, rfl⟩ := Option.map_eq_some_iff.mp h
        exact .minus hsigned (readNat?_eq_some_iff.mp hm)
      · cases h
    · obtain ⟨m, hm, rfl⟩ := Option.map_eq_some_iff.mp h
      exact .bare (readNat?_eq_some_iff.mp hm)
  · intro h
    cases h with
    | bare h =>
      unfold readSigned?
      split
      · exact absurd rfl (h.head_ne (c := '+') rfl _)
      · exact absurd rfl (h.head_ne (c := '-') rfl _)
      · rw [readNat?_eq_some_iff.mpr h]
        rfl
    | plus h =>
      show (readNat? _).map Int.ofNat = _
      rw [readNat?_eq_some_iff.mpr h]
      rfl
    | minus hsigned h =>
      show (if k.signed then (readNat? _).map (fun n => -Int.ofNat n) else none) = _
      rw [if_pos hsigned, readNat?_eq_some_iff.mpr h]
      rfl

/-- Reading accepts the letters of the integers that fit, and gives those integers. -/
theorem read?_eq_some_iff : k.read? cs = some n ↔ k.Written cs n ∧ k.Fits n := by
  rw [read?, Option.filter_eq_some_iff, readSigned?_eq_some_iff, decide_eq_true_eq,
    inRange_iff_fits]

theorem Written.mem (h : k.Written cs n) {c : Char} (hc : c ∈ cs) :
    c = '+' ∨ c = '-' ∨ c.isDigit = true := by
  cases h with
  | bare h => exact .inr (.inr (isDigit_iff.mpr (h.digits c hc)))
  | plus h =>
    rcases List.mem_cons.mp hc with rfl | hc
    · exact .inl rfl
    · exact .inr (.inr (isDigit_iff.mpr (h.digits c hc)))
  | minus _ h =>
    rcases List.mem_cons.mp hc with rfl | hc
    · exact .inr (.inl rfl)
    · exact .inr (.inr (isDigit_iff.mpr (h.digits c hc)))

theorem Written.ne_nil (h : k.Written cs n) : cs ≠ [] := by
  cases h with
  | bare h => exact h.ne_nil
  | plus h => exact List.cons_ne_nil _ _
  | minus _ h => exact List.cons_ne_nil _ _

theorem Fits.signed_of_neg (h : k.Fits n) (hn : n < 0) : k.signed = true := by
  by_contra hsigned
  rw [Fits, if_neg hsigned] at h
  exact absurd h.1 (Int.not_le.mpr hn)

/-- The decimal text of an integer is one way to write it. -/
theorem written_toString (h : k.Fits n) : k.Written (toString n).toList n := by
  cases n with
  | ofNat m => exact .bare (numeral_toString m)
  | negSucc m =>
    have hletters : (toString (Int.negSucc m)).toList = '-' :: (toString (m + 1)).toList := by
      show ("-" ++ (m + 1).repr).toList = _
      rw [String.toList_append]
      rfl
    rw [hletters]
    exact .minus (h.signed_of_neg (Int.negSucc_lt_zero m)) (numeral_toString (m + 1))

end IntKind

end LayeredConfig.Decimal
