/-! Integers in decimal text.

`readNat?` accepts one or more ASCII digits, leading zeros included.  `IntKind.read?` adds a sign
and a range: a plus sign is always allowed, a minus sign for signed kinds only, and a number out
of range is refused rather than wrapped. -/

namespace LayeredConfig.Decimal

def digitValue (c : Char) : Nat := c.toNat - '0'.toNat

/-- The number that a row of digits denotes in the given base. -/
def valueIn (base : Nat) (value : Char → Nat) (cs : List Char) : Nat :=
  cs.foldl (fun n c => base * n + value c) 0

def digitsValue (cs : List Char) : Nat := valueIn 10 digitValue cs

/-- One or more ASCII digits. -/
def readNat? (cs : List Char) : Option Nat :=
  if cs ≠ [] ∧ cs.all Char.isDigit then some (digitsValue cs) else none

/-- A fixed-width integer: signed or not, of a number of bits. -/
structure IntKind where
  signed : Bool
  bits : Nat
  deriving DecidableEq, Repr

namespace IntKind

def min (k : IntKind) : Int := if k.signed then -(Nat.pow 2 (k.bits - 1) : Nat) else 0

def max (k : IntKind) : Int :=
  if k.signed then (Nat.pow 2 (k.bits - 1) : Nat) - 1 else (Nat.pow 2 k.bits : Nat) - 1

def InRange (k : IntKind) (n : Int) : Prop := k.min ≤ n ∧ n ≤ k.max

instance (k : IntKind) (n : Int) : Decidable (k.InRange n) :=
  inferInstanceAs (Decidable (_ ∧ _))

/-- The name of the kind: a letter for the sign and the width. -/
def name (k : IntKind) : String := (if k.signed then "i" else "u") ++ toString k.bits

/-- The integer that signed digits denote, whatever its size. -/
def readSigned? (k : IntKind) : List Char → Option Int
  | '+' :: cs => (readNat? cs).map Int.ofNat
  | '-' :: cs => if k.signed then (readNat? cs).map fun n => -Int.ofNat n else none
  | cs => (readNat? cs).map Int.ofNat

def read? (k : IntKind) (cs : List Char) : Option Int :=
  (k.readSigned? cs).filter fun n => k.InRange n

end IntKind

/-! ## Lemmas -/

theorem readNat?_eq_some {cs : List Char} {n : Nat} :
    readNat? cs = some n ↔ (cs ≠ [] ∧ ∀ c ∈ cs, c.isDigit = true) ∧ digitsValue cs = n := by
  simp only [readNat?, List.all_eq_true]
  split
  · next h =>
    simp only [Option.some.injEq]
    exact ⟨fun hn => ⟨h, hn⟩, And.right⟩
  · next h => exact ⟨nofun, fun hn => absurd hn.1 h⟩

end LayeredConfig.Decimal
