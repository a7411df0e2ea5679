import LayeredConfig.Decimal.Shortest

/-! Numbers of JSON documents, and their text in a tree.

A whole number that fits 64 bits keeps its digits.  Any other number is a double: its leading digits
are taken as one 64-bit integer, the rest only counts for the exponent, and the integer is scaled by
a power of ten with one rounding.  A number beyond the largest double is refused. -/

namespace LayeredConfig.Json

open Decimal

/-- Doubles are positional from `10 ^ -5` up to below `10 ^ 16` and keep a zero after the point. -/
def numberLayout : Layout where
  positional e := -5 ≤ e ∧ e ≤ 15
  wholeMark := ".0"
  plus := "+"
  nan := "null"
  infinite := "null"

def largestWhole : Nat := Nat.pow 2 64 - 1

/-- Digits added to an integer as long as it fits 64 bits; the number of digits left over. -/
def absorb (n : Nat) : List Char → Nat × Nat
  | [] => (n, 0)
  | d :: ds =>
    let m := 10 * n + digitValue d
    if largestWhole < m then (n, ds.length + 1) else absorb m ds

/-- The double nearest to a power of ten. -/
def powerOfTen (e : Nat) : Binary := Width.double.round false (Nat.pow 10 e) 1

/-- A double times a power of ten; `none` when it is too large.  Steps of `10 ^ -308` come first
where one power does not reach. -/
def scale : Nat → Binary → Int → Option Binary
  | 0, x, _ => some x
  | fuel + 1, x, e =>
    if 0 ≤ e then
      if x.isZero then some x
      else if 308 < e then none
      else
        let y := Width.double.mul x (powerOfTen e.toNat)
        if y.isFinite then some y else none
    else if -308 ≤ e then some (Width.double.div x (powerOfTen (-e).toNat))
    else if x.isZero then some x
    else scale fuel (Width.double.div x (powerOfTen 308)) (e + 308)

/-- The double of a number with the given parts. -/
def double? (p : Parts) : Option Binary :=
  let (n, beyond) := absorb 0 p.whole
  let (n, unread) := absorb n p.fraction
  let e : Int := beyond - (p.fraction.length - unread : Nat) + p.exponent
  scale 5 (Width.double.round false n 1) e

/-- The text of the number with the given sign and parts; `whole` says that it has neither a point
nor an exponent. -/
def numberText (negative whole : Bool) (p : Parts) : Option String :=
  let n := digitsValue p.whole
  let sign := if negative then "-" else ""
  if whole && n ≤ largestWhole && !(negative && (n = 0 || Nat.pow 2 63 < n)) then
    some (sign ++ toString n)
  else (double? p).map fun x => numberLayout.write .double (if negative then x.negate else x)

/-- The digits of an exponent, when one follows, and the letters after it. -/
def readExponent (cs : List Char) : Option (Option Int × List Char) :=
  match cs with
  | 'e' :: r | 'E' :: r =>
    let (negative, r) := match r with
      | '+' :: r => (false, r)
      | '-' :: r => (true, r)
      | r => (false, r)
    match readNat? (r.takeWhile Char.isDigit) with
    | some n =>
      some (some (if negative then -Int.ofNat n else Int.ofNat n), r.dropWhile Char.isDigit)
    | none => none
  | r => some (none, r)

/-- The digits after a point, when one follows, and the letters after them. -/
def readFraction (cs : List Char) : Option (Option (List Char) × List Char) :=
  match cs with
  | '.' :: r =>
    let ds := r.takeWhile Char.isDigit
    if ds = [] then none else some (some ds, r.dropWhile Char.isDigit)
  | r => some (none, r)

/-- A number at the front of the letters, as text, and the letters after it.  No zero stands in
front of another digit. -/
def readNumber (cs : List Char) : Option (String × List Char) := do
  let (negative, cs) := match cs with
    | '-' :: r => (true, r)
    | r => (false, r)
  let whole := cs.takeWhile Char.isDigit
  if whole = [] ∨ (whole.head? = some '0' ∧ whole ≠ ['0']) then none
  else
    let (fraction, cs) ← readFraction (cs.dropWhile Char.isDigit)
    let (exponent, cs) ← readExponent cs
    let text ← numberText negative (fraction.isNone && exponent.isNone)
      ⟨whole, fraction.getD [], exponent.getD 0⟩
    return (text, cs)

end LayeredConfig.Json
