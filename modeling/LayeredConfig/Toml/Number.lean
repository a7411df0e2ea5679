import LayeredConfig.Decimal.Shortest
import LayeredConfig.Json.Reader

/-! Numbers of TOML documents, and their text in a tree.

Digits may have single underscores between them.  Integers fit 64 bits and are decimal with a sign
or hexadecimal, octal or binary without one.  Floating-point numbers are doubles, written with the
fewest digits and never with an exponent. -/

namespace LayeredConfig.Toml

open Decimal

def numberLayout : Layout where
  positional _ := true
  wholeMark := ""
  plus := ""
  nan := "NaN"
  infinite := "inf"

def integerKind : IntKind := ⟨true, 64⟩

/-- One or more digits, without the underscores between them, and the letters after them. -/
def readDigits (digit : Char → Bool) : List Char → Option (List Char × List Char)
  | [] => none
  | c :: cs =>
    if digit c then
      match cs with
      | '_' :: cs => (readDigits digit cs).map fun (ds, cs) => (c :: ds, cs)
      | cs =>
        if cs.head?.any digit then (readDigits digit cs).map fun (ds, cs) => (c :: ds, cs)
        else some ([c], cs)
    else none

/-- The text of an integer in range. -/
def integerText (n : Int) : Option String :=
  if integerKind.InRange n then some (toString n) else none

/-- An integer in another base than ten. -/
def readBased (base : Nat) (cs : List Char) : Option (String × List Char) := do
  let value (c : Char) : Nat := (Json.hexValue? c).getD base
  let (ds, cs) ← readDigits (fun c => value c < base) cs
  return (← integerText (valueIn base value ds), cs)

/-- An optional sign: whether it is a minus, and the letters after it. -/
def readSign : List Char → Bool × List Char
  | '-' :: cs => (true, cs)
  | '+' :: cs => (false, cs)
  | cs => (false, cs)

def readFraction : List Char → Option (Option (List Char) × List Char)
  | '.' :: cs => (readDigits Char.isDigit cs).map fun (ds, cs) => (some ds, cs)
  | cs => some (none, cs)

def readExponent : List Char → Option (Option Int × List Char)
  | c :: cs =>
    if c = 'e' ∨ c = 'E' then
      let (negative, cs) := readSign cs
      (readDigits Char.isDigit cs).map fun (ds, cs) =>
        let n : Int := digitsValue ds
        (some (if negative then -n else n), cs)
    else some (none, c :: cs)
  | [] => some (none, [])

/-- The text of a floating-point number; one that is too large is refused unless it is negative. -/
def floatText (negative : Bool) (p : Parts) : Option String :=
  match p.round .double negative with
  | .infinite false => none
  | x => some (numberLayout.write .double x)

/-- A decimal number, after its sign. -/
def readDecimal (negative : Bool) (cs : List Char) : Option (String × List Char) := do
  let (whole, cs) ← readDigits Char.isDigit cs
  if whole.head? = some '0' ∧ whole ≠ ['0'] then none
  else
    let (fraction, cs) ← readFraction cs
    let (exponent, cs) ← readExponent cs
    if fraction.isNone && exponent.isNone then
      let n : Int := digitsValue whole
      return (← integerText (if negative then -n else n), cs)
    else
      return (← floatText negative ⟨whole, fraction.getD [], exponent.getD 0⟩, cs)

/-- A number at the front of the letters, as text. -/
def readNumber : List Char → Option (String × List Char)
  | '0' :: 'x' :: cs => readBased 16 cs
  | '0' :: 'o' :: cs => readBased 8 cs
  | '0' :: 'b' :: cs => readBased 2 cs
  | cs =>
    match readSign cs with
    | (negative, 'i' :: 'n' :: 'f' :: cs) =>
      some (numberLayout.write .double (.infinite negative), cs)
    | (_, 'n' :: 'a' :: 'n' :: cs) => some (numberLayout.write .double .nan, cs)
    | (negative, cs) => readDecimal negative cs

end LayeredConfig.Toml
