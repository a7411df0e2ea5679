import LayeredConfig.Decimal.Digits

/-! Binary floating-point numbers as exact quantities.

A finite number is `m · 2 ^ q`; `Width.round` takes a positive ratio of naturals to the nearest
number of a width, a tie to the even `m`.  All arithmetic is on naturals, so every step is exact
until the one rounding.

`Width.ofDecimal` reads `digits · 10 ^ e`.  Exponents far outside the range of the width are
decided from the number of digits, so that a long exponent costs nothing. -/

namespace LayeredConfig.Decimal

/-- A binary interchange width: the bits of the significand, the hidden one included, and of the
exponent. -/
structure Width where
  precision : Nat
  exponentBits : Nat
  deriving DecidableEq, Repr

namespace Width

/-- The width of 64 bits. -/
def double : Width := ⟨53, 11⟩

/-- The width of 32 bits. -/
def single : Width := ⟨24, 8⟩

def bias (w : Width) : Nat := Nat.pow 2 (w.exponentBits - 1) - 1

/-- The least exponent of two that a finite `m` carries. -/
def minExponent (w : Width) : Int := 2 - w.bias - w.precision

/-- The greatest exponent of two that a finite `m` carries. -/
def maxExponent (w : Width) : Int := w.bias + 1 - w.precision

def bits (w : Width) : Nat := w.precision + w.exponentBits

end Width

/-- A floating-point value of some width.  Zero is finite with `m = 0`. -/
inductive Binary where
  | nan
  | infinite (negative : Bool)
  | finite (negative : Bool) (m : Nat) (q : Int)
  deriving DecidableEq, Repr

namespace Binary

def isFinite : Binary → Bool
  | finite .. => true
  | _ => false

def isZero : Binary → Bool
  | finite _ m _ => m = 0
  | _ => false

def negate : Binary → Binary
  | nan => nan
  | infinite s => infinite !s
  | finite s m q => finite (!s) m q

/-- The interchange encoding, as the number that its bits denote. -/
def encode (w : Width) : Binary → Nat
  | nan =>
    (Nat.pow 2 w.exponentBits - 1) * Nat.pow 2 (w.precision - 1) + Nat.pow 2 (w.precision - 2)
  | infinite s => sign s + (Nat.pow 2 w.exponentBits - 1) * Nat.pow 2 (w.precision - 1)
  | finite s m q =>
    let hidden := Nat.pow 2 (w.precision - 1)
    if m < hidden then sign s + m
    else sign s + ((q - w.minExponent).toNat + 1) * hidden + (m - hidden)
where
  sign (s : Bool) : Nat := if s then Nat.pow 2 (w.bits - 1) else 0

end Binary

/-- `n / d` to the nearest natural, a tie to the even one. -/
def roundDiv (n d : Nat) : Nat :=
  let k := n / d
  let r := n % d
  if 2 * r < d then k else if d < 2 * r then k + 1 else k + k % 2

namespace Width

/-- The ratio `n / d` in units of `2 ^ q`, as a ratio again. -/
def scaled (n d : Nat) (q : Int) : Nat × Nat :=
  if 0 ≤ q then (n, d * Nat.pow 2 q.toNat) else (n * Nat.pow 2 (-q).toNat, d)

/-- The exponent at which `n / d` has its significand, or the least one of the width. -/
def exponentOf (w : Width) (n d : Nat) : Int :=
  let q : Int := n.log2 - d.log2 - w.precision
  let (a, b) := scaled n d q
  max w.minExponent (if a / b < Nat.pow 2 w.precision then q else q + 1)

/-- The number nearest to the ratio `n / d`, for `d > 0`. -/
def round (w : Width) (negative : Bool) (n d : Nat) : Binary :=
  if n = 0 then .finite negative 0 w.minExponent
  else
    let q := w.exponentOf n d
    let (a, b) := scaled n d q
    let m := roundDiv a b
    let (m, q) := if m = Nat.pow 2 w.precision then (Nat.pow 2 (w.precision - 1), q + 1) else (m, q)
    if w.maxExponent < q then .infinite negative
    else if m = 0 then .finite negative 0 w.minExponent
    else .finite negative m q

/-- The number nearest to `digits · 10 ^ e`, where `digits` was written with `count` digits.
Beyond `10 ^ 400` and below `10 ^ -400` every width has infinity and zero. -/
def ofDecimal (w : Width) (negative : Bool) (digits count : Nat) (e : Int) : Binary :=
  if digits = 0 then .finite negative 0 w.minExponent
  else if 400 < e then .infinite negative
  else if e + count < -400 then .finite negative 0 w.minExponent
  else if 0 ≤ e then w.round negative (digits * Nat.pow 10 e.toNat) 1
  else w.round negative digits (Nat.pow 10 (-e).toNat)

/-- The product of two numbers, rounded once. -/
def mul (w : Width) : Binary → Binary → Binary
  | .finite s m q, .finite t n r =>
    let p := m * n
    let e := q + r
    if 0 ≤ e then w.round (s != t) (p * Nat.pow 2 e.toNat) 1
    else w.round (s != t) p (Nat.pow 2 (-e).toNat)
  | .nan, _ | _, .nan => .nan
  | .infinite s, x => if x.isZero then .nan else .infinite (s != sign x)
  | x, .infinite s => if x.isZero then .nan else .infinite (s != sign x)
where
  sign : Binary → Bool
    | .nan => false
    | .infinite s => s
    | .finite s _ _ => s

/-- The quotient of two finite numbers with a divisor other than zero, rounded once. -/
def div (w : Width) : Binary → Binary → Binary
  | .finite s m q, .finite t n r =>
    let e := q - r
    if n = 0 then .nan
    else if 0 ≤ e then w.round (s != t) (m * Nat.pow 2 e.toNat) n
    else w.round (s != t) m (n * Nat.pow 2 (-e).toNat)
  | _, _ => .nan

end Width

/-! ## Numbers in text -/

/-- The parts of a decimal number: the digits before and after the point, and the exponent. -/
structure Parts where
  whole : List Char
  fraction : List Char
  exponent : Int
  deriving DecidableEq, Repr

namespace Parts

def digitCount (p : Parts) : Nat := p.whole.length + p.fraction.length

def significand (p : Parts) : Nat := digitsValue (p.whole ++ p.fraction)

def round (w : Width) (negative : Bool) (p : Parts) : Binary :=
  w.ofDecimal negative p.significand p.digitCount (p.exponent - p.fraction.length)

end Parts

/-- A signed exponent: an optional sign and at least one digit, to the end of the text. -/
def readExponent? : List Char → Option Int
  | '+' :: cs => (readNat? cs).map Int.ofNat
  | '-' :: cs => (readNat? cs).map fun n => -Int.ofNat n
  | cs => (readNat? cs).map Int.ofNat

/-- Digits with an optional point and an optional exponent; at least one digit stands before or
after the point. -/
def readParts? (cs : List Char) : Option Parts :=
  let whole := cs.takeWhile Char.isDigit
  let rest := cs.dropWhile Char.isDigit
  let (fraction, rest) :=
    match rest with
    | '.' :: r => (r.takeWhile Char.isDigit, r.dropWhile Char.isDigit)
    | r => ([], r)
  if whole = [] ∧ fraction = [] then none
  else
    match rest with
    | [] => some ⟨whole, fraction, 0⟩
    | c :: r =>
      if c = 'e' ∨ c = 'E' then (readExponent? r).map fun e => ⟨whole, fraction, e⟩ else none

/-- The words for values that are not numbers, in any letter case. -/
def readWord? (negative : Bool) (cs : List Char) : Option Binary :=
  match String.ofList (cs.map Char.toLower) with
  | "inf" | "infinity" => some (.infinite negative)
  | "nan" => some .nan
  | _ => none

/-- A floating-point number in text: an optional sign, then a number or one of the words. -/
def readBinary? (w : Width) (cs : List Char) : Option Binary :=
  let (negative, body) :=
    match cs with
    | '-' :: r => (true, r)
    | '+' :: r => (false, r)
    | r => (false, r)
  match readParts? body with
  | some p => some (p.round w negative)
  | none => readWord? negative body

end LayeredConfig.Decimal
