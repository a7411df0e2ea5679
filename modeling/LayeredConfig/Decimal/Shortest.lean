import LayeredConfig.Decimal.Binary

/-! The shortest decimal text of a floating-point number.

`shortest` gives the fewest digits that read back as the number, and of those the ones nearest to
it.  Around the number lies the interval of quantities that round to it, its ends included exactly
when the significand is even; for 1, 2, … 17 digits the two neighbours of the number on that
decimal grid are tested, and the first grid with a hit wins.

A `Layout` says how digits and exponent are written: each document format has its own. -/

namespace LayeredConfig.Decimal

/-- Digits and the decimal exponent of the last of them: `digits · 10 ^ exponent`. -/
structure Significant where
  digits : Nat
  exponent : Int
  deriving DecidableEq, Repr

/-- A positive number as a ratio with half the gaps to its neighbours, all over one denominator. -/
structure Interval where
  value : Nat
  below : Nat
  above : Nat
  den : Nat
  closed : Bool

/-- The interval of quantities that round to `m · 2 ^ q`.  Below a power of two the gap is half
as wide. -/
def Interval.around (w : Width) (m : Nat) (q : Int) : Interval :=
  let narrow := m = Nat.pow 2 (w.precision - 1) ∧ w.minExponent < q
  let below := if narrow then 1 else 2
  if 0 ≤ q then
    let unit := Nat.pow 2 q.toNat
    ⟨4 * m * unit, below * unit, 2 * unit, 4, m % 2 = 0⟩
  else ⟨4 * m, below, 2, 4 * Nat.pow 2 (-q).toNat, m % 2 = 0⟩

/-- Whether the quantity `n / d` rounds to the number. -/
def Interval.contains (i : Interval) (n d : Nat) : Bool :=
  let x := n * i.den
  let lo := (i.value - i.below) * d
  let hi := (i.value + i.above) * d
  if i.closed then lo ≤ x && x ≤ hi else lo < x && x < hi

/-- `k · 10 ^ e` as a ratio. -/
def gridPoint (k : Nat) (e : Int) : Nat × Nat :=
  if 0 ≤ e then (k * Nat.pow 10 e.toNat, 1) else (k, Nat.pow 10 (-e).toNat)

/-- The nearer of the two neighbours on the grid of step `10 ^ e` that round to the number; of two
equally near the one with an even last digit. -/
def Interval.hit? (i : Interval) (e : Int) : Option Nat :=
  let (n, d) :=
    if 0 ≤ e then (i.value, i.den * Nat.pow 10 e.toNat)
    else (i.value * Nat.pow 10 (-e).toNat, i.den)
  let low := n / d
  let r := n % d
  let inside (k : Nat) : Bool :=
    let (a, b) := gridPoint k e
    0 < k && i.contains a b
  if r = 0 then if inside low then some low else none
  else
    match inside low, inside (low + 1) with
    | true, true =>
      if 2 * r < d then some low
      else if d < 2 * r then some (low + 1)
      else some (low + low % 2)
    | true, false => some low
    | false, true => some (low + 1)
    | false, false => none

/-- The exponent of the first digit: the greatest `e` with `10 ^ e ≤ n / d`. -/
def leadingExponent (n d : Nat) : Int :=
  let digits : Nat → Int := fun k => ((Nat.toDigits 10 k).length : Int)
  let e := digits n - digits d
  let (a, b) := gridPoint 1 e
  if a * d ≤ n * b then e else e - 1

/-- Digits without zeros at the end. -/
def Significant.normalize (s : Significant) : Significant :=
  go 400 s
where
  go : Nat → Significant → Significant
    | 0, s => s
    | fuel + 1, s =>
      if s.digits ≠ 0 ∧ s.digits % 10 = 0 then go fuel ⟨s.digits / 10, s.exponent + 1⟩ else s

/-- The shortest digits that read back as `m · 2 ^ q`, for `m > 0`. -/
def shortest (w : Width) (m : Nat) (q : Int) : Significant :=
  let i := Interval.around w m q
  let lead := leadingExponent i.value i.den
  let found := (List.range 17).findSome? fun (k : Nat) =>
    (i.hit? (lead - k)).map fun digits => (⟨digits, lead - k⟩ : Significant)
  (found.getD ⟨i.value / i.den, 0⟩).normalize

/-! ## Layouts -/

/-- How a format writes a floating-point number. -/
structure Layout where
  /-- Whether a number whose first digit has this exponent is written without one. -/
  positional : Int → Bool
  /-- What stands after a whole number written positionally. -/
  wholeMark : String
  /-- The sign of a positive exponent. -/
  plus : String
  nan : String
  infinite : String

/-- A row of `n` zeros. -/
def zeros (n : Nat) : String := String.ofList (List.replicate n '0')

/-- The digits of a positive number in a layout. -/
def Layout.digits (l : Layout) (s : Significant) : String :=
  let ds := toString s.digits
  let count : Int := ds.toList.length
  let lead := s.exponent + count - 1
  if l.positional lead then
    if 0 ≤ s.exponent then ds ++ zeros s.exponent.toNat ++ l.wholeMark
    else if 0 ≤ lead then
      String.ofList (ds.toList.take (lead.toNat + 1)) ++ "." ++
        String.ofList (ds.toList.drop (lead.toNat + 1))
    else "0." ++ zeros (-lead - 1).toNat ++ ds
  else
    let head := String.ofList (ds.toList.take 1)
    let tail := String.ofList (ds.toList.drop 1)
    let mantissa := if tail = "" then head else head ++ "." ++ tail
    let sign := if 0 ≤ lead then l.plus else ""
    mantissa ++ "e" ++ sign ++ toString lead

/-- The text of a number of a width. -/
def Layout.write (l : Layout) (w : Width) : Binary → String
  | .nan => l.nan
  | .infinite s => (if s then "-" else "") ++ l.infinite
  | .finite s m q =>
    let body := if m = 0 then "0" ++ l.wholeMark else l.digits (shortest w m q)
    (if s then "-" else "") ++ body

end LayeredConfig.Decimal
