import LayeredConfig.Decimal.Digits

/-! Dates and times of TOML documents, and their text in a tree.

A moment is a date, a time of day, or both with a capital `T` between them and perhaps an offset.  A
second has at most nine places, further ones are dropped, and zeros at the end of them are not
written. -/

namespace LayeredConfig.Toml

open Decimal

/-- Exactly `n` digits with a value in a range: their text, the value, and the letters after them.
-/
def readField (n low high : Nat) (cs : List Char) : Option (List Char × Nat × List Char) :=
  match readNat? (cs.take n) with
  | some value =>
    if n ≤ cs.length ∧ low ≤ value ∧ value ≤ high then some (cs.take n, value, cs.drop n) else none
  | none => none

/-- What follows a given letter. -/
def after? (c : Char) : List Char → Option (List Char)
  | d :: cs => if d = c then some cs else none
  | [] => none

def isLeapYear (year : Nat) : Bool := year % 4 = 0 && (year % 100 ≠ 0 || year % 400 = 0)

def daysIn (year month : Nat) : Nat :=
  if month = 2 then (if isLeapYear year then 29 else 28)
  else if month = 4 ∨ month = 6 ∨ month = 9 ∨ month = 11 then 30
  else 31

/-- Letters that were read, and the letters after them. -/
abbrev Portion := List Char × List Char

def readDate (cs : List Char) : Option Portion := do
  let (year, y, cs) ← readField 4 0 9999 cs
  let (month, m, cs) ← readField 2 1 12 (← after? '-' cs)
  let (day, _, cs) ← readField 2 1 (daysIn y m) (← after? '-' cs)
  return (year ++ '-' :: month ++ '-' :: day, cs)

/-- The places of a second, as they are written. -/
def places (digits : List Char) : List Char :=
  match (digits.take 9).reverse.dropWhile (· = '0') with
  | [] => []
  | back => '.' :: back.reverse

def readPlaces : List Char → Portion
  | '.' :: cs =>
    let digits := cs.takeWhile Char.isDigit
    if digits = [] then ([], '.' :: cs) else (places digits, cs.dropWhile Char.isDigit)
  | cs => ([], cs)

def readTime (cs : List Char) : Option Portion := do
  let (hour, _, cs) ← readField 2 0 23 cs
  let (minute, _, cs) ← readField 2 0 59 (← after? ':' cs)
  let (second, _, cs) ← readField 2 0 60 (← after? ':' cs)
  let (fraction, cs) := readPlaces cs
  return (hour ++ ':' :: minute ++ ':' :: second ++ fraction, cs)

/-- The difference to universal time, when one is given; a difference of nothing has a plus sign. -/
def readOffset (cs : List Char) : Option Portion :=
  match cs with
  | 'Z' :: cs | 'z' :: cs => some (['Z'], cs)
  | c :: rest =>
    if c = '+' ∨ c = '-' then do
      let (hour, h, rest) ← readField 2 0 23 rest
      let (minute, m, rest) ← readField 2 0 59 (← after? ':' rest)
      let sign := if h = 0 ∧ m = 0 then '+' else c
      return (sign :: hour ++ ':' :: minute, rest)
    else some ([], cs)
  | [] => some ([], [])

/-- A time of day after a date. -/
def readTimeOf (date : List Char) (cs : List Char) : Option Portion :=
  match cs with
  | 'T' :: rest | 't' :: rest | ' ' :: rest =>
    match readTime rest with
    | some (time, rest) =>
      (readOffset rest).map fun (offset, rest) => (date ++ 'T' :: time ++ offset, rest)
    | none => some (date, cs)
  | _ => some (date, cs)

/-- A date or a time at the front of the letters. -/
def readMoment (cs : List Char) : Option Portion :=
  match readDate cs with
  | some (date, cs) => readTimeOf date cs
  | none => readTime cs

end LayeredConfig.Toml
