import LayeredConfig.Json.Number
import LayeredConfig.Json.Reader

/-! Values of YAML documents, and what plain scalars stand for.

A plain scalar is nothing, a truth value, a number or a text.  A row of digits after a zero is a
text.  Numbers are integers or doubles; an integer that fits 128 bits but not 64 is refused.

`Value.same` is the equality of keys: the order of a mapping does not count, a zero equals the
negative zero, and what is no number equals itself. -/

namespace LayeredConfig.Yaml

open Decimal

inductive Number where
  | whole (n : Int)
  | real (x : Binary)
  deriving DecidableEq, Repr

namespace Number

/-- Doubles are positional from `10 ^ -5` up to below `10 ^ 16`, and an exponent has no plus sign.
-/
def layout : Layout := { Json.numberLayout with plus := "", nan := ".nan", infinite := ".inf" }

def text : Number → String
  | whole n => toString n
  | real x => layout.write .double x

def same : Number → Number → Bool
  | whole m, whole n => m = n
  | real x, real y => x = y || (x.isZero && y.isZero)
  | _, _ => false

end Number

inductive Value where
  | null
  | bool (b : Bool)
  | number (n : Number)
  | text (s : String)
  | sequence (items : List Value)
  | mapping (entries : List (Value × Value))
  | tagged (tag : String) (v : Value)
  deriving Repr

/-! ## Plain scalars -/

def isNullWord (s : String) : Bool := ["null", "Null", "NULL", "~"].contains s

def truth? (s : String) : Option Bool :=
  if ["true", "True", "TRUE"].contains s then some true
  else if ["false", "False", "FALSE"].contains s then some false
  else none

/-- Digits after a zero, with an optional sign. -/
def isPadded (cs : List Char) : Bool :=
  let digits := match cs with
    | '-' :: r | '+' :: r => r
    | r => r
  1 < digits.length && digits.head? = some '0' && digits.all Char.isDigit

/-- The number that digits denote in a base. -/
def readBase? (base : Nat) (cs : List Char) : Option Nat :=
  let value (c : Char) : Nat := (Json.hexValue? c).getD base
  if cs ≠ [] ∧ cs.all (fun c => value c < base) then some (valueIn base value cs) else none

/-- The natural number that letters denote, in base ten or in the base of a mark. -/
def readNatural? (cs : List Char) : Option Nat :=
  match cs with
  | '0' :: 'x' :: r => readBase? 16 r
  | '0' :: 'o' :: r => readBase? 8 r
  | '0' :: 'b' :: r => readBase? 2 r
  | cs => if isPadded cs then none else readNat? cs

/-- The integer that letters denote, whatever its size. -/
def readInteger? (cs : List Char) : Option Int :=
  match cs with
  | '+' :: r => (readNatural? r).map Int.ofNat
  | '-' :: r => (readNatural? r).map fun n => -Int.ofNat n
  | r => (readNatural? r).map Int.ofNat

/-- The double that letters denote. -/
def readReal? (cs : List Char) : Option Binary :=
  let (plus, body) := match cs with
    | '+' :: r => (true, r)
    | r => (false, r)
  let signed := body.head? = some '+' ∨ body.head? = some '-'
  if plus ∧ signed then none
  else
    match String.ofList body with
    | ".inf" | ".Inf" | ".INF" => some (.infinite false)
    | "-.inf" | "-.Inf" | "-.INF" => some (.infinite true)
    | ".nan" | ".NaN" | ".NAN" => if plus then none else some .nan
    | _ => (readBinary? .double body).filter Binary.isFinite

/-- Whether an integer fits a number of bits, with or without a sign. -/
def fits (bits : Nat) (n : Int) : Bool :=
  (⟨true, bits⟩ : IntKind).InRange n ∨ (⟨false, bits⟩ : IntKind).InRange n

/-- An integer as a value, where it fits 64 bits. -/
def integer? (n : Int) : Option Value := if fits 64 n then some (.number (.whole n)) else none

/-- What letters that are no integer stand for. -/
def realOrText (s : String) : Value :=
  let real? := if isPadded s.toList then none else readReal? s.toList
  match real? with
  | some x => .number (.real x)
  | none => .text s

/-- What a plain scalar stands for. -/
def ofPlain? (s : String) : Option Value :=
  if s = "" || isNullWord s then some .null
  else
    match truth? s, readInteger? s.toList with
    | some b, _ => some (.bool b)
    | none, some n => if fits 128 n then integer? n else some (realOrText s)
    | none, none => some (realOrText s)

/-- What a scalar stands for that is said to be of a basic type; of another type it is text. -/
def ofTag? (tag s : String) : Option Value :=
  match tag with
  | "tag:yaml.org,2002:bool" => (truth? s).map .bool
  | "tag:yaml.org,2002:int" => (readInteger? s.toList).bind integer?
  | "tag:yaml.org,2002:float" => (readReal? s.toList).map fun x => .number (.real x)
  | "tag:yaml.org,2002:null" => if isNullWord s then some .null else none
  | _ => some (.text s)

/-! ## Equality of keys -/

/-- A tag without the exclamation mark in front. -/
def bareTag (tag : String) : String :=
  match tag.toList with
  | '!' :: c :: cs => String.ofList (c :: cs)
  | _ => tag

namespace Value

mutual

def same : Value → Value → Bool
  | null, null => true
  | bool a, bool b => a = b
  | number m, number n => m.same n
  | text s, text t => s = t
  | sequence us, sequence vs => sameItems us vs
  | mapping es, mapping fs => es.length = fs.length && sameEntries es fs
  | tagged t u, tagged s v => bareTag t = bareTag s && same u v
  | _, _ => false

def sameItems : List Value → List Value → Bool
  | [], [] => true
  | u :: us, v :: vs => same u v && sameItems us vs
  | _, _ => false

/-- Whether every entry of one mapping is in the other. -/
def sameEntries : List (Value × Value) → List (Value × Value) → Bool
  | [], _ => true
  | (k, v) :: es, fs => fs.any (fun f => same k f.1 && same v f.2) && sameEntries es fs

end

end Value

end LayeredConfig.Yaml
