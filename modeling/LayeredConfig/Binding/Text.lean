import LayeredConfig.Binding.Error
import LayeredConfig.Binding.Shape
import LayeredConfig.Text.Blank

/-! Binding a text to a shape.

Texts are the elements of a comma list, the keys of a map, and what a value of a tree hands on.  A
shape asks of a text what it needs: `true`, `yes`, `on` and `1` are the same truth, the empty text
is an absent option and an empty map, and where a sequence is due the text is split at its commas.
A bare text names a variant that carries nothing. -/

namespace LayeredConfig

namespace Binding

/-- A truth value in text. -/
def readBool? (text : String) : Option Bool :=
  let word := String.ofList ((Text.trim text.toList).map Char.toLower)
  if word ∈ ["true", "1", "yes", "on"] then some true
  else if word ∈ ["false", "0", "no", "off"] then some false
  else none

def readInt? (k : Decimal.IntKind) (text : String) : Option Bound :=
  (k.read? (Text.trim text.toList)).map Bound.int

def readFloat? (w : Decimal.Width) (text : String) : Option Bound :=
  (Decimal.readBinary? w (Text.trim text.toList)).map (Bound.float w)

def readChar? (text : String) : Option Bound :=
  match text.toList with
  | [c] => some (.char c)
  | _ => none

/-- What was read of a text, or the complaint that it is no written form of the type. -/
def readAs (type text : String) : Option Bound → Except BindError Bound
  | some b => .ok b
  | none => .error (.unparsable text type)

/-- The texts between the commas of a text; a blank text has none. -/
def commaParts (text : String) : List String :=
  if Text.trim text.toList = [] then []
  else (text.toList.splitOn ',').map fun part => String.ofList (Text.trim part)

/-- The values of a set, ascending. -/
def setOf (bs : List Bound) : Bound := .list (bs.foldl (fun acc b => b.placeIn acc) [])

/-- The values of an array of fixed length, unless there are too few. -/
def arrayOf (n : Nat) (bs : List Bound) : Except BindError Bound :=
  if bs.length < n then .error (.tooShort bs.length ("an array of length " ++ toString n))
  else .ok (.list bs)

/-- What is bound so far of a record: fields by their leading name. -/
abbrev Fields := List (String × Bound)

/-- The bound fields in the declared order, with the fallbacks of those that are missing. -/
def complete (bound : Fields) : List (FieldInfo × Shape) → Except BindError Fields
  | [] => .ok []
  | (info, _) :: fields =>
    match (Assoc.get? info.name bound).or info.fallback with
    | none => .error (.missingField info.name)
    | some b => (complete bound fields).map ((info.name, b) :: ·)

/-- What a variant expects when its bare name does not do. -/
def expectedOf : Carries → String
  | .nothing => "unit variant"
  | .one => "newtype variant"
  | .several => "tuple variant"
  | .fields => "struct variant"

/-- The variant that a bare name stands for. -/
def bareVariant (name : String) (known : List String) (i : Nat) :
    List (String × Carries × Shape) → Except BindError Bound
  | [] => .error (.unknownVariant name known)
  | (n, carries, _) :: variants =>
    if n = name then
      match carries with
      | .nothing => .ok (.variant i n .unit)
      | c => .error (.bareVariant (expectedOf c))
    else bareVariant name known (i + 1) variants

mutual

def bindText : Shape → String → Except BindError Bound
  | .bool, text => readAs "bool" text ((readBool? text).map Bound.bool)
  | .int k, text => readAs k.name text (readInt? k text)
  | .unsupported name, _ => .error (.unsupported name)
  | .float w, text => readAs ("f" ++ toString w.bits) text (readFloat? w text)
  | .char, text => readAs "char" text (readChar? text)
  | .text, text => .ok (.text text)
  | .bytes, text => .ok (.bytes text.toUTF8.toList)
  | .unit, _ => .ok .unit
  | .json, text => .ok (.json (.string text))
  | .option s, text => if text = "" then .ok .none else (bindText s text).map Bound.some
  | .list s, text => ((commaParts text).mapM fun part => bindText s part).map Bound.list
  | .set s, text => ((commaParts text).mapM fun part => bindText s part).map setOf
  | .array n s, text => do
    let bs ← ((commaParts text).take n).mapM fun part => bindText s part
    arrayOf n bs
  | .tuple expected ss, text => (bindTexts expected 0 ss (commaParts text)).map Bound.list
  | .map _ _, text => if text = "" then .ok (.map []) else .error (.unparsable text "map")
  | .ordered _ _, text => if text = "" then .ok (.map []) else .error (.unparsable text "map")
  | .record _ fields, text =>
    if text = "" then (complete [] fields).map Bound.record else .error (.unparsable text "map")
  | .enumeration variants, text =>
    bareVariant (Text.trimmed text) (variants.map Prod.fst) 0 variants

/-- The values of a tuple from the `i`-th on. -/
def bindTexts (expected : String) (i : Nat) :
    List Shape → List String → Except BindError (List Bound)
  | [], _ => .ok []
  | _ :: _, [] => .error (.tooShort i expected)
  | s :: ss, text :: texts => do
    let b ← bindText s text
    let bs ← bindTexts expected (i + 1) ss texts
    return b :: bs

end

/-! ## Lemmas -/

theorem bindText_int (k : Decimal.IntKind) (text : String) :
    bindText (.int k) text =
      match k.read? (Text.trim text.toList) with
      | some n => .ok (.int n)
      | none => .error (.unparsable text k.name) := by
  rw [bindText, readInt?]
  cases k.read? (Text.trim text.toList) <;> rfl

end Binding

end LayeredConfig
