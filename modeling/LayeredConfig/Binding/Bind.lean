import LayeredConfig.Binding.Text

/-! Binding a tree to a shape.

A value is text and is bound as text, but for an option, which looks at the text itself and hands
the tree on.  An array is bound item by item where a sequence is due, a map entry by entry where a
map or a record is due.  A variant of an enumeration is written as its name, or as a map of its name
and its content.  As a JSON value a tree stays what it is: text is a string, whatever it says, and
arrays and maps are taken part by part.

Main facts: `bind_list_value`, `bind_list_array` (the items of an array are bound as trees, the
parts of a comma list as texts), `bind_int_value`. -/

namespace LayeredConfig

namespace Binding

/-- A shape that only a value can have. -/
def bindValue (expected : String) (s : Shape) : Tree → Except BindError Bound
  | .value text => bindText s text
  | t => .error (.mismatch expected t.kind)

/-- A tree where a sequence is due: a text to be split, or the items of an array. -/
def sequence (t : Tree) (ofText : String → Except BindError Bound)
    (ofItems : List Tree → Except BindError Bound) : Except BindError Bound :=
  match t with
  | .value text => ofText text
  | .array ts => ofItems ts
  | .map _ => .error (.mismatch "a sequence" .map)

/-- A tree where a map is due: a text, which must be empty, or the entries of a map. -/
def mapping (t : Tree) (ofText : String → Except BindError Bound)
    (ofEntries : List (String × Tree) → Except BindError Bound) : Except BindError Bound :=
  match t with
  | .value text => ofText text
  | .map es => ofEntries es
  | .array _ => .error (.mismatch "a map" .array)

/-- The name of the field that a key stands for. -/
def leadingName? (key : String) : List (FieldInfo × Shape) → Option String
  | [] => none
  | (info, _) :: fields =>
    if key = info.name ∨ key ∈ info.aliases then some info.name else leadingName? key fields

mutual

def bind : Shape → Tree → Except BindError Bound
  | .bool, t => bindValue "a boolean" .bool t
  | .int k, t => bindValue "an integer" (.int k) t
  | .unsupported name, _ => .error (.unsupported name)
  | .float w, t => bindValue "a number" (.float w) t
  | .char, t => bindValue "a character" .char t
  | .text, t => bindValue "a string" .text t
  | .bytes, t => bindValue "bytes" .bytes t
  | .unit, _ => .ok .unit
  | .json, t => .ok (.json (.ofTree t))
  | .option s, t => if t.text? = some "" then .ok .none else (bind s t).map Bound.some
  | .list s, t => sequence t (bindText (.list s)) fun ts =>
    (ts.mapM fun u => bind s u).map Bound.list
  | .set s, t => sequence t (bindText (.set s)) fun ts =>
    (ts.mapM fun u => bind s u).map setOf
  | .array n s, t => sequence t (bindText (.array n s)) fun ts => do
    let bs ← (ts.take n).mapM fun u => bind s u
    arrayOf n bs
  | .tuple expected ss, t => sequence t (bindText (.tuple expected ss)) fun ts =>
    (bindTuple expected 0 ss ts).map Bound.list
  | .map k v, t => mapping t (bindText (.map k v)) fun es => do
    let bs ← es.mapM fun e => do
      let key ← bindText k e.1
      let value ← bind v e.2
      return (key, value)
    return .map (bs.foldl (fun acc e => Bound.insertSorted e.1 e.2 acc) [])
  | .ordered k v, t => mapping t (bindText (.ordered k v)) fun es => do
    let bs ← es.mapM fun e => do
      let key ← bindText k e.1
      let value ← bind v e.2
      return (key, value)
    return .map (bs.foldl (fun acc e => Bound.insertLast e.1 e.2 acc) [])
  | .record strict fields, t => mapping t (bindText (.record strict fields)) fun es => do
    let bound ← es.foldlM (fun acc e =>
      match leadingName? e.1 fields with
      | some name =>
        if (Assoc.get? name acc).isSome then .error (.duplicateField name)
        else do
          let b ← bindField e.1 fields e.2
          return acc ++ [(name, b)]
      | none =>
        if strict then .error (.unknownField e.1 (fields.map fun f => f.1.name))
        else .ok acc) []
    return .record (← complete bound fields)
  | .enumeration variants, t =>
    match t with
    | .value text => bindText (.enumeration variants) text
    | .map [(name, content)] => bindVariant name content (variants.map Prod.fst) 0 variants
    | t => .error (.mismatch "an enum variant" t.kind)

/-- The values of a tuple from the `i`-th on. -/
def bindTuple (expected : String) (i : Nat) : List Shape → List Tree → Except BindError (List Bound)
  | [], _ => .ok []
  | _ :: _, [] => .error (.tooShort i expected)
  | s :: ss, t :: ts => do
    let b ← bind s t
    let bs ← bindTuple expected (i + 1) ss ts
    return b :: bs

/-- The field that a key stands for, bound. -/
def bindField (key : String) : List (FieldInfo × Shape) → Tree → Except BindError Bound
  | [], _ => .error (.unknownField key [])
  | (info, s) :: fields, t =>
    if key = info.name ∨ key ∈ info.aliases then bind s t else bindField key fields t

/-- The variant of a name, with its content; one that carries nothing does not look at it. -/
def bindVariant (name : String) (content : Tree) (known : List String) (i : Nat) :
    List (String × Carries × Shape) → Except BindError Bound
  | [] => .error (.unknownVariant name known)
  | (n, carries, s) :: variants =>
    if n = name then
      match carries with
      | .nothing => .ok (.variant i n .unit)
      | _ => (bind s content).map fun b => .variant i n b
    else bindVariant name content known (i + 1) variants

end

/-! ## Lemmas -/

theorem bind_list_array (s : Shape) (ts : List Tree) :
    bind (.list s) (.array ts) = (ts.mapM fun t => bind s t).map Bound.list := by
  rw [bind]
  rfl

theorem bind_list_value (s : Shape) (text : String) :
    bind (.list s) (.value text) =
      ((commaParts text).mapM fun part => bindText s part).map Bound.list := by
  rw [bind, sequence, bindText]

theorem bind_int_value (k : Decimal.IntKind) (text : String) :
    bind (.int k) (.value text) =
      match k.read? (Text.trim text.toList) with
      | some n => .ok (.int n)
      | none => .error (.unparsable text k.name) := by
  rw [bind]
  exact bindText_int k text

end Binding

end LayeredConfig
