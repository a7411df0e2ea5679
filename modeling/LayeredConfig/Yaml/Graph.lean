import LayeredConfig.Assoc
import LayeredConfig.Yaml.Event
import LayeredConfig.Yaml.Value

/-! The nodes of a YAML document, with the nodes that aliases stand for.

An anchor is numbered by the names that are known before it, so a name that is given again takes the
number of the next new name.  Collections nest at most 128 deep, through aliases too, and the
aliases followed are at most a hundred times as many as the events. -/

namespace LayeredConfig.Yaml

def Event.anchor? {α : Type} : Event α → Option String
  | .scalar p _ _ => p.anchor
  | .sequenceStart p => p.anchor
  | .mappingStart p => p.anchor
  | _ => none

/-- An event with another target in place of a name. -/
def Event.withTarget {α β : Type} (b : β) : Event α → Event β
  | .alias _ => .alias b
  | .scalar p plain s => .scalar p plain s
  | .sequenceStart p => .sequenceStart p
  | .sequenceEnd => .sequenceEnd
  | .mappingStart p => .mappingStart p
  | .mappingEnd => .mappingEnd

/-- The events of a document, with the positions of the numbered nodes. -/
structure Graph where
  events : List (Event Nat)
  positions : List (Nat × Nat)

namespace Graph

/-- The graph of events from a position on; an alias of a name that is not known yet has none. -/
def link (names : List (String × Nat)) (numbered : List (Nat × Nat)) (position : Nat) :
    List (Event String) → Option Graph
  | [] => some ⟨[], numbered⟩
  | .alias name :: es => do
    let id ← Assoc.get? name names
    let g ← link names numbered (position + 1) es
    return { g with events := .alias id :: g.events }
  | e :: es => do
    let g ←
      match e.anchor? with
      | some name =>
        let id := names.length
        link (Assoc.insert name id names) (Assoc.insert id position numbered)
          (position + 1) es
      | none => link names numbered (position + 1) es
    return { g with events := e.withTarget 0 :: g.events }

def ofEvents? (es : List (Event String)) : Option Graph := link [] [] 0 es

/-! ## Values -/

/-- The name of a tag that marks its node: one that starts with an exclamation mark. -/
def marking? (tag : Option String) : Option String :=
  match tag.map String.toList with
  | some ['!'] => some "!"
  | some ('!' :: cs) => some (String.ofList cs)
  | _ => none

/-- A value under the tag of its node. -/
def mark (tag : Option String) (v : Value) : Value :=
  match marking? tag with
  | some t => .tagged t v
  | none => v

/-- What a scalar stands for; `ignored` says that its tag does not count. -/
def scalar (ignored : Bool) (p : Properties) (plain : Bool) (s : String) : Option Value :=
  let untagged : Option Value := if plain then ofPlain? s else some (.text s)
  match p.tag with
  | none => untagged
  | some tag =>
    if ignored then untagged
    else if (marking? p.tag).isSome then untagged.map (mark p.tag)
    else ofTag? tag s

/-- A value, the number of aliases followed so far, and the events after it. -/
abbrev Reading := Option (Value × Nat × List (Event Nat))

/-- A reader of one value; the flag says that the tag of the node does not count. -/
abbrev Reader := Bool → Nat → List (Event Nat) → Reading

/-- The items of a sequence. -/
def readItems (node : Reader) :
    Nat → Nat → List (Event Nat) → Option (List Value × Nat × List (Event Nat))
  | 0, _, _ => none
  | _, jumps, .sequenceEnd :: es => some ([], jumps, es)
  | fuel + 1, jumps, es => do
    let (v, jumps, es) ← node false jumps es
    let (vs, jumps, es) ← readItems node fuel jumps es
    return (v :: vs, jumps, es)

/-- The entries of a mapping; no key comes twice. -/
def readEntries (node : Reader) (ignored : Bool) :
    Nat → Nat → List Value → List (Event Nat) →
      Option (List (Value × Value) × Nat × List (Event Nat))
  | 0, _, _, _ => none
  | _, jumps, _, .mappingEnd :: es => some ([], jumps, es)
  | fuel + 1, jumps, keys, es => do
    let (k, jumps, es) ← node ignored jumps es
    if keys.any k.same then none
    else
      let (v, jumps, es) ← node false jumps es
      let (rest, jumps, es) ← readEntries node ignored fuel jumps (k :: keys) es
      return ((k, v) :: rest, jumps, es)

/-- The events of the node at the front, which an alias stands for, and the events after the alias.
-/
def follow (g : Graph) (jumps : Nat) (es : List (Event Nat)) :
    Option (Nat × List (Event Nat) × Option (List (Event Nat))) :=
  match es with
  | .alias id :: rest =>
    if 100 * g.events.length < jumps + 1 then none
    else (Assoc.get? id g.positions).map fun i => (jumps + 1, g.events.drop i, some rest)
  | es => some (jumps, es, none)

/-- A value inside at most `depth` further collections.  A tag that marks a mapping makes the tags
of its keys not count. -/
def read (g : Graph) : Nat → Reader
  | depth, ignored, jumps, es => do
    let (jumps, es, after) ← g.follow jumps es
    let ignored := ignored && after.isNone
    let (v, jumps, rest) ←
      match es with
      | .scalar p plain s :: rest => (scalar ignored p plain s).map fun v => (v, jumps, rest)
      | .sequenceStart p :: rest =>
        match depth with
        | 0 => none
        | depth + 1 => do
          let (vs, jumps, rest) ←
            readItems (fun i n es => g.read depth i n es) (rest.length + 1) jumps rest
          pure (if ignored then .sequence vs else mark p.tag (.sequence vs), jumps, rest)
      | .mappingStart p :: rest =>
        match depth with
        | 0 => none
        | depth + 1 => do
          let inner := ignored || (marking? p.tag).isSome
          let (entries, jumps, rest) ←
            readEntries (fun i n es => g.read depth i n es) inner (rest.length + 1) jumps [] rest
          pure (if ignored then .mapping entries else mark p.tag (.mapping entries), jumps, rest)
      | _ => none
    return (v, jumps, after.getD rest)

def maxDepth : Nat := 128

/-- The value of a document; a document without events has none. -/
def value? (g : Graph) : Option Value :=
  if g.events = [] then some .null else (g.read maxDepth false 0 g.events).map Prod.fst

end Graph

end LayeredConfig.Yaml
