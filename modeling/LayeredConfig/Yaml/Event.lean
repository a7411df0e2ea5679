import LayeredConfig.Yaml.Token

/-! Events of a YAML document: its collections and scalars in the order in which they are written.

Every collection has a start and an end, and what is left out in the document is an empty scalar.
Only a stream of one document, or of none, has events. -/

namespace LayeredConfig.Yaml

/-- What is said about a node in front of it. -/
structure Properties where
  anchor : Option String := none
  tag : Option String := none
  deriving DecidableEq, Repr

/-- The properties of a scalar: a lone exclamation mark is no tag. -/
def Properties.ofScalar (p : Properties) : Properties :=
  if p.tag = some "!" then { p with tag := none } else p

/-- An event; what an alias holds says which node it stands for. -/
inductive Event (α : Type) where
  | alias (target : α)
  | scalar (p : Properties) (plain : Bool) (text : String)
  | sequenceStart (p : Properties)
  | sequenceEnd
  | mappingStart (p : Properties)
  | mappingEnd
  deriving DecidableEq, Repr

namespace Event

/-- The scalar of what is left out. -/
def empty : Event String := .scalar {} true ""

/-- What handles stand for, the first one of a name counting. -/
abbrev Handles := List (String × String)

def defaultHandles : Handles := [("!", "!"), ("!!", "tag:yaml.org,2002:")]

/-- The full tag that a written one stands for. -/
def fullTag? (handles : Handles) (t : WrittenTag) : Option String :=
  if t.handle = "" then some t.suffix else (handles.lookup t.handle).map (· ++ t.suffix)

/-- The properties in front of a node: an anchor and a tag in either order. -/
def readProperties (handles : Handles) : List Token → Option (Properties × List Token)
  | .anchor a :: .tag t :: ts => (fullTag? handles t).map fun tag => (⟨some a, some tag⟩, ts)
  | .tag t :: .anchor a :: ts => (fullTag? handles t).map fun tag => (⟨some a, some tag⟩, ts)
  | .anchor a :: ts => some (⟨some a, none⟩, ts)
  | .tag t :: ts => (fullTag? handles t).map fun tag => (⟨none, some tag⟩, ts)
  | ts => some ({}, ts)

/-- The events of a construct, and the tokens after it. -/
abbrev Parsed := Option (List (Event String) × List Token)

def Parsed.before (p : Parsed) (q : List Token → Parsed) : Parsed := do
  let (es, ts) ← p
  let (fs, ts) ← q ts
  return (es ++ fs, ts)

def Parsed.after (front : List (Event String)) (p : Parsed) : Parsed :=
  p.map fun (es, ts) => (front ++ es, ts)

mutual

/-- A node.  `block` says that block collections may stand there, `inMapping` that a sequence need
not be indented. -/
def node (handles : Handles) : Nat → (block inMapping : Bool) → List Token → Parsed
  | 0, _, _, _ => none
  | fuel + 1, block, inMapping, ts =>
    match ts with
    | .alias a :: ts => some ([.alias a], ts)
    | ts => do
      let (p, rest) ← readProperties handles ts
      match rest with
      | .blockEntry :: _ =>
        if inMapping then Parsed.after [.sequenceStart p] (openItems handles fuel rest)
        else if p = {} then none
        else some ([.scalar p true ""], rest)
      | .scalar plain text :: rest => some ([.scalar p.ofScalar plain text], rest)
      | .flowSequenceStart :: rest =>
        Parsed.after [.sequenceStart p] (flowItems handles fuel true rest)
      | .flowMappingStart :: rest =>
        Parsed.after [.mappingStart p] (flowEntries handles fuel true rest)
      | .sequenceStart :: rest =>
        if block then Parsed.after [.sequenceStart p] (blockItems handles fuel rest)
        else if p = {} then none
        else some ([.scalar p true ""], .sequenceStart :: rest)
      | .mappingStart :: rest =>
        if block then Parsed.after [.mappingStart p] (blockEntries handles fuel rest)
        else if p = {} then none
        else some ([.scalar p true ""], .mappingStart :: rest)
      | rest => if p = {} then none else some ([.scalar p true ""], rest)

/-- The items of an indented sequence, to its end. -/
def blockItems (handles : Handles) : Nat → List Token → Parsed
  | 0, _ => none
  | fuel + 1, ts =>
    match ts with
    | .blockEntry :: ts =>
      match ts with
      | .blockEntry :: _ => Parsed.after [.empty] (blockItems handles fuel ts)
      | .blockEnd :: _ => Parsed.after [.empty] (blockItems handles fuel ts)
      | _ => (node handles fuel true false ts).before (blockItems handles fuel)
    | .blockEnd :: ts => some ([.sequenceEnd], ts)
    | _ => none

/-- The items of a sequence that is not indented, as far as they go. -/
def openItems (handles : Handles) : Nat → List Token → Parsed
  | 0, _ => none
  | fuel + 1, ts =>
    match ts with
    | .blockEntry :: ts =>
      match ts with
      | .blockEntry :: _ => Parsed.after [.empty] (openItems handles fuel ts)
      | .key :: _ => Parsed.after [.empty] (openItems handles fuel ts)
      | .value :: _ => Parsed.after [.empty] (openItems handles fuel ts)
      | .blockEnd :: _ => Parsed.after [.empty] (openItems handles fuel ts)
      | _ => (node handles fuel true false ts).before (openItems handles fuel)
    | ts => some ([.sequenceEnd], ts)

/-- A node of a block mapping, or nothing in front of the next mark. -/
def blockPart (handles : Handles) : Nat → List Token → Parsed
  | 0, _ => none
  | fuel + 1, ts =>
    match ts with
    | .key :: _ => some ([.empty], ts)
    | .value :: _ => some ([.empty], ts)
    | .blockEnd :: _ => some ([.empty], ts)
    | _ => node handles fuel true true ts

/-- The keys and values of a block mapping, to its end. -/
def blockEntries (handles : Handles) : Nat → List Token → Parsed
  | 0, _ => none
  | fuel + 1, ts =>
    match ts with
    | .key :: ts =>
      (blockPart handles fuel ts).before fun ts =>
        match ts with
        | .value :: ts => (blockPart handles fuel ts).before (blockEntries handles fuel)
        | ts => Parsed.after [.empty] (blockEntries handles fuel ts)
    | .blockEnd :: ts => some ([.mappingEnd], ts)
    | _ => none

/-- The items of a sequence in brackets, to its end.  An item may be a mapping of one key. -/
def flowItems (handles : Handles) : Nat → (first : Bool) → List Token → Parsed
  | 0, _, _ => none
  | fuel + 1, first, ts =>
    match ts with
    | .flowSequenceEnd :: ts => some ([.sequenceEnd], ts)
    | ts =>
      let entry? := if first then some ts else
        match ts with
        | .flowEntry :: ts => some ts
        | _ => none
      match entry? with
      | none => none
      | some (.key :: ts) =>
        (Parsed.after [.mappingStart {}] (flowPair handles fuel ts)).before
          (flowItems handles fuel false)
      | some (.flowSequenceEnd :: ts) => some ([.sequenceEnd], ts)
      | some ts => (node handles fuel false false ts).before (flowItems handles fuel false)

/-- A mapping of one key inside a sequence in brackets. -/
def flowPair (handles : Handles) : Nat → List Token → Parsed
  | 0, _ => none
  | fuel + 1, ts =>
    let key : Parsed :=
      match ts with
      | .value :: ts => some ([.empty], ts)
      | .flowEntry :: ts => some ([.empty], ts)
      | .flowSequenceEnd :: ts => some ([.empty], ts)
      | ts => node handles fuel false false ts
    key.before fun ts =>
      match ts with
      | .value :: ts =>
        match ts with
        | .flowEntry :: _ => some ([.empty, .mappingEnd], ts)
        | .flowSequenceEnd :: _ => some ([.empty, .mappingEnd], ts)
        | _ => (node handles fuel false false ts).before fun ts => some ([.mappingEnd], ts)
      | ts => some ([.empty, .mappingEnd], ts)

/-- The keys and values of a mapping in braces, to its end. -/
def flowEntries (handles : Handles) : Nat → (first : Bool) → List Token → Parsed
  | 0, _, _ => none
  | fuel + 1, first, ts =>
    match ts with
    | .flowMappingEnd :: ts => some ([.mappingEnd], ts)
    | ts =>
      let entry? := if first then some ts else
        match ts with
        | .flowEntry :: ts => some ts
        | _ => none
      match entry? with
      | none => none
      | some (.key :: ts) =>
        (flowKey handles fuel ts).before fun ts =>
          (flowValue handles fuel ts).before (flowEntries handles fuel false)
      | some (.flowMappingEnd :: ts) => some ([.mappingEnd], ts)
      | some ts =>
        (node handles fuel false false ts).before fun ts =>
          Parsed.after [.empty] (flowEntries handles fuel false ts)

/-- A key of a mapping in braces. -/
def flowKey (handles : Handles) : Nat → List Token → Parsed
  | 0, _ => none
  | fuel + 1, ts =>
    match ts with
    | .value :: _ => some ([.empty], ts)
    | .flowEntry :: _ => some ([.empty], ts)
    | .flowMappingEnd :: _ => some ([.empty], ts)
    | _ => node handles fuel false false ts

/-- The value after a key of a mapping in braces. -/
def flowValue (handles : Handles) : Nat → List Token → Parsed
  | 0, _ => none
  | fuel + 1, ts =>
    match ts with
    | .value :: ts =>
      match ts with
      | .flowEntry :: _ => some ([.empty], ts)
      | .flowMappingEnd :: _ => some ([.empty], ts)
      | _ => node handles fuel false false ts
    | _ => some ([.empty], ts)

end

/-! ## Documents -/

/-- The handles that the directives in front of a document define, and the tokens after them.  There
is at most one version, one of two, and no handle twice. -/
def readDirectives (versioned : Bool) (handles : Handles) :
    List Token → Option (Handles × List Token)
  | .directive (.version major minor) :: ts =>
    if versioned || major ≠ 1 || (minor ≠ 1 && minor ≠ 2) then none
    else readDirectives true handles ts
  | .directive (.handle name expansion) :: ts =>
    if (handles.lookup name).isSome then none
    else readDirectives versioned (handles ++ [(name, expansion)]) ts
  | ts => some (handles, ts)

/-- The events of a document that starts with a mark. -/
def explicit (fuel : Nat) (ts : List Token) : Parsed := do
  let (handles, ts) ← readDirectives false [] ts
  match ts with
  | .documentStart :: ts =>
    match ts with
    | [] => some ([.empty], ts)
    | .directive _ :: _ => some ([.empty], ts)
    | .documentStart :: _ => some ([.empty], ts)
    | .documentEnd :: _ => some ([.empty], ts)
    | _ => node (handles ++ defaultHandles) fuel true false ts
  | _ => none

/-- The events of a stream. -/
def ofTokens? (ts : List Token) : Option (List (Event String)) :=
  let fuel := 4 * ts.length + 4
  let parsed : Parsed :=
    match ts with
    | [] => some ([], [])
    | .directive _ :: _ => explicit fuel ts
    | .documentStart :: _ => explicit fuel ts
    | ts => node defaultHandles fuel true false ts
  match parsed with
  | some (es, rest) => if rest.all (· = .documentEnd) then some es else none
  | none => none

end Event

end LayeredConfig.Yaml
