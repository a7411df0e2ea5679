import LayeredConfig.Yaml.Quoted

/-! Tags, and the directives in front of a document.

A tag is written whole between angle brackets, or as a handle and a suffix; directives say what
handles stand for. -/

namespace LayeredConfig.Yaml

/-! ## Escaped bytes -/

/-- The bytes of a letter by its first one. -/
def widthOf? (first : Nat) : Option Nat :=
  if first < 0x80 then some 1
  else if first / 0x20 = 6 then some 2
  else if first / 0x10 = 14 then some 3
  else if first / 0x08 = 30 then some 4
  else none

/-- A byte written as a percent sign and two digits. -/
def readByte (ls : List Letter) : Option (Nat × List Letter) := do
  let high ← Json.hexValue? (charAt ls 1)
  let low ← Json.hexValue? (charAt ls 2)
  if charAt ls 0 = '%' then some (16 * high + low, ls.drop 3) else none

/-- A number of further bytes of a letter. -/
def readBytes : Nat → List Letter → Option (List Nat × List Letter)
  | 0, ls => some ([], ls)
  | n + 1, ls => do
    let (b, ls) ← readByte ls
    if b / 0x40 = 2 then
      let (bs, ls) ← readBytes n ls
      return (b :: bs, ls)
    else none

/-- The letters that escaped bytes spell. -/
def readEscaped (ls : List Letter) : Option (List Char × List Letter) := do
  let (first, ls) ← readByte ls
  let width ← widthOf? first
  let (more, ls) ← readBytes (width - 1) ls
  let bytes := (first :: more).map fun b => UInt8.ofNat b
  return (((String.fromUTF8? ⟨bytes.toArray⟩).getD "").toList, ls)

/-! ## Tags -/

/-- The letters of a tag.  Inside angle brackets it may hold punctuation of brackets as well. -/
def isTagLetter (whole : Bool) (c : Char) : Bool :=
  isNameLetter c ||
    [';', '/', '?', ':', '@', '&', '=', '+', '$', '.', '!', '~', '*', '\'', '(', ')'].contains c ||
    (whole && [',', '[', ']'].contains c)

/-- The letters of a tag, with escaped bytes. -/
def readTagLetters (whole : Bool) : Nat → List Letter → Option (List Char × List Letter)
  | 0, _ => none
  | fuel + 1, ls =>
    if charAt ls 0 = '%' then do
      let (cs, ls) ← readEscaped ls
      let (ds, ls) ← readTagLetters whole fuel ls
      return (cs ++ ds, ls)
    else if isTagLetter whole (charAt ls 0) then
      (readTagLetters whole fuel ls.tail).map fun (cs, rest) => (charAt ls 0 :: cs, rest)
    else some ([], ls)

/-- The letters of a tag, at least one. -/
def readTagText (whole : Bool) (ls : List Letter) : Reading := do
  let (cs, rest) ← readTagLetters whole (ls.length + 1) ls
  if rest.length = ls.length then none else some (cs, rest)

/-- A handle, from its exclamation mark on. -/
def readHandle (ls : List Letter) : Reading :=
  if charAt ls 0 = '!' then
    let (name, rest) := span isNameLetter ls.tail
    if charAt rest 0 = '!' then some ('!' :: name ++ ['!'], rest.tail) else some ('!' :: name, rest)
  else none

/-- A tag as it is written: a handle and a suffix.  A whole tag has no handle. -/
structure WrittenTag where
  handle : String
  suffix : String
  deriving DecidableEq, Repr

/-- What a tag is, without a look at what follows. -/
def readTagBody (ls : List Letter) : Option (WrittenTag × List Letter) :=
  if charAt ls 1 = '<' then do
    let (cs, ls) ← readTagText true (ls.drop 2)
    if charAt ls 0 = '>' then some (⟨"", String.ofList cs⟩, ls.tail) else none
  else do
    let (handle, rest) ← readHandle ls
    if handle.length ≠ 1 ∧ handle.getLast? = some '!' then
      let (cs, rest) ← readTagText false rest
      return (⟨String.ofList handle, String.ofList cs⟩, rest)
    else
      let (cs, rest) ← readTagLetters false (rest.length + 1) rest
      match handle.tail ++ cs with
      | [] => return (⟨"", "!"⟩, rest)
      | suffix => return (⟨"!", String.ofList suffix⟩, rest)

/-- A tag.  A blank follows it, or a comma inside brackets. -/
def readTag (inFlow : Bool) (ls : List Letter) : Option (WrittenTag × List Letter) := do
  let (tag, rest) ← readTagBody ls
  let next := charAt rest 0
  if isSpaceOrEnd next || (inFlow && next = ',') then return (tag, rest) else none

/-! ## Directives -/

inductive Directive where
  | version (major minor : Nat)
  | handle (name expansion : String)
  deriving DecidableEq, Repr

/-- A part of a version: at most nine digits. -/
def readVersionPart (ls : List Letter) : Option (Nat × List Letter) :=
  let (digits, rest) := span Char.isDigit ls
  if digits = [] ∨ 9 < digits.length then none
  else some (digits.foldl (fun n d => 10 * n + (d.toNat - '0'.toNat)) 0, rest)

def readVersion (ls : List Letter) : Option (Directive × List Letter) := do
  let (major, ls) ← readVersionPart (skipBlanks ls)
  if charAt ls 0 = '.' then
    let (minor, ls) ← readVersionPart ls.tail
    return (.version major minor, ls)
  else none

def readHandleDirective (ls : List Letter) : Option (Directive × List Letter) := do
  let (handle, ls) ← readHandle (skipBlanks ls)
  if (handle ≠ ['!'] ∧ handle.getLast? ≠ some '!') ∨ isBlank (charAt ls 0) = false then none
  else
    let (cs, ls) ← readTagText true (skipBlanks ls)
    if isSpaceOrEnd (charAt ls 0) then
      return (.handle (String.ofList handle) (String.ofList cs), ls)
    else none

/-- A directive after its percent sign, to the end of the line. -/
def readDirective (ls : List Letter) : Option (Directive × List Letter) := do
  let (name, rest) := span isNameLetter ls
  if isSpaceOrEnd (charAt rest 0) = false then none
  else
    let (directive, rest) ←
      match String.ofList name with
      | "YAML" => readVersion rest
      | "TAG" => readHandleDirective rest
      | _ => none
    return (directive, ← afterLine? rest)

end LayeredConfig.Yaml
