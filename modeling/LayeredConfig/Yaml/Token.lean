import LayeredConfig.Yaml.Literal
import LayeredConfig.Yaml.Plain
import LayeredConfig.Yaml.Tag

/-! Tokens of a YAML document.

Tokens make the layout explicit: a block collection starts where the indentation grows and ends
where it shrinks.  A key without a question mark is recognised only at the colon after it, so every
place where such a key may start is remembered, one for each level of brackets, and the tokens that
introduce it are put in there later.  Such a key stands on one line and has at most 1024 letters.
-/

namespace LayeredConfig.Yaml

inductive Token where
  | directive (d : Directive)
  | documentStart
  | documentEnd
  | sequenceStart
  | mappingStart
  | blockEnd
  | flowSequenceStart
  | flowSequenceEnd
  | flowMappingStart
  | flowMappingEnd
  | blockEntry
  | flowEntry
  | key
  | value
  | alias (name : String)
  | anchor (name : String)
  | tag (t : WrittenTag)
  | scalar (plain : Bool) (text : String)
  deriving DecidableEq, Repr

/-- A place where a key may start. -/
structure KeyPlace where
  /-- Whether the layout leaves nothing else than a key there. -/
  required : Bool
  /-- The number of tokens in front of it. -/
  tokens : Nat
  line : Nat
  column : Nat
  index : Nat

/-- The tokens so far, the last one first, and what the next ones depend on. -/
structure Tokenizer where
  tokens : List Token := []
  indent : Int := -1
  /-- The indentations of the surrounding collections, the nearest one first. -/
  outer : List Int := []
  /-- The place of a key, for each level of brackets, the innermost one first. -/
  places : List (Option KeyPlace) := [none]
  /-- Whether a key may start at the next token. -/
  keyAllowed : Bool := true

namespace Tokenizer

def inFlow (s : Tokenizer) : Bool := 1 < s.places.length

def push (s : Tokenizer) (t : Token) : Tokenizer := { s with tokens := t :: s.tokens }

/-- A token put in after the first `n` tokens. -/
def insert (s : Tokenizer) (n : Nat) (t : Token) : Tokenizer :=
  { s with tokens := s.tokens.insertIdx (s.tokens.length - n) t }

def allowKey (s : Tokenizer) (allowed : Bool) : Tokenizer := { s with keyAllowed := allowed }

/-! ## Places of keys -/

/-- The layout without the place at the innermost level, unless a key is required there. -/
def dropPlace (s : Tokenizer) : Option Tokenizer :=
  match s.places with
  | some p :: ps => if p.required then none else some { s with places := none :: ps }
  | _ => some s

/-- The layout with a place at the letter, if a key may start there. -/
def savePlace (s : Tokenizer) (l : Letter) : Option Tokenizer :=
  if s.keyAllowed then do
    let s ← s.dropPlace
    let required := !s.inFlow && s.indent = l.column
    let p : KeyPlace := ⟨required, s.tokens.length, l.line, l.column, l.index⟩
    return { s with places := some p :: s.places.tail }
  else some s

/-- Whether a key that starts at a place cannot go on to a letter. -/
def isStale (l : Letter) (p : KeyPlace) : Bool := p.line < l.line || p.index + 1024 < l.index

/-- The layout without places that are too far back. -/
def dropStale (s : Tokenizer) (l : Letter) : Option Tokenizer :=
  if s.places.any fun p => p.any fun p => isStale l p && p.required then none
  else some { s with places := s.places.map fun p => p.filter fun p => !isStale l p }

/-! ## Indentation -/

/-- The ends of the collections that are indented more than a column. -/
def unrollFrom (column : Int) (tokens : List Token) (indent : Int) :
    List Int → List Token × Int × List Int
  | [] => (tokens, indent, [])
  | i :: outer =>
    if column < indent then unrollFrom column (.blockEnd :: tokens) i outer
    else (tokens, indent, i :: outer)

def unroll (s : Tokenizer) (column : Int) : Tokenizer :=
  if s.inFlow then s
  else
    let (tokens, indent, outer) := unrollFrom column s.tokens s.indent s.outer
    { s with tokens, indent, outer }

/-- The layout with a collection at a column, if it is indented more than the surrounding one.  Its
token comes after the first `n` tokens. -/
def roll (s : Tokenizer) (column : Nat) (n : Nat) (t : Token) : Tokenizer :=
  if s.inFlow || s.indent ≥ column then s
  else { s.insert n t with indent := column, outer := s.indent :: s.outer }

/-- The layout with a collection that starts with the next token. -/
def rollHere (s : Tokenizer) (column : Nat) (t : Token) : Tokenizer :=
  s.roll column s.tokens.length t

/-! ## Single tokens -/

/-- What a step gives: the layout with its token, and the letters after it. -/
abbrev Step := Option (Tokenizer × List Letter)

/-- A directive or a mark between documents, where no collection goes on. -/
def between (s : Tokenizer) (t : Token) (rest : List Letter) : Step := do
  let s ← (s.unroll (-1)).dropPlace
  return ((s.allowKey false).push t, rest)

def flowStart (s : Tokenizer) (l : Letter) (t : Token) (rest : List Letter) : Step := do
  let s ← s.savePlace l
  return ({ (s.allowKey true).push t with places := none :: s.places }, rest)

def flowEnd (s : Tokenizer) (t : Token) (rest : List Letter) : Step := do
  let s ← s.dropPlace
  let places := if s.inFlow then s.places.tail else s.places
  return ({ (s.allowKey false).push t with places }, rest)

def flowEntry (s : Tokenizer) (rest : List Letter) : Step := do
  let s ← s.dropPlace
  return ((s.allowKey true).push .flowEntry, rest)

def blockEntry (s : Tokenizer) (l : Letter) (rest : List Letter) : Step :=
  if !s.inFlow && !s.keyAllowed then none
  else do
    let s ← (s.rollHere l.column .sequenceStart).dropPlace
    return ((s.allowKey true).push .blockEntry, rest)

def keyMark (s : Tokenizer) (l : Letter) (rest : List Letter) : Step :=
  if !s.inFlow && !s.keyAllowed then none
  else do
    let s ← (s.rollHere l.column .mappingStart).dropPlace
    return ((s.allowKey !s.inFlow).push .key, rest)

/-- The colon: it turns what starts at the remembered place into a key. -/
def valueMark (s : Tokenizer) (l : Letter) (rest : List Letter) : Step :=
  match s.places with
  | some p :: ps =>
    let s := (s.insert p.tokens .key).roll p.column p.tokens .mappingStart
    some ({ (s.allowKey false).push .value with places := none :: ps }, rest)
  | _ =>
    if !s.inFlow && !s.keyAllowed then none
    else
      let s := s.rollHere l.column .mappingStart
      some ((s.allowKey !s.inFlow).push .value, rest)

/-- A token that may start a key and that no other key may follow at once. -/
def part (s : Tokenizer) (l : Letter) (t : Token) (rest : List Letter) : Step := do
  let s ← s.savePlace l
  return ((s.allowKey false).push t, rest)

/-- An anchor or an alias after its mark.  A blank or punctuation follows the name. -/
def anchorPart (s : Tokenizer) (l : Letter) (t : String → Token) (ls : List Letter) : Step :=
  let (name, rest) := span isNameLetter ls
  let next := charAt rest 0
  if name = [] then none
  else if isSpaceOrEnd next || ['?', ':', ',', ']', '\x7d', '%', '@', '\x60'].contains next then
    s.part l (t (String.ofList name)) rest
  else none

def blockScalar (s : Tokenizer) (folded : Bool) (ls : List Letter) : Step := do
  let s ← s.dropPlace
  let (cs, rest) ← readBlockScalar folded s.indent ls
  return ((s.allowKey true).push (.scalar false (String.ofList cs)), rest)

def quotedScalar (s : Tokenizer) (l : Letter) (ls : List Letter) : Step := do
  let (cs, rest) ← readQuoted l.char 0 {} ls
  s.part l (.scalar false (String.ofList cs)) rest

/-- A plain scalar.  When a line break follows it, a key may start after it. -/
def plainScalar (s : Tokenizer) (l : Letter) (ls : List Letter) : Step := do
  let s ← s.savePlace l
  let (cs, broken, rest) ← readPlain s.inFlow (s.indent + 1).toNat {} ls
  return ((s.allowKey broken).push (.scalar true (String.ofList cs)), rest)

/-! ## All tokens -/

/-- The letters of the next token, and whether a key may start there.  Tabs do not count where they
could be taken for indentation. -/
def skipToToken (inFlow : Bool) : (inComment keyAllowed : Bool) → List Letter → Bool × List Letter
  | _, keyAllowed, [] => (keyAllowed, [])
  | inComment, keyAllowed, l :: ls =>
    if isBreak l.char then skipToToken inFlow false (keyAllowed || !inFlow) ls
    else if l.char = endMark then (keyAllowed, l :: ls)
    else if inComment then skipToToken inFlow true keyAllowed ls
    else if l.char = ' ' || (l.char = '\t' && (inFlow || !keyAllowed)) then
      skipToToken inFlow false keyAllowed ls
    else if l.char = '#' then skipToToken inFlow true keyAllowed ls
    else (keyAllowed, l :: ls)

/-- The next token, which starts at the first letter. -/
def next (s : Tokenizer) (l : Letter) (rest : List Letter) : Step :=
  let ls := l :: rest
  let spaced := isSpaceOrEnd (charAt rest 0)
  if l.column = 0 && l.char = '%' then do
    let (d, rest) ← readDirective rest
    s.between (.directive d) rest
  else if isMarker '-' ls then s.between .documentStart (ls.drop 3)
  else if isMarker '.' ls then s.between .documentEnd (ls.drop 3)
  else if l.char = '[' then s.flowStart l .flowSequenceStart rest
  else if l.char = '\x7b' then s.flowStart l .flowMappingStart rest
  else if l.char = ']' then s.flowEnd .flowSequenceEnd rest
  else if l.char = '\x7d' then s.flowEnd .flowMappingEnd rest
  else if l.char = ',' then s.flowEntry rest
  else if l.char = '-' && spaced then s.blockEntry l rest
  else if l.char = '?' && (s.inFlow || spaced) then s.keyMark l rest
  else if l.char = ':' && (s.inFlow || spaced) then s.valueMark l rest
  else if l.char = '*' then s.anchorPart l .alias rest
  else if l.char = '&' then s.anchorPart l .anchor rest
  else if l.char = '!' then do
    let (t, rest) ← readTag s.inFlow ls
    s.part l (.tag t) rest
  else if l.char = '|' && !s.inFlow then s.blockScalar false rest
  else if l.char = '>' && !s.inFlow then s.blockScalar true rest
  else if l.char = '\'' || l.char = '"' then s.quotedScalar l rest
  else if startsPlain s.inFlow ls then s.plainScalar l ls
  else none

/-- All tokens from the letters on. -/
def run : Nat → Tokenizer → List Letter → Option (List Token)
  | 0, _, _ => none
  | fuel + 1, s, ls => do
    let (keyAllowed, ls) := skipToToken s.inFlow false s.keyAllowed ls
    match ls with
    | [] => none
    | l :: rest =>
      let s ← (s.allowKey keyAllowed).dropStale l
      if l.char = endMark then
        let s ← (s.unroll (-1)).dropPlace
        return s.tokens.reverse
      else
        let (s, rest) ← (s.unroll l.column).next l rest
        run fuel s rest

end Tokenizer

/-- The tokens of a document. -/
def Token.ofLetters? (ls : List Letter) : Option (List Token) := Tokenizer.run (ls.length + 1) {} ls

end LayeredConfig.Yaml
