import LayeredConfig.Assoc
import LayeredConfig.DotEnv.Value
import LayeredConfig.Text.Blank

/-! Files of environment variables.

A file is a list of statements, one a line; a quoted value may run over several lines.  A statement
is a name, an equals sign and a value, optionally after the word `export`.  A variable that is set
already keeps its value. -/

namespace LayeredConfig.DotEnv

/-! ## Statements -/

/-- Where the end of a line finds the statement. -/
inductive LineState where
  | complete
  | blank
  | escape
  | single
  | singleEscape
  | double
  | doubleEscape
  deriving DecidableEq, Repr

/-- The state after one letter outside of quotes. -/
def LineState.open (c : Char) : LineState :=
  if c = '\\' then .escape
  else if c = '"' then .double
  else if c = '\'' then .single
  else .complete

def LineState.next : LineState → Char → LineState
  | blank, c => .open c
  | escape, _ => .complete
  | complete, c => if Text.isBlank c ∧ c ≠ '\n' ∧ c ≠ '\r' then .blank else .open c
  | double, c => if c = '\\' then .doubleEscape else if c = '"' then .complete else .double
  | doubleEscape, _ => .double
  | single, c => if c = '\\' then .singleEscape else if c = '\'' then .complete else .single
  | singleEscape, _ => .single

/-- The letters of a line before a comment that starts in it, or the state at its end. -/
def scanLine (st : LineState) : List Char → Sum (List Char) LineState
  | [] => .inr st
  | c :: cs =>
    if st = .blank ∧ c = '#' then .inl []
    else
      match scanLine (st.next c) cs with
      | .inl front => .inl (c :: front)
      | .inr st => .inr st

/-- The lines of a text, each with its line break. -/
def lines : List Char → List (List Char)
  | [] => []
  | c :: cs =>
    if c = '\n' then [c] :: lines cs
    else
      match lines cs with
      | [] => [[c]]
      | l :: ls => (c :: l) :: ls

/-- A line without its line break. -/
def chomp (line : List Char) : List Char :=
  match line.reverse with
  | '\n' :: '\r' :: back => back.reverse
  | '\n' :: back => back.reverse
  | _ => line

/-- Lines put together to statements; `none` when the last one is not complete. -/
def statementsFrom (front : List Char) (st : LineState) :
    List (List Char) → Option (List (List Char))
  | [] => if st = .complete then some [] else none
  | line :: rest =>
    let text := front ++ line
    if (Text.trimStart text).head? = some '#' then statementsFrom [] .complete rest
    else
      match scanLine st line with
      | .inl part => (statementsFrom [] .complete rest).map ((front ++ part) :: ·)
      | .inr .complete => (statementsFrom [] .complete rest).map (chomp text :: ·)
      | .inr st => statementsFrom text st rest

def statements (content : List Char) : Option (List (List Char)) :=
  statementsFrom [] .complete (lines content)

/-! ## Assignments -/

def isNameStart (c : Char) : Bool := c.isAlpha || c = '_'

def isNameLetter (c : Char) : Bool := c.isAlphanum || c = '_' || c = '.'

/-- A name at the front of the letters, and what follows it and the blanks after it. -/
def readName (cs : List Char) : Option (List Char × List Char) :=
  match cs with
  | c :: _ =>
    if isNameStart c then
      some (cs.takeWhile isNameLetter, Text.trimStart (cs.dropWhile isNameLetter))
    else none
  | [] => none

/-- What follows an equals sign. -/
def afterEquals : List Char → Option (List Char)
  | '=' :: cs => some (Text.trimStart cs)
  | _ => none

/-- The name and the written value of a statement; `some none` for an empty line or a comment. -/
def readStatement (line : List Char) : Option (Option (List Char × List Char)) :=
  let cs := Text.trim line
  if cs = [] ∨ cs.head? = some '#' then some none
  else do
    let (name, rest) ← readName cs
    match afterEquals rest with
    | some value => return some (name, value)
    | none =>
      if name = ['e', 'x', 'p', 'o', 'r', 't'] then
        let (name, rest) ← readName rest
        let value ← afterEquals rest
        return some (name, value)
      else none

/-- The variables after a statement: the value is read with the variables known so far. -/
def assign (vars : List (String × String)) (line : List Char) :
    Option (List (String × String)) := do
  match ← readStatement line with
  | none => return vars
  | some (name, written) =>
    let lookup name := (Assoc.get? name vars).getD ""
    let value ←
      if written = [] ∨ written.head? = some '#' then some []
      else readValue lookup .plain .nothing written
    let name := String.ofList name
    if (Assoc.get? name vars).isSome then return vars
    else return Assoc.insert name (String.ofList value) vars

/-- The variables after a file with the given text, where none is set anew. -/
def load (vars : List (String × String)) (content : String) :
    Option (List (String × String)) := do
  let letters := match content.toList with
    | '\ufeff' :: cs => cs
    | cs => cs
  (← statements letters).foldlM assign vars

end LayeredConfig.DotEnv
