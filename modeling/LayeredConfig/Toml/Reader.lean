import LayeredConfig.Toml.Moment
import LayeredConfig.Toml.Number
import LayeredConfig.Toml.Table
import LayeredConfig.Toml.Text

/-! Reading TOML documents into trees.

A document is a list of lines, each an assignment or the header of a table or of one more table in
an array.  The assignments after a header belong to its table.  Arrays and inline tables nest at
most 79 deep, and a key has at most 79 parts. -/

namespace LayeredConfig.Toml

/-! ## Keys -/

def isBareLetter (c : Char) : Bool := c.isAlphanum || c = '-' || c = '_'

/-- One part of a key. -/
def readKeyPart (cs : List Char) : Reading :=
  match cs with
  | '"' :: _ | '\'' :: _ => readLine? cs
  | _ =>
    let name := cs.takeWhile isBareLetter
    if name = [] then none else some (name, cs.dropWhile isBareLetter)

/-- The parts of a key between dots, with blanks around each. -/
def readKeyParts : Nat → List Char → Option (List String × List Char)
  | 0, _ => none
  | fuel + 1, cs => do
    let (part, cs) ← readKeyPart (skipBlanks cs)
    match skipBlanks cs with
    | '.' :: cs =>
      let (parts, cs) ← readKeyParts fuel cs
      return (String.ofList part :: parts, cs)
    | cs => return ([String.ofList part], cs)

def maxDepth : Nat := 79

def readKey (cs : List Char) : Option (List String × List Char) := readKeyParts maxDepth cs

/-! ## Values -/

/-- What follows a comment, up to the end of its line. -/
def afterComment (cs : List Char) : List Char :=
  match cs with
  | '#' :: cs => cs.dropWhile isPlain
  | cs => cs

/-- What follows blanks, comments and line breaks. -/
def skipLines : Nat → List Char → List Char
  | 0, cs => cs
  | fuel + 1, cs =>
    match afterBreak? (afterComment (skipBlanks cs)) with
    | some cs => skipLines fuel cs
    | none => skipBlanks cs

def skipAll (cs : List Char) : List Char := skipLines (cs.length + 1) cs

/-- A reader of one value at the front of the letters. -/
abbrev ValueReader := List Char → Option (Tree × List Char)

/-- The values of an array, to the closing bracket. -/
def readItems (value : ValueReader) : Nat → List Char → Option (List Tree × List Char)
  | 0, _ => none
  | fuel + 1, cs =>
    match skipAll cs with
    | ']' :: cs => some ([], cs)
    | cs => do
      let (t, cs) ← value cs
      match skipAll cs with
      | ',' :: cs =>
        let (ts, cs) ← readItems value fuel cs
        return (t :: ts, cs)
      | ']' :: cs => return ([t], cs)
      | _ => none

/-- A key, an equals sign and a value. -/
def readAssignment (value : ValueReader) (cs : List Char) :
    Option (Entries.Assignment × List Char) := do
  let (keys, cs) ← readKey cs
  let (v, cs) ← value (skipBlanks (← after? '=' cs))
  return ((keys, v), cs)

/-- The assignments of an inline table from the first one on, to the closing brace. -/
def readMembers (value : ValueReader) :
    Nat → List Char → Option (List Entries.Assignment × List Char)
  | 0, _ => none
  | fuel + 1, cs => do
    let (a, cs) ← readAssignment value cs
    match skipBlanks cs with
    | ',' :: cs =>
      let (rest, cs) ← readMembers value fuel cs
      return (a :: rest, cs)
    | '\x7d' :: cs => return ([a], cs)
    | _ => none

/-- A date, a time or a number, as text. -/
def readScalar (cs : List Char) : Option (String × List Char) :=
  match readMoment cs with
  | some (text, cs) => some (String.ofList text, cs)
  | none => readNumber cs

/-- A value, inside at most `depth` further arrays and inline tables. -/
def readValue : Nat → ValueReader
  | depth, cs =>
    match cs with
    | '"' :: _ | '\'' :: _ => (readString? cs).map fun (s, cs) => (.value (String.ofList s), cs)
    | 't' :: 'r' :: 'u' :: 'e' :: cs => some (.value "true", cs)
    | 'f' :: 'a' :: 'l' :: 's' :: 'e' :: cs => some (.value "false", cs)
    | '[' :: cs =>
      match depth with
      | 0 => none
      | depth + 1 =>
        (readItems (fun cs => readValue depth cs) (cs.length + 1) cs).map fun (ts, cs) =>
          (.array ts, cs)
    | '\x7b' :: cs =>
      match depth with
      | 0 => none
      | depth + 1 =>
        match skipBlanks cs with
        | '\x7d' :: cs => some (.map [], cs)
        | cs => do
          let (assignments, cs) ← readMembers (fun cs => readValue depth cs) (cs.length + 1) cs
          return (Entries.tree (← Entries.assignAll [] assignments), cs)
    | cs => (readScalar cs).map fun (s, cs) => (.value s, cs)

/-! ## Documents -/

/-- A line that says something. -/
inductive Line where
  | assignment (a : Entries.Assignment)
  | table (keys : List String)
  | element (keys : List String)

def readLine (cs : List Char) : Option (Line × List Char) :=
  match cs with
  | '[' :: '[' :: cs => do
    let (keys, cs) ← readKey cs
    return (.element keys, ← after? ']' (← after? ']' cs))
  | '[' :: cs => do
    let (keys, cs) ← readKey cs
    return (.table keys, ← after? ']' cs)
  | cs => (readAssignment (readValue maxDepth) cs).map fun (a, cs) => (.assignment a, cs)

/-- The lines of a document that say something.  Blanks and a comment may end every line. -/
def readLines : Nat → List Char → Option (List Line)
  | 0, _ => none
  | fuel + 1, cs =>
    match afterComment (skipBlanks cs) with
    | [] => some []
    | cs =>
      match afterBreak? cs with
      | some cs => readLines fuel cs
      | none => do
        let (line, cs) ← readLine cs
        match afterComment (skipBlanks cs) with
        | [] => return [line]
        | cs => return line :: (← readLines fuel (← afterBreak? cs))

/-- The assignments in front of the first header. -/
def leading : List Line → List Entries.Assignment
  | .assignment a :: lines => a :: leading lines
  | _ => []

/-- The entries of a document after the tables of all headers. -/
def openAll (es : Entries) : List Line → Option Entries
  | [] => some es
  | .assignment _ :: lines => openAll es lines
  | .table keys :: lines => do
    let es ← Entries.within (Entries.openTable (keys.getLast?.getD "") (leading lines))
      keys.dropLast es
    openAll es lines
  | .element keys :: lines => do
    let es ← Entries.within (Entries.openElement (keys.getLast?.getD "") (leading lines))
      keys.dropLast es
    openAll es lines

/-- The tree of a document. -/
def read (content : String) : Option Tree := do
  let letters := match content.toList with
    | '\ufeff' :: cs => cs
    | cs => cs
  let lines ← readLines (letters.length + 1) letters
  let es ← openAll (← Entries.assignAll [] (leading lines)) lines
  return Entries.tree es

end LayeredConfig.Toml
