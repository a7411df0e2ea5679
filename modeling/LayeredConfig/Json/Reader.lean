import LayeredConfig.Json.Number
import LayeredConfig.Json.Value

/-! Reading JSON documents into trees.

A document is read as a JSON value first.  Of two members of an object with one name the later value
stays, at the first position.  Arrays and objects nest at most 127 deep. -/

namespace LayeredConfig.Json

/-- The white space of the format. -/
def isSpace (c : Char) : Bool := c = ' ' || c = '\n' || c = '\t' || c = '\r'

def skipSpace (cs : List Char) : List Char := cs.dropWhile isSpace

/-! ## Strings -/

def hexValue? (c : Char) : Option Nat :=
  if '0' ≤ c ∧ c ≤ '9' then some (c.toNat - '0'.toNat)
  else if 'a' ≤ c ∧ c ≤ 'f' then some (c.toNat - 'a'.toNat + 10)
  else if 'A' ≤ c ∧ c ≤ 'F' then some (c.toNat - 'A'.toNat + 10)
  else none

/-- Four hexadecimal digits. -/
def readHex4 : List Char → Option (Nat × List Char)
  | a :: b :: c :: d :: rest => do
    let high := 16 * (← hexValue? a) + (← hexValue? b)
    let n := 16 * (16 * high + (← hexValue? c)) + (← hexValue? d)
    return (n, rest)
  | _ => none

/-- The letter that a one-letter escape stands for. -/
def simpleEscape? : Char → Option Char
  | '"' => some '"'
  | '\\' => some '\\'
  | '/' => some '/'
  | 'b' => some '\x08'
  | 'f' => some '\x0c'
  | 'n' => some '\n'
  | 'r' => some '\r'
  | 't' => some '\t'
  | _ => none

/-- The letter of a numeric escape, whose digits come first; a letter beyond the basic plane takes
two escapes, and half of one is refused. -/
def readUnit (cs : List Char) : Option (Char × List Char) := do
  let (n, rest) ← readHex4 cs
  if 0xD800 ≤ n ∧ n < 0xDC00 then
    match rest with
    | '\\' :: 'u' :: rest =>
      let (m, rest) ← readHex4 rest
      if 0xDC00 ≤ m ∧ m < 0xE000 then
        return (Char.ofNat (0x10000 + (n - 0xD800) * 0x400 + (m - 0xDC00)), rest)
      else none
    | _ => none
  else if 0xDC00 ≤ n ∧ n < 0xE000 then none
  else return (Char.ofNat n, rest)

/-- The letters up to the closing quote, and what follows it. -/
def readLetters : Nat → List Char → Option (List Char × List Char)
  | 0, _ => none
  | _, [] => none
  | fuel + 1, c :: cs =>
    if c = '"' then some ([], cs)
    else if c = '\\' then
      match cs with
      | 'u' :: cs => do
        let (d, cs) ← readUnit cs
        let (ds, cs) ← readLetters fuel cs
        return (d :: ds, cs)
      | e :: cs => do
        let d ← simpleEscape? e
        let (ds, cs) ← readLetters fuel cs
        return (d :: ds, cs)
      | [] => none
    else if c.toNat < 0x20 then none
    else (readLetters fuel cs).map fun (ds, cs) => (c :: ds, cs)

/-- A string whose opening quote has been read. -/
def readString (cs : List Char) : Option (String × List Char) :=
  (readLetters (cs.length + 1) cs).map fun (ds, cs) => (String.ofList ds, cs)

/-! ## Values -/

/-- A reader of one value at the front of the letters. -/
abbrev ValueReader := List Char → Option (Value × List Char)

/-- The values of an array from the first one on, to the closing bracket. -/
def readItems (value : ValueReader) : Nat → List Char → Option (List Value × List Char)
  | 0, _ => none
  | fuel + 1, cs => do
    let (v, cs) ← value cs
    match skipSpace cs with
    | ',' :: cs =>
      let (vs, cs) ← readItems value fuel cs
      return (v :: vs, cs)
    | ']' :: cs => return ([v], cs)
    | _ => none

/-- The members of an object from the first one on, to the closing brace. -/
def readMembers (value : ValueReader) :
    Nat → List Char → Option (List (String × Value) × List Char)
  | 0, _ => none
  | fuel + 1, cs =>
    match skipSpace cs with
    | '"' :: cs => do
      let (k, cs) ← readString cs
      match skipSpace cs with
      | ':' :: cs =>
        let (v, cs) ← value cs
        match skipSpace cs with
        | ',' :: cs =>
          let (ms, cs) ← readMembers value fuel cs
          return ((k, v) :: ms, cs)
        | '\x7d' :: cs => return ([(k, v)], cs)
        | _ => none
      | _ => none
    | _ => none

/-- The rest of a word, letter by letter. -/
def expect (word : List Char) (cs : List Char) : Option (List Char) :=
  if cs.take word.length = word then some (cs.drop word.length) else none

/-- A value, inside at most `depth` further arrays and objects. -/
def readValue : Nat → ValueReader
  | depth, cs =>
    match skipSpace cs with
    | '"' :: cs => (readString cs).map fun (s, cs) => (.string s, cs)
    | 't' :: cs => (expect ['r', 'u', 'e'] cs).map fun cs => (.bool true, cs)
    | 'f' :: cs => (expect ['a', 'l', 's', 'e'] cs).map fun cs => (.bool false, cs)
    | 'n' :: cs => (expect ['u', 'l', 'l'] cs).map fun cs => (.null, cs)
    | '[' :: cs =>
      match depth with
      | 0 => none
      | depth + 1 =>
        match skipSpace cs with
        | ']' :: cs => some (.array [], cs)
        | _ => (readItems (fun cs => readValue depth cs) (cs.length + 1) cs).map fun (vs, cs) =>
          (.array vs, cs)
    | '\x7b' :: cs =>
      match depth with
      | 0 => none
      | depth + 1 =>
        match skipSpace cs with
        | '\x7d' :: cs => some (.object [], cs)
        | _ => (readMembers (fun cs => readValue depth cs) (cs.length + 1) cs).map fun (ms, cs) =>
          (.object (Assoc.ofList ms), cs)
    | cs => (readNumber cs).map fun (s, cs) => (.number s, cs)

/-- How deep arrays and objects nest at most. -/
def maxDepth : Nat := 127

/-- The value of a document. -/
def readDocument (content : String) : Option Value :=
  match readValue maxDepth content.toList with
  | some (v, rest) => if skipSpace rest = [] then some v else none
  | none => none

/-- The tree of a document. -/
def read (content : String) : Option Tree := (readDocument content).map Value.tree

end LayeredConfig.Json
