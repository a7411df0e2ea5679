import LayeredConfig.Text.Case

/-! Values of variable files.

A value is plain, in single quotes (where nothing is special) or in double quotes.  A backslash
makes the next letter literal, a dollar sign stands for a variable, and blanks end a plain value:
only a comment may follow them. -/

namespace LayeredConfig.DotEnv

inductive Quote where
  | plain
  | single
  | double
  deriving DecidableEq, Repr

/-- What the letters just before make of the next one. -/
inductive Pending where
  | nothing
  | escape
  /-- The value is over. -/
  | ended
  /-- The letters of a variable name after a dollar sign. -/
  | variable (name : List Char)
  /-- The letters of a variable name inside braces. -/
  | braced (name : List Char)
  deriving DecidableEq, Repr

/-- The letters that a backslash may stand before, and what they mean. -/
def escaped? : Char → Option Char
  | '\\' => some '\\'
  | '\'' => some '\''
  | '"' => some '"'
  | '$' => some '$'
  | ' ' => some ' '
  | 'n' => some '\n'
  | _ => none

/-- The letters of a value, with the variables of `lookup` put in.  A name that ends at another
letter takes that letter along as it is. -/
def readValue (lookup : String → String) : Quote → Pending → List Char → Option (List Char)
  | .plain, .variable name, [] => some (lookup (String.ofList name)).toList
  | .plain, .braced _, [] => none
  | .plain, _, [] => some []
  | _, _, [] => none
  | q, .ended, c :: cs =>
    if c = ' ' ∨ c = '\t' then readValue lookup q .ended cs
    else if c = '#' then some []
    else none
  | q, .escape, c :: cs =>
    match escaped? c with
    | some d => (readValue lookup q .nothing cs).map (d :: ·)
    | none => none
  | .single, _, c :: cs =>
    if c = '\'' then readValue lookup .plain .nothing cs
    else (readValue lookup .single .nothing cs).map (c :: ·)
  | q, .variable name, c :: cs =>
    if Text.isAlphanumeric c then readValue lookup q (.variable (name ++ [c])) cs
    else if c = '\x7b' ∧ name = [] then readValue lookup q (.braced []) cs
    else
      let value := (lookup (String.ofList name)).toList
      if c = '$' then (readValue lookup q (.variable []) cs).map (value ++ ·)
      else (readValue lookup q .nothing cs).map (value ++ c :: ·)
  | q, .braced name, c :: cs =>
    if c = '\x7d' then
      (readValue lookup q .nothing cs).map ((lookup (String.ofList name)).toList ++ ·)
    else readValue lookup q (.braced (name ++ [c])) cs
  | .double, .nothing, c :: cs =>
    if c = '$' then readValue lookup .double (.variable []) cs
    else if c = '"' then readValue lookup .plain .nothing cs
    else if c = '\\' then readValue lookup .double .escape cs
    else (readValue lookup .double .nothing cs).map (c :: ·)
  | .plain, .nothing, c :: cs =>
    if c = '$' then readValue lookup .plain (.variable []) cs
    else if c = '\'' then readValue lookup .single .nothing cs
    else if c = '"' then readValue lookup .double .nothing cs
    else if c = '\\' then readValue lookup .plain .escape cs
    else if c = ' ' ∨ c = '\t' then readValue lookup .plain .ended cs
    else (readValue lookup .plain .nothing cs).map (c :: ·)

end LayeredConfig.DotEnv
