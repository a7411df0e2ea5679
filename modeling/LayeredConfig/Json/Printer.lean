import LayeredConfig.Json.Reader

/-! Writing trees as JSON.

Maps become objects in their order and every value becomes a string.  Only quotes, backslashes and
control characters are escaped.  A style says which white space stands around the elements: none in
the compact form, a new line with an indentation in the pretty one. -/

namespace LayeredConfig.Json

def hexDigit (n : Nat) : Char := if n < 10 then Char.ofNat (48 + n) else Char.ofNat (87 + n)

/-- One letter of a string as it is written. -/
def escape (c : Char) : List Char :=
  if c = '"' then ['\\', '"']
  else if c = '\\' then ['\\', '\\']
  else if c = '\x08' then ['\\', 'b']
  else if c = '\x0c' then ['\\', 'f']
  else if c = '\n' then ['\\', 'n']
  else if c = '\r' then ['\\', 'r']
  else if c = '\t' then ['\\', 't']
  else if c.toNat < 0x20 then
    ['\\', 'u', '0', '0', hexDigit (c.toNat / 16), hexDigit (c.toNat % 16)]
  else [c]

def quote (s : String) : List Char := '"' :: s.toList.flatMap escape ++ ['"']

/-! ## Styles -/

/-- The white space of a text: before each element and the closing bracket of a composite, by the
depth at which they stand, and between a name and its value. -/
structure Style where
  gap : Nat → List Char
  blank : List Char
  isSpace_gap : ∀ depth, ∀ c ∈ gap depth, isSpace c = true
  isSpace_blank : ∀ c ∈ blank, isSpace c = true

/-- All on one line, without white space. -/
def Style.compact : Style where
  gap _ := []
  blank := []
  isSpace_gap := by simp
  isSpace_blank := by simp

/-- Every element on a line of its own, indented by two blanks a level. -/
def Style.pretty : Style where
  gap depth := '\n' :: List.replicate (2 * depth) ' '
  blank := [' ']
  isSpace_gap := by simp [isSpace]
  isSpace_blank := by simp [isSpace]

/-! ## Trees -/

mutual

/-- A tree as it is written at a depth.  Empty composites have no white space inside. -/
def letters (style : Style) (depth : Nat) : Tree → List Char
  | .value s => quote s
  | .array [] => ['[', ']']
  | .array ts => '[' :: itemLetters style (depth + 1) ts ++ style.gap depth ++ [']']
  | .map [] => ['\x7b', '\x7d']
  | .map es => '\x7b' :: entryLetters style (depth + 1) es ++ style.gap depth ++ ['\x7d']

def itemLetters (style : Style) (depth : Nat) : List Tree → List Char
  | [] => []
  | [t] => style.gap depth ++ letters style depth t
  | t :: ts => style.gap depth ++ letters style depth t ++ ',' :: itemLetters style depth ts

def entryLetters (style : Style) (depth : Nat) : List (String × Tree) → List Char
  | [] => []
  | [(k, t)] => style.gap depth ++ quote k ++ ':' :: style.blank ++ letters style depth t
  | (k, t) :: es =>
    style.gap depth ++ quote k ++ ':' :: style.blank ++ letters style depth t ++
      ',' :: entryLetters style depth es

end

def compact (t : Tree) : String := String.ofList (letters .compact 0 t)

def pretty (t : Tree) : String := String.ofList (letters .pretty 0 t)

end LayeredConfig.Json
