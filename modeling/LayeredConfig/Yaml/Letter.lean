/-! Letters of a YAML document with their places.

The layout of a document is part of its meaning, so every letter carries its line and column.  All
line breaks that are not kept as they are count as a line feed, and a letter with the code zero,
which no document holds, marks the end. -/

namespace LayeredConfig.Yaml

structure Letter where
  char : Char
  line : Nat
  column : Nat
  /-- The number of letters in front of it. -/
  index : Nat
  deriving DecidableEq, Repr

/-- The characters that a document may hold. -/
def isAllowed (c : Char) : Bool :=
  let n := c.toNat
  n = 0x09 || n = 0x0A || n = 0x0D || (0x20 ≤ n && n ≤ 0x7E) || n = 0x85 ||
    (0xA0 ≤ n && n ≤ 0xFFFD) || 0x10000 ≤ n

def isBlank (c : Char) : Bool := c = ' ' || c = '\t'

/-- The line breaks that texts keep: the line feed and the two separators. -/
def isBreak (c : Char) : Bool := c = '\n' || c = '\u2028' || c = '\u2029'

/-- The code that marks the end of a document. -/
def endMark : Char := '\x00'

def isBreakOrEnd (c : Char) : Bool := isBreak c || c = endMark

def isSpaceOrEnd (c : Char) : Bool := isBlank c || isBreakOrEnd c

/-- The letters of names: anchors, handles and directives. -/
def isNameLetter (c : Char) : Bool := c.isAlphanum || c = '_' || c = '-'

/-- The letters of a text from a place on, with the end mark.  A byte order mark in front takes up a
column and is not a letter. -/
def place (line column index : Nat) : List Char → List Letter
  | [] => [⟨endMark, line, column, index⟩]
  | '\r' :: '\n' :: cs => ⟨'\n', line, column, index⟩ :: place (line + 1) 0 (index + 2) cs
  | c :: cs =>
    if c = '\r' ∨ c = '\n' ∨ c = '\u0085' then
      ⟨'\n', line, column, index⟩ :: place (line + 1) 0 (index + 1) cs
    else if isBreak c then ⟨c, line, column, index⟩ :: place (line + 1) 0 (index + 1) cs
    else if c = '\ufeff' ∧ index = 0 then place line (column + 1) (index + 1) cs
    else ⟨c, line, column, index⟩ :: place line (column + 1) (index + 1) cs

/-- The letters of a document; a byte order mark in front is dropped. -/
def lettersOf? (content : String) : Option (List Letter) :=
  let cs := match content.toList with
    | '\ufeff' :: cs => cs
    | cs => cs
  if cs.all isAllowed then some (place 0 0 0 cs) else none

/-- The character a number of letters ahead. -/
def charAt (ls : List Letter) (i : Nat) : Char := (ls[i]?.map Letter.char).getD endMark

/-- The characters of the letters in front that satisfy `p`, and the letters after them. -/
def span (p : Char → Bool) (ls : List Letter) : List Char × List Letter :=
  ((ls.takeWhile fun l => p l.char).map Letter.char, ls.dropWhile fun l => p l.char)

def skipBlanks (ls : List Letter) : List Letter := ls.dropWhile fun l => isBlank l.char

/-- Whether the letters are a line that starts with the same mark three times, alone. -/
def isMarker (c : Char) (ls : List Letter) : Bool :=
  (ls.head?.any fun l => l.column = 0) && charAt ls 0 = c && charAt ls 1 = c && charAt ls 2 = c &&
    isSpaceOrEnd (charAt ls 3)

/-- Whether a document starts or ends at the letters. -/
def isBoundary (ls : List Letter) : Bool := isMarker '-' ls || isMarker '.' ls

/-- What follows the rest of a line that may hold blanks and a comment only. -/
def afterLine? (ls : List Letter) : Option (List Letter) :=
  let ls := skipBlanks ls
  let ls := if charAt ls 0 = '#' then ls.dropWhile fun l => !isBreakOrEnd l.char else ls
  if isBreak (charAt ls 0) then some ls.tail
  else if charAt ls 0 = endMark then some ls
  else none

end LayeredConfig.Yaml
