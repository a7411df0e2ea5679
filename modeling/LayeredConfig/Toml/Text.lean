import LayeredConfig.Json.Reader

/-! Strings of TOML documents.

A string stands between quotes or apostrophes, one of them on a single line, three of them over
several lines.  Only strings between quotes have escapes.  A line break right after the three
opening marks is dropped, and up to two marks may stand right before the three closing ones. -/

namespace LayeredConfig.Toml

/-- The letters that strings and comments may hold as they are. -/
def isPlain (c : Char) : Bool := c = '\t' || (0x20 ≤ c.toNat && c.toNat ≠ 0x7F)

/-- The blanks inside a line. -/
def isBlank (c : Char) : Bool := c = ' ' || c = '\t'

def skipBlanks (cs : List Char) : List Char := cs.dropWhile isBlank

/-- What follows a line break, when one comes first. -/
def afterBreak? : List Char → Option (List Char)
  | '\n' :: cs => some cs
  | '\r' :: '\n' :: cs => some cs
  | _ => none

/-- The letter with a number of hexadecimal digits. -/
def charOf? (digits : List Char) : Option Char := do
  let ns ← digits.mapM Json.hexValue?
  let n := ns.foldl (fun acc d => 16 * acc + d) 0
  if n.isValidChar then some (Char.ofNat n) else none

/-- The letter that a one-letter escape stands for. -/
def simpleEscape? : Char → Option Char
  | '"' => some '"'
  | '\\' => some '\\'
  | 'b' => some '\x08'
  | 'f' => some '\x0c'
  | 'n' => some '\n'
  | 'r' => some '\r'
  | 't' => some '\t'
  | _ => none

/-- What a reader of letters gives: the letters of the string, and what follows it. -/
abbrev Reading := Option (List Char × List Char)

def Reading.cons (c : Char) : Reading → Reading := Option.map fun (cs, rest) => (c :: cs, rest)

/-! ## Strings on one line -/

/-- The letters up to the closing quote. -/
def readBasic : List Char → Reading
  | '\\' :: 'u' :: a :: b :: c :: d :: cs => do
    Reading.cons (← charOf? [a, b, c, d]) (readBasic cs)
  | '\\' :: 'U' :: a :: b :: c :: d :: e :: f :: g :: h :: cs => do
    Reading.cons (← charOf? [a, b, c, d, e, f, g, h]) (readBasic cs)
  | '\\' :: e :: cs => do Reading.cons (← simpleEscape? e) (readBasic cs)
  | '"' :: cs => some ([], cs)
  | c :: cs => if isPlain c && c ≠ '\\' then Reading.cons c (readBasic cs) else none
  | [] => none

/-- The letters up to the closing apostrophe. -/
def readLiteral : List Char → Reading
  | '\'' :: cs => some ([], cs)
  | c :: cs => if isPlain c then Reading.cons c (readLiteral cs) else none
  | [] => none

/-! ## Strings over several lines -/

/-- What three closing marks close: up to two more of the mark belong to the string. -/
def close (mark : Char) : List Char → List Char × List Char
  | c :: d :: cs =>
    if c ≠ mark then ([], c :: d :: cs)
    else if d ≠ mark then ([mark], d :: cs)
    else ([mark, mark], cs)
  | [c] => if c = mark then ([mark], []) else ([], [c])
  | [] => ([], [])

/-- The letters up to three closing quotes.  `folding` says that a backslash at the end of a line
has been read: blanks and line breaks are dropped up to the next other letter. -/
def readMultiBasic (folding : Bool) : List Char → Reading
  | '"' :: '"' :: '"' :: cs => some (close '"' cs)
  | '\\' :: 'u' :: a :: b :: c :: d :: cs => do
    Reading.cons (← charOf? [a, b, c, d]) (readMultiBasic false cs)
  | '\\' :: 'U' :: a :: b :: c :: d :: e :: f :: g :: h :: cs => do
    Reading.cons (← charOf? [a, b, c, d, e, f, g, h]) (readMultiBasic false cs)
  | '\\' :: e :: cs =>
    if (afterBreak? (skipBlanks (e :: cs))).isSome then readMultiBasic true (e :: cs)
    else do Reading.cons (← simpleEscape? e) (readMultiBasic false cs)
  | '\r' :: '\n' :: cs =>
    if folding then readMultiBasic true cs else Reading.cons '\n' (readMultiBasic false cs)
  | '\n' :: cs =>
    if folding then readMultiBasic true cs else Reading.cons '\n' (readMultiBasic false cs)
  | c :: cs =>
    if isBlank c && folding then readMultiBasic true cs
    else if isPlain c && c ≠ '\\' then Reading.cons c (readMultiBasic false cs)
    else none
  | [] => none

/-- The letters up to three closing apostrophes. -/
def readMultiLiteral : List Char → Reading
  | '\'' :: '\'' :: '\'' :: cs => some (close '\'' cs)
  | '\r' :: '\n' :: cs => Reading.cons '\n' (readMultiLiteral cs)
  | '\n' :: cs => Reading.cons '\n' (readMultiLiteral cs)
  | c :: cs => if isPlain c then Reading.cons c (readMultiLiteral cs) else none
  | [] => none

/-! ## Any string -/

/-- A string on one line. -/
def readLine? : List Char → Reading
  | '"' :: cs => readBasic cs
  | '\'' :: cs => readLiteral cs
  | _ => none

/-- A string at the front of the letters. -/
def readString? : List Char → Reading
  | '"' :: '"' :: '"' :: cs => readMultiBasic false ((afterBreak? cs).getD cs)
  | '\'' :: '\'' :: '\'' :: cs => readMultiLiteral ((afterBreak? cs).getD cs)
  | cs => readLine? cs

end LayeredConfig.Toml
