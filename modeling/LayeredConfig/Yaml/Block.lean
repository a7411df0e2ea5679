import LayeredConfig.Text.Blank
import LayeredConfig.Yaml.Letter
import LayeredConfig.Yaml.Value

/-! Values written in block form.

Items and entries stand on lines of their own; only an empty collection is written in brackets.
Text is plain where it reads back as the same text, otherwise it is quoted; text of several lines is
literal.  A key that is a collection, or long, stands after a question mark. -/

namespace LayeredConfig.Yaml

abbrev Line := List Char

/-! ## Text -/

/-- The words that some readers take for truth values. -/
def truthWords : List String :=
  ["y", "Y", "yes", "Yes", "YES", "n", "N", "no", "No", "NO", "true", "True", "TRUE", "false",
    "False", "FALSE", "on", "On", "ON", "off", "Off", "OFF"]

/-- Whether plain text would not be taken for text. -/
def isAmbiguous (s : String) : Bool :=
  truthWords.contains s || isPadded s.toList ||
    match ofPlain? s with
    | some (.text _) => false
    | _ => true

/-- The characters that are written as they are. -/
def isPrintable (c : Char) : Bool :=
  let n := c.toNat
  n = 0x0A || (0x20 ≤ n && n ≤ 0x7E) || (0xA0 ≤ n && n ≠ 0x2028 && n ≠ 0x2029 && n ≠ 0xFEFF &&
    n ≠ 0xFFFE && n ≠ 0xFFFF)

/-- The marks that plain text cannot start with. -/
def startMarks : List Char :=
  ['#', ',', '[', ']', '\x7b', '\x7d', '&', '*', '!', '|', '>', '\'', '"', '%', '@', '\x60']

/-- Whether a colon before a blank or a comment stands in the text after a letter. -/
def hasMark (spaced : Bool) : List Char → Bool
  | [] => false
  | c :: cs =>
    (c = ':' && cs.head?.all fun d => isSpaceOrEnd d) || (c = '#' && spaced) ||
      hasMark (isSpaceOrEnd c) cs

/-- Whether plain text could be taken for something else by its marks. -/
def isMarked (cs : List Char) : Bool :=
  match cs with
  | '-' :: '-' :: '-' :: _ => true
  | '.' :: '.' :: '.' :: _ => true
  | c :: rest =>
    startMarks.contains c ||
      ((c = '?' || c = '-') && rest.head?.all fun d => isSpaceOrEnd d) || hasMark false cs
  | [] => true

def isClean (cs : List Char) : Bool := cs.all isPrintable

/-- Whether a blank stands right before a line break. -/
def hasTrailingBlank : List Char → Bool
  | ' ' :: '\n' :: _ => true
  | _ :: cs => hasTrailingBlank cs
  | [] => false

def hexDigits (n width : Nat) : List Char :=
  let ds := (Nat.toDigits 16 n).map Char.toUpper
  List.replicate (width - ds.length) '0' ++ ds

/-- A letter between quotes. -/
def quoteLetter (c : Char) : List Char :=
  match c with
  | '"' => ['\\', '"']
  | '\\' => ['\\', '\\']
  | '\x00' => ['\\', '0']
  | '\x07' => ['\\', 'a']
  | '\x08' => ['\\', 'b']
  | '\t' => ['\\', 't']
  | '\n' => ['\\', 'n']
  | '\x0b' => ['\\', 'v']
  | '\x0c' => ['\\', 'f']
  | '\r' => ['\\', 'r']
  | '\x1b' => ['\\', 'e']
  | '\u0085' => ['\\', 'N']
  | '\u2028' => ['\\', 'L']
  | '\u2029' => ['\\', 'P']
  | c =>
    let n := c.toNat
    if isPrintable c then [c]
    else if n ≤ 0xFF then '\\' :: 'x' :: hexDigits n 2
    else if n ≤ 0xFFFF then '\\' :: 'u' :: hexDigits n 4
    else '\\' :: 'U' :: hexDigits n 8

def quoted (cs : List Char) : Line := '"' :: cs.flatMap quoteLetter ++ ['"']

def apostrophed (cs : List Char) : Line :=
  '\'' :: cs.flatMap (fun c => if c = '\'' then ['\'', '\''] else [c]) ++ ['\'']

/-- Text without line breaks. -/
def flowText (s : String) : Line :=
  let cs := s.toList
  let edged := cs.head? = some ' ' || cs.getLast? = some ' '
  if !isClean cs then quoted cs
  else if isAmbiguous s || edged || isMarked cs then apostrophed cs
  else cs

/-- The header of a literal text. -/
def literalHeader (cs : List Char) : Line :=
  let lead := cs.head?.any fun c => c = ' ' || c = '\n'
  let chomp :=
    match cs.reverse with
    | '\n' :: '\n' :: _ => ['+']
    | ['\n'] => ['+']
    | '\n' :: _ => []
    | _ => ['-']
  '|' :: (if lead then ['2'] else []) ++ chomp

/-- The lines of a literal text. -/
def literalLines (cs : List Char) : List Line :=
  let ls := cs.splitOn '\n'
  if ls.getLast? = some [] then ls.dropLast else ls

/-! ## Values -/

/-- A line two columns further in; an empty line stays empty. -/
def indent (l : Line) : Line := if l = [] then [] else ' ' :: ' ' :: l

/-- Whether text is written in literal form, when it is no short key. -/
def isLiteral (s : String) : Bool :=
  let cs := s.toList
  cs.contains '\n' && isClean cs && cs.getLast? ≠ some ' ' && !hasTrailingBlank cs

/-- The text of a value that takes part of a line. -/
def inline : Value → Line
  | .null => ['n', 'u', 'l', 'l']
  | .bool b => (if b then "true" else "false").toList
  | .number n => n.text.toList
  | .text s => if s.toList.contains '\n' then quoted s.toList else flowText s
  | .sequence _ => ['[', ']']
  | .mapping _ => ['\x7b', '\x7d']
  | .tagged tag v => '!' :: (bareTag tag).toList ++ ' ' :: inline v

/-- The bytes of a value that stands as a key on its own line; `none` for one that cannot. -/
def keySize? : Value → Option Nat
  | .text s => if s.toList.contains '\n' then none else some s.utf8ByteSize
  | .sequence [] => some 0
  | .sequence _ => none
  | .mapping [] => some 0
  | .mapping _ => none
  | .tagged tag v => (keySize? v).map (· + 1 + (bareTag tag).utf8ByteSize)
  | v => some (String.ofList (inline v)).utf8ByteSize

def isShortKey (v : Value) : Bool := (keySize? v).any (· ≤ 128)

/-- Lines after the start of a line. -/
def join (front : Line) : List Line → List Line
  | [] => [front]
  | l :: ls => (front ++ ' ' :: l) :: ls.map indent

mutual

/-- The lines of a value after `front`.  `isOpen` says that a collection may start on the line of
`front`, `inMapping` that a sequence need not be indented. -/
def after (front : Line) (isOpen inMapping : Bool) : Value → List Line
  | .sequence [] => [front ++ [' ', '[', ']']]
  | .sequence (v :: vs) =>
    let ls := itemLines (v :: vs)
    if isOpen then join front ls else front :: (if inMapping then ls else ls.map indent)
  | .mapping [] => [front ++ [' ', '\x7b', '\x7d']]
  | .mapping (e :: es) =>
    let ls := entryLines (e :: es)
    if isOpen then join front ls else front :: ls.map indent
  | .tagged tag v => after (front ++ ' ' :: '!' :: (bareTag tag).toList) false inMapping v
  | .text s =>
    if isLiteral s then
      (front ++ ' ' :: literalHeader s.toList) :: (literalLines s.toList).map indent
    else [front ++ ' ' :: inline (.text s)]
  | v => [front ++ ' ' :: inline v]

def itemLines : List Value → List Line
  | [] => []
  | v :: vs => after ['-'] true false v ++ itemLines vs

def entryLines : List (Value × Value) → List Line
  | [] => []
  | (k, v) :: es =>
    (if isShortKey k then after (inline k ++ [':']) false true v
      else after ['?'] true true k ++ after [':'] true true v) ++ entryLines es

end

/-- The lines of a value. -/
def Value.lines : Value → List Line
  | .sequence (v :: vs) => itemLines (v :: vs)
  | .mapping (e :: es) => entryLines (e :: es)
  | v => [inline v]

/-- A value as a document. -/
def Value.block (v : Value) : String := String.ofList (['\n'].intercalate v.lines)

end LayeredConfig.Yaml
