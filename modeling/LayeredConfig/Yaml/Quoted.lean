import LayeredConfig.Json.Reader
import LayeredConfig.Yaml.Gap

/-! Quoted scalars.

Between apostrophes only a doubled apostrophe is special.  Between quotes a backslash stands before
escapes, and before a line break that does not count. -/

namespace LayeredConfig.Yaml

/-- The letter that a one-letter escape stands for. -/
def simpleEscape? : Char → Option Char
  | '0' => some '\x00'
  | 'a' => some '\x07'
  | 'b' => some '\x08'
  | 't' => some '\t'
  | '\t' => some '\t'
  | 'n' => some '\n'
  | 'v' => some '\x0b'
  | 'f' => some '\x0c'
  | 'r' => some '\r'
  | 'e' => some '\x1b'
  | ' ' => some ' '
  | '"' => some '"'
  | '/' => some '/'
  | '\\' => some '\\'
  | 'N' => some '\u0085'
  | '_' => some '\u00a0'
  | 'L' => some '\u2028'
  | 'P' => some '\u2029'
  | _ => none

/-- The number of hexadecimal digits after an escape. -/
def digitsAfter? : Char → Option Nat
  | 'x' => some 2
  | 'u' => some 4
  | 'U' => some 8
  | _ => none

/-- The letter with a code in hexadecimal digits. -/
def charOfHex? (digits : List Char) : Option Char := do
  let ns ← digits.mapM Json.hexValue?
  let n := ns.foldl (fun acc d => 16 * acc + d) 0
  if n.isValidChar then some (Char.ofNat n) else none

/-- The letter that an escape stands for, and the number of letters it takes after the backslash. -/
def escape? (ls : List Letter) : Option (Char × Nat) :=
  match digitsAfter? (charAt ls 0) with
  | some n =>
    if ls.length ≤ n then none
    else (charOfHex? ((ls.tail.take n).map Letter.char)).map fun c => (c, n + 1)
  | none => (simpleEscape? (charAt ls 0)).map fun c => (c, 1)

/-- What a reader of a scalar gives: its text, and the letters after it. -/
abbrev Reading := Option (List Char × List Letter)

def Reading.append (front : List Char) : Reading → Reading :=
  Option.map fun (cs, ls) => (front ++ cs, ls)

/-- The text up to the closing mark; `skip` letters belong to an escape that was read. -/
def readQuoted (mark : Char) (skip : Nat) (g : Gap) : List Letter → Reading
  | [] => none
  | l :: ls =>
    if 0 < skip then readQuoted mark (skip - 1) g ls
    else if l.char = endMark || isBoundary (l :: ls) then none
    else if isBlank l.char then readQuoted mark 0 (g.addBlank l.char) ls
    else if isBreak l.char then readQuoted mark 0 (g.addBreak l.char) ls
    else if l.char = mark then
      if mark = '\'' && charAt ls 0 = '\'' then
        Reading.append (g.text ++ ['\'']) (readQuoted mark 1 {} ls)
      else some (g.text, ls)
    else if l.char = '\\' && mark = '"' then
      if isBreak (charAt ls 0) then Reading.append g.text (readQuoted mark 1 .escaped ls)
      else
        match escape? ls with
        | some (c, n) => Reading.append (g.text ++ [c]) (readQuoted mark n {} ls)
        | none => none
    else Reading.append (g.text ++ [l.char]) (readQuoted mark 0 {} ls)

end LayeredConfig.Yaml
