import LayeredConfig.Yaml.Quoted

/-! Plain scalars.

A plain scalar ends at a colon before a blank, at a comment, at the start of another document, at a
line that is not indented enough, and inside brackets at their punctuation. -/

namespace LayeredConfig.Yaml

/-- The punctuation of brackets. -/
def isFlowMark (c : Char) : Bool := c = ',' || c = '[' || c = ']' || c = '\x7b' || c = '\x7d'

/-- The letters that start something else than a plain scalar. -/
def indicators : List Char := ['#', '&', '*', '!', '|', '>', '\'', '"', '%', '@', '\x60']

/-- Whether a plain scalar may start with the letters. -/
def startsPlain (inFlow : Bool) (ls : List Letter) : Bool :=
  let c := charAt ls 0
  let next := charAt ls 1
  if c = '-' then !isBlank next
  else if c = '?' || c = ':' then !inFlow && !isSpaceOrEnd next
  else !isSpaceOrEnd c && !isFlowMark c && !indicators.contains c

/-- What a plain scalar is: its text, whether a line break follows it, and the letters after it. -/
abbrev PlainReading := Option (List Char × Bool × List Letter)

/-- The text of a plain scalar whose lines need the given column. -/
def readPlain (inFlow : Bool) (column : Nat) (g : Gap) : List Letter → PlainReading
  | [] => none
  | l :: ls =>
    let stop : PlainReading := some ([], g.broken, l :: ls)
    let next := charAt ls 0
    if isBlank l.char then
      if g.broken && l.column < column && l.char = '\t' then none
      else readPlain inFlow column (g.addBlank l.char) ls
    else if isBreak l.char then readPlain inFlow column (g.addBreak l.char) ls
    else if l.char = endMark then stop
    else if !g.isEmpty && (l.char = '#' || (!inFlow && l.column < column)) then stop
    else if isBoundary (l :: ls) then stop
    else if inFlow && l.char = ':' && (isFlowMark next || next = '?') then none
    else if l.char = ':' && isSpaceOrEnd next then stop
    else if inFlow && isFlowMark l.char then stop
    else (readPlain inFlow column {} ls).map fun (cs, broken, ls) =>
      (g.text ++ l.char :: cs, broken, ls)

end LayeredConfig.Yaml
