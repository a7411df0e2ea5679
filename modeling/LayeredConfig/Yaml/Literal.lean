import LayeredConfig.Yaml.Quoted

/-! Literal and folded scalars: indented lines after a header.

The header says whether breaks are folded, how the breaks at the end are kept, and perhaps the
indentation.  Without it the indentation is that of the first line with text, or of the longest line
of blanks in front of it, and more than that of the surroundings. -/

namespace LayeredConfig.Yaml

/-- Which breaks at the end belong to the text. -/
inductive Chomp where
  | strip
  | clip
  | keep
  deriving DecidableEq, Repr

/-- The header: how to end, and the indentation if it is given. -/
def readHeader (ls : List Letter) : Option (Chomp × Nat × List Letter) :=
  let chomp? (c : Char) : Option Chomp :=
    if c = '+' then some .keep else if c = '-' then some .strip else none
  let digit? (c : Char) : Option Nat := if c.isDigit then some (c.toNat - '0'.toNat) else none
  let given (chomp : Chomp) (n : Nat) (ls : List Letter) : Option (Chomp × Nat × List Letter) :=
    if n = 0 then none else (afterLine? ls).map fun ls => (chomp, n, ls)
  match chomp? (charAt ls 0), digit? (charAt ls 0) with
  | some chomp, _ =>
    match digit? (charAt ls 1) with
    | some n => given chomp n (ls.drop 2)
    | none => (afterLine? ls.tail).map fun ls => (chomp, 0, ls)
  | none, some n =>
    match chomp? (charAt ls 1) with
    | some chomp => given chomp n (ls.drop 2)
    | none => given .clip n ls.tail
  | none, none => (afterLine? ls).map fun ls => (.clip, 0, ls)

/-- The lines without text in front: the greatest indentation, the breaks, and the letters after
them. -/
def readLead (widest : Nat) : List Letter → Option (Nat × List Char × List Letter)
  | [] => none
  | l :: ls =>
    if l.char = ' ' then readLead widest ls
    else
      let widest := max widest l.column
      if l.char = '\t' then none
      else if isBreak l.char then
        (readLead widest ls).map fun (n, breaks, ls) => (n, l.char :: breaks, ls)
      else some (widest, [], l :: ls)

/-- What was read between two lines with text. -/
structure Fold where
  /-- The break at the end of the line before. -/
  pending : Option Char := none
  /-- The breaks of the lines without text. -/
  later : List Char := []
  /-- Whether the line before started with a blank. -/
  blank : Bool := false

/-- What stands before a line that starts with `c`. -/
def Fold.text (f : Fold) (folded : Bool) (c : Char) : List Char :=
  if folded && f.pending = some '\n' && !f.blank && !isBlank c then
    (if f.later = [] then [' '] else f.later)
  else f.pending.toList ++ f.later

/-- The text of the lines at an indentation, what is left of breaks, and the letters after them. -/
def readLines (folded : Bool) (indent : Nat) :
    Bool → Fold → List Letter → Option (List Char × Fold × List Letter)
  | _, _, [] => none
  | true, f, l :: ls =>
    if isBreak l.char then readLines folded indent false { f with pending := some l.char } ls
    else if l.char = endMark then some ([], f, l :: ls)
    else (readLines folded indent true f ls).map fun (cs, f, ls) => (l.char :: cs, f, ls)
  | false, f, l :: ls =>
    if l.column < indent && l.char = ' ' then readLines folded indent false f ls
    else if l.column < indent && l.char = '\t' then none
    else if isBreak l.char then
      readLines folded indent false { f with later := f.later ++ [l.char] } ls
    else if l.column = indent && l.char ≠ endMark then
      (readLines folded indent true { blank := isBlank l.char } ls).map fun (cs, g, ls) =>
        (f.text folded l.char ++ l.char :: cs, g, ls)
    else some ([], f, l :: ls)

/-- The text of a literal or folded scalar after its mark, in surroundings of an indentation. -/
def readBlockScalar (folded : Bool) (surrounding : Int) (ls : List Letter) : Reading := do
  let (chomp, given, ls) ← readHeader ls
  let (indent, breaks, ls) ←
    if given = 0 then do
      let (widest, breaks, ls) ← readLead 0 ls
      pure (max widest (max (surrounding + 1) 1).toNat, breaks, ls)
    else pure ((max surrounding 0).toNat + given, [], ls)
  let (cs, f, ls) ← readLines folded indent false { later := breaks } ls
  return match chomp with
    | .strip => (cs, ls)
    | .clip => (cs ++ f.pending.toList, ls)
    | .keep => (cs ++ f.pending.toList ++ f.later, ls)

end LayeredConfig.Yaml
