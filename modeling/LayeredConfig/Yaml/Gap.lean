import LayeredConfig.Yaml.Letter

/-! Gaps between the words of a scalar.

Blanks between two words of one line stay as they are.  Between two lines one break becomes a blank,
further breaks stay, and the blanks around them are dropped. -/

namespace LayeredConfig.Yaml

/-- What was read since the last word. -/
structure Gap where
  blanks : List Char := []
  broken : Bool := false
  /-- The first break, if it counts. -/
  first : Option Char := none
  /-- The breaks after the first one. -/
  later : List Char := []

namespace Gap

def addBlank (g : Gap) (c : Char) : Gap :=
  if g.broken then g else { g with blanks := g.blanks ++ [c] }

def addBreak (g : Gap) (c : Char) : Gap :=
  if g.broken then { g with later := g.later ++ [c] } else { broken := true, first := some c }

/-- The gap after a break that does not count. -/
def escaped : Gap := { broken := true }

def isEmpty (g : Gap) : Bool := g.blanks.isEmpty && !g.broken

/-- What the gap is in the text. -/
def text (g : Gap) : List Char :=
  if g.broken then
    match g.first with
    | some '\n' => if g.later = [] then [' '] else g.later
    | some c => c :: g.later
    | none => g.later
  else g.blanks

end Gap

end LayeredConfig.Yaml
