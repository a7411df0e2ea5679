import LayeredConfig.Text.Case
import LayeredConfig.Tree.Edit

/-! Trees from environment variables.

A variable belongs to a name when it starts with the name in upper case and two underscores.  What
follows is split at double underscores into the keys of a path, in lower case; a variable with an
empty key is passed over.  Variables are applied by name, so the order in which they are listed does
not matter. -/

namespace LayeredConfig.Environment

/-- Letters split at every pair of underscores, from the left. -/
def splitPairs : List Char → List (List Char)
  | [] => [[]]
  | '_' :: '_' :: cs => [] :: splitPairs cs
  | c :: cs =>
    match splitPairs cs with
    | [] => [[c]]
    | part :: parts => (c :: part) :: parts

/-- What stands in front of every variable of a name. -/
def marker (name : String) : List Char := (Text.upper name).toList ++ ['_', '_']

/-- What follows `front` in the letters, if they start with it. -/
def strip? : List Char → List Char → Option (List Char)
  | [], cs => some cs
  | _ :: _, [] => none
  | d :: ds, c :: cs => if d = c then strip? ds cs else none

/-- The path that the rest of a variable's name denotes. -/
def path? (rest : List Char) : Option Path :=
  let parts := splitPairs rest
  if parts.any (· = []) then none
  else some (parts.map fun part => .key (Text.lower (String.ofList part)))

/-- The variables of a name, ascending; of two with one name the later counts. -/
def selected (name : String) (vars : List (String × String)) : List (String × String) :=
  (vars.filter fun v => (strip? (marker name) v.1.toList).isSome).foldl
    (fun acc v => Assoc.insertSorted compare v.1 v.2 acc) []

/-- The tree of the variables that belong to a name. -/
def tree (name : String) (vars : List (String × String)) : Tree :=
  (selected name vars).foldl (fun t v =>
    match (strip? (marker name) v.1.toList).bind path? with
    | some path => (Tree.set (.value v.2) path t).1
    | none => t) .empty

end LayeredConfig.Environment
