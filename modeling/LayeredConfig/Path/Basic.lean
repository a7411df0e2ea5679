/-! Paths into a configuration tree.

A path is a list of segments, each the key of a map or the index of an array.  Its display form is
the expression that `Path.parse` of the next module reads. -/

namespace LayeredConfig

/-- One step down: into a map by key, or into an array by position. -/
inductive Segment where
  | key (name : String)
  | index (position : Nat)
  deriving DecidableEq, Repr

abbrev Path := List Segment

namespace Segment

/-- A segment as it stands after another one. -/
def display : Segment → String
  | key name => "." ++ name
  | index i => "[" ++ toString i ++ "]"

end Segment

/-- Keys joined by dots, indices in brackets; a key in front stands bare. -/
def Path.display : Path → String
  | [] => ""
  | .key name :: rest => name ++ String.join (rest.map Segment.display)
  | .index i :: rest => String.join ((Segment.index i :: rest).map Segment.display)

end LayeredConfig
