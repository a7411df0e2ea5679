import LayeredConfig.Files.Basic
import LayeredConfig.Profile.Active

/-! What surrounds a program: its files, its environment variables and the moment.

Everything that reads a file or a variable takes the surroundings as an argument, so that the same
surroundings always give the same answer.  What depends on anything else is asked at a moment, and
may answer differently at another one. -/

namespace LayeredConfig

structure Surroundings where
  files : FileSystem := {}
  vars : List (String × String) := []
  moment : Nat := 0

namespace Surroundings

def value? (s : Surroundings) (name : String) : Option String := Assoc.get? name s.vars

def setVariable (s : Surroundings) (name value : String) : Surroundings :=
  { s with vars := Assoc.insert name value s.vars }

/-- The names under which the environment lists the active profiles; the first one present
counts. -/
def profileVariables : List String := ["seedstack.profiles", "SEEDSTACK_PROFILES"]

/-- The profiles that the environment switches on. -/
def profiles (s : Surroundings) : ProfileSet :=
  match profileVariables.findSome? s.value? with
  | some list => ProfileSet.parse list
  | none => .empty

end Surroundings

end LayeredConfig
