/-! The letters of a file path.

A path is read as components between slashes.  Repeated slashes, a slash at the end and a dot that
is not in front carry no component.  The extension of a file is what follows the last dot of its
name, unless the name only starts with that dot. -/

namespace LayeredConfig.FileName

/-- A component of a file path. -/
inductive Component where
  | root
  | current
  | parent
  | normal (name : List Char)
  deriving DecidableEq, Repr

/-- The component that the letters between two slashes stand for. -/
def component? (front : Bool) : List Char → Option Component
  | [] => none
  | ['.'] => if front then some .current else none
  | ['.', '.'] => some .parent
  | name => some (.normal name)

/-- The components of a path. -/
def components (path : List Char) : List Component :=
  match path with
  | '/' :: rest => .root :: (rest.splitOn '/').filterMap (component? false)
  | _ =>
    match path.splitOn '/' with
    | [] => []
    | first :: rest => (component? true first).toList ++ rest.filterMap (component? false)

/-- The name of the file or directory that a path ends with. -/
def last? (path : List Char) : Option (List Char) :=
  match (components path).getLast? with
  | some (.normal name) => some name
  | _ => none

/-- What follows the last dot of a name. -/
def extensionOf? (name : List Char) : Option (List Char) :=
  let back := name.reverse
  let ext := back.takeWhile (· ≠ '.')
  match back.dropWhile (· ≠ '.') with
  | _ :: _ :: _ => some ext.reverse
  | _ => none

def extension? (path : String) : Option String :=
  ((last? path.toList).bind extensionOf?).map String.ofList

/-- The text without slashes, and dots between slashes, at its end.  The letters are given and
returned last first. -/
def trimBack : List Char → List Char
  | '/' :: rest => if rest = [] then ['/'] else trimBack rest
  | '.' :: '/' :: rest => trimBack ('/' :: rest)
  | cs => cs

/-- The directory part of a path as written; a path of one component lies in the current
directory. -/
def directory (path : String) : String :=
  let back := trimBack path.toList.reverse
  match trimBack (back.dropWhile (· ≠ '/')) with
  | [] => "."
  | dir => if components path.toList = [.root] then "." else String.ofList dir.reverse

end LayeredConfig.FileName
