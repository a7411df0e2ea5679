import LayeredConfig.Assoc
import LayeredConfig.Files.Name

/-! Files, directories and links, and the places that paths lead to.

A place is the names that lead to it from the root.  A path is followed name by name, from the root
or from the working directory; every name but the last must lead to a directory, and a link on the
way leads on to its own path, read from where the link lies.  The working directory and the
directories above it are always there. -/

namespace LayeredConfig

/-- A place in the file system: the names on the way to it from the root. -/
abbrev Place := List String

/-- What a name of a directory stands for. -/
inductive FileEntry where
  | directory
  | file (content : List UInt8)
  | link (path : String)
  deriving DecidableEq, Repr

/-- The working directory, and the entries by their places. -/
structure FileSystem where
  here : Place := []
  entries : List (Place × FileEntry) := []

namespace FileSystem

def entry? (fs : FileSystem) (p : Place) : Option FileEntry :=
  if p <+: fs.here then some .directory else Assoc.get? p fs.entries

def isDirectoryAt (fs : FileSystem) (p : Place) : Bool := fs.entry? p = some .directory

/-- Where a path starts when it is read at a place, and the letters between its slashes. -/
def stepsFrom (p : Place) (path : String) : Place × List (List Char) :=
  match path.toList with
  | '/' :: rest => ([], rest.splitOn '/')
  | cs => (p, cs.splitOn '/')

/-- The place reached from `p` by the letters between slashes, all but the last of them leading to
directories; `jump` goes on where a link leads to. -/
def walk (fs : FileSystem) (jump : Place → List (List Char) → Option Place) (p : Place) :
    List (List Char) → Option Place
  | [] => some p
  | step :: steps =>
    if fs.isDirectoryAt p then
      match FileName.component? false step with
      | some .parent => walk fs jump p.dropLast steps
      | some (.normal name) =>
        let q := p ++ [String.ofList name]
        match fs.entry? q with
        | some (.link path) =>
          let (start, front) := stepsFrom p path
          jump start (front ++ steps)
        | _ => walk fs jump q steps
      | _ => walk fs jump p steps
    else none

/-- The place reached from `p` by the letters between slashes, over so many links at most. -/
def follow (fs : FileSystem) : Nat → Place → List (List Char) → Option Place
  | 0 => fs.walk fun _ _ => none
  | links + 1 => fs.walk (fs.follow links)

/-- How many links a path may lead over. -/
def maxLinks : Nat := 40

/-- The place that a path leads to, whether or not something is there. -/
def locate? (fs : FileSystem) (path : String) : Option Place :=
  if path = "" then none
  else
    let (start, steps) := stepsFrom fs.here path
    fs.follow maxLinks start steps

/-- What a path leads to. -/
def lookup (fs : FileSystem) (path : String) : Option FileEntry :=
  (fs.locate? path).bind fs.entry?

def exists? (fs : FileSystem) (path : String) : Bool := (fs.lookup path).isSome

def isDirectory (fs : FileSystem) (path : String) : Bool := fs.lookup path = some .directory

/-- The place of what is there, the same for every path that leads to it. -/
def canonical? (fs : FileSystem) (path : String) : Option Place :=
  (fs.locate? path).filter fun p => (fs.entry? p).isSome

/-- The text of a file; `none` for a directory and for bytes that are no text. -/
def read? (fs : FileSystem) (path : String) : Option String :=
  match fs.lookup path with
  | some (.file content) => String.fromUTF8? ⟨content.toArray⟩
  | _ => none

/-- The place of a path on whose way there are no links. -/
def place (fs : FileSystem) (path : String) : Place :=
  (FileName.components path.toList).foldl (fun p c =>
    match c with
    | .root => []
    | .current => p
    | .parent => p.dropLast
    | .normal name => p ++ [String.ofList name]) fs.here

def put (fs : FileSystem) (p : Place) (e : FileEntry) : FileSystem :=
  { fs with entries := Assoc.insert p e fs.entries }

/-- The file system with a directory at a place and at every place above it. -/
def putDirectories (fs : FileSystem) (p : Place) : FileSystem :=
  (List.range (p.length + 1)).foldl (fun fs n => fs.put (p.take n) .directory) fs

def makeDirectory (fs : FileSystem) (path : String) : FileSystem :=
  fs.putDirectories (fs.place path)

def writeFile (fs : FileSystem) (path : String) (content : List UInt8) : FileSystem :=
  (fs.putDirectories (fs.place path).dropLast).put (fs.place path) (.file content)

/-- The file system without a file; directories stay. -/
def removeFile (fs : FileSystem) (path : String) : FileSystem :=
  match fs.lookup path with
  | some (.file _) => { fs with entries := Assoc.erase (fs.place path) fs.entries }
  | _ => fs

end FileSystem

end LayeredConfig
