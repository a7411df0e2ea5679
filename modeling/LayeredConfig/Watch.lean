import LayeredConfig.Error
import LayeredConfig.Surroundings

/-! What a watcher of files looks at.

Every watched file lies in a directory that must exist; the file itself need not.  A target is the
path of its directory, free of links and dots, with its name at the end: it is the same however the
way to the directory is written.  Of two sources with one target the later is told. -/

namespace LayeredConfig.Watch

/-- A watched path, by its components. -/
structure Target where
  components : List FileName.Component
  deriving DecidableEq, Repr

namespace Target

/-- The path of a directory as it is found, or as it is written when it is not there. -/
def directory (files : FileSystem) (path : String) : List FileName.Component :=
  match files.canonical? path with
  | some p => .root :: p.map fun name => .normal name.toList
  | none => FileName.components path.toList

/-- The directory of a path, and the name that the path ends with, if it ends with one. -/
def ofPath (files : FileSystem) (path : String) : Target where
  components :=
    directory files (FileName.directory path) ++
      (FileName.last? path.toList).toList.map .normal

end Target

/-- The watched files, each with the source to tell. -/
def targets (files : FileSystem) (sources : List (String × String)) :
    Except ConfigError (List (Target × String)) :=
  match sources.find? fun s => !files.isDirectory (FileName.directory s.2) with
  | some s => .error (.missingDirectory (FileName.directory s.2))
  | none =>
    if sources = [] then .error .nothingToWatch
    else .ok (sources.foldl (fun acc s => Assoc.insert (Target.ofPath files s.2) s.1 acc) [])

/-- The sources that are told of changes, one for each target, ascending. -/
def watchedSources (files : FileSystem) (sources : List (String × String)) :
    Except ConfigError (List String) :=
  (targets files sources).map fun ts => (ts.map Prod.snd).mergeSort fun a b => decide (a ≤ b)

end LayeredConfig.Watch
