import LayeredConfig.Document
import LayeredConfig.Environment
import LayeredConfig.LayerStack

/-! Sources: named origins of a raw tree.

A source is a tree in memory, a document in text, the variables of the environment with a common
name, a file, or of a kind of its own, of which only its answers are known.  `load` fetches its
tree; `loadMap` also refuses a tree that is no map, because laid over others it would hide them all.
The priority is asked for whenever the source is registered; only a source of a kind of its own can
change it. -/

namespace LayeredConfig

/-- Where the tree of a source comes from. -/
inductive Origin where
  | tree (t : Tree)
  | document (format : Format) (content : String)
  | environment (name : String)
  | file (path : String) (isOptional : Bool)
  /-- Another kind of origin: what it answers, and the file that is behind it, if there is one. -/
  | custom (answer : Surroundings → Except ConfigError Tree) (path : Option String)

structure Source where
  name : String
  priority : Surroundings → Priority
  origin : Origin

namespace Source

def ofTree (name : String) (t : Tree) (priority : Priority) : Source :=
  ⟨name, fun _ => priority, .tree t⟩

def ofDocument (name content : String) (format : Format) (priority : Priority) : Source :=
  ⟨name, fun _ => priority, .document format content⟩

/-- The variables that start with a name; the source is named for it in upper case. -/
def ofVariables (name : String) (priority : Priority) : Source :=
  ⟨"env:" ++ Text.upper name, fun _ => priority, .environment (Text.upper name)⟩

def ofFile (path : String) (priority : Priority) : Source :=
  ⟨"file:" ++ path, fun _ => priority, .file path false⟩

/-- The same source with an absent file taken for an empty tree. -/
def optional (s : Source) : Source :=
  match s.origin with
  | .file path _ => { s with origin := .file path true }
  | _ => s

def named (s : Source) (name : String) : Source := { s with name }

/-- The file behind a source. -/
def file? (s : Source) : Option String :=
  match s.origin with
  | .file path _ => some path
  | .custom _ path => path
  | _ => none

def load (env : Surroundings) (s : Source) : Except ConfigError Tree :=
  match s.origin with
  | .tree t => .ok t
  | .document format content => Document.parse format content
  | .environment name => .ok (Environment.tree name env.vars)
  | .file path isOptional =>
    if isOptional && !env.files.exists? path then .ok .empty else Document.load env.files path
  | .custom answer _ => answer env

def loadMap (env : Surroundings) (s : Source) : Except ConfigError Tree := do
  let t ← s.load env
  if t.isMap then return t else .error (.rootNotMap s.name t.kind)

/-! ## Lemmas -/

theorem isMap_of_loadMap {env : Surroundings} {s : Source} {t : Tree}
    (h : s.loadMap env = .ok t) : t.isMap = true := by
  rw [loadMap] at h
  cases hl : s.load env with
  | error e => rw [hl] at h; cases h
  | ok u =>
    rw [hl] at h
    replace h : (if u.isMap then Except.ok u else .error (ConfigError.rootNotMap s.name u.kind)) =
        .ok t := h
    split at h
    · next hu => cases h; exact hu
    · cases h

end Source

end LayeredConfig
