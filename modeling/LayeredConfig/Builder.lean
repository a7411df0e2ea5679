import LayeredConfig.DotEnv.File
import LayeredConfig.Resolver

/-! Putting a resolver together.

A builder collects sources in order, values set in the program and the active profiles.  Building
registers the sources one after the other and fails with the first that fails to load; the values
set in the program come last, above everything else. -/

namespace LayeredConfig

structure Builder where
  sources : List Source := []
  /-- The tree of the values set in the program, once there is one. -/
  runtime : Option Tree := none
  profiles : ProfileSet := .empty
  documents : Nat := 0

namespace Builder

def defaultsName : String := "defaults"

def runtimeName : String := "runtime"

def withSource (b : Builder) (s : Source) : Builder := { b with sources := b.sources ++ [s] }

def withDefaults (b : Builder) (t : Tree) : Builder :=
  b.withSource (.ofTree defaultsName t Priority.defaults)

/-- A file that must exist when it is added. -/
def withFileAt (b : Builder) (files : FileSystem) (path : String) (priority : Priority) :
    Except ConfigError Builder :=
  if files.exists? path then do
    let _ ← Document.formatOfFile path
    return b.withSource (.ofFile path priority)
  else .error (.fileNotFound path)

def withFile (b : Builder) (files : FileSystem) (path : String) : Except ConfigError Builder :=
  b.withFileAt files path Priority.file

/-- A file that may be absent. -/
def withOptionalFile (b : Builder) (path : String) : Except ConfigError Builder := do
  let _ ← Document.formatOfFile path
  return b.withSource (Source.ofFile path Priority.file).optional

/-- A document in text, numbered in the order in which they are added. -/
def withDocument (b : Builder) (env : Surroundings) (content format : String) :
    Except ConfigError Builder := do
  let format ← Document.formatOf format
  let s := Source.ofDocument ("string:" ++ toString b.documents) content format Priority.file
  let _ ← s.loadMap env
  return { b.withSource s with documents := b.documents + 1 }

def withVariables (b : Builder) (name : String) : Builder :=
  b.withSource (.ofVariables name Priority.environment)

def withProfiles (b : Builder) (profiles : ProfileSet) : Builder := { b with profiles }

/-- A value set in the program. -/
def withRuntimeValue (b : Builder) (expression : String) (v : Tree) :
    Except ConfigError Builder := do
  let path ← Config.path expression
  match Tree.set v path (b.runtime.getD .empty) with
  | (t, .ok ()) => return { b with runtime := some t }
  | (_, .error fault) => .error (.invalidPath path.display (.edit fault))

/-- The resolver with every source registered. -/
def build (b : Builder) (env : Surroundings) : Except ConfigError Resolver := do
  let r ← b.sources.foldlM (fun r s => Resolver.registerSource r env s) (.new b.profiles)
  return match b.runtime with
    | some t => r.register runtimeName t Priority.runtime
    | none => r

def load (b : Builder) (env : Surroundings) : Except ConfigError Config := do
  return (← b.build env).resolve

end Builder

/-- The file that variables are loaded from. -/
def Surroundings.variableFile : String := ".env"

/-- The surroundings with the variables of the variable file, if there is one. -/
def Surroundings.loadVariableFile (s : Surroundings) : Except ConfigError Surroundings :=
  match s.files.lookup Surroundings.variableFile with
  | some (.file _) =>
    match (s.files.read? Surroundings.variableFile).bind (DotEnv.load s.vars) with
    | some vars => .ok { s with vars }
    | none => .error .malformedVariables
  | _ => .ok s

end LayeredConfig
