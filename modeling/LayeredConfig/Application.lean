import LayeredConfig.Builder
import LayeredConfig.Logging.Settings
import LayeredConfig.Section
import LayeredConfig.Watch

/-! A running application: a resolver, an identifier of its own and the published configuration.

Starting registers the identifier as one more source at the greatest priority and publishes what the
resolver resolves to.  Every successful change publishes again; a change that fails leaves
everything as it was.  A fork starts anew from a copy of the resolver. -/

namespace LayeredConfig

inductive ApplicationError where
  | config (cause : ConfigError)
  | logging (cause : Logging.LogError)
  deriving DecidableEq, Repr

def ApplicationError.message : ApplicationError → String
  | config cause => "Configuration error: " ++ cause.message
  | logging cause => "Telemetry error: " ++ cause.message

/-- The identifier of one running application, as text. -/
structure InstanceId where
  text : String
  deriving DecidableEq, Repr

structure Application where
  resolver : Resolver
  config : Config
  id : InstanceId

namespace Application

/-- The name of the source that holds the identifier. -/
def instanceSource : String := "runtime:instance"

/-- The path of the identifier in the configuration. -/
def instancePath : Path := [.key "runtime", .key "instance-id"]

/-- The tree that holds an identifier. -/
def instanceTree (id : InstanceId) : Tree :=
  .map [("runtime", .map [("instance-id", .value id.text)])]

/-- The application of a resolver under a fresh identifier. -/
def start (r : Resolver) (id : InstanceId) : Application :=
  let r := r.register instanceSource (instanceTree id) Priority.runtime
  ⟨r, r.resolve, id⟩

/-- The application with what the resolver resolves to now. -/
def publish (a : Application) (r : Resolver) : Application := ⟨r, r.resolve, a.id⟩

def sourceNames (a : Application) : List String := a.resolver.sourceNames

def applicationSection (a : Application) : Except ApplicationError ApplicationSection :=
  a.config.applicationSection.mapError .config

/-- A copy with an identifier of its own. -/
def fork (a : Application) (id : InstanceId) : Application := start a.resolver id

def setProfiles (a : Application) (profiles : ProfileSet) : Application :=
  a.publish (a.resolver.setProfiles profiles)

/-- The application with one source loaded again. -/
def reload (a : Application) (env : Surroundings) (name : String) :
    Except ApplicationError Application :=
  match a.resolver.reload env name with
  | .ok r => .ok (a.publish r)
  | .error e => .error (.config e)

/-- A change of a watched file. -/
inductive ChangeKind where
  | created
  | modified
  | removed
  | renamed
  deriving DecidableEq, Repr

structure SourceChange where
  source : String
  path : String
  kind : ChangeKind
  deriving DecidableEq, Repr

/-- Any change of a file loads its source again. -/
def applyChange (a : Application) (env : Surroundings) (change : SourceChange) :
    Except ApplicationError Application :=
  a.reload env change.source

/-- The sources that a watcher of the application's files tells of changes. -/
def watchedSources (a : Application) (env : Surroundings) :
    Except ApplicationError (List String) :=
  (Watch.watchedSources env.files a.resolver.watchedFiles).mapError .config

end Application

/-! ## Building -/

/-- The settings of the log that a section asks for. -/
def LoggingSection.settings (s : LoggingSection) (serviceName : String) : Logging.Settings where
  enabled := s.enabled
  level := s.level
  jsonFormat := s.format = .json
  ansi := s.ansi
  fileLineInfo := s.includeLocation
  serviceName := serviceName

/-- A builder of an application; `logging` says whether building starts the log. -/
structure ApplicationBuilder where
  config : Builder := {}
  logging : Bool := false

namespace ApplicationBuilder

/-- The process with the log started as the section asks. -/
def startLog (c : Config) (serviceName : String) (host : Logging.Host) :
    Except ApplicationError Logging.Host := do
  let s ← c.loggingSection.mapError .config
  s.validate.mapError .config
  ((s.settings serviceName).ensureStarted host).mapError .logging

/-- The application of the collected sources, when its sections are valid, and the process with the
log that building may start. -/
def build (b : ApplicationBuilder) (env : Surroundings) (host : Logging.Host) (id : InstanceId) :
    Except ApplicationError (Application × Logging.Host) := do
  let r ← (b.config.build env).mapError .config
  let a := Application.start r id
  let s ← a.applicationSection
  s.validate.mapError .config
  if b.logging then
    let host ← startLog a.config s.identifier host
    return (a, host)
  else return (a, host)

end ApplicationBuilder

end LayeredConfig
