import LayeredConfig.Text.Blank

/-! Settings of the log, and starting it.

There is one log for the whole process.  Starting a log that is switched off does nothing.
Otherwise its level must be a filter, and the log is installed unless one is running already.  Which
texts are filters is for the process to say. -/

namespace LayeredConfig.Logging

inductive LogError where
  /-- The level is no filter. -/
  | badFilter
  | alreadyRunning
  | blankLevel
  /-- The settings hold a level that is no filter. -/
  | badLevel
  deriving DecidableEq, Repr

/-- The wording of an error; what the filter says about its text is not part of it. -/
def LogError.message : LogError → String
  | badFilter => "Failed to initialize logging"
  | alreadyRunning => "Logging is already initialized"
  | blankLevel => "Invalid configuration: log level must not be blank"
  | badLevel => "Invalid configuration"

structure Settings where
  enabled : Bool := true
  level : String := "info"
  jsonFormat : Bool := true
  ansi : Bool := false
  spanEvents : Bool := false
  fileLineInfo : Bool := false
  threadIds : Bool := false
  includeTarget : Bool := true
  serviceName : String := "seedstack"
  deriving DecidableEq, Repr

namespace Settings

/-- Settings for work at a terminal. -/
def development : Settings where
  level := "debug"
  jsonFormat := false
  ansi := true
  spanEvents := true
  fileLineInfo := true

def production : Settings := {}

end Settings

/-- The log that a process has: none, one that was started with settings, or one of another make. -/
inductive Running where
  | nothing
  | started (s : Settings)
  | other
  deriving DecidableEq, Repr

/-- A process, as far as its log goes: which texts are filters, and the log that it has. -/
structure Host where
  isFilter : String → Bool
  running : Running := .nothing

namespace Settings

def validate (s : Settings) (host : Host) : Except LogError Unit :=
  if Text.isBlankText s.level then .error .blankLevel
  else if host.isFilter s.level then .ok ()
  else .error .badLevel

/-- The filter of the level. -/
def filter (s : Settings) (host : Host) : Except LogError Unit :=
  if host.isFilter s.level then .ok () else .error .badFilter

/-- The process with the log installed, when it has none; a log that is running is never replaced. -/
def install (s : Settings) (host : Host) : Except LogError Host :=
  match host.running with
  | .nothing => .ok { host with running := .started s }
  | _ => .error .alreadyRunning

/-- The process with the log started; one that is switched off leaves it as it is. -/
def start (s : Settings) (host : Host) : Except LogError Host :=
  if s.enabled then do
    s.filter host
    s.install host
  else .ok host

/-- Starting the log when it does not matter whether one is running. -/
def ensureStarted (s : Settings) (host : Host) : Except LogError Host := do
  s.validate host
  match s.start host with
  | .error .alreadyRunning => .ok host
  | outcome => outcome

end Settings

end LayeredConfig.Logging
