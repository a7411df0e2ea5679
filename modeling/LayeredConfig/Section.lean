import LayeredConfig.Config

/-! The sections that every application has.

The section `application` names the application; `logging` sets its log.  Each is bound as a record
whose fields all have defaults, and each says what a valid section must not hold. -/

namespace LayeredConfig

/-- The text of a bound value. -/
def Bound.asText : Bound → String
  | .text s => s
  | _ => ""

def Bound.asBool : Bound → Bool
  | .bool b => b
  | _ => false

def Bound.asTexts : Bound → List String
  | .list bs => bs.map Bound.asText
  | _ => []

def Bound.asOption : Bound → Option Bound
  | .some b => Option.some b
  | _ => Option.none

/-- The field of a bound record. -/
def Bound.field (b : Bound) (name : String) : Bound :=
  match b with
  | .record fields => (Assoc.get? name fields).getD .none
  | _ => .none

/-! ## The application -/

structure ApplicationSection where
  name : String := "seedstack-app"
  id : Option String := none
  version : String := "0.0.0"
  basePackages : List String := []
  deriving DecidableEq, Repr

namespace ApplicationSection

def sectionName : String := "application"

def shape : Shape :=
  .record false [
    ({ name := "name", fallback := some (.text "seedstack-app") }, .text),
    ({ name := "id", fallback := some .none }, .option .text),
    ({ name := "version", fallback := some (.text "0.0.0") }, .text),
    ({ name := "base_packages", aliases := ["basePackages"], fallback := some (.list []) },
      .list .text)]

def ofBound (b : Bound) : ApplicationSection where
  name := (b.field "name").asText
  id := (b.field "id").asOption.map Bound.asText
  version := (b.field "version").asText
  basePackages := (b.field "base_packages").asTexts

/-- The identifier: the one given, or the name. -/
def identifier (s : ApplicationSection) : String := s.id.getD s.name

def validate (s : ApplicationSection) : Except ConfigError Unit :=
  if Text.isBlankText s.name then .error (.invalidSection .blankName)
  else if s.identifier.toList.any Text.isBlank then
    .error (.invalidSection (.spacedId s.identifier))
  else .ok ()

end ApplicationSection

/-! ## The log -/

inductive LogFormat where
  | json
  | pretty
  deriving DecidableEq, Repr

namespace LogFormat

def shape : Shape :=
  .enumeration [("json", .nothing, .unit), ("pretty", .nothing, .unit)]

def ofBound : Bound → LogFormat
  | .variant 1 _ _ => pretty
  | _ => json

def name : LogFormat → String
  | json => "json"
  | pretty => "pretty"

end LogFormat

structure LoggingSection where
  enabled : Bool := true
  level : String := "info"
  format : LogFormat := .json
  ansi : Bool := false
  includeLocation : Bool := false
  deriving DecidableEq, Repr

namespace LoggingSection

def sectionName : String := "logging"

def shape : Shape :=
  .record true [
    ({ name := "enabled", fallback := some (.bool true) }, .bool),
    ({ name := "level", fallback := some (.text "info") }, .text),
    ({ name := "format", fallback := some (.variant 0 "json" .unit) }, LogFormat.shape),
    ({ name := "ansi", fallback := some (.bool false) }, .bool),
    ({ name := "include_location", fallback := some (.bool false) }, .bool)]

def ofBound (b : Bound) : LoggingSection where
  enabled := (b.field "enabled").asBool
  level := (b.field "level").asText
  format := LogFormat.ofBound (b.field "format")
  ansi := (b.field "ansi").asBool
  includeLocation := (b.field "include_location").asBool

/-- A log that is switched on needs a level. -/
def validate (s : LoggingSection) : Except ConfigError Unit :=
  if s.enabled && Text.isBlankText s.level then .error (.invalidSection .blankLevel) else .ok ()

end LoggingSection

namespace Config

def applicationSection (c : Config) : Except ConfigError ApplicationSection :=
  (c.bindSection ApplicationSection.sectionName ApplicationSection.shape).map
    ApplicationSection.ofBound

def loggingSection (c : Config) : Except ConfigError LoggingSection :=
  (c.bindSection LoggingSection.sectionName LoggingSection.shape).map LoggingSection.ofBound

end Config

end LayeredConfig
