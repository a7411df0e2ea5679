import LayeredConfig.Binding.Error
import LayeredConfig.Format
import LayeredConfig.Path.Expression
import LayeredConfig.Tree.Edit

/-! What can go wrong with a configuration, by cause, and how it is told. -/

namespace LayeredConfig

/-- Why an expression cannot be used as a path: it is none, or nothing can be stored there. -/
inductive PathFault where
  | expression (fault : ExpressionFault)
  | edit (fault : EditFault)
  deriving DecidableEq, Repr

def PathFault.message : PathFault → String
  | expression fault => fault.message
  | edit fault => fault.message

/-- What a section says that it must not. -/
inductive SectionFault where
  | blankName
  | spacedId (id : String)
  | blankLevel
  deriving DecidableEq, Repr

def SectionFault.message : SectionFault → String
  | blankName => "application.name must not be blank"
  | spacedId id => "application.id must not contain whitespace: '" ++ id ++ "'"
  | blankLevel => "logging.level must not be blank"

inductive ConfigError where
  | fileNotFound (path : String)
  | unreadable (path : String)
  /-- A document that its format does not allow. -/
  | malformed (format : Format)
  | unsupportedFormat (name : String)
  | invalidPath (path : String) (fault : PathFault)
  | missingPath (path : String)
  | invalidValue (path : String) (cause : BindError)
  /-- A file of environment variables that cannot be read or is not written as one. -/
  | malformedVariables
  | unknownSource (name : String)
  | invalidSection (fault : SectionFault)
  | rootNotMap (source : String) (found : Kind)
  | nothingToWatch
  | missingDirectory (directory : String)
  deriving DecidableEq, Repr

namespace ConfigError

/-- The wording of an error; the reasons that a document reader gives are not part of it. -/
def message : ConfigError → String
  | fileNotFound path => "configuration file not found: " ++ path
  | unreadable path => "failed to read configuration file: " ++ path
  | malformed .toml => "failed to parse TOML configuration"
  | malformed .json => "failed to parse JSON configuration"
  | malformed .yaml => "failed to parse YAML configuration"
  | unsupportedFormat name => "unsupported configuration format: " ++ name
  | invalidPath path fault => "invalid configuration path '" ++ path ++ "': " ++ fault.message
  | missingPath path => "missing configuration value at '" ++ path ++ "'"
  | invalidValue path cause => "invalid configuration value at '" ++ path ++ "': " ++ cause.message
  | malformedVariables => "failed to parse environment variable .env"
  | unknownSource name => "unknown configuration source: " ++ name
  | invalidSection fault => "configuration validation failed: " ++ fault.message
  | rootNotMap source found =>
    "invalid configuration: source '" ++ source ++ "' must have a map at its root, found " ++
      found.name
  | nothingToWatch => "invalid configuration: no sources configured for watcher"
  | missingDirectory directory => "I/O error: directory does not exist: " ++ directory

end ConfigError

end LayeredConfig
