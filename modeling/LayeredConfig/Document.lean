import LayeredConfig.Error
import LayeredConfig.Json.Reader
import LayeredConfig.Surroundings
import LayeredConfig.Toml.Reader
import LayeredConfig.Yaml.Reader

/-! Documents in one of the formats, in text or in a file.

A document whose tree is the empty value is an empty tree. -/

namespace LayeredConfig.Document

/-- The tree that the reader of a format makes of a text. -/
def readAs (format : Format) (content : String) : Option Tree :=
  match format with
  | .toml => Toml.read content
  | .json => Json.read content
  | .yaml => Yaml.read content

def parse (format : Format) (content : String) : Except ConfigError Tree :=
  match readAs format content with
  | none => .error (.malformed format)
  | some (.value s) => .ok (if s = "" then .empty else .value s)
  | some t => .ok t

/-- The format that a name stands for. -/
def formatOf (name : String) : Except ConfigError Format :=
  match Format.ofExtension? name with
  | some format => .ok format
  | none => .error (.unsupportedFormat name)

/-- The format that the extension of a file stands for. -/
def formatOfFile (path : String) : Except ConfigError Format :=
  match Format.ofFile? path with
  | some format => .ok format
  | none => .error (.unsupportedFormat path)

/-- The tree of a file. -/
def load (files : FileSystem) (path : String) : Except ConfigError Tree :=
  if files.exists? path then do
    let format ← formatOfFile path
    match files.read? path with
    | some content => parse format content
    | none => .error (.unreadable path)
  else .error (.fileNotFound path)

end LayeredConfig.Document
