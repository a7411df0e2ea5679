import LayeredConfig.Files.Name
import LayeredConfig.Text.Case

/-! Document formats, and the file extensions that stand for them. -/

namespace LayeredConfig

inductive Format where
  | toml
  | json
  | yaml
  deriving DecidableEq, Repr

namespace Format

def name : Format → String
  | toml => "toml"
  | json => "json"
  | yaml => "yaml"

/-- The format that an extension stands for, in any letter case. -/
def ofExtension? (extension : String) : Option Format :=
  match Text.lower extension with
  | "toml" => some toml
  | "json" => some json
  | "yaml" => some yaml
  | "yml" => some yaml
  | _ => none

def ofFile? (path : String) : Option Format := (FileName.extension? path).bind ofExtension?

end Format

end LayeredConfig
