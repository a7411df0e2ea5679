import LayeredConfig.Tree.Basic
import LayeredConfig.Yaml.Block
import LayeredConfig.Yaml.Graph

/-! Reading YAML documents into trees.

Mappings become maps and sequences arrays; tags are dropped.  Every scalar becomes text, nothing
being the empty text, and so does every key; a key that is a collection becomes its block form.  Of
two keys with one text the later value stays, at the first position. -/

namespace LayeredConfig.Yaml

namespace Value

/-- The text of a key. -/
def keyText : Value → String
  | null => ""
  | bool b => if b then "true" else "false"
  | number n => n.text
  | text s => s
  | tagged _ v => keyText v
  | v => Text.trimmed v.block

mutual

def tree : Value → Tree
  | null => .value ""
  | bool b => .value (if b then "true" else "false")
  | number n => .value n.text
  | text s => .value s
  | sequence vs => .array (treesOfItems vs)
  | mapping es => .ofEntries (treesOfEntries es)
  | tagged _ v => tree v

def treesOfItems : List Value → List Tree
  | [] => []
  | v :: vs => tree v :: treesOfItems vs

def treesOfEntries : List (Value × Value) → List (String × Tree)
  | [] => []
  | (k, v) :: es => (keyText k, tree v) :: treesOfEntries es

end

end Value

/-- The value of a document. -/
def readValue (content : String) : Option Value := do
  let letters ← lettersOf? content
  let tokens ← Token.ofLetters? letters
  let events ← Event.ofTokens? tokens
  (← Graph.ofEvents? events).value?

/-- The tree of a document. -/
def read (content : String) : Option Tree := (readValue content).map Value.tree

end LayeredConfig.Yaml
