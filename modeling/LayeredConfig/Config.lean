import LayeredConfig.Binding.Bind
import LayeredConfig.Error
import LayeredConfig.Json.Printer
import LayeredConfig.Processing
import LayeredConfig.Tree.Flatten

/-! A resolved configuration: one tree and the profiles under which it was resolved. -/

namespace LayeredConfig

structure Config where
  root : Tree := .empty
  profiles : ProfileSet := .empty

namespace Config

def empty : Config := {}

/-- The tree at an expression; an expression that is no path leads nowhere. -/
def get? (c : Config) (expression : String) : Option Tree :=
  match Path.parse expression with
  | .ok path => c.root.get? path
  | .error _ => none

def contains (c : Config) (expression : String) : Bool := (c.get? expression).isSome

def text? (c : Config) (expression : String) : Option String := (c.get? expression).bind Tree.text?

/-- The path of an expression. -/
def path (expression : String) : Except ConfigError Path :=
  match Path.parse expression with
  | .ok path => .ok path
  | .error fault => .error (.invalidPath expression (.expression fault))

/-- A tree bound to a shape, with its path in the error. -/
def bindAt (expression : String) (shape : Shape) (t : Tree) : Except ConfigError Bound :=
  match Binding.bind shape t with
  | .ok b => .ok b
  | .error cause => .error (.invalidValue expression cause)

/-- The tree at an expression, bound to a shape. -/
def getAs (c : Config) (expression : String) (shape : Shape) : Except ConfigError Bound := do
  match c.root.get? (← path expression) with
  | some t => bindAt expression shape t
  | none => .error (.missingPath expression)

/-- The tree at an expression, bound to a shape, or the default where nothing stands. -/
def getOr (c : Config) (expression : String) (shape : Shape) (fallback : Bound) :
    Except ConfigError Bound :=
  match c.getAs expression shape with
  | .error (.missingPath _) => .ok fallback
  | outcome => outcome

/-- A section of the tree, bound to a shape; an absent section is an empty one. -/
def bindSection (c : Config) (name : String) (shape : Shape) : Except ConfigError Bound := do
  bindAt name shape ((c.root.get? (← path name)).getD .empty)

def flatten (c : Config) : List (String × String) := c.root.flatten

def keys (c : Config) : List String := c.flatten.map Prod.fst

def toJson (c : Config) : String := Json.pretty c.root

end Config

end LayeredConfig
