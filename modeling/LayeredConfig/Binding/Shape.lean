import LayeredConfig.Binding.Bound
import LayeredConfig.Decimal.Digits

/-! Shapes: what a tree can be bound to.

A shape is data, so that binding is one total function and the shapes of sections are plain
definitions. -/

namespace LayeredConfig

/-- What a record says about one of its fields: its names, the first one leading, and what it is
bound to when the map has none of them. -/
structure FieldInfo where
  name : String
  aliases : List String := []
  fallback : Option Bound := none
  deriving Repr

/-- What the variant of an enumeration carries. -/
inductive Carries where
  | nothing
  | one
  | several
  | fields
  deriving DecidableEq, Repr

inductive Shape where
  | bool
  | int (kind : Decimal.IntKind)
  /-- A type of integers that binding does not know. -/
  | unsupported (name : String)
  | float (width : Decimal.Width)
  | char
  | text
  | bytes
  | unit
  /-- Any tree, as a JSON value. -/
  | json
  | option (s : Shape)
  | list (s : Shape)
  | set (s : Shape)
  | array (n : Nat) (s : Shape)
  /-- A fixed number of values; `expected` tells how many there should have been. -/
  | tuple (expected : String) (ss : List Shape)
  | map (key value : Shape)
  /-- A map that keeps the order of its keys. -/
  | ordered (key value : Shape)
  | record (strict : Bool) (fields : List (FieldInfo × Shape))
  | enumeration (variants : List (String × Carries × Shape))

namespace Shape

/-- A tuple without a name of its own. -/
def tupleOf (ss : List Shape) : Shape := tuple ("a tuple of size " ++ toString ss.length) ss

def i32 : Shape := int ⟨true, 32⟩
def u8 : Shape := int ⟨false, 8⟩
def u16 : Shape := int ⟨false, 16⟩
def u32 : Shape := int ⟨false, 32⟩

end Shape

end LayeredConfig
