import LayeredConfig.Tree.Basic

/-! Why a tree does not bind to a shape. -/

namespace LayeredConfig

inductive BindError where
  /-- Text that is not written form of a value. -/
  | unparsable (text expected : String)
  /-- A tree of the wrong kind. -/
  | mismatch (expected : String) (found : Kind)
  | missingField (name : String)
  | duplicateField (name : String)
  | unknownField (name : String) (known : List String)
  | unknownVariant (name : String) (known : List String)
  | tooShort (length : Nat) (expected : String)
  /-- A bare variant name where the variant has contents. -/
  | bareVariant (expected : String)
  | unsupported (type : String)
  deriving DecidableEq, Repr

namespace BindError

/-- A name between backquotes. -/
def quoted (name : String) : String := "`" ++ name ++ "`"

/-- The names that would have been known: one, two, or a list of more. -/
def oneOf : List String → String
  | [] => "there are no names"
  | [a] => "expected " ++ quoted a
  | [a, b] => "expected " ++ quoted a ++ " or " ++ quoted b
  | names => "expected one of " ++ String.intercalate ", " (names.map quoted)

def message : BindError → String
  | unparsable text expected => "cannot parse '" ++ text ++ "' as " ++ expected
  | mismatch expected found => "expected " ++ expected ++ ", found " ++ found.name
  | missingField name => "missing field " ++ quoted name
  | duplicateField name => "duplicate field " ++ quoted name
  | unknownField name known => "unknown field " ++ quoted name ++ ", " ++ oneOf known
  | unknownVariant name known => "unknown variant " ++ quoted name ++ ", " ++ oneOf known
  | tooShort n expected => "invalid length " ++ toString n ++ ", expected " ++ expected
  | bareVariant expected => "invalid type: unit variant, expected " ++ expected
  | unsupported type => type ++ " is not supported"

end BindError

end LayeredConfig
