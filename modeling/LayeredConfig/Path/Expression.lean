import LayeredConfig.Decimal.Digits
import LayeredConfig.Path.Basic
import LayeredConfig.Text.Blank

/-! Path expressions.

The empty expression is the root.  Otherwise dots separate parts, and a part is a key followed by
any number of indices in brackets, such as the part `ports[0][1]`.  Blanks around an index and a
plus sign before it are allowed, and an index fits 64 bits. -/

namespace LayeredConfig

/-- Why an expression is not a path. -/
inductive ExpressionFault where
  | emptyKey
  | unclosed
  | notAnIndex (text : String)
  | trailingText
  deriving DecidableEq, Repr

def ExpressionFault.message : ExpressionFault → String
  | emptyKey => "empty key segment"
  | unclosed => "unclosed '['"
  | notAnIndex text => "invalid array index '" ++ text ++ "'"
  | trailingText => "unexpected text after ']'"

namespace Path

/-- The kind of number that an index is. -/
def indexKind : Decimal.IntKind := ⟨false, 64⟩

/-- The number between two brackets. -/
def readIndex? (text : List Char) : Option Nat :=
  (indexKind.read? (Text.trim text)).map Int.toNat

/-- The indices after a key, from the first bracket to the end of the part. -/
def parseIndices : List Char → Except ExpressionFault Path
  | [] => .ok []
  | c :: cs =>
    if c ≠ '[' then .error .trailingText
    else
      match h : cs.dropWhile (· ≠ ']') with
      | [] => .error .unclosed
      | _ :: rest =>
        have shorter : rest.length < (c :: cs).length := by
          have le := (List.dropWhile_sublist (l := cs) (· ≠ ']')).length_le
          rw [h, List.length_cons] at le
          rw [List.length_cons]
          omega
        let text := cs.takeWhile (· ≠ ']')
        match readIndex? text with
        | none => .error (.notAnIndex (String.ofList text))
        | some i => (parseIndices rest).map (.index i :: ·)
termination_by cs => cs.length
decreasing_by exact shorter

/-- One part between dots: a key and its indices. -/
def parsePart (part : List Char) : Except ExpressionFault Path :=
  let name := part.takeWhile (· ≠ '[')
  if name = [] then .error .emptyKey
  else (parseIndices (part.dropWhile (· ≠ '['))).map (.key (String.ofList name) :: ·)

def parseParts : List (List Char) → Except ExpressionFault Path
  | [] => .ok []
  | part :: parts => do
    let front ← parsePart part
    let rest ← parseParts parts
    return front ++ rest

/-- The path that an expression denotes. -/
def parse (expression : String) : Except ExpressionFault Path :=
  if expression.toList = [] then .ok [] else parseParts (expression.toList.splitOn '.')

end Path

end LayeredConfig
