import LayeredConfig.Text.CaseTable
import LayeredConfig.Text.ClassTable

/-! Letter case and letter classes, by the full Unicode mappings.

Upper case maps letter by letter.  Lower case does too, except for the capital sigma, whose form
depends on whether it ends a word. -/

namespace LayeredConfig.Text

/-- Whether the code point lies in one of the ranges. -/
def inRanges (ranges : List (Nat × Nat)) (n : Nat) : Bool :=
  ranges.any fun r => r.1 ≤ n && n ≤ r.2

/-- A letter or a number of any script. -/
def isAlphanumeric (c : Char) : Bool :=
  if c.toNat < 0x80 then c.isAlphanum else inRanges alphanumericRanges c.toNat

/-- The code point that a run gives for `n`, if one covers it. -/
def shifted? (runs : List (Nat × Nat × Nat × Int)) (n : Nat) : Option Nat :=
  (runs.find? fun (first, last, step, _) => first ≤ n && n ≤ last && (n - first) % step = 0).map
    fun (_, _, _, shift) => (n + shift).toNat

/-- The mapping given by several-letter forms and by runs; other letters stay. -/
def mapped (sequences : List (Nat × List Nat)) (runs : List (Nat × Nat × Nat × Int))
    (c : Char) : List Char :=
  match sequences.lookup c.toNat with
  | some ns => ns.map Char.ofNat
  | none =>
    match shifted? runs c.toNat with
    | some n => [Char.ofNat n]
    | none => [c]

/-- The upper-case form of one letter. -/
def upperChar (c : Char) : List Char :=
  if c.toNat < 0x80 then [c.toUpper] else mapped upperSequences upperRuns c

/-- The lower-case form of one letter, out of context. -/
def lowerChar (c : Char) : List Char :=
  if c.toNat < 0x80 then [c.toLower] else mapped lowerSequences lowerRuns c

def upper (s : String) : String := String.ofList (s.toList.flatMap upperChar)

/-- Whether the first letter that is not case-ignorable is cased. -/
def nextIsCased (cs : List Char) : Bool :=
  match cs.dropWhile fun c => inRanges caseIgnorableRanges c.toNat with
  | [] => false
  | c :: _ => inRanges casedRanges c.toNat

/-- Lower case with the letters before, nearest first, as context: a capital sigma becomes the
final form when a cased letter precedes and none follows. -/
def lowerAfter (before : List Char) : List Char → List Char
  | [] => []
  | c :: cs =>
    let form :=
      if c = 'Σ' then (if nextIsCased before && !nextIsCased cs then ['ς'] else ['σ'])
      else lowerChar c
    form ++ lowerAfter (c :: before) cs

def lower (s : String) : String := String.ofList (lowerAfter [] s.toList)

/-! ## Examples -/

example : upper "straße" = "STRASSE" := by decide +kernel

example : lower "ΑΣ ΣΑ" = "ας σα" := by decide +kernel

end LayeredConfig.Text
