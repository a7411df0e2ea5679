import LayeredConfig.Tree.Basic

/-! Tables of a TOML document while it is read.

A table comes to be in one of three ways: by a header of its own, on the way to the table of another
header, or by a dotted key.  What may still be added to it depends on that.  A table of the first
kind is complete; one of the second kind can still get a header of its own; one of the third kind
grows by further dotted keys. -/

namespace LayeredConfig.Toml

/-- How a table came to be. -/
inductive Standing where
  | opened
  | implied
  | dotted
  deriving DecidableEq, Repr

/-- What a key of a table stands for. -/
inductive Item where
  | leaf (t : Tree)
  | table (standing : Standing) (entries : List (String × Item))
  /-- An array of tables, one for each header. -/
  | tables (elements : List (List (String × Item)))

abbrev Entries := List (String × Item)

namespace Entries

mutual

def treeOf : Item → Tree
  | .leaf t => t
  | .table _ es => .map (treesOf es)
  | .tables tss => .array (elementsOf tss)

def treesOf : List (String × Item) → List (String × Tree)
  | [] => []
  | (k, i) :: es => (k, treeOf i) :: treesOf es

def elementsOf : List (List (String × Item)) → List Tree
  | [] => []
  | es :: ess => .map (treesOf es) :: elementsOf ess

end

/-- The tree of a table. -/
def tree (es : Entries) : Tree := .map (treesOf es)

/-- A value stored under a dotted key.  The table that takes it must have come from a dotted key
too, unless the key has no dot; the key must be new. -/
def assign (v : Tree) : List String → Entries → Option Entries
  | [], _ => none
  | [k], es => if (Assoc.get? k es).isSome then none else some (es ++ [(k, .leaf v)])
  | k :: ks, es =>
    match Assoc.get? k es with
    | none => (assign v ks []).map fun inner => es ++ [(k, .table .dotted inner)]
    | some (.table .dotted inner) =>
      (assign v ks inner).map fun inner => Assoc.insert k (.table .dotted inner) es
    | some (.table .implied inner) =>
      if ks.length = 1 then none
      else (assign v ks inner).map fun inner => Assoc.insert k (.table .implied inner) es
    | some (.tables elements) =>
      if ks.length = 1 then none
      else do
        let inner ← assign v ks (← elements.getLast?)
        return Assoc.insert k (.tables (elements.dropLast ++ [inner])) es
    | some _ => none

/-- A change of the table that keys lead to; missing tables on the way come to be. -/
def within (change : Entries → Option Entries) : List String → Entries → Option Entries
  | [], es => change es
  | k :: ks, es =>
    match Assoc.get? k es with
    | none => (within change ks []).map fun inner => es ++ [(k, .table .implied inner)]
    | some (.table standing inner) =>
      (within change ks inner).map fun inner => Assoc.insert k (.table standing inner) es
    | some (.tables elements) => do
      let inner ← within change ks (← elements.getLast?)
      return Assoc.insert k (.tables (elements.dropLast ++ [inner])) es
    | some (.leaf _) => none

/-- A value under a key, as a line of a document gives it. -/
abbrev Assignment := List String × Tree

/-- The entries after assignments. -/
def assignAll (es : Entries) (assignments : List Assignment) : Option Entries :=
  assignments.foldlM (fun es a => assign a.2 a.1 es) es

/-- The table of a header with its assignments.  It takes over what an implied table held, and comes
last. -/
def openTable (k : String) (assignments : List Assignment) (es : Entries) : Option Entries :=
  match Assoc.get? k es with
  | none => (assignAll [] assignments).map fun inner => es ++ [(k, .table .opened inner)]
  | some (.table .implied inner) =>
    (assignAll inner assignments).map fun inner => Assoc.erase k es ++ [(k, .table .opened inner)]
  | some _ => none

/-- One more table in the array of a header. -/
def openElement (k : String) (assignments : List Assignment) (es : Entries) : Option Entries :=
  match Assoc.get? k es with
  | none => (assignAll [] assignments).map fun inner => es ++ [(k, .tables [inner])]
  | some (.tables elements) =>
    (assignAll [] assignments).map fun inner => Assoc.insert k (.tables (elements ++ [inner])) es
  | some _ => none

end Entries

end LayeredConfig.Toml
