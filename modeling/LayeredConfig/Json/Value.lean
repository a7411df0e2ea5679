import LayeredConfig.Tree.Basic

/-! Values of JSON documents.

A number is kept as its text.  The members of an object stand in the order in which their names
first came up, and no name comes up twice.

`Value.tree` is the tree of a value: numbers and truth values become their text, and `null` the
empty text.  `Value.ofTree` is the value that a tree is taken for: a text is a string, also when it
looks like a number, an array has the values of its items, and the entries of a map are taken one
after the other. -/

namespace LayeredConfig.Json

inductive Value where
  | null
  | bool (b : Bool)
  | number (text : String)
  | string (text : String)
  | array (items : List Value)
  | object (members : List (String × Value))
  deriving Repr

namespace Value

mutual

def tree : Value → Tree
  | null => .value ""
  | bool b => .value (if b then "true" else "false")
  | number s => .value s
  | string s => .value s
  | array vs => .array (treesOfItems vs)
  | object ms => .ofEntries (treesOfMembers ms)

def treesOfItems : List Value → List Tree
  | [] => []
  | v :: vs => tree v :: treesOfItems vs

def treesOfMembers : List (String × Value) → List (String × Tree)
  | [] => []
  | (k, v) :: ms => (k, tree v) :: treesOfMembers ms

end

mutual

def ofTree : Tree → Value
  | .value s => string s
  | .array ts => array (ofTrees ts)
  | .map es => object (Assoc.ofList (ofEntries es))

def ofTrees : List Tree → List Value
  | [] => []
  | t :: ts => ofTree t :: ofTrees ts

def ofEntries : List (String × Tree) → List (String × Value)
  | [] => []
  | (k, t) :: es => (k, ofTree t) :: ofEntries es

end

/-! ## Lemmas -/

theorem treesOfItems_eq (vs : List Value) : treesOfItems vs = vs.map tree := by
  induction vs with
  | nil => rfl
  | cons v vs ih => rw [treesOfItems, ih, List.map_cons]

theorem treesOfMembers_eq (ms : List (String × Value)) :
    treesOfMembers ms = ms.map fun m => (m.1, m.2.tree) := by
  induction ms with
  | nil => rfl
  | cons m ms ih => rw [treesOfMembers, ih, List.map_cons]

theorem ofTree_array (ts : List Tree) : ofTree (.array ts) = array (ts.map ofTree) := by
  have hitems : ofTrees ts = ts.map ofTree := by
    induction ts with
    | nil => rfl
    | cons t ts ih => rw [ofTrees, ih, List.map_cons]
  rw [ofTree, hitems]

theorem ofTree_map (es : List (String × Tree)) :
    ofTree (.map es) = object (Assoc.ofList (es.map fun e => (e.1, ofTree e.2))) := by
  have hentries : ofEntries es = es.map fun e => (e.1, ofTree e.2) := by
    induction es with
    | nil => rfl
    | cons e es ih => rw [ofEntries, ih, List.map_cons]
  rw [ofTree, hentries]

end Value

end LayeredConfig.Json
