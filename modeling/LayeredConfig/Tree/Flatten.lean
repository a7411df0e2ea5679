import LayeredConfig.Tree.Basic

/-! The values of a tree as a flat table.

`leaves` lists every value with its path, in the order of the tree; empty maps and arrays have
none.  `flatten` names each value by the display form of its path and sorts the names; of two values
with one name the later stays. -/

namespace LayeredConfig.Tree

mutual

/-- The values below a path, with their paths. -/
def leavesAt (path : Path) : Tree → List (Path × String)
  | value s => [(path, s)]
  | array ts => leavesOfItems path 0 ts
  | map es => leavesOfEntries path es

def leavesOfItems (path : Path) (i : Nat) : List Tree → List (Path × String)
  | [] => []
  | t :: ts => leavesAt (path ++ [.index i]) t ++ leavesOfItems path (i + 1) ts

def leavesOfEntries (path : Path) : List (String × Tree) → List (Path × String)
  | [] => []
  | (k, t) :: es => leavesAt (path ++ [.key k]) t ++ leavesOfEntries path es

end

def leaves (t : Tree) : List (Path × String) := leavesAt [] t

def flatten (t : Tree) : List (String × String) :=
  t.leaves.foldl (fun acc (p, s) => Assoc.insertSorted compare p.display s acc) []

end LayeredConfig.Tree
