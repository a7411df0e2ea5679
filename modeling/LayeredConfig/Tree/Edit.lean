import LayeredConfig.Tree.Basic

/-! Changing a tree at a path.

`set` stores a tree, making maps on the way where a key leads nowhere; an index must address an
element or the place right after the last one.  It answers with the tree afterwards and whether it
succeeded: a failing call can have made maps already.  `remove` takes a tree out and keeps the order
of the siblings.  `replace` overwrites what is there. -/

namespace LayeredConfig

/-- Why a tree cannot be stored at a path. -/
inductive EditFault where
  | root
  | unreachable (index : Nat)
  | notAnArray
  | outOfBounds (index length : Nat)
  deriving DecidableEq, Repr

def EditFault.message : EditFault → String
  | root => "cannot replace the root node"
  | unreachable i => "cannot reach index " ++ toString i
  | notAnArray => "index segment applied to a non-array node"
  | outOfBounds i n => "index " ++ toString i ++ " is out of bounds (" ++ toString n ++ " elements)"

namespace Tree

/-- The tree after `v` was stored at the path, and the outcome. -/
def set (v : Tree) : Path → Tree → Tree × Except EditFault Unit
  | [], t => (t, .error .root)
  | [.key k], t => (map (Assoc.insert k v t.entries), .ok ())
  | [.index i], array ts =>
    if i < ts.length then (array (ts.set i v), .ok ())
    else if i = ts.length then (array (ts ++ [v]), .ok ())
    else (array ts, .error (.outOfBounds i ts.length))
  | [.index _], t => (t, .error .notAnArray)
  | .key k :: p, t =>
    let (child, outcome) := set v p ((Assoc.get? k t.entries).getD empty)
    (map (Assoc.insert k child t.entries), outcome)
  | .index i :: p, array ts =>
    if h : i < ts.length then
      let (child, outcome) := set v p ts[i]
      (array (ts.set i child), outcome)
    else if i = ts.length then
      let (child, outcome) := set v p empty
      (array (ts ++ [child]), outcome)
    else (array ts, .error (.unreachable i))
  | .index i :: _, t => (t, .error (.unreachable i))

/-- What stood at the path and the tree without it; `none` for the root and where nothing stands. -/
def remove : Path → Tree → Option (Tree × Tree)
  | [], _ => none
  | [.key k], map es => (Assoc.get? k es).map fun t => (t, map (Assoc.erase k es))
  | [.index i], array ts => ts[i]?.map fun t => (t, array (ts.eraseIdx i))
  | .key k :: p, map es => do
    let (removed, child) ← remove p (← Assoc.get? k es)
    return (removed, map (Assoc.insert k child es))
  | .index i :: p, array ts => do
    let (removed, child) ← remove p (← ts[i]?)
    return (removed, array (ts.set i child))
  | _, _ => none

/-- The tree with `v` in place of what stood at the path. -/
def replace (v : Tree) : Path → Tree → Option Tree
  | [], _ => some v
  | .key k :: p, map es => do
    let child ← replace v p (← Assoc.get? k es)
    return map (Assoc.insert k child es)
  | .index i :: p, array ts => do
    let child ← replace v p (← ts[i]?)
    return array (ts.set i child)
  | _, _ => none

end Tree

end LayeredConfig
