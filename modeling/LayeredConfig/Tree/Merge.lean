import LayeredConfig.Tree.Basic

/-! Merging one tree over another.

Two maps merge key by key, and below each common key again; in every other case the upper tree takes
the place of the lower one.  Arrays are never merged by element. -/

namespace LayeredConfig.Tree

mutual

/-- `lower.merge upper`: the upper tree laid over the lower one. -/
def merge : Tree → Tree → Tree
  | map es, map fs => map (mergeEntries es fs)
  | _, map fs => map fs
  | _, array ts => array ts
  | _, value s => value s

/-- The entries of the upper map, laid over those of the lower map one by one. -/
def mergeEntries (es : List (String × Tree)) : List (String × Tree) → List (String × Tree)
  | [] => es
  | (k, u) :: fs =>
    let merged := match Assoc.get? k es with
      | some t => merge t u
      | none => u
    mergeEntries (Assoc.insert k merged es) fs

end

/-- Trees laid over each other in order, the last one uppermost, on an empty map. -/
def mergeAll (ts : List Tree) : Tree := ts.foldl merge empty

/-! ## Lemmas -/

theorem merge_value (t : Tree) (s : String) : t.merge (value s) = value s := by
  cases t <;> rfl

theorem merge_array (t : Tree) (us : List Tree) : t.merge (array us) = array us := by
  cases t <;> rfl

theorem merge_map_map (es fs : List (String × Tree)) :
    (map es).merge (map fs) = map (mergeEntries es fs) := rfl

end LayeredConfig.Tree
