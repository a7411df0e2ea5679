import LayeredConfig.Profile.Decoration
import LayeredConfig.Tree.Basic

/-! Removal markers.

A key with a hyphen in front is a marker.  It takes itself out of its map and also the key that
follows the hyphen, without decorations.  Markers are collected before anything is taken out, so
their place in the map does not matter. -/

namespace LayeredConfig.Tree

/-- The key that a marker takes out. -/
def removalTarget? (key : String) : Option String :=
  match key.toList with
  | '-' :: rest => some (String.ofList (Decoration.strip rest))
  | _ => none

/-- The keys that the markers among `keys` take out, the markers included. -/
def doomed (keys : List String) : List String :=
  keys.flatMap fun k =>
    match removalTarget? k with
    | some target => [k, target]
    | none => []

mutual

/-- The tree without its markers and what they take out, at every depth. -/
def removeMarked : Tree → Tree
  | value s => value s
  | array ts => array (removeMarkedItems ts)
  | map es => map (removeMarkedEntries (doomed (Assoc.keys es)) es)

def removeMarkedItems : List Tree → List Tree
  | [] => []
  | t :: ts => removeMarked t :: removeMarkedItems ts

/-- The entries whose key is not among `gone`, each cleaned. -/
def removeMarkedEntries (gone : List String) : List (String × Tree) → List (String × Tree)
  | [] => []
  | (k, t) :: es =>
    if k ∈ gone then removeMarkedEntries gone es
    else (k, removeMarked t) :: removeMarkedEntries gone es

end

/-! ## Lemmas -/

theorem removalTarget?_eq_none_iff {key : String} :
    removalTarget? key = none ↔ key.toList.head? ≠ some '-' := by
  unfold removalTarget?
  split
  · next h => simp [h]
  · next h =>
    refine ⟨fun _ hhead => ?_, fun _ => rfl⟩
    obtain ⟨rest, hrest⟩ := List.head?_eq_some_iff.mp hhead
    exact h rest hrest

/-- A marker takes itself out. -/
theorem mem_doomed_of_removalTarget? {key target : String} {keys : List String} (hk : key ∈ keys)
    (h : removalTarget? key = some target) : key ∈ doomed keys := by
  unfold doomed
  rw [List.mem_flatMap]
  refine ⟨key, hk, ?_⟩
  rw [h]
  exact List.mem_cons_self

theorem doomed_eq_nil {keys : List String} (h : ∀ k ∈ keys, removalTarget? k = none) :
    doomed keys = [] := by
  unfold doomed
  rw [List.flatMap_eq_nil_iff]
  intro k hk
  rw [h k hk]

theorem removeMarked_array (ts : List Tree) : removeMarked (array ts) = array (ts.map removeMarked) := by
  have hitems : removeMarkedItems ts = ts.map removeMarked := by
    induction ts with
    | nil => rfl
    | cons t ts ih => rw [removeMarkedItems, ih, List.map_cons]
  rw [removeMarked, hitems]

theorem removeMarkedEntries_eq (gone : List String) (es : List (String × Tree)) :
    removeMarkedEntries gone es =
      (es.filter fun e => e.1 ∉ gone).map fun e => (e.1, e.2.removeMarked) := by
  induction es with
  | nil => rfl
  | cons e es ih =>
    rw [removeMarkedEntries, ih, List.filter_cons]
    by_cases h : e.1 ∈ gone <;> simp [h]

theorem removeMarked_map (es : List (String × Tree)) : removeMarked (map es) =
    map ((es.filter fun e => e.1 ∉ doomed (Assoc.keys es)).map fun e => (e.1, e.2.removeMarked)) := by
  rw [removeMarked, removeMarkedEntries_eq]

end LayeredConfig.Tree
