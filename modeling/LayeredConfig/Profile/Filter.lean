import LayeredConfig.Profile.Active
import LayeredConfig.Tree.Basic

/-! Choosing the entries of the active profiles.

An entry whose decorations all mention an active profile stays, under its bare name; any other
decorated entry is dropped with all below it.  Entries that end up with one name keep the first
position and the last tree. -/

namespace LayeredConfig.ProfileSet

mutual

/-- The tree as the active profiles see it. -/
def select (P : ProfileSet) : Tree → Tree
  | .value s => .value s
  | .array ts => .array (selectItems P ts)
  | .map es => .map (Assoc.ofList (selectEntries P es))

def selectItems (P : ProfileSet) : List Tree → List Tree
  | [] => []
  | t :: ts => select P t :: selectItems P ts

/-- The surviving entries under their bare names, in the order of the map. -/
def selectEntries (P : ProfileSet) : List (String × Tree) → List (String × Tree)
  | [] => []
  | (k, t) :: es =>
    match P.resolve? k with
    | some name => (name, select P t) :: selectEntries P es
    | none => selectEntries P es

end

/-! ## Lemmas -/

theorem select_array (P : ProfileSet) (ts : List Tree) :
    P.select (.array ts) = .array (ts.map P.select) := by
  have hitems : selectItems P ts = ts.map P.select := by
    induction ts with
    | nil => rfl
    | cons t ts ih => rw [selectItems, ih, List.map_cons]
  rw [select, hitems]

theorem selectEntries_eq (P : ProfileSet) (es : List (String × Tree)) :
    selectEntries P es =
      es.filterMap fun e => (P.resolve? e.1).map fun name => (name, P.select e.2) := by
  induction es with
  | nil => rfl
  | cons e es ih =>
    rw [selectEntries, List.filterMap_cons, ih]
    cases P.resolve? e.1 <;> rfl

theorem select_map (P : ProfileSet) (es : List (String × Tree)) : P.select (.map es) =
    .map (Assoc.ofList (es.filterMap fun e =>
      (P.resolve? e.1).map fun name => (name, P.select e.2))) := by
  rw [select, selectEntries_eq]

end LayeredConfig.ProfileSet
