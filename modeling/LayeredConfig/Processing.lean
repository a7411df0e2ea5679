import LayeredConfig.Profile.Filter
import LayeredConfig.Tree.Removal

/-! Processing of a raw tree: first the removal markers, then the profiles.

`Tree.Clean` describes what processing leaves behind: no key starts with a hyphen or ends in a
decoration, at any depth. -/

namespace LayeredConfig

/-- One pass over a tree. -/
inductive Pass where
  | removal
  | profile (active : ProfileSet)

namespace Pass

def name : Pass → String
  | removal => "removal"
  | profile _ => "profile"

def apply : Pass → Tree → Tree
  | removal, t => t.removeMarked
  | profile P, t => P.select t

end Pass

/-- The tree after both passes. -/
def ProfileSet.process (P : ProfileSet) (t : Tree) : Tree := P.select t.removeMarked

namespace Tree

/-- A key that no pass takes out or renames. -/
def PlainKey (key : String) : Prop :=
  removalTarget? key = none ∧ Decoration.parse? key.toList = none

mutual

/-- All keys of the tree are plain. -/
def Clean : Tree → Prop
  | value _ => True
  | array ts => CleanItems ts
  | map es => CleanEntries es

def CleanItems : List Tree → Prop
  | [] => True
  | t :: ts => Clean t ∧ CleanItems ts

def CleanEntries : List (String × Tree) → Prop
  | [] => True
  | (k, t) :: es => PlainKey k ∧ Clean t ∧ CleanEntries es

end

instance (key : String) : Decidable (PlainKey key) :=
  inferInstanceAs (Decidable (_ ∧ _))

mutual

def decidableClean : (t : Tree) → Decidable t.Clean
  | value _ => isTrue trivial
  | array ts => decidableCleanItems ts
  | map es => decidableCleanEntries es

def decidableCleanItems : (ts : List Tree) → Decidable (CleanItems ts)
  | [] => isTrue trivial
  | t :: ts =>
    have := decidableClean t
    have := decidableCleanItems ts
    inferInstanceAs (Decidable (Clean t ∧ CleanItems ts))

def decidableCleanEntries : (es : List (String × Tree)) → Decidable (CleanEntries es)
  | [] => isTrue trivial
  | (k, t) :: es =>
    have := decidableClean t
    have := decidableCleanEntries es
    inferInstanceAs (Decidable (PlainKey k ∧ Clean t ∧ CleanEntries es))

end

instance : DecidablePred Clean := decidableClean

/-! ## Lemmas -/

theorem clean_array_iff {ts : List Tree} : (array ts).Clean ↔ ∀ t ∈ ts, t.Clean := by
  show CleanItems ts ↔ _
  induction ts with
  | nil => simp [CleanItems]
  | cons t ts ih => rw [CleanItems, ih, List.forall_mem_cons]

theorem clean_map_iff {es : List (String × Tree)} :
    (map es).Clean ↔ ∀ e ∈ es, PlainKey e.1 ∧ e.2.Clean := by
  show CleanEntries es ↔ _
  induction es with
  | nil => simp [CleanEntries]
  | cons e es ih => rw [CleanEntries, ih, List.forall_mem_cons, and_assoc]

end Tree

end LayeredConfig
