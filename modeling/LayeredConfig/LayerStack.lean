import LayeredConfig.Tree.Merge

/-! Layers and their merged view.

A stack holds named trees with priorities, lowest first; among equal priorities the one registered
last lies on top.  Its merged view is the trees laid over each other in that order.  Registering a
name again moves its layer to where a new layer would lie.

A `Provider` keeps the same layers in a table without order and sorts them after each change.

Main fact: `merged_register`. -/

namespace LayeredConfig

abbrev Priority := Int32

namespace Priority

/-- Below every document. -/
def defaults : Priority := -1000

def file : Priority := 0

def environment : Priority := 1000

def override : Priority := 2000

/-- Above everything else: the greatest priority. -/
def runtime : Priority := Int32.maxValue

end Priority

structure Layer where
  name : String
  tree : Tree
  priority : Priority

/-- Layers in merge order, with their merged view. -/
structure LayerStack where
  layers : List Layer := []
  merged : Tree := .empty

namespace LayerStack

/-- A layer put on top of those that do not outrank it. -/
def place (l : Layer) : List Layer → List Layer
  | [] => [l]
  | m :: ms => if m.priority ≤ l.priority then m :: place l ms else l :: m :: ms

/-- The stack of the given layers, merged anew. -/
def ofLayers (ls : List Layer) : LayerStack := ⟨ls, Tree.mergeAll (ls.map Layer.tree)⟩

def layer? (s : LayerStack) (name : String) : Option Layer :=
  s.layers.find? fun l => l.name = name

def tree? (s : LayerStack) (name : String) : Option Tree := (s.layer? name).map Layer.tree

def priority? (s : LayerStack) (name : String) : Option Priority :=
  (s.layer? name).map Layer.priority

/-- The layers of other names. -/
def others (s : LayerStack) (name : String) : List Layer := s.layers.filter fun l => l.name ≠ name

/-- The stack with a layer of its own for the name. -/
def register (s : LayerStack) (l : Layer) : LayerStack := ofLayers (place l (s.others l.name))

/-- The stack without the layer of the name; a name without layer changes nothing. -/
def unregister (s : LayerStack) (name : String) : LayerStack :=
  if (s.layer? name).isSome then ofLayers (s.others name) else s

def names (s : LayerStack) : List String := s.layers.map Layer.name

def size (s : LayerStack) : Nat := s.layers.length

/-! ## Lemmas -/

theorem mem_place {l m : Layer} {ls : List Layer} : m ∈ place l ls ↔ m = l ∨ m ∈ ls := by
  induction ls with
  | nil => simp [place]
  | cons k ks ih =>
    rw [place]
    split
    · simp only [List.mem_cons, ih]
      exact or_left_comm
    · simp

theorem merged_register (s : LayerStack) (l : Layer) :
    (s.register l).merged = Tree.mergeAll ((s.register l).layers.map Layer.tree) := rfl

end LayerStack

end LayeredConfig
