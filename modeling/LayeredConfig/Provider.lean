import LayeredConfig.Assoc
import LayeredConfig.LayerStack

/-! Layers in a hash table.

A provider keeps its sources in a table that has no order of its own.  Each registration takes the
next sequence number, and after each change the sources are sorted and merged anew: by ascending
priority, equal priorities by ascending sequence number.

In which order the table lists its entries, no caller can tell, and a change may turn all of it
around.  This is the `Listing` of the change. -/

namespace LayeredConfig

/-- What the table holds under the name of a source. -/
structure Registration where
  tree : Tree
  priority : Priority
  sequence : UInt64

/-- Whether one source may come before another one when they are merged. -/
def Registration.before (r q : Registration) : Bool :=
  r.priority < q.priority || r.priority = q.priority && r.sequence ≤ q.sequence

/-- An order of the entries of a table. -/
structure Listing where
  list : List (String × Registration) → List (String × Registration)
  perm : ∀ es, (list es).Perm es

/-- A new name comes last, a known one stays where it is. -/
def Listing.asInserted : Listing := ⟨id, List.Perm.refl⟩

/-- Sources by name, as the table lists them, with their merged view. -/
structure Provider where
  sources : List (String × Registration) := []
  nextSequence : UInt64 := 0
  merged : Tree := .empty

namespace Provider

/-- The sources in merge order. -/
def ordered (p : Provider) : List (String × Registration) :=
  p.sources.mergeSort fun e f => e.2.before f.2

def remerge (p : Provider) : Provider :=
  { p with merged := Tree.mergeAll (p.ordered.map fun e => e.2.tree) }

def source? (p : Provider) (name : String) : Option Registration := Assoc.get? name p.sources

def tree? (p : Provider) (name : String) : Option Tree := (p.source? name).map Registration.tree

def priority? (p : Provider) (name : String) : Option Priority :=
  (p.source? name).map Registration.priority

def contains (p : Provider) (name : String) : Bool := (p.source? name).isSome

def names (p : Provider) : List String := p.ordered.map Prod.fst

def size (p : Provider) : Nat := p.sources.length

/-- The provider with the layer as a source, and the tree that had its name before. -/
def register (p : Provider) (listing : Listing) (l : Layer) : Provider × Option Tree :=
  let r : Registration := ⟨l.tree, l.priority, p.nextSequence⟩
  let sources := listing.list (Assoc.insert l.name r p.sources)
  (remerge { p with sources, nextSequence := p.nextSequence + 1 }, p.tree? l.name)

/-- The provider without the name, and the tree that it had.  An unknown name changes nothing. -/
def unregister (p : Provider) (listing : Listing) (name : String) : Provider × Option Tree :=
  match p.tree? name with
  | none => (p, none)
  | some t => (remerge { p with sources := listing.list (Assoc.erase name p.sources) }, some t)

end Provider

end LayeredConfig
