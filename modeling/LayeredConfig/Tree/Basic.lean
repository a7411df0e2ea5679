import LayeredConfig.Assoc
import LayeredConfig.Path.Basic

/-! Configuration trees.

A tree is a map of named subtrees in insertion order, an array of subtrees, or a value, which is
always text.  `Tree.Distinct` says that no map of a tree names a key twice; every tree that is built
by the operations of the library has the property. -/

namespace LayeredConfig

inductive Tree where
  | value (text : String)
  | array (items : List Tree)
  | map (entries : List (String × Tree))
  deriving Repr

/-- What a tree is at its root. -/
inductive Kind where
  | value
  | array
  | map
  deriving DecidableEq, Repr

def Kind.name : Kind → String
  | value => "value"
  | array => "array"
  | map => "map"

namespace Tree

def empty : Tree := map []

instance : Inhabited Tree := ⟨empty⟩

def kind : Tree → Kind
  | value _ => .value
  | array _ => .array
  | map _ => .map

def text? : Tree → Option String
  | value s => some s
  | _ => none

def items? : Tree → Option (List Tree)
  | array ts => some ts
  | _ => none

def entries? : Tree → Option (List (String × Tree))
  | map es => some es
  | _ => none

/-- The entries of a map; a tree of another kind has none. -/
def entries (t : Tree) : List (String × Tree) := t.entries?.getD []

def isMap (t : Tree) : Bool := t.kind = .map

def isEmptyMap : Tree → Bool
  | map [] => true
  | _ => false

/-- A map of the entries taken one after the other. -/
def ofEntries (es : List (String × Tree)) : Tree := map (Assoc.ofList es)

/-! ## Lookup -/

/-- The child that a segment leads to. -/
def child? : Segment → Tree → Option Tree
  | .key k, map es => Assoc.get? k es
  | .index i, array ts => ts[i]?
  | _, _ => none

/-- The tree at a path. -/
def get? : Path → Tree → Option Tree
  | [], t => some t
  | s :: p, t => (t.child? s).bind (get? p)

/-! ## Equality and well-formedness -/

mutual

def beq : Tree → Tree → Bool
  | value s, value t => s == t
  | array ts, array us => beqItems ts us
  | map es, map fs => beqEntries es fs
  | _, _ => false

def beqItems : List Tree → List Tree → Bool
  | [], [] => true
  | t :: ts, u :: us => beq t u && beqItems ts us
  | _, _ => false

def beqEntries : List (String × Tree) → List (String × Tree) → Bool
  | [], [] => true
  | (k, t) :: es, (j, u) :: fs => k == j && beq t u && beqEntries es fs
  | _, _ => false

end

instance : BEq Tree := ⟨beq⟩

mutual

/-- No map of the tree names a key twice. -/
def Distinct : Tree → Prop
  | value _ => True
  | array ts => DistinctItems ts
  | map es => (Assoc.keys es).Nodup ∧ DistinctEntries es

def DistinctItems : List Tree → Prop
  | [] => True
  | t :: ts => Distinct t ∧ DistinctItems ts

def DistinctEntries : List (String × Tree) → Prop
  | [] => True
  | (_, t) :: es => Distinct t ∧ DistinctEntries es

end

mutual

def decidableDistinct : (t : Tree) → Decidable t.Distinct
  | value _ => isTrue trivial
  | array ts => decidableDistinctItems ts
  | map es =>
    have := decidableDistinctEntries es
    inferInstanceAs (Decidable ((Assoc.keys es).Nodup ∧ DistinctEntries es))

def decidableDistinctItems : (ts : List Tree) → Decidable (DistinctItems ts)
  | [] => isTrue trivial
  | t :: ts =>
    have := decidableDistinct t
    have := decidableDistinctItems ts
    inferInstanceAs (Decidable (Distinct t ∧ DistinctItems ts))

def decidableDistinctEntries : (es : List (String × Tree)) → Decidable (DistinctEntries es)
  | [] => isTrue trivial
  | (_, t) :: es =>
    have := decidableDistinct t
    have := decidableDistinctEntries es
    inferInstanceAs (Decidable (Distinct t ∧ DistinctEntries es))

end

instance : DecidablePred Distinct := decidableDistinct

/-! ## Induction -/

/-- A property of all trees: the children of a node have it already. -/
@[elab_as_elim]
theorem induction {motive : Tree → Prop} (value : ∀ s, motive (Tree.value s))
    (array : ∀ ts, (∀ t ∈ ts, motive t) → motive (Tree.array ts))
    (map : ∀ es, (∀ e ∈ es, motive e.2) → motive (Tree.map es)) (t : Tree) : motive t := by
  refine @Tree.rec motive (fun ts => ∀ t ∈ ts, motive t) (fun es => ∀ e ∈ es, motive e.2)
    (fun e => motive e.2) value array map ?_ ?_ ?_ ?_ ?_ t
  · exact fun t ht => absurd ht List.not_mem_nil
  · intro t ts ht hts u hu
    rcases List.mem_cons.mp hu with rfl | hu
    · exact ht
    · exact hts u hu
  · exact fun e he => absurd he List.not_mem_nil
  · intro e es he hes d hd
    rcases List.mem_cons.mp hd with rfl | hd
    · exact he
    · exact hes d hd
  · exact fun k t ht => ht

/-! ## Lemmas -/

theorem distinct_array_iff {ts : List Tree} : (array ts).Distinct ↔ ∀ t ∈ ts, t.Distinct := by
  show DistinctItems ts ↔ _
  induction ts with
  | nil => simp [DistinctItems]
  | cons t ts ih => rw [DistinctItems, ih, List.forall_mem_cons]

theorem distinct_map_iff {es : List (String × Tree)} :
    (map es).Distinct ↔ (Assoc.keys es).Nodup ∧ ∀ e ∈ es, e.2.Distinct := by
  have hes : DistinctEntries es ↔ ∀ e ∈ es, e.2.Distinct := by
    induction es with
    | nil => simp [DistinctEntries]
    | cons e es ih => rw [DistinctEntries, ih, List.forall_mem_cons]
  rw [Distinct, hes]

theorem Distinct.of_child? {s : Segment} {t u : Tree} (h : t.Distinct) (hu : t.child? s = some u) :
    u.Distinct := by
  cases s with
  | key k =>
    cases t with
    | value v => cases hu
    | array ts => cases hu
    | map es => exact (distinct_map_iff.mp h).2 (k, u) (Assoc.mem_of_get? hu)
  | index i =>
    cases t with
    | value v => cases hu
    | map es => cases hu
    | array ts => exact distinct_array_iff.mp h u (List.mem_of_getElem? hu)

theorem Distinct.of_get? {p : Path} {t u : Tree} (h : t.Distinct) (hu : t.get? p = some u) :
    u.Distinct := by
  induction p generalizing t with
  | nil => exact Option.some.inj hu ▸ h
  | cons s p ih =>
    obtain ⟨v, hv, hp⟩ := Option.bind_eq_some_iff.mp hu
    exact ih (h.of_child? hv) hp

@[simp] theorem get?_nil (t : Tree) : t.get? [] = some t := rfl

theorem get?_cons (s : Segment) (p : Path) (t : Tree) :
    t.get? (s :: p) = (t.child? s).bind (get? p) := rfl

theorem get?_append (p q : Path) (t : Tree) : t.get? (p ++ q) = (t.get? p).bind (get? q) := by
  induction p generalizing t with
  | nil => rfl
  | cons s p ih =>
    rw [List.cons_append, get?_cons, get?_cons]
    cases t.child? s with
    | none => rfl
    | some u => exact ih u

end Tree

end LayeredConfig
