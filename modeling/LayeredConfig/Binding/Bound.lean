import LayeredConfig.Decimal.Binary
import LayeredConfig.Json.Value

/-! Bound values, and their order.

The order is the one in which sets and maps of bound values are kept: numbers by size, text by code
point, an absent value before a present one, composites part by part, variants as declared. -/

namespace LayeredConfig

inductive Bound where
  | bool (b : Bool)
  | int (n : Int)
  | float (width : Decimal.Width) (x : Decimal.Binary)
  | char (c : Char)
  | text (s : String)
  | bytes (bs : List UInt8)
  | unit
  | none
  | some (b : Bound)
  | list (bs : List Bound)
  | map (es : List (Bound × Bound))
  | record (fields : List (String × Bound))
  | variant (position : Nat) (name : String) (content : Bound)
  | json (v : Json.Value)
  deriving Repr

namespace Bound

/-- The place of a kind of value among the others. -/
def rank : Bound → Nat
  | bool _ => 0
  | int _ => 1
  | float .. => 2
  | char _ => 3
  | text _ => 4
  | bytes _ => 5
  | unit => 6
  | none => 7
  | some _ => 8
  | list _ => 9
  | map _ => 10
  | record _ => 11
  | variant .. => 12
  | json _ => 13

mutual

def cmp : Bound → Bound → Ordering
  | bool a, bool b => compare a b
  | int a, int b => compare a b
  | char a, char b => compare a b
  | text a, text b => compare a b
  | bytes a, bytes b => compare a b
  | some a, some b => cmp a b
  | list as, list bs => cmpList as bs
  | map as, map bs => cmpPairs as bs
  | record as, record bs => cmpFields as bs
  | variant i _ a, variant j _ b => (compare i j).then (cmp a b)
  | a, b => compare a.rank b.rank

def cmpList : List Bound → List Bound → Ordering
  | [], [] => .eq
  | [], _ :: _ => .lt
  | _ :: _, [] => .gt
  | a :: as, b :: bs => (cmp a b).then (cmpList as bs)

def cmpPairs : List (Bound × Bound) → List (Bound × Bound) → Ordering
  | [], [] => .eq
  | [], _ :: _ => .lt
  | _ :: _, [] => .gt
  | (a, u) :: as, (b, v) :: bs => ((cmp a b).then (cmp u v)).then (cmpPairs as bs)

def cmpFields : List (String × Bound) → List (String × Bound) → Ordering
  | [], [] => .eq
  | [], _ :: _ => .lt
  | _ :: _, [] => .gt
  | (_, a) :: as, (_, b) :: bs => (cmp a b).then (cmpFields as bs)

end

/-- A value put at its place among ascending ones; an equal one keeps its place. -/
def placeIn (b : Bound) (bs : List Bound) : List Bound :=
  (Assoc.insertSorted cmp b () (bs.map fun c => (c, ()))).map Prod.fst

/-- A pair put at its place among pairs with ascending keys. -/
def insertSorted (k v : Bound) (es : List (Bound × Bound)) : List (Bound × Bound) :=
  Assoc.insertSorted cmp k v es

/-- A pair put last, or in place of the pair with an equal key. -/
def insertLast (k v : Bound) : List (Bound × Bound) → List (Bound × Bound)
  | [] => [(k, v)]
  | e :: es => if cmp e.1 k = .eq then (e.1, v) :: es else e :: insertLast k v es

end Bound

end LayeredConfig
