import LayeredConfig.Tree.Edit
import Mathlib.Data.List.Basic

/-!
# One step down a tree

What can happen to the child that a segment leads to, when its siblings stay where they are:

    Swapped s x c t u     c stands in u where x stood in t
    Appended s c t u      c stands in u behind the children of t
    Detached s x t u      u is t without x; what stood behind it moves up

`put? c s t` is the node with `c` as the child of the segment.  It swaps a child that is there and
appends one that is not, but makes a map of a node of another kind when the segment is a key
(`put?_cases`); it refuses an index beyond the place after the last element (`put?_eq_none_iff`).
-/

namespace LayeredConfig

/-- Keys lead into maps, indices into arrays. -/
def Segment.isKey : Segment → Bool
  | key _ => true
  | index _ => false

namespace Tree

/-! ## Exchanging, appending and detaching a child -/

/-- The nodes are alike but for the child of the segment: `x` in the first, `c` in the second. -/
inductive Swapped : Segment → Tree → Tree → Tree → Tree → Prop where
  | entry {k : String} {front : List (String × Tree)} (h : k ∉ Assoc.keys front) (x c : Tree)
    (back : List (String × Tree)) :
    Swapped (.key k) x c (map (front ++ (k, x) :: back)) (map (front ++ (k, c) :: back))
  | item (front : List Tree) (x c : Tree) (back : List Tree) :
    Swapped (.index front.length) x c (array (front ++ x :: back)) (array (front ++ c :: back))

/-- The second node has the children of the first one and `c` after them. -/
inductive Appended : Segment → Tree → Tree → Tree → Prop where
  | entry {k : String} {es : List (String × Tree)} (h : k ∉ Assoc.keys es) (c : Tree) :
    Appended (.key k) c (map es) (map (es ++ [(k, c)]))
  | item (ts : List Tree) (c : Tree) : Appended (.index ts.length) c (array ts) (array (ts ++ [c]))

/-- The second node has the children of the first one without `x`. -/
inductive Detached : Segment → Tree → Tree → Tree → Prop where
  | entry {k : String} {front : List (String × Tree)} (h : k ∉ Assoc.keys front) (x : Tree)
    (back : List (String × Tree)) :
    Detached (.key k) x (map (front ++ (k, x) :: back)) (map (front ++ back))
  | item (front : List Tree) (x : Tree) (back : List Tree) :
    Detached (.index front.length) x (array (front ++ x :: back)) (array (front ++ back))

/-- The node with `c` as the child of the segment. -/
def put? (c : Tree) : Segment → Tree → Option Tree
  | .key k, t => some (map (Assoc.insert k c t.entries))
  | .index i, array ts =>
    if i < ts.length then some (array (ts.set i c))
    else if i = ts.length then some (array (ts ++ [c])) else none
  | .index _, _ => none

/-! ## Lemmas -/

variable {s s' : Segment} {t u u' x c : Tree}

theorem exists_split_of_getElem? {ts : List Tree} {i : Nat} (h : ts[i]? = some x) :
    ∃ front back, ts = front ++ x :: back ∧ front.length = i := by
  obtain ⟨hi, rfl⟩ := List.getElem?_eq_some_iff.mp h
  refine ⟨ts.take i, ts.drop (i + 1), by simp, ?_⟩
  rw [List.length_take]
  omega

/-! ### A child that is there -/

theorem Swapped.symm (h : Swapped s x c t u) : Swapped s c x u t := by
  cases h with
  | entry h => exact .entry h c x _
  | item front => exact .item front c x _

theorem Swapped.child?_left (h : Swapped s x c t u) : t.child? s = some x := by
  cases h with
  | @entry k front hk _ _ back => exact Assoc.get?_append_cons_self hk x back
  | item front _ _ back =>
    show (front ++ x :: back)[front.length]? = some x
    simp

theorem Swapped.child?_right (h : Swapped s x c t u) : u.child? s = some c := h.symm.child?_left

theorem Swapped.child?_of_ne (h : Swapped s x c t u) (hne : s' ≠ s) :
    u.child? s' = t.child? s' := by
  cases h with
  | @entry k front hk _ _ back =>
    cases s' with
    | key j =>
      have hj : j ≠ k := fun hjk => hne (hjk ▸ rfl)
      show Assoc.get? j _ = Assoc.get? j _
      rw [Assoc.get?_append_cons_of_ne hj, Assoc.get?_append_cons_of_ne hj]
    | index i => rfl
  | item front _ _ back =>
    cases s' with
    | key j => rfl
    | index i =>
      have hi : i ≠ front.length := fun hi => hne (hi ▸ rfl)
      show (front ++ c :: back)[i]? = (front ++ x :: back)[i]?
      grind

theorem Swapped.put?_eq (h : Swapped s x c t u) : put? c s t = some u := by
  cases h with
  | @entry k front hk _ _ back =>
    show some (map (Assoc.insert k c (front ++ (k, x) :: back))) = _
    rw [Assoc.insert_append_cons hk]
  | item front _ _ back =>
    rw [put?, if_pos (by simp), List.set_append_right _ _ (Nat.le_refl _), Nat.sub_self]
    rfl

theorem Swapped.unique (h : Swapped s x c t u) (h' : Swapped s x c t u') : u = u' :=
  Option.some.inj (h.put?_eq.symm.trans h'.put?_eq)

theorem exists_swapped (h : t.child? s = some x) (c : Tree) : ∃ u, Swapped s x c t u := by
  cases s with
  | key k =>
    cases t with
    | value v => cases h
    | array ts => cases h
    | map es =>
      obtain ⟨front, back, rfl, hk⟩ := Assoc.exists_split_of_get? h
      exact ⟨_, .entry hk x c back⟩
  | index i =>
    cases t with
    | value v => cases h
    | map es => cases h
    | array ts =>
      obtain ⟨front, back, rfl, rfl⟩ := exists_split_of_getElem? h
      exact ⟨_, .item front x c back⟩

theorem Swapped.distinct (h : Swapped s x c t u) (ht : t.Distinct) (hc : c.Distinct) :
    u.Distinct := by
  cases h with
  | @entry k front hk _ _ back =>
    obtain ⟨hkeys, hchildren⟩ := distinct_map_iff.mp ht
    refine distinct_map_iff.mpr ⟨by simpa [Assoc.keys] using hkeys, ?_⟩
    intro e he
    rcases List.mem_append.mp he with he | he
    · exact hchildren e (List.mem_append_left _ he)
    · rcases List.mem_cons.mp he with rfl | he
      · exact hc
      · exact hchildren e (List.mem_append_right _ (List.mem_cons_of_mem _ he))
  | item front _ _ back =>
    have hchildren := distinct_array_iff.mp ht
    refine distinct_array_iff.mpr fun y hy => ?_
    rcases List.mem_append.mp hy with hy | hy
    · exact hchildren y (List.mem_append_left _ hy)
    · rcases List.mem_cons.mp hy with rfl | hy
      · exact hc
      · exact hchildren y (List.mem_append_right _ (List.mem_cons_of_mem _ hy))

/-! ### A child that is not there -/

theorem Appended.child?_left (h : Appended s c t u) : t.child? s = none := by
  cases h with
  | @entry k es hk => exact (Assoc.get?_eq_none_iff k es).mpr hk
  | item ts => exact List.getElem?_eq_none (Nat.le_refl _)

theorem Appended.child?_right (h : Appended s c t u) : u.child? s = some c := by
  cases h with
  | @entry k es hk => exact Assoc.get?_append_cons_self hk c []
  | item ts => exact List.getElem?_concat_length

theorem Appended.child?_of_ne (h : Appended s c t u) (hne : s' ≠ s) :
    u.child? s' = t.child? s' := by
  cases h with
  | @entry k es hk =>
    cases s' with
    | key j =>
      have hj : j ≠ k := fun hjk => hne (hjk ▸ rfl)
      show Assoc.get? j (es ++ [(k, c)]) = Assoc.get? j es
      rw [Assoc.get?_append_cons_of_ne hj, List.append_nil]
    | index i => rfl
  | item ts =>
    cases s' with
    | key j => rfl
    | index i =>
      have hi : i ≠ ts.length := fun hi => hne (hi ▸ rfl)
      show (ts ++ [c])[i]? = ts[i]?
      grind

theorem Appended.put?_eq (h : Appended s c t u) : put? c s t = some u := by
  cases h with
  | @entry k es hk =>
    show some (map (Assoc.insert k c es)) = _
    rw [Assoc.insert_of_not_mem c hk]
  | item ts => rw [put?, if_neg (Nat.lt_irrefl _), if_pos rfl]

/-- What has come last is taken out again by detaching it. -/
theorem Appended.detached (h : Appended s c t u) : Detached s c u t := by
  cases h with
  | @entry k es hk =>
    have hd := Detached.entry hk c []
    rwa [List.append_nil] at hd
  | item ts =>
    have hd := Detached.item ts c []
    rwa [List.append_nil] at hd

/-! ### Putting a child -/

theorem put?_eq_none_iff :
    put? c s t = none ↔ ∃ i, s = .index i ∧ ∀ ts, t = array ts → ts.length < i := by
  cases s with
  | key k => simp [put?]
  | index i =>
    cases t with
    | value v => simp [put?]
    | map es => simp [put?]
    | array ts =>
      rw [put?]
      constructor
      · intro h
        refine ⟨i, rfl, ?_⟩
        rintro _ ⟨⟩
        split at h
        · cases h
        · split at h
          · cases h
          · omega
      · rintro ⟨_, ⟨⟩, h⟩
        have hi := h ts rfl
        rw [if_neg (by omega), if_neg (by omega)]

theorem put?_isSome_iff : (put? c s t).isSome = true ↔
    ∀ i, s = .index i → ∃ ts, t = array ts ∧ i ≤ ts.length := by
  rw [Option.isSome_iff_ne_none, ne_eq, put?_eq_none_iff]
  constructor
  · rintro h i rfl
    by_contra hroom
    refine h ⟨i, rfl, ?_⟩
    rintro ts rfl
    by_contra hlt
    exact hroom ⟨ts, rfl, Nat.not_lt.mp hlt⟩
  · rintro h ⟨i, rfl, hroom⟩
    obtain ⟨ts, rfl, hi⟩ := h i rfl
    exact absurd (hroom ts rfl) (Nat.not_lt.mpr hi)

theorem child?_eq_none_of_put?_eq_none (h : put? c s t = none) : t.child? s = none := by
  cases hx : t.child? s with
  | none => rfl
  | some x =>
    obtain ⟨u, hu⟩ := exists_swapped hx c
    rw [hu.put?_eq] at h
    cases h

theorem put?_cases (h : put? c s t = some u) :
    (∃ x, Swapped s x c t u) ∨ Appended s c t u ∨
      ∃ k, s = .key k ∧ t.isMap = false ∧ u = map [(k, c)] := by
  cases hx : t.child? s with
  | some x =>
    obtain ⟨u', hu'⟩ := exists_swapped hx c
    obtain rfl := Option.some.inj (h.symm.trans hu'.put?_eq)
    exact .inl ⟨x, hu'⟩
  | none =>
    refine .inr ?_
    cases s with
    | key k =>
      cases t with
      | value v => exact .inr ⟨k, rfl, rfl, (Option.some.inj h).symm⟩
      | array ts => exact .inr ⟨k, rfl, rfl, (Option.some.inj h).symm⟩
      | map es =>
        have happ := Appended.entry ((Assoc.get?_eq_none_iff k es).mp hx) c
        obtain rfl := Option.some.inj (h.symm.trans happ.put?_eq)
        exact .inl happ
    | index i =>
      cases t with
      | value v => cases h
      | map es => cases h
      | array ts =>
        have hi : ts.length ≤ i := List.getElem?_eq_none_iff.mp hx
        rw [put?, if_neg (by omega)] at h
        split at h
        · next heq =>
          subst heq
          obtain rfl := Option.some.inj h
          exact .inl (.item ts c)
        · cases h

theorem child?_put? (h : put? c s t = some u) : u.child? s = some c := by
  rcases put?_cases h with ⟨x, hu⟩ | hu | ⟨k, rfl, -, rfl⟩
  · exact hu.child?_right
  · exact hu.child?_right
  · show (if k = k then some c else none) = some c
    exact if_pos rfl

/-- The other children that the segment might have led to are those from before. -/
theorem child?_put?_of_ne (h : put? c s t = some u) (halike : s'.isKey = s.isKey) (hne : s' ≠ s) :
    u.child? s' = t.child? s' := by
  rcases put?_cases h with ⟨x, hu⟩ | hu | ⟨k, rfl, hmap, rfl⟩
  · exact hu.child?_of_ne hne
  · exact hu.child?_of_ne hne
  · cases s' with
    | index i => cases halike
    | key j =>
      have hj : k ≠ j := fun hkj => hne (hkj ▸ rfl)
      show (if k = j then some c else none) = _
      rw [if_neg hj]
      cases t with
      | map es => cases hmap
      | value v => rfl
      | array ts => rfl

/-! ### Detaching a child -/

theorem Detached.child?_eq (h : Detached s x t u) : t.child? s = some x := by
  cases h with
  | @entry k front hk _ back => exact Assoc.get?_append_cons_self hk x back
  | item front _ back =>
    show (front ++ x :: back)[front.length]? = some x
    simp

theorem Detached.distinct (h : Detached s x t u) (ht : t.Distinct) : u.Distinct := by
  cases h with
  | @entry k front hk _ back =>
    obtain ⟨hkeys, hchildren⟩ := distinct_map_iff.mp ht
    have hsub : (front ++ back).Sublist (front ++ (k, x) :: back) :=
      (List.sublist_cons_self (k, x) back).append_left front
    exact distinct_map_iff.mpr ⟨hkeys.sublist (hsub.map Prod.fst),
      fun e he => hchildren e (hsub.subset he)⟩
  | item front _ back =>
    have hsub : (front ++ back).Sublist (front ++ x :: back) :=
      (List.sublist_cons_self x back).append_left front
    exact distinct_array_iff.mpr fun y hy => distinct_array_iff.mp ht y (hsub.subset hy)

theorem exists_detached (h : t.child? s = some x) : ∃ u, Detached s x t u := by
  obtain ⟨u, hu⟩ := exists_swapped h x
  cases hu with
  | entry hk => exact ⟨_, .entry hk x _⟩
  | item front _ _ back => exact ⟨_, .item front x back⟩

end Tree

end LayeredConfig
