import LayeredConfig.Proofs.Tree.Storing

/-!
# Taking a tree out

`remove` detaches the last segment's child from its node and puts the node back where it stood, so
the trees before and after are alike but for that node (`Grafted`).

    remove (p ++ [s]) t = some (x, u) ↔ ∃ n n', Detached s x n n' ∧ Grafted p n n' t u  (remove_iff)

Everything about the tree afterwards is read off the two relations: what is not below the node is as
it was, entries behind the removed one move up, and elements change their index.  The same two
relations, read backwards, say what storing a new child does, so taking it out again restores the
tree (`remove_set`).  A walk that writes in place leaves the tree as it was when there is nothing to
take out (`removeInPlace_eq`).
-/

namespace LayeredConfig

namespace Tree

/-- The trees are alike but for the node at the path: `x` in the first, `c` in the second. -/
inductive Grafted : Path → Tree → Tree → Tree → Tree → Prop where
  | here (x c : Tree) : Grafted [] x c x c
  | under {s : Segment} {p : Path} {a b x c t u : Tree} :
    Swapped s a b t u → Grafted p x c a b → Grafted (s :: p) x c t u

/-! ## Removal in place -/

/-- The child of the segment, and the node without it. -/
def detach : Segment → Tree → Option Tree × Tree
  | .key k, map es => (Assoc.get? k es, map (Assoc.erase k es))
  | .index i, array ts =>
    if i < ts.length then (ts[i]?, array (ts.eraseIdx i)) else (none, array ts)
  | _, t => (none, t)

/-- The node at the path rewritten where it stands by `f`, which answers.  Where no node stands
there is no answer, and nothing is rewritten. -/
def rewriteAt (f : Tree → Option Tree × Tree) : Path → Tree → Option Tree × Tree
  | [], t => f t
  | s :: p, t =>
    match t.child? s with
    | none => (none, t)
    | some a => ((rewriteAt f p a).1, (put? (rewriteAt f p a).2 s t).getD t)

/-- `remove` as a walk that writes: down to the node above the last segment, where it detaches. -/
def removeInPlace (p : Path) (t : Tree) : Option Tree × Tree :=
  match p.getLast? with
  | none => (none, t)
  | some s => rewriteAt (detach s) p.dropLast t

/-! ## Lemmas -/

variable {v t u x c n n' : Tree} {p q r : Path} {s s' : Segment}

/-! ### Trees that differ in one node -/

theorem Grafted.symm (h : Grafted p x c t u) : Grafted p c x u t := by
  induction h with
  | here x c => exact .here c x
  | under hs _ ih => exact .under hs.symm ih

theorem Grafted.get?_left (h : Grafted p x c t u) : t.get? p = some x := by
  induction h with
  | here => rfl
  | under hs _ ih => rw [get?_cons, hs.child?_left, Option.bind_some, ih]

theorem Grafted.get?_right (h : Grafted p x c t u) : u.get? p = some c := h.symm.get?_left

theorem exists_grafted (h : t.get? p = some x) (c : Tree) : ∃ u, Grafted p x c t u := by
  induction p generalizing t with
  | nil =>
    obtain rfl := Option.some.inj h
    exact ⟨c, .here t c⟩
  | cons s p ih =>
    obtain ⟨a, ha, hp⟩ := Option.bind_eq_some_iff.mp h
    obtain ⟨b, hb⟩ := ih hp
    obtain ⟨u, hu⟩ := exists_swapped ha b
    exact ⟨u, .under hu hb⟩

/-- A path that does not lead through the node, nor ends above it, reads as in the other tree. -/
theorem Grafted.get?_of_apart (h : Grafted p x c t u) (hqp : ¬ q <+: p) (hpq : ¬ p <+: q) :
    u.get? q = t.get? q := by
  induction h generalizing q with
  | here => exact absurd List.nil_prefix hpq
  | @under s p a b x c t u hs _ ih =>
    cases q with
    | nil => exact absurd List.nil_prefix hqp
    | cons s' q =>
      rw [get?_cons, get?_cons]
      by_cases hss : s' = s
      · subst hss
        rw [List.prefix_cons_inj] at hqp hpq
        rw [hs.child?_right, hs.child?_left]
        exact ih hqp hpq
      · rw [hs.child?_of_ne hss]

/-- The nodes above have the same children at the same places, but for the one on the way. -/
theorem Grafted.on_way (h : Grafted (q ++ s :: r) x c t u) :
    ∃ a b y z, t.get? q = some y ∧ u.get? q = some z ∧ Swapped s a b y z := by
  induction q generalizing t u with
  | nil =>
    cases h with
    | under hs => exact ⟨_, _, t, u, rfl, rfl, hs⟩
  | cons s₀ q ih =>
    cases h with
    | under hs hunder =>
      obtain ⟨a, b, y, z, hy, hz, hswapped⟩ := ih hunder
      refine ⟨a, b, y, z, ?_, ?_, hswapped⟩
      · rw [get?_cons, hs.child?_left, Option.bind_some, hy]
      · rw [get?_cons, hs.child?_right, Option.bind_some, hz]

theorem Grafted.distinct (h : Grafted p x c t u) (ht : t.Distinct) (hc : c.Distinct) :
    u.Distinct := by
  induction h with
  | here => exact hc
  | under hs _ ih => exact hs.distinct ht (ih (ht.of_child? hs.child?_left) hc)

/-! ### What `remove` does -/

theorem eraseIdx_append_cons (front : List Tree) (x : Tree) (back : List Tree) :
    (front ++ x :: back).eraseIdx front.length = front ++ back := by
  rw [List.eraseIdx_append_of_length_le (Nat.le_refl _), Nat.sub_self]
  rfl

theorem remove_singleton_iff : remove [s] t = some (x, u) ↔ Detached s x t u := by
  constructor
  · intro h
    cases s with
    | key k =>
      cases t with
      | value w => cases h
      | array ts => cases h
      | map es =>
        obtain ⟨y, hy, heq⟩ := Option.map_eq_some_iff.mp h
        obtain ⟨rfl, rfl⟩ := Prod.mk.inj heq
        obtain ⟨front, back, rfl, hk⟩ := Assoc.exists_split_of_get? hy
        rw [Assoc.erase_append_cons hk]
        exact .entry hk y back
    | index i =>
      cases t with
      | value w => cases h
      | map es => cases h
      | array ts =>
        obtain ⟨y, hy, heq⟩ := Option.map_eq_some_iff.mp h
        obtain ⟨rfl, rfl⟩ := Prod.mk.inj heq
        obtain ⟨front, back, rfl, rfl⟩ := exists_split_of_getElem? hy
        rw [eraseIdx_append_cons]
        exact .item front y back
  · intro h
    cases h with
    | @entry k front hk _ back =>
      rw [remove, Assoc.get?_append_cons_self hk, Assoc.erase_append_cons hk]
      rfl
    | item front _ back =>
      have hx : (front ++ x :: back)[front.length]? = some x := by simp
      rw [remove, hx, eraseIdx_append_cons]
      rfl

theorem remove_cons (hp : p ≠ []) (s : Segment) (t : Tree) :
    remove (s :: p) t = (t.child? s).bind fun a => (remove p a).bind fun r =>
      (put? r.2 s t).map fun u => (r.1, u) := by
  obtain ⟨s', p, rfl⟩ := List.exists_cons_of_ne_nil hp
  cases s with
  | key k =>
    cases t with
    | value w => rfl
    | array ts => rfl
    | map es => rfl
  | index i =>
    cases t with
    | value w => rfl
    | map es => rfl
    | array ts =>
      show ts[i]?.bind _ = ts[i]?.bind _
      cases ha : ts[i]? with
      | none => rfl
      | some a =>
        have hi : i < ts.length := (List.getElem?_eq_some_iff.mp ha).1
        show (remove (s' :: p) a).bind _ = (remove (s' :: p) a).bind _
        refine Option.bind_congr fun r _ => ?_
        rw [put?, if_pos hi]
        rfl

theorem remove_cons_iff (hp : p ≠ []) :
    remove (s :: p) t = some (x, u) ↔ ∃ a b, Swapped s a b t u ∧ remove p a = some (x, b) := by
  rw [remove_cons hp]
  constructor
  · intro h
    obtain ⟨a, ha, h⟩ := Option.bind_eq_some_iff.mp h
    obtain ⟨⟨y, b⟩, hb, h⟩ := Option.bind_eq_some_iff.mp h
    obtain ⟨u', hput, heq⟩ := Option.map_eq_some_iff.mp h
    obtain ⟨rfl, rfl⟩ := Prod.mk.inj heq
    obtain ⟨w, hw⟩ := exists_swapped ha b
    obtain rfl := Option.some.inj (hw.put?_eq.symm.trans hput)
    exact ⟨a, b, hw, hb⟩
  · rintro ⟨a, b, hswapped, hb⟩
    rw [hswapped.child?_left, Option.bind_some, hb, Option.bind_some]
    show (put? b s t).map _ = _
    rw [hswapped.put?_eq]
    rfl

theorem remove_iff : remove (p ++ [s]) t = some (x, u) ↔
    ∃ n n', Detached s x n n' ∧ Grafted p n n' t u := by
  induction p generalizing t u with
  | nil =>
    rw [List.nil_append, remove_singleton_iff]
    constructor
    · exact fun h => ⟨t, u, h, .here t u⟩
    · rintro ⟨n, n', hdetached, hgrafted⟩
      cases hgrafted
      exact hdetached
  | cons s₀ p ih =>
    rw [List.cons_append, remove_cons_iff (by simp)]
    constructor
    · rintro ⟨a, b, hswapped, hremove⟩
      obtain ⟨n, n', hdetached, hgrafted⟩ := ih.mp hremove
      exact ⟨n, n', hdetached, .under hswapped hgrafted⟩
    · rintro ⟨n, n', hdetached, hgrafted⟩
      cases hgrafted with
      | under hswapped hunder => exact ⟨_, _, hswapped, ih.mpr ⟨n, n', hdetached, hunder⟩⟩

theorem exists_remove_iff : (∃ u, remove p t = some (x, u)) ↔ p ≠ [] ∧ t.get? p = some x := by
  rcases List.eq_nil_or_concat' p with rfl | ⟨p, s, rfl⟩
  · simp [remove]
  · rw [get?_append]
    constructor
    · rintro ⟨u, hu⟩
      obtain ⟨n, n', hdetached, hgrafted⟩ := remove_iff.mp hu
      refine ⟨by simp, ?_⟩
      rw [hgrafted.get?_left, Option.bind_some, get?_cons, hdetached.child?_eq]
      rfl
    · rintro ⟨-, h⟩
      obtain ⟨n, hn, hx⟩ := Option.bind_eq_some_iff.mp h
      obtain ⟨y, hy, hxy⟩ := Option.bind_eq_some_iff.mp hx
      obtain rfl := Option.some.inj hxy
      obtain ⟨n', hdetached⟩ := exists_detached hy
      obtain ⟨u, hgrafted⟩ := exists_grafted hn n'
      exact ⟨u, remove_iff.mpr ⟨n, n', hdetached, hgrafted⟩⟩

/-! ### Removal in place -/

theorem detach_eq (s : Segment) (t : Tree) :
    detach s t = ((remove [s] t).map Prod.fst, ((remove [s] t).map Prod.snd).getD t) := by
  cases s with
  | key k =>
    cases t with
    | value w => rfl
    | array ts => rfl
    | map es =>
      rw [detach, remove]
      cases hx : Assoc.get? k es with
      | some x => rfl
      | none =>
        rw [Assoc.erase_of_not_mem ((Assoc.get?_eq_none_iff k es).mp hx)]
        rfl
  | index i =>
    cases t with
    | value w => rfl
    | map es => rfl
    | array ts =>
      rw [detach, remove]
      split
      · next hi => rw [List.getElem?_eq_getElem hi]; rfl
      · next hi => rw [List.getElem?_eq_none (Nat.not_lt.mp hi)]; rfl

/-- Writing back the child that is there changes nothing. -/
theorem put?_self (h : t.child? s = some x) : put? x s t = some t := by
  obtain ⟨u, hu⟩ := exists_swapped h x
  rw [hu.put?_eq]
  cases hu <;> rfl

theorem rewriteAt_detach (p : Path) (s : Segment) (t : Tree) : rewriteAt (detach s) p t =
    ((remove (p ++ [s]) t).map Prod.fst, ((remove (p ++ [s]) t).map Prod.snd).getD t) := by
  induction p generalizing t with
  | nil => exact detach_eq s t
  | cons s₀ p ih =>
    rw [List.cons_append, remove_cons (by simp), rewriteAt]
    cases ha : t.child? s₀ with
    | none => rfl
    | some a =>
      -- on a failure below, the walk writes the child back that it came from
      show ((rewriteAt (detach s) p a).1, _) = _
      rw [ih a, Option.bind_some]
      cases hremove : remove (p ++ [s]) a with
      | none =>
        show (none, (put? a s₀ t).getD t) = (none, t)
        rw [put?_self ha]
        rfl
      | some r =>
        obtain ⟨u, hu⟩ := exists_swapped ha r.2
        show (some r.1, (put? r.2 s₀ t).getD t) = _
        rw [Option.bind_some, hu.put?_eq]
        rfl

theorem removeInPlace_eq (p : Path) (t : Tree) :
    removeInPlace p t = ((remove p t).map Prod.fst, ((remove p t).map Prod.snd).getD t) := by
  rcases List.eq_nil_or_concat' p with rfl | ⟨p, s, rfl⟩
  · rfl
  · rw [removeInPlace, List.getLast?_concat, List.dropLast_concat]
    exact rewriteAt_detach p s t

/-! ### What is read afterwards -/

theorem get?_remove_key {k : String} (h : remove (p ++ [.key k]) t = some (x, u))
    (ht : t.Distinct) : u.get? (p ++ [.key k]) = none ∧ ∃ front back,
      t.get? p = some (map (front ++ (k, x) :: back)) ∧ u.get? p = some (map (front ++ back)) := by
  obtain ⟨n, n', hdetached, hgrafted⟩ := remove_iff.mp h
  have hn : n.Distinct := ht.of_get? hgrafted.get?_left
  cases hdetached with
  | @entry _ front hfront _ back =>
    refine ⟨?_, front, back, hgrafted.get?_left, hgrafted.get?_right⟩
    have hnodup : (Assoc.keys front ++ k :: Assoc.keys back).Nodup := by
      simpa [Assoc.keys] using (distinct_map_iff.mp hn).1
    have hback : k ∉ Assoc.keys back :=
      (List.nodup_cons.mp (List.nodup_append.mp hnodup).2.1).1
    have hgone : Assoc.get? k (front ++ back) = none := by
      rw [Assoc.get?_append, (Assoc.get?_eq_none_iff k front).mpr hfront, Option.none_or,
        (Assoc.get?_eq_none_iff k back).mpr hback]
    rw [get?_append, hgrafted.get?_right, Option.bind_some, get?_cons]
    show (Assoc.get? k (front ++ back)).bind _ = none
    rw [hgone]
    rfl

theorem get?_remove_of_apart {k : String} (h : remove (p ++ [.key k]) t = some (x, u))
    (hq : ¬ q <+: p ++ [.key k]) (hq' : ¬ p ++ [.key k] <+: q) : u.get? q = t.get? q := by
  obtain ⟨n, n', hdetached, hgrafted⟩ := remove_iff.mp h
  by_cases hpq : p <+: q
  -- the path goes through the node, to another of its children
  · obtain ⟨r, rfl⟩ := hpq
    cases r with
    | nil => exact absurd ⟨[.key k], by rw [List.append_nil]⟩ hq
    | cons s r =>
      have hs : s ≠ .key k := by
        rintro rfl
        exact hq' ⟨r, by simp⟩
      rw [get?_append, get?_append, hgrafted.get?_left, hgrafted.get?_right, Option.bind_some,
        Option.bind_some, get?_cons, get?_cons]
      cases hdetached with
      | entry hk =>
        cases s with
        | index i => rfl
        | key j =>
          have hj : j ≠ k := fun hjk => hs (hjk ▸ rfl)
          show (Assoc.get? j _).bind _ = (Assoc.get? j _).bind _
          rw [Assoc.get?_append_cons_of_ne hj]
  · refine hgrafted.get?_of_apart (fun hqp => hq ?_) hpq
    exact hqp.trans (List.prefix_append p _)

theorem get?_remove_index {i : Nat} (h : remove (p ++ [.index i]) t = some (x, u)) (j : Nat)
    (r : Path) : u.get? (p ++ .index j :: r) =
      t.get? (p ++ .index (if j < i then j else j + 1) :: r) := by
  obtain ⟨n, n', hdetached, hgrafted⟩ := remove_iff.mp h
  rw [get?_append, get?_append, hgrafted.get?_left, hgrafted.get?_right, Option.bind_some,
    Option.bind_some, get?_cons, get?_cons]
  congr 1
  cases hdetached with
  | item front _ back =>
    show (front ++ back)[j]? = (front ++ x :: back)[if j < front.length then j else j + 1]?
    rw [← eraseIdx_append_cons front x back, List.getElem?_eraseIdx]
    split <;> rfl

/-! ### Taking out what was stored -/

/-- Storing a new child of a node. -/
theorem set_of_appended (hgrafted : Grafted p n n' t u) (happended : Appended s c n n') :
    set c (p ++ [s]) t = (u, .ok ()) := by
  induction hgrafted with
  | here => exact set_singleton_of_some happended.put?_eq
  | @under s₀ p a b x y t u hswapped _ ih =>
    have hb := ih happended
    have hchild : t.childOrNew s₀ = a := by rw [childOrNew, hswapped.child?_left, Option.getD_some]
    rw [List.cons_append, set_cons_of_some (u := u) (by simp), hchild, hb]
    rw [hchild, hb]
    exact hswapped.put?_eq

theorem remove_set (h : t.get? p = some n) (happended : Appended s c n n') :
    (set c (p ++ [s]) t).2 = .ok () ∧
      remove (p ++ [s]) (set c (p ++ [s]) t).1 = some (c, t) := by
  obtain ⟨u, hgrafted⟩ := exists_grafted h n'
  rw [set_of_appended hgrafted happended]
  exact ⟨rfl, remove_iff.mpr ⟨n', n, happended.detached, hgrafted.symm⟩⟩

theorem distinct_of_remove (h : remove p t = some (x, u)) (ht : t.Distinct) :
    x.Distinct ∧ u.Distinct := by
  obtain ⟨hp, hx⟩ := exists_remove_iff.mp ⟨u, h⟩
  refine ⟨ht.of_get? hx, ?_⟩
  obtain ⟨q, s, rfl⟩ := (List.eq_nil_or_concat' p).resolve_left hp
  obtain ⟨n, n', hdetached, hgrafted⟩ := remove_iff.mp h
  exact hgrafted.distinct ht (hdetached.distinct (ht.of_get? hgrafted.get?_left))

/-! ## Top theorem (proved from the lemmas above) -/

/-- Taking a tree out of one of which no map names a key twice: when there is something to take out,
that nothing is written otherwise, what is read afterwards, and that it undoes the storing of a new
child. -/
theorem remove_by_path {t : Tree} (ht : t.Distinct) :
    (∀ p x, (∃ u, remove p t = some (x, u)) ↔ p ≠ [] ∧ t.get? p = some x) ∧
    (∀ p, removeInPlace p t =
      match remove p t with
      | some (x, u) => (some x, u)
      | none => (none, t)) ∧
    (∀ p k x u, remove (p ++ [.key k]) t = some (x, u) →
      u.get? (p ++ [.key k]) = none ∧
      (∀ q, ¬ q <+: p ++ [.key k] → ¬ p ++ [.key k] <+: q → u.get? q = t.get? q) ∧
      ∃ front back, t.get? p = some (map (front ++ (k, x) :: back)) ∧
        u.get? p = some (map (front ++ back))) ∧
    (∀ p i x u, remove (p ++ [.index i]) t = some (x, u) →
      (∀ j r, u.get? (p ++ .index j :: r) =
        t.get? (p ++ .index (if j < i then j else j + 1) :: r)) ∧
      (∀ q, ¬ q <+: p → ¬ p <+: q → u.get? q = t.get? q)) ∧
    (∀ q s r s' x u, remove (q ++ s :: r ++ [s']) t = some (x, u) →
      ∃ a b y z, t.get? q = some y ∧ u.get? q = some z ∧ Swapped s a b y z) ∧
    (∀ p x u, remove p t = some (x, u) → x.Distinct ∧ u.Distinct) ∧
    ∀ p s v, (∃ es k, s = .key k ∧ t.get? p = some (map es) ∧ k ∉ Assoc.keys es) ∨
        (∃ ts, s = .index ts.length ∧ t.get? p = some (array ts)) →
      (set v (p ++ [s]) t).2 = .ok () ∧
        remove (p ++ [s]) (set v (p ++ [s]) t).1 = some (v, t) := by
  refine ⟨fun p x => exists_remove_iff, ?_, ?_, ?_, ?_, fun p x u h => distinct_of_remove h ht, ?_⟩
  · intro p
    rw [removeInPlace_eq]
    cases remove p t <;> rfl
  · intro p k x u h
    obtain ⟨hgone, hsiblings⟩ := get?_remove_key h ht
    exact ⟨hgone, fun q hq hq' => get?_remove_of_apart h hq hq', hsiblings⟩
  · intro p i x u h
    obtain ⟨n, n', -, hgrafted⟩ := remove_iff.mp h
    exact ⟨get?_remove_index h, fun q hq hq' => hgrafted.get?_of_apart hq hq'⟩
  · intro q s r s' x u h
    obtain ⟨n, n', -, hgrafted⟩ := remove_iff.mp h
    exact hgrafted.on_way
  · rintro p s v (⟨es, k, rfl, hp, hk⟩ | ⟨ts, rfl, hp⟩)
    · exact remove_set hp (.entry hk v)
    · exact remove_set hp (.item ts v)

/-- An entry between two others, an element in front of others, a key that is not there, and a new
last element that is taken out again. -/
theorem remove_by_path_shifted :
    let l := array [value "x", map [("y", value "1")], value "z"]
    let t := map [("a", map [("i", value "1"), ("j", value "2"), ("k", value "3")]), ("l", l)]
    let v := map [("m", value "4")]
    let last : Path := [.key "l", .index 3]
    t.Distinct ∧
      (∃ u, remove [.key "a", .key "j"] t = some (value "2", u) ∧
        u.get? [.key "a", .key "j"] = none ∧
        u.get? [.key "l", .index 1] = some (map [("y", value "1")])) ∧
      (∃ u, remove [.key "l", .index 0] t = some (value "x", u) ∧
        u.get? [.key "l", .index 0, .key "y"] = some (value "1") ∧
        u.get? [.key "a", .key "k"] = some (value "3")) ∧
      removeInPlace [.key "a", .key "n"] t = (none, t) ∧
      (set v last t).2 = .ok () ∧ remove last (set v last t).1 = some (v, t) := by
  intro l t v last
  have ht : t.Distinct := by decide
  obtain ⟨hsome, hplace, hkey, hindex, -, -, hundo⟩ := remove_by_path ht
  obtain ⟨u, hu⟩ := (hsome [.key "a", .key "j"] (value "2")).mpr ⟨by simp, rfl⟩
  obtain ⟨w, hw⟩ := (hsome [.key "l", .index 0] (value "x")).mpr ⟨by simp, rfl⟩
  obtain ⟨hgone, hapart, -⟩ := hkey [.key "a"] "j" _ u hu
  obtain ⟨hshift, houtside⟩ := hindex [.key "l"] 0 _ w hw
  refine ⟨ht, ⟨u, hu, hgone, ?_⟩, ⟨w, hw, ?_, ?_⟩, hplace [.key "a", .key "n"],
    hundo [.key "l"] (.index 3) v (.inr ⟨_, rfl, rfl⟩)⟩
  · exact hapart [.key "l", .index 1] (by decide) (by decide)
  · exact hshift 0 [.key "y"]
  · exact houtside [.key "a", .key "k"] (by decide) (by decide)

end Tree

end LayeredConfig
