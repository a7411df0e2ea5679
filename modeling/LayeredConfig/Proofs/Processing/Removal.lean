import LayeredConfig.Proofs.Processing.Clean

/-!
# What removal markers take out

In every map that the removal pass comes to, it keeps the entries whose key is spared (`Spared`):
the key is no marker, and no marker among the keys of the map names it.  The kept entries stay in
their order and are cleaned in turn.

    (map es).removeMarked = map (the spared entries of es, cleaned)    (removeMarked_map_spared)
    t.removeMarked.get? p = (t.kept? p).map removeMarked               (get?_removeMarked)

Where the markers stand does not matter: whether a key is spared depends on which keys there are,
so trees that differ in the order of entries (`Reordered`) are cleaned to such trees.  No marker is
left, so that a second pass finds nothing to do.
-/

namespace LayeredConfig

namespace Tree

/-! ## Spared keys -/

/-- The key stays in a map of the given keys: it has no hyphen in front, and it is not what follows
the hyphen of another key, without decorations. -/
def Spared (keys : List String) (key : String) : Prop :=
  key.toList.head? ≠ some '-' ∧
    ∀ d, "-" ++ d ∈ keys → key ≠ String.ofList (Decoration.strip d.toList)

theorem removalTarget?_eq_some_iff {key target : String} :
    removalTarget? key = some target ↔
      ∃ d, key = "-" ++ d ∧ target = String.ofList (Decoration.strip d.toList) := by
  unfold removalTarget?
  constructor
  · intro h
    split at h
    · next rest hkey =>
      refine ⟨String.ofList rest, ?_, ?_⟩
      · rw [← String.toList_inj, hkey, String.toList_append]
        simp
      · rw [String.toList_ofList]
        exact (Option.some.inj h).symm
    · cases h
  · rintro ⟨d, rfl, rfl⟩
    rw [String.toList_append]
    rfl

theorem mem_doomed_iff {k : String} {keys : List String} :
    k ∈ doomed keys ↔
      ∃ m ∈ keys, ∃ target, removalTarget? m = some target ∧ (k = m ∨ k = target) := by
  unfold doomed
  rw [List.mem_flatMap]
  refine exists_congr fun m => and_congr_right fun _ => ?_
  cases removalTarget? m with
  | none => simp
  | some target => simp

theorem spared_iff {keys : List String} {k : String} :
    Spared keys k ↔ removalTarget? k = none ∧ k ∉ doomed keys := by
  rw [Spared, removalTarget?_eq_none_iff, mem_doomed_iff]
  refine and_congr_right fun hhead => ?_
  rw [← removalTarget?_eq_none_iff] at hhead
  constructor
  · rintro h ⟨m, hm, target, htarget, rfl | rfl⟩
    · rw [hhead] at htarget
      cases htarget
    · obtain ⟨d, rfl, rfl⟩ := removalTarget?_eq_some_iff.mp htarget
      exact h d hm rfl
  · rintro h d hd rfl
    exact h ⟨_, hd, _, removalTarget?_eq_some_iff.mpr ⟨d, rfl, rfl⟩, .inr rfl⟩

instance (keys : List String) (k : String) : Decidable (Spared keys k) :=
  decidable_of_iff _ spared_iff.symm

theorem spared_iff_not_mem_doomed {keys : List String} {k : String} (hk : k ∈ keys) :
    Spared keys k ↔ k ∉ doomed keys := by
  rw [spared_iff]
  exact ⟨And.right, fun h => ⟨removalTarget?_eq_none_of_not_mem_doomed hk h, h⟩⟩

/-- Which keys are spared does not depend on the order of the keys. -/
theorem spared_congr {keys keys' : List String} (h : ∀ k, k ∈ keys ↔ k ∈ keys') (k : String) :
    Spared keys k ↔ Spared keys' k := by
  simp only [Spared, h]

/-- Nothing is taken out where there is no marker. -/
theorem spared_of_no_marker {keys : List String} (h : ∀ k ∈ keys, removalTarget? k = none)
    {k : String} (hk : k ∈ keys) : Spared keys k := by
  rw [spared_iff_not_mem_doomed hk, doomed_eq_nil h]
  exact List.not_mem_nil

/-! ## Reading a rewritten tree -/

/-- The tree at a path whose steps are taken with `child`. -/
def follow (child : Segment → Tree → Option Tree) : Path → Tree → Option Tree
  | [], t => some t
  | s :: p, t => (child s t).bind (follow child p)

/-- Reading in a rewritten tree, when it is known where its children come from. -/
theorem get?_eq_map_follow {f : Tree → Tree} {child : Segment → Tree → Option Tree}
    (h : ∀ s t, (f t).child? s = (child s t).map f) (p : Path) (t : Tree) :
    (f t).get? p = (follow child p t).map f := by
  induction p generalizing t with
  | nil => rfl
  | cons s p ih =>
    rw [get?_cons, h, follow]
    cases child s t with
    | none => rfl
    | some u => exact ih u

/-! ## Keeping the spared entries -/

/-- The child that a segment leads to, unless its key is taken out of the map. -/
def keptChild? : Segment → Tree → Option Tree
  | .key k, map es => if Spared (Assoc.keys es) k then Assoc.get? k es else none
  | s, t => t.child? s

/-- The tree at a path, unless the path goes through an entry that is taken out. -/
def kept? (p : Path) (t : Tree) : Option Tree := follow keptChild? p t

theorem removeMarked_map_spared (es : List (String × Tree)) : removeMarked (map es) =
    map ((es.filter fun e => Spared (Assoc.keys es) e.1).map fun e => (e.1, e.2.removeMarked)) := by
  have hspared : es.filter (fun e => Spared (Assoc.keys es) e.1) =
      es.filter fun e => e.1 ∉ doomed (Assoc.keys es) := by
    apply List.filter_congr
    intro e he
    rw [decide_eq_decide]
    exact spared_iff_not_mem_doomed (List.mem_map_of_mem he)
  rw [removeMarked_map, hspared]

/-- A map with its entries in another order keeps the same entries, in that order. -/
theorem removeMarked_map_of_perm {es fs : List (String × Tree)} (h : es.Perm fs) :
    removeMarked (map fs) = map ((fs.filter fun e => Spared (Assoc.keys es) e.1).map
      fun e => (e.1, e.2.removeMarked)) := by
  have hkeys : ∀ k, k ∈ Assoc.keys fs ↔ k ∈ Assoc.keys es := fun k =>
    ((h.map Prod.fst).mem_iff (a := k)).symm
  simp only [removeMarked_map_spared, spared_congr hkeys]

theorem get?_filter_map {p : String → Prop} [DecidablePred p] (f : Tree → Tree) (k : String)
    (es : List (String × Tree)) :
    Assoc.get? k ((es.filter fun e => p e.1).map fun e => (e.1, f e.2)) =
      if p k then (Assoc.get? k es).map f else none := by
  induction es with
  | nil => simp [Assoc.get?]
  | cons e es ih =>
    rw [List.filter_cons, Assoc.get?]
    by_cases hk : e.1 = k
    · subst hk
      by_cases hp : p e.1
      · simp [hp, Assoc.get?]
      · simpa [hp] using ih
    · by_cases hp : p e.1
      · simpa [hp, hk, Assoc.get?] using ih
      · simpa [hp, hk] using ih

theorem child?_removeMarked (s : Segment) (t : Tree) :
    t.removeMarked.child? s = (t.keptChild? s).map removeMarked := by
  cases t with
  | value v => cases s <;> rfl
  | array ts =>
    rw [removeMarked_array]
    cases s with
    | key k => rfl
    | index i => exact List.getElem?_map
  | map es =>
    rw [removeMarked_map_spared]
    cases s with
    | key k =>
      show Assoc.get? k _ = (if Spared (Assoc.keys es) k then Assoc.get? k es else none).map _
      rw [get?_filter_map]
      split <;> rfl
    | index i => rfl

theorem get?_removeMarked (p : Path) (t : Tree) :
    t.removeMarked.get? p = (t.kept? p).map removeMarked :=
  get?_eq_map_follow child?_removeMarked p t

/-! ## The order of entries -/

/-- The trees that differ in the order of entries, in any of their maps. -/
inductive Reordered : Tree → Tree → Prop where
  | refl (t : Tree) : Reordered t t
  | trans {t u v : Tree} : Reordered t u → Reordered u v → Reordered t v
  | entries {es fs : List (String × Tree)} : es.Perm fs → Reordered (map es) (map fs)
  | inArray (ts us : List Tree) {t u : Tree} :
    Reordered t u → Reordered (array (ts ++ t :: us)) (array (ts ++ u :: us))
  | inMap (es fs : List (String × Tree)) (k : String) {t u : Tree} :
    Reordered t u → Reordered (map (es ++ (k, t) :: fs)) (map (es ++ (k, u) :: fs))

theorem Reordered.removeMarked {t u : Tree} (h : Reordered t u) :
    Reordered t.removeMarked u.removeMarked := by
  induction h with
  | refl t => exact .refl _
  | trans _ _ iht ihu => exact iht.trans ihu
  | entries hperm =>
    rw [removeMarked_map_spared, removeMarked_map_of_perm hperm]
    exact .entries ((hperm.filter _).map _)
  | inArray ts us _ ih =>
    simp only [removeMarked_array, List.map_append, List.map_cons]
    exact .inArray _ _ ih
  | @inMap es fs k t u _ ih =>
    have hkeys : Assoc.keys (es ++ (k, t) :: fs) = Assoc.keys (es ++ (k, u) :: fs) := by
      simp [Assoc.keys]
    rw [removeMarked_map_spared, removeMarked_map_spared, hkeys]
    simp only [List.filter_append, List.filter_cons, List.map_append]
    split
    · exact .inMap _ _ k ih
    · exact .refl _

theorem removeMarked_removeMarked (t : Tree) : t.removeMarked.removeMarked = t.removeMarked := by
  induction t using Tree.induction with
  | value s => rw [Tree.removeMarked, Tree.removeMarked]
  | array ts ih =>
    rw [removeMarked_array, removeMarked_array, List.map_map]
    congr 1
    exact List.map_congr_left ih
  | map es ih =>
    rw [removeMarked_map_spared es]
    generalize hgs : (es.filter fun e => Spared (Assoc.keys es) e.1).map
      (fun e => (e.1, e.2.removeMarked)) = gs
    have hkept : ∀ g ∈ gs, removalTarget? g.1 = none ∧ g.2.removeMarked = g.2 := by
      intro g hg
      rw [← hgs] at hg
      obtain ⟨e, he, rfl⟩ := List.mem_map.mp hg
      obtain ⟨hes, hspared⟩ := List.mem_filter.mp he
      exact ⟨(spared_iff.mp (of_decide_eq_true hspared)).1, ih e hes⟩
    have hmarkers : ∀ k ∈ Assoc.keys gs, removalTarget? k = none := by
      intro k hk
      obtain ⟨g, hg, rfl⟩ := List.mem_map.mp hk
      exact (hkept g hg).1
    have hall : gs.filter (fun g => Spared (Assoc.keys gs) g.1) = gs := by
      apply List.filter_eq_self.mpr
      intro g hg
      exact decide_eq_true (spared_of_no_marker hmarkers (List.mem_map_of_mem hg))
    have hchildren : gs.map (fun g => (g.1, g.2.removeMarked)) = gs := by
      conv => rhs; rw [← List.map_id gs]
      exact List.map_congr_left fun g hg => Prod.ext rfl (hkept g hg).2
    rw [removeMarked_map_spared, hall, hchildren]

/-! ## Top theorem (proved from the lemmas above) -/

/-- The removal pass keeps, in every map that it comes to, the spared entries in their order; what
it keeps does not depend on the order of entries, and a second pass changes nothing. -/
theorem removeMarked_keeps_spared (t : Tree) :
    (∀ p, t.removeMarked.get? p = (t.kept? p).map removeMarked) ∧
    (∀ p s, t.kept? p = some (value s) → t.removeMarked.get? p = some (value s)) ∧
    (∀ p ts, t.kept? p = some (array ts) →
      t.removeMarked.get? p = some (array (ts.map removeMarked))) ∧
    (∀ p es, t.kept? p = some (map es) →
      t.removeMarked.get? p = some (map ((es.filter fun e => Spared (Assoc.keys es) e.1).map
        fun e => (e.1, e.2.removeMarked))) ∧
      ∀ fs, es.Perm fs → (map fs).removeMarked =
        map ((fs.filter fun e => Spared (Assoc.keys es) e.1).map
          fun e => (e.1, e.2.removeMarked))) ∧
    (∀ u, Reordered t u → Reordered t.removeMarked u.removeMarked) ∧
    t.removeMarked.removeMarked = t.removeMarked := by
  refine ⟨fun p => get?_removeMarked p t, ?_, ?_, ?_, fun u h => h.removeMarked,
    removeMarked_removeMarked t⟩
  · intro p s hp
    rw [get?_removeMarked, hp, Option.map_some, removeMarked]
  · intro p ts hp
    rw [get?_removeMarked, hp, Option.map_some, removeMarked_array]
  · intro p es hp
    refine ⟨?_, fun fs hperm => removeMarked_map_of_perm hperm⟩
    rw [get?_removeMarked, hp, Option.map_some, removeMarked_map_spared]

/-- A decorated marker, a marker of a marker, and a marker inside of arrays. -/
theorem removeMarked_keeps_spared_stacked :
    let es := [("k", value "1"), ("b<x>", value "2"), ("b", value "3"), ("-b<y>", value ""),
      ("--k", value ""), ("-k", value "")]
    let fs := [("-a", value ""), ("c", value "4"), ("a", value "5")]
    let t := map [("m", map es), ("-n", value ""), ("l", array [array [map fs]])]
    t.kept? [.key "m"] = some (map es) ∧
      (∃ gs, t.removeMarked.get? [.key "m"] = some (map gs) ∧ Assoc.keys gs = ["b<x>"]) ∧
      t.kept? [.key "l", .index 0, .index 0] = some (map fs) ∧
      (∃ gs, t.removeMarked.get? [.key "l", .index 0, .index 0] = some (map gs) ∧
        Assoc.keys gs = ["c"]) ∧
      Reordered t.removeMarked (map [("l", array [array [map fs.reverse]]), ("m", map es),
        ("-n", value "")]).removeMarked := by
  intro es fs t
  have hroot : Spared ["m", "-n", "l"] "m" ∧ Spared ["m", "-n", "l"] "l" := by decide +kernel
  have hm : t.kept? [.key "m"] = some (map es) := by
    show (if Spared ["m", "-n", "l"] "m" then some (map es) else none).bind _ = _
    rw [if_pos hroot.1]
    rfl
  have hl : t.kept? [.key "l", .index 0, .index 0] = some (map fs) := by
    show (if Spared ["m", "-n", "l"] "l" then some (array [array [map fs]]) else none).bind _ = _
    rw [if_pos hroot.2]
    rfl
  obtain ⟨-, -, -, hmaps, hreordered, -⟩ := removeMarked_keeps_spared t
  refine ⟨hm, ⟨_, (hmaps _ _ hm).1, by decide +kernel⟩, hl,
    ⟨_, (hmaps _ _ hl).1, by decide +kernel⟩, hreordered _ ?_⟩
  have hfs : Reordered (map fs) (map fs.reverse) := .entries (List.reverse_perm fs).symm
  have hlist : Reordered t
      (map [("m", map es), ("-n", value ""), ("l", array [array [map fs.reverse]])]) :=
    .inMap [("m", map es), ("-n", value "")] [] "l" (.inArray [] [] (.inArray [] [] hfs))
  have hmoved : ([("m", map es), ("-n", value "")] ++ [("l", array [array [map fs.reverse]])]).Perm
      ([("l", array [array [map fs.reverse]])] ++ [("m", map es), ("-n", value "")]) :=
    List.perm_append_comm
  exact hlist.trans (.entries hmoved)

end Tree

end LayeredConfig
