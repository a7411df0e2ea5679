import LayeredConfig.Proofs.Processing.Removal
import LayeredConfig.Proofs.Profile.Levels

/-!
# What the active profiles choose

In every map that the profile pass comes to, the entries whose decorations all list an active
profile survive under their bare names (`surviving`).  Several of them can have one name: the map
then names it where the first of them stands and shows the tree of the last one.

    P.select (map es) has the keys (keys (P.surviving es)).eraseDups    (select_map_surviving)
    (P.select t).get? p = (P.chosen? p t).map P.select                  (get?_select)

Any other entry leaves no trace, neither of its place nor of what is below it
(`select_map_of_not_admits`).
-/

namespace LayeredConfig.ProfileSet

variable (P : ProfileSet)

/-- The entries that survive the profiles, under their bare names, in the order of the map. -/
def surviving (es : List (String × Tree)) : List (String × Tree) :=
  es.filterMap fun e => (P.resolve? e.1).map fun name => (name, e.2)

/-- The tree of the last surviving entry of a bare name. -/
def lastSurviving? (name : String) (es : List (String × Tree)) : Option Tree :=
  ((P.surviving es).filter fun e => e.1 = name).getLast?.map Prod.snd

/-- The child that a segment leads to: below a map, that of the last surviving entry of the name. -/
def chosenChild? : Segment → Tree → Option Tree
  | .key k, .map es => P.lastSurviving? k es
  | s, t => t.child? s

/-- The tree that the active profiles choose for a path of bare names and positions. -/
def chosen? (p : Path) (t : Tree) : Option Tree := Tree.follow P.chosenChild? p t

/-! ## Lemmas -/

/-! ### One map -/

theorem select_map_eq (es : List (String × Tree)) : P.select (.map es) =
    .map (Assoc.ofList ((P.surviving es).map fun e => (e.1, P.select e.2))) := by
  rw [select_map, surviving, List.map_filterMap]
  simp only [Option.map_map]
  rfl

theorem get?_ofList_map (f : Tree → Tree) (name : String) (es : List (String × Tree)) :
    Assoc.get? name (Assoc.ofList (es.map fun e => (e.1, f e.2))) =
      ((es.filter fun e => e.1 = name).getLast?.map Prod.snd).map f := by
  rw [Assoc.get?_ofList, List.filter_map, List.getLast?_map, Option.map_map, Option.map_map]
  rfl

theorem select_map_surviving (es : List (String × Tree)) :
    ∃ gs, P.select (.map es) = .map gs ∧
      Assoc.keys gs = (Assoc.keys (P.surviving es)).eraseDups ∧
      ∀ name, Assoc.get? name gs = (P.lastSurviving? name es).map P.select := by
  refine ⟨_, P.select_map_eq es, ?_, fun name => get?_ofList_map P.select name _⟩
  rw [Assoc.keys_ofList, Assoc.keys, List.map_map]
  rfl

theorem surviving_of_not_admits {e : String × Tree} {d : Decoration}
    (hd : d ∈ Decoration.levels e.1.toList) (hnot : ¬ P.Admits d) (es fs : List (String × Tree)) :
    P.surviving (es ++ e :: fs) = P.surviving (es ++ fs) := by
  have hnone : P.resolve? e.1 = none := resolve?_eq_none_iff.mpr ⟨d, hd, hnot⟩
  rw [surviving, surviving, List.filterMap_append, List.filterMap_append, List.filterMap_cons,
    hnone]
  rfl

/-- An entry with a level that lists no active profile leaves no trace. -/
theorem select_map_of_not_admits {e : String × Tree} {d : Decoration}
    (hd : d ∈ Decoration.levels e.1.toList) (hnot : ¬ P.Admits d) (es fs : List (String × Tree)) :
    P.select (.map (es ++ e :: fs)) = P.select (.map (es ++ fs)) := by
  rw [select_map_eq, select_map_eq, P.surviving_of_not_admits hd hnot]

/-! ### Every depth -/

theorem child?_select (s : Segment) (t : Tree) :
    (P.select t).child? s = (P.chosenChild? s t).map P.select := by
  cases t with
  | value v =>
    rw [select]
    cases s <;> rfl
  | array ts =>
    rw [select_array]
    cases s with
    | key k => rfl
    | index i => exact List.getElem?_map
  | map es =>
    obtain ⟨gs, hgs, -, hget⟩ := P.select_map_surviving es
    rw [hgs]
    cases s with
    | key k => exact hget k
    | index i => rfl

theorem get?_select (p : Path) (t : Tree) :
    (P.select t).get? p = (P.chosen? p t).map P.select :=
  Tree.get?_eq_map_follow P.child?_select p t

/-! ## Top theorem (proved from the lemmas above) -/

/-- The profile pass turns every map that it comes to into the map of the bare names of its
surviving entries, each at the place of the first one and with the tree of the last one; arrays keep
their elements and values stay.  An entry survives when every level of its key lists an active
profile, and leaves no trace otherwise. -/
theorem select_chooses_last (t : Tree) :
    (∀ p, (P.select t).get? p = (P.chosen? p t).map P.select) ∧
    (∀ p s, P.chosen? p t = some (.value s) → (P.select t).get? p = some (.value s)) ∧
    (∀ p ts, P.chosen? p t = some (.array ts) →
      (P.select t).get? p = some (.array (ts.map P.select))) ∧
    (∀ p es, P.chosen? p t = some (.map es) → ∃ gs, (P.select t).get? p = some (.map gs) ∧
      Assoc.keys gs = (Assoc.keys (P.surviving es)).eraseDups ∧
      ∀ name, Assoc.get? name gs = (P.lastSurviving? name es).map P.select) ∧
    (∀ key name, P.resolve? key = some name ↔
      (∀ d ∈ Decoration.levels key.toList, P.Admits d) ∧
        name = String.ofList (Decoration.strip key.toList)) ∧
    ∀ es e fs, (∃ d ∈ Decoration.levels e.1.toList, ¬ P.Admits d) →
      P.select (.map (es ++ e :: fs)) = P.select (.map (es ++ fs)) := by
  refine ⟨fun p => P.get?_select p t, ?_, ?_, ?_, fun key name => resolve?_eq_some_iff, ?_⟩
  · intro p s hp
    rw [get?_select, hp, Option.map_some, select]
  · intro p ts hp
    rw [get?_select, hp, Option.map_some, select_array]
  · intro p es hp
    obtain ⟨gs, hgs, hkeys, hget⟩ := P.select_map_surviving es
    exact ⟨gs, by rw [get?_select, hp, Option.map_some, hgs], hkeys, hget⟩
  · rintro es e fs ⟨d, hd, hnot⟩
    exact P.select_map_of_not_admits hd hnot es fs

/-- The name `a` keeps the first place and shows the last of its variants; the variant for `prod`
that stands after it, and the entries for `prod` inside of it, leave no trace. -/
theorem select_chooses_last_variants :
    let P := ofList ["dev", "test"]
    let fs := [("y<prod>", .value "4"), ("x<dev><test>", .value "5"), ("w", .value "6"),
      ("x<dev><prod>", .value "7")]
    let es := [("a<dev>", .value "1"), ("b", .value "2"), ("a <test>", .map fs)]
    let t : Tree := .map (es ++ [("a<prod>", .value "3")])
    P.select t = P.select (.map es) ∧ P.chosen? [.key "a"] t = some (.map fs) ∧
      (∃ gs, (P.select t).get? [] = some (.map gs) ∧ Assoc.keys gs = ["a", "b"]) ∧
      ∃ gs, (P.select t).get? [.key "a"] = some (.map gs) ∧ Assoc.keys gs = ["x", "w"] := by
  intro P fs es t
  have hkeys : P.resolve? "a<dev>" = some "a" ∧ P.resolve? "b" = some "b" ∧
      P.resolve? "a <test>" = some "a" ∧ P.resolve? "a<prod>" = none := by decide +kernel
  have hprod : ∃ d ∈ Decoration.levels "a<prod>".toList, ¬ P.Admits d :=
    resolve?_eq_none_iff.mp hkeys.2.2.2
  have hsurviving : P.surviving (es ++ [("a<prod>", .value "3")]) =
      [("a", .value "1"), ("b", .value "2"), ("a", .map fs)] := by
    simp [surviving, es, hkeys]
  have hchosen : P.chosen? [.key "a"] t = some (.map fs) := by
    show (P.lastSurviving? "a" (es ++ [("a<prod>", .value "3")])).bind _ = _
    rw [lastSurviving?, hsurviving]
    rfl
  obtain ⟨-, -, -, hmaps, -, hdropped⟩ := select_chooses_last P t
  obtain ⟨gs, hgs, hroot, -⟩ := hmaps [] _ rfl
  obtain ⟨gs', hgs', hbelow, -⟩ := hmaps [.key "a"] _ hchosen
  refine ⟨?_, hchosen, ⟨gs, hgs, hroot.trans ?_⟩, gs', hgs', hbelow.trans (by decide +kernel)⟩
  · rw [hdropped es _ [] hprod, List.append_nil]
  · rw [hsurviving]
    decide +kernel

end LayeredConfig.ProfileSet
