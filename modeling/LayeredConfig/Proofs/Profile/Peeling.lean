import LayeredConfig.Proofs.Processing.Removal
import LayeredConfig.Proofs.Profile.Grammar

/-!
# The loops that peel a key

Removal and profile selection both peel a key, each with a loop of its own: take off the last
decoration and go on with the name before it.  Selection stops at a decoration that lists no active
profile, removal never does.  `Peels` is that loop, with the test as a parameter.

    Peels (fun _ => True) key (levels key) (some (strip key))    (peels_strip)
    ∃ rounds, rounds <+: levels key ∧
      Peels P.Admits key rounds (P.resolveLetters key)           (exists_peels_resolve)

Every round takes at least three letters from the key, so a loop ends after no more rounds than a
third of the letters (`Peels.three_mul_rounds_le`), and in one way only (`Peels.unique`).  Where
both loops come to the end of a key they are left with the same name.
-/

namespace LayeredConfig

namespace Decoration

/-- The loop peels the key as long as a decoration passes the test.  It meets the decorations of the
list, the last one of the key first, and ends with the bare name, or with nothing when a decoration
does not pass. -/
inductive Peels (passes : Decoration → Prop) :
    List Char → List Decoration → Option (List Char) → Prop where
  | bare {key : List Char} : parse? key = none → Peels passes key [] (some key)
  | refused {key : List Char} {d : Decoration} :
    parse? key = some d → ¬ passes d → Peels passes key [d] none
  | round {key : List Char} {d : Decoration} {rounds : List Decoration}
    {out : Option (List Char)} : parse? key = some d → passes d →
    Peels passes d.name rounds out → Peels passes key (d :: rounds) out

/-! ## Lemmas -/

variable {passes : Decoration → Prop} {key : List Char}

/-! ### Decorations of a key -/

/-- The brackets and a profile stand behind the name. -/
theorem length_name_add_three_le {d : Decoration} (h : parse? key = some d) :
    d.name.length + 3 ≤ key.length := by
  obtain ⟨front, list, hwritten⟩ := parse?_eq_some_iff.mp h
  have hlist : list ≠ [] := by
    rintro rfl
    exact hwritten.profiles_ne (tokens_eq_iff.mpr hwritten.profiles_eq).symm
  have hname : d.name.length ≤ front.length := hwritten.name_eq ▸ Text.length_trimEnd_le front
  have hpos := List.length_pos_of_ne_nil hlist
  rw [hwritten.key_eq]
  simp only [List.length_append, List.length_cons, List.length_nil]
  omega

theorem exists_key_of_mem_levels {d : Decoration} (h : d ∈ levels key) :
    ∃ k, parse? k = some d := by
  fun_induction levels key with
  | case1 key hkey => cases h
  | case2 key e he ih =>
    rcases List.mem_cons.mp h with rfl | h
    · exact ⟨key, he⟩
    · exact ih h

/-- Every level lists a profile, and profiles are trimmed and not blank. -/
theorem exists_profile_of_mem_levels {d : Decoration} (h : d ∈ levels key) :
    ∃ x ∈ d.profiles, Text.trim x = x ∧ x ≠ [] := by
  obtain ⟨k, hk⟩ := exists_key_of_mem_levels h
  obtain ⟨front, list, hwritten⟩ := parse?_eq_some_iff.mp hk
  obtain ⟨x, hx⟩ := List.exists_mem_of_ne_nil _ hwritten.profiles_ne
  refine ⟨x, hx, ?_⟩
  obtain ⟨parts, -, hprofiles⟩ := hwritten.profiles_eq
  rw [hprofiles] at hx
  obtain ⟨hpart, hne⟩ := List.mem_filter.mp hx
  obtain ⟨part, -, rfl⟩ := List.mem_map.mp hpart
  exact ⟨Text.trim_trim part, of_decide_eq_true hne⟩

/-! ### One loop -/

theorem Peels.unique {rounds rounds' : List Decoration} {out out' : Option (List Char)}
    (h : Peels passes key rounds out) (h' : Peels passes key rounds' out') :
    rounds = rounds' ∧ out = out' := by
  induction h generalizing rounds' out' with
  | bare hkey =>
    cases h' with
    | bare => exact ⟨rfl, rfl⟩
    | refused hd => rw [hkey] at hd; cases hd
    | round hd => rw [hkey] at hd; cases hd
  | refused hd hnot =>
    cases h' with
    | bare hkey => rw [hkey] at hd; cases hd
    | refused hd' =>
      obtain rfl := Option.some.inj (hd.symm.trans hd')
      exact ⟨rfl, rfl⟩
    | round hd' hpass =>
      obtain rfl := Option.some.inj (hd.symm.trans hd')
      exact absurd hpass hnot
  | round hd hpass _ ih =>
    cases h' with
    | bare hkey => rw [hkey] at hd; cases hd
    | refused hd' hnot =>
      obtain rfl := Option.some.inj (hd.symm.trans hd')
      exact absurd hpass hnot
    | round hd' _ hrest =>
      obtain rfl := Option.some.inj (hd.symm.trans hd')
      obtain ⟨rfl, rfl⟩ := ih hrest
      exact ⟨rfl, rfl⟩

theorem Peels.three_mul_rounds_le {rounds : List Decoration} {out : Option (List Char)}
    (h : Peels passes key rounds out) : 3 * rounds.length ≤ key.length := by
  induction h with
  | bare => exact Nat.zero_le _
  | refused hd =>
    have hle := length_name_add_three_le hd
    rw [List.length_singleton]
    omega
  | round hd _ _ ih =>
    have hle := length_name_add_three_le hd
    rw [List.length_cons]
    omega

/-- The bare name has no decoration and is what the key starts with. -/
theorem Peels.bare_name {rounds : List Decoration} {name : List Char}
    (h : Peels passes key rounds (some name)) :
    parse? name = none ∧ name <+: key ∧ (key ≠ [] → name ≠ []) := by
  generalize hout : some name = out at h
  induction h with
  | bare hkey =>
    obtain rfl := Option.some.inj hout
    exact ⟨hkey, List.prefix_rfl, id⟩
  | refused => cases hout
  | round hd _ _ ih =>
    obtain ⟨hplain, hpre, hne⟩ := ih hout
    obtain ⟨hname, hname_ne⟩ := name_isPrefix hd
    exact ⟨hplain, hpre.trans hname, fun _ => hne hname_ne⟩

/-! ### The two loops -/

theorem peels_strip (key : List Char) :
    Peels (fun _ => True) key (levels key) (some (strip key)) := by
  fun_induction levels key with
  | case1 key hkey =>
    rw [strip_of_plain hkey]
    exact .bare hkey
  | case2 key d hd ih =>
    rw [strip_of_decorated hd]
    exact .round hd trivial ih

theorem exists_peels_resolve (P : ProfileSet) (key : List Char) :
    ∃ rounds, rounds <+: levels key ∧ Peels P.Admits key rounds (P.resolveLetters key) := by
  fun_induction P.resolveLetters key with
  | case1 key hkey => exact ⟨[], List.nil_prefix, .bare hkey⟩
  | case2 key d hd hmeets ih =>
    obtain ⟨rounds, hpre, hpeels⟩ := ih
    refine ⟨d :: rounds, ?_, .round hd (ProfileSet.meets_eq_true_iff.mp hmeets) hpeels⟩
    rw [levels_of_decorated hd]
    exact (List.prefix_cons_inj d).mpr hpre
  | case3 key d hd hmeets =>
    refine ⟨[d], ?_, .refused hd fun hadmits => hmeets (ProfileSet.meets_eq_true_iff.mpr hadmits)⟩
    rw [levels_of_decorated hd]
    exact (List.prefix_cons_inj d).mpr List.nil_prefix

end Decoration

namespace ProfileSet

variable {P Q : ProfileSet} {key name : String}

theorem Admits.mono (hPQ : ∀ x, x ∈ P → x ∈ Q) {d : Decoration} (h : P.Admits d) : Q.Admits d := by
  obtain ⟨x, hx, hmem⟩ := h
  exact ⟨x, hx, hPQ _ hmem⟩

/-- A key survives when every profile that it lists is active. -/
theorem exists_resolve?_eq_some (key : String) : ∃ names,
    (ofList names).resolve? key = some (String.ofList (Decoration.strip key.toList)) := by
  let listed := (Decoration.levels key.toList).flatMap fun d => d.profiles.map String.ofList
  refine ⟨listed, resolve?_eq_some_iff.mpr ⟨?_, rfl⟩⟩
  intro d hd
  obtain ⟨x, hx, htrim, hne⟩ := Decoration.exists_profile_of_mem_levels hd
  refine ⟨x, hx, mem_ofList.mpr ⟨⟨String.ofList x, ?_, ?_⟩, ?_⟩⟩
  · exact List.mem_flatMap.mpr ⟨d, hd, List.mem_map_of_mem hx⟩
  · rw [Text.trimmed, String.toList_ofList, htrim]
  · intro hx
    apply hne
    have := congrArg String.toList hx
    simpa using this

theorem select_singleton (h : P.resolve? key = some name) (t : Tree) :
    P.select (.map [(key, t)]) = .map [(name, P.select t)] := by
  rw [select_map, List.filterMap_cons, h]
  rfl

/-! ## Top theorem (proved from the lemmas above) -/

/-- Both loops end on every key, and what is left is the same: the bare name, which the key starts
with.  Selection drops the key exactly when a level lists no active profile; more active profiles
keep it.  So a marker takes out the name under which its key survives. -/
theorem peeling_agrees (key : String) :
    let letters := key.toList
    let levels := Decoration.levels letters
    let bare := Decoration.strip letters
    (∀ rounds out, Decoration.Peels (fun _ => True) letters rounds out ↔
      rounds = levels ∧ out = some bare) ∧
    (∀ P : ProfileSet, ∃ rounds, rounds <+: levels ∧ ∀ rounds' out,
      Decoration.Peels P.Admits letters rounds' out ↔
        rounds' = rounds ∧ out = P.resolveLetters letters) ∧
    3 * levels.length ≤ letters.length ∧
    Decoration.parse? bare = none ∧ bare <+: letters ∧ (letters ≠ [] → bare ≠ []) ∧
    (∀ (P : ProfileSet) name, P.resolve? key = some name → name = String.ofList bare) ∧
    (∀ P : ProfileSet, P.resolve? key = none ↔
      ∃ d ∈ levels, ∀ x ∈ d.profiles, String.ofList x ∉ P) ∧
    (∀ P Q : ProfileSet, (∀ x, x ∈ P → x ∈ Q) →
      ∀ name, P.resolve? key = some name → Q.resolve? key = some name) ∧
    ∃ target, Tree.removalTarget? ("-" ++ key) = some target ∧
      (∃ names, (ofList names).resolve? key = some target) ∧
      ∀ (P : ProfileSet) name, P.resolve? key = some name →
        name = target ∧ ∀ t, P.select (.map [(key, t)]) = .map [(target, P.select t)] := by
  intro letters levels bare
  have hstrip := Decoration.peels_strip letters
  obtain ⟨hplain, hpre, hne⟩ := hstrip.bare_name
  have htarget : Tree.removalTarget? ("-" ++ key) = some (String.ofList bare) :=
    Tree.removalTarget?_eq_some_iff.mpr ⟨key, rfl, rfl⟩
  refine ⟨?_, ?_, hstrip.three_mul_rounds_le, hplain, hpre, hne, ?_, ?_, ?_, ?_⟩
  · intro rounds out
    refine ⟨fun h => h.unique hstrip, ?_⟩
    rintro ⟨rfl, rfl⟩
    exact hstrip
  · intro P
    obtain ⟨rounds, hrounds, hresolve⟩ := Decoration.exists_peels_resolve P letters
    refine ⟨rounds, hrounds, fun rounds' out => ⟨fun h => h.unique hresolve, ?_⟩⟩
    rintro ⟨rfl, rfl⟩
    exact hresolve
  · exact fun P name h => (resolve?_eq_some_iff.mp h).2
  · intro P
    rw [resolve?_eq_none_iff]
    simp only [Admits, not_exists, not_and]
    rfl
  · intro P Q hPQ name h
    obtain ⟨hadmits, hname⟩ := resolve?_eq_some_iff.mp h
    exact resolve?_eq_some_iff.mpr ⟨fun d hd => (hadmits d hd).mono hPQ, hname⟩
  · refine ⟨_, htarget, exists_resolve?_eq_some key, fun P name h => ?_⟩
    obtain rfl := (resolve?_eq_some_iff.mp h).2
    exact ⟨rfl, fun t => select_singleton h t⟩

/-- Two levels, a blank before the second one, and a bracket in the name that opens no list. -/
theorem peeling_agrees_stacked :
    let key := "a<b<dev> <test, eu>"
    let P := ofList ["dev", "eu"]
    let t := Tree.value "1"
    P.resolve? key = some "a<b" ∧ "a<b" = String.ofList (Decoration.strip key.toList) ∧
      (ofList ["dev", "eu", "x"]).resolve? key = some "a<b" ∧
      Tree.removalTarget? ("-" ++ key) = some "a<b" ∧
      P.select (.map [(key, t)]) = .map [("a<b", P.select t)] := by
  intro key P t
  have hP : P.resolve? key = some "a<b" := by decide +kernel
  have hsub : ∀ x, x ∈ P → x ∈ ofList ["dev", "eu", "x"] := by decide +kernel
  obtain ⟨-, -, -, -, -, -, hname, -, hmono, target, htarget, -, hselect⟩ := peeling_agrees key
  obtain ⟨rfl, hsurvives⟩ := hselect P _ hP
  exact ⟨hP, hname P _ hP, hmono P _ hsub _ hP, htarget, hsurvives t⟩

end ProfileSet

end LayeredConfig
