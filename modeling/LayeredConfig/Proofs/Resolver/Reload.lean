import LayeredConfig.Builder
import LayeredConfig.Proofs.LayerStack.Raise
import LayeredConfig.Proofs.Processing.Clean
import LayeredConfig.Proofs.Resolver.History

/-!
# Reloading a source that has not changed

A reload is a registration: a source that loads the tree it has already keeps its tree and its
origin, and comes to lie above the other sources that do not outrank it.  With the priority that it
has already, it passes the later sources of that priority and nothing else.  So it is no change
exactly when there are none (`reload_unchanged`); two sources of one priority change places when the
lower one is reloaded (`reload_moves_above_tie`).

Values and arrays are read as before where the trees are apart: the ones that it passes cover none
of its values, and it covers none of theirs.
-/

namespace LayeredConfig

open LayeredConfig.Tree

namespace Resolver

/-! ## Origins -/

/-- A source that was loaded lies at the priority that its origin gave then. -/
def Event.FromOrigin : Event → Prop
  | .enter _ raw => ∀ s, raw.origin = some s → ∃ env, raw.priority = s.priority env
  | .leave _ => True

theorem fromOrigin_event? {h : List Event} {a : Action} {e : Event} (he : a.event? h = some e) :
    e.FromOrigin := by
  cases a with
  | register name t priority =>
    obtain rfl := Option.some.inj he
    intro s hs
    cases hs
  | registerSource env s =>
    cases hl : s.loadMap env with
    | error err => simp [Action.event?, hl] at he
    | ok t =>
      simp only [Action.event?, hl, Option.some.injEq] at he
      subst he
      rintro _ ⟨⟩
      exact ⟨env, rfl⟩
  | unregister name =>
    obtain rfl := Option.some.inj he
    trivial
  | reload env name =>
    cases ho : (Assoc.get? name (standing h)).bind RawSource.origin with
    | none => simp [Action.event?, ho] at he
    | some s =>
      cases hl : s.loadMap env with
      | error err => simp [Action.event?, ho, hl] at he
      | ok t =>
        simp only [Action.event?, ho, hl, Option.some.injEq] at he
        subst he
        rintro _ ⟨⟩
        exact ⟨env, rfl⟩
  | setProfiles P => cases he

theorem fromOrigin_history {as : List Action} : ∀ e ∈ history as, e.FromOrigin := by
  induction as using List.reverseRecOn with
  | nil =>
    intro e he
    cases he
  | append_singleton as a ih =>
    intro e he
    rw [history_append] at he
    rcases List.mem_append.mp he with he | he
    · exact ih e he
    · exact fromOrigin_event? (Option.mem_toList.mp he)

/-! ## A builder's resolver -/

theorem run_registerSource {env : Surroundings} {ss : List Source} {r r' : Resolver}
    (h : ss.foldlM (fun r s => Resolver.registerSource r env s) r = .ok r') :
    r' = r.run (ss.map (Action.registerSource env)) := by
  induction ss generalizing r with
  | nil => exact (Except.ok.inj h).symm
  | cons s ss ih =>
    rw [List.foldlM_cons] at h
    cases hs : r.registerSource env s with
    | error e =>
      rw [hs] at h
      cases h
    | ok q =>
      rw [hs] at h
      have hact : r.act (.registerSource env s) = q := act_of_attempt hs
      rw [List.map_cons, run, List.foldl_cons, hact]
      exact ih h

/-- What a builder builds is reached by registrations from the empty resolver. -/
theorem exists_run_of_build {b : Builder} {env : Surroundings} {r : Resolver}
    (h : b.build env = .ok r) : ∃ as, r = (new b.profiles).run as := by
  unfold Builder.build at h
  cases hfold : b.sources.foldlM (fun r s => Resolver.registerSource r env s) (.new b.profiles) with
  | error e =>
    rw [hfold] at h
    cases h
  | ok q =>
    rw [hfold] at h
    have hq := run_registerSource hfold
    cases hrt : b.runtime with
    | none =>
      rw [hrt] at h
      obtain rfl := Except.ok.inj h
      exact ⟨_, hq⟩
    | some t =>
      rw [hrt] at h
      obtain rfl := Except.ok.inj h
      refine ⟨b.sources.map (Action.registerSource env) ++
        [.register Builder.runtimeName t Priority.runtime], ?_⟩
      rw [run_append, ← hq]
      rfl

/-! ## Registering a raw source again -/

theorem raw?_insert {r : Resolver} (h : (Assoc.keys r.sources).Nodup) (name n : String)
    (raw : RawSource) : (r.insert name raw).raw? n = if name = n then some raw else r.raw? n := by
  show Assoc.get? n (Assoc.erase name r.sources ++ [(name, raw)]) = _
  rw [Assoc.get?_append, Assoc.get?_erase h]
  by_cases hn : name = n
  · rw [if_pos hn, if_pos hn, Option.none_or, Assoc.get?, if_pos hn]
  · rw [if_neg hn, if_neg hn, Assoc.get?, if_neg hn]
    exact Option.or_none

section Again

variable (P : ProfileSet) {sources : List (String × RawSource)}
  (h : (Assoc.keys sources).Nodup)

include h

/-- The merged view, from the names in their order and the raw trees under them. -/
theorem root_replay_eq_foldl : (replay P sources).resolve.root =
    ((replay P sources).sourceNames.filterMap fun n =>
      ((replay P sources).raw? n).map fun raw => P.process raw.tree).foldl Tree.merge .empty := by
  show Tree.mergeAll ((replay P sources).stack.layers.map Layer.tree) = Tree.mergeAll
    (((replay P sources).stack.layers.map Layer.name).filterMap _)
  have hlayer : ∀ m ∈ (replay P sources).stack.layers,
      ((replay P sources).raw? m.name).map (fun raw => P.process raw.tree) = some m.tree := by
    intro m hm
    obtain ⟨raw, hraw, hm⟩ := (mem_layers_replay P h).mp hm
    rw [hraw, hm]
    rfl
  rw [List.filterMap_map, ← List.filterMap_eq_map]
  congr 1
  exact (List.filterMap_congr hlayer).symm

theorem consistent_replay : (replay P sources).stack.Consistent where
  nodup_names := nodup_sourceNames_replay P h
  merged_eq := rfl
  distinct := by
    intro m hm
    obtain ⟨raw, -, hm⟩ := (mem_layers_replay P h).mp hm
    rw [hm]
    exact distinct_process P raw.tree

theorem priority?_of_mem_layers {m : Layer} (hm : m ∈ (replay P sources).stack.layers) :
    (replay P sources).priority? m.name = some m.priority := by
  obtain ⟨raw, hraw, hm⟩ := (mem_layers_replay P h).mp hm
  unfold priority?
  rw [hraw, hm]
  rfl

/-- A raw source that is registered again as it is. -/
theorem raw?_insert_self {name : String} {raw : RawSource}
    (hraw : (replay P sources).raw? name = some raw) (n : String) :
    ((replay P sources).insert name raw).raw? n = (replay P sources).raw? n := by
  rw [raw?_insert h]
  split
  · next hn => rw [← hn, hraw]
  · rfl

/-- The root after a raw source is registered again with its tree, from the names in their new order
and the raw trees under them. -/
theorem root_insert_of_tree_eq {name : String} {raw raw' : RawSource}
    (hraw : (replay P sources).raw? name = some raw) (htree : raw'.tree = raw.tree) :
    ((replay P sources).insert name raw').resolve.root =
      (((replay P sources).insert name raw').sourceNames.filterMap fun n =>
        ((replay P sources).raw? n).map fun x => P.process x.tree).foldl Tree.merge .empty := by
  have htrees : ∀ n, (((replay P sources).insert name raw').raw? n).map
      (fun x => P.process x.tree) =
        ((replay P sources).raw? n).map fun x => P.process x.tree := by
    intro n
    rw [raw?_insert h]
    split
    · next hn => rw [← hn, hraw, Option.map_some, Option.map_some, htree]
    · rfl
  have hnd := Assoc.nodup_keys_erase_append h name raw'
  rw [insert_replay P name raw' h] at htrees ⊢
  rw [root_replay_eq_foldl P hnd]
  simp only [htrees]

/-- Where a raw source comes to lie: above those that do not outrank it. -/
theorem exists_split_insert (name : String) (raw : RawSource) :
    ∃ low high, (replay P sources).sourceNames.filter (· ≠ name) = low ++ high ∧
      ((replay P sources).insert name raw).sourceNames = low ++ name :: high ∧
      (∀ n ∈ low, ∃ p, (replay P sources).priority? n = some p ∧ p ≤ raw.priority) ∧
      ∀ n ∈ high, ∃ p, (replay P sources).priority? n = some p ∧ raw.priority < p := by
  obtain ⟨low, high, hothers, hlayers, hlow, hhigh⟩ :=
    LayerStack.exists_split_register (ascending_layers_replay P) (layer P (name, raw))
  have hmem : ∀ m ∈ low ++ high, m ∈ (replay P sources).stack.layers := by
    intro m hm
    rw [← hothers] at hm
    exact List.mem_of_mem_filter hm
  refine ⟨low.map Layer.name, high.map Layer.name, ?_, ?_, ?_, ?_⟩
  · show ((replay P sources).stack.layers.map Layer.name).filter _ = _
    rw [List.filter_map, ← List.map_append, ← hothers]
    rfl
  · show ((replay P sources).stack.register (layer P (name, raw))).layers.map Layer.name = _
    rw [hlayers, List.map_append, List.map_cons]
    rfl
  · intro n hn
    obtain ⟨m, hm, rfl⟩ := List.mem_map.mp hn
    exact ⟨m.priority, priority?_of_mem_layers P h (hmem m (List.mem_append_left _ hm)), hlow m hm⟩
  · intro n hn
    obtain ⟨m, hm, rfl⟩ := List.mem_map.mp hn
    exact ⟨m.priority, priority?_of_mem_layers P h (hmem m (List.mem_append_right _ hm)),
      hhigh m hm⟩

/-- Its layer, moved above the later ones of its priority. -/
theorem raised_insert_self {name : String} {raw : RawSource}
    (hraw : (replay P sources).raw? name = some raw) :
    ∃ low ties high, LayerStack.Raised (layer P (name, raw)) low ties high
      (replay P sources).stack ((replay P sources).insert name raw).stack := by
  have hl : layer P (name, raw) ∈ (replay P sources).stack.layers :=
    (mem_layers_replay P h).mpr ⟨raw, hraw, rfl⟩
  exact LayerStack.raised_register_self (nodup_sourceNames_replay P h)
    (ascending_layers_replay P) hl

end Again

/-! ## Top theorems (proved from the lemmas above) -/

/-- A source that loads the tree it has is reloaded without an error, and its reload only changes
its place: it lies above the sources that do not outrank the priority that it gives now.  That is
the priority it has, unless it gives different ones; then it moves from below the later sources of
its priority to above them.  With no such source everything stays; and values and arrays stay when
it is apart from each of them. -/
theorem reload_unchanged {b : Builder} {env₀ env : Surroundings} {r₀ : Resolver}
    (hb : b.build env₀ = .ok r₀) (as : List Action) {name : String} {raw : RawSource} {s : Source}
    (hraw : (r₀.run as).raw? name = some raw) (ho : raw.origin = some s)
    (hload : s.loadMap env = .ok raw.tree) :
    let r := r₀.run as
    ∃ r', r.reload env name = .ok r' ∧ r'.profiles = r.profiles ∧
      (∀ n, r'.raw? n =
        if name = n then some { raw with priority := s.priority env } else r.raw? n) ∧
      r'.resolve.root = (r'.sourceNames.filterMap fun n =>
        (r.raw? n).map fun x => r.process x.tree).foldl Tree.merge .empty ∧
      (∃ low high, r.sourceNames.filter (· ≠ name) = low ++ high ∧
        r'.sourceNames = low ++ name :: high ∧
        (∀ n ∈ low, ∃ p, r.priority? n = some p ∧ p ≤ s.priority env) ∧
        ∀ n ∈ high, ∃ p, r.priority? n = some p ∧ s.priority env < p) ∧
      ((∀ env', s.priority env' = s.priority env) → s.priority env = raw.priority) ∧
      (s.priority env = raw.priority → (∀ n, r'.raw? n = r.raw? n) ∧
        ∃ low ties high, r.sourceNames = low ++ name :: (ties ++ high) ∧
          r'.sourceNames = low ++ ties ++ name :: high ∧
          (∀ n ∈ ties, r.priority? n = some raw.priority) ∧
          (∀ n ∈ high, ∃ p, r.priority? n = some p ∧ raw.priority < p) ∧
          (r'.sourceNames = r.sourceNames ↔ ties = []) ∧
          (ties = [] → r'.resolve = r.resolve) ∧
          ((∀ n ∈ ties, ∀ x, r.raw? n = some x →
            (r.process raw.tree).Apart (r.process x.tree)) →
              r.resolve.root.SameLeaves r'.resolve.root)) := by
  intro r
  -- the resolver is the one from scratch over what stands
  obtain ⟨bs, rfl⟩ := exists_run_of_build hb
  obtain ⟨P, sources, hr, hnd, horigin⟩ : ∃ P sources, r = replay P sources ∧
      (Assoc.keys sources).Nodup ∧ ∀ x ∈ sources, (Event.enter x.1 x.2).FromOrigin := by
    refine ⟨_, _, (run_append _ bs as).symm.trans (run_new _ _), nodup_keys_standing _, ?_⟩
    intro x hx
    exact fromOrigin_history _ (enter_mem_of_mem_standing hx)
  change r.raw? name = some raw at hraw
  clear_value r
  subst hr
  have hreload : (replay P sources).reload env name =
      .ok ((replay P sources).insert name { raw with priority := s.priority env }) := by
    rw [reload_of_ok hraw ho hload, ← ho]
  refine ⟨_, hreload, rfl, fun n => raw?_insert hnd name n _, root_insert_of_tree_eq P hnd hraw rfl,
    exists_split_insert P hnd name _, ?_, fun hpri => ?_⟩
  · intro hfixed
    obtain ⟨env', hpri⟩ := horigin _ (Assoc.mem_of_get? hraw) s ho
    exact (hfixed env').symm.trans hpri.symm
  -- the raw source is registered again as it is
  rw [hpri]
  have hs := consistent_replay P hnd
  have hs' : ((replay P sources).insert name raw).stack.Consistent :=
    hs.register (distinct_process P raw.tree)
  obtain ⟨low, ties, high, hraised⟩ := raised_insert_self P hnd hraw
  refine ⟨raw?_insert_self P hnd hraw,
    low.map Layer.name, ties.map Layer.name, high.map Layer.name, hraised.names_before,
    hraised.names_after, ?_, ?_, hraised.names_eq_iff hs, ?_, ?_⟩
  · intro n hn
    obtain ⟨m, hm, rfl⟩ := List.mem_map.mp hn
    rw [priority?_of_mem_layers P hnd (hraised.mem_of_mem_ties hm), hraised.priority_ties m hm]
    rfl
  · intro n hn
    obtain ⟨m, hm, rfl⟩ := List.mem_map.mp hn
    exact ⟨m.priority, priority?_of_mem_layers P hnd (hraised.mem_of_mem_high hm),
      hraised.priority_high m hm⟩
  · intro hnone
    have hmerged := hraised.merged_eq hs hs' (List.map_eq_nil_iff.mp hnone)
    exact congrArg (Config.mk · P) hmerged
  · intro hapart
    apply hraised.sameLeaves hs hs'
    intro m hm
    obtain ⟨x, hx, hm'⟩ := (mem_layers_replay P hnd).mp (hraised.mem_of_mem_ties hm)
    rw [hm']
    exact hapart m.name (List.mem_map_of_mem hm) x hx

/-- Of two sources without a common key the lower one is reloaded: they change places, and every
value is read as before. -/
theorem reload_unchanged_apart :
    let db : Tree := .map [("db", .map [("url", .value "x")])]
    let web : Tree := .map [("web", .map [("port", .value "80")])]
    let first := Source.ofTree "first" db 0
    let second := Source.ofTree "second" web 0
    let b : Builder := { sources := [first, second] }
    ∃ r₀ r', b.build {} = .ok r₀ ∧
      let r := r₀.run [.setProfiles .empty]
      r.raw? "first" = some ⟨db, 0, some first⟩ ∧ first.loadMap {} = .ok db ∧
      r.reload {} "first" = .ok r' ∧ r.sourceNames = ["first", "second"] ∧
      r'.sourceNames = ["second", "first"] ∧ r.resolve.root.SameLeaves r'.resolve.root := by
  intro db web first second b
  obtain ⟨r₀, hb⟩ : ∃ r₀, b.build {} = .ok r₀ := ⟨_, rfl⟩
  let as : List Action := [.setProfiles .empty]
  obtain ⟨hfirst, hsecond, hnames⟩ : (r₀.run as).raw? "first" = some ⟨db, 0, some first⟩ ∧
      (r₀.run as).raw? "second" = some ⟨web, 0, some second⟩ ∧
      (r₀.run as).sourceNames = ["first", "second"] := by
    obtain rfl := Except.ok.inj hb
    exact ⟨rfl, rfl, rfl⟩
  have hload : first.loadMap {} = .ok db := rfl
  obtain ⟨r', hr', -, -, -, -, -, hsame⟩ := reload_unchanged hb as hfirst rfl hload
  obtain ⟨-, low, ties, high, hbefore, hafter, -, hhigh, -, -, hleaves⟩ := hsame rfl
  obtain ⟨rfl, rfl, rfl⟩ : low = [] ∧ ties = ["second"] ∧ high = [] := by
    rw [hnames] at hbefore
    cases low with
    | cons n low => cases low <;> simp at hbefore
    | nil =>
      obtain h | h := List.append_eq_singleton_iff.mp (List.cons.inj hbefore).2.symm
      · -- the second source has the same priority, so that it is a tie
        obtain ⟨p, hp, hlt⟩ := hhigh "second" (by simp [h])
        have hp' : (r₀.run as).priority? "second" = some 0 :=
          congrArg (Option.map RawSource.priority) hsecond
        obtain rfl := Option.some.inj (hp'.symm.trans hp)
        exact absurd hlt Int32.lt_irrefl
      · exact ⟨rfl, h⟩
  refine ⟨r₀, r', hb, hfirst, hload, hr', hnames, hafter, hleaves ?_⟩
  intro n hn x hx
  obtain rfl := List.mem_singleton.mp hn
  obtain rfl := Option.some.inj (hsecond.symm.trans hx)
  have hdb : (r₀.run as).process db = db := process_of_clean _ (by decide) (by decide)
  have hweb : (r₀.run as).process web = web := process_of_clean _ (by decide) (by decide)
  rw [hdb, hweb]
  exact apart_of_disjoint (by simp [Assoc.keys])

/-- Of two sources of one priority the lower one is reloaded, with the tree that it has: its value
now hides that of the other. -/
theorem reload_moves_above_tie :
    let one : Tree := .map [("k", .value "1")]
    let two : Tree := .map [("k", .value "2")]
    let first := Source.ofTree "first" one 0
    let second := Source.ofTree "second" two 0
    let b : Builder := { sources := [first, second] }
    ∃ r r', b.build {} = .ok r ∧ r.raw? "first" = some ⟨one, 0, some first⟩ ∧
      first.loadMap {} = .ok one ∧ r.reload {} "first" = .ok r' ∧
      r.sourceNames = ["first", "second"] ∧ r'.sourceNames = ["second", "first"] ∧
      r.resolve.root = two ∧ r'.resolve.root = one := by
  intro one two first second b
  have hone : ProfileSet.empty.process one = one := process_of_clean _ (by decide) (by decide)
  have htwo : ProfileSet.empty.process two = two := process_of_clean _ (by decide) (by decide)
  refine ⟨_, _, rfl, rfl, rfl, rfl, rfl, rfl, ?_, ?_⟩
  · show Tree.mergeAll [ProfileSet.empty.process one, ProfileSet.empty.process two] = two
    rw [hone, htwo]
    rfl
  · show Tree.mergeAll [ProfileSet.empty.process two, ProfileSet.empty.process one] = one
    rw [hone, htwo]
    rfl

end Resolver

end LayeredConfig
