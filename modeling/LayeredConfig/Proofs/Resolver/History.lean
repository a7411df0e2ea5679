import LayeredConfig.Proofs.LayerStack.Order
import LayeredConfig.Resolver

/-!
# A resolver and the history of its registrations

A resolver is changed by calls (`Action`), each with the surroundings of its moment; a call that
fails leaves it as it was (`act`).  The history of a run (`history`) notes which source came in and
which name went out, and knows nothing of profiles, priorities or trees laid over each other.  The
sources that stand after it (`standing`) are those whose name no later event mentions.

`replay P sources` is the resolver that sees the given sources for the first time: each tree is
processed under `P`, the layers are sorted by priority and merged.  The resolver that is kept up to
date call by call never differs from it:

    (new P).run as = replay (current profiles) (standing (history as))            (run_new)

Read off at what can be seen of a resolver, this is `resolve_run`.

Step lemma: `act_replay`; it rests on `insert_replay`, `unregister_replay`,
`setProfiles_eq_replay`.
-/

namespace LayeredConfig

namespace Resolver

/-! ## Calls and runs -/

/-- A call that changes a resolver, with the surroundings in which a source is loaded. -/
inductive Action where
  | register (name : String) (t : Tree) (priority : Priority)
  | registerSource (env : Surroundings) (s : Source)
  | unregister (name : String)
  | reload (env : Surroundings) (name : String)
  | setProfiles (profiles : ProfileSet)

/-- The outcome of a call: a resolver afterwards, or the error that stopped it. -/
def attempt (r : Resolver) : Action → Except ConfigError Resolver
  | .register name t priority => .ok (r.register name t priority)
  | .registerSource env s => r.registerSource env s
  | .unregister name => .ok (r.unregister name)
  | .reload env name => r.reload env name
  | .setProfiles profiles => .ok (r.setProfiles profiles)

/-- The resolver after a call, which is the same one when the call fails. -/
def act (r : Resolver) (a : Action) : Resolver :=
  match r.attempt a with
  | .ok r' => r'
  | .error _ => r

def run (r : Resolver) (as : List Action) : Resolver := as.foldl act r

/-- Whether a call only changes the active profiles. -/
def Action.isSwitch : Action → Bool
  | .setProfiles _ => true
  | _ => false

/-- The calls of a run other than changes of the profiles. -/
def sourceCalls (as : List Action) : List Action := as.filter fun a => !a.isSwitch

/-- The active profiles after a call. -/
def Action.profilesAfter (P : ProfileSet) : Action → ProfileSet
  | .setProfiles Q => Q
  | _ => P

/-! ## Histories -/

/-- What a successful call does to the sources: one comes in last, or a name goes out. -/
inductive Event where
  | enter (name : String) (raw : RawSource)
  | leave (name : String)

def Event.name : Event → String
  | enter name _ => name
  | leave name => name

/-- The sources that a history leaves registered, in the order of their last registration: those
whose name no later event mentions. -/
def standing : List Event → List (String × RawSource)
  | [] => []
  | .enter name raw :: h =>
    if name ∈ h.map Event.name then standing h else (name, raw) :: standing h
  | .leave _ :: h => standing h

/-- The event of a call that follows a history; a call that fails makes none. -/
def Action.event? (h : List Event) : Action → Option Event
  | .register name t priority => some (.enter name { tree := t, priority })
  | .registerSource env s =>
    match s.loadMap env with
    | .ok t => some (.enter s.name { tree := t, priority := s.priority env, origin := some s })
    | .error _ => none
  | .unregister name => some (.leave name)
  | .reload env name =>
    match (Assoc.get? name (standing h)).bind RawSource.origin with
    | none => none
    | some s =>
      match s.loadMap env with
      | .ok t => some (.enter name { tree := t, priority := s.priority env, origin := some s })
      | .error _ => none
  | .setProfiles _ => none

/-- The events of a run, oldest first. -/
def history (as : List Action) : List Event :=
  as.foldl (fun h a => h ++ (a.event? h).toList) []

/-! ## The resolver from scratch -/

/-- A raw source as a layer, processed under the given profiles. -/
def layer (P : ProfileSet) (s : String × RawSource) : Layer :=
  ⟨s.1, P.process s.2.tree, s.2.priority⟩

/-- The resolver of the given sources, all processed, sorted and merged anew. -/
def replay (P : ProfileSet) (sources : List (String × RawSource)) : Resolver where
  profiles := P
  sources := sources
  stack := .sorted (sources.map (layer P))

/-! ## Lemmas -/

theorem names_map_layer (P : ProfileSet) (sources : List (String × RawSource)) :
    (sources.map (layer P)).map Layer.name = Assoc.keys sources := by
  rw [List.map_map]
  rfl

theorem filter_map_layer (P : ProfileSet) (name : String) {sources : List (String × RawSource)}
    (h : (Assoc.keys sources).Nodup) :
    (sources.map (layer P)).filter (fun m => m.name ≠ name) =
      (Assoc.erase name sources).map (layer P) := by
  rw [Assoc.erase_eq_filter h, List.filter_map]
  rfl

theorem insert_replay (P : ProfileSet) (name : String) (raw : RawSource)
    {sources : List (String × RawSource)} (h : (Assoc.keys sources).Nodup) :
    (replay P sources).insert name raw =
      replay P (Assoc.erase name sources ++ [(name, raw)]) := by
  have hstack : (LayerStack.sorted (sources.map (layer P))).register (layer P (name, raw)) =
      .sorted ((Assoc.erase name sources ++ [(name, raw)]).map (layer P)) := by
    rw [LayerStack.register_sorted, List.map_append, List.map_cons, List.map_nil]
    congr 2
    exact filter_map_layer P name h
  unfold insert replay
  congr 1

theorem get?_sources_isSome_iff {name : String} {sources : List (String × RawSource)} :
    (Assoc.get? name sources).isSome ↔ name ∈ Assoc.keys sources := by
  rw [← not_iff_not, ← Assoc.get?_eq_none_iff]
  simp

theorem unregister_replay (P : ProfileSet) (name : String)
    {sources : List (String × RawSource)} (h : (Assoc.keys sources).Nodup) :
    (replay P sources).unregister name = replay P (Assoc.erase name sources) := by
  have hstack : (LayerStack.sorted (sources.map (layer P))).unregister name =
      .sorted ((Assoc.erase name sources).map (layer P)) := by
    rw [LayerStack.unregister_sorted, filter_map_layer P name h]
  unfold unregister
  split
  · unfold replay
    congr 1
  · next hno =>
    have hmem : name ∉ Assoc.keys sources := by
      rw [← get?_sources_isSome_iff]
      exact hno
    have hall : ∀ s ∈ sources, decide (s.1 ≠ name) = true := by
      intro s hs
      refine decide_eq_true fun he => hmem ?_
      exact he ▸ List.mem_map_of_mem hs
    rw [Assoc.erase_eq_filter h, List.filter_eq_self.mpr hall]

theorem setProfiles_eq_replay (r : Resolver) (P : ProfileSet)
    (h : (Assoc.keys r.sources).Nodup) : r.setProfiles P = replay P r.sources := by
  have hstack : (r.sources.map (layer P)).foldl LayerStack.register {} =
      .sorted (r.sources.map (layer P)) := by
    apply LayerStack.registerAll_eq
    rw [names_map_layer]
    exact h
  rw [List.foldl_map] at hstack
  unfold setProfiles replay
  congr 1

/-! ### What stands after one more event -/

theorem enter_mem_of_mem_standing {h : List Event} {s : String × RawSource}
    (hs : s ∈ standing h) : .enter s.1 s.2 ∈ h := by
  induction h with
  | nil => cases hs
  | cons e h ih =>
    cases e with
    | leave name => exact List.mem_cons_of_mem _ (ih hs)
    | enter name raw =>
      rw [standing] at hs
      split at hs
      · exact List.mem_cons_of_mem _ (ih hs)
      · rcases List.mem_cons.mp hs with rfl | hs
        · exact List.mem_cons_self
        · exact List.mem_cons_of_mem _ (ih hs)

theorem nodup_keys_standing (h : List Event) : (Assoc.keys (standing h)).Nodup := by
  induction h with
  | nil => exact List.nodup_nil
  | cons e h ih =>
    cases e with
    | leave name => exact ih
    | enter name raw =>
      rw [standing]
      split
      · exact ih
      · next hnew =>
        rw [Assoc.keys_cons, List.nodup_cons]
        refine ⟨fun hmem => hnew ?_, ih⟩
        obtain ⟨s, hs, rfl⟩ := List.mem_map.mp hmem
        exact List.mem_map_of_mem (enter_mem_of_mem_standing hs)

/-- A later event outdates what stood under its name. -/
theorem standing_append (h : List Event) (e : Event) :
    standing (h ++ [e]) = Assoc.erase e.name (standing h) ++ standing [e] := by
  rw [Assoc.erase_eq_filter (nodup_keys_standing h)]
  induction h with
  | nil => rfl
  | cons d h ih =>
    cases d with
    | leave name => exact ih
    | enter name raw =>
      rw [List.cons_append, standing, standing, ih]
      by_cases hin : name ∈ h.map Event.name
      · have hin' : name ∈ (h ++ [e]).map Event.name := by
          rw [List.map_append]
          exact List.mem_append_left _ hin
        rw [if_pos hin, if_pos hin']
      · by_cases hne : name = e.name
        · have hin' : name ∈ (h ++ [e]).map Event.name := by simp [hne]
          rw [if_neg hin, if_pos hin', List.filter_cons, if_neg (by simp [hne])]
        · have hin' : name ∉ (h ++ [e]).map Event.name := by
            simp only [List.map_append, List.mem_append, List.map_cons, List.map_nil,
              List.mem_singleton, not_or]
            exact ⟨hin, hne⟩
          rw [if_neg hin, if_neg hin', List.filter_cons, if_pos (by simpa using hne),
            List.cons_append]

/-! ### One call, and a run -/

theorem act_of_attempt {r r' : Resolver} {a : Action} (h : r.attempt a = .ok r') :
    r.act a = r' := by
  unfold act
  rw [h]

theorem act_of_attempt_error {r : Resolver} {a : Action} {e : ConfigError}
    (h : r.attempt a = .error e) : r.act a = r := by
  unfold act
  rw [h]

/-- Every call does to the resolver from scratch what its event does to the history. -/
theorem act_replay (P : ProfileSet) (h : List Event) (a : Action) :
    (replay P (standing h)).act a =
      replay (a.profilesAfter P) (standing (h ++ (a.event? h).toList)) := by
  have hnd := nodup_keys_standing h
  have henter : ∀ name raw, (replay P (standing h)).insert name raw =
      replay P (standing (h ++ [.enter name raw])) := by
    intro name raw
    rw [insert_replay P name raw hnd, standing_append]
    rfl
  cases a with
  | register name t priority => exact henter name _
  | registerSource env s =>
    cases hl : s.loadMap env with
    | error e =>
      rw [act_of_attempt_error (a := .registerSource env s) (registerSource_of_error hl)]
      simp [Action.event?, hl, Action.profilesAfter]
    | ok t =>
      rw [act_of_attempt (a := .registerSource env s) (registerSource_of_ok hl)]
      simp only [Action.event?, hl]
      exact henter s.name _
  | unregister name =>
    show (replay P (standing h)).unregister name = replay P (standing (h ++ [.leave name]))
    rw [unregister_replay P name hnd, standing_append]
    simp [standing, Event.name]
  | reload env name =>
    cases hr : (replay P (standing h)).raw? name with
    | none =>
      have hget : Assoc.get? name (standing h) = none := hr
      rw [act_of_attempt_error (a := .reload env name) (reload_of_unknown hr)]
      simp [Action.event?, hget, Action.profilesAfter]
    | some raw =>
      have hget : Assoc.get? name (standing h) = some raw := hr
      cases ho : raw.origin with
      | none =>
        rw [act_of_attempt (a := .reload env name) (reload_of_bare hr ho)]
        simp [Action.event?, hget, ho, Action.profilesAfter]
      | some s =>
        cases hl : s.loadMap env with
        | error e =>
          rw [act_of_attempt_error (a := .reload env name) (reload_of_error hr ho hl)]
          simp [Action.event?, hget, ho, hl, Action.profilesAfter]
        | ok t =>
          rw [act_of_attempt (a := .reload env name) (reload_of_ok hr ho hl)]
          simp only [Action.event?, hget, ho, hl, Option.bind_some]
          exact henter name _
  | setProfiles Q =>
    show (replay P (standing h)).setProfiles Q = replay Q (standing (h ++ []))
    rw [List.append_nil]
    exact setProfiles_eq_replay _ Q hnd

theorem history_append (as : List Action) (a : Action) :
    history (as ++ [a]) = history as ++ (a.event? (history as)).toList := by
  unfold history
  rw [List.foldl_append]
  rfl

theorem run_append (r : Resolver) (as bs : List Action) : r.run (as ++ bs) = (r.run as).run bs :=
  List.foldl_append

theorem new_eq_replay (P : ProfileSet) : new P = replay P (standing []) := by
  unfold new replay standing
  rw [List.map_nil, LayerStack.sorted_nil]

/-- The resolver kept up to date call by call is the resolver from scratch. -/
theorem run_new (P : ProfileSet) (as : List Action) :
    (new P).run as = replay (as.foldl Action.profilesAfter P) (standing (history as)) := by
  induction as using List.reverseRecOn with
  | nil => exact new_eq_replay P
  | append_singleton as a ih =>
    rw [run_append, ih, history_append, List.foldl_append]
    exact act_replay _ _ a

theorem event?_of_isSwitch (h : List Event) {a : Action} (ha : a.isSwitch = true) :
    a.event? h = none := by
  cases a with
  | setProfiles Q => rfl
  | _ => cases ha

/-- Profile switches leave no trace in the history. -/
theorem history_sourceCalls (as : List Action) : history (sourceCalls as) = history as := by
  induction as using List.reverseRecOn with
  | nil => rfl
  | append_singleton as a ih =>
    unfold sourceCalls at ih ⊢
    rw [List.filter_append, List.filter_cons, List.filter_nil, history_append]
    by_cases ha : a.isSwitch = true
    · rw [if_neg (by simp [ha]), List.append_nil, ih, event?_of_isSwitch _ ha]
      simp
    · rw [if_pos (by simpa using ha), history_append, ih]

/-! ### What can be seen of the resolver from scratch -/

section Replay

variable (P : ProfileSet) {sources : List (String × RawSource)}

theorem layers_replay : (replay P sources).stack.layers =
    (mergeOrder (fun s => s.2.priority) sources).map (layer P) :=
  (map_mergeOrder (layer P) Layer.priority sources).symm

theorem sourceNames_replay : (replay P sources).sourceNames =
    (mergeOrder (fun s => s.2.priority) sources).map Prod.fst := by
  show (replay P sources).stack.layers.map Layer.name = _
  rw [layers_replay, List.map_map]
  rfl

theorem root_replay : (replay P sources).resolve.root = Tree.mergeAll
    ((mergeOrder (fun s => s.2.priority) sources).map fun s => P.process s.2.tree) := by
  show Tree.mergeAll ((replay P sources).stack.layers.map Layer.tree) = _
  rw [layers_replay, List.map_map]
  rfl

theorem nodup_sourceNames_replay (h : (Assoc.keys sources).Nodup) :
    (replay P sources).sourceNames.Nodup := by
  rw [sourceNames_replay]
  exact ((perm_mergeOrder _ sources).map Prod.fst).nodup_iff.mpr h

theorem mem_sourceNames_replay {name : String} :
    name ∈ (replay P sources).sourceNames ↔ ((replay P sources).raw? name).isSome := by
  rw [sourceNames_replay, raw?, get?_sources_isSome_iff]
  exact ((perm_mergeOrder _ sources).map Prod.fst).mem_iff

theorem ascending_layers_replay :
    (replay P sources).stack.layers.Pairwise fun l m => l.priority ≤ m.priority :=
  ascending_mergeOrder Layer.priority _

/-- Each layer is a raw source as the profiles see it. -/
theorem mem_layers_replay (h : (Assoc.keys sources).Nodup) {m : Layer} :
    m ∈ (replay P sources).stack.layers ↔
      ∃ raw, (replay P sources).raw? m.name = some raw ∧ m = layer P (m.name, raw) := by
  rw [layers_replay, List.mem_map]
  constructor
  · rintro ⟨s, hs, rfl⟩
    exact ⟨s.2, Assoc.get?_of_mem h (mem_mergeOrder.mp hs), rfl⟩
  · rintro ⟨raw, hraw, hm⟩
    exact ⟨(m.name, raw), mem_mergeOrder.mpr (Assoc.mem_of_get? hraw), hm.symm⟩

end Replay

/-! ## Top theorems (proved from the lemmas above) -/

/-- After any run, whatever fails on the way: the merged tree is that of the standing sources,
processed under the profiles of now and laid over each other by priority, ties by last
registration; the names are those of the standing sources in that order; and no profiles that were
active earlier can be told from it. -/
theorem resolve_run (P : ProfileSet) (as : List Action) :
    let r := (new P).run as
    let live := mergeOrder (fun s => s.2.priority) (standing (history as))
    r.resolve.root = (live.map fun s => r.process s.2.tree).foldl Tree.merge .empty ∧
      r.resolve.profiles = as.foldl Action.profilesAfter P ∧
      r.sourceNames = live.map Prod.fst ∧ r.sourceNames.Nodup ∧
      (∀ name, name ∈ r.sourceNames ↔ (r.raw? name).isSome) ∧
      (∀ s ∈ live, r.raw? s.1 = some s.2 ∧ r.priority? s.1 = some s.2.priority) ∧
      r.setProfiles r.profiles = r ∧
      ∀ Q bs, sourceCalls bs = sourceCalls as → ((new Q).run bs).setProfiles r.profiles = r := by
  intro r live
  have hnd := nodup_keys_standing (history as)
  have hr : r = replay (as.foldl Action.profilesAfter P) (standing (history as)) := run_new P as
  have hprofiles : r.profiles = as.foldl Action.profilesAfter P := by rw [hr]; rfl
  have hsources : r.sources = standing (history as) := by rw [hr]; rfl
  -- any resolver with these sources becomes `r` under the profiles of `r`
  have hswitch : ∀ q : Resolver, q.sources = r.sources → q.setProfiles r.profiles = r := by
    intro q hq
    rw [setProfiles_eq_replay q r.profiles (by rw [hq, hsources]; exact hnd), hq, hsources,
      hprofiles, ← hr]
  refine ⟨?_, hprofiles, ?_, ?_, ?_, ?_, hswitch r rfl, ?_⟩
  · rw [hr, root_replay]
    rfl
  · rw [hr, sourceNames_replay]
  · rw [hr]
    exact nodup_sourceNames_replay _ hnd
  · intro name
    rw [hr]
    exact mem_sourceNames_replay _
  · intro s hs
    have hraw : r.raw? s.1 = some s.2 := by
      show Assoc.get? s.1 r.sources = some s.2
      rw [hsources]
      exact Assoc.get?_of_mem hnd (mem_mergeOrder.mp hs)
    refine ⟨hraw, ?_⟩
    show (r.raw? s.1).map RawSource.priority = _
    rw [hraw]
    rfl
  · intro Q bs hbs
    apply hswitch
    rw [run_new, hsources]
    show standing (history bs) = standing (history as)
    rw [← history_sourceCalls bs, hbs, history_sourceCalls]

end Resolver

end LayeredConfig
