import LayeredConfig.Proofs.Builder.Steps
import LayeredConfig.Proofs.Processing.Clean
import LayeredConfig.Proofs.Resolver.Reload

/-!
# What calls lead to

A resolver that calls on an empty one lead to (`Reached`) is the one from scratch over its own
sources, so that its names and its merged view can be read off them:

    Reached r → sourceNames r and the root of resolve r are those of the sources in merge order
                                                                       (sourceNames_eq, root_eq)

A reload does one of four things, by what stands under the name and whether it can be loaded
(`reload_cases`).  Where all raw trees are maps, as those are that come from a source (`AllMaps`),
the merged view is one (`isMap_root`).
-/

namespace LayeredConfig

namespace Resolver

/-- Calls on an empty resolver lead here. -/
def Reached (r : Resolver) : Prop := ∃ P as, r = (new P).run as

/-- Every raw tree is a map. -/
def AllMaps (r : Resolver) : Prop := ∀ s ∈ r.sources, s.2.tree.isMap = true

/-! ## Lemmas -/

section Reached

variable {r : Resolver} (h : r.Reached)

include h

theorem Reached.act (a : Action) : (r.act a).Reached := by
  obtain ⟨P, as, rfl⟩ := h
  exact ⟨P, as ++ [a], (run_append _ as [a]).symm⟩

theorem Reached.run (as : List Action) : (r.run as).Reached := by
  obtain ⟨P, bs, rfl⟩ := h
  exact ⟨P, bs ++ as, (run_append _ bs as).symm⟩

/-- The history that a reached resolver is the outcome of. -/
theorem Reached.exists_history : ∃ h, r = replay r.profiles (standing h) := by
  obtain ⟨P, as, rfl⟩ := h
  refine ⟨history as, ?_⟩
  rw [run_new]
  rfl

theorem Reached.eq_replay : r = replay r.profiles r.sources := by
  obtain ⟨h, hr⟩ := h.exists_history
  rw [hr]
  rfl

theorem Reached.nodup_keys : (Assoc.keys r.sources).Nodup := by
  obtain ⟨h, hr⟩ := h.exists_history
  rw [hr]
  exact nodup_keys_standing h

theorem Reached.sourceNames_eq :
    r.sourceNames = (mergeOrder (fun s => s.2.priority) r.sources).map Prod.fst := by
  conv_lhs => rw [h.eq_replay]
  exact sourceNames_replay r.profiles

theorem Reached.root_eq : r.resolve.root = Tree.mergeAll
    ((mergeOrder (fun s => s.2.priority) r.sources).map fun s => r.profiles.process s.2.tree) := by
  conv_lhs => rw [h.eq_replay]
  exact root_replay r.profiles

/-- The merged view, from the names and the raw trees alone. -/
theorem Reached.root_eq_of_names : r.resolve.root = Tree.mergeAll
    (r.sourceNames.filterMap fun name => (r.raw? name).map fun raw => r.process raw.tree) := by
  rw [h.root_eq, h.sourceNames_eq, List.filterMap_map, ← List.filterMap_eq_map]
  congr 1
  refine List.filterMap_congr fun s hs => ?_
  have hraw : r.raw? s.1 = some s.2 := Assoc.get?_of_mem h.nodup_keys (mem_mergeOrder.mp hs)
  show some (r.process s.2.tree) = (r.raw? s.1).map fun raw => r.process raw.tree
  rw [hraw, Option.map_some]

theorem Reached.nodup_sourceNames : r.sourceNames.Nodup := by
  rw [h.eq_replay]
  exact nodup_sourceNames_replay _ h.nodup_keys

theorem Reached.consistent : r.stack.Consistent := by
  rw [h.eq_replay]
  exact consistent_replay _ h.nodup_keys

end Reached

theorem reached_of_build {b : Builder} {env : Surroundings} {r : Resolver}
    (h : b.build env = .ok r) : r.Reached :=
  let ⟨as, hr⟩ := exists_run_of_build h
  ⟨b.profiles, as, hr⟩

/-! ### What a reload does -/

/-- A reload fails on a name that is not registered and on a source that cannot be loaded; it does
nothing to a tree without origin; else it puts what was loaded in place of what stood there. -/
theorem reload_cases (r : Resolver) (env : Surroundings) (name : String) :
    (r.raw? name = none ∧ r.reload env name = .error (.unknownSource name)) ∨
    (∃ raw, r.raw? name = some raw ∧ raw.origin = none ∧ r.reload env name = .ok r) ∨
    (∃ raw s e, r.raw? name = some raw ∧ raw.origin = some s ∧ s.loadMap env = .error e ∧
      r.reload env name = .error e) ∨
    ∃ raw s t, r.raw? name = some raw ∧ raw.origin = some s ∧ s.loadMap env = .ok t ∧
      r.reload env name =
        .ok (r.insert name { tree := t, priority := s.priority env, origin := some s }) := by
  cases hr : r.raw? name with
  | none => exact .inl ⟨rfl, reload_of_unknown hr⟩
  | some raw =>
    cases ho : raw.origin with
    | none => exact .inr (.inl ⟨raw, rfl, ho, reload_of_bare hr ho⟩)
    | some s =>
      cases hl : s.loadMap env with
      | error e => exact .inr (.inr (.inl ⟨raw, s, e, rfl, ho, hl, reload_of_error hr ho hl⟩))
      | ok t => exact .inr (.inr (.inr ⟨raw, s, t, rfl, ho, hl, reload_of_ok hr ho hl⟩))

/-! ### Maps -/

theorem allMaps_insert {r : Resolver} (h : r.AllMaps) (name : String) {raw : RawSource}
    (hraw : raw.tree.isMap = true) : (r.insert name raw).AllMaps := by
  intro s hs
  rcases List.mem_append.mp hs with hs | hs
  · exact h s (Assoc.mem_of_mem_erase hs)
  · rw [List.mem_singleton.mp hs]
    exact hraw

theorem allMaps_registerSource {r r' : Resolver} (h : r.AllMaps) {env : Surroundings} {s : Source}
    (hr : r.registerSource env s = .ok r') : r'.AllMaps := by
  cases hl : s.loadMap env with
  | error e =>
    rw [registerSource_of_error hl] at hr
    cases hr
  | ok t =>
    rw [registerSource_of_ok hl] at hr
    obtain rfl := Except.ok.inj hr
    exact allMaps_insert h s.name (Source.isMap_of_loadMap hl)

theorem allMaps_registerAll {env : Surroundings} {ss : List Source} {r r' : Resolver}
    (h : r.AllMaps) (hr : ss.foldlM (fun r s => Resolver.registerSource r env s) r = .ok r') :
    r'.AllMaps := by
  induction ss generalizing r with
  | nil => exact Except.ok.inj hr ▸ h
  | cons s ss ih =>
    rw [List.foldlM_cons] at hr
    obtain ⟨q, hq, hr⟩ := exists_of_bind_eq_ok hr
    exact ih (allMaps_registerSource h hq) hr

theorem allMaps_build {b : Builder} {env : Surroundings} {r : Resolver} (hb : b.RuntimeIsMap)
    (h : b.build env = .ok r) : r.AllMaps := by
  obtain ⟨q, hq, h⟩ := exists_of_bind_eq_ok h
  have hmaps : q.AllMaps := allMaps_registerAll (fun s hs => by cases hs) hq
  cases hrt : b.runtime with
  | none =>
    rw [hrt] at h
    exact Except.ok.inj h ▸ hmaps
  | some t =>
    rw [hrt] at h
    obtain rfl := Except.ok.inj h
    exact allMaps_insert hmaps Builder.runtimeName (hb t hrt)

/-- The merged view of maps is a map. -/
theorem isMap_root {r : Resolver} (h : r.Reached) (hmaps : r.AllMaps) :
    r.resolve.root.isMap = true := by
  rw [h.root_eq]
  apply Tree.isMap_mergeAll
  intro t ht
  obtain ⟨s, hs, rfl⟩ := List.mem_map.mp ht
  exact isMap_process _ (hmaps s (mem_mergeOrder.mp hs))

end Resolver

end LayeredConfig
