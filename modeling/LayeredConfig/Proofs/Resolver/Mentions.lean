import LayeredConfig.Proofs.Processing.Mentions
import LayeredConfig.Proofs.Resolver.History

/-!
# Profiles that nothing mentions

A switch makes every layer anew from its raw tree, and that layer depends on the profiles only
through those that the tree mentions.  So two profile sets that agree on what the raw trees mention
lead to the same layers, and to the same merged view:

    P, Q agree on the mentions of all raw trees →
      (r.setProfiles P).stack = (r.setProfiles Q).stack                  (stack_setProfiles_eq)
-/

namespace LayeredConfig

namespace Resolver

/-! ## Lemmas -/

theorem stack_setProfiles (r : Resolver) (P : ProfileSet) :
    (r.setProfiles P).stack = (r.sources.map (layer P)).foldl LayerStack.register {} := by
  rw [List.foldl_map]
  rfl

theorem layer_eq_of_agrees {P Q : ProfileSet} {s : String × RawSource}
    (h : P.Agrees Q s.2.tree.mentions) : layer P s = layer Q s := by
  unfold layer
  rw [ProfileSet.process_eq_of_agrees h]

theorem stack_setProfiles_eq {r : Resolver} {P Q : ProfileSet}
    (h : ∀ s ∈ r.sources, P.Agrees Q s.2.tree.mentions) :
    (r.setProfiles P).stack = (r.setProfiles Q).stack := by
  rw [stack_setProfiles, stack_setProfiles,
    List.map_congr_left fun s hs => layer_eq_of_agrees (h s hs)]

/-! ## Top theorem (proved from the lemmas above) -/

/-- Profile sets that agree on what a tree mentions process it alike; and a switch to either of them
gives the same merged view and the same order of names, when they agree on what the raw trees
mention, whatever the resolver has seen before. -/
theorem setProfiles_eq_of_agrees :
    (∀ (P Q : ProfileSet) (t : Tree), P.Agrees Q t.mentions → P.process t = Q.process t) ∧
    ∀ (P₀ : ProfileSet) (as : List Action) (P Q : ProfileSet),
      let r := (new P₀).run as
      (∀ name raw, r.raw? name = some raw → P.Agrees Q raw.tree.mentions) →
      (r.setProfiles P).resolve.root = (r.setProfiles Q).resolve.root ∧
        (r.setProfiles P).sourceNames = (r.setProfiles Q).sourceNames := by
  constructor
  · intro P Q t h
    exact ProfileSet.process_eq_of_agrees h
  · intro P₀ as P Q r h
    have hnd : (Assoc.keys r.sources).Nodup := by
      have hr : r = replay _ _ := run_new P₀ as
      rw [hr]
      exact nodup_keys_standing _
    have hstack : (r.setProfiles P).stack = (r.setProfiles Q).stack :=
      stack_setProfiles_eq fun s hs => h s.1 s.2 (Assoc.get?_of_mem hnd hs)
    exact ⟨congrArg LayerStack.merged hstack, congrArg LayerStack.names hstack⟩

/-- One of the two sets holds a profile that is mentioned nowhere; the others stand at two levels
of a stack, and on a marker. -/
theorem setProfiles_eq_of_agrees_stacked :
    let low : Tree := .map [("db<dev>", .map [("url<eu><dev>", .value "1"), ("url", .value "2")])]
    let high : Tree := .map [("-cache<ops>", .value ""), ("cache", .value "3")]
    let P := ProfileSet.ofList ["dev", "local"]
    let Q := ProfileSet.ofList ["dev"]
    let r := (new .empty).run [.register "low" low 0, .register "high" high 0]
    P ≠ Q ∧ P.Agrees Q low.mentions ∧ P.Agrees Q high.mentions ∧
      (r.setProfiles P).resolve.root = (r.setProfiles Q).resolve.root := by
  intro low high P Q r
  have hlow : P.Agrees Q low.mentions := by
    show ∀ x ∈ low.mentions, x ∈ P ↔ x ∈ Q
    decide +kernel
  have hhigh : P.Agrees Q high.mentions := by
    show ∀ x ∈ high.mentions, x ∈ P ↔ x ∈ Q
    decide +kernel
  refine ⟨by decide +kernel, hlow, hhigh, ?_⟩
  refine (setProfiles_eq_of_agrees.2 .empty _ P Q ?_).1
  intro name raw hraw
  have hmem : (name, raw) ∈ [("low", RawSource.mk low 0 none), ("high", RawSource.mk high 0 none)] :=
    Assoc.mem_of_get? hraw
  simp only [List.mem_cons, Prod.mk.injEq, List.not_mem_nil, or_false] at hmem
  rcases hmem with ⟨-, rfl⟩ | ⟨-, rfl⟩
  · exact hlow
  · exact hhigh

end Resolver

end LayeredConfig
