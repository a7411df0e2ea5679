import LayeredConfig.Proofs.Processing.Clean
import LayeredConfig.Proofs.Resolver.History

/-!
# The merged view of a resolver is clean

What processing leaves is clean, clean trees are what it leaves alone, and whatever calls a resolver
has seen, its merged view is made of processed trees only:

    ((new P).run as).resolve.root is clean, and no profiles change it        (clean_resolve_run)
-/

namespace LayeredConfig

open LayeredConfig.Tree

namespace Resolver

/-! ## Lemmas -/

theorem root_replay_clean (P : ProfileSet) (sources : List (String × RawSource)) :
    (replay P sources).resolve.root.Clean := by
  rw [root_replay]
  apply clean_mergeAll
  intro t ht
  obtain ⟨s, -, rfl⟩ := List.mem_map.mp ht
  exact clean_process P s.2.tree

theorem root_replay_distinct (P : ProfileSet) (sources : List (String × RawSource)) :
    (replay P sources).resolve.root.Distinct := by
  rw [root_replay]
  apply distinct_mergeAll
  intro t ht
  obtain ⟨s, -, rfl⟩ := List.mem_map.mp ht
  exact distinct_process P s.2.tree

/-! ## Top theorem (proved from the lemmas above) -/

/-- Processing gives clean trees whose maps name no key twice, and it changes exactly the other
ones; the merged view after any run is such a tree, so processing it again under any profiles
changes nothing. -/
theorem clean_resolve_run :
    (∀ (Q : ProfileSet) (t : Tree), (Q.process t).Clean ∧ (Q.process t).Distinct ∧
      (Q.process t = t ↔ t.Clean ∧ t.Distinct)) ∧
    ∀ (P : ProfileSet) (as : List Action) (Q : ProfileSet),
      let r := (new P).run as
      r.resolve.root.Clean ∧ Q.process r.resolve.root = r.resolve.root := by
  constructor
  · intro Q t
    exact ⟨clean_process Q t, distinct_process Q t, process_eq_self_iff Q t⟩
  · intro P as Q r
    have hr : r = replay _ _ := run_new P as
    have hclean : r.resolve.root.Clean := by
      rw [hr]
      exact root_replay_clean _ _
    have hdistinct : r.resolve.root.Distinct := by
      rw [hr]
      exact root_replay_distinct _ _
    exact ⟨hclean, process_of_clean Q hclean hdistinct⟩

end Resolver

end LayeredConfig
