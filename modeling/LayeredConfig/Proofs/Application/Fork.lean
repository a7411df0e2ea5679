import LayeredConfig.Proofs.Application.Coherence
import LayeredConfig.Proofs.Tree.Without

/-!
# A fork and its parent

A fork registers the source of its identifier anew, so that this source comes last, where that of
the parent may stand before others that were loaded again.  Apart from it, the two have the same
sources in the same order (`Siblings`).  That source cannot be loaded again, so that every call does
the same to both, or fails on both with the same error:

    Siblings a b → both fail alike, or Siblings a' b' afterwards          (Siblings.attempt_cases)

The tree of an identifier has one key, `runtime`, and what stands under the other keys of the
merged view does not depend on it:

    Siblings a b → a.Agrees b                                             (Siblings.agrees)
-/

namespace LayeredConfig

/-- Under the same profiles, two maps that differ at most under one key. -/
structure Config.AgreesBut (key : String) (c d : Config) : Prop where
  profiles_eq : c.profiles = d.profiles
  isMap_left : c.root.isMap = true
  isMap_right : d.root.isMap = true
  without_eq : c.root.without key = d.root.without key

namespace Application

/-- The key of the root under which the identifier stands. -/
def instanceKey : String := "runtime"

/-- The same names, up to the place of the source of the identifier, and configurations that agree
but for the key of the identifier. -/
structure Agrees (a b : Application) : Prop where
  mem_left : instanceSource ∈ a.sourceNames
  mem_right : instanceSource ∈ b.sourceNames
  erase_eq : a.sourceNames.erase instanceSource = b.sourceNames.erase instanceSource
  config : a.config.AgreesBut instanceKey b.config

/-- Two calls that fail with the same error, or that answer with configurations that agree but for
the key of the identifier. -/
inductive SameReply : Except ApplicationError Config → Except ApplicationError Config → Prop
  | error (e : ApplicationError) : SameReply (.error e) (.error e)
  | ok {c d : Config} (h : c.AgreesBut instanceKey d) : SameReply (.ok c) (.ok d)

/-- The raw sources but that of the identifier. -/
def others (a : Application) : List (String × RawSource) :=
  a.resolver.sources.filter fun s => s.1 ≠ instanceSource

/-- The same profiles and the same sources, up to the source of the identifier. -/
structure Siblings (a b : Application) : Prop where
  left : a.Kept
  right : b.Kept
  profiles_eq : a.resolver.profiles = b.resolver.profiles
  others_eq : a.others = b.others

/-! ## Lemmas -/

theorem raw?_of_ne (a : Application) {n : String} (hn : n ≠ instanceSource) :
    a.resolver.raw? n = Assoc.get? n a.others :=
  (Assoc.get?_filter_of_ne hn a.resolver.sources).symm

theorem Siblings.raw?_eq {a b : Application} (h : a.Siblings b) {n : String}
    (hn : n ≠ instanceSource) : a.resolver.raw? n = b.resolver.raw? n := by
  rw [raw?_of_ne a hn, raw?_of_ne b hn, h.others_eq]

theorem others_publish_insert {a : Application} (h : a.Kept) {n : String} (hn : n ≠ instanceSource)
    (raw : RawSource) : (a.publish (a.resolver.insert n raw)).others =
      a.others.filter (fun s => s.1 ≠ n) ++ [(n, raw)] := by
  show (Assoc.erase n a.resolver.sources ++ [(n, raw)]).filter _ = _
  rw [Assoc.erase_eq_filter h.reached.nodup_keys, List.filter_append, List.filter_filter, others,
    List.filter_filter, List.filter_cons, if_pos (decide_eq_true hn)]
  simp only [Bool.and_comm, List.filter_nil]

/-! ### The same call on both -/

/-- A source is loaded again in both, or in neither. -/
theorem Siblings.reload_cases {a b : Application} (h : a.Siblings b) (env : Surroundings)
    (n : String) :
    (∃ e, a.reload env n = .error e ∧ b.reload env n = .error e) ∨
    ∃ a' b', a.reload env n = .ok a' ∧ b.reload env n = .ok b' ∧
      a'.resolver.profiles = b'.resolver.profiles ∧ a'.others = b'.others := by
  by_cases hn : n = instanceSource
  · -- an identifier has no origin, in either of them
    subst hn
    refine .inr ⟨a.publish a.resolver, b.publish b.resolver, ?_, ?_, h.profiles_eq, h.others_eq⟩
    · rw [reload, Resolver.reload_of_bare h.left.raw?_instance rfl]
    · rw [reload, Resolver.reload_of_bare h.right.raw?_instance rfl]
  · have hb := h.raw?_eq hn
    unfold reload
    obtain ⟨hr, he⟩ | ⟨raw, hr, ho, he⟩ | ⟨raw, s, e, hr, ho, hl, he⟩ |
      ⟨raw, s, t, hr, ho, hl, he⟩ := Resolver.reload_cases a.resolver env n
    · rw [he, Resolver.reload_of_unknown (hb ▸ hr)]
      exact .inl ⟨_, rfl, rfl⟩
    · rw [he, Resolver.reload_of_bare (hb ▸ hr) ho]
      exact .inr ⟨_, _, rfl, rfl, h.profiles_eq, h.others_eq⟩
    · rw [he, Resolver.reload_of_error (hb ▸ hr) ho hl]
      exact .inl ⟨_, rfl, rfl⟩
    · rw [he, Resolver.reload_of_ok (hb ▸ hr) ho hl]
      refine .inr ⟨_, _, rfl, rfl, h.profiles_eq, ?_⟩
      rw [others_publish_insert h.left hn, others_publish_insert h.right hn, h.others_eq]

theorem Siblings.attempt_cases {a b : Application} (h : a.Siblings b) (c : Action) :
    (∃ e, a.attempt c = .error e ∧ b.attempt c = .error e) ∨
    ∃ a' b', a.attempt c = .ok a' ∧ b.attempt c = .ok b' ∧ a'.Siblings b' := by
  have hcases : (∃ e, a.attempt c = .error e ∧ b.attempt c = .error e) ∨
      ∃ a' b', a.attempt c = .ok a' ∧ b.attempt c = .ok b' ∧
        a'.resolver.profiles = b'.resolver.profiles ∧ a'.others = b'.others := by
    cases c with
    | setProfiles P => exact .inr ⟨_, _, rfl, rfl, rfl, h.others_eq⟩
    | reload env n => exact h.reload_cases env n
    | applyChange env change => exact h.reload_cases env change.source
  obtain he | ⟨a', b', ha, hb, hprofiles, hothers⟩ := hcases
  · exact .inl he
  · have ha' : a'.Kept := act_of_call (call_of_attempt ha) ▸ h.left.act c
    have hb' : b'.Kept := act_of_call (call_of_attempt hb) ▸ h.right.act c
    exact .inr ⟨a', b', ha, hb, ha', hb', hprofiles, hothers⟩

/-! ### What can be seen of both -/

theorem Kept.mem_sourceNames {a : Application} (h : a.Kept) :
    instanceSource ∈ a.sourceNames := by
  show instanceSource ∈ a.resolver.sourceNames
  have hraw := h.raw?_instance
  rw [h.reached.eq_replay] at hraw ⊢
  rw [Resolver.mem_sourceNames_replay, hraw]
  rfl

theorem Kept.erase_sourceNames {a : Application} (h : a.Kept) :
    a.sourceNames.erase instanceSource =
      (mergeOrder (fun s => s.2.priority) a.others).map Prod.fst := by
  have hnames : a.sourceNames =
      (mergeOrder (fun s => s.2.priority) a.resolver.sources).map Prod.fst :=
    h.reached.sourceNames_eq
  have hnd : a.sourceNames.Nodup := h.reached.nodup_sourceNames
  rw [hnd.erase_eq_filter, hnames, List.filter_map, others, ← filter_mergeOrder]
  congr 1
  exact List.filter_congr fun s _ => by simp [bne, beq_eq_decide]

theorem without_process_instanceTree (P : ProfileSet) (id : InstanceId) :
    (P.process (instanceTree id)).without instanceKey = .empty := by
  rw [process_instanceTree]
  rfl

/-- What stands under the other keys is that of the other sources. -/
theorem Kept.root_without {a : Application} (h : a.Kept) :
    a.config.root.without instanceKey = Tree.mergeAll
      ((mergeOrder (fun s => s.2.priority) a.others).map fun s =>
        (a.resolver.profiles.process s.2.tree).without instanceKey) := by
  have hmap : ∀ s ∈ mergeOrder (fun s => s.2.priority) a.resolver.sources,
      (a.resolver.profiles.process s.2.tree).isMap = true := fun s hs =>
    isMap_process _ (h.allMaps s (mem_mergeOrder.mp hs))
  rw [h.config_eq, h.reached.root_eq, Tree.without_mergeAll, List.map_map, others,
    ← filter_mergeOrder]
  · apply Tree.mergeAll_map_filter
    · exact fun s hs => Tree.isMap_without _ (hmap s hs)
    · intro s hs hname
      obtain ⟨n, raw⟩ := s
      obtain rfl : n = instanceSource := by simpa using hname
      have hraw := Assoc.get?_of_mem h.reached.nodup_keys (mem_mergeOrder.mp hs)
      obtain rfl := Option.some.inj (hraw.symm.trans h.raw?_instance)
      exact without_process_instanceTree _ a.id
  · intro t ht
    obtain ⟨s, hs, rfl⟩ := List.mem_map.mp ht
    exact hmap s hs

theorem Siblings.agrees {a b : Application} (h : a.Siblings b) : a.Agrees b where
  mem_left := h.left.mem_sourceNames
  mem_right := h.right.mem_sourceNames
  erase_eq := by rw [h.left.erase_sourceNames, h.right.erase_sourceNames, h.others_eq]
  config := {
    profiles_eq := by
      rw [h.left.config_eq, h.right.config_eq]
      exact h.profiles_eq
    isMap_left := h.left.isMap_root
    isMap_right := h.right.isMap_root
    without_eq := by
      rw [h.left.root_without, h.right.root_without, h.others_eq, h.profiles_eq] }

/-! ### Runs -/

theorem Siblings.act {a b : Application} (h : a.Siblings b) (c : Action) :
    (a.act c).Siblings (b.act c) ∧ SameReply (a.call c).1 (b.call c).1 := by
  unfold Application.act
  obtain ⟨e, ha, hb⟩ | ⟨a', b', ha, hb, h'⟩ := h.attempt_cases c
  · rw [call_of_attempt_error ha, call_of_attempt_error hb]
    exact ⟨h, .error e⟩
  · rw [call_of_attempt ha, call_of_attempt hb]
    exact ⟨h', .ok h'.agrees.config⟩

theorem Siblings.run {a b : Application} (h : a.Siblings b) (cs : List Action) :
    (a.run cs).Siblings (b.run cs) ∧ List.Forall₂ SameReply (a.replies cs) (b.replies cs) := by
  induction cs generalizing a b with
  | nil => exact ⟨h, .nil⟩
  | cons c cs ih =>
    obtain ⟨hact, hreply⟩ := h.act c
    obtain ⟨hrun, hreplies⟩ := ih hact
    exact ⟨hrun, .cons hreply hreplies⟩

/-- A new instance puts the source of its identifier in place of any that was there. -/
theorem others_start {r : Resolver} (hnd : (Assoc.keys r.sources).Nodup) (id : InstanceId) :
    (start r id).others = r.sources.filter fun s => s.1 ≠ instanceSource := by
  show (Assoc.erase instanceSource r.sources ++ [(instanceSource, _)]).filter _ = _
  rw [Assoc.erase_eq_filter hnd, List.filter_append, List.filter_filter]
  simp

theorem siblings_fork {a : Application} (h : a.Kept) (id : InstanceId) :
    a.Siblings (a.fork id) where
  left := h
  right := kept_start h.reached h.allMaps id
  profiles_eq := rfl
  others_eq := (others_start h.reached.nodup_keys id).symm

/-- Two instances of one resolver differ in their identifiers alone. -/
theorem siblings_start {r : Resolver} (hr : r.Reached) (hmaps : r.AllMaps) (id id' : InstanceId) :
    (start r id).Siblings (start r id') where
  left := kept_start hr hmaps id
  right := kept_start hr hmaps id'
  profiles_eq := rfl
  others_eq := (others_start hr.nodup_keys id).trans (others_start hr.nodup_keys id').symm

/-! ## Top theorem (proved from the lemmas above) -/

/-- A fork agrees with its parent in everything but the identifier; and when the same calls are made
on both, each succeeds on both or fails on both with the same error, and they agree afterwards. -/
theorem fork_run {a₀ : Application} (h : Started a₀) (cs : List Action) (id : InstanceId) :
    let a := a₀.run cs
    a.Agrees (a.fork id) ∧ ∀ ds, (a.run ds).Agrees ((a.fork id).run ds) ∧
      List.Forall₂ SameReply (a.replies ds) ((a.fork id).replies ds) := by
  intro a
  have hfork : a.Siblings (a.fork id) := siblings_fork (kept_run h cs) id
  refine ⟨hfork.agrees, fun ds => ?_⟩
  obtain ⟨hrun, hreplies⟩ := hfork.run ds
  exact ⟨hrun.agrees, hreplies⟩

/-- A source that holds an identifier of its own lies above that of the parent and below that of the
fork, so that they differ under `runtime`; they agree elsewhere, also after a call that fails, a
change of profiles and a reload. -/
theorem fork_run_above :
    let tree : Tree := .map [("runtime", .map [("instance-id", .value "fixed")]),
      ("k<dev>", .value "1")]
    let source := Source.ofTree "x" tree Priority.runtime
    let ds : List Action :=
      [.reload {} "absent", .setProfiles ⟨["dev"], by simp⟩, .reload {} "x"]
    ∃ a₀ host, Builder.ofSteps [.source source] = .ok { sources := [source] } ∧
      ApplicationBuilder.build { config := { sources := [source] } } {} plainHost ⟨"7"⟩ =
        .ok (a₀, host) ∧
      let a := a₀.run [.reload {} "x"]
      let b := a.fork ⟨"8"⟩
      a.sourceNames = [instanceSource, "x"] ∧ b.sourceNames = ["x", instanceSource] ∧
        a.Agrees b ∧ (a.run ds).Agrees (b.run ds) ∧
        List.Forall₂ SameReply (a.replies ds) (b.replies ds) := by
  intro tree source ds
  have hsteps : Builder.ofSteps [.source source] = .ok { sources := [source] } := rfl
  obtain ⟨⟨a₀, host⟩, hbuild⟩ : ∃ built,
      ApplicationBuilder.build { config := { sources := [source] } } {} plainHost ⟨"7"⟩ =
        .ok built :=
    exists_of_isOk (by decide +kernel)
  obtain ⟨hagrees, hrun⟩ := fork_run (.build hsteps hbuild) [.reload {} "x"] ⟨"8"⟩
  refine ⟨a₀, host, hsteps, hbuild, ?_, ?_, hagrees, hrun ds⟩
  all_goals
    obtain ⟨r, hr, rfl⟩ := eq_start_of_build hbuild
    obtain rfl := Except.ok.inj hr
    rfl

end Application

end LayeredConfig
