import LayeredConfig.Proofs.Builder.Steps
import LayeredConfig.Proofs.Resolver.History

/-!
# What a builder loads

The steps of a builder say what it will load: the sources that they add one by one (`added`), the
profiles that they set last, and the tree in which their values collect (`Step.runtimeAfter`).
Loading is put off until the end, so that all sources are loaded in the order in which they were
added, the ones that a later source of the same name replaces included:

    build = error e ↔ the first added source that cannot be loaded fails with e   (build_eq_error_iff)

When all of them can be loaded, the last source of each name counts, in merge order, and the values
set in the program lie on top of everything (`build_eq_ok`).
-/

namespace LayeredConfig

/-- The tree that a source loads. -/
def Source.loaded (env : Surroundings) (s : Source) : Tree :=
  match s.loadMap env with
  | .ok t => t
  | .error _ => .empty

namespace Builder

/-! ## What all steps say -/

/-- The sources that steps add after `n` documents in text, in their order. -/
def added (n : Nat) : List Step → List Source
  | [] => []
  | s :: steps => (s.source? n).toList ++ added (n + s.documents) steps

/-- The sources that no later one of the same name replaces. -/
def lasting : List Source → List Source
  | [] => []
  | s :: ss => if s.name ∈ ss.map Source.name then lasting ss else s :: lasting ss

/-- The sources that count, in merge order: the last one of each name, unless values set in the
program take its name. -/
def live (env : Surroundings) (ss : List Source) (runtime : Option Tree) : List Source :=
  mergeOrder (fun s => s.priority env)
    ((lasting ss).filter fun s => runtime.isNone || s.name ≠ "runtime")

/-! ## Lemmas -/

/-! ### Steps -/

/-- After steps that succeed, a builder holds what the steps say. -/
theorem foldlM_step_eq_ok {steps : List Step} {b b' : Builder}
    (h : steps.foldlM step b = .ok b') :
    b'.sources = b.sources ++ added b.documents steps ∧
      b'.runtime = steps.foldl Step.runtimeAfter b.runtime ∧
      b'.profiles = steps.foldl Step.profilesAfter b.profiles := by
  induction steps generalizing b with
  | nil =>
    obtain rfl := Except.ok.inj h
    exact ⟨(List.append_nil _).symm, rfl, rfl⟩
  | cons s steps ih =>
    rw [List.foldlM_cons] at h
    obtain ⟨q, hq, h⟩ := exists_of_bind_eq_ok h
    obtain rfl := eq_after_of_step hq
    obtain ⟨hsources, hruntime, hprofiles⟩ := ih h
    refine ⟨?_, hruntime, hprofiles⟩
    rw [hsources, added, ← List.append_assoc]
    rfl

/-! ### The first source that fails -/

theorem registerAll_eq_error_iff {env : Surroundings} {ss : List Source} {r : Resolver}
    {e : ConfigError} :
    ss.foldlM (fun r s => Resolver.registerSource r env s) r = .error e ↔
      ∃ low s high, ss = low ++ s :: high ∧ (∀ q ∈ low, ∃ t, q.loadMap env = .ok t) ∧
        s.loadMap env = .error e := by
  induction ss generalizing r with
  | nil => simp [pure, Except.pure]
  | cons s ss ih =>
    rw [List.foldlM_cons]
    cases hs : s.loadMap env with
    | error d =>
      rw [Resolver.registerSource_of_error hs]
      constructor
      · intro h
        cases h
        exact ⟨[], s, ss, rfl, by simp, hs⟩
      · rintro ⟨low, q, high, hsplit, hlow, hq⟩
        cases low with
        | nil =>
          obtain ⟨rfl, -⟩ := List.cons.inj hsplit
          rw [hs] at hq
          cases hq
          rfl
        | cons p low =>
          obtain ⟨rfl, -⟩ := List.cons.inj hsplit
          obtain ⟨t, ht⟩ := hlow s List.mem_cons_self
          rw [hs] at ht
          cases ht
    | ok t =>
      rw [Resolver.registerSource_of_ok hs]
      refine Iff.trans ih ?_
      constructor
      · rintro ⟨low, q, high, rfl, hlow, hq⟩
        exact ⟨s :: low, q, high, rfl, List.forall_mem_cons.mpr ⟨⟨t, hs⟩, hlow⟩, hq⟩
      · rintro ⟨low, q, high, hsplit, hlow, hq⟩
        cases low with
        | nil =>
          obtain ⟨rfl, -⟩ := List.cons.inj hsplit
          rw [hs] at hq
          cases hq
        | cons p low =>
          obtain ⟨rfl, rfl⟩ := List.cons.inj hsplit
          exact ⟨low, q, high, rfl, fun x hx => hlow x (List.mem_cons_of_mem _ hx), hq⟩

theorem exists_first_failure {env : Surroundings} {ss : List Source} {s : Source}
    {e : ConfigError} (hs : s ∈ ss) (he : s.loadMap env = .error e) :
    ∃ low q high d, ss = low ++ q :: high ∧ (∀ p ∈ low, ∃ t, p.loadMap env = .ok t) ∧
      q.loadMap env = .error d := by
  induction ss with
  | nil => cases hs
  | cons q ss ih =>
    cases hq : q.loadMap env with
    | error d => exact ⟨[], q, ss, d, rfl, by simp, hq⟩
    | ok t =>
      have hs : s ∈ ss := by
        refine (List.mem_cons.mp hs).resolve_left ?_
        rintro rfl
        rw [he] at hq
        cases hq
      obtain ⟨low, p, high, d, rfl, hlow, hp⟩ := ih hs
      exact ⟨q :: low, p, high, d, rfl, List.forall_mem_cons.mpr ⟨⟨t, hq⟩, hlow⟩, hp⟩

/-! ### Sources that can all be loaded -/

section Loaded

variable {env : Surroundings}

theorem loadMap_eq_loaded {s : Source} (h : ∃ t, s.loadMap env = .ok t) :
    s.loadMap env = .ok (s.loaded env) := by
  obtain ⟨t, ht⟩ := h
  unfold Source.loaded
  rw [ht]

variable (env)

/-- A source as it stands in a resolver, under its name. -/
def entry (s : Source) : String × RawSource :=
  (s.name, { tree := s.loaded env, priority := s.priority env, origin := some s })

/-- The event of a source that comes in. -/
def entered (s : Source) : Resolver.Event := .enter (entry env s).1 (entry env s).2

/-- The values set in the program as they stand in a resolver. -/
def runtimeEntry (t : Tree) : String × RawSource :=
  ("runtime", { tree := t, priority := Priority.runtime })

theorem standing_map_entered (ss : List Source) :
    Resolver.standing (ss.map (entered env)) = (lasting ss).map (entry env) := by
  induction ss with
  | nil => rfl
  | cons s ss ih =>
    have hnames : (ss.map (entered env)).map Resolver.Event.name = ss.map Source.name := by
      rw [List.map_map]
      rfl
    rw [List.map_cons, entered, Resolver.standing, hnames, ih, lasting]
    show (if s.name ∈ ss.map Source.name then _ else _) = _
    split <;> rfl

theorem registerAll_eq_ok (P : ProfileSet) {ss : List Source}
    (h : ∀ s ∈ ss, ∃ t, s.loadMap env = .ok t) :
    ss.foldlM (fun r s => Resolver.registerSource r env s) (Resolver.new P) =
      .ok (.replay P (Resolver.standing (ss.map (entered env)))) := by
  induction ss using List.reverseRecOn with
  | nil => exact congrArg Except.ok (Resolver.new_eq_replay P)
  | append_singleton ss s ih =>
    have hs := loadMap_eq_loaded (h s (by simp))
    rw [List.foldlM_append, ih fun q hq => h q (List.mem_append_left _ hq), List.map_append,
      List.map_singleton, Resolver.standing_append]
    show [s].foldlM (fun r s => Resolver.registerSource r env s) (Resolver.replay P _) = _
    rw [List.foldlM_cons, Resolver.registerSource_of_ok hs]
    show Except.ok _ = _
    rw [Resolver.insert_replay P _ _ (Resolver.nodup_keys_standing _)]
    rfl

/-- What is registered when all sources can be loaded: the last one of each name, and last the
values set in the program. -/
theorem build_eq_ok {b : Builder} (h : ∀ s ∈ b.sources, ∃ t, s.loadMap env = .ok t) :
    b.build env = .ok (.replay b.profiles
      (((lasting b.sources).filter fun s => b.runtime.isNone || s.name ≠ "runtime").map
        (entry env) ++ b.runtime.toList.map runtimeEntry)) := by
  unfold build
  rw [registerAll_eq_ok env b.profiles h, standing_map_entered]
  cases hrt : b.runtime with
  | none =>
    have hall : (lasting b.sources).filter
        (fun s => (none : Option Tree).isNone || s.name ≠ "runtime") = lasting b.sources :=
      List.filter_eq_self.mpr fun _ _ => rfl
    rw [hall, Option.toList_none, List.map_nil, List.append_nil]
    rfl
  | some t =>
    have hnd : (Assoc.keys ((lasting b.sources).map (entry env))).Nodup := by
      rw [← standing_map_entered]
      exact Resolver.nodup_keys_standing _
    show Except.ok ((Resolver.replay _ _).insert "runtime" _) = _
    rw [Resolver.insert_replay _ _ _ hnd, Assoc.erase_eq_filter hnd, List.filter_map]
    rfl

/-- In merge order, the values set in the program come after all sources. -/
theorem mergeOrder_entries (ss : List Source) (runtime : Option Tree) :
    mergeOrder (fun s => s.2.priority)
        (((lasting ss).filter fun s => runtime.isNone || s.name ≠ "runtime").map (entry env) ++
          runtime.toList.map runtimeEntry) =
      (live env ss runtime).map (entry env) ++ runtime.toList.map runtimeEntry := by
  have hlive : mergeOrder (fun s : String × RawSource => s.2.priority)
      (((lasting ss).filter fun s => runtime.isNone || s.name ≠ "runtime").map (entry env)) =
        (live env ss runtime).map (entry env) :=
    (map_mergeOrder (entry env) (fun s => s.2.priority) _).symm
  cases runtime with
  | none => simpa using hlive
  | some t =>
    rw [Option.toList_some, List.map_singleton, ← hlive]
    exact mergeOrder_append_greatest fun s _ => Int32.le_maxValue s.2.priority

end Loaded

theorem load_eq (b : Builder) (env : Surroundings) :
    b.load env = (b.build env).map Resolver.resolve := by
  unfold load
  cases b.build env <;> rfl

theorem build_eq_error_iff {b : Builder} {env : Surroundings} {e : ConfigError} :
    b.build env = .error e ↔
      ∃ low s high, b.sources = low ++ s :: high ∧ (∀ q ∈ low, ∃ t, q.loadMap env = .ok t) ∧
        s.loadMap env = .error e := by
  rw [← registerAll_eq_error_iff (r := .new b.profiles)]
  unfold build
  cases b.sources.foldlM (fun r s => Resolver.registerSource r env s) (.new b.profiles) with
  | error d => rfl
  | ok r => cases b.runtime <;> simp [bind, Except.bind, pure, Except.pure]

/-! ## Top theorem (proved from the lemmas above) -/

/-- Steps that all succeed, in any order and number: building fails exactly when one of the added
sources cannot be loaded, with the error of the first such source.  Otherwise the root is that of
the last source of each name, processed under the profiles set last and merged by ascending
priority, ties in the order of the steps, with the values set in the program on top of all. -/
theorem load_ofSteps {steps : List Step} {b : Builder} (hb : ofSteps steps = .ok b)
    (env : Surroundings) :
    let ss := added 0 steps
    let P := steps.foldl Step.profilesAfter .empty
    let runtime := steps.foldl Step.runtimeAfter none
    b.load env = (b.build env).map Resolver.resolve ∧
    ((∃ e, b.build env = .error e) ↔ ∃ s ∈ ss, ∃ e, s.loadMap env = .error e) ∧
    (∀ e, b.build env = .error e ↔ ∃ low s high, ss = low ++ s :: high ∧
      (∀ q ∈ low, ∃ t, q.loadMap env = .ok t) ∧ s.loadMap env = .error e) ∧
    ((∀ s ∈ ss, ∃ t, s.loadMap env = .ok t) → ∃ r, b.build env = .ok r ∧
      r.resolve.profiles = P ∧
      r.sourceNames =
        (live env ss runtime).map Source.name ++ runtime.toList.map (fun _ => "runtime") ∧
      r.resolve.root = ((live env ss runtime).map (fun s => P.process (s.loaded env)) ++
        runtime.toList.map P.process).foldl Tree.merge .empty) := by
  intro ss P runtime
  obtain ⟨hsources, hruntime, hprofiles⟩ :
      b.sources = ss ∧ b.runtime = runtime ∧ b.profiles = P := foldlM_step_eq_ok hb
  have herror : ∀ e, b.build env = .error e ↔ ∃ low s high, ss = low ++ s :: high ∧
      (∀ q ∈ low, ∃ t, q.loadMap env = .ok t) ∧ s.loadMap env = .error e := by
    intro e
    rw [build_eq_error_iff, hsources]
  refine ⟨load_eq b env, ?_, herror, ?_⟩
  · constructor
    · rintro ⟨e, he⟩
      obtain ⟨low, s, high, hsplit, -, hs⟩ := (herror e).mp he
      exact ⟨s, by simp [hsplit], e, hs⟩
    · rintro ⟨s, hs, e, he⟩
      obtain ⟨low, q, high, d, hsplit, hlow, hq⟩ := exists_first_failure hs he
      exact ⟨d, (herror d).mpr ⟨low, q, high, hsplit, hlow, hq⟩⟩
  · intro hall
    rw [← hsources] at hall
    have hbuild := build_eq_ok env hall
    refine ⟨_, hbuild, hprofiles, ?_, ?_⟩
    · rw [Resolver.sourceNames_replay, hsources, hruntime, mergeOrder_entries, List.map_append,
        List.map_map, List.map_map]
      rfl
    · rw [Resolver.root_replay, hsources, hruntime, hprofiles, mergeOrder_entries, List.map_append,
        List.map_map, List.map_map]
      rfl

/-- A source at the greatest priority, one that is replaced by a later one of its name, and a value
set in the program before either of them. -/
theorem load_ofSteps_replaced :
    let steps : List Step := [
      .source (.ofTree "x" (.map [("k", .value "1")]) Priority.runtime),
      .runtimeValue "k" (.value "2"),
      .source (.ofTree "y" (.map [("k", .value "3"), ("j", .value "3")]) Priority.runtime),
      .source (.ofTree "x" (.map [("j", .value "4")]) 5),
      .profiles (.ofList ["dev"]),
      .defaults (.map [("i", .value "5")])]
    ∃ b r, ofSteps steps = .ok b ∧ (∀ s ∈ added 0 steps, ∃ t, s.loadMap {} = .ok t) ∧
      b.build {} = .ok r ∧ r.sourceNames = ["defaults", "x", "y", "runtime"] ∧
      r.resolve.profiles = .ofList ["dev"] := by
  intro steps
  obtain ⟨b, hb⟩ : ∃ b, ofSteps steps = .ok b := exists_of_isOk (by decide +kernel)
  have hall : ∀ s ∈ added 0 steps, ∃ t, s.loadMap {} = .ok t := by
    intro s hs
    apply exists_of_isOk
    revert s
    decide +kernel
  obtain ⟨-, -, -, hok⟩ := load_ofSteps hb {}
  obtain ⟨r, hr, hprofiles, -, -⟩ := hok hall
  have hnames : (ofSteps steps >>= fun b => (b.build {}).map Resolver.sourceNames) =
      .ok ["defaults", "x", "y", "runtime"] := by
    decide +kernel
  rw [hb] at hnames
  change (b.build {}).map Resolver.sourceNames = _ at hnames
  rw [hr] at hnames
  exact ⟨b, r, hb, hall, hr, Except.ok.inj hnames, hprofiles⟩

end Builder

end LayeredConfig
