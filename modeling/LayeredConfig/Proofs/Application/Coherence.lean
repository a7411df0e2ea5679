import LayeredConfig.Proofs.Application.Program
import LayeredConfig.Proofs.Resolver.Reached
import Mathlib.Data.String.Basic

/-!
# What a running application keeps

An application is built, or it is forked from another one after any calls (`Started`); then calls
are made on it (`run`).  Whatever they are, and whether they succeed or fail, an application keeps
these (`Kept`): its resolver is one that calls lead to, all its raw trees are maps, its snapshot is
what the resolver resolves to, and its identifier stands under the name of the instance's source.

    Started a → Kept (a.run cs)                                    (kept_run)
    a call that fails writes nothing, and no later call knows of it (replies_cons_of_error)

Step lemma: `Kept.act`; it rests on `act_cases`, which says all that a call can do.
-/

namespace LayeredConfig

namespace Application

/-- The applications as they are started: built, or forked from one that was, after any calls. -/
inductive Started : Application → Prop
  | build {steps : List Builder.Step} {config : Builder} {logging : Bool} {env : Surroundings}
      {host host' : Logging.Host} {id : InstanceId} {a : Application}
      (hsteps : Builder.ofSteps steps = .ok config)
      (hbuild : ApplicationBuilder.build { config, logging } env host id = .ok (a, host')) :
      Started a
  | fork {a : Application} (h : Started a) (cs : List Action) (id : InstanceId) :
      Started ((a.run cs).fork id)

/-- A process without a log, in which the names of the levels are the filters. -/
def plainHost : Logging.Host where
  isFilter text := text ∈ ["off", "error", "warn", "info", "debug", "trace"]

/-- The raw source that holds an identifier. -/
def instanceRaw (id : InstanceId) : RawSource :=
  { tree := instanceTree id, priority := Priority.runtime }

/-- What an application keeps through all calls. -/
structure Kept (a : Application) : Prop where
  reached : a.resolver.Reached
  allMaps : a.resolver.AllMaps
  config_eq : a.config = a.resolver.resolve
  raw?_instance : a.resolver.raw? instanceSource = some (instanceRaw a.id)

/-! ## Lemmas -/

theorem eq_of_mapError_eq_ok {ε δ α : Type} {x : Except ε α} {f : ε → δ} {y : α}
    (h : x.mapError f = .ok y) : x = .ok y := by
  cases x with
  | error e => cases h
  | ok a => exact congrArg Except.ok (Except.ok.inj h)

/-- What is built is the started application of the sources; the sections only decide whether. -/
theorem exists_of_build {b : ApplicationBuilder} {env : Surroundings} {host host' : Logging.Host}
    {id : InstanceId} {a : Application} (h : b.build env host id = .ok (a, host')) :
    ∃ r s, b.config.build env = .ok r ∧ a = start r id ∧
      a.config.applicationSection = .ok s ∧ s.validate = .ok () := by
  obtain ⟨r, hr, h⟩ := exists_of_bind_eq_ok h
  obtain ⟨s, hs, h⟩ := exists_of_bind_eq_ok h
  obtain ⟨_, hvalid, h⟩ := exists_of_bind_eq_ok h
  have ha : a = start r id := by
    split at h
    · obtain ⟨_, -, h⟩ := exists_of_bind_eq_ok h
      exact (Prod.mk.inj (Except.ok.inj h)).1.symm
    · exact (Prod.mk.inj (Except.ok.inj h)).1.symm
  subst ha
  exact ⟨r, s, eq_of_mapError_eq_ok hr, rfl, eq_of_mapError_eq_ok hs,
    eq_of_mapError_eq_ok hvalid⟩

theorem eq_start_of_build {b : ApplicationBuilder} {env : Surroundings} {host host' : Logging.Host}
    {id : InstanceId} {a : Application} (h : b.build env host id = .ok (a, host')) :
    ∃ r, b.config.build env = .ok r ∧ a = start r id :=
  let ⟨r, _, hr, ha, _⟩ := exists_of_build h
  ⟨r, hr, ha⟩

theorem kept_start {r : Resolver} (hr : r.Reached) (hmaps : r.AllMaps) (id : InstanceId) :
    (start r id).Kept where
  reached := hr.act (.register instanceSource (instanceTree id) Priority.runtime)
  allMaps := Resolver.allMaps_insert hmaps instanceSource rfl
  config_eq := rfl
  raw?_instance := by
    show (r.insert instanceSource (instanceRaw id)).raw? instanceSource = some (instanceRaw id)
    rw [Resolver.raw?_insert hr.nodup_keys, if_pos rfl]

/-- A call that is to load a source again does so, or it leaves the resolver as it is. -/
theorem act_cases_of_source? (a : Application) {c : Action} {env : Surroundings} {n : String}
    (hsource : c.source? = some n) (hc : c.onResolver = .reload env n) :
    ((∀ m, ¬ a.Loads c m) ∧ (a.act c).resolver = a.resolver) ∨
    ∃ raw s t, a.Loads c n ∧ a.resolver.raw? n = some raw ∧ raw.origin = some s ∧
      t.isMap = true ∧ (a.act c).resolver =
        a.resolver.insert n { tree := t, priority := s.priority env, origin := some s } := by
  have hattempt := attempt_eq a c
  rw [hc, Resolver.attempt] at hattempt
  rw [resolver_act, hc]
  -- a call that fails loads nothing
  have hfails : ∀ e, a.resolver.reload env n = .error e → ∀ m, ¬ a.Loads c m := by
    rintro e he m ⟨-, -, a', ha'⟩
    rw [he, ha'] at hattempt
    cases hattempt
  obtain ⟨-, he⟩ | ⟨raw, hraw, ho, he⟩ | ⟨_, _, _, -, -, -, he⟩ | ⟨raw, s, t, hraw, ho, hl, he⟩ :=
    Resolver.reload_cases a.resolver env n
  · exact .inl ⟨hfails _ he, Resolver.act_of_attempt_error (a := .reload env n) he⟩
  · refine .inl ⟨?_, Resolver.act_of_attempt (a := .reload env n) he⟩
    rintro m ⟨hm, ⟨raw', s, hraw', hs⟩, -⟩
    obtain rfl := Option.some.inj (hsource.symm.trans hm)
    obtain rfl := Option.some.inj (hraw.symm.trans hraw')
    rw [ho] at hs
    cases hs
  · exact .inl ⟨hfails _ he, Resolver.act_of_attempt_error (a := .reload env n) he⟩
  · rw [he] at hattempt
    exact .inr ⟨raw, s, t, ⟨hsource, ⟨raw, s, hraw, ho⟩, _, hattempt⟩, hraw, ho,
      Source.isMap_of_loadMap hl, Resolver.act_of_attempt (a := .reload env n) he⟩

/-- All that a call can do: it changes the profiles; it loads nothing, and the resolver stays as it
is; or it loads a source again, which then stands last, at the priority of its origin. -/
theorem act_cases (a : Application) (c : Action) :
    (∃ P, c = .setProfiles P ∧ (a.act c).resolver = a.resolver.setProfiles P) ∨
    ((∀ n, ¬ a.Loads c n) ∧ (a.act c).resolver = a.resolver) ∨
    ∃ env n raw s t, a.Loads c n ∧ a.resolver.raw? n = some raw ∧ raw.origin = some s ∧
      t.isMap = true ∧ (a.act c).resolver =
        a.resolver.insert n { tree := t, priority := s.priority env, origin := some s } := by
  cases c with
  | setProfiles P =>
    refine .inl ⟨P, rfl, ?_⟩
    rw [resolver_act]
    rfl
  | reload env n => exact .inr ((act_cases_of_source? a rfl rfl).imp_right fun h => ⟨env, n, h⟩)
  | applyChange env change =>
    exact .inr ((act_cases_of_source? a rfl rfl).imp_right fun h => ⟨env, change.source, h⟩)

/-- No call reaches the source of the identifier: it has no origin to load it from again. -/
theorem Kept.ne_instanceSource {a : Application} (h : a.Kept) {n : String} {raw : RawSource}
    {s : Source} (hraw : a.resolver.raw? n = some raw) (ho : raw.origin = some s) :
    n ≠ instanceSource := by
  rintro rfl
  obtain rfl := Option.some.inj (hraw.symm.trans h.raw?_instance)
  cases ho

theorem Kept.act {a : Application} (h : a.Kept) (c : Action) : (a.act c).Kept where
  reached := by
    rw [resolver_act]
    exact h.reached.act c.onResolver
  allMaps := by
    obtain ⟨P, -, hr⟩ | ⟨-, hr⟩ | ⟨_, n, _, _, _, -, -, -, hmap, hr⟩ := act_cases a c
    · rw [hr]
      exact h.allMaps
    · rw [hr]
      exact h.allMaps
    · rw [hr]
      exact Resolver.allMaps_insert h.allMaps n hmap
  config_eq := config_act h.config_eq c
  raw?_instance := by
    rw [id_act]
    obtain ⟨P, -, hr⟩ | ⟨-, hr⟩ | ⟨_, n, raw, s, t, -, hraw, ho, -, hr⟩ := act_cases a c
    · rw [hr]
      exact h.raw?_instance
    · rw [hr]
      exact h.raw?_instance
    · rw [hr, Resolver.raw?_insert h.reached.nodup_keys, if_neg (h.ne_instanceSource hraw ho)]
      exact h.raw?_instance

theorem Kept.run {a : Application} (h : a.Kept) (cs : List Action) : (a.run cs).Kept := by
  induction cs generalizing a with
  | nil => exact h
  | cons c cs ih => exact ih (h.act c)

/-- Built or forked, an application starts from a resolver that calls lead to. -/
theorem Started.exists_start {a : Application} (h : Started a) :
    ∃ r id, r.Reached ∧ r.AllMaps ∧ a = start r id := by
  induction h with
  | @build _ _ _ _ _ _ id _ hsteps hbuild =>
    obtain ⟨r, hr, rfl⟩ := eq_start_of_build hbuild
    exact ⟨r, id, Resolver.reached_of_build hr,
      Resolver.allMaps_build (Builder.runtimeIsMap_ofSteps hsteps) hr, rfl⟩
  | @fork a _ cs id ih =>
    obtain ⟨r, id₀, hr, hmaps, rfl⟩ := ih
    have hkept := (kept_start hr hmaps id₀).run cs
    exact ⟨_, id, hkept.reached, hkept.allMaps, rfl⟩

theorem Started.kept {a : Application} (h : Started a) : a.Kept := by
  obtain ⟨r, id, hr, hmaps, rfl⟩ := h.exists_start
  exact kept_start hr hmaps id

theorem kept_run {a : Application} (h : Started a) (cs : List Action) : (a.run cs).Kept :=
  h.kept.run cs

theorem Kept.isMap_root {a : Application} (h : a.Kept) : a.config.root.isMap = true := by
  rw [h.config_eq]
  exact Resolver.isMap_root h.reached h.allMaps

theorem process_instanceTree (P : ProfileSet) (id : InstanceId) :
    P.process (instanceTree id) = instanceTree id := by
  apply process_of_clean
  · simp only [instanceTree, Tree.Clean, Tree.CleanEntries, and_true]
    decide
  · simp [instanceTree, Tree.Distinct, Tree.DistinctEntries]

/-! ### Calls that fail -/

/-- After a call that fails the application goes on as if it had not been made. -/
theorem replies_cons_of_error {a a' : Application} {c : Action} {e : ApplicationError}
    (h : a.call c = (.error e, a')) (ds : List Action) :
    a.replies (c :: ds) = .error e :: a.replies ds ∧ a.run (c :: ds) = a.run ds := by
  obtain rfl := eq_of_call_error h
  constructor
  · rw [replies, act_of_call h, h]
  · show (a'.act c).run ds = a'.run ds
    rw [act_of_call h]

/-! ## Top theorem (proved from the lemmas above) -/

/-- After any calls the snapshot is what the resolver resolves to, and a map.  From there, a fork
leaves the application as it is; a call that succeeds answers with the new snapshot; a call that
fails has written nothing, and all later calls answer as if it had not been made.  No call of a
resolver that fails writes to it either. -/
theorem coherent_run {a₀ : Application} (h : Started a₀) (cs : List Action) :
    let a := a₀.run cs
    a.config = a.resolver.resolve ∧ a.config.root.isMap = true ∧
      (∀ id, ended (Program.fork id) a = (.ok (a.fork id), a)) ∧
      (∀ c x a', a.call c = (.ok x, a') →
        x = a'.config ∧ x = a'.resolver.resolve ∧ x.root.isMap = true) ∧
      (∀ c e a', a.call c = (.error e, a') → a' = a ∧
        ∀ ds, a.replies (c :: ds) = .error e :: a.replies ds ∧ a.run (c :: ds) = a.run ds) ∧
      ∀ (r r' : Resolver) (o : Resolver.Action) (e : ConfigError),
        r.call o = (.error e, r') → r' = r := by
  intro a
  have hkept : a.Kept := kept_run h cs
  refine ⟨hkept.config_eq, hkept.isMap_root, fun id => rfl, ?_, ?_, ?_⟩
  · intro c x a' hc
    have hkept' : a'.Kept := act_of_call hc ▸ hkept.act c
    have hx : x = a'.config := eq_config_of_call_ok hc
    exact ⟨hx, hx.trans hkept'.config_eq, hx ▸ hkept'.isMap_root⟩
  · exact fun c e a' hc => ⟨eq_of_call_error hc, replies_cons_of_error hc⟩
  · exact fun r r' o e hc => Resolver.eq_of_call_error hc

/-- A file is gone when its source is loaded again after a change of profiles: the call fails, and
all later calls answer as if it had not been made. -/
theorem coherent_run_file_gone :
    let files : FileSystem := { entries := [(["a.toml"], .file "k = 1".toUTF8.toList)] }
    let config : Builder := { sources := [.ofFile "a.toml" Priority.file] }
    let gone : Action := .reload {} "file:a.toml"
    let e : ApplicationError := .config (.fileNotFound "a.toml")
    ∃ a₀ host, Builder.ofSteps [.file files "a.toml"] = .ok config ∧
      ApplicationBuilder.build { config } { files } plainHost ⟨"7"⟩ = .ok (a₀, host) ∧
      let a := a₀.run [.setProfiles ⟨["dev"], by simp⟩]
      a.config = a.resolver.resolve ∧ a.call gone = (.error e, a) ∧
      ∀ ds, a.replies (gone :: ds) = .error e :: a.replies ds := by
  intro files config gone e
  have hsteps : Builder.ofSteps [.file files "a.toml"] = .ok config := rfl
  obtain ⟨⟨a₀, host⟩, hbuild⟩ : ∃ built,
      ApplicationBuilder.build { config } { files } plainHost ⟨"7"⟩ = .ok built :=
    exists_of_isOk (by decide +kernel)
  -- whatever tree the file gave, it cannot be read again
  have hgone : (a₀.run [.setProfiles ⟨["dev"], by simp⟩]).call gone =
      (.error e, a₀.run [.setProfiles ⟨["dev"], by simp⟩]) := by
    obtain ⟨r, hr, rfl⟩ := eq_start_of_build hbuild
    obtain ⟨q, hq, hr⟩ := exists_of_bind_eq_ok hr
    obtain ⟨q', hq', hq⟩ := exists_of_bind_eq_ok hq
    obtain ⟨t, -, hq'⟩ := exists_of_bind_eq_ok hq'
    obtain rfl := Except.ok.inj hr
    obtain rfl := Except.ok.inj hq
    obtain rfl := Except.ok.inj hq'
    rw [call_eq]
    rfl
  obtain ⟨hcoh, -, -, -, herror, -⟩ :=
    coherent_run (.build hsteps hbuild) [.setProfiles ⟨["dev"], by simp⟩]
  exact ⟨a₀, host, hsteps, hbuild, hcoh, hgone, fun ds => ((herror gone e _ hgone).2 ds).1⟩

end Application

end LayeredConfig
