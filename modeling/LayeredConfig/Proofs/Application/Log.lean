import LayeredConfig.Proofs.Application.Fork
import LayeredConfig.Proofs.Section.Exact

/-!
# Building with a log

A builder that starts the log does all that one does that does not, and then looks at the section of
the log.  The level is looked at three times on the way: by the section, which wants one of a log
that is switched on; by the settings, which want a filter whether or not the log is switched on; and
by the start itself, which does nothing for a log that is switched off.  The second of these
outweighs the others:

    ensureStarted s host = (validate s host).map fun _ => host.startedBy s      (ensureStarted_eq)
    building with a log  = building without one, when the level is a filter and not blank,
                           else an error, also where the log is switched off

Which texts are filters is a matter of the process.  The log that runs afterwards is the one that
was running, or the one that the section asks for (`Host.startedBy`).

The identifier of the instance has no part in this: what stands under other keys than `runtime`, and
so each section, is the same for all identifiers (`Config.AgreesBut.applicationSection_eq`).

Main statement: `build_logging`.
-/

namespace LayeredConfig

/-- The process after the log of the settings was to be started: a log that is switched off, and one
that finds another running, leaves it as it is. -/
def Logging.Host.startedBy (host : Host) (s : Settings) : Host :=
  if s.enabled ∧ host.running = .nothing then { host with running := .started s } else host

/-- What starting the log comes to for a section: whether it is switched on only decides which error
a blank level is. -/
def LoggingSection.checkLevel (s : LoggingSection) (host : Logging.Host) :
    Except ApplicationError Unit :=
  if Text.isBlankText s.level then
    .error (if s.enabled then .config (.invalidSection .blankLevel) else .logging .blankLevel)
  else if host.isFilter s.level then .ok ()
  else .error (.logging .badLevel)

/-! ## Lemmas -/

/-! ### Starting the log -/

namespace Logging.Settings

variable {s : Settings} {host : Host}

theorem isFilter_of_validate (h : s.validate host = .ok ()) : host.isFilter s.level = true := by
  unfold validate at h
  split at h
  · cases h
  · split at h
    · assumption
    · cases h

theorem start_of_disabled (host : Host) (h : s.enabled = false) : s.start host = .ok host := by
  unfold start
  rw [h]
  rfl

/-- A log that is switched on, with a filter for its level, is installed unless one is running. -/
theorem start_of_enabled (h : s.enabled = true) (hfilter : host.isFilter s.level = true) :
    s.start host = s.install host := by
  unfold start filter
  rw [h, hfilter]
  rfl

/-- Nothing can go wrong any more with settings that are valid. -/
theorem ensureStarted_eq (s : Settings) (host : Host) :
    s.ensureStarted host = (s.validate host).map fun _ => host.startedBy s := by
  unfold ensureStarted
  cases hvalid : s.validate host with
  | error e => rfl
  | ok _ =>
    cases henabled : s.enabled with
    | false =>
      rw [start_of_disabled host henabled, Host.startedBy, henabled]
      rfl
    | true =>
      rw [start_of_enabled henabled (isFilter_of_validate hvalid), install, Host.startedBy, henabled]
      cases host.running <;> rfl

end Logging.Settings

namespace LoggingSection

theorem validate_of_disabled (s : LoggingSection) (h : s.enabled = false) :
    s.validate = .ok () := by
  unfold validate
  rw [h]
  rfl

end LoggingSection

theorem ApplicationBuilder.startLog_eq {c : Config} {s : LoggingSection}
    (h : c.loggingSection = .ok s) (name : String) (host : Logging.Host) :
    startLog c name host =
      (s.checkLevel host).map fun _ => host.startedBy (s.settings name) := by
  have hlog : startLog c name host = (s.validate.mapError ApplicationError.config >>= fun _ =>
      (((s.settings name).validate host).map fun _ => host.startedBy (s.settings name)).mapError
        ApplicationError.logging) := by
    rw [startLog, h, ← Logging.Settings.ensureStarted_eq]
    rfl
  rw [hlog, LoggingSection.checkLevel, LoggingSection.validate, Logging.Settings.validate]
  by_cases hblank : Text.isBlankText s.level = true
  · cases henabled : s.enabled <;> simp [hblank, henabled, LoggingSection.settings] <;> rfl
  · cases hfilter : host.isFilter s.level <;>
      simp [hblank, hfilter, LoggingSection.settings] <;> rfl

/-! ### Sections beside the identifier -/

namespace Config

section AgreesBut

variable {key : String} {c d : Config} (h : c.AgreesBut key d)

include h

theorem AgreesBut.get?_eq {k : String} (hk : k ≠ key) (p : Path) :
    c.root.get? (.key k :: p) = d.root.get? (.key k :: p) := by
  rw [← Tree.get?_without hk p h.isMap_left, ← Tree.get?_without hk p h.isMap_right, h.without_eq]

theorem AgreesBut.bindSection_eq {name k : String} (hpath : Config.path name = .ok [.key k])
    (hk : k ≠ key) (shape : Shape) : c.bindSection name shape = d.bindSection name shape := by
  rw [Config.bindSection_eq hpath, Config.bindSection_eq hpath, h.get?_eq hk]

theorem AgreesBut.applicationSection_eq (hk : ApplicationSection.sectionName ≠ key) :
    c.applicationSection = d.applicationSection :=
  congrArg (Except.map _) (h.bindSection_eq path_application hk _)

theorem AgreesBut.loggingSection_eq (hk : LoggingSection.sectionName ≠ key) :
    c.loggingSection = d.loggingSection :=
  congrArg (Except.map _) (h.bindSection_eq LoggingSection.path_eq hk _)

end AgreesBut

end Config

namespace ApplicationBuilder

open Application

variable {b : ApplicationBuilder} {env : Surroundings} {id : InstanceId} {a : Application}

/-- With a valid section of the application, only the log can be in the way. -/
theorem build_eq {r : Resolver} {s : ApplicationSection} (hr : b.config.build env = .ok r)
    (hs : (start r id).config.applicationSection = .ok s) (hvalid : s.validate = .ok ())
    (host : Logging.Host) : b.build env host id =
      if b.logging then
        (startLog (start r id).config s.identifier host).map fun host' => (start r id, host')
      else .ok (start r id, host) := by
  unfold build
  rw [hr]
  show ((start r id).config.applicationSection.mapError ApplicationError.config >>= _) = _
  rw [hs]
  show (s.validate.mapError ApplicationError.config >>= _) = _
  rw [hvalid]
  cases b.logging with
  | false => rfl
  | true => cases startLog (start r id).config s.identifier host <;> rfl

/-! ## Top theorem (proved from the lemmas above) -/

/-- Where building without a log succeeds, it does so under any identifier and in any process, which
it leaves as it is.  Building with one then does the same and starts the log that the section asks
for, when the section of the log binds and its level is a filter and not blank; else it fails, also
where the log is switched off and neither the section nor the start would mind. -/
theorem build_logging {steps : List Builder.Step} {config : Builder} {host₀ host₁ : Logging.Host}
    (hsteps : Builder.ofSteps steps = .ok config)
    (hbuild : build { config } env host₀ id = .ok (a, host₁)) (host : Logging.Host)
    (id' : InstanceId) :
    ∃ a' app, build { config } env host id' = .ok (a', host) ∧ a.Agrees a' ∧
      a.config.applicationSection = .ok app ∧
      (∀ e, a.config.loggingSection = .error e →
        build { config, logging := true } env host id' = .error (.config e)) ∧
      ∀ s, a.config.loggingSection = .ok s →
        build { config, logging := true } env host id' =
          (s.checkLevel host).map (fun _ => (a', host.startedBy (s.settings app.identifier))) ∧
        (s.enabled = false → s.validate = .ok () ∧
          ∀ name, (s.settings name).start host = .ok host) := by
  obtain ⟨r, app, hr, rfl, happ, hvalid⟩ := exists_of_build hbuild
  have hmaps := Resolver.allMaps_build (Builder.runtimeIsMap_ofSteps hsteps) hr
  have hagrees : (start r id).Agrees (start r id') :=
    (siblings_start (Resolver.reached_of_build hr) hmaps id id').agrees
  have happ' : (start r id').config.applicationSection = .ok app :=
    (hagrees.config.applicationSection_eq (by decide)).symm.trans happ
  have hlogging := hagrees.config.loggingSection_eq (by decide)
  have hlog : build { config, logging := true } env host id' =
      (startLog (start r id').config app.identifier host).map fun host' => (start r id', host') :=
    build_eq (b := { config, logging := true }) hr happ' hvalid host
  refine ⟨start r id', app, build_eq (b := { config }) hr happ' hvalid host, hagrees, happ, ?_, ?_⟩
  · intro e he
    rw [hlog, startLog, ← hlogging, he]
    rfl
  · intro s hs
    refine ⟨?_, fun hoff => ⟨s.validate_of_disabled hoff, fun name =>
      Logging.Settings.start_of_disabled host hoff⟩⟩
    rw [hlog, startLog_eq (hlogging.symm.trans hs)]
    cases s.checkLevel host <;> rfl

/-- A log that is switched off, with a level: it does not stop an instance with another
identifier, and it is not started. -/
theorem build_logging_switchedOff :
    let tree : Tree := .map [("logging", .map [("enabled", .value "false"),
      ("level", .value "warn,app=debug")])]
    let config : Builder := { sources := [Source.ofTree "x" tree Priority.file] }
    let host : Logging.Host := { isFilter := fun text => text ∈ ["info", "warn,app=debug"] }
    ∃ a a' host', build { config } {} host ⟨"7"⟩ = .ok (a, host') ∧
      build { config, logging := true } {} host ⟨"8"⟩ = .ok (a', host) ∧ a.Agrees a' := by
  intro tree config host
  have hsteps : Builder.ofSteps [.source (Source.ofTree "x" tree Priority.file)] = .ok config := rfl
  obtain ⟨⟨a, host'⟩, hbuild⟩ : ∃ built, build { config } {} host ⟨"7"⟩ = .ok built :=
    exists_of_isOk (by decide +kernel)
  have hsection :
      a.config.loggingSection = .ok { enabled := false, level := "warn,app=debug" } := by
    obtain ⟨r, hr, rfl⟩ := eq_start_of_build hbuild
    obtain rfl := Except.ok.inj hr
    decide +kernel
  obtain ⟨a', app, -, hagrees, -, -, hlogging⟩ := build_logging hsteps hbuild host ⟨"8"⟩
  obtain ⟨hlog, -⟩ := hlogging _ hsection
  have hlevel : LoggingSection.checkLevel { enabled := false, level := "warn,app=debug" } host =
      .ok () := by decide +kernel
  rw [hlevel] at hlog
  exact ⟨a, a', host', hbuild, hlog, hagrees⟩

/-- A log that is switched off, with a blank level: the section is valid, the start would do
nothing, and the instance is not built, whatever the filters are. -/
theorem build_logging_blankLevel :
    let tree : Tree := .map [("logging", .map [("enabled", .value "false"), ("level", .value "")])]
    let config : Builder := { sources := [Source.ofTree "x" tree Priority.file] }
    ∃ a s, (∀ host, build { config } {} host ⟨"7"⟩ = .ok (a, host)) ∧
      a.config.loggingSection = .ok s ∧ s.enabled = false ∧ s.validate = .ok () ∧
      ∀ host, build { config, logging := true } {} host ⟨"7"⟩ = .error (.logging .blankLevel) := by
  intro tree config
  obtain ⟨⟨a, host₀⟩, hbuild⟩ : ∃ built, build { config } {} plainHost ⟨"7"⟩ = .ok built :=
    exists_of_isOk (by decide +kernel)
  have hsection : a.config.loggingSection = .ok { enabled := false, level := "" } := by
    obtain ⟨r, hr, rfl⟩ := eq_start_of_build hbuild
    obtain rfl := Except.ok.inj hr
    decide +kernel
  obtain ⟨r, app, hr, rfl, happ, hvalid⟩ := exists_of_build hbuild
  refine ⟨_, _, build_eq (b := { config }) hr happ hvalid, hsection, rfl, rfl, fun host => ?_⟩
  rw [build_eq (b := { config, logging := true }) hr happ hvalid, if_pos rfl,
    startLog_eq hsection]
  rfl

end ApplicationBuilder

end LayeredConfig
