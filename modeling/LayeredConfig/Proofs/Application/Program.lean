import LayeredConfig.Application
import LayeredConfig.Proofs.Resolver.Program

/-!
# Calls of an application, write by write

An application keeps its sources twice, raw and merged, and its configuration a third time, as the
published snapshot.  A call works on its resolver in place and then publishes; it can end with an
error between the two, or before either (`Program`, `perform`).

A call does what the functions of the application say, and its effect is that of the corresponding
call of the resolver, with the new snapshot published:

    attempt c = ok a'    → call c = (ok a'.config, a')        (call_of_attempt)
    attempt c = error e  → call c = (error e, a)              (call_of_attempt_error)
    (run cs).resolver = resolver.run cs                       (resolver_run)
-/

namespace LayeredConfig

namespace Application

/-! ## Programs -/

/-- A program on one application: what it has written stays written when it ends with an error. -/
abbrev Program (α : Type) : Type := EStateM ApplicationError Application α

namespace Program

/-- A program on the resolver of the application. -/
def onResolver {α : Type} (p : Resolver.Program α) : Program α := fun a =>
  match p.run a.resolver with
  | .ok x r => .ok x { a with resolver := r }
  | .error e r => .error (.config e) { a with resolver := r }

/-- The snapshot replaced by what the resolver resolves to now, which is also the answer. -/
def publish : Program Config := do
  let c := (← get).resolver.resolve
  modify fun a => { a with config := c }
  return c

def setProfiles (profiles : ProfileSet) : Program Config := do
  onResolver (Resolver.Program.setProfiles profiles)
  publish

def reload (env : Surroundings) (name : String) : Program Config := do
  onResolver (Resolver.Program.reload env name)
  publish

/-- The fork is made of a copy of the resolver. -/
def fork (id : InstanceId) : Program Application := do
  return start (← get).resolver id

end Program

/-! ## Calls and runs -/

/-- A call that changes an application, with the surroundings in which a source is loaded. -/
inductive Action where
  | setProfiles (profiles : ProfileSet)
  | reload (env : Surroundings) (name : String)
  | applyChange (env : Surroundings) (change : SourceChange)

def perform : Action → Program Config
  | .setProfiles profiles => Program.setProfiles profiles
  | .reload env name => Program.reload env name
  | .applyChange env change => Program.reload env change.source

/-- A call on an application: its answer or its error, and the application that it leaves. -/
def call (a : Application) (c : Action) : Except ApplicationError Config × Application :=
  ended (perform c) a

/-- The outcome of a call: an application afterwards, or the error that stopped it. -/
def attempt (a : Application) : Action → Except ApplicationError Application
  | .setProfiles profiles => .ok (a.setProfiles profiles)
  | .reload env name => a.reload env name
  | .applyChange env change => a.applyChange env change

/-- The application after a call, whatever its outcome. -/
def act (a : Application) (c : Action) : Application := (a.call c).2

def run (a : Application) (cs : List Action) : Application := cs.foldl act a

/-- The answers and errors of calls made one after the other. -/
def replies (a : Application) : List Action → List (Except ApplicationError Config)
  | [] => []
  | c :: cs => (a.call c).1 :: (a.act c).replies cs

/-- The call of the resolver that a call of the application makes. -/
def Action.onResolver : Action → Resolver.Action
  | .setProfiles profiles => .setProfiles profiles
  | .reload env name => .reload env name
  | .applyChange env change => .reload env change.source

/-- The source that a call loads again, if it can. -/
def Action.source? : Action → Option String
  | .setProfiles _ => none
  | .reload _ name => some name
  | .applyChange _ change => some change.source

/-- The call loads the source of the name again, from where it came. -/
def Loads (a : Application) (c : Action) (name : String) : Prop :=
  c.source? = some name ∧ (∃ raw s, a.resolver.raw? name = some raw ∧ raw.origin = some s) ∧
    ∃ a', a.attempt c = .ok a'

/-! ## Lemmas -/

theorem attempt_eq (a : Application) (c : Action) : a.attempt c =
    match a.resolver.attempt c.onResolver with
    | .ok r => .ok (a.publish r)
    | .error e => .error (.config e) := by
  cases c <;> rfl

/-- A program on the resolver, followed by publishing: an error comes with whatever the program has
written to the resolver by then. -/
theorem ended_onResolver (p : Resolver.Program Unit) (a : Application) :
    ended (do Program.onResolver p; Program.publish) a =
      match p.run a.resolver with
      | .ok _ r => (.ok r.resolve, a.publish r)
      | .error e r => (.error (.config e), { a with resolver := r }) := by
  have hrun : (do Program.onResolver p; Program.publish : Program Config).run a =
      match p.run a.resolver with
      | .ok _ r => .ok r.resolve (a.publish r)
      | .error e r => .error (.config e) { a with resolver := r } := by
    show EStateM.bind _ _ a = _
    unfold EStateM.bind Program.onResolver EStateM.run
    dsimp only
    cases p a.resolver <;> rfl
  unfold ended
  rw [hrun]
  cases p.run a.resolver <;> rfl

theorem call_reload (a : Application) (env : Surroundings) (name : String) :
    a.call (.reload env name) =
      match a.reload env name with
      | .ok a' => (.ok a'.config, a')
      | .error e => (.error e, a) := by
  show ended (do Program.onResolver _; Program.publish) a = _
  rw [ended_onResolver, Resolver.Program.run_reload, reload]
  cases a.resolver.reload env name <;> rfl

/-- Every call ends as the functions say: with the snapshot that they publish, or with their error,
and then nothing has been written. -/
theorem call_eq (a : Application) (c : Action) : a.call c =
    match a.attempt c with
    | .ok a' => (.ok a'.config, a')
    | .error e => (.error e, a) := by
  cases c with
  | setProfiles P => rfl
  | reload env name => exact call_reload a env name
  | applyChange env change => exact call_reload a env change.source

section Call

variable {a a' : Application} {c : Action} {x : Config} {e : ApplicationError}

theorem act_of_call {o : Except ApplicationError Config} (h : a.call c = (o, a')) :
    a.act c = a' := by
  rw [act, h]

theorem call_of_attempt (h : a.attempt c = .ok a') : a.call c = (.ok a'.config, a') := by
  rw [call_eq, h]

theorem call_of_attempt_error (h : a.attempt c = .error e) : a.call c = (.error e, a) := by
  rw [call_eq, h]

theorem config_of_attempt (h : a.attempt c = .ok a') : a'.config = a'.resolver.resolve := by
  rw [attempt_eq] at h
  cases hr : a.resolver.attempt c.onResolver with
  | ok r => rw [hr] at h; cases h; rfl
  | error e => rw [hr] at h; cases h

/-- A call that succeeds answers with the new snapshot. -/
theorem eq_config_of_call_ok (h : a.call c = (.ok x, a')) : x = a'.config := by
  rw [call_eq] at h
  cases hc : a.attempt c with
  | ok q => rw [hc] at h; cases h; rfl
  | error d => rw [hc] at h; cases h

/-- A call that fails leaves the application as it was. -/
theorem eq_of_call_error (h : a.call c = (.error e, a')) : a' = a := by
  rw [call_eq] at h
  cases hc : a.attempt c with
  | ok q => rw [hc] at h; cases h
  | error d => rw [hc] at h; cases h; rfl

end Call

theorem id_act (a : Application) (c : Action) : (a.act c).id = a.id := by
  rw [act, call_eq, attempt_eq]
  cases a.resolver.attempt c.onResolver <;> rfl

theorem id_run (a : Application) (cs : List Action) : (a.run cs).id = a.id := by
  induction cs generalizing a with
  | nil => rfl
  | cons c cs ih => exact (ih (a.act c)).trans (id_act a c)

theorem resolver_act (a : Application) (c : Action) :
    (a.act c).resolver = a.resolver.act c.onResolver := by
  rw [act, call_eq, attempt_eq, Resolver.act]
  cases a.resolver.attempt c.onResolver <;> rfl

/-- The resolver goes through the same run. -/
theorem resolver_run (a : Application) (cs : List Action) :
    (a.run cs).resolver = a.resolver.run (cs.map Action.onResolver) := by
  induction cs generalizing a with
  | nil => rfl
  | cons c cs ih =>
    show ((a.act c).run cs).resolver = (a.resolver.act c.onResolver).run (cs.map Action.onResolver)
    rw [ih, resolver_act]

theorem config_act {a : Application} (h : a.config = a.resolver.resolve) (c : Action) :
    (a.act c).config = (a.act c).resolver.resolve := by
  rw [act, call_eq]
  cases hc : a.attempt c with
  | ok a' => exact config_of_attempt hc
  | error e => exact h

theorem run_append (a : Application) (cs ds : List Action) :
    a.run (cs ++ ds) = (a.run cs).run ds :=
  List.foldl_append

end Application

end LayeredConfig
