import LayeredConfig.Proofs.Resolver.History

/-!
# Calls of a resolver, write by write

`Resolver.reload` and its like give a resolver or an error, so that there is no state that a call
which stops half way could leave behind.  Here each call is a program that reads and writes one
resolver in place: a raw source is taken out, put last, its layer placed and the layers merged, and
an error ends the program with whatever has been written by then (`Program`, `perform`).

That a call which fails has written nothing is then a theorem, and the programs do what the
functions say, down to the answer:

    r.attempt a = ok r'    → r.call a = (ok (r.answer a), r')
    r.attempt a = error e  → r.call a = (error e, r)                      (call_eq, for both)
-/

namespace LayeredConfig

/-- How a program ends: its answer or its error, and the state that it leaves. -/
def ended {ε σ α : Type} (p : EStateM ε σ α) (s : σ) : Except ε α × σ :=
  match p.run s with
  | .ok x s' => (.ok x, s')
  | .error e s' => (.error e, s')

namespace Resolver

/-! ## Programs -/

/-- A program on one resolver: what it has written stays written when it ends with an error. -/
abbrev Program (α : Type) : Type := EStateM ConfigError Resolver α

/-- What a successful call answers: nothing, or the raw tree that stood under the name before. -/
inductive Answer where
  | done
  | previous (t : Option Tree)

namespace Program

/-- An outcome that was found without touching the resolver. -/
def ofExcept {α : Type} : Except ConfigError α → Program α
  | .ok x => pure x
  | .error e => throw e

/-- The layer of a name replaced, then all layers merged. -/
def putLayer (l : Layer) : Program Unit := do
  modify fun r => { r with stack.layers := LayerStack.place l (r.stack.others l.name) }
  modify fun r => { r with stack := .ofLayers r.stack.layers }

/-- A raw source put last, after the one of its name was taken out; answers with the tree of that
one. -/
def insert (name : String) (raw : RawSource) : Program (Option Tree) := do
  let processed := (← get).process raw.tree
  let previous := ((← get).raw? name).map RawSource.tree
  modify fun r => { r with sources := Assoc.erase name r.sources }
  modify fun r => { r with sources := r.sources ++ [(name, raw)] }
  putLayer ⟨name, processed, raw.priority⟩
  return previous

/-- A source loaded and registered under a name. -/
def enter (env : Surroundings) (s : Source) (name : String) : Program Unit := do
  let t ← ofExcept (s.loadMap env)
  let _ ← insert name { tree := t, priority := s.priority env, origin := some s }

def unregister (name : String) : Program (Option Tree) := do
  match (← get).raw? name with
  | none => return none
  | some raw =>
    modify fun r => { r with sources := Assoc.erase name r.sources }
    modify fun r => { r with stack := r.stack.unregister name }
    return some raw.tree

def reload (env : Surroundings) (name : String) : Program Unit := do
  match (← get).raw? name with
  | none => throw (.unknownSource name)
  | some raw =>
    match raw.origin with
    | none => return
    | some s => enter env s name

/-- The new profiles are written first; the layers are made anew beside the old ones. -/
def setProfiles (profiles : ProfileSet) : Program Unit := do
  modify fun r => { r with profiles }
  let r ← get
  let stack := r.sources.foldl (fun stack (name, raw) =>
    stack.register ⟨name, r.process raw.tree, raw.priority⟩) {}
  modify fun r => { r with stack }

end Program

def perform : Action → Program Answer
  | .register name t priority => .previous <$> Program.insert name { tree := t, priority }
  | .registerSource env s => do Program.enter env s s.name; return .done
  | .unregister name => .previous <$> Program.unregister name
  | .reload env name => do Program.reload env name; return .done
  | .setProfiles profiles => do Program.setProfiles profiles; return .done

/-- A call on a resolver: its answer or its error, and the resolver that it leaves. -/
def call (r : Resolver) (a : Action) : Except ConfigError Answer × Resolver := ended (perform a) r

/-- The answer to a call that succeeds. -/
def answer (r : Resolver) : Action → Answer
  | .register name _ _ => .previous ((r.raw? name).map RawSource.tree)
  | .unregister name => .previous ((r.raw? name).map RawSource.tree)
  | _ => .done

/-! ## Lemmas -/

namespace Program

theorem run_insert (r : Resolver) (name : String) (raw : RawSource) : (insert name raw).run r =
    .ok ((r.raw? name).map RawSource.tree) (r.insert name raw) := rfl

theorem run_setProfiles (r : Resolver) (P : ProfileSet) :
    (setProfiles P).run r = .ok () (r.setProfiles P) := rfl

theorem run_enter (r : Resolver) (env : Surroundings) (s : Source) (name : String) :
    (enter env s name).run r =
      match s.loadMap env with
      | .ok t => .ok () (r.insert name { tree := t, priority := s.priority env, origin := some s })
      | .error e => .error e r := by
  unfold enter
  cases s.loadMap env <;> rfl

theorem run_unregister (r : Resolver) (name : String) : (unregister name).run r =
    .ok ((r.raw? name).map RawSource.tree) (r.unregister name) := by
  show EStateM.run (match r.raw? name with | none => _ | some _ => _) r = _
  unfold Resolver.unregister
  cases r.raw? name <;> rfl

theorem run_reload (r : Resolver) (env : Surroundings) (name : String) :
    (reload env name).run r =
      match r.reload env name with
      | .ok r' => .ok () r'
      | .error e => .error e r := by
  show EStateM.run (match r.raw? name with | none => _ | some _ => _) r = _
  cases hr : r.raw? name with
  | none =>
    rw [reload_of_unknown hr]
    rfl
  | some raw =>
    cases ho : raw.origin with
    | none =>
      rw [reload_of_bare hr ho]
      dsimp only
      rw [ho]
      rfl
    | some s =>
      dsimp only
      rw [ho]
      show (enter env s name).run r = _
      rw [run_enter]
      cases h : s.loadMap env with
      | ok t => rw [reload_of_ok hr ho h]
      | error e => rw [reload_of_error hr ho h]

end Program

/-! ### Whole calls -/

/-- A call of a program that has no answer of its own. -/
theorem ended_done (p : Program Unit) (r : Resolver) :
    ended (do p; return Answer.done : Program Answer) r =
      match p.run r with
      | .ok _ r' => (.ok .done, r')
      | .error e r' => (.error e, r') := by
  have hrun : (do p; return Answer.done : Program Answer).run r =
      match p.run r with
      | .ok _ r' => .ok .done r'
      | .error e r' => .error e r' := by
    show EStateM.bind p _ r = _
    unfold EStateM.bind EStateM.run
    cases p r <;> rfl
  unfold ended
  rw [hrun]
  cases p.run r <;> rfl

/-- A call of a program that answers with the tree of before. -/
theorem ended_previous (p : Program (Option Tree)) (r : Resolver) :
    ended (.previous <$> p : Program Answer) r =
      match p.run r with
      | .ok t r' => (.ok (.previous t), r')
      | .error e r' => (.error e, r') := by
  have hrun : (.previous <$> p : Program Answer).run r =
      match p.run r with
      | .ok t r' => .ok (.previous t) r'
      | .error e r' => .error e r' := by
    show EStateM.map _ p r = _
    unfold EStateM.map EStateM.run
    cases p r <;> rfl
  unfold ended
  rw [hrun]
  cases p.run r <;> rfl

/-- Every call ends as the functions say: with the answer and the resolver that they give, or with
their error, and then nothing has been written. -/
theorem call_eq (r : Resolver) (a : Action) : r.call a =
    match r.attempt a with
    | .ok r' => (.ok (r.answer a), r')
    | .error e => (.error e, r) := by
  cases a with
  | register name t priority =>
    show ended (.previous <$> Program.insert name _ : Program Answer) r = _
    rw [ended_previous, Program.run_insert]
    rfl
  | registerSource env s =>
    show ended (do Program.enter env s s.name; return Answer.done : Program Answer) r = _
    rw [ended_done, Program.run_enter]
    cases h : s.loadMap env with
    | ok t => rw [attempt, registerSource_of_ok h]; rfl
    | error e => rw [attempt, registerSource_of_error h]
  | unregister name =>
    show ended (.previous <$> Program.unregister name : Program Answer) r = _
    rw [ended_previous, Program.run_unregister]
    rfl
  | reload env name =>
    show ended (do Program.reload env name; return Answer.done : Program Answer) r = _
    rw [ended_done, Program.run_reload, attempt]
    cases r.reload env name <;> rfl
  | setProfiles P =>
    show ended (do Program.setProfiles P; return Answer.done : Program Answer) r = _
    rw [ended_done, Program.run_setProfiles]
    rfl

/-- What a call leaves is what `act` says. -/
theorem call_snd (r : Resolver) (a : Action) : (r.call a).2 = r.act a := by
  rw [call_eq, act]
  cases r.attempt a <;> rfl

/-- A call that fails leaves the resolver as it was. -/
theorem eq_of_call_error {r r' : Resolver} {a : Action} {e : ConfigError}
    (h : r.call a = (.error e, r')) : r' = r := by
  rw [call_eq] at h
  cases hr : r.attempt a with
  | ok q => rw [hr] at h; cases h
  | error d => rw [hr] at h; cases h; rfl

end Resolver

end LayeredConfig
