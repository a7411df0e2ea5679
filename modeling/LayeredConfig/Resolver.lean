import LayeredConfig.Config
import LayeredConfig.Source

/-! Resolving: raw trees, processed under the active profiles and merged by priority.

A resolver keeps the raw tree of every source, in the order of their last registration, and a stack
of the processed trees.  A registration processes one tree and puts it on the stack; a change of
profiles processes all of them anew, in that order, so that ties between priorities come out the
same way.  A source that fails to load changes nothing. -/

namespace LayeredConfig

/-- The raw tree of a source, with what it was loaded from. -/
structure RawSource where
  tree : Tree
  priority : Priority
  origin : Option Source := none

structure Resolver where
  profiles : ProfileSet := .empty
  sources : List (String × RawSource) := []
  stack : LayerStack := {}

namespace Resolver

def new (profiles : ProfileSet) : Resolver := { profiles }

/-- A raw tree as the current profiles see it. -/
def process (r : Resolver) (t : Tree) : Tree := r.profiles.process t

def raw? (r : Resolver) (name : String) : Option RawSource := Assoc.get? name r.sources

/-- The resolver with a raw source put last. -/
def insert (r : Resolver) (name : String) (raw : RawSource) : Resolver where
  profiles := r.profiles
  sources := Assoc.erase name r.sources ++ [(name, raw)]
  stack := r.stack.register ⟨name, r.process raw.tree, raw.priority⟩

/-- A tree registered under a name, in place of the one registered before. -/
def register (r : Resolver) (name : String) (t : Tree) (priority : Priority) : Resolver :=
  r.insert name { tree := t, priority }

/-- A source loaded and registered under its name. -/
def registerSource (r : Resolver) (env : Surroundings) (s : Source) :
    Except ConfigError Resolver := do
  let t ← s.loadMap env
  return r.insert s.name { tree := t, priority := s.priority env, origin := some s }

def unregister (r : Resolver) (name : String) : Resolver :=
  if (r.raw? name).isSome then
    { r with sources := Assoc.erase name r.sources, stack := r.stack.unregister name }
  else r

/-- The source of a name loaded again.  A tree without origin stays as it is. -/
def reload (r : Resolver) (env : Surroundings) (name : String) : Except ConfigError Resolver :=
  match r.raw? name with
  | none => .error (.unknownSource name)
  | some raw =>
    match raw.origin with
    | none => .ok r
    | some s => do
      let t ← s.loadMap env
      return r.insert name { tree := t, priority := s.priority env, origin := some s }

/-- All raw trees processed anew under other profiles. -/
def setProfiles (r : Resolver) (profiles : ProfileSet) : Resolver where
  profiles := profiles
  sources := r.sources
  stack := r.sources.foldl (fun stack (name, raw) =>
    stack.register ⟨name, profiles.process raw.tree, raw.priority⟩) {}

def resolve (r : Resolver) : Config := ⟨r.stack.merged, r.profiles⟩

/-- The names of the sources in merge order. -/
def sourceNames (r : Resolver) : List String := r.stack.names

def priority? (r : Resolver) (name : String) : Option Priority :=
  (r.raw? name).map RawSource.priority

/-- The sources that come from a file, with the file. -/
def watchedFiles (r : Resolver) : List (String × String) :=
  r.sources.filterMap fun (name, raw) =>
    (raw.origin.bind Source.file?).map fun path => (name, path)

def size (r : Resolver) : Nat := r.sources.length

/-! ## Lemmas -/

section Outcome

variable {r : Resolver} {env : Surroundings} {name : String} {raw : RawSource} {s : Source}
  {t : Tree} {e : ConfigError}

theorem registerSource_of_ok (h : s.loadMap env = .ok t) : r.registerSource env s =
    .ok (r.insert s.name { tree := t, priority := s.priority env, origin := some s }) := by
  unfold registerSource
  rw [h]
  rfl

theorem registerSource_of_error (h : s.loadMap env = .error e) :
    r.registerSource env s = .error e := by
  unfold registerSource
  rw [h]
  rfl

theorem reload_of_unknown (h : r.raw? name = none) :
    r.reload env name = .error (.unknownSource name) := by
  unfold reload
  rw [h]

theorem reload_of_bare (hr : r.raw? name = some raw) (ho : raw.origin = none) :
    r.reload env name = .ok r := by
  unfold reload
  rw [hr]
  dsimp only
  rw [ho]

theorem reload_of_ok (hr : r.raw? name = some raw) (ho : raw.origin = some s)
    (h : s.loadMap env = .ok t) : r.reload env name =
      .ok (r.insert name { tree := t, priority := s.priority env, origin := some s }) := by
  unfold reload
  rw [hr]
  dsimp only
  rw [ho]
  dsimp only
  rw [h]
  rfl

theorem reload_of_error (hr : r.raw? name = some raw) (ho : raw.origin = some s)
    (h : s.loadMap env = .error e) : r.reload env name = .error e := by
  unfold reload
  rw [hr]
  dsimp only
  rw [ho]
  dsimp only
  rw [h]
  rfl

end Outcome

end Resolver

end LayeredConfig
