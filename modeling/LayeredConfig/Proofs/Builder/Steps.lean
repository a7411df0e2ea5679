import LayeredConfig.Builder

/-!
# Builders, step by step

A builder starts empty and is put together by steps, of which the first that fails ends the
building (`ofSteps`).  Loading a variable file changes the surroundings and not the builder, so it
is no step.  What a step does to the builder can be read off the step (`after`):

    b.step s = ok b' → b' = b.after s                             (eq_after_of_step)

Values set in the program are stored in a map, and stay in one:

    ofSteps steps = ok b → the runtime values of b are a map      (runtimeIsMap_ofSteps)
-/

namespace LayeredConfig

theorem exists_of_bind_eq_ok {ε α β : Type} {x : Except ε α} {f : α → Except ε β} {y : β}
    (h : x >>= f = .ok y) : ∃ a, x = .ok a ∧ f a = .ok y := by
  cases x with
  | error e => cases h
  | ok a => exact ⟨a, rfl, h⟩

theorem exists_of_isOk {ε α : Type} {x : Except ε α} (h : x.isOk = true) : ∃ a, x = .ok a := by
  cases x with
  | error e => cases h
  | ok a => exact ⟨a, rfl⟩

/-- Storing at a path of a map leaves a map, also when it fails. -/
theorem Tree.isMap_set {t : Tree} (ht : t.isMap = true) (v : Tree) (p : Path) :
    (Tree.set v p t).1.isMap = true := by
  cases t with
  | value s => cases ht
  | array ts => cases ht
  | map es =>
    cases p with
    | nil => rfl
    | cons s p =>
      cases s with
      | key k =>
        cases p with
        | nil => rfl
        | cons s' p =>
          rw [Tree.set]
          · rfl
          · simp
      | index i => cases p <;> simp [Tree.set, isMap, kind]

namespace Builder

/-- A call on a builder, with the surroundings in which it is made. -/
inductive Step where
  | defaults (t : Tree)
  | source (s : Source)
  | file (files : FileSystem) (path : String)
  | fileAt (files : FileSystem) (path : String) (priority : Priority)
  | optionalFile (path : String)
  | document (env : Surroundings) (content format : String)
  | environment (name : String)
  | profiles (profiles : ProfileSet)
  | runtimeValue (expression : String) (v : Tree)

def step (b : Builder) : Step → Except ConfigError Builder
  | .defaults t => .ok (b.withDefaults t)
  | .source s => .ok (b.withSource s)
  | .file files path => b.withFile files path
  | .fileAt files path priority => b.withFileAt files path priority
  | .optionalFile path => b.withOptionalFile path
  | .document env content format => b.withDocument env content format
  | .environment name => .ok (b.withVariables name)
  | .profiles profiles => .ok (b.withProfiles profiles)
  | .runtimeValue expression v => b.withRuntimeValue expression v

/-- The builder after steps on an empty one, or the error of the first that fails. -/
def ofSteps (steps : List Step) : Except ConfigError Builder := steps.foldlM step {}

/-! ## What a step says -/

/-- The number of documents in text that a step adds. -/
def Step.documents : Step → Nat
  | .document .. => 1
  | _ => 0

/-- The source that a step adds after `n` documents in text. -/
def Step.source? (n : Nat) : Step → Option Source
  | .defaults t => some ⟨"defaults", fun _ => -1000, .tree t⟩
  | .source s => some s
  | .file _ path => some ⟨"file:" ++ path, fun _ => 0, .file path false⟩
  | .fileAt _ path priority => some ⟨"file:" ++ path, fun _ => priority, .file path false⟩
  | .optionalFile path => some ⟨"file:" ++ path, fun _ => 0, .file path true⟩
  | .document _ content format =>
    (Format.ofExtension? format).map fun f =>
      ⟨"string:" ++ toString n, fun _ => 0, .document f content⟩
  | .environment name =>
    some ⟨"env:" ++ Text.upper name, fun _ => 1000, .environment (Text.upper name)⟩
  | .profiles _ => none
  | .runtimeValue .. => none

/-- The active profiles after a step. -/
def Step.profilesAfter (P : ProfileSet) : Step → ProfileSet
  | .profiles Q => Q
  | _ => P

/-- The tree of the values set in the program, after a step. -/
def Step.runtimeAfter (runtime : Option Tree) : Step → Option Tree
  | .runtimeValue expression v =>
    match Path.parse expression with
    | .ok path => some (Tree.set v path (runtime.getD .empty)).1
    | .error _ => runtime
  | _ => runtime

/-- The builder after a step that succeeds. -/
def after (b : Builder) (s : Step) : Builder where
  sources := b.sources ++ (s.source? b.documents).toList
  runtime := s.runtimeAfter b.runtime
  profiles := s.profilesAfter b.profiles
  documents := b.documents + s.documents

/-- The values set in the program, if there are any, stand in a map. -/
def RuntimeIsMap (b : Builder) : Prop := ∀ t, b.runtime = some t → t.isMap = true

/-! ## Lemmas -/

theorem withFileAt_eq_ok {b b' : Builder} {files : FileSystem} {path : String}
    {priority : Priority} (h : b.withFileAt files path priority = .ok b') :
    b' = b.withSource (.ofFile path priority) := by
  unfold withFileAt at h
  split at h
  · obtain ⟨-, -, h⟩ := exists_of_bind_eq_ok h
    exact (Except.ok.inj h).symm
  · cases h

theorem withRuntimeValue_eq_ok {b b' : Builder} {expression : String} {v : Tree}
    (h : b.withRuntimeValue expression v = .ok b') :
    ∃ path, Path.parse expression = .ok path ∧
      b' = { b with runtime := some (Tree.set v path (b.runtime.getD .empty)).1 } := by
  obtain ⟨path, hpath, h⟩ := exists_of_bind_eq_ok h
  refine ⟨path, ?_, ?_⟩
  · unfold Config.path at hpath
    split at hpath
    · next hparse => rw [hparse, Except.ok.inj hpath]
    · cases hpath
  · split at h
    · next t hset =>
      rw [hset]
      exact (Except.ok.inj h).symm
    · cases h

theorem formatOf_eq_ok {name : String} {f : Format} (h : Document.formatOf name = .ok f) :
    Format.ofExtension? name = some f := by
  unfold Document.formatOf at h
  split at h
  · next hf => rw [hf, Except.ok.inj h]
  · cases h

theorem eq_after_of_step {b b' : Builder} {s : Step} (h : b.step s = .ok b') : b' = b.after s := by
  cases s with
  | defaults t => exact (Except.ok.inj h).symm
  | source s => exact (Except.ok.inj h).symm
  | file files path => exact withFileAt_eq_ok h
  | fileAt files path priority => exact withFileAt_eq_ok h
  | optionalFile path =>
    obtain ⟨-, -, h⟩ := exists_of_bind_eq_ok h
    exact (Except.ok.inj h).symm
  | document env content format =>
    obtain ⟨f, hf, h⟩ := exists_of_bind_eq_ok h
    obtain ⟨-, -, h⟩ := exists_of_bind_eq_ok h
    obtain rfl := Except.ok.inj h
    unfold after
    simp only [Step.source?, formatOf_eq_ok hf]
    rfl
  | environment name => exact (Except.ok.inj h).symm
  | profiles P =>
    obtain rfl := Except.ok.inj h
    simp [after, withProfiles, Step.source?, Step.runtimeAfter, Step.profilesAfter, Step.documents]
  | runtimeValue expression v =>
    obtain ⟨path, hpath, rfl⟩ := withRuntimeValue_eq_ok h
    simp [after, Step.source?, Step.runtimeAfter, Step.profilesAfter, Step.documents, hpath]

/-- Only a value set in the program changes the values set in the program. -/
theorem runtimeIsMap_after {b : Builder} (hb : b.RuntimeIsMap) (s : Step) :
    (b.after s).RuntimeIsMap := by
  cases s with
  | runtimeValue expression v =>
    have hold : (b.runtime.getD .empty).isMap = true := by
      cases hrt : b.runtime with
      | none => rfl
      | some t => exact hb t hrt
    intro u hu
    change Step.runtimeAfter b.runtime (.runtimeValue expression v) = some u at hu
    rw [Step.runtimeAfter] at hu
    split at hu
    · obtain rfl := Option.some.inj hu
      exact Tree.isMap_set hold v _
    · exact hb u hu
  | _ => exact hb

theorem runtimeIsMap_foldlM {steps : List Step} {b b' : Builder} (hb : b.RuntimeIsMap)
    (h : steps.foldlM step b = .ok b') : b'.RuntimeIsMap := by
  induction steps generalizing b with
  | nil => exact Except.ok.inj h ▸ hb
  | cons s steps ih =>
    rw [List.foldlM_cons] at h
    obtain ⟨q, hq, h⟩ := exists_of_bind_eq_ok h
    obtain rfl := eq_after_of_step hq
    exact ih (runtimeIsMap_after hb s) h

theorem runtimeIsMap_ofSteps {steps : List Step} {b : Builder} (h : ofSteps steps = .ok b) :
    b.RuntimeIsMap :=
  runtimeIsMap_foldlM (fun t ht => by cases ht) h

end Builder

end LayeredConfig
