import LayeredConfig.Proofs.Application.Coherence

/-!
# The identifier in the configuration

The source of the identifier comes in last when an application starts, at the greatest priority.
Later a source comes in only when it is loaded again from where it came (`Loads`), and that counts
as a new registration.  So the raw sources are at all times split at that of the identifier: after
it stand those that were loaded again since (`exists_split_sources`).  Of these, the ones of the
greatest priority lie above the identifier, and nothing else does:

    sourceNames = low ++ instanceSource :: high,
    n ∈ high ↔ n was loaded again and has the greatest priority

As long as none of them covers its path, the identifier is what the configuration shows there.
-/

namespace LayeredConfig

namespace Application

/-- One of the calls loads the source of the name again. -/
def Reloaded (a : Application) (cs : List Action) (name : String) : Prop :=
  ∃ cs₁ c cs₂, cs = cs₁ ++ c :: cs₂ ∧ (a.run cs₁).Loads c name

/-! ## Lemmas -/

theorem not_reloaded_nil (a : Application) (name : String) : ¬ a.Reloaded [] name := by
  rintro ⟨cs₁, c, cs₂, h, -⟩
  simp at h

theorem reloaded_append_iff {a : Application} {cs : List Action} {c : Action} {name : String} :
    a.Reloaded (cs ++ [c]) name ↔ a.Reloaded cs name ∨ (a.run cs).Loads c name := by
  constructor
  · rintro ⟨cs₁, d, cs₂, h, hd⟩
    obtain ⟨-, rfl, rfl⟩ | ⟨rest, -, rfl⟩ := Tree.split_append_singleton h
    · exact .inr hd
    · exact .inl ⟨cs₁, d, rest, rfl, hd⟩
  · rintro (⟨cs₁, d, cs₂, rfl, hd⟩ | hd)
    · exact ⟨cs₁, d, cs₂ ++ [c], by simp, hd⟩
    · exact ⟨cs, c, [], rfl, hd⟩

/-- A name put last, after it was taken out. -/
theorem mem_keys_filter_append {es : List (String × RawSource)} {k : String} {v : RawSource}
    {n : String} :
    n ∈ Assoc.keys (es.filter (fun e => e.1 ≠ k) ++ [(k, v)]) ↔ n ∈ Assoc.keys es ∨ n = k := by
  unfold Assoc.keys
  rw [List.map_append, List.mem_append, List.map_singleton, List.mem_singleton]
  constructor
  · rintro (h | h)
    · obtain ⟨e, he, rfl⟩ := List.mem_map.mp h
      exact .inl (List.mem_map_of_mem (List.mem_filter.mp he).1)
    · exact .inr h
  · rintro (h | h)
    · obtain ⟨e, he, rfl⟩ := List.mem_map.mp h
      by_cases hk : e.1 = k
      · exact .inr hk
      · exact .inl (List.mem_map_of_mem (List.mem_filter.mpr ⟨he, decide_eq_true hk⟩))
    · exact .inr h

/-- After any calls, the sources that stand after that of the identifier are those that the calls
loaded again. -/
theorem exists_split_sources {a : Application} (h : Started a) (cs : List Action) :
    ∃ low high, (a.run cs).resolver.sources =
        low ++ (instanceSource, instanceRaw a.id) :: high ∧
      ∀ n, n ∈ Assoc.keys high ↔ a.Reloaded cs n := by
  induction cs using List.reverseRecOn with
  | nil =>
    obtain ⟨r, id, -, -, rfl⟩ := h.exists_start
    exact ⟨Assoc.erase instanceSource r.sources, [], rfl,
      fun n => ⟨fun hn => (by cases hn), fun hn => absurd hn (not_reloaded_nil _ n)⟩⟩
  | append_singleton cs c ih =>
    obtain ⟨low, high, hsources, hhigh⟩ := ih
    have hkept := kept_run h cs
    have hnd := hkept.reached.nodup_keys
    rw [run_append]
    show ∃ low high, ((a.run cs).act c).resolver.sources = _ ∧ _
    obtain ⟨P, rfl, hr⟩ | ⟨hnone, hr⟩ | ⟨env, n, raw, s, t, hloads, hraw, ho, -, hr⟩ :=
      act_cases (a.run cs) c
    · refine ⟨low, high, by rw [hr]; exact hsources, fun n => ?_⟩
      rw [hhigh, reloaded_append_iff]
      have hno : ¬ (a.run cs).Loads (.setProfiles P) n := fun hl => by cases hl.1
      simp [hno]
    · refine ⟨low, high, by rw [hr]; exact hsources, fun n => ?_⟩
      rw [hhigh, reloaded_append_iff]
      simp [hnone n]
    · have hne : instanceSource ≠ n := (hkept.ne_instanceSource hraw ho).symm
      refine ⟨low.filter fun e => e.1 ≠ n,
        high.filter (fun e => e.1 ≠ n) ++
          [(n, { tree := t, priority := s.priority env, origin := some s })], ?_, fun m => ?_⟩
      · rw [hr]
        show Assoc.erase n (a.run cs).resolver.sources ++ [(n, _)] = _
        rw [Assoc.erase_eq_filter hnd, hsources, List.filter_append, List.filter_cons,
          if_pos (decide_eq_true hne), List.append_assoc, List.cons_append]
      · have hm : (a.run cs).Loads c m ↔ m = n := by
          constructor
          · exact fun hm => Option.some.inj (hm.1.symm.trans hloads.1)
          · rintro rfl
            exact hloads
        rw [mem_keys_filter_append, hhigh, reloaded_append_iff, hm]

/-- Nothing outranks the identifier; above it lie the sources of its priority that stand after its
source. -/
theorem exists_layers_replay (P : ProfileSet) (low high : List (String × RawSource))
    {s : String × RawSource} (hs : ∀ p, p ≤ s.2.priority) :
    ∃ below, (Resolver.replay P (low ++ s :: high)).stack.layers = below ++ Resolver.layer P s ::
      (ties (fun s => s.2.priority) s.2.priority high).map (Resolver.layer P) := by
  refine ⟨(mergeOrder (fun s => s.2.priority) ((low ++ s :: high).filter
    fun m => m.2.priority ≠ s.2.priority) ++
      ties (fun s => s.2.priority) s.2.priority low).map (Resolver.layer P), ?_⟩
  have hties : ties (fun s : String × RawSource => s.2.priority) s.2.priority (s :: high) =
      s :: ties (fun s => s.2.priority) s.2.priority high := by
    unfold ties
    rw [List.filter_cons, if_pos (decide_eq_true rfl)]
  have hmax : ∀ m ∈ low ++ s :: high, m.2.priority ≤ s.2.priority := fun m _ => hs m.2.priority
  rw [Resolver.layers_replay, mergeOrder_eq_append_ties hmax, ties_append, hties,
    ← List.append_assoc, List.map_append, List.map_cons]

/-- After any calls, nothing lies above the layer of the identifier but the sources of its priority
that the calls loaded again. -/
theorem exists_split_layers {a₀ : Application} (h : Started a₀) (cs : List Action) :
    let r := (a₀.run cs).resolver
    ∃ (below : List Layer) (above : List (String × RawSource)),
      r.stack.layers = below ++ Resolver.layer r.profiles (instanceSource, instanceRaw a₀.id) ::
        above.map (Resolver.layer r.profiles) ∧
      ∀ n raw, (n, raw) ∈ above ↔
        a₀.Reloaded cs n ∧ r.raw? n = some raw ∧ raw.priority = Priority.runtime := by
  intro r
  have hkept := kept_run h cs
  have hnd := hkept.reached.nodup_keys
  obtain ⟨low, high, hsources, hhigh⟩ := exists_split_sources h cs
  obtain ⟨below, hlayers⟩ := exists_layers_replay r.profiles low high
    (s := (instanceSource, instanceRaw a₀.id)) fun p => Int32.le_maxValue p
  rw [← hsources, ← hkept.reached.eq_replay] at hlayers
  refine ⟨below, ties (fun s => s.2.priority) Priority.runtime high, hlayers, fun n raw => ?_⟩
  have hget : ∀ s ∈ high, r.raw? s.1 = some s.2 := by
    intro s hs
    apply Assoc.get?_of_mem hnd
    rw [hsources]
    exact List.mem_append_right _ (List.mem_cons_of_mem _ hs)
  constructor
  · intro hmem
    obtain ⟨hmem, hpri⟩ := List.mem_filter.mp hmem
    exact ⟨(hhigh n).mp (List.mem_map_of_mem hmem), hget _ hmem, of_decide_eq_true hpri⟩
  · rintro ⟨hloaded, hraw, hpri⟩
    obtain ⟨s, hs, rfl⟩ := List.mem_map.mp ((hhigh n).mpr hloaded)
    obtain rfl := Option.some.inj ((hget s hs).symm.trans hraw)
    exact List.mem_filter.mpr ⟨hs, decide_eq_true hpri⟩

/-! ## Top theorem (proved from the lemmas above) -/

/-- After any calls, the sources above that of the identifier are those of the greatest priority
that the calls loaded again; and the identifier is read at its path, unless one of these covers
it. -/
theorem identifier_run {a₀ : Application} (h : Started a₀) (cs : List Action) :
    let a := a₀.run cs
    (∃ low high, a.sourceNames = low ++ instanceSource :: high ∧
      ∀ n, n ∈ high ↔ a₀.Reloaded cs n ∧ a.resolver.priority? n = some Priority.runtime) ∧
    ((∀ n raw, a₀.Reloaded cs n → a.resolver.raw? n = some raw →
        raw.priority = Priority.runtime →
        ¬ (a.resolver.process raw.tree).Covers instancePath) →
      a.config.root.get? instancePath = some (.value a.id.text)) := by
  intro a
  have hkept : a.Kept := kept_run h cs
  obtain ⟨below, above, hlayers, habove⟩ := exists_split_layers h cs
  constructor
  · refine ⟨below.map Layer.name, above.map Prod.fst, ?_, fun n => ?_⟩
    · show a.resolver.stack.layers.map Layer.name = _
      rw [hlayers, List.map_append, List.map_cons, List.map_map]
      rfl
    · rw [Resolver.priority?, Option.map_eq_some_iff]
      constructor
      · intro hn
        obtain ⟨⟨_, raw⟩, hs, rfl⟩ := List.mem_map.mp hn
        obtain ⟨hloaded, hraw, hpri⟩ := (habove _ raw).mp hs
        exact ⟨hloaded, raw, hraw, hpri⟩
      · rintro ⟨hloaded, raw, hraw, hpri⟩
        exact List.mem_map_of_mem ((habove n raw).mpr ⟨hloaded, hraw, hpri⟩)
  · intro hfree
    rw [hkept.config_eq, id_run]
    show a.resolver.stack.merged.get? (Path.ofKeys ["runtime", "instance-id"]) = _
    rw [hkept.reached.consistent.get?_merged_eq_some_iff rfl]
    refine ⟨below, _, _, hlayers, ?_, ?_⟩
    · show (a.resolver.profiles.process (instanceTree a₀.id)).get? instancePath = _
      rw [process_instanceTree]
      rfl
    · intro m hm
      obtain ⟨⟨n, raw⟩, hs, rfl⟩ := List.mem_map.mp hm
      obtain ⟨hloaded, hraw, hpri⟩ := (habove n raw).mp hs
      exact hfree n raw hloaded hraw hpri

/-- Two sources of the greatest priority: the one that holds an identifier of its own stays below,
and the one that is loaded again holds none. -/
theorem identifier_run_above :
    let fixed : Tree := .map [("runtime", .map [("instance-id", .value "fixed")])]
    let other : Tree := .map [("k", .value "1")]
    let sources := [Source.ofTree "x" fixed Priority.runtime,
      Source.ofTree "y" other Priority.runtime]
    ∃ a host, Builder.ofSteps (sources.map .source) = .ok { sources } ∧
      ApplicationBuilder.build { config := { sources } } {} plainHost ⟨"7"⟩ = .ok (a, host) ∧
      let a' := a.run [.reload {} "y"]
      a'.sourceNames = ["x", instanceSource, "y"] ∧
      a'.config.root.get? instancePath = some (.value "7") := by
  intro fixed other sources
  have hsteps : Builder.ofSteps (sources.map .source) = .ok { sources } := rfl
  obtain ⟨⟨a, host⟩, hbuild⟩ : ∃ built,
      ApplicationBuilder.build { config := { sources } } {} plainHost ⟨"7"⟩ = .ok built :=
    exists_of_isOk (by decide +kernel)
  have hother : ProfileSet.empty.process other = other :=
    process_of_clean _ (by decide) (by decide)
  obtain ⟨-, hid⟩ := identifier_run (.build hsteps hbuild) [.reload {} "y"]
  obtain ⟨r, hr, rfl⟩ := eq_start_of_build hbuild
  obtain rfl := Except.ok.inj hr
  refine ⟨_, host, hsteps, hbuild, rfl, hid ?_⟩
  intro n raw hreloaded hraw _
  obtain ⟨hn, -, -⟩ := (reloaded_append_iff.mp (show Reloaded _ ([] ++ [.reload {} "y"]) n from
    hreloaded)).resolve_left (not_reloaded_nil _ n)
  obtain rfl : "y" = n := Option.some.inj hn
  obtain rfl : (⟨other, Priority.runtime, some (Source.ofTree "y" other Priority.runtime)⟩ :
    RawSource) = raw := Option.some.inj hraw
  show ¬ (ProfileSet.empty.process other).Covers instancePath
  rw [hother]
  exact Tree.not_covers_of_key_not_mem (by decide) _

/-- A source of the greatest priority holds an identifier of its own: it lies below that of the
application, and above it once it is loaded again. -/
theorem reload_covers_identifier :
    let tree : Tree := .map [("runtime", .map [("instance-id", .value "fixed")])]
    let source := Source.ofTree "x" tree Priority.runtime
    ∃ a host, Builder.ofSteps [.source source] = .ok { sources := [source] } ∧
      ApplicationBuilder.build { config := { sources := [source] } } {} plainHost ⟨"7"⟩ =
        .ok (a, host) ∧
      a.config.root.get? instancePath = some (.value "7") ∧
      let a' := a.run [.reload {} "x"]
      a'.id.text = "7" ∧ a'.config.root.get? instancePath = some (.value "fixed") := by
  intro tree source
  obtain ⟨⟨a, host⟩, hbuild⟩ : ∃ built,
      ApplicationBuilder.build { config := { sources := [source] } } {} plainHost ⟨"7"⟩ =
        .ok built :=
    exists_of_isOk (by decide +kernel)
  have htree : ProfileSet.empty.process tree = tree := process_of_clean _ (by decide) (by decide)
  have hid := process_instanceTree ProfileSet.empty ⟨"7"⟩
  refine ⟨a, host, rfl, hbuild, ?_⟩
  obtain ⟨r, hr, rfl⟩ := eq_start_of_build hbuild
  obtain rfl := Except.ok.inj hr
  refine ⟨?_, rfl, ?_⟩
  · show (Tree.mergeAll [ProfileSet.empty.process tree,
      ProfileSet.empty.process (instanceTree ⟨"7"⟩)]).get? instancePath = _
    rw [htree, hid]
    rfl
  · show (Tree.mergeAll [ProfileSet.empty.process (instanceTree ⟨"7"⟩),
      ProfileSet.empty.process tree]).get? instancePath = _
    rw [htree, hid]
    rfl

end Application

end LayeredConfig
