import LayeredConfig.Proofs.Application.Coherence
import Mathlib.Data.List.Nodup
import Mathlib.Data.List.Perm.Subperm

/-!
# Which sources are told of changes

A watcher looks at targets, and for each it keeps one source to tell.  It starts exactly when there
is something to watch and all directories exist (`Watchable`).  Then every watched file has a source
that is told, but of several sources with one target only the last one is (`Told`):

    n is told  ↔ n comes with a path, and no later path has the same target
    every source is told  ↔ no two paths have one target, when the names are distinct

The paths of an application are those of its sources that come from a file, and their names are
distinct.  Two of them can name one file by different paths; then a change of the file is told to
one of the two.  Targets are compared as paths, so that a directory and the way back out of it,
`sub` and `sub/..`, are one target as well.

Main statement: `watchedSources_told`.
-/

namespace LayeredConfig

namespace Watch

/-- There is something to watch, and it lies in directories that exist. -/
def Watchable (files : FileSystem) (sources : List (String × String)) : Prop :=
  sources ≠ [] ∧ ∀ s ∈ sources, files.isDirectory (FileName.directory s.2) = true

instance (files : FileSystem) (sources : List (String × String)) :
    Decidable (Watchable files sources) :=
  inferInstanceAs (Decidable (_ ∧ _))

/-- The name comes with a path whose target no later path has. -/
def LastOfTarget (files : FileSystem) (sources : List (String × String)) (n : String) : Prop :=
  ∃ front path back, sources = front ++ (n, path) :: back ∧
    ∀ s ∈ back, Target.ofPath files s.2 ≠ Target.ofPath files path

/-- The sources that are told, ascending: for each target the last one. -/
structure Told (files : FileSystem) (sources : List (String × String)) (told : List String) :
    Prop where
  ascending : told.Pairwise (· ≤ ·)
  mem_iff : ∀ n, n ∈ told ↔ LastOfTarget files sources n
  length_eq : told.length = (sources.map fun s => Target.ofPath files s.2).eraseDups.length
  covers : ∀ s ∈ sources, ∃ n path, (n, path) ∈ sources ∧ n ∈ told ∧
    Target.ofPath files path = Target.ofPath files s.2
  nodup : (sources.map Prod.fst).Nodup → told.Nodup
  perm : (sources.map fun s => Target.ofPath files s.2).Nodup → told.Perm (sources.map Prod.fst)
  all_iff : (sources.map Prod.fst).Nodup →
    ((∀ s ∈ sources, s.1 ∈ told) ↔ (sources.map fun s => Target.ofPath files s.2).Nodup)

/-- The sources by their targets. -/
def tagged (files : FileSystem) (sources : List (String × String)) : List (Target × String) :=
  sources.map fun s => (Target.ofPath files s.2, s.1)

/-- The last source of each target. -/
def lastOfEach (files : FileSystem) (sources : List (String × String)) : List String :=
  (Assoc.ofList (tagged files sources)).map Prod.snd

/-! ## Lemmas -/

section Told

variable {files : FileSystem} {sources : List (String × String)}

theorem keys_tagged : Assoc.keys (tagged files sources) =
    sources.map fun s => Target.ofPath files s.2 := by
  rw [Assoc.keys, tagged, List.map_map]
  rfl

theorem values_tagged : (tagged files sources).map Prod.snd = sources.map Prod.fst := by
  rw [tagged, List.map_map]
  rfl

theorem mem_tagged {k : Target} {n : String} : (k, n) ∈ tagged files sources ↔
    ∃ path, (n, path) ∈ sources ∧ Target.ofPath files path = k := by
  rw [tagged, List.mem_map]
  constructor
  · rintro ⟨⟨m, path⟩, hs, h⟩
    obtain ⟨hk, rfl⟩ := Prod.mk.inj h
    exact ⟨path, hs, hk⟩
  · rintro ⟨path, hs, rfl⟩
    exact ⟨(n, path), hs, rfl⟩

/-- All that starting can do: a directory is missing, nothing is to be watched, or every target is
told to its last source. -/
theorem watchedSources_cases (files : FileSystem) (sources : List (String × String)) :
    (¬ Watchable files sources ∧ ∃ e, watchedSources files sources = .error e) ∨
    Watchable files sources ∧ watchedSources files sources =
      .ok ((lastOfEach files sources).mergeSort fun a b => decide (a ≤ b)) := by
  unfold watchedSources targets
  cases hfind : sources.find? fun s => !files.isDirectory (FileName.directory s.2) with
  | some s =>
    have hs : files.isDirectory (FileName.directory s.2) = false := by
      simpa using List.find?_some hfind
    refine .inl ⟨fun h => ?_, _, rfl⟩
    have hdir := h.2 s (List.mem_of_find?_eq_some hfind)
    rw [hs] at hdir
    cases hdir
  | none =>
    dsimp only
    by_cases hne : sources = []
    · rw [if_pos hne]
      exact .inl ⟨fun h => h.1 hne, _, rfl⟩
    · rw [if_neg hne]
      refine .inr ⟨⟨hne, fun s hs => ?_⟩, ?_⟩
      · simpa using List.find?_eq_none.mp hfind s hs
      · rw [lastOfEach, Assoc.ofList, tagged, List.foldl_map]
        rfl

theorem mem_lastOfEach (n : String) :
    n ∈ lastOfEach files sources ↔ LastOfTarget files sources n := by
  have hmem : n ∈ lastOfEach files sources ↔ ∃ k, (k, n) ∈ Assoc.ofList (tagged files sources) := by
    simp [lastOfEach]
  rw [hmem]
  constructor
  · rintro ⟨k, hk⟩
    obtain ⟨front, back, hsplit, hback⟩ := Assoc.mem_ofList_iff.mp hk
    obtain ⟨fs, rest, rfl, -, hrest⟩ := List.map_eq_append_iff.mp hsplit
    obtain ⟨⟨m, path⟩, bs, rfl, hm, rfl⟩ := List.map_eq_cons_iff.mp hrest
    obtain ⟨rfl, rfl⟩ := Prod.mk.inj hm
    refine ⟨fs, path, bs, rfl, fun s hs htarget => hback ?_⟩
    rw [← htarget]
    exact List.mem_map_of_mem (List.mem_map_of_mem hs)
  · rintro ⟨front, path, back, rfl, hback⟩
    refine ⟨Target.ofPath files path, Assoc.mem_ofList_iff.mpr ⟨tagged files front,
      tagged files back, ?_, ?_⟩⟩
    · rw [tagged, List.map_append, List.map_cons]
      rfl
    · intro hmem
      rw [keys_tagged, List.mem_map] at hmem
      obtain ⟨s, hs, htarget⟩ := hmem
      exact hback s hs htarget

theorem length_lastOfEach : (lastOfEach files sources).length =
    (sources.map fun s => Target.ofPath files s.2).eraseDups.length := by
  rw [← keys_tagged, ← Assoc.keys_ofList, lastOfEach, Assoc.keys, List.length_map, List.length_map]

theorem exists_mem_lastOfEach {s : String × String} (hs : s ∈ sources) :
    ∃ n path, (n, path) ∈ sources ∧ n ∈ lastOfEach files sources ∧
      Target.ofPath files path = Target.ofPath files s.2 := by
  have hkey : Target.ofPath files s.2 ∈ Assoc.keys (Assoc.ofList (tagged files sources)) := by
    rw [Assoc.keys_ofList, List.mem_eraseDups, keys_tagged]
    exact List.mem_map_of_mem hs
  obtain ⟨⟨k, n⟩, hmem, rfl⟩ := List.mem_map.mp hkey
  obtain ⟨path, hpath, htarget⟩ := mem_tagged.mp (Assoc.mem_of_mem_ofList hmem)
  exact ⟨n, path, hpath, List.mem_map_of_mem hmem, htarget⟩

/-- A name that comes with one path is told for one target at most. -/
theorem nodup_lastOfEach (hnames : (sources.map Prod.fst).Nodup) :
    (lastOfEach files sources).Nodup := by
  have hnd : (Assoc.ofList (tagged files sources)).Nodup :=
    List.Nodup.of_map _ (Assoc.nodup_keys_ofList _)
  have hvalues : ((tagged files sources).map Prod.snd).Nodup := by
    rw [values_tagged]
    exact hnames
  exact hnd.map_on fun d hd e he =>
    List.inj_on_of_nodup_map hvalues (Assoc.mem_of_mem_ofList hd) (Assoc.mem_of_mem_ofList he)

theorem lastOfEach_eq_self (htargets : (sources.map fun s => Target.ofPath files s.2).Nodup) :
    lastOfEach files sources = sources.map Prod.fst := by
  rw [← keys_tagged] at htargets
  rw [lastOfEach, Assoc.ofList_eq_self htargets, values_tagged]

/-- Distinct names can all be told only for as many targets. -/
theorem nodup_targets_of_all (hnames : (sources.map Prod.fst).Nodup)
    (hall : ∀ s ∈ sources, s.1 ∈ lastOfEach files sources) :
    (sources.map fun s => Target.ofPath files s.2).Nodup := by
  have hnd := Assoc.nodup_keys_ofList (tagged files sources)
  have hkeys : Assoc.keys (Assoc.ofList (tagged files sources)) ⊆
      sources.map fun s => Target.ofPath files s.2 := by
    intro k hk
    rwa [Assoc.keys_ofList, List.mem_eraseDups, keys_tagged] at hk
  have htold : sources.map Prod.fst ⊆ lastOfEach files sources := by
    intro n hn
    obtain ⟨s, hs, rfl⟩ := List.mem_map.mp hn
    exact hall s hs
  have hlength : (sources.map fun s => Target.ofPath files s.2).length ≤
      (Assoc.keys (Assoc.ofList (tagged files sources))).length := by
    have hle := (hnames.subperm htold).length_le
    rw [lastOfEach, List.length_map, List.length_map] at hle
    rwa [Assoc.keys, List.length_map, List.length_map]
  exact ((hnd.subperm hkeys).perm_of_length_le hlength).nodup_iff.mp hnd

theorem told_sorted :
    Told files sources ((lastOfEach files sources).mergeSort fun a b => decide (a ≤ b)) := by
  have hperm := List.mergeSort_perm (lastOfEach files sources) fun a b => decide (a ≤ b)
  constructor
  case ascending =>
    have htrans : ∀ a b c : String, decide (a ≤ b) = true → decide (b ≤ c) = true →
        decide (a ≤ c) = true := by
      simpa using fun a b c => le_trans (a := a) (b := b) (c := c)
    have htotal : ∀ a b : String, (decide (a ≤ b) || decide (b ≤ a)) = true := by
      simpa using le_total
    exact (List.pairwise_mergeSort htrans htotal _).imp of_decide_eq_true
  case mem_iff => exact fun n => hperm.mem_iff.trans (mem_lastOfEach n)
  case length_eq => exact hperm.length_eq.trans length_lastOfEach
  case covers =>
    intro s hs
    obtain ⟨n, path, hpath, hn, htarget⟩ := exists_mem_lastOfEach hs
    exact ⟨n, path, hpath, hperm.mem_iff.mpr hn, htarget⟩
  case nodup => exact fun hnames => hperm.nodup_iff.mpr (nodup_lastOfEach hnames)
  case perm => exact fun htargets => hperm.trans (.of_eq (lastOfEach_eq_self htargets))
  case all_iff =>
    intro hnames
    constructor
    · exact fun hall => nodup_targets_of_all hnames fun s hs => hperm.mem_iff.mp (hall s hs)
    · intro htargets s hs
      rw [hperm.mem_iff, lastOfEach_eq_self htargets]
      exact List.mem_map_of_mem hs

theorem told_of_ok {told : List String} (h : watchedSources files sources = .ok told) :
    Told files sources told := by
  obtain ⟨-, e, he⟩ | ⟨-, hok⟩ := watchedSources_cases files sources
  · cases he.symm.trans h
  · obtain rfl := Except.ok.inj (hok.symm.trans h)
    exact told_sorted

theorem exists_ok_iff : (∃ told, watchedSources files sources = .ok told) ↔
    Watchable files sources := by
  obtain ⟨hno, e, he⟩ | ⟨hyes, hok⟩ := watchedSources_cases files sources
  · exact ⟨fun ⟨_, h⟩ => (by cases he.symm.trans h), fun h => absurd h hno⟩
  · exact ⟨fun _ => hyes, fun _ => ⟨_, hok⟩⟩

end Told

end Watch

namespace Resolver

/-- The watched files are the files that the raw sources come from. -/
theorem mem_watchedFiles {r : Resolver} (hnd : (Assoc.keys r.sources).Nodup) {n path : String} :
    (n, path) ∈ r.watchedFiles ↔
      ∃ raw s, r.raw? n = some raw ∧ raw.origin = some s ∧ s.file? = some path := by
  rw [watchedFiles, List.mem_filterMap]
  constructor
  · rintro ⟨⟨m, raw⟩, hmem, h⟩
    obtain ⟨p, hp, h⟩ := Option.map_eq_some_iff.mp h
    obtain ⟨rfl, rfl⟩ := Prod.mk.inj h
    obtain ⟨s, hs, hfile⟩ := Option.bind_eq_some_iff.mp hp
    exact ⟨raw, s, Assoc.get?_of_mem hnd hmem, hs, hfile⟩
  · rintro ⟨raw, s, hraw, hs, hfile⟩
    refine ⟨(n, raw), Assoc.mem_of_get? hraw, ?_⟩
    dsimp only
    rw [hs, Option.bind_some, hfile, Option.map_some]

theorem nodup_watchedFiles {r : Resolver} (hnd : (Assoc.keys r.sources).Nodup) :
    (r.watchedFiles.map Prod.fst).Nodup := by
  rw [Assoc.keys, List.Nodup, List.pairwise_map] at hnd
  rw [watchedFiles, List.Nodup, List.pairwise_map, List.pairwise_filterMap]
  refine hnd.imp fun {d e} hde b hb c hc => ?_
  obtain ⟨_, -, rfl⟩ := Option.map_eq_some_iff.mp hb
  obtain ⟨_, -, rfl⟩ := Option.map_eq_some_iff.mp hc
  exact hde

end Resolver

namespace Application

open Watch

/-! ## Top theorem (proved from the lemmas above) -/

/-- A watcher starts when there is something to watch in directories that exist; it then tells, for
each target, the last of its sources.  The list may be that of an application after any calls: it
has the sources that come from a file, each under a name of its own. -/
theorem watchedSources_told (files : FileSystem) (sources : List (String × String)) :
    ((∃ told, Watch.watchedSources files sources = .ok told) ↔ Watchable files sources) ∧
    (∀ told, Watch.watchedSources files sources = .ok told → Told files sources told) ∧
    ∀ a₀ cs vars, Started a₀ →
      let a := a₀.run cs
      a.resolver.watchedFiles = sources →
        (∀ told, a.watchedSources { files, vars } = .ok told ↔
          Watch.watchedSources files sources = .ok told) ∧
        (sources.map Prod.fst).Nodup ∧
        ∀ n path, (n, path) ∈ sources ↔ ∃ raw s, a.resolver.raw? n = some raw ∧
          raw.origin = some s ∧ s.file? = some path := by
  refine ⟨exists_ok_iff, fun told => told_of_ok, ?_⟩
  rintro a₀ cs vars h a rfl
  have hnd : (Assoc.keys a.resolver.sources).Nodup := (kept_run h cs).reached.nodup_keys
  refine ⟨fun told => ⟨eq_of_mapError_eq_ok, fun hok => ?_⟩, Resolver.nodup_watchedFiles hnd,
    fun n path => Resolver.mem_watchedFiles hnd⟩
  rw [watchedSources, hok]
  rfl

/-- Three sources and two files: the one loaded again is the one that is told. -/
theorem watchedSources_told_respelled :
    let sources := ["x.toml", "./x.toml", "y.toml"].map fun path =>
      (Source.ofFile path Priority.file).optional
    ∃ a₀ host, Builder.ofSteps (sources.map .source) = .ok { sources } ∧
      ApplicationBuilder.build { config := { sources } } {} plainHost ⟨"7"⟩ = .ok (a₀, host) ∧
      ∃ told, (a₀.run [.reload {} "file:x.toml"]).watchedSources {} = .ok told ∧ told.Nodup ∧
        told.length = 2 ∧ "file:x.toml" ∈ told := by
  intro sources
  have hsteps : Builder.ofSteps (sources.map .source) = .ok { sources } := rfl
  obtain ⟨⟨a₀, host⟩, hbuild⟩ : ∃ built,
      ApplicationBuilder.build { config := { sources } } {} plainHost ⟨"7"⟩ = .ok built :=
    exists_of_isOk (by decide +kernel)
  have hfiles : (a₀.run [.reload {} "file:x.toml"]).resolver.watchedFiles =
      [("file:./x.toml", "./x.toml"), ("file:y.toml", "y.toml"), ("file:x.toml", "x.toml")] := by
    obtain ⟨r, hr, rfl⟩ := eq_start_of_build hbuild
    have hmap : (Builder.build { sources } {}).map (fun r =>
        ((start r ⟨"7"⟩).run [.reload {} "file:x.toml"]).resolver.watchedFiles) =
          .ok [("file:./x.toml", "./x.toml"), ("file:y.toml", "y.toml"),
            ("file:x.toml", "x.toml")] := by
      decide +kernel
    rw [hr] at hmap
    exact Except.ok.inj hmap
  obtain ⟨hiff, htold, happ⟩ := watchedSources_told {}
    [("file:./x.toml", "./x.toml"), ("file:y.toml", "y.toml"), ("file:x.toml", "x.toml")]
  obtain ⟨hsame, hnames, -⟩ := happ a₀ [.reload {} "file:x.toml"] [] (.build hsteps hbuild) hfiles
  obtain ⟨told, hok⟩ := hiff.mpr (by decide +kernel)
  have h := htold told hok
  refine ⟨a₀, host, hsteps, hbuild, told, (hsame told).mpr hok, h.nodup hnames, ?_, ?_⟩
  · rw [h.length_eq]
    decide +kernel
  · exact (h.mem_iff _).mpr ⟨[("file:./x.toml", "./x.toml"), ("file:y.toml", "y.toml")], "x.toml",
      [], rfl, by simp⟩

/-- Two names for one file, both in the working directory: one of them is not told. -/
theorem watchedSources_one_file :
    let sources := [("a", "x.toml"), ("b", "./x.toml")]
    Watchable {} sources ∧ ∃ told, Watch.watchedSources {} sources = .ok told ∧
      ∃ s ∈ sources, s.1 ∉ told :=
  ⟨by decide +kernel, ["b"], by decide +kernel, ("a", "x.toml"), by decide, by decide⟩

/-- One target, written with its own name or on the way back out of it, and one that lies behind a
link. -/
example :
    let files : FileSystem := {
      here := ["work"],
      entries := [(["work", "sub"], .directory), (["link"], .link "work/sub")] }
    Watchable files [("a", "sub"), ("b", "sub/.."), ("c", "/link/x")] ∧
      Target.ofPath files "sub" = Target.ofPath files "sub/.." ∧
      Target.ofPath files "sub/x" = Target.ofPath files "/link/x" := by
  decide +kernel

end Application

end LayeredConfig
