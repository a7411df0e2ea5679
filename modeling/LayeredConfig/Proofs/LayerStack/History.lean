import LayeredConfig.Proofs.LayerStack.Order
import LayeredConfig.Proofs.LayerStack.Override
import Mathlib.Data.List.Nodup

/-!
# What a stack keeps of its history

Of the calls that a stack has seen, it keeps the layers that are left and the order in which those
were last registered; of that order only what happened among equal priorities can be told from it.
`age as name` counts the calls since the name was last registered.  A layer lies below another one
when its priority is lower, or when it is older and the priorities are equal (`Below`):

    (run as).layers is a list in which each layer lies below the next ones      (below_layers_run)

No two lists of the same layers have this property (`eq_layers_run`), so that it does not matter in
which order the layers are kept until they are sorted.  Two runs that leave the same layers, with
those of one priority registered in the same order, leave the same list (`run_eq_of_live`).
-/

namespace LayeredConfig

namespace LayerStack

/-- Whether a call registers a layer of the name. -/
def Action.registers (name : String) : Action → Bool
  | .register l => l.name = name
  | .unregister _ => false

/-- How many calls there were since the name was last registered. -/
def age (as : List Action) (name : String) : Nat := as.reverse.findIdx (Action.registers name)

/-- After the calls, the first layer is merged before the second one: it has a lower priority, or
the same one and was last registered earlier. -/
def Below (as : List Action) (l m : Layer) : Prop :=
  l.priority < m.priority ∨ l.priority = m.priority ∧ age as m.name < age as l.name

/-- The layers as they were last registered, the oldest first. -/
def InOrder (as : List Action) (ls : List Layer) : Prop :=
  ls.Pairwise fun l m => age as m.name < age as l.name

/-! ## Lemmas -/

theorem age_register_self (as : List Action) (l : Layer) :
    age (as ++ [.register l]) l.name = 0 := by
  unfold age
  rw [List.reverse_append, List.reverse_singleton, List.singleton_append, List.findIdx_cons]
  simp [Action.registers]

/-- A call that does not register a name makes it one call older. -/
theorem age_append {a : Action} {name : String} (h : a.registers name = false) (as : List Action) :
    age (as ++ [a]) name = age as name + 1 := by
  unfold age
  rw [List.reverse_append, List.reverse_singleton, List.singleton_append, List.findIdx_cons, h]
  rfl

theorem Below.asymm {as : List Action} {l m : Layer} (h : Below as l m) : ¬ Below as m l := by
  rintro (hml | ⟨heq, hml⟩)
  · rcases h with hlm | ⟨heq, -⟩
    · exact Int32.lt_irrefl (Int32.lt_trans hlm hml)
    · exact Int32.lt_irrefl (heq ▸ hml)
  · rcases h with hlm | ⟨-, hlm⟩
    · exact Int32.lt_irrefl (heq ▸ hlm)
    · exact Nat.lt_asymm hlm hml

/-! ### A run, sorted -/

theorem InOrder.nodup_names {as : List Action} {ls : List Layer} (h : InOrder as ls) :
    (ls.map Layer.name).Nodup := by
  refine List.pairwise_map.mpr (h.imp ?_)
  intro l m hlm hname
  rw [hname] at hlm
  exact Nat.lt_irrefl _ hlm

/-- Layers of which a call registers none stay in order. -/
theorem InOrder.append {as : List Action} {ls : List Layer} (h : InOrder as ls) {a : Action}
    (ha : ∀ l ∈ ls, a.registers l.name = false) : InOrder (as ++ [a]) ls := by
  refine List.Pairwise.imp_of_mem ?_ h
  intro l m hl hm hlm
  rw [age_append (ha l hl), age_append (ha m hm)]
  exact Nat.succ_lt_succ hlm

/-- One call on a sorted list of layers in order: the list goes on without the name of the call,
and with the layer that it registers put last. -/
theorem exists_sorted_act {as : List Action} {ls : List Layer} (h : InOrder as ls) (a : Action) :
    ∃ ms, (sorted ls).act a = sorted ms ∧ InOrder (as ++ [a]) ms := by
  cases a with
  | register l =>
    have hold : ∀ m ∈ ls.filter fun m => m.name ≠ l.name,
        (Action.register l).registers m.name = false := by
      intro m hm
      have hne : m.name ≠ l.name := by simpa using (List.mem_filter.mp hm).2
      exact decide_eq_false hne.symm
    refine ⟨_, register_sorted l ls, List.pairwise_append.mpr ⟨?_, List.pairwise_singleton _ _, ?_⟩⟩
    · exact InOrder.append (List.Pairwise.filter _ h) hold
    · intro m hm k hk
      obtain rfl := List.mem_singleton.mp hk
      rw [age_register_self, age_append (hold m hm)]
      exact Nat.succ_pos _
  | unregister name =>
    exact ⟨_, unregister_sorted name ls, InOrder.append (List.Pairwise.filter _ h) fun _ _ => rfl⟩

theorem exists_sorted_run (as : List Action) : ∃ ls, run as = sorted ls ∧ InOrder as ls := by
  induction as using List.reverseRecOn with
  | nil => exact ⟨[], sorted_nil.symm, List.Pairwise.nil⟩
  | append_singleton as a ih =>
    obtain ⟨ls, hrun, hls⟩ := ih
    obtain ⟨ms, hact, hms⟩ := exists_sorted_act hls a
    refine ⟨ms, ?_, hms⟩
    rw [run_append, hrun]
    exact hact

theorem run_eq_ofLayers (as : List Action) : run as = ofLayers (run as).layers := by
  obtain ⟨ls, hrun, -⟩ := exists_sorted_run as
  rw [hrun]
  rfl

theorem nodup_names_run (as : List Action) : (run as).names.Nodup := by
  obtain ⟨ls, hrun, hls⟩ := exists_sorted_run as
  rw [hrun]
  exact ((perm_mergeOrder Layer.priority ls).map Layer.name).nodup_iff.mpr hls.nodup_names

/-- The layers of a run lie below each other in their order: they are sorted by priority, and
sorting leaves those of one priority in the order in which they were registered. -/
theorem below_layers_run (as : List Action) : (run as).layers.Pairwise (Below as) := by
  obtain ⟨ls, hrun, hls⟩ := exists_sorted_run as
  rw [hrun, List.pairwise_iff_forall_sublist]
  intro l m hlm
  have hle : l.priority ≤ m.priority :=
    List.pairwise_iff_forall_sublist.mp (ascending_mergeOrder Layer.priority ls) hlm
  by_cases heq : l.priority = m.priority
  · refine .inr ⟨heq, List.pairwise_iff_forall_sublist.mp hls ?_⟩
    have hties := hlm.filter fun k => decide (k.priority = m.priority)
    rw [List.filter_cons, if_pos (decide_eq_true heq), List.filter_cons,
      if_pos (decide_eq_true rfl), List.filter_nil] at hties
    have hkept : [l, m].Sublist (ties Layer.priority m.priority ls) :=
      (ties_mergeOrder m.priority ls) ▸ hties
    exact hkept.trans List.filter_sublist
  · exact .inl (Int32.lt_of_le_of_ne hle heq)

/-- However the layers of a run are listed, sorting the list gives them as they lie. -/
theorem eq_layers_run {as : List Action} {ls : List Layer} (hperm : ls.Perm (run as).layers)
    (h : ls.Pairwise (Below as)) : ls = (run as).layers :=
  List.Perm.eq_of_pairwise (fun _ _ _ _ hlm hml => absurd hml hlm.asymm) h (below_layers_run as)
    hperm

/-! ### Two runs -/

theorem name_of_layer? {s : LayerStack} {name : String} {l : Layer}
    (h : s.layer? name = some l) : l.name = name := by
  unfold layer? at h
  simpa using List.find?_some h

/-- What can be asked of a stack under a name tells the layer. -/
theorem layer?_congr {s s' : LayerStack} {name : String} (htree : s.tree? name = s'.tree? name)
    (hpri : s.priority? name = s'.priority? name) : s.layer? name = s'.layer? name := by
  unfold tree? at htree
  unfold priority? at hpri
  cases hl : s.layer? name with
  | none =>
    rw [hl, Option.map_none] at htree
    exact (Option.map_eq_none_iff.mp htree.symm).symm
  | some l =>
    rw [hl, Option.map_some] at htree hpri
    obtain ⟨m, hm, htree⟩ := Option.map_eq_some_iff.mp htree.symm
    rw [hm, Option.map_some] at hpri
    have hname : m.name = l.name := (name_of_layer? hm).trans (name_of_layer? hl).symm
    obtain ⟨_, _, _⟩ := l
    obtain ⟨_, _, _⟩ := m
    simp_all

theorem perm_layers_of_layer?_eq {s s' : LayerStack} (hs : s.names.Nodup) (hs' : s'.names.Nodup)
    (h : ∀ name, s.layer? name = s'.layer? name) : s.layers.Perm s'.layers := by
  rw [List.perm_ext_iff_of_nodup (List.Nodup.of_map _ hs) (List.Nodup.of_map _ hs')]
  intro l
  rw [mem_layers_iff hs, mem_layers_iff hs', h]

theorem priority?_of_mem_layers {s : LayerStack} (hs : s.names.Nodup) {l : Layer}
    (hl : l ∈ s.layers) : s.priority? l.name = some l.priority := by
  rw [priority?, (mem_layers_iff hs).mp hl, Option.map_some]

theorem run_eq_of_live {as bs : List Action}
    (hlive : ∀ name, (run as).layer? name = (run bs).layer? name)
    (hties : ∀ m ∈ (run as).names, ∀ n ∈ (run as).names,
      (run as).priority? m = (run as).priority? n → (age as m < age as n ↔ age bs m < age bs n)) :
    run as = run bs := by
  have hnd := nodup_names_run as
  have hperm := perm_layers_of_layer?_eq hnd (nodup_names_run bs) hlive
  have hbelow : (run as).layers.Pairwise (Below bs) := by
    refine List.Pairwise.imp_of_mem ?_ (below_layers_run as)
    intro l m hl hm hlm
    refine hlm.imp_right fun ⟨heq, hage⟩ => ⟨heq, (hties _ ?_ _ ?_ ?_).mp hage⟩
    · exact List.mem_map_of_mem hm
    · exact List.mem_map_of_mem hl
    · rw [priority?_of_mem_layers hnd hm, priority?_of_mem_layers hnd hl, heq]
  rw [run_eq_ofLayers as, run_eq_ofLayers bs, eq_layers_run hperm hbelow]

/-- Layers without ties, registered in any order. -/
theorem run_registers_eq_of_perm {ls ms : List Layer} (hperm : ls.Perm ms)
    (hnames : (ls.map Layer.name).Nodup) (hpri : (ls.map Layer.priority).Nodup) :
    run (ls.map .register) = run (ms.map .register) := by
  have hrun : ∀ ks : List Layer, (ks.map Layer.name).Nodup →
      run (ks.map .register) = sorted ks := by
    intro ks hks
    unfold run
    rw [List.foldl_map]
    exact registerAll_eq hks
  rw [hrun ls hnames, hrun ms ((hperm.map Layer.name).nodup_iff.mp hnames)]
  unfold sorted
  congr 1
  apply List.Perm.eq_of_pairwise _ (ascending_mergeOrder _ ls) (ascending_mergeOrder _ ms)
  · exact (perm_mergeOrder _ ls).trans (hperm.trans (perm_mergeOrder _ ms).symm)
  · intro l m hl hm hlm hml
    have hm : m ∈ ls := hperm.mem_iff.mpr (mem_mergeOrder.mp hm)
    exact List.inj_on_of_nodup_map hpri (mem_mergeOrder.mp hl) hm (Int32.le_antisymm hlm hml)

/-- A layer of a fresh name, registered and taken out again. -/
theorem unregister_register_of_fresh (as : List Action) {l : Layer}
    (h : l.name ∉ (run as).names) : ((run as).register l).unregister l.name = run as := by
  obtain ⟨ls, hrun, -⟩ := exists_sorted_run as
  rw [hrun] at h ⊢
  have hfresh : ls.filter (fun m => m.name ≠ l.name) = ls := by
    rw [List.filter_eq_self]
    intro m hm
    refine decide_eq_true fun hname => h ?_
    exact hname ▸ List.mem_map_of_mem (mem_mergeOrder.mpr hm)
  rw [register_sorted, unregister_sorted, hfresh, List.filter_append, hfresh]
  simp

/-! ## Top theorem (proved from the lemmas above) -/

/-- Whatever two runs did on the way: when they leave the same names with the same trees and
priorities, and names of one priority were last registered in the same order, then the names come in
the same order and the merged views are equal.  For the layers lie by priority, ties by last
registration, and only one list of them does.  In particular layers of different priorities can be
registered in any order, and a fresh name that is taken out again leaves no trace. -/
theorem merged_run_eq_of_live :
    (∀ as bs : List Action,
      (∀ name, (run as).tree? name = (run bs).tree? name ∧
        (run as).priority? name = (run bs).priority? name) →
      (∀ m ∈ (run as).names, ∀ n ∈ (run as).names,
        (run as).priority? m = (run as).priority? n →
          (age as m < age as n ↔ age bs m < age bs n)) →
      (run as).names = (run bs).names ∧ (run as).merged = (run bs).merged) ∧
    (∀ (as : List Action) (ls : List Layer), ls.Perm (run as).layers →
      (ls.Pairwise (Below as) ↔ ls = (run as).layers)) ∧
    (∀ ls ms : List Layer, ls.Perm ms → (ls.map Layer.name).Nodup →
      (ls.map Layer.priority).Nodup →
      (run (ls.map .register)).names = (run (ms.map .register)).names ∧
        (run (ls.map .register)).merged = (run (ms.map .register)).merged) ∧
    ∀ (as : List Action) (l : Layer), l.name ∉ (run as).names →
      let s := run (as ++ [.register l, .unregister l.name])
      s.names = (run as).names ∧ s.merged = (run as).merged := by
  refine ⟨?_, ?_, ?_, ?_⟩
  · intro as bs hlive hties
    have hrun : run as = run bs :=
      run_eq_of_live (fun name => layer?_congr (hlive name).1 (hlive name).2) hties
    rw [hrun]
    exact ⟨rfl, rfl⟩
  · intro as ls hperm
    exact ⟨eq_layers_run hperm, fun h => h ▸ below_layers_run as⟩
  · intro ls ms hperm hnames hpri
    rw [run_registers_eq_of_perm hperm hnames hpri]
    exact ⟨rfl, rfl⟩
  · intro as l hfresh s
    have hs : s = run as := by
      show (as ++ [Action.register l, Action.unregister l.name]).foldl act {} = _
      rw [List.foldl_append]
      exact unregister_register_of_fresh as hfresh
    rw [hs]
    exact ⟨rfl, rfl⟩

/-- One name moves between priorities in the first run, and another one comes and goes in the
second. -/
theorem merged_run_eq_of_live_moved :
    let old : Layer := ⟨"b", .map [("k", .value "0"), ("j", .value "0")], 3⟩
    let a : Layer := ⟨"a", .map [("k", .value "1")], 0⟩
    let b : Layer := ⟨"b", .map [("j", .value "2"), ("k", .value "2")], 0⟩
    let c : Layer := ⟨"c", .map [("k", .value "3")], 5⟩
    let as : List Action := [.register old, .register a, .register b]
    let bs : List Action := [.register a, .register c, .register b, .unregister "c"]
    (∀ name, (run as).tree? name = (run bs).tree? name ∧
        (run as).priority? name = (run bs).priority? name) ∧
      (∀ m ∈ (run as).names, ∀ n ∈ (run as).names,
        (run as).priority? m = (run as).priority? n →
          (age as m < age as n ↔ age bs m < age bs n)) ∧
      (run as).merged = (run bs).merged ∧
      (run [.register a, .register c]).merged = (run [.register c, .register a]).merged ∧
      "c" ∉ (run as).names ∧
      (run (as ++ [.register c, .unregister "c"])).merged = (run as).merged := by
  intro old a b c as bs
  have hlayers : (run as).layers = [a, b] := rfl
  have hlayers' : (run bs).layers = [a, b] := rfl
  have hlive : ∀ name, (run as).tree? name = (run bs).tree? name ∧
      (run as).priority? name = (run bs).priority? name := by
    intro name
    simp only [tree?, priority?, layer?, hlayers, hlayers', and_self]
  have hnames : (run as).names = ["a", "b"] := rfl
  have hties : ∀ m ∈ (run as).names, ∀ n ∈ (run as).names,
      (run as).priority? m = (run as).priority? n →
        (age as m < age as n ↔ age bs m < age bs n) := by
    intro m hm n hn _
    simp only [hnames, List.mem_cons, List.not_mem_nil, or_false] at hm hn
    rcases hm with rfl | rfl <;> rcases hn with rfl | rfl <;> decide
  have hfresh : "c" ∉ (run as).names := by decide
  obtain ⟨hruns, -, hperm, htaken⟩ := merged_run_eq_of_live
  refine ⟨hlive, hties, (hruns as bs hlive hties).2, ?_, hfresh, (htaken as c hfresh).2⟩
  exact (hperm [a, c] [c, a] (List.Perm.swap c a []) (by decide) (by decide)).2

end LayerStack

end LayeredConfig
