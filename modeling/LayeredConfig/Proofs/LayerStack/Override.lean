import LayeredConfig.LayerStack
import LayeredConfig.Proofs.Tree.Overlay

/-!
# Which layer a value is read from

A stack is changed by registering and unregistering (`Action`, `run`).  Whatever the run, the names
stay distinct and the merged view is that of the layers (`Consistent`, kept by `act_consistent` and
so by `consistent_run`).  The layers then decide the values of the merged view path by path: the
last one that covers a path of keys is the one that is read there.

    the layer covers p with a value, none above covers p → read from that layer
    a value is read at p → it is that of the last layer with a node at p          (get?_merged_run)
-/

namespace LayeredConfig

namespace LayerStack

/-! ## Runs -/

inductive Action where
  | register (l : Layer)
  | unregister (name : String)

def act (s : LayerStack) : Action → LayerStack
  | .register l => s.register l
  | .unregister name => s.unregister name

/-- The stack after calls on an empty one. -/
def run (as : List Action) : LayerStack := as.foldl act {}

/-- What every stack keeps: its merged view is that of its layers, each under a name of its own. -/
structure Consistent (s : LayerStack) : Prop where
  nodup_names : s.names.Nodup
  merged_eq : s.merged = Tree.mergeAll (s.layers.map Layer.tree)
  distinct : ∀ l ∈ s.layers, l.tree.Distinct

/-! ## Lemmas -/

theorem perm_place (l : Layer) (ls : List Layer) : (place l ls).Perm (l :: ls) := by
  induction ls with
  | nil => exact List.Perm.refl _
  | cons m ms ih =>
    rw [place]
    split
    · exact (ih.cons m).trans (List.Perm.swap l m ms)
    · exact List.Perm.refl _

theorem nodup_names_place {l : Layer} {ls : List Layer} (h : (ls.map Layer.name).Nodup)
    (hl : ∀ m ∈ ls, m.name ≠ l.name) : ((place l ls).map Layer.name).Nodup := by
  rw [((perm_place l ls).map Layer.name).nodup_iff, List.map_cons, List.nodup_cons]
  refine ⟨?_, h⟩
  intro hmem
  obtain ⟨m, hm, hname⟩ := List.mem_map.mp hmem
  exact hl m hm hname

theorem nodup_names_others {s : LayerStack} (h : s.names.Nodup) (name : String) :
    ((s.others name).map Layer.name).Nodup :=
  h.sublist (List.filter_sublist.map _)

theorem mem_others {s : LayerStack} {name : String} {m : Layer} :
    m ∈ s.others name ↔ m ∈ s.layers ∧ m.name ≠ name := by
  rw [others, List.mem_filter, decide_eq_true_eq]

theorem Consistent.register {s : LayerStack} (hs : s.Consistent) {l : Layer}
    (hl : l.tree.Distinct) : (s.register l).Consistent where
  nodup_names := nodup_names_place (nodup_names_others hs.nodup_names l.name)
    fun _ hm => (mem_others.mp hm).2
  merged_eq := merged_register s l
  distinct := by
    intro m hm
    rcases mem_place.mp hm with rfl | hm
    · exact hl
    · exact hs.distinct m (mem_others.mp hm).1

theorem Consistent.unregister {s : LayerStack} (hs : s.Consistent) (name : String) :
    (s.unregister name).Consistent := by
  unfold LayerStack.unregister
  split
  · exact ⟨nodup_names_others hs.nodup_names name, rfl,
      fun m hm => hs.distinct m (mem_others.mp hm).1⟩
  · exact hs

theorem consistent_empty : Consistent {} := ⟨List.nodup_nil, rfl, by simp⟩

/-- One call keeps a stack consistent when the tree it brings names no key twice. -/
theorem act_consistent {s : LayerStack} (hs : s.Consistent) {a : Action}
    (ha : ∀ l, a = .register l → l.tree.Distinct) : (s.act a).Consistent := by
  cases a with
  | register l => exact hs.register (ha l rfl)
  | unregister name => exact hs.unregister name

theorem run_append (as : List Action) (a : Action) : run (as ++ [a]) = (run as).act a := by
  unfold run
  rw [List.foldl_append]
  rfl

theorem consistent_run {as : List Action} (h : ∀ l, .register l ∈ as → l.tree.Distinct) :
    (run as).Consistent := by
  induction as using List.reverseRecOn with
  | nil => exact consistent_empty
  | append_singleton as a ih =>
    rw [run_append]
    apply act_consistent
    · exact ih fun l hl => h l (List.mem_append_left _ hl)
    · rintro l rfl
      exact h l (by simp)

/-! ### Layers by name -/

/-- A split of the names is a split of the layers. -/
theorem exists_layers_of_names {s : LayerStack} {low high : List String} {name : String}
    (h : s.names = low ++ name :: high) :
    ∃ lows l highs, s.layers = lows ++ l :: highs ∧
      lows.map Layer.name = low ∧ l.name = name ∧ highs.map Layer.name = high := by
  obtain ⟨lows, rest, hlayers, hlow, hrest⟩ := List.map_eq_append_iff.mp h
  obtain ⟨l, highs, rfl, hname, hhigh⟩ := List.map_eq_cons_iff.mp hrest
  exact ⟨lows, l, highs, hlayers, hlow, hname, hhigh⟩

/-- Where names are distinct, each layer is the one found under its name. -/
theorem mem_layers_iff {s : LayerStack} (h : s.names.Nodup) {l : Layer} :
    l ∈ s.layers ↔ s.layer? l.name = some l := by
  constructor
  · intro hl
    obtain ⟨low, high, hsplit⟩ := List.append_of_mem hl
    rw [names, hsplit, List.map_append, List.nodup_append] at h
    unfold layer?
    rw [hsplit, List.find?_append, List.find?_eq_none.mpr, Option.none_or, List.find?_cons]
    · simp
    · intro m hm
      have := h.2.2 m.name (List.mem_map_of_mem hm) l.name (by simp)
      simpa using this
  · exact List.mem_of_find?_eq_some

section Names

variable {s : LayerStack} (hs : s.Consistent)

include hs

theorem Consistent.layer?_of_mem {l : Layer} (hl : l ∈ s.layers) : s.layer? l.name = some l :=
  (mem_layers_iff hs.nodup_names).mp hl

theorem Consistent.tree?_of_mem {l : Layer} (hl : l ∈ s.layers) : s.tree? l.name = some l.tree := by
  unfold tree?
  rw [hs.layer?_of_mem hl]
  rfl

/-- A value or an array in the merged view is that of the last layer that covers the path. -/
theorem Consistent.get?_merged_eq_some_iff {ks : List String} {u : Tree} (hu : u.isMap = false) :
    s.merged.get? (Path.ofKeys ks) = some u ↔
      ∃ low l high, s.layers = low ++ l :: high ∧ l.tree.get? (Path.ofKeys ks) = some u ∧
        ∀ m ∈ high, ¬ m.tree.Covers (Path.ofKeys ks) := by
  have hd : ∀ t ∈ s.layers.map Layer.tree, t.Distinct := by
    intro t ht
    obtain ⟨l, hl, rfl⟩ := List.mem_map.mp ht
    exact hs.distinct l hl
  rw [hs.merged_eq, Tree.get?_mergeAll_eq_some_iff hd hu]
  constructor
  · rintro ⟨lows, t, highs, hsplit, ht, hhigh⟩
    obtain ⟨low, rest, hlayers, rfl, hrest⟩ := List.map_eq_append_iff.mp hsplit
    obtain ⟨l, high, rfl, rfl, rfl⟩ := List.map_eq_cons_iff.mp hrest
    exact ⟨low, l, high, hlayers, ht, fun m hm => hhigh m.tree (List.mem_map_of_mem hm)⟩
  · rintro ⟨low, l, high, hlayers, hl, hhigh⟩
    refine ⟨low.map Layer.tree, l.tree, high.map Layer.tree, by simp [hlayers], hl, ?_⟩
    intro t ht
    obtain ⟨m, hm, rfl⟩ := List.mem_map.mp ht
    exact hhigh m hm

end Names

/-! ## Top theorem (proved from the lemmas above) -/

/-- Layers of trees that name no key twice in a map: a value or an array that no layer above covers
is what the merged view shows, and all values and arrays that it shows are those of the last layer
with a node at the path. -/
theorem get?_merged_run {as : List Action} (h : ∀ l, .register l ∈ as → l.tree.Distinct)
    (ks : List String) :
    let s := run as
    let p := Path.ofKeys ks
    (∀ low name high t u, s.names = low ++ name :: high → s.tree? name = some t →
      t.get? p = some u → u.isMap = false →
      (∀ n ∈ high, ∀ m, s.tree? n = some m → ¬ m.Covers p) → s.merged.get? p = t.get? p) ∧
    ∀ u, s.merged.get? p = some u → u.isMap = false →
      ∃ low name high t, s.names = low ++ name :: high ∧ s.tree? name = some t ∧
        t.get? p = some u ∧ ∀ n ∈ high, ∀ m, s.tree? n = some m → m.get? p = none := by
  intro s p
  have hs : s.Consistent := consistent_run h
  constructor
  · intro low name high t u hnames ht hu hmap hhigh
    obtain ⟨lows, l, highs, hlayers, -, rfl, rfl⟩ := exists_layers_of_names hnames
    have hl : l ∈ s.layers := by simp [hlayers]
    obtain rfl : l.tree = t := Option.some.inj ((hs.tree?_of_mem hl).symm.trans ht)
    rw [hu, hs.get?_merged_eq_some_iff hmap]
    refine ⟨lows, l, highs, hlayers, hu, ?_⟩
    intro m hm
    have hm' : m ∈ s.layers := by simp [hlayers, hm]
    exact hhigh m.name (List.mem_map_of_mem hm) m.tree (hs.tree?_of_mem hm')
  · intro u hu hmap
    obtain ⟨low, l, high, hlayers, hl, hhigh⟩ := (hs.get?_merged_eq_some_iff hmap).mp hu
    refine ⟨low.map Layer.name, l.name, high.map Layer.name, l.tree, ?_, ?_, hl, ?_⟩
    · simp [names, hlayers]
    · exact hs.tree?_of_mem (by simp [hlayers])
    · intro n hn m hm
      obtain ⟨k, hk, rfl⟩ := List.mem_map.mp hn
      have hk' : k ∈ s.layers := by simp [hlayers, hk]
      obtain rfl : k.tree = m := Option.some.inj ((hs.tree?_of_mem hk').symm.trans hm)
      exact Tree.get?_eq_none_of_not_covers (hhigh k hk)

/-- A value over a map, and a map over both: what the map on top adds is read from it. -/
theorem get?_merged_run_conflict :
    let low : Layer := ⟨"low", .map [("a", .map [("b", .value "1")])], 0⟩
    let mid : Layer := ⟨"mid", .map [("a", .value "x")], 1⟩
    let top : Layer := ⟨"top", .map [("a", .map [("c", .value "2")])], 2⟩
    let as : List Action := [.register top, .register low, .register mid]
    (∀ l, .register l ∈ as → l.tree.Distinct) ∧ (run as).names = ["low", "mid", "top"] ∧
      (run as).merged.get? (Path.ofKeys ["a", "c"]) = some (.value "2") := by
  intro low mid top as
  have hd : ∀ l, .register l ∈ as → l.tree.Distinct := by
    intro l hl
    simp only [as, List.mem_cons, Action.register.injEq, List.not_mem_nil, or_false] at hl
    rcases hl with rfl | rfl | rfl <;>
      simp [low, mid, top, Tree.Distinct, Tree.DistinctEntries, Assoc.keys]
  have hnames : (run as).names = ["low", "mid", "top"] := rfl
  exact ⟨hd, hnames, (get?_merged_run hd ["a", "c"]).1 ["low", "mid"] "top" [] top.tree (.value "2")
    hnames rfl rfl rfl (by simp)⟩

end LayerStack

end LayeredConfig
