import LayeredConfig.Proofs.LayerStack.History

/-!
# A tree laid over what shows it already

One tree shows another when it has all that the other has: at every path of keys the same tree, or a
map where the other has a map (`Tree.Shows`).  What was laid on top of a tree is shown afterwards,
and a tree that is shown already can be laid on without a trace:

    (a.merge b).Shows b                                                       (shows_merge)
    t.merge b = t ↔ t.Shows b                                                 (merge_eq_self_iff)

Merging is not associative: a value between two maps hides the lower one, unless the upper one was
laid over the value first.  So a fold of trees cannot be regrouped, but its last tree may come twice
(`mergeAll_append_self`), and with it the layer on top of a stack (`merged_register_again`).
-/

namespace LayeredConfig

namespace Tree

/-- At every path of keys at which the upper tree has a node, this tree has the same node, or both
have a map. -/
def Shows (t upper : Tree) : Prop :=
  ∀ ks u, upper.get? (Path.ofKeys ks) = some u →
    ∃ v, t.get? (Path.ofKeys ks) = some v ∧ (v = u ∨ v.isMap = true ∧ u.isMap = true)

/-! ## Lemmas -/

variable {a b t : Tree} {es fs : List (String × Tree)}

theorem shows_merge (hb : b.Distinct) (a : Tree) : (a.merge b).Shows b := by
  intro ks u hu
  refine ⟨_, get?_merge_of_some hb a hu, ?_⟩
  cases hmap : u.isMap with
  | true => exact .inr ⟨isMap_mergeOnto _ hmap, rfl⟩
  | false => exact .inl (mergeOnto_of_not_isMap _ hmap)

theorem Shows.root (h : t.Shows b) : t = b ∨ t.isMap = true ∧ b.isMap = true := by
  obtain ⟨v, hv, hroot⟩ := h [] b rfl
  obtain rfl := Option.some.inj hv
  exact hroot

theorem Shows.child (h : (map es).Shows (map fs)) {k : String} {u : Tree}
    (hu : Assoc.get? k fs = some u) : ∃ v, Assoc.get? k es = some v ∧ v.Shows u := by
  have hbelow : ∀ ks w, u.get? (Path.ofKeys ks) = some w →
      (map fs).get? (Path.ofKeys (k :: ks)) = some w := by
    intro ks w hw
    rw [get?_ofKeys_cons, show (map fs).child? (.key k) = some u from hu]
    exact hw
  obtain ⟨w, hw, -⟩ := h [k] u (hbelow [] u rfl)
  obtain ⟨v, hv, -⟩ := Option.bind_eq_some_iff.mp hw
  refine ⟨v, hv, fun ks u' hu' => ?_⟩
  obtain ⟨w', hw', hsame⟩ := h (k :: ks) u' (hbelow ks u' hu')
  rw [get?_ofKeys_cons, hv] at hw'
  exact ⟨w', hw', hsame⟩

/-- Entries whose trees change nothing where they are laid change no entry, and no place of one. -/
theorem mergeEntries_eq_self
    (h : ∀ f ∈ fs, ∃ v, Assoc.get? f.1 es = some v ∧ v.merge f.2 = v) :
    mergeEntries es fs = es := by
  induction fs with
  | nil => rfl
  | cons f fs ih =>
    obtain ⟨⟨v, hv, hmerge⟩, hrest⟩ := List.forall_mem_cons.mp h
    have hinsert : Assoc.insert f.1 (mergeOnto (some v) f.2) es = es := by
      rw [show mergeOnto (some v) f.2 = v from hmerge]
      exact Assoc.insert_of_get? hv
    rw [mergeEntries_cons, hv, hinsert]
    exact ih hrest

theorem merge_of_shows (hb : b.Distinct) (h : t.Shows b) : t.merge b = t := by
  induction b using Tree.induction generalizing t with
  | value s =>
    rcases h.root with rfl | ⟨-, hmap⟩
    · rfl
    · cases hmap
  | array us =>
    rcases h.root with rfl | ⟨-, hmap⟩
    · rfl
    · cases hmap
  | map fs ih =>
    have hmap : t.isMap = true := by
      rcases h.root with rfl | ⟨hmap, -⟩
      · rfl
      · exact hmap
    obtain ⟨es, rfl⟩ := eq_map_of_isMap hmap
    obtain ⟨hkeys, hdistinct⟩ := distinct_map_iff.mp hb
    rw [merge_map_map]
    congr 1
    refine mergeEntries_eq_self fun f hf => ?_
    obtain ⟨v, hv, hshows⟩ := h.child (Assoc.get?_of_mem hkeys hf)
    exact ⟨v, hv, ih f hf (hdistinct f hf) hshows⟩

/-- The trees over which a tree can be laid without a change are those that show it. -/
theorem merge_eq_self_iff (hb : b.Distinct) : t.merge b = t ↔ t.Shows b :=
  ⟨fun h => h ▸ shows_merge hb t, merge_of_shows hb⟩

theorem merge_merge_self (hb : b.Distinct) (a : Tree) : (a.merge b).merge b = a.merge b :=
  merge_of_shows hb (shows_merge hb a)

/-- New keys go behind the others, in their order. -/
theorem mergeEntries_eq_append (h : (Assoc.keys (es ++ fs)).Nodup) :
    mergeEntries es fs = es ++ fs := by
  induction fs generalizing es with
  | nil => exact (List.append_nil es).symm
  | cons f fs ih =>
    have hnew : f.1 ∉ Assoc.keys es := Assoc.not_mem_keys_of_nodup h
    have hfront : Assoc.insert f.1 (mergeOnto (Assoc.get? f.1 es) f.2) es = es ++ [f] := by
      rw [(Assoc.get?_eq_none_iff f.1 es).mpr hnew]
      exact Assoc.insert_of_not_mem f.2 hnew
    rw [mergeEntries_cons, hfront, ih (by simpa using h), List.append_assoc]
    rfl

theorem empty_merge (hb : b.Distinct) : empty.merge b = b := by
  cases b with
  | value s => rfl
  | array us => rfl
  | map fs => exact congrArg map (mergeEntries_eq_append hb.1)

theorem mergeAll_append_self (hb : b.Distinct) (ts : List Tree) :
    mergeAll (ts ++ [b] ++ [b]) = mergeAll (ts ++ [b]) := by
  rw [mergeAll_append, mergeAll_append, merge_merge_self hb]

end Tree

namespace LayerStack

variable {s : LayerStack} {l top : Layer} {low : List Layer}

/-- A layer that no other one outranks is put on top. -/
theorem layers_register_of_greatest (h : ∀ m ∈ s.others l.name, m.priority ≤ l.priority) :
    (s.register l).layers = s.others l.name ++ [l] := by
  show place l (s.others l.name) = _
  rw [← List.append_nil (s.others l.name), place_eq h (List.forall_mem_nil _), List.append_nil]

theorem others_of_fresh {name : String} (h : name ∉ s.names) : s.others name = s.layers := by
  refine List.filter_eq_self.mpr fun m hm => decide_eq_true fun hname => h ?_
  exact hname ▸ List.mem_map_of_mem hm

theorem others_top (hnd : s.names.Nodup) (h : s.layers = low ++ [top]) :
    s.others top.name = low := by
  rw [names, h, List.map_append, List.nodup_append] at hnd
  have hlow : ∀ m ∈ low, decide (m.name ≠ top.name) = true := fun m hm =>
    decide_eq_true (hnd.2.2 m.name (List.mem_map_of_mem hm) top.name List.mem_cons_self)
  rw [others, h, List.filter_append, List.filter_eq_self.mpr hlow]
  simp

theorem ascending_layers_run (as : List Action) :
    (run as).layers.Pairwise fun l m => l.priority ≤ m.priority := by
  refine (below_layers_run as).imp ?_
  rintro l m (hlt | ⟨heq, -⟩)
  · exact Int32.le_of_lt hlt
  · exact heq ▸ Int32.le_rfl

/-- The tree on top, registered again where nothing outranks it, in its own place or as a layer
above. -/
theorem merged_register_again (hs : s.Consistent)
    (hasc : s.layers.Pairwise fun l m => l.priority ≤ m.priority) (hlayers : s.layers = low ++ [top])
    (htree : l.tree = top.tree) (hpri : top.priority ≤ l.priority)
    (hname : l.name = top.name ∨ l.name ∉ s.names) : (s.register l).merged = s.merged := by
  have hgreatest : ∀ m ∈ s.layers, m.priority ≤ l.priority := by
    rw [hlayers, List.pairwise_append] at hasc
    intro m hm
    rw [hlayers, List.mem_append, List.mem_singleton] at hm
    rcases hm with hm | rfl
    · exact Int32.le_trans (hasc.2.2 m hm top List.mem_cons_self) hpri
    · exact hpri
  have htop : top.tree.Distinct := hs.distinct top (by simp [hlayers])
  have hlayers' := layers_register_of_greatest fun m hm => hgreatest m (mem_others.mp hm).1
  rw [merged_register, hlayers', hs.merged_eq]
  rcases hname with hname | hname
  · rw [hname, others_top hs.nodup_names hlayers, hlayers]
    simp [htree]
  · rw [others_of_fresh hname, hlayers]
    simp only [List.map_append, List.map_cons, List.map_nil, htree]
    exact Tree.mergeAll_append_self htop _

/-! ## Top theorem (proved from the lemmas above) -/

/-- A tree that names no key twice in a map counts once, however often it is laid on: over any tree,
as the last one of a fold, and as the layer on top of a stack.  The trees that it does not change are
those that show it, and over nothing it is itself. -/
theorem merging_absorbs :
    (∀ a b : Tree, b.Distinct → (a.merge b).merge b = a.merge b) ∧
    (∀ t b : Tree, b.Distinct → (t.merge b = t ↔ t.Shows b)) ∧
    (∀ b : Tree, b.Distinct → Tree.empty.merge b = b) ∧
    (∀ (ts : List Tree) (b : Tree), b.Distinct →
      Tree.mergeAll (ts ++ [b] ++ [b]) = Tree.mergeAll (ts ++ [b])) ∧
    ∀ as : List Action, (∀ l, .register l ∈ as → l.tree.Distinct) →
      ∀ top, (run as).layers.getLast? = some top →
        (run as).merged.merge top.tree = (run as).merged ∧
        ∀ l : Layer, l.tree = top.tree → top.priority ≤ l.priority →
          (l.name = top.name ∨ l.name ∉ (run as).names) →
          (run (as ++ [.register l])).merged = (run as).merged := by
  refine ⟨fun a b hb => Tree.merge_merge_self hb a, fun t b hb => Tree.merge_eq_self_iff hb,
    fun b hb => Tree.empty_merge hb, fun ts b hb => Tree.mergeAll_append_self hb ts, ?_⟩
  intro as has top htop
  have hs : (run as).Consistent := consistent_run has
  obtain ⟨low, hlayers⟩ := List.getLast?_eq_some_iff.mp htop
  constructor
  · have hdistinct : top.tree.Distinct := hs.distinct top (by simp [hlayers])
    rw [hs.merged_eq, hlayers, List.map_append, List.map_singleton, Tree.mergeAll_append]
    exact Tree.merge_merge_self hdistinct _
  · intro l htree hpri hname
    rw [run_append]
    exact merged_register_again hs (ascending_layers_run as) hlayers htree hpri hname

/-- A map in the place of a value, a map in the place of a value again, and keys in another order:
the layer on top comes a second time under a name of its own. -/
theorem merging_absorbs_conflict :
    let low : Layer := ⟨"low", .map [("x", .value "1"), ("y", .map [("k", .value "2")])], 0⟩
    let top : Layer := ⟨"top", .map [("y", .map [("j", .array [.value "3"]), ("k", .map [])]),
      ("x", .map [("z", .value "4")])], 5⟩
    let again : Layer := ⟨"again", top.tree, 5⟩
    let as : List Action := [.register top, .register low]
    let m : Tree := .map [("x", .map [("z", .value "4")]),
      ("y", .map [("k", .map []), ("j", .array [.value "3"])])]
    top.tree.Distinct ∧ low.tree.merge top.tree = m ∧ m.merge top.tree = m ∧ m.Shows top.tree ∧
      Tree.empty.merge top.tree = top.tree ∧
      Tree.mergeAll ([low.tree] ++ [top.tree] ++ [top.tree]) = m ∧
      (∀ l, .register l ∈ as → l.tree.Distinct) ∧ (run as).layers.getLast? = some top ∧
      (run (as ++ [.register again])).names = ["low", "top", "again"] ∧
      (run (as ++ [.register again])).merged = m := by
  intro low top again as m
  have htop : top.tree.Distinct := by decide
  have hm : low.tree.merge top.tree = m := rfl
  have has : ∀ l, .register l ∈ as → l.tree.Distinct := by
    intro l hl
    simp only [as, List.mem_cons, Action.register.injEq, List.not_mem_nil, or_false] at hl
    rcases hl with rfl | rfl
    · exact htop
    · decide
  have hlast : (run as).layers.getLast? = some top := rfl
  obtain ⟨htwice, hshows, hempty, hfold, hstack⟩ := merging_absorbs
  have hself : m.merge top.tree = m := htwice low.tree top.tree htop
  refine ⟨htop, hm, hself, (hshows m _ htop).mp hself, hempty _ htop, hfold _ _ htop, has, hlast,
    rfl, ?_⟩
  exact (hstack as has top hlast).2 again rfl Int32.le_rfl (.inr (by decide))

end LayerStack

end LayeredConfig
