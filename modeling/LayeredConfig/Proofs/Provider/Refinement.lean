import LayeredConfig.Provider
import LayeredConfig.Proofs.LayerStack.History

/-!
# The hash table behind the layers

`LayerStack` keeps its layers in merge order; the provider keeps a table in any order and sorts it
by priority and sequence number after each change.  The two answer alike: whatever calls were made
and however the table listed its entries after each of them,

    fewer calls than sequence numbers → the sorted table is the stack, layer by layer    (ordered_run)

A table `Represents` the calls made so far: its entries are the layers of the stack, and of two
entries the one with the smaller sequence number was registered earlier.  Each call keeps this
(`Represents.register`, `Represents.unregister`).  Sorted entries then lie below each other as the
layers of a run do, and only one list of those layers does (`LayerStack.eq_layers_run`).
-/

namespace LayeredConfig

namespace Provider

open LayerStack (Action age Below)

/-- The source as a layer. -/
def layer (e : String × Registration) : Layer := ⟨e.1, e.2.tree, e.2.priority⟩

/-- One call, with the order in which the table lists its entries afterwards. -/
def act (p : Provider) (listing : Listing) : Action → Provider × Option Tree
  | .register l => p.register listing l
  | .unregister name => p.unregister listing name

/-- The provider after calls on an empty one. -/
def run (cs : List (Listing × Action)) : Provider := cs.foldl (fun p c => (p.act c.1 c.2).1) {}

/-- The table holds what the calls left, under sequence numbers that ascend with the time of the
registration. -/
structure Represents (as : List Action) (p : Provider) : Prop where
  perm : (p.sources.map layer).Perm (LayerStack.run as).layers
  older : ∀ e ∈ p.sources, ∀ f ∈ p.sources, e.2.sequence ≤ f.2.sequence →
    e = f ∨ age as f.1 < age as e.1
  taken : ∀ e ∈ p.sources, e.2.sequence < p.nextSequence
  counted : p.nextSequence.toNat ≤ as.length
  merged_eq : p.merged = Tree.mergeAll (p.ordered.map fun e => e.2.tree)

/-! ## Lemmas -/

theorem perm_ordered (p : Provider) : p.ordered.Perm p.sources := List.mergeSort_perm _ _

/-! ### Sequence numbers -/

theorem before_trans (r q t : Registration) (hrq : r.before q) (hqt : q.before t) :
    r.before t := by
  simp only [Registration.before, Bool.or_eq_true, Bool.and_eq_true, decide_eq_true_eq] at *
  rcases hrq with hrq | ⟨heq, hrq⟩
  · rcases hqt with hqt | ⟨heq', -⟩
    · exact .inl (Int32.lt_trans hrq hqt)
    · exact .inl (heq' ▸ hrq)
  · rcases hqt with hqt | ⟨heq', hqt⟩
    · exact .inl (heq ▸ hqt)
    · exact .inr ⟨heq.trans heq', UInt64.le_trans hrq hqt⟩

theorem before_total (r q : Registration) : (r.before q || q.before r) = true := by
  simp only [Registration.before, Bool.or_eq_true, Bool.and_eq_true, decide_eq_true_eq]
  by_cases heq : r.priority = q.priority
  · rcases UInt64.le_total r.sequence q.sequence with h | h
    · exact .inl (.inr ⟨heq, h⟩)
    · exact .inr (.inr ⟨heq.symm, h⟩)
  · rcases Int32.le_total r.priority q.priority with h | h
    · exact .inl (.inl (Int32.lt_of_le_of_ne h heq))
    · exact .inr (.inl (Int32.lt_of_le_of_ne h (Ne.symm heq)))

theorem ascending_ordered (p : Provider) : p.ordered.Pairwise fun e f => e.2.before f.2 := by
  unfold ordered
  apply List.pairwise_mergeSort
  · exact fun e f g => before_trans e.2 f.2 g.2
  · exact fun e f => before_total e.2 f.2

/-! ### Entries and layers -/

section Table

variable {as : List Action} {p : Provider} (h : Represents as p)

include h

theorem Represents.nodup_names : (Assoc.keys p.sources).Nodup := by
  have hnames : ((p.sources.map layer).map Layer.name).Nodup :=
    (h.perm.map Layer.name).nodup_iff.mpr (LayerStack.nodup_names_run as)
  rwa [List.map_map] at hnames

/-- Sorted by priority and sequence number, the entries are the layers in their order. -/
theorem Represents.ordered_eq : p.ordered.map layer = (LayerStack.run as).layers := by
  apply LayerStack.eq_layers_run
  · exact ((perm_ordered p).map layer).trans h.perm
  · have hnodup : p.ordered.Nodup :=
      (perm_ordered p).nodup_iff.mpr (List.Nodup.of_map _ h.nodup_names)
    rw [List.pairwise_map]
    refine List.Pairwise.imp_of_mem ?_ ((ascending_ordered p).and hnodup)
    rintro e f he hf ⟨hbefore, hne⟩
    simp only [Registration.before, Bool.or_eq_true, Bool.and_eq_true,
      decide_eq_true_eq] at hbefore
    refine hbefore.imp_right fun ⟨hpri, hseq⟩ => ⟨hpri, ?_⟩
    have hold := h.older e ((perm_ordered p).mem_iff.mp he) f ((perm_ordered p).mem_iff.mp hf) hseq
    exact hold.resolve_left hne

theorem Represents.merged : p.merged = (LayerStack.run as).merged := by
  have htrees : p.ordered.map (fun e => e.2.tree) = (p.ordered.map layer).map Layer.tree := by
    rw [List.map_map]
    rfl
  rw [h.merged_eq, htrees, h.ordered_eq, LayerStack.run_eq_ofLayers as]
  rfl

/-- What is found under a name in the table is the layer of that name. -/
theorem Represents.layer?_eq (name : String) :
    (LayerStack.run as).layer? name = (p.source? name).map fun r => layer (name, r) := by
  unfold source?
  cases hr : Assoc.get? name p.sources with
  | some r =>
    have hmem : layer (name, r) ∈ (LayerStack.run as).layers :=
      h.perm.mem_iff.mp (List.mem_map_of_mem (Assoc.mem_of_get? hr))
    exact (LayerStack.mem_layers_iff (LayerStack.nodup_names_run as)).mp hmem
  | none =>
    have hnot := (Assoc.get?_eq_none_iff name p.sources).mp hr
    unfold LayerStack.layer?
    rw [Option.map_none, List.find?_eq_none]
    intro l hl hname
    obtain ⟨e, he, rfl⟩ := List.mem_map.mp (h.perm.mem_iff.mpr hl)
    exact hnot (of_decide_eq_true hname ▸ List.mem_map_of_mem he)

theorem Represents.tree?_eq (name : String) : p.tree? name = (LayerStack.run as).tree? name := by
  rw [LayerStack.tree?, h.layer?_eq, Option.map_map]
  rfl

theorem Represents.priority?_eq (name : String) :
    p.priority? name = (LayerStack.run as).priority? name := by
  rw [LayerStack.priority?, h.layer?_eq, Option.map_map]
  rfl

end Table

/-! ### One call -/

theorem map_layer_filter (name : String) (es : List (String × Registration)) :
    (es.filter fun e => e.1 ≠ name).map layer = (es.map layer).filter fun l => l.name ≠ name := by
  rw [List.filter_map]
  rfl

theorem represents_empty : Represents [] {} where
  perm := List.Perm.refl _
  older := by simp
  taken := by simp
  counted := Nat.le_refl _
  merged_eq := by simp [ordered, Tree.mergeAll]

/-- Entries that a call leaves in the table were registered in the same order after it. -/
theorem Represents.older_append {as : List Action} {p : Provider} (h : Represents as p)
    {a : Action} {e f : String × Registration} (he : e ∈ p.sources) (hf : f ∈ p.sources)
    (hae : a.registers e.1 = false) (haf : a.registers f.1 = false)
    (hseq : e.2.sequence ≤ f.2.sequence) :
    e = f ∨ age (as ++ [a]) f.1 < age (as ++ [a]) e.1 := by
  rw [LayerStack.age_append hae, LayerStack.age_append haf]
  exact (h.older e he f hf hseq).imp_right Nat.succ_lt_succ

/-- While there is room, the sequence numbers do not start again at zero. -/
theorem Represents.nextSequence_succ {as : List Action} {p : Provider} (h : Represents as p)
    (hroom : as.length + 1 < UInt64.size) :
    (p.nextSequence + 1).toNat = p.nextSequence.toNat + 1 := by
  have hlt : p.nextSequence.toNat + 1 < UInt64.size :=
    Nat.lt_of_le_of_lt (Nat.succ_le_succ h.counted) hroom
  rw [UInt64.toNat_add]
  exact Nat.mod_eq_of_lt hlt

theorem Represents.register {as : List Action} {p : Provider} (h : Represents as p)
    (hroom : as.length + 1 < UInt64.size) (listing : Listing) (l : Layer) :
    Represents (as ++ [.register l]) (p.register listing l).1 := by
  let r : Registration := ⟨l.tree, l.priority, p.nextSequence⟩
  have hperm : (p.register listing l).1.sources.Perm
      ((l.name, r) :: p.sources.filter fun e => e.1 ≠ l.name) :=
    (listing.perm _).trans (Assoc.perm_insert h.nodup_names l.name r)
  have hnext := h.nextSequence_succ hroom
  have hkept : ∀ e ∈ p.sources.filter (fun e => e.1 ≠ l.name),
      e ∈ p.sources ∧ (Action.register l).registers e.1 = false := by
    intro e he
    obtain ⟨he, hne⟩ := List.mem_filter.mp he
    exact ⟨he, decide_eq_false fun hname => of_decide_eq_true hne hname.symm⟩
  constructor
  case perm =>
    refine (hperm.map layer).trans ?_
    rw [LayerStack.run_append, List.map_cons, map_layer_filter]
    exact ((h.perm.filter _).cons l).trans (LayerStack.perm_place l _).symm
  case older =>
    intro e he f hf hseq
    rcases List.mem_cons.mp (hperm.mem_iff.mp he) with rfl | he
    · rcases List.mem_cons.mp (hperm.mem_iff.mp hf) with rfl | hf
      · exact .inl rfl
      · exact absurd (h.taken f (hkept f hf).1) (UInt64.not_lt.mpr hseq)
    · rcases List.mem_cons.mp (hperm.mem_iff.mp hf) with rfl | hf
      · refine .inr ?_
        rw [LayerStack.age_register_self, LayerStack.age_append (hkept e he).2]
        exact Nat.succ_pos _
      · exact h.older_append (hkept e he).1 (hkept f hf).1 (hkept e he).2 (hkept f hf).2 hseq
  case taken =>
    intro e he
    have hlt : p.nextSequence < p.nextSequence + 1 :=
      UInt64.lt_iff_toNat_lt.mpr (hnext ▸ Nat.lt_succ_self _)
    rcases List.mem_cons.mp (hperm.mem_iff.mp he) with rfl | he
    · exact hlt
    · exact UInt64.lt_trans (h.taken e (hkept e he).1) hlt
  case counted =>
    show (p.nextSequence + 1).toNat ≤ _
    rw [hnext, List.length_append]
    exact Nat.succ_le_succ h.counted
  case merged_eq => rfl

theorem layers_run_unregister (as : List Action) (name : String) :
    (LayerStack.run (as ++ [.unregister name])).layers =
      if ((LayerStack.run as).tree? name).isSome then
        (LayerStack.run as).layers.filter fun l => l.name ≠ name
      else (LayerStack.run as).layers := by
  rw [LayerStack.run_append, LayerStack.tree?, Option.isSome_map]
  show ((LayerStack.run as).unregister name).layers = _
  unfold LayerStack.unregister
  split <;> rfl

theorem Represents.unregister {as : List Action} {p : Provider} (h : Represents as p)
    (listing : Listing) (name : String) :
    Represents (as ++ [.unregister name]) (p.unregister listing name).1 := by
  have hcounted : p.nextSequence.toNat ≤ (as ++ [Action.unregister name]).length := by
    rw [List.length_append]
    exact Nat.le_succ_of_le h.counted
  have hlayers := layers_run_unregister as name
  rw [← h.tree?_eq name] at hlayers
  unfold Provider.unregister
  cases ht : p.tree? name with
  | none =>
    rw [ht, Option.isSome_none, if_neg Bool.false_ne_true] at hlayers
    exact {
      perm := hlayers ▸ h.perm
      older := fun e he f hf => h.older_append he hf rfl rfl
      taken := h.taken
      counted := hcounted
      merged_eq := h.merged_eq }
  | some t =>
    rw [ht, Option.isSome_some, if_pos rfl] at hlayers
    have hperm : (listing.list (Assoc.erase name p.sources)).Perm
        (p.sources.filter fun e => e.1 ≠ name) :=
      Assoc.erase_eq_filter h.nodup_names name ▸ listing.perm _
    have hkept : ∀ e ∈ listing.list (Assoc.erase name p.sources), e ∈ p.sources :=
      fun e he => List.mem_of_mem_filter (hperm.mem_iff.mp he)
    exact {
      perm := by
        rw [hlayers]
        exact (hperm.map layer).trans (map_layer_filter name p.sources ▸ h.perm.filter _)
      older := fun e he f hf => h.older_append (hkept e he) (hkept f hf) rfl rfl
      taken := fun e he => h.taken e (hkept e he)
      counted := hcounted
      merged_eq := rfl }

/-! ### A run -/

theorem represents_run (cs : List (Listing × Action)) (hroom : cs.length < UInt64.size) :
    Represents (cs.map Prod.snd) (run cs) := by
  induction cs using List.reverseRecOn with
  | nil => exact represents_empty
  | append_singleton cs c ih =>
    obtain ⟨listing, a⟩ := c
    rw [List.length_append] at hroom
    have h := ih (Nat.lt_of_succ_lt hroom)
    unfold run at h ⊢
    rw [List.foldl_append, List.map_append]
    cases a with
    | register l => exact h.register (by rwa [List.length_map]) listing l
    | unregister name => exact h.unregister listing name

/-! ## Top theorem (proved from the lemmas above) -/

/-- Whatever was called, and in whatever order the table listed its entries after each call: while
the sequence numbers last, sorting the table gives the layers of the stack, and a provider answers
every question as the stack does. -/
theorem ordered_run (cs : List (Listing × Action)) (hroom : cs.length < UInt64.size) :
    let p := run cs
    let s := LayerStack.run (cs.map Prod.snd)
    p.ordered.map layer = s.layers ∧ p.names = s.names ∧ p.size = s.size ∧
      p.merged = s.merged ∧
      (∀ name, p.tree? name = s.tree? name ∧ p.priority? name = s.priority? name ∧
        p.contains name = (s.layer? name).isSome) ∧
      (∀ listing l, (p.register listing l).2 = s.tree? l.name) ∧
      ∀ listing name, (p.unregister listing name).2 = s.tree? name := by
  intro p s
  have h : Represents (cs.map Prod.snd) p := represents_run cs hroom
  have hlayers : p.ordered.map layer = s.layers := h.ordered_eq
  refine ⟨hlayers, ?_, ?_, h.merged, fun name => ⟨h.tree?_eq name, h.priority?_eq name, ?_⟩,
    fun _ l => h.tree?_eq l.name, ?_⟩
  · unfold names LayerStack.names
    rw [← hlayers, List.map_map]
    rfl
  · unfold size LayerStack.size
    rw [← h.perm.length_eq, List.length_map]
  · unfold contains
    rw [h.layer?_eq, Option.isSome_map]
  · intro listing name
    rw [← h.tree?_eq name]
    unfold Provider.unregister
    cases p.tree? name <;> rfl

end Provider

end LayeredConfig
