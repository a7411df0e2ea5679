import LayeredConfig.Proofs.Assoc.Sorted
import LayeredConfig.Proofs.Environment.Names
import LayeredConfig.Proofs.Tree.KeyPaths
import LayeredConfig.Proofs.Tree.Leaves

/-!
# The tree of the variables of a name

The tree of a name stores the texts of its variables in the order of their names.  In that order a
variable comes before those whose paths lie below its own, so it gives way to them and never takes
their place:

    the texts of the tree   those of the variables with no other one below           (mem_leaves_tree)
    every other node        a map with entries

The tree depends on nothing but the set of the variables that denote a path (`tree_eq_of_denoting`).
-/

namespace LayeredConfig.Environment

/-- The texts of the variables that denote a path, in the order of their names. -/
def entries (name : String) (vars : List (String × String)) : List (Path × String) :=
  (Assoc.ordered compare vars).filterMap fun v => (denoted? name v.1).map (·, v.2)

/-- The variables that denote a path. -/
def denoting (name : String) (vars : List (String × String)) : List (String × String) :=
  vars.filter fun v => (denoted? name v.1).isSome

/-! ## Lemmas -/

variable {name : String} {vars vars' : List (String × String)} {p : Path} {s : String}

theorem tree_eq_storeAll (hnames : (Assoc.keys vars).Nodup) :
    tree name vars = Tree.storeAll (entries name vars) .empty := by
  have hselected : selected name vars = (Assoc.ordered compare vars).filter
      fun v => (strip? (marker name) v.1.toList).isSome := Assoc.ordered_filter hnames _
  rw [tree, hselected, List.foldl_filter, Tree.storeAll, entries, List.foldl_filterMap]
  refine List.foldl_ext _ _ _ fun t v _ => ?_
  -- a name without the marker denotes nothing, so it need not be filtered out
  cases hstrip : strip? (marker name) v.1.toList with
  | none => simp [denoted?, hstrip]
  | some rest =>
    rw [denoted?, hstrip, if_pos (Option.isSome_some : (some rest).isSome = true),
      Option.bind_some]
    cases path? rest <;> rfl

theorem nodup_keys_denoting (name : String) (hnames : (Assoc.keys vars).Nodup) :
    (Assoc.keys (denoting name vars)).Nodup :=
  hnames.sublist (List.filter_sublist.map Prod.fst)

theorem entries_denoting (hnames : (Assoc.keys vars).Nodup) :
    entries name (denoting name vars) = entries name vars := by
  rw [entries, denoting, Assoc.ordered_filter hnames, List.filterMap_filter, entries]
  refine List.filterMap_congr fun v _ => ?_
  cases hv : denoted? name v.1 with
  | none => rfl
  | some p => rw [if_pos (Option.isSome_some : (some p).isSome = true)]

theorem mem_denoting_iff (hplain : ∀ v ∈ vars, PlainName v.1) {v : String × String} :
    v ∈ denoting name vars ↔ v ∈ vars ∧ ∃ p, Denotes name v.1 p := by
  rw [denoting, List.mem_filter]
  refine and_congr_right fun hv => ?_
  rw [Option.isSome_iff_exists]
  exact exists_congr fun p => denoted?_eq_some_iff (hplain v hv)

section PlainNames

variable (hplain : ∀ v ∈ vars, PlainName v.1) (hnames : (Assoc.keys vars).Nodup)

include hplain hnames

theorem mem_entries_iff :
    (p, s) ∈ entries name vars ↔ ∃ v ∈ vars, Denotes name v.1 p ∧ v.2 = s := by
  have hperm : (Assoc.ordered compare vars).Perm vars := Assoc.ordered_perm hnames
  rw [entries, List.mem_filterMap]
  constructor
  · rintro ⟨v, hv, hdenoted⟩
    rw [hperm.mem_iff] at hv
    obtain ⟨q, hq, heq⟩ := Option.map_eq_some_iff.mp hdenoted
    obtain ⟨rfl, rfl⟩ := Prod.mk.inj heq
    exact ⟨v, hv, (denoted?_eq_some_iff (hplain v hv)).mp hq, rfl⟩
  · rintro ⟨v, hv, hdenotes, rfl⟩
    refine ⟨v, hperm.mem_iff.mpr hv, ?_⟩
    rw [(denoted?_eq_some_iff (hplain v hv)).mpr hdenotes, Option.map_some]

/-- No text is stored at a path that leads to an earlier one. -/
theorem pairwise_entries :
    (entries name vars).Pairwise fun l m => ¬ m.1 <+: l.1 := by
  have hperm : (Assoc.ordered compare vars).Perm vars := Assoc.ordered_perm hnames
  rw [entries, List.pairwise_filterMap]
  refine (Assoc.pairwise_ordered vars).imp_of_mem ?_
  intro v w hv hw hlt l hl m hm hprefix
  obtain ⟨q, hq, rfl⟩ := Option.map_eq_some_iff.mp hl
  obtain ⟨r, hr, rfl⟩ := Option.map_eq_some_iff.mp hm
  have hv := hplain v (hperm.mem_iff.mp hv)
  have hw := hplain w (hperm.mem_iff.mp hw)
  exact Denotes.not_lt ((denoted?_eq_some_iff hw).mp hr) ((denoted?_eq_some_iff hv).mp hq)
    hw hv hprefix hlt

theorem holds_tree (name : String) :
    (tree name vars).Holds (entries name vars) ∧ (tree name vars).Distinct := by
  have hne : ∀ l ∈ entries name vars, l.1 ≠ [] := by
    intro l hl
    obtain ⟨v, -, hdenotes, -⟩ := (mem_entries_iff hplain hnames).mp hl
    exact hdenotes.ne_nil
  have hkeys : ∀ l ∈ entries name vars, ∀ s ∈ l.1, s.isKey = true := by
    intro l hl
    obtain ⟨v, -, hdenotes, -⟩ := (mem_entries_iff hplain hnames).mp hl
    exact hdenotes.isKey
  rw [tree_eq_storeAll hnames]
  refine ⟨Tree.holds_storeAll hne hkeys (pairwise_entries hplain hnames), ?_⟩
  exact Tree.distinct_storeAll hne (by decide)

theorem furthest_iff :
    Tree.Furthest (entries name vars) (p, s) ↔ ∃ v ∈ vars, Denotes name v.1 p ∧ v.2 = s ∧
      ∀ w ∈ vars, ∀ q, Denotes name w.1 q → p <+: q → q = p := by
  rw [Tree.Furthest, mem_entries_iff hplain hnames]
  constructor
  · rintro ⟨⟨v, hv, hdenotes, htext⟩, hfurthest⟩
    refine ⟨v, hv, hdenotes, htext, ?_⟩
    intro w hw q hq hpq
    exact hfurthest (q, w.2) ((mem_entries_iff hplain hnames).mpr ⟨w, hw, hq, rfl⟩) hpq
  · rintro ⟨v, hv, hdenotes, htext, hfurthest⟩
    refine ⟨⟨v, hv, hdenotes, htext⟩, ?_⟩
    rintro ⟨q, u⟩ hl hpq
    obtain ⟨w, hw, hq, -⟩ := (mem_entries_iff hplain hnames).mp hl
    exact hfurthest w hw q hq hpq

/-- The variables that denote nothing and the order of the others do not matter. -/
theorem tree_eq_of_denoting (hplain' : ∀ v ∈ vars', PlainName v.1)
    (hnames' : (Assoc.keys vars').Nodup)
    (h : ∀ v p, Denotes name v.1 p → (v ∈ vars' ↔ v ∈ vars)) :
    tree name vars' = tree name vars := by
  have hmem : ∀ v, v ∈ denoting name vars' ↔ v ∈ denoting name vars := by
    intro v
    rw [mem_denoting_iff hplain', mem_denoting_iff hplain]
    exact and_congr_left fun ⟨p, hp⟩ => h v p hp
  have hkeys := nodup_keys_denoting name hnames
  have hkeys' := nodup_keys_denoting name hnames'
  have hperm : (denoting name vars').Perm (denoting name vars) :=
    (List.perm_ext_iff_of_nodup (hkeys'.of_map _) (hkeys.of_map _)).mpr hmem
  rw [tree_eq_storeAll hnames', tree_eq_storeAll hnames, ← entries_denoting hnames',
    ← entries_denoting hnames, entries, entries, Assoc.ordered_eq_of_perm hkeys' hperm]

end PlainNames

/-! ## Top theorem (proved from the lemmas above) -/

/-- The tree of the variables of a name, when the names of the variables are plain and differ: which
texts it has and where, and what its other nodes are; a variable that denotes a path is stored
whatever the tree was, at a path of its own; all other variables, and the order in which the
variables are listed, do not matter. -/
theorem tree_of_variables (name : String) (vars : List (String × String))
    (hplain : ∀ v ∈ vars, PlainName v.1) (hnames : (Assoc.keys vars).Nodup) :
    (∀ p s, (p, s) ∈ (tree name vars).leaves ↔ ∃ v ∈ vars, Denotes name v.1 p ∧ v.2 = s ∧
      ∀ w ∈ vars, ∀ q, Denotes name w.1 q → p <+: q → q = p) ∧
    (tree name vars).isMap = true ∧
    (∀ p t, p ≠ [] → (tree name vars).get? p = some t →
      (∃ s, t = .value s) ∨ (t.isMap = true ∧ t.isEmptyMap = false)) ∧
    (∀ v ∈ vars, ∀ p, Denotes name v.1 p → ∀ t, (Tree.set (.value v.2) p t).2 = .ok ()) ∧
    (∀ v ∈ vars, ∀ w ∈ vars, ∀ p, Denotes name v.1 p → Denotes name w.1 p → v = w) ∧
    (∀ vars' : List (String × String), (∀ v ∈ vars', PlainName v.1) → (Assoc.keys vars').Nodup →
      (∀ v p, Denotes name v.1 p → (v ∈ vars' ↔ v ∈ vars)) →
      tree name vars' = tree name vars) ∧
    (∀ vars' : List (String × String), vars'.Perm vars → tree name vars' = tree name vars) := by
  obtain ⟨hholds, hdistinct⟩ := holds_tree hplain hnames name
  refine ⟨?_, hholds.isMap, ?_, ?_, ?_, ?_, ?_⟩
  · intro p s
    rw [Tree.mem_leaves_iff hdistinct, hholds.get?_eq_some_iff, furthest_iff hplain hnames]
  · intro p t hp ht
    rcases hholds.node p t hp ht with hfilled | ⟨l, -, -, htext⟩
    · exact .inr hfilled
    · exact .inl ⟨l.2, htext⟩
  · intro v _ p hdenotes t
    exact Tree.set_of_keys _ t hdenotes.ne_nil hdenotes.isKey
  · intro v hv w hw p hvp hwp
    have hname : v.1 = w.1 := hvp.eq_of_path hwp (hplain v hv) (hplain w hw)
    exact List.inj_on_of_nodup_map hnames hv hw hname
  · intro vars' hplain' hnames' h
    exact tree_eq_of_denoting hplain hnames hplain' hnames' h
  · intro vars' hperm
    refine tree_eq_of_denoting hplain hnames (fun v hv => hplain v (hperm.mem_iff.mp hv))
      ((hperm.map Prod.fst).nodup_iff.mpr hnames) fun v p _ => hperm.mem_iff

/-- A variable that another one lies below, a run of three underscores, an empty piece, and names
that do not start with the marker. -/
theorem tree_of_variables_overlapping :
    let vars := [("SEED__A___B", "3"), ("SEED____X", "4"), ("SEED__A__B", "2"), ("OTHER", "5"),
      ("SEED__A", "1"), ("SEED_A__C", "6")]
    (∀ v ∈ vars, PlainName v.1) ∧ (Assoc.keys vars).Nodup ∧
      (tree "seed" vars).leaves = [([.key "a", .key "b"], "2"), ([.key "a", .key "_b"], "3")] ∧
      (∃ v ∈ vars, Denotes "seed" v.1 [.key "a", .key "_b"] ∧ v.2 = "3") ∧
      tree "seed" vars.reverse = tree "seed" vars := by
  intro vars
  have hplain : ∀ v ∈ vars, PlainName v.1 := by decide
  have hnames : (Assoc.keys vars).Nodup := by decide
  have hleaves : (tree "seed" vars).leaves =
      [([.key "a", .key "b"], "2"), ([.key "a", .key "_b"], "3")] := by decide +kernel
  obtain ⟨hmem, -, -, -, -, -, hperm⟩ := tree_of_variables "seed" vars hplain hnames
  refine ⟨hplain, hnames, hleaves, ?_, hperm _ vars.reverse_perm⟩
  obtain ⟨v, hv, hdenotes, htext, -⟩ := (hmem [.key "a", .key "_b"] "3").mp (hleaves ▸ by simp)
  exact ⟨v, hv, hdenotes, htext⟩

end LayeredConfig.Environment
