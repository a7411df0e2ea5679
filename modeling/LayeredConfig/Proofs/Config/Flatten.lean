import LayeredConfig.Config
import LayeredConfig.Proofs.Assoc.Sorted
import LayeredConfig.Proofs.Path.Grammar
import LayeredConfig.Proofs.Tree.Leaves

/-!
# The flat view and lookup

Where every key can be named by an expression (`Tree.Addressable`), the paths of a map are
canonical, so that their display forms tell them apart and are read back.  The flat view then has
one entry for every value, under a name that leads to the value:

    t.flatten is t.leaves with the paths displayed, in order of the names    (flatten_perm)
    Assoc.get? p.display t.flatten = some s ↔ t.get? p = some (value s)      (get?_flatten_iff)

A key with a dot or a bracket would break this: the keys `a.b` and `a` above `b` display alike.
-/

namespace LayeredConfig

namespace Tree

/-- Expressions can name every key of the tree, and the positions of its arrays fit 64 bits. -/
def Addressable (t : Tree) : Prop := ∀ s ∈ t.segments, s.Addressable

instance : DecidablePred Addressable := fun t =>
  inferInstanceAs (Decidable (∀ s ∈ t.segments, s.Addressable))

/-! ## Lemmas -/

variable {t u : Tree} {p q : Path} {s : String}

theorem canonical_of_get? (hmap : t.isMap = true) (haddr : t.Addressable)
    (h : t.get? p = some u) : p.Canonical := by
  refine ⟨?_, fun s hs => haddr s (mem_segments_of_get? h s hs)⟩
  intro i hi
  obtain ⟨es, rfl⟩ : ∃ es, t = map es := by
    cases t with
    | map es => exact ⟨es, rfl⟩
    | _ => cases hmap
  obtain _ | ⟨s, p⟩ := p
  · cases hi
  · obtain rfl := Option.some.inj hi
    cases h

theorem eq_of_display_eq (hp : p.Canonical) (hq : q.Canonical) (h : p.display = q.display) :
    p = q := by
  have hread := Path.parse_display hp
  rw [h, Path.parse_display hq] at hread
  exact (Except.ok.inj hread).symm

/-- The leaves under their names. -/
def named (t : Tree) : List (String × String) := t.leaves.map fun l => (l.1.display, l.2)

theorem flatten_eq (t : Tree) : t.flatten = Assoc.ordered compare t.named := by
  rw [flatten, Assoc.ordered, named, List.foldl_map]

theorem nodup_names (hmap : t.isMap = true) (hd : t.Distinct) (haddr : t.Addressable) :
    (Assoc.keys t.named).Nodup := by
  have hnames : Assoc.keys t.named = (t.leaves.map Prod.fst).map Path.display := by
    simp [Assoc.keys, named]
  have hcanonical : ∀ p ∈ t.leaves.map Prod.fst, p.Canonical := by
    intro p hp
    obtain ⟨l, hl, rfl⟩ := List.mem_map.mp hp
    exact canonical_of_get? hmap haddr ((mem_leaves_iff hd).mp hl)
  rw [hnames]
  refine List.Nodup.map_on ?_ (nodup_paths_leaves hd)
  intro p hp q hq h
  exact eq_of_display_eq (hcanonical p hp) (hcanonical q hq) h

theorem flatten_perm (hmap : t.isMap = true) (hd : t.Distinct) (haddr : t.Addressable) :
    t.flatten.Perm t.named := by
  rw [flatten_eq]
  exact Assoc.ordered_perm (nodup_names hmap hd haddr)

theorem get?_flatten_iff (hmap : t.isMap = true) (hd : t.Distinct) (haddr : t.Addressable)
    (hp : p.Canonical) : Assoc.get? p.display t.flatten = some s ↔ t.get? p = some (value s) := by
  have hperm := flatten_perm hmap hd haddr
  rw [← Assoc.get?_eq_of_perm (nodup_names hmap hd haddr) hperm.symm, ← mem_leaves_iff hd]
  constructor
  · intro h
    obtain ⟨l, hl, heq⟩ := List.mem_map.mp (Assoc.mem_of_get? h)
    obtain ⟨hname, rfl⟩ := Prod.mk.inj heq
    have hl' := canonical_of_get? hmap haddr ((mem_leaves_iff hd).mp hl)
    rw [← eq_of_display_eq hl' hp hname]
    exact hl
  · intro h
    exact Assoc.get?_of_mem (nodup_names hmap hd haddr) (List.mem_map_of_mem h)

end Tree

namespace Config

theorem text?_eq_some_iff {c : Config} {e text : String} : c.text? e = some text ↔
    ∃ p, Path.parse e = .ok p ∧ c.root.get? p = some (.value text) := by
  have htext : ∀ t : Tree, t.text? = some text ↔ t = .value text := by
    intro t
    cases t <;> simp [Tree.text?]
  rw [text?, get?, Option.bind_eq_some_iff]
  cases Path.parse e with
  | error fault => simp
  | ok p =>
    constructor
    · rintro ⟨t, ht, h⟩
      rw [htext] at h
      exact ⟨p, rfl, h ▸ ht⟩
    · rintro ⟨_, ⟨⟩, h⟩
      exact ⟨_, h, rfl⟩

/-! ## Top theorem (proved from the lemmas above) -/

/-- The flat view of a map whose keys expressions can name: two values have two names, each name is
an expression for the value that stands under it, whatever an expression finds stands under the
display form of its path, and there are as many entries as values. -/
theorem flatten_agrees_with_lookup (c : Config) (hmap : c.root.isMap = true)
    (hd : c.root.Distinct) (haddr : c.root.Addressable) :
    (∀ p q s u, c.root.get? p = some (.value s) → c.root.get? q = some (.value u) →
      p.display = q.display → p = q) ∧
    (∀ name ∈ c.keys, ∃ p text, Path.parse name = .ok p ∧
      Assoc.get? name c.flatten = some text ∧ c.text? name = some text) ∧
    (∀ e text, c.text? e = some text →
      ∃ p, Path.parse e = .ok p ∧ Assoc.get? p.display c.flatten = some text) ∧
    c.keys.Nodup ∧ c.flatten.length = c.root.countValues := by
  have hperm := Tree.flatten_perm hmap hd haddr
  have hnames := Tree.nodup_names hmap hd haddr
  refine ⟨?_, ?_, ?_, ?_, ?_⟩
  · intro p q s u hp hq
    exact Tree.eq_of_display_eq (Tree.canonical_of_get? hmap haddr hp)
      (Tree.canonical_of_get? hmap haddr hq)
  · intro name hname
    obtain ⟨e, he, rfl⟩ := List.mem_map.mp hname
    obtain ⟨l, hl, rfl⟩ := List.mem_map.mp (hperm.mem_iff.mp he)
    have hget := (Tree.mem_leaves_iff hd).mp hl
    have hcanonical := Tree.canonical_of_get? hmap haddr hget
    have hparse := Path.parse_display hcanonical
    exact ⟨l.1, l.2, hparse, (Tree.get?_flatten_iff hmap hd haddr hcanonical).mpr hget,
      text?_eq_some_iff.mpr ⟨l.1, hparse, hget⟩⟩
  · intro e text h
    obtain ⟨p, hparse, hget⟩ := text?_eq_some_iff.mp h
    have hcanonical := Tree.canonical_of_get? hmap haddr hget
    exact ⟨p, hparse, (Tree.get?_flatten_iff hmap hd haddr hcanonical).mpr hget⟩
  · exact (hperm.map Prod.fst).nodup_iff.mpr hnames
  · show c.root.flatten.length = _
    rw [hperm.length_eq, Tree.named, List.length_map, Tree.length_leaves]

/-- Arrays in arrays, keys with blanks and a closing bracket, an empty value, and an expression that
spells the index in another way. -/
theorem flatten_agrees_with_lookup_nested :
    let c : Config := ⟨.map [("a", .array [.value "1", .map [("b]", .value "")]]), (" ", .value "2"),
      ("none", .map [])], .empty⟩
    c.root.isMap = true ∧ c.root.Distinct ∧ c.root.Addressable ∧
      c.flatten = [(" ", "2"), ("a[0]", "1"), ("a[1].b]", "")] ∧ c.text? "a[1].b]" = some "" ∧
      c.text? "a[ +01].b]" = some "" ∧ c.root.countValues = 3 := by
  intro c
  have hmap : c.root.isMap = true := by decide
  have hd : c.root.Distinct := by decide
  have haddr : c.root.Addressable := by decide
  obtain ⟨-, hkeys, -, -, hlength⟩ := flatten_agrees_with_lookup c hmap hd haddr
  have hflatten : c.flatten = [(" ", "2"), ("a[0]", "1"), ("a[1].b]", "")] := by decide +kernel
  refine ⟨hmap, hd, haddr, hflatten, ?_, by decide +kernel, ?_⟩
  · obtain ⟨p, text, -, hget, htext⟩ := hkeys "a[1].b]" (by rw [keys, hflatten]; decide)
    rw [hflatten] at hget
    obtain rfl := Option.some.inj hget
    exact htext
  · rw [← hlength, hflatten]
    rfl

end Config

end LayeredConfig
