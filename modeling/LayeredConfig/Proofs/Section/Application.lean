import LayeredConfig.Proofs.Binding.Override
import LayeredConfig.Proofs.Resolver.Reached

/-!
# The application section of two sources

Two sources, a lower and an upper one, each have a map at `application` that binds on its own.  Over
the merged view the section is bound from the one map laid over the other.  Three of its fields have
one name each and nothing can go wrong with them; the packages have two, and two sources can fall
out over them:

    both use the same name of the packages, or one of them uses none
        → every field is the upper source's where that names it, else the lower source's
    each uses another name
        → the section does not bind: the field `base_packages` is there twice

Main statement: `applicationSection_stacked`.
-/

namespace LayeredConfig

/-- The fields of a record. -/
def Shape.fields : Shape → List (FieldInfo × Shape)
  | .record _ fields => fields
  | _ => []

namespace ApplicationSection

open LayeredConfig.Binding

/-- Where the section stands. -/
def path : Path := Path.ofKeys [sectionName]

/-- The packages, the one field with two names. -/
def packages : FieldInfo where
  name := "base_packages"
  aliases := ["basePackages"]
  fallback := some (.list [])

/-- The packages under both of their names, one in each map. -/
def MixedPackages (ls hs : List (String × Tree)) : Prop :=
  "basePackages" ∈ Assoc.keys ls ∧ "base_packages" ∈ Assoc.keys hs ∨
    "base_packages" ∈ Assoc.keys ls ∧ "basePackages" ∈ Assoc.keys hs

instance (ls hs : List (String × Tree)) : Decidable (MixedPackages ls hs) :=
  inferInstanceAs (Decidable (_ ∧ _ ∨ _ ∧ _))

/-- The fields of the upper section where its map names them, else those of the lower one. -/
def overlay (hs : List (String × Tree)) (upper lower : ApplicationSection) : ApplicationSection where
  name := if "name" ∈ Assoc.keys hs then upper.name else lower.name
  id := if "id" ∈ Assoc.keys hs then upper.id else lower.id
  version := if "version" ∈ Assoc.keys hs then upper.version else lower.version
  basePackages :=
    if "base_packages" ∈ Assoc.keys hs ∨ "basePackages" ∈ Assoc.keys hs then upper.basePackages
    else lower.basePackages

/-! ## Lemmas -/

/-! ### The shape of the section -/

theorem shape_eq : shape = .record false shape.fields := rfl

theorem namesApart_fields : NamesApart shape.fields := by
  simp [NamesApart, Shape.fields, shape, FieldInfo.names, List.Disjoint]

theorem flat_fields : ∀ f ∈ shape.fields, Flat f.2 := by
  simp only [Shape.fields, shape, List.forall_mem_cons]
  exact ⟨flat_text, flat_option flat_text, flat_text, flat_list _, fun f hf => by cases hf⟩

/-- Every field but the packages has one name. -/
theorem aliases_eq_nil_or_eq_packages {f : FieldInfo × Shape} (hf : f ∈ shape.fields) :
    f.1.aliases = [] ∨ f.1 = packages := by
  simp only [Shape.fields, shape, List.mem_cons, List.not_mem_nil, or_false] at hf
  rcases hf with rfl | rfl | rfl | rfl
  · exact .inl rfl
  · exact .inl rfl
  · exact .inl rfl
  · exact .inr rfl

theorem packages_mem_fields : (packages, Shape.list .text) ∈ shape.fields := by
  simp [Shape.fields, shape, packages]

theorem not_spelledAlike_packages_iff {ls hs : List (String × Tree)} :
    ¬ SpelledAlike packages ls hs ↔ MixedPackages ls hs := by
  have hnames : ∀ k, k ∈ packages.names ↔ k = "base_packages" ∨ k = "basePackages" := by
    intro k
    simp [packages, FieldInfo.names]
  constructor
  · intro h
    unfold SpelledAlike at h
    push Not at h
    obtain ⟨d, hd, e, he, hkd, hke, hne⟩ := h
    have hdl : d.1 ∈ Assoc.keys ls := List.mem_map_of_mem hd
    have hel : e.1 ∈ Assoc.keys hs := List.mem_map_of_mem he
    rcases (hnames d.1).mp hkd with hdk | hdk <;> rcases (hnames e.1).mp hke with hek | hek
    · exact absurd (hdk.trans hek.symm) hne
    · exact .inr ⟨hdk ▸ hdl, hek ▸ hel⟩
    · exact .inl ⟨hdk ▸ hdl, hek ▸ hel⟩
    · exact absurd (hdk.trans hek.symm) hne
  · intro h halike
    have hboth : ∀ k j, k ∈ Assoc.keys ls → j ∈ Assoc.keys hs → k ∈ packages.names →
        j ∈ packages.names → k = j := by
      intro k j hk hj hkn hjn
      obtain ⟨d, hd, rfl⟩ := List.mem_map.mp hk
      obtain ⟨e, he, rfl⟩ := List.mem_map.mp hj
      exact halike d hd e he hkn hjn
    rcases h with ⟨hk, hj⟩ | ⟨hk, hj⟩
    · exact absurd (hboth _ _ hk hj (by simp [hnames]) (by simp [hnames])) (by decide)
    · exact absurd (hboth _ _ hk hj (by simp [hnames]) (by simp [hnames])) (by decide)

/-! ### Binding -/

theorem ofBound_eq_overlay {hs : List (String × Tree)} {b u l : Bound}
    (h : ∀ f ∈ shape.fields, b.field f.1.name =
      if Names hs f.1 then u.field f.1.name else l.field f.1.name) :
    ofBound b = overlay hs (ofBound u) (ofBound l) := by
  simp only [Shape.fields, shape, List.forall_mem_cons, names_iff, FieldInfo.names,
    List.exists_mem_cons_iff, List.not_mem_nil, false_and, exists_false, or_false] at h
  obtain ⟨hname, hid, hversion, hpackages, -⟩ := h
  unfold ofBound overlay
  rw [hname, hid, hversion, hpackages]
  simp only [apply_ite Bound.asText, apply_ite Bound.asOption, apply_ite (Option.map Bound.asText),
    apply_ite Bound.asTexts]

end ApplicationSection

namespace Config

open ApplicationSection

theorem path_application : Config.path sectionName = .ok ApplicationSection.path := by
  decide +kernel

theorem bindSection_eq {name : String} {path : Path} (hpath : Config.path name = .ok path)
    (c : Config) (shape : Shape) : c.bindSection name shape =
      bindAt name shape ((c.root.get? path).getD .empty) := by
  unfold bindSection
  rw [hpath]
  rfl

section Bound

variable {c : Config} {es : List (String × Tree)}
  (h : c.root.get? ApplicationSection.path = some (.map es))

include h

theorem applicationSection_eq : c.applicationSection =
    match Binding.bind shape (.map es) with
    | .ok b => .ok (ofBound b)
    | .error x => .error (.invalidValue sectionName x) := by
  rw [applicationSection, bindSection_eq path_application, h, Option.getD_some, bindAt]
  cases Binding.bind shape (.map es) <;> rfl

theorem exists_bind_of_applicationSection_ok {s : ApplicationSection}
    (hs : c.applicationSection = .ok s) :
    ∃ b, Binding.bind shape (.map es) = .ok b ∧ s = ofBound b := by
  rw [applicationSection_eq h] at hs
  cases hb : Binding.bind shape (.map es) with
  | error x => rw [hb] at hs; cases hs
  | ok b =>
    rw [hb] at hs
    exact ⟨b, rfl, (Except.ok.inj hs).symm⟩

end Bound

end Config

namespace Resolver

open ApplicationSection

/-! ### Two sources -/

section Two

variable {r : Resolver} (hr : r.Reached) {low high : String}
  (hnames : r.sourceNames = [low, high]) {L H : RawSource} (hlow : r.raw? low = some L)
  (hhigh : r.raw? high = some H)

include hr hnames hlow hhigh

theorem root_eq_of_two :
    r.resolve.root = (Tree.empty.merge (r.process L.tree)).merge (r.process H.tree) := by
  rw [hr.root_eq_of_names, hnames, List.filterMap_cons, List.filterMap_cons, hlow, hhigh]
  rfl

theorem application_of_two {ls hs : List (String × Tree)}
    (hls : (r.process L.tree).get? path = some (.map ls))
    (hhs : (r.process H.tree).get? path = some (.map hs)) :
    r.resolve.root.get? path = some (.map (Tree.mergeEntries ls hs)) := by
  have hlower : (Tree.empty.merge (r.process L.tree)).get? path = some (.map ls) :=
    Tree.get?_merge_of_some (distinct_process _ _) Tree.empty hls
  have hmerged :
      ((Tree.empty.merge (r.process L.tree)).merge (r.process H.tree)).get? path =
        some (Tree.mergeOnto ((Tree.empty.merge (r.process L.tree)).get? path) (.map hs)) :=
    Tree.get?_merge_of_some (distinct_process _ _) _ hhs
  rw [root_eq_of_two hr hnames hlow hhigh, hmerged, hlower]
  rfl

end Two

/-! ## Top theorem (proved from the lemmas above) -/

/-- Two sources whose processed trees each have a map for the application that binds on its own,
the lower one of less priority or registered before the other.  If the two use different names of
the packages, the merged section does not bind, because of the packages; else it does, and each
field is the upper one's where the upper map names it. -/
theorem applicationSection_stacked {r : Resolver} (hr : r.Reached) {low high : String}
    (hnames : r.sourceNames = [low, high]) {L H : RawSource} (hlow : r.raw? low = some L)
    (hhigh : r.raw? high = some H) {ls hs : List (String × Tree)}
    (hls : (r.process L.tree).get? path = some (.map ls))
    (hhs : (r.process H.tree).get? path = some (.map hs)) {lower upper : ApplicationSection}
    (hlower : (Config.mk (r.process L.tree) r.profiles).applicationSection = .ok lower)
    (hupper : (Config.mk (r.process H.tree) r.profiles).applicationSection = .ok upper) :
    r.resolve.applicationSection =
      if MixedPackages ls hs then
        .error (.invalidValue sectionName (.duplicateField "base_packages"))
      else .ok (overlay hs upper lower) := by
  obtain ⟨l, hl, rfl⟩ := Config.exists_bind_of_applicationSection_ok hls hlower
  obtain ⟨u, hu, rfl⟩ := Config.exists_bind_of_applicationSection_ok hhs hupper
  have hdl : (Tree.map ls).Distinct := Tree.distinct_of_get?_ofKeys (distinct_process _ _) hls
  have hdu : (Tree.map hs).Distinct := Tree.distinct_of_get?_ofKeys (distinct_process _ _) hhs
  have hstacked : Binding.Stacked false shape.fields ls hs l u :=
    ⟨namesApart_fields, flat_fields, hdl.1, hdu.1, hl, hu⟩
  rw [Config.applicationSection_eq (application_of_two hr hnames hlow hhigh hls hhs), shape_eq]
  by_cases hmixed : MixedPackages ls hs
  · rw [if_pos hmixed]
    obtain ⟨g, hg, hng, hbind⟩ :=
      hstacked.bind_merged_mixed packages_mem_fields (not_spelledAlike_packages_iff.mpr hmixed)
    rcases aliases_eq_nil_or_eq_packages hg with hnil | hpackages
    · exact absurd (Binding.spelledAlike_of_aliases_eq_nil hnil ls hs) hng
    · rw [hbind, hpackages]
      rfl
  · rw [if_neg hmixed]
    have halike : ∀ f ∈ shape.fields, Binding.SpelledAlike f.1 ls hs := by
      intro f hf
      rcases aliases_eq_nil_or_eq_packages hf with hnil | hpackages
      · exact Binding.spelledAlike_of_aliases_eq_nil hnil ls hs
      · rw [hpackages]
        exact not_not.mp fun hno => hmixed (not_spelledAlike_packages_iff.mp hno)
    obtain ⟨b, hb, hfields⟩ := hstacked.bind_merged halike
    rw [hb, ← ofBound_eq_overlay hfields]

/-- Both sources name the packages alike, and only the lower one has a version. -/
theorem applicationSection_stacked_alike :
    let low : Tree := .map [("application", .map [("name", .value "shop"),
      ("version", .value "1.2"), ("basePackages", .array [.value "org.shop"])])]
    let high : Tree := .map [("application", .map [("basePackages", .value "org.a, org.b"),
      ("name", .value "shop-eu")])]
    let r := (new .empty).run [.register "env" high 1000, .register "file" low 0]
    r.resolve.applicationSection =
      .ok { name := "shop-eu", version := "1.2", basePackages := ["org.a", "org.b"] } := by
  intro low high r
  have hnames : r.sourceNames = ["file", "env"] := by decide +kernel
  have hlow : r.raw? "file" = some { tree := low, priority := 0 } := rfl
  have hhigh : r.raw? "env" = some { tree := high, priority := 1000 } := rfl
  have hls : r.process low = low := process_of_clean _ (by decide) (by decide)
  have hhs : r.process high = high := process_of_clean _ (by decide) (by decide)
  have hlower : (Config.mk low r.profiles).applicationSection =
      .ok { name := "shop", version := "1.2", basePackages := ["org.shop"] } := by
    decide +kernel
  have hupper : (Config.mk high r.profiles).applicationSection =
      .ok { name := "shop-eu", basePackages := ["org.a", "org.b"] } := by
    decide +kernel
  rw [← hls] at hlower
  rw [← hhs] at hupper
  rw [applicationSection_stacked ⟨_, _, rfl⟩ hnames hlow hhigh (by rw [hls]; rfl)
    (by rw [hhs]; rfl) hlower hupper]
  rfl

/-- Each of the two sources binds on its own, and one of them laid over the other does not. -/
theorem applicationSection_mixed_packages :
    let low : Tree := .map [("application", .map [("basePackages", .array [.value "org.shop"])])]
    let high : Tree := .map [("application", .map [("base_packages", .value "org.env")])]
    let r := (new .empty).run [.register "file" low 0, .register "env" high 1000]
    (Config.mk (r.process low) r.profiles).applicationSection =
        .ok { basePackages := ["org.shop"] } ∧
      (Config.mk (r.process high) r.profiles).applicationSection =
        .ok { basePackages := ["org.env"] } ∧
      r.resolve.applicationSection =
        .error (.invalidValue "application" (.duplicateField "base_packages")) := by
  decide +kernel

end Resolver

end LayeredConfig
