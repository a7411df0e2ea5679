import LayeredConfig.Proofs.Binding.Exact
import LayeredConfig.Proofs.Section.Application

/-!
# Reading a section

Both sections are records whose fields all have fallbacks, so that reading one comes down to the
entries under its keys (`ReadsExactly`): it says which maps can be read, what is read from each
entry and from an absent one, that the order of the entries does not matter, and that an absent
section, an empty text and an empty map are read as the section's default.

The application section passes over all other keys; the section of the log refuses them.

Main statement: `sections_readExactly`.
-/

namespace LayeredConfig

open LayeredConfig.Binding

/-- How a section is read from the map at its path: which maps can be read, and as what. -/
structure ReadsExactly {σ : Type} (read : Config → Except ConfigError σ) (path : Path)
    (suits : List (String × Tree) → Prop) (ofEntries : List (String × Tree) → σ) (default : σ) :
    Prop where
  ok_iff {c : Config} {es : List (String × Tree)} (h : c.root.get? path = some (.map es))
    (hnd : (Assoc.keys es).Nodup) (s : σ) : read c = .ok s ↔ suits es ∧ s = ofEntries es
  perm {c d : Config} {es fs : List (String × Tree)} (hc : c.root.get? path = some (.map es))
    (hd : d.root.get? path = some (.map fs)) (hnd : (Assoc.keys es).Nodup) (hperm : es.Perm fs)
    (s : σ) : read c = .ok s ↔ read d = .ok s
  default_of_nothing {c : Config} (h : c.root.get? path = none ∨
    c.root.get? path = some (.value "") ∨ c.root.get? path = some .empty) : read c = .ok default

/-! ## The application -/

namespace ApplicationSection

/-- The keys that the section looks at. -/
def keys : List String := ["name", "id", "version", "base_packages", "basePackages"]

/-- The maps that can be read: values where there is one text, packages under one name at most and
as a value or as an array of values. -/
structure Suits (es : List (String × Tree)) : Prop where
  value : ∀ k ∈ ["name", "id", "version"], ∀ t, Assoc.get? k es = some t → ∃ text, t = .value text
  once : "base_packages" ∉ Assoc.keys es ∨ "basePackages" ∉ Assoc.keys es
  packages : ∀ k ∈ ["base_packages", "basePackages"], ∀ t, Assoc.get? k es = some t →
    (∃ text, t = .value text) ∨ ∃ texts : List String, t = .array (texts.map .value)

/-- The entries, bound; what is absent is as in the default. -/
def ofEntries (es : List (String × Tree)) : ApplicationSection where
  name := fieldOr es ["name"] .text Bound.asText ({} : ApplicationSection).name
  id := fieldOr es ["id"] (.option .text) (fun b => b.asOption.map Bound.asText)
    ({} : ApplicationSection).id
  version := fieldOr es ["version"] .text Bound.asText ({} : ApplicationSection).version
  basePackages := fieldOr es ["base_packages", "basePackages"] (.list .text) Bound.asTexts
    ({} : ApplicationSection).basePackages

end ApplicationSection

/-! ## The log -/

namespace LoggingSection

/-- Where the section stands. -/
def path : Path := Path.ofKeys [sectionName]

/-- What stands under the key, if anything, binds to the shape. -/
def Binds (s : Shape) (k : String) (es : List (String × Tree)) : Prop :=
  ∀ t, Assoc.get? k es = some t → ∃ b, bind s t = .ok b

/-- The maps that can be read: no keys but those of the section, and each of them binds. -/
structure Suits (es : List (String × Tree)) : Prop where
  known : ∀ k ∈ Assoc.keys es, k ∈ ["enabled", "level", "format", "ansi", "include_location"]
  enabled : Binds .bool "enabled" es
  level : Binds .text "level" es
  format : Binds LogFormat.shape "format" es
  ansi : Binds .bool "ansi" es
  includeLocation : Binds .bool "include_location" es

/-- The entries, bound; what is absent is as in the default. -/
def ofEntries (es : List (String × Tree)) : LoggingSection where
  enabled := fieldOr es ["enabled"] .bool Bound.asBool ({} : LoggingSection).enabled
  level := fieldOr es ["level"] .text Bound.asText ({} : LoggingSection).level
  format := fieldOr es ["format"] LogFormat.shape LogFormat.ofBound ({} : LoggingSection).format
  ansi := fieldOr es ["ansi"] .bool Bound.asBool ({} : LoggingSection).ansi
  includeLocation :=
    fieldOr es ["include_location"] .bool Bound.asBool ({} : LoggingSection).includeLocation

end LoggingSection

/-! ## Lemmas -/

/-! ### Sections as records -/

theorem bind_record_empty (strict : Bool) (fields : List (FieldInfo × Shape)) :
    Binding.bind (.record strict fields) (.value "") =
      Binding.bind (.record strict fields) (.map []) := by
  rw [← bindText_eq_bind, bindText, if_pos rfl, bind_record_map]
  rfl

theorem bindSection_ok_iff {name : String} {path : Path} (hpath : Config.path name = .ok path)
    {shape : Shape} {c : Config} {b : Bound} : c.bindSection name shape = .ok b ↔
      Binding.bind shape ((c.root.get? path).getD .empty) = .ok b := by
  rw [Config.bindSection_eq hpath, Config.bindAt]
  cases Binding.bind shape ((c.root.get? path).getD .empty) <;> simp

theorem map_eq_ok_iff {ε α β : Type} {x : Except ε α} {f : α → β} {y : β} :
    x.map f = .ok y ↔ ∃ a, x = .ok a ∧ f a = y := by
  cases x with
  | error e => simp [Except.map]
  | ok a => simp [Except.map]

/-- A record whose fields all have fallbacks is read exactly: what can be read and what is read only
have to be said by the entries. -/
theorem readsExactly_of_record {σ : Type} {name : String} {path : Path} {strict : Bool}
    {fields : List (FieldInfo × Shape)} {ofBound : Bound → σ} (hpath : Config.path name = .ok path)
    (hapart : NamesApart fields) (hfallback : ∀ f ∈ fields, f.1.fallback ≠ none)
    {suits : List (String × Tree) → Prop} {ofEntries : List (String × Tree) → σ}
    (hsuits : ∀ es, (Assoc.keys es).Nodup → (Binding.Suits strict fields es ↔ suits es))
    (hread : ∀ es b, Binding.bind (.record strict fields) (.map es) = .ok b →
      ofBound b = ofEntries es)
    (hperm : ∀ es fs, (Assoc.keys es).Nodup → es.Perm fs → (suits es → suits fs) ∧
      ofEntries es = ofEntries fs) :
    ReadsExactly (fun c => (c.bindSection name (.record strict fields)).map ofBound) path suits
      ofEntries (ofEntries []) := by
  have hok {c : Config} {es : List (String × Tree)} (h : c.root.get? path = some (.map es))
      (hnd : (Assoc.keys es).Nodup) (s : σ) :
      (c.bindSection name (.record strict fields)).map ofBound = .ok s ↔
        suits es ∧ s = ofEntries es := by
    rw [map_eq_ok_iff, ← hsuits es hnd, ← bind_record_ok_iff_suits hapart hfallback hnd]
    simp only [bindSection_ok_iff hpath, h, Option.getD_some]
    constructor
    · rintro ⟨b, hb, rfl⟩
      exact ⟨⟨b, hb⟩, hread es b hb⟩
    · rintro ⟨⟨b, hb⟩, rfl⟩
      exact ⟨b, hb, hread es b hb⟩
  refine ⟨hok, ?_, ?_⟩
  · intro c d es fs hc hd hnd hperm' s
    have hnd' : (Assoc.keys fs).Nodup := (hperm'.map Prod.fst).nodup_iff.mp hnd
    rw [hok hc hnd, hok hd hnd', (hperm es fs hnd hperm').2]
    have hiff : suits es ↔ suits fs :=
      ⟨(hperm es fs hnd hperm').1, (hperm fs es hnd' hperm'.symm).1⟩
    rw [hiff]
  · intro c h
    have hempty : Binding.bind (.record strict fields) ((c.root.get? path).getD .empty) =
        Binding.bind (.record strict fields) (.map []) := by
      rcases h with h | h | h <;> rw [h]
      · rfl
      · exact bind_record_empty strict fields
      · rfl
    have hnil : Binding.Suits strict fields [] :=
      ⟨fun _ k hk => absurd hk List.not_mem_nil,
        fun _ _ j _ _ _ hj => absurd hj List.not_mem_nil, fun _ _ _ _ _ ht => by cases ht⟩
    have hnodup : (Assoc.keys ([] : List (String × Tree))).Nodup := List.nodup_nil
    obtain ⟨b, hb⟩ := (bind_record_ok_iff_suits hapart hfallback hnodup).mpr hnil
    exact map_eq_ok_iff.mpr ⟨b, (bindSection_ok_iff hpath).mpr (hempty.trans hb), hread [] b hb⟩

/-! ### The application -/

namespace ApplicationSection

theorem suits_iff {es : List (String × Tree)} : Binding.Suits false shape.fields es ↔ Suits es := by
  have hbinds : (∀ f ∈ shape.fields, ∀ k ∈ f.1.names, ∀ t, Assoc.get? k es = some t →
      ∃ b, Binding.bind f.2 t = .ok b) ↔
      (∀ k ∈ ["name", "id", "version"], ∀ t, Assoc.get? k es = some t → ∃ text, t = .value text) ∧
        ∀ k ∈ ["base_packages", "basePackages"], ∀ t, Assoc.get? k es = some t →
          (∃ text, t = .value text) ∨ ∃ texts : List String, t = .array (texts.map .value) := by
    simp only [Shape.fields, shape, FieldInfo.names, List.forall_mem_cons, List.not_mem_nil,
      false_imp_iff, implies_true, and_true, bind_text_ok_iff, bind_optional_text_ok_iff,
      bind_texts_ok_iff, and_assoc]
  have honce : (∀ f ∈ shape.fields, ∀ j ∈ f.1.names, ∀ k ∈ f.1.names, j ∈ Assoc.keys es →
      k ∈ Assoc.keys es → j = k) ↔
      ("base_packages" ∉ Assoc.keys es ∨ "basePackages" ∉ Assoc.keys es) := by
    simp [Shape.fields, shape, FieldInfo.names]
    tauto
  exact ⟨fun h => ⟨(hbinds.mp h.binds).1, honce.mp h.once, (hbinds.mp h.binds).2⟩,
    fun h => ⟨fun hstrict => absurd hstrict Bool.false_ne_true, honce.mpr h.once,
      hbinds.mpr ⟨h.value, h.packages⟩⟩⟩

theorem ofBound_eq_ofEntries {es : List (String × Tree)} {b : Bound}
    (hb : Binding.bind shape (.map es) = .ok b) : ofBound b = ofEntries es := by
  have hfields := read_field_eq namesApart_fields hb
  simp only [Shape.fields, shape, FieldInfo.names, List.forall_mem_cons] at hfields
  obtain ⟨hname, hid, hversion, hpackages, -⟩ := hfields
  unfold ofBound ofEntries
  congr 1
  · exact hname Bound.asText _ rfl
  · exact hid (fun b => b.asOption.map Bound.asText) _ rfl
  · exact hversion Bound.asText _ rfl
  · exact hpackages Bound.asTexts _ rfl

/-- What is not under one of its keys does not matter to the section. -/
theorem suits_congr {es fs : List (String × Tree)}
    (h : ∀ k ∈ keys, Assoc.get? k es = Assoc.get? k fs) (hes : Suits es) : Suits fs := by
  have habsent : ∀ k ∈ keys, k ∉ Assoc.keys es → k ∉ Assoc.keys fs := by
    intro k hk hno
    rwa [← Assoc.get?_eq_none_iff, ← h k hk, Assoc.get?_eq_none_iff]
  have hvalues : ∀ k ∈ ["name", "id", "version"], k ∈ keys := by decide
  have hpackages : ∀ k ∈ ["base_packages", "basePackages"], k ∈ keys := by decide
  refine ⟨fun k hk t ht => hes.value k hk t ?_, ?_, fun k hk t ht => hes.packages k hk t ?_⟩
  · rw [h k (hvalues k hk), ht]
  · exact hes.once.imp (habsent _ (by decide)) (habsent _ (by decide))
  · rw [h k (hpackages k hk), ht]

theorem ofEntries_congr {es fs : List (String × Tree)}
    (h : ∀ k ∈ keys, Assoc.get? k es = Assoc.get? k fs) : ofEntries es = ofEntries fs := by
  simp only [keys, List.forall_mem_cons, List.not_mem_nil, false_imp_iff, implies_true,
    and_true] at h
  obtain ⟨hname, hid, hversion, hpackages, hcamel⟩ := h
  unfold ofEntries
  congr 1
  · exact fieldOr_congr (List.forall_mem_singleton.mpr hname) _ _ _
  · exact fieldOr_congr (List.forall_mem_singleton.mpr hid) _ _ _
  · exact fieldOr_congr (List.forall_mem_singleton.mpr hversion) _ _ _
  · have hboth : ∀ k ∈ ["base_packages", "basePackages"], Assoc.get? k es = Assoc.get? k fs :=
      List.forall_mem_cons.mpr ⟨hpackages, List.forall_mem_singleton.mpr hcamel⟩
    exact fieldOr_congr hboth _ _ _

theorem fallback_ne_none : ∀ f ∈ shape.fields, f.1.fallback ≠ none := by
  simp [Shape.fields, shape]

theorem readsExactly : ReadsExactly Config.applicationSection path Suits ofEntries {} := by
  refine readsExactly_of_record Config.path_application namesApart_fields fallback_ne_none
    (fun _ _ => suits_iff) (fun _ _ => ofBound_eq_ofEntries) ?_
  intro es fs hnd hperm
  have hget : ∀ k ∈ keys, Assoc.get? k es = Assoc.get? k fs :=
    fun k _ => Assoc.get?_eq_of_perm hnd hperm k
  exact ⟨suits_congr hget, ofEntries_congr hget⟩

end ApplicationSection

/-! ### The log -/

namespace LoggingSection

theorem namesApart_fields : NamesApart shape.fields := by
  simp [NamesApart, Shape.fields, shape, FieldInfo.names, List.Disjoint]

theorem suits_iff {es : List (String × Tree)} : Binding.Suits true shape.fields es ↔ Suits es := by
  have hknown : (∀ k ∈ Assoc.keys es, ∃ f ∈ shape.fields, k ∈ f.1.names) ↔
      ∀ k ∈ Assoc.keys es, k ∈ ["enabled", "level", "format", "ansi", "include_location"] := by
    simp [Shape.fields, shape, FieldInfo.names]
  have honce : ∀ f ∈ shape.fields, ∀ j ∈ f.1.names, ∀ k ∈ f.1.names, j ∈ Assoc.keys es →
      k ∈ Assoc.keys es → j = k := by
    simp [Shape.fields, shape, FieldInfo.names]
  have hbinds : (∀ f ∈ shape.fields, ∀ k ∈ f.1.names, ∀ t, Assoc.get? k es = some t →
      ∃ b, Binding.bind f.2 t = .ok b) ↔ Binds .bool "enabled" es ∧ Binds .text "level" es ∧
        Binds LogFormat.shape "format" es ∧ Binds .bool "ansi" es ∧
        Binds .bool "include_location" es := by
    simp only [Shape.fields, shape, FieldInfo.names, List.forall_mem_cons, List.not_mem_nil,
      false_imp_iff, implies_true, and_true, Binds]
  constructor
  · intro h
    obtain ⟨henabled, hlevel, hformat, hansi, hlocation⟩ := hbinds.mp h.binds
    exact ⟨hknown.mp (h.known rfl), henabled, hlevel, hformat, hansi, hlocation⟩
  · intro h
    exact ⟨fun _ => hknown.mpr h.known, honce,
      hbinds.mpr ⟨h.enabled, h.level, h.format, h.ansi, h.includeLocation⟩⟩

theorem ofBound_eq_ofEntries {es : List (String × Tree)} {b : Bound}
    (hb : Binding.bind shape (.map es) = .ok b) : ofBound b = ofEntries es := by
  have hfields := read_field_eq namesApart_fields hb
  simp only [Shape.fields, shape, FieldInfo.names, List.forall_mem_cons] at hfields
  obtain ⟨henabled, hlevel, hformat, hansi, hlocation, -⟩ := hfields
  unfold ofBound ofEntries
  congr 1
  · exact henabled Bound.asBool _ rfl
  · exact hlevel Bound.asText _ rfl
  · exact hformat LogFormat.ofBound _ rfl
  · exact hansi Bound.asBool _ rfl
  · exact hlocation Bound.asBool _ rfl

theorem suits_of_perm {es fs : List (String × Tree)} (hnd : (Assoc.keys es).Nodup)
    (hperm : es.Perm fs) (hes : Suits es) : Suits fs := by
  have hbinds {s : Shape} {k : String} (h : Binds s k es) : Binds s k fs := by
    intro t ht
    exact h t ((Assoc.get?_eq_of_perm hnd hperm k).trans ht)
  exact ⟨fun k hk => hes.known k ((hperm.map Prod.fst).mem_iff.mpr hk), hbinds hes.enabled,
    hbinds hes.level, hbinds hes.format, hbinds hes.ansi, hbinds hes.includeLocation⟩

theorem ofEntries_of_perm {es fs : List (String × Tree)} (hnd : (Assoc.keys es).Nodup)
    (hperm : es.Perm fs) : ofEntries es = ofEntries fs := by
  have hfield {α : Type} (keys : List String) (s : Shape) (read : Bound → α) (v : α) :
      fieldOr es keys s read v = fieldOr fs keys s read v :=
    fieldOr_congr (fun k _ => Assoc.get?_eq_of_perm hnd hperm k) s read v
  unfold ofEntries
  congr 1 <;> exact hfield _ _ _ _

theorem fallback_ne_none : ∀ f ∈ shape.fields, f.1.fallback ≠ none := by
  simp [Shape.fields, shape]

theorem path_eq : Config.path sectionName = .ok path := by
  decide +kernel

theorem readsExactly : ReadsExactly Config.loggingSection path Suits ofEntries {} :=
  readsExactly_of_record path_eq namesApart_fields fallback_ne_none (fun _ _ => suits_iff)
    (fun _ _ => ofBound_eq_ofEntries)
    fun _ _ hnd hperm => ⟨suits_of_perm hnd hperm, ofEntries_of_perm hnd hperm⟩

end LoggingSection

/-! ## Top theorem (proved from the lemmas above) -/

/-- Both sections are read exactly, and the application section does not look at other keys. -/
theorem sections_readExactly :
    ReadsExactly Config.applicationSection ApplicationSection.path ApplicationSection.Suits
      ApplicationSection.ofEntries {} ∧
    (∀ es fs, (∀ k ∈ ApplicationSection.keys, Assoc.get? k es = Assoc.get? k fs) →
      (ApplicationSection.Suits es ↔ ApplicationSection.Suits fs) ∧
        ApplicationSection.ofEntries es = ApplicationSection.ofEntries fs) ∧
    ReadsExactly Config.loggingSection LoggingSection.path LoggingSection.Suits
      LoggingSection.ofEntries {} := by
  refine ⟨ApplicationSection.readsExactly, fun es fs h => ⟨⟨?_, ?_⟩, ?_⟩,
    LoggingSection.readsExactly⟩
  · exact ApplicationSection.suits_congr h
  · exact ApplicationSection.suits_congr fun k hk => (h k hk).symm
  · exact ApplicationSection.ofEntries_congr h

/-- Entries in another order, with a key besides: the application section is read all the same, as
the default is from a tree without it. -/
theorem sections_readExactly_shuffled :
    let es : List (String × Tree) := [("id", .value ""), ("other", .map [("k", .array [])]),
      ("name", .value "shop"), ("basePackages", .array [.value "org", .value "com"])]
    let c : Config := { root := .map [("application", .map es)] }
    let d : Config := { root := .map [("application", .map es.reverse)] }
    let s : ApplicationSection := { name := "shop", basePackages := ["org", "com"] }
    c.applicationSection = .ok s ∧ d.applicationSection = .ok s ∧
      c.loggingSection = .ok {} := by
  intro es c d s
  obtain ⟨happlication, -, hlogging⟩ := sections_readExactly
  have hnd : (Assoc.keys es).Nodup := by decide
  have hsuits : ApplicationSection.Suits es := by
    refine ⟨?_, .inl (by decide), ?_⟩
    · simp [es, Assoc.get?]
    · have htexts : ∃ texts : List String,
          [Tree.value "org", .value "com"] = texts.map .value := ⟨["org", "com"], rfl⟩
      simpa [es, Assoc.get?] using htexts
  have hc : c.root.get? ApplicationSection.path = some (.map es) := rfl
  have hd : d.root.get? ApplicationSection.path = some (.map es.reverse) := rfl
  have hs : c.applicationSection = .ok s :=
    (happlication.ok_iff hc hnd s).mpr ⟨hsuits, by decide +kernel⟩
  exact ⟨hs, (happlication.perm hc hd hnd es.reverse_perm.symm s).mp hs,
    hlogging.default_of_nothing (.inl rfl)⟩

end LayeredConfig
