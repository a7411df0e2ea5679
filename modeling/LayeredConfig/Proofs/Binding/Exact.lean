import LayeredConfig.Proofs.Binding.CommaList
import LayeredConfig.Proofs.Binding.Record

/-!
# Which maps bind to a record, and to what

A record whose fields all have fallbacks misses nothing.  A map binds to it exactly when every field
is named by one key at most and by an entry that binds, and when a strict record has no key besides
(`Suits`); what is bound to a field is its entry, or else its fallback.  None of this depends on the
order of the entries.

    (∃ b, bind (record strict fields) (map es) = ok b)  ↔ Suits strict fields es
                                                                     (bind_record_ok_iff_suits)
    bind (record strict fields) (map es) = ok b  → a field of b is what fieldOr reads from es
                                                                          (read_field_eq)

For texts, and for lists of texts, binding is a matter of the kind of the tree (`bind_text_ok_iff`,
`bind_texts_ok_iff`).
-/

namespace LayeredConfig

namespace Binding

/-- Each field is named by one key at most, and what stands there binds; a strict record has no
other keys. -/
structure Suits (strict : Bool) (fields : List (FieldInfo × Shape)) (es : List (String × Tree)) :
    Prop where
  known : strict = true → ∀ k ∈ Assoc.keys es, ∃ f ∈ fields, k ∈ f.1.names
  once : ∀ f ∈ fields, ∀ j ∈ f.1.names, ∀ k ∈ f.1.names, j ∈ Assoc.keys es → k ∈ Assoc.keys es →
    j = k
  binds : ∀ f ∈ fields, ∀ k ∈ f.1.names, ∀ t, Assoc.get? k es = some t → ∃ b, bind f.2 t = .ok b

/-- The tree under the first of the keys that is there. -/
def entry? (es : List (String × Tree)) (keys : List String) : Option Tree :=
  keys.findSome? fun k => Assoc.get? k es

/-- What is read from the entry of a field, or what stands in for an absent one. -/
def fieldOr {α : Type} (es : List (String × Tree)) (keys : List String) (s : Shape)
    (read : Bound → α) (fallback : α) : α :=
  match entry? es keys with
  | none => fallback
  | some t =>
    match bind s t with
    | .ok b => read b
    | .error _ => fallback

/-! ## Lemmas -/

section Entry

variable {es : List (String × Tree)} {keys : List String} {t : Tree}

theorem exists_of_entry? (h : entry? es keys = some t) : ∃ e ∈ es, e.1 ∈ keys ∧ e.2 = t := by
  obtain ⟨k, hk, hget⟩ := List.exists_of_findSome?_eq_some h
  exact ⟨(k, t), Assoc.mem_of_get? hget, hk, rfl⟩

theorem not_mem_of_entry?_eq_none (h : entry? es keys = none) : ∀ e ∈ es, e.1 ∉ keys := by
  intro e he hk
  have hnone := List.findSome?_eq_none_iff.mp h e.1 hk
  exact (Assoc.get?_eq_none_iff e.1 es).mp hnone (List.mem_map_of_mem he)

/-- The other keys of a map do not count. -/
theorem fieldOr_congr {fs : List (String × Tree)}
    (h : ∀ k ∈ keys, Assoc.get? k es = Assoc.get? k fs) {α : Type} (s : Shape) (read : Bound → α)
    (fallback : α) : fieldOr es keys s read fallback = fieldOr fs keys s read fallback := by
  have hentry : entry? es keys = entry? fs keys := by
    induction keys with
    | nil => rfl
    | cons k keys ih =>
      rw [List.forall_mem_cons] at h
      have ih := ih h.2
      unfold entry? at ih ⊢
      rw [List.findSome?_cons, List.findSome?_cons, h.1, ih]
  rw [fieldOr, fieldOr, hentry]

end Entry

section Record

variable {strict : Bool} {fields : List (FieldInfo × Shape)} {es : List (String × Tree)}

theorem bind_record_ok_iff_suits (h : NamesApart fields)
    (hfallback : ∀ f ∈ fields, f.1.fallback ≠ none) (hnd : (Assoc.keys es).Nodup) :
    (∃ b, bind (.record strict fields) (.map es) = .ok b) ↔ Suits strict fields es := by
  constructor
  · rintro ⟨b, hb⟩
    refine ⟨?_, ?_, ?_⟩
    · intro hstrict k hk
      obtain ⟨e, he, rfl⟩ := List.mem_map.mp hk
      by_contra hno
      push Not at hno
      exact not_fault_of_bind_ok h hb (.unknown hstrict he hno)
    · intro f hf j hj k hk hje hke
      obtain ⟨d, hd, rfl⟩ := List.mem_map.mp hje
      obtain ⟨e, he, rfl⟩ := List.mem_map.mp hke
      exact key_eq_of_bind_ok h hnd hb hf hd he hj hk
    · exact fun f hf k hk t ht => ⟨_, bind_entry_of_bind_ok h hb hf (Assoc.mem_of_get? ht) hk⟩
  · intro hsuits
    cases hb : bind (.record strict fields) (.map es) with
    | ok b => exact ⟨b, rfl⟩
    | error x =>
      rcases fault_of_bind_error h hb with hfault | ⟨f, hf, -, hnone, -⟩
      · cases hfault with
        | value hf he hk hx =>
          obtain ⟨b, hb⟩ := hsuits.binds _ hf _ hk _ (Assoc.get?_of_mem hnd he)
          rw [hb] at hx
          cases hx
        | twice hf hlen =>
          obtain ⟨d, hd, e, he, hkd, hke, hne⟩ := (two_le_length_entriesOf_iff hnd).mp hlen
          exact absurd (hsuits.once _ hf _ hkd _ hke (List.mem_map_of_mem hd)
            (List.mem_map_of_mem he)) hne
        | unknown hstrict he hk =>
          obtain ⟨f, hf, hkf⟩ := hsuits.known hstrict _ (List.mem_map_of_mem he)
          exact absurd hkf (hk f hf)
      · exact absurd hnone (hfallback f hf)

/-- The fields of what is bound, each read in whatever way. -/
theorem read_field_eq (h : NamesApart fields) {b : Bound}
    (hb : bind (.record strict fields) (.map es) = .ok b) :
    ∀ f ∈ fields, ∀ {α : Type} (read : Bound → α) (v : α), f.1.fallback.map read = some v →
      read (b.field f.1.name) = fieldOr es f.1.names f.2 read v := by
  intro f hf α read v hv
  unfold fieldOr
  split
  · next hnone =>
    rw [fallback_of_bind_ok h hb hf (not_mem_of_entry?_eq_none hnone)] at hv
    exact Option.some.inj hv
  · next t hsome =>
    obtain ⟨e, he, hk, rfl⟩ := exists_of_entry? hsome
    rw [bind_entry_of_bind_ok h hb hf he hk]

end Record

/-! ### Texts -/

theorem bind_text_ok_iff {t : Tree} : (∃ b, bind .text t = .ok b) ↔ ∃ text, t = .value text := by
  constructor
  · rintro ⟨b, hb⟩
    cases t with
    | value text => exact ⟨text, rfl⟩
    | array ts => rw [bind] at hb; cases hb
    | map es => rw [bind] at hb; cases hb
  · rintro ⟨text, rfl⟩
    exact ⟨.text text, by rw [← bindText_eq_bind, bindText]⟩

theorem bind_optional_text_ok_iff {t : Tree} :
    (∃ b, bind (.option .text) t = .ok b) ↔ ∃ text, t = .value text := by
  constructor
  · rintro ⟨b, hb⟩
    rw [bind] at hb
    split at hb
    · next hempty =>
      cases t with
      | value text => exact ⟨text, rfl⟩
      | array ts => cases hempty
      | map es => cases hempty
    · cases ht : bind .text t with
      | ok c => exact bind_text_ok_iff.mp ⟨c, ht⟩
      | error x => rw [ht] at hb; cases hb
  · rintro ⟨text, rfl⟩
    by_cases hempty : text = ""
    · exact ⟨.none, by rw [← bindText_eq_bind, bindText, if_pos hempty]⟩
    · exact ⟨.some (.text text), by rw [← bindText_eq_bind, bindText, if_neg hempty, bindText]; rfl⟩

/-- Trees that bind to texts are values. -/
theorem exists_texts {ts : List Tree} {bs : List Bound}
    (h : List.Forall₂ (fun t b => bind .text t = .ok b) ts bs) :
    ∃ texts : List String, ts = texts.map .value := by
  induction h with
  | nil => exact ⟨[], rfl⟩
  | cons hb _ ih =>
    obtain ⟨text, rfl⟩ := bind_text_ok_iff.mp ⟨_, hb⟩
    obtain ⟨texts, rfl⟩ := ih
    exact ⟨text :: texts, rfl⟩

/-- Binding a part of a comma list as text cannot go wrong; an item of an array has to be a
value. -/
theorem bind_texts_ok_iff {t : Tree} : (∃ b, bind (.list .text) t = .ok b) ↔
    (∃ text, t = .value text) ∨ ∃ texts : List String, t = .array (texts.map .value) := by
  have hvalues (texts : List String) :
      ((texts.map Tree.value).mapM fun t => bind .text t) = .ok (texts.map .text) := by
    rw [mapM_eq_ok_iff, List.forall₂_map_left_iff, List.forall₂_map_right_iff, List.forall₂_same]
    exact fun text _ => by rw [← bindText_eq_bind, bindText]
  constructor
  · rintro ⟨b, hb⟩
    cases t with
    | value text => exact .inl ⟨text, rfl⟩
    | map es => rw [bind] at hb; cases hb
    | array ts =>
      rw [bind_list_array] at hb
      cases hts : ts.mapM (fun t => bind .text t) with
      | error x => rw [hts] at hb; cases hb
      | ok bs =>
        obtain ⟨texts, rfl⟩ := exists_texts (mapM_eq_ok_iff.mp hts)
        exact .inr ⟨texts, rfl⟩
  · rintro (⟨text, rfl⟩ | ⟨texts, rfl⟩)
    · refine ⟨.list ((commaParts text).map .text), ?_⟩
      rw [bind_list_value, mapM_bindText, hvalues]
      rfl
    · refine ⟨.list (texts.map .text), ?_⟩
      rw [bind_list_array, hvalues]
      rfl

end Binding

end LayeredConfig
