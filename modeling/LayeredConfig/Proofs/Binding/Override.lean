import LayeredConfig.Proofs.Binding.Record
import LayeredConfig.Proofs.Processing.Clean

/-!
# Records overridden by records

A map is laid over another one key by key, and a record takes its fields by their names, of which a
field can have several.  Where both maps bind, and no field binds a map (`Stacked`), the merged map
binds as long as each field goes by one and the same key in both of them (`SpelledAlike`):

    every field spelled alike  → each field is as in the upper map where that names it,
                                 else as in the lower one                     (Stacked.bind_merged)
    some field not             → the merged map names a field twice and does not bind
                                                                        (Stacked.bind_merged_mixed)

The step between the two: an entry of the merged map that names a field is an entry of the upper
map, or one of the lower map whose key the upper one does not have (`Stacked.mem_merged_iff`).
-/

namespace LayeredConfig

namespace Binding

/-- No map binds to the shape. -/
def Flat (s : Shape) : Prop := ∀ es b, bind s (.map es) ≠ .ok b

/-- Some entry names the field. -/
def Names (es : List (String × Tree)) (info : FieldInfo) : Prop := ∃ e ∈ es, e.1 ∈ info.names

instance (es : List (String × Tree)) (info : FieldInfo) : Decidable (Names es info) :=
  inferInstanceAs (Decidable (∃ e ∈ es, e.1 ∈ info.names))

/-- Where two maps name the field, they name it by the same key. -/
def SpelledAlike (info : FieldInfo) (ls hs : List (String × Tree)) : Prop :=
  ∀ d ∈ ls, ∀ e ∈ hs, d.1 ∈ info.names → e.1 ∈ info.names → d.1 = e.1

/-- A lower and an upper map that both bind to a record of flat fields, and what they bind to. -/
structure Stacked (strict : Bool) (fields : List (FieldInfo × Shape))
    (ls hs : List (String × Tree)) (l h : Bound) : Prop where
  namesApart : NamesApart fields
  flat : ∀ f ∈ fields, Flat f.2
  nodup_lower : (Assoc.keys ls).Nodup
  nodup_upper : (Assoc.keys hs).Nodup
  lower : bind (.record strict fields) (.map ls) = .ok l
  upper : bind (.record strict fields) (.map hs) = .ok h

/-! ## Lemmas -/

theorem flat_text : Flat .text := by
  intro es b h
  rw [bind] at h
  cases h

theorem flat_option {s : Shape} (hs : Flat s) : Flat (.option s) := by
  intro es b h
  rw [bind, if_neg (by simp [Tree.text?])] at h
  cases hb : bind s (.map es) with
  | ok c => exact hs es c hb
  | error x => rw [hb] at h; cases h

theorem flat_list (s : Shape) : Flat (.list s) := by
  intro es b h
  rw [bind] at h
  cases h

/-- A field of one name is spelled in one way. -/
theorem spelledAlike_of_aliases_eq_nil {info : FieldInfo} (h : info.aliases = [])
    (ls hs : List (String × Tree)) : SpelledAlike info ls hs := by
  intro d _ e _ hkd hke
  rw [FieldInfo.names, h, List.mem_singleton] at hkd hke
  rw [hkd, hke]

theorem names_iff {es : List (String × Tree)} {info : FieldInfo} :
    Names es info ↔ ∃ k ∈ info.names, k ∈ Assoc.keys es := by
  constructor
  · rintro ⟨e, he, hk⟩
    exact ⟨e.1, hk, List.mem_map_of_mem he⟩
  · rintro ⟨k, hk, hkey⟩
    obtain ⟨e, he, rfl⟩ := List.mem_map.mp hkey
    exact ⟨e, he, hk⟩

namespace Stacked

variable {strict : Bool} {fields : List (FieldInfo × Shape)} {ls hs : List (String × Tree)}
  {l h : Bound} (s : Stacked strict fields ls hs l h) {f : FieldInfo × Shape} {x : BindError}

include s

theorem nodup_merged : (Assoc.keys (Tree.mergeEntries ls hs)).Nodup :=
  nodup_keys_mergeEntries s.nodup_lower hs

/-- Where a field is named, the upper map replaces what the lower one has under the key. -/
theorem mem_merged_iff (hf : f ∈ fields) {e : String × Tree} (hk : e.1 ∈ f.1.names) :
    e ∈ Tree.mergeEntries ls hs ↔ e ∈ hs ∨ e ∈ ls ∧ e.1 ∉ Assoc.keys hs := by
  have hmem : ∀ {es : List (String × Tree)}, (Assoc.keys es).Nodup →
      (e ∈ es ↔ Assoc.get? e.1 es = some e.2) :=
    fun hnd => ⟨Assoc.get?_of_mem hnd, Assoc.mem_of_get?⟩
  rw [hmem s.nodup_merged, hmem s.nodup_lower, hmem s.nodup_upper,
    Tree.get?_mergeEntries s.nodup_upper, ← Assoc.get?_eq_none_iff]
  cases hget : Assoc.get? e.1 hs with
  | none => simp
  | some u =>
    have hbind := bind_entry_of_bind_ok s.namesApart s.upper hf (Assoc.mem_of_get? hget) hk
    have hleaf : u.isMap = false := by
      cases u with
      | map es => exact absurd hbind (s.flat f hf es _)
      | _ => rfl
    simp [Tree.mergeOnto_of_not_isMap _ hleaf]

theorem mem_keys_of_mem_merged {e : String × Tree} (he : e ∈ Tree.mergeEntries ls hs) :
    e.1 ∈ Assoc.keys ls ∨ e.1 ∈ Assoc.keys hs := by
  by_contra hno
  push Not at hno
  have hget := Assoc.get?_of_mem s.nodup_merged he
  rw [Tree.get?_mergeEntries s.nodup_upper, (Assoc.get?_eq_none_iff _ hs).mpr hno.2,
    (Assoc.get?_eq_none_iff _ ls).mpr hno.1] at hget
  cases hget

/-- Only a field that is spelled in two ways can be wrong with the merged map. -/
theorem mixed_of_fault (hx : Fault strict fields (Tree.mergeEntries ls hs) x) :
    ∃ f ∈ fields, ¬ SpelledAlike f.1 ls hs ∧ x = .duplicateField f.1.name := by
  have hlower {y : BindError} : ¬ Fault strict fields ls y :=
    not_fault_of_bind_ok s.namesApart s.lower
  have hupper {y : BindError} : ¬ Fault strict fields hs y :=
    not_fault_of_bind_ok s.namesApart s.upper
  cases hx with
  | value hf he hk hx =>
    rcases (s.mem_merged_iff hf hk).mp he with he | ⟨he, -⟩
    · exact absurd (.value hf he hk hx) hupper
    · exact absurd (.value hf he hk hx) hlower
  | @twice f hf hlen =>
    refine ⟨f, hf, fun halike => ?_, rfl⟩
    obtain ⟨d, hd, e, he, hkd, hke, hne⟩ := (two_le_length_entriesOf_iff s.nodup_merged).mp hlen
    apply hne
    rcases (s.mem_merged_iff hf hkd).mp hd with hd | ⟨hd, -⟩ <;>
      rcases (s.mem_merged_iff hf hke).mp he with he | ⟨he, -⟩
    · exact key_eq_of_bind_ok s.namesApart s.nodup_upper s.upper hf hd he hkd hke
    · exact (halike e he d hd hke hkd).symm
    · exact halike d hd e he hkd hke
    · exact key_eq_of_bind_ok s.namesApart s.nodup_lower s.lower hf hd he hkd hke
  | unknown hstrict he hk =>
    rcases s.mem_keys_of_mem_merged he with hkey | hkey <;>
      obtain ⟨d, hd, hde⟩ := List.mem_map.mp hkey
    · exact absurd (.unknown hstrict hd (hde ▸ hk)) hlower
    · exact absurd (.unknown hstrict hd (hde ▸ hk)) hupper

theorem mixed_of_bind_error
    (hx : bind (.record strict fields) (.map (Tree.mergeEntries ls hs)) = .error x) :
    ∃ f ∈ fields, ¬ SpelledAlike f.1 ls hs ∧ x = .duplicateField f.1.name := by
  rcases fault_of_bind_error s.namesApart hx with hx | ⟨f, hf, hempty, hfallback, -⟩
  · exact s.mixed_of_fault hx
  · -- what the upper map names stands in the merged map, and what it does not has a fallback
    have hno : ∀ e ∈ hs, e.1 ∉ f.1.names := by
      intro e he hk
      have hmem := mem_entriesOf.mpr ⟨(s.mem_merged_iff hf hk).mpr (.inl he), hk⟩
      rw [hempty] at hmem
      cases hmem
    rw [fallback_of_bind_ok s.namesApart s.upper hf hno] at hfallback
    cases hfallback

theorem field_merged {b : Bound}
    (hb : bind (.record strict fields) (.map (Tree.mergeEntries ls hs)) = .ok b) (hf : f ∈ fields) :
    b.field f.1.name = if Names hs f.1 then h.field f.1.name else l.field f.1.name := by
  split
  · next hup =>
    obtain ⟨e, he, hk⟩ := hup
    have hmem := (s.mem_merged_iff hf hk).mpr (.inl he)
    have hmerged := bind_entry_of_bind_ok s.namesApart hb hf hmem hk
    rw [bind_entry_of_bind_ok s.namesApart s.upper hf he hk] at hmerged
    exact (Except.ok.inj hmerged).symm
  · next hup =>
    by_cases hlow : Names ls f.1
    · obtain ⟨e, he, hk⟩ := hlow
      have hkey : e.1 ∉ Assoc.keys hs := by
        intro hkey
        obtain ⟨d, hd, hde⟩ := List.mem_map.mp hkey
        exact hup ⟨d, hd, hde ▸ hk⟩
      have hmem := (s.mem_merged_iff hf hk).mpr (.inr ⟨he, hkey⟩)
      have hmerged := bind_entry_of_bind_ok s.namesApart hb hf hmem hk
      rw [bind_entry_of_bind_ok s.namesApart s.lower hf he hk] at hmerged
      exact (Except.ok.inj hmerged).symm
    · have hno : ∀ e ∈ Tree.mergeEntries ls hs, e.1 ∉ f.1.names := by
        intro e he hk
        rcases (s.mem_merged_iff hf hk).mp he with he | ⟨he, -⟩
        · exact hup ⟨e, he, hk⟩
        · exact hlow ⟨e, he, hk⟩
      have hmerged := fallback_of_bind_ok s.namesApart hb hf hno
      rw [fallback_of_bind_ok s.namesApart s.lower hf fun e he hk => hlow ⟨e, he, hk⟩] at hmerged
      exact (Option.some.inj hmerged).symm

theorem bind_merged (halike : ∀ f ∈ fields, SpelledAlike f.1 ls hs) :
    ∃ b, bind (.record strict fields) (.map (Tree.mergeEntries ls hs)) = .ok b ∧
      ∀ f ∈ fields, b.field f.1.name =
        if Names hs f.1 then h.field f.1.name else l.field f.1.name := by
  cases hb : bind (.record strict fields) (.map (Tree.mergeEntries ls hs)) with
  | error x =>
    obtain ⟨f, hf, hmixed, -⟩ := s.mixed_of_bind_error hb
    exact absurd (halike f hf) hmixed
  | ok b => exact ⟨b, rfl, fun f hf => s.field_merged hb hf⟩

theorem bind_merged_mixed (hf : f ∈ fields) (hmixed : ¬ SpelledAlike f.1 ls hs) :
    ∃ g ∈ fields, ¬ SpelledAlike g.1 ls hs ∧
      bind (.record strict fields) (.map (Tree.mergeEntries ls hs)) =
        .error (.duplicateField g.1.name) := by
  cases hb : bind (.record strict fields) (.map (Tree.mergeEntries ls hs)) with
  | error x =>
    obtain ⟨g, hg, hmixed, rfl⟩ := s.mixed_of_bind_error hb
    exact ⟨g, hg, hmixed, rfl⟩
  | ok b =>
    -- an entry of each map would stand in the merged one, which binds
    refine absurd (fun d hd e he hkd hke => ?_) hmixed
    by_cases hkey : d.1 ∈ Assoc.keys hs
    · obtain ⟨c, hc, hcd⟩ := List.mem_map.mp hkey
      rw [← hcd]
      exact key_eq_of_bind_ok s.namesApart s.nodup_upper s.upper hf hc he (hcd ▸ hkd) hke
    · exact key_eq_of_bind_ok s.namesApart s.nodup_merged hb hf ((s.mem_merged_iff hf hkd).mpr (.inr ⟨hd, hkey⟩))
        ((s.mem_merged_iff hf hke).mpr (.inl he)) hkd hke

end Stacked

end Binding

end LayeredConfig
