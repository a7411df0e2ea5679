import LayeredConfig.Processing
import LayeredConfig.Proofs.Tree.Overlay
import Mathlib.Data.List.Basic

/-!
# Processing leaves clean trees, and clean trees alone

The removal pass takes out every marker, so the profile pass sees only keys without a hyphen in
front; what it leaves of a key has no decoration and is what the key starts with, so no marker comes
to light.

    P.process t is clean, and no map of it names a key twice    (clean_process, distinct_process)
    P.process t = t ↔ t is clean and names no key twice         (process_eq_self_iff)

Laying clean trees over each other gives a clean tree (`clean_mergeAll`), so a merged view of
processed trees is a fixed point of processing under any profiles.
-/

namespace LayeredConfig

open LayeredConfig.Tree

/-! ## Processing -/

theorem removalTarget?_eq_none_of_not_mem_doomed {key : String} {keys : List String}
    (hk : key ∈ keys) (h : key ∉ doomed keys) : removalTarget? key = none := by
  cases ht : removalTarget? key with
  | none => rfl
  | some target => exact absurd (mem_doomed_of_removalTarget? hk ht) h

/-- A key without a hyphen in front survives the profiles, if at all, under a plain name. -/
theorem plainKey_of_resolve? {P : ProfileSet} {key name : String}
    (hkey : removalTarget? key = none) (h : P.resolve? key = some name) : PlainKey name := by
  obtain ⟨letters, hletters, rfl⟩ := Option.map_eq_some_iff.mp h
  obtain ⟨hplain, ⟨rest, hrest⟩, -⟩ := ProfileSet.resolveLetters_eq_some hletters
  rw [PlainKey, removalTarget?_eq_none_iff, String.toList_ofList]
  refine ⟨fun hhead => ?_, hplain⟩
  rw [removalTarget?_eq_none_iff] at hkey
  apply hkey
  rw [← hrest, List.head?_append, hhead]
  rfl

/-- Where an entry of a processed map comes from. -/
theorem mem_select_removeMarked {P : ProfileSet} {es fs : List (String × Tree)}
    (h : P.process (map es) = map fs) {f : String × Tree} (hf : f ∈ fs) :
    ∃ e ∈ es, removalTarget? e.1 = none ∧ P.resolve? e.1 = some f.1 ∧ f.2 = P.process e.2 := by
  rw [ProfileSet.process, removeMarked_map, ProfileSet.select_map] at h
  obtain rfl := map.inj h
  obtain ⟨d, hd, hdf⟩ := List.mem_filterMap.mp (Assoc.mem_of_mem_ofList hf)
  obtain ⟨e, he, rfl⟩ := List.mem_map.mp hd
  obtain ⟨name, hname, rfl⟩ := Option.map_eq_some_iff.mp hdf
  obtain ⟨hes, hgone⟩ := List.mem_filter.mp he
  have hgone : e.1 ∉ doomed (Assoc.keys es) := by simpa using hgone
  have hmem : e.1 ∈ Assoc.keys es := List.mem_map_of_mem hes
  exact ⟨e, hes, removalTarget?_eq_none_of_not_mem_doomed hmem hgone, hname, rfl⟩

theorem process_value (P : ProfileSet) (s : String) : P.process (value s) = value s := by
  rw [ProfileSet.process, removeMarked, ProfileSet.select]

theorem process_array (P : ProfileSet) (ts : List Tree) :
    P.process (array ts) = array (ts.map P.process) := by
  rw [ProfileSet.process, removeMarked_array, ProfileSet.select_array, List.map_map]
  rfl

theorem exists_process_map (P : ProfileSet) (es : List (String × Tree)) :
    ∃ fs, P.process (map es) = map fs ∧ (Assoc.keys fs).Nodup := by
  rw [ProfileSet.process, removeMarked_map, ProfileSet.select_map]
  exact ⟨_, rfl, Assoc.nodup_keys_ofList _⟩

theorem isMap_process (P : ProfileSet) {t : Tree} (h : t.isMap = true) :
    (P.process t).isMap = true := by
  cases t with
  | map es =>
    obtain ⟨fs, hfs, -⟩ := exists_process_map P es
    rw [hfs]
    rfl
  | _ => cases h

theorem clean_process (P : ProfileSet) (t : Tree) : (P.process t).Clean := by
  induction t using Tree.induction with
  | value s =>
    rw [process_value]
    trivial
  | array ts ih =>
    rw [process_array, clean_array_iff]
    intro u hu
    obtain ⟨t, ht, rfl⟩ := List.mem_map.mp hu
    exact ih t ht
  | map es ih =>
    obtain ⟨fs, hfs, -⟩ := exists_process_map P es
    rw [hfs, clean_map_iff]
    intro f hf
    obtain ⟨e, he, hmarker, hname, hchild⟩ := mem_select_removeMarked hfs hf
    rw [hchild]
    exact ⟨plainKey_of_resolve? hmarker hname, ih e he⟩

theorem distinct_process (P : ProfileSet) (t : Tree) : (P.process t).Distinct := by
  induction t using Tree.induction with
  | value s =>
    rw [process_value]
    trivial
  | array ts ih =>
    rw [process_array, distinct_array_iff]
    intro u hu
    obtain ⟨t, ht, rfl⟩ := List.mem_map.mp hu
    exact ih t ht
  | map es ih =>
    obtain ⟨fs, hfs, hnd⟩ := exists_process_map P es
    rw [hfs, distinct_map_iff]
    refine ⟨hnd, ?_⟩
    intro f hf
    obtain ⟨e, he, -, -, hchild⟩ := mem_select_removeMarked hfs hf
    rw [hchild]
    exact ih e he

/-! ## Clean trees stay as they are -/

theorem resolve?_of_plainKey (P : ProfileSet) {key : String} (h : PlainKey key) :
    P.resolve? key = some key := by
  rw [ProfileSet.resolve?, ProfileSet.resolveLetters_of_plain P h.2, Option.map_some,
    String.ofList_toList]

theorem removeMarked_of_clean {t : Tree} (h : t.Clean) : t.removeMarked = t := by
  induction t using Tree.induction with
  | value s => rw [removeMarked]
  | array ts ih =>
    rw [clean_array_iff] at h
    rw [removeMarked_array, List.map_congr_left fun t ht => ih t ht (h t ht), List.map_id']
  | map es ih =>
    rw [clean_map_iff] at h
    have hgone : doomed (Assoc.keys es) = [] := by
      apply doomed_eq_nil
      intro k hk
      obtain ⟨e, he, rfl⟩ := List.mem_map.mp hk
      exact (h e he).1.1
    have hentry : ∀ e ∈ es, (e.1, e.2.removeMarked) = id e := by
      intro e he
      rw [ih e he (h e he).2]
      rfl
    rw [removeMarked_map, hgone, List.filter_eq_self.mpr (by simp), List.map_congr_left hentry,
      List.map_id]

theorem select_of_clean (P : ProfileSet) {t : Tree} (h : t.Clean) (hd : t.Distinct) :
    P.select t = t := by
  induction t using Tree.induction with
  | value s => rw [ProfileSet.select]
  | array ts ih =>
    rw [clean_array_iff] at h
    rw [distinct_array_iff] at hd
    rw [ProfileSet.select_array, List.map_congr_left fun t ht => ih t ht (h t ht) (hd t ht),
      List.map_id']
  | map es ih =>
    rw [clean_map_iff] at h
    rw [distinct_map_iff] at hd
    have hentry : ∀ e ∈ es,
        ((P.resolve? e.1).map fun name => (name, P.select e.2)) = some e := by
      intro e he
      rw [resolve?_of_plainKey P (h e he).1, ih e he (h e he).2 (hd.2 e he)]
      rfl
    rw [ProfileSet.select_map, List.filterMap_congr hentry, List.filterMap_some,
      Assoc.ofList_eq_self hd.1]

theorem process_of_clean (P : ProfileSet) {t : Tree} (h : t.Clean) (hd : t.Distinct) :
    P.process t = t := by
  rw [ProfileSet.process, removeMarked_of_clean h, select_of_clean P h hd]

theorem process_eq_self_iff (P : ProfileSet) (t : Tree) :
    P.process t = t ↔ t.Clean ∧ t.Distinct := by
  constructor
  · intro h
    rw [← h]
    exact ⟨clean_process P t, distinct_process P t⟩
  · rintro ⟨hc, hd⟩
    exact process_of_clean P hc hd

/-! ## Merged views -/

/-- What holds of the entries on both sides of a merge, and of the merge of two children, holds of
the merged entries. -/
theorem forall_mem_mergeEntries {p : String × Tree → Prop} {es fs : List (String × Tree)}
    (hes : ∀ e ∈ es, p e) (hfs : ∀ f ∈ fs, p f)
    (hmerge : ∀ f ∈ fs, ∀ t, p (f.1, t) → p (f.1, t.merge f.2)) :
    ∀ e ∈ mergeEntries es fs, p e := by
  induction fs generalizing es with
  | nil => exact hes
  | cons f fs ih =>
    rw [List.forall_mem_cons] at hfs hmerge
    rw [mergeEntries_cons]
    apply ih _ hfs.2 hmerge.2
    intro e he
    rcases Assoc.mem_insert he with rfl | he
    · cases hf : Assoc.get? f.1 es with
      | none => exact hfs.1
      | some t => exact hmerge.1 t (hes _ (Assoc.mem_of_get? hf))
    · exact hes e he

theorem nodup_keys_mergeEntries {es : List (String × Tree)} (h : (Assoc.keys es).Nodup)
    (fs : List (String × Tree)) : (Assoc.keys (mergeEntries es fs)).Nodup := by
  induction fs generalizing es with
  | nil => exact h
  | cons f fs ih =>
    rw [mergeEntries_cons]
    exact ih (Assoc.nodup_keys_insert _ _ h)

theorem clean_merge {t u : Tree} (ht : t.Clean) (hu : u.Clean) : (t.merge u).Clean := by
  induction u using Tree.induction generalizing t with
  | value s => rwa [merge_value]
  | array us _ => rwa [merge_array]
  | map fs ih =>
    by_cases hmap : t.isMap = true
    · obtain ⟨es, rfl⟩ := eq_map_of_isMap hmap
      rw [clean_map_iff] at ht hu
      rw [merge_map_map, clean_map_iff]
      apply forall_mem_mergeEntries ht hu
      intro f hf t ht
      exact ⟨ht.1, ih f hf ht.2 (hu f hf).2⟩
    · rwa [merge_of_lower_not_isMap (by simpa using hmap)]

theorem distinct_merge {t u : Tree} (ht : t.Distinct) (hu : u.Distinct) :
    (t.merge u).Distinct := by
  induction u using Tree.induction generalizing t with
  | value s => rwa [merge_value]
  | array us _ => rwa [merge_array]
  | map fs ih =>
    by_cases hmap : t.isMap = true
    · obtain ⟨es, rfl⟩ := eq_map_of_isMap hmap
      rw [distinct_map_iff] at ht hu
      rw [merge_map_map, distinct_map_iff]
      refine ⟨nodup_keys_mergeEntries ht.1 fs, ?_⟩
      apply forall_mem_mergeEntries ht.2 hu.2
      intro f hf t ht
      exact ih f hf ht (hu.2 f hf)
    · rwa [merge_of_lower_not_isMap (by simpa using hmap)]

theorem clean_mergeAll {ts : List Tree} (h : ∀ t ∈ ts, t.Clean) : (mergeAll ts).Clean := by
  induction ts using List.reverseRecOn with
  | nil => exact clean_map_iff.mpr (by simp)
  | append_singleton ts t ih =>
    rw [mergeAll_append]
    exact clean_merge (ih fun u hu => h u (List.mem_append_left _ hu)) (h t (by simp))

theorem distinct_mergeAll {ts : List Tree} (h : ∀ t ∈ ts, t.Distinct) :
    (mergeAll ts).Distinct := by
  induction ts using List.reverseRecOn with
  | nil => exact distinct_map_iff.mpr (by simp)
  | append_singleton ts t ih =>
    rw [mergeAll_append]
    exact distinct_merge (ih fun u hu => h u (List.mem_append_left _ hu)) (h t (by simp))

end LayeredConfig
