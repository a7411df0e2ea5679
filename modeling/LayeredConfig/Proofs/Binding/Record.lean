import LayeredConfig.Section
import Mathlib.Data.List.Induction
import Mathlib.Data.List.Pairwise

/-!
# What a record takes from a map

A record is bound entry by entry, and keeps what it has bound so far.  Read off the whole map, and
without the order of its entries, that comes to this: the map binds unless something is wrong with
it (`Fault`) — an entry whose value does not bind to its field, a field named twice, a field that is
missing and has no fallback, and in a strict record a key that names no field.

    bind (record strict fields) (map es) = error x  → Fault strict fields es x  (fault_of_bind_error)
    bind (record strict fields) (map es) = ok b     → no Fault at all            (not_fault_of_bind_ok)

and what is bound to a field is its own entry or its fallback:

    e ∈ es names f      → bind f.shape e.2 = ok (b.field f.name)                (bind_entry_of_bind_ok)
    nothing names f     → f.fallback = some (b.field f.name)                  (fallback_of_bind_ok)

The invariant of the loop is `Gathered`: a field is bound so far exactly when one entry has named
it.
-/

namespace LayeredConfig

/-- The names of a field, the leading one first. -/
def FieldInfo.names (info : FieldInfo) : List String := info.name :: info.aliases

namespace Binding

/-- No key names two fields. -/
def NamesApart (fields : List (FieldInfo × Shape)) : Prop :=
  fields.Pairwise fun f g => f.1.names.Disjoint g.1.names

/-- The entries that name a field. -/
def entriesOf (f : FieldInfo × Shape) (es : List (String × Tree)) : List (String × Tree) :=
  es.filter fun e => e.1 ∈ f.1.names

/-- One more entry bound, after the fields that are bound already. -/
def enter (strict : Bool) (fields : List (FieldInfo × Shape)) (acc : Fields) (e : String × Tree) :
    Except BindError Fields :=
  match leadingName? e.1 fields with
  | some name =>
    if (Assoc.get? name acc).isSome then .error (.duplicateField name)
    else do
      let b ← bindField e.1 fields e.2
      return acc ++ [(name, b)]
  | none =>
    if strict then .error (.unknownField e.1 (fields.map fun f => f.1.name))
    else .ok acc

/-- What is wrong with an entry of a map that does not bind to a record. -/
inductive Fault (strict : Bool) (fields : List (FieldInfo × Shape)) (es : List (String × Tree)) :
    BindError → Prop where
  | value {f : FieldInfo × Shape} {e : String × Tree} {x : BindError} (hf : f ∈ fields)
      (he : e ∈ es) (hk : e.1 ∈ f.1.names) (hx : bind f.2 e.2 = .error x) : Fault strict fields es x
  | twice {f : FieldInfo × Shape} (hf : f ∈ fields) (h : 2 ≤ (entriesOf f es).length) :
      Fault strict fields es (.duplicateField f.1.name)
  | unknown {e : String × Tree} (hs : strict = true) (he : e ∈ es)
      (hk : ∀ f ∈ fields, e.1 ∉ f.1.names) :
      Fault strict fields es (.unknownField e.1 (fields.map fun f => f.1.name))

/-- What is bound to a field comes from the one entry that names it. -/
def Gathered (f : FieldInfo × Shape) (es : List (String × Tree)) : Option Bound → Prop
  | none => entriesOf f es = []
  | some b => ∃ e, entriesOf f es = [e] ∧ bind f.2 e.2 = .ok b

/-! ## Lemmas -/

section Names

variable {fields : List (FieldInfo × Shape)} {f g : FieldInfo × Shape} {k : String}

theorem eq_of_mem_names (h : NamesApart fields) (hf : f ∈ fields) (hg : g ∈ fields)
    (hkf : k ∈ f.1.names) (hkg : k ∈ g.1.names) : f = g := by
  by_contra hne
  have hsymm : Std.Symm fun f g : FieldInfo × Shape => f.1.names.Disjoint g.1.names :=
    ⟨fun _ _ hd k hk hk' => hd hk' hk⟩
  exact h.forall hf hg hne hkf hkg

theorem leadingName?_eq_none (h : ∀ f ∈ fields, k ∉ f.1.names) : leadingName? k fields = none := by
  induction fields with
  | nil => rfl
  | cons g fields ih =>
    have hg : ¬ (k = g.1.name ∨ k ∈ g.1.aliases) := fun hk =>
      h g List.mem_cons_self (List.mem_cons.mpr hk)
    rw [leadingName?, if_neg hg]
    exact ih fun f hf => h f (List.mem_cons_of_mem g hf)

theorem leadingName?_of_mem (h : NamesApart fields) (hf : f ∈ fields) (hk : k ∈ f.1.names) :
    leadingName? k fields = some f.1.name ∧ ∀ t, bindField k fields t = bind f.2 t := by
  induction fields with
  | nil => cases hf
  | cons g fields ih =>
    by_cases hkg : k ∈ g.1.names
    · obtain rfl := eq_of_mem_names h hf List.mem_cons_self hk hkg
      have hcond : k = f.1.name ∨ k ∈ f.1.aliases := List.mem_cons.mp hk
      exact ⟨by rw [leadingName?, if_pos hcond], fun t => by rw [bindField, if_pos hcond]⟩
    · have hne : f ≠ g := fun hfg => hkg (hfg ▸ hk)
      have hcond : ¬ (k = g.1.name ∨ k ∈ g.1.aliases) := fun hor => hkg (List.mem_cons.mpr hor)
      obtain ⟨hlead, hbind⟩ := ih h.of_cons (List.mem_of_ne_of_mem hne hf)
      exact ⟨by rw [leadingName?, if_neg hcond, hlead],
        fun t => by rw [bindField, if_neg hcond, hbind]⟩

end Names

/-! ### The entries of a field -/

section Entries

variable {f : FieldInfo × Shape} {es : List (String × Tree)} {e : String × Tree}

theorem mem_entriesOf : e ∈ entriesOf f es ↔ e ∈ es ∧ e.1 ∈ f.1.names := by
  rw [entriesOf, List.mem_filter, decide_eq_true_iff]

theorem entriesOf_append_of_mem (hk : e.1 ∈ f.1.names) :
    entriesOf f (es ++ [e]) = entriesOf f es ++ [e] := by
  simp [entriesOf, List.filter_append, hk]

theorem entriesOf_append_of_not_mem (hk : e.1 ∉ f.1.names) :
    entriesOf f (es ++ [e]) = entriesOf f es := by
  simp [entriesOf, List.filter_append, hk]

/-- In a map with distinct keys, a field that is named twice is named by two keys. -/
theorem two_le_length_entriesOf_iff (h : (Assoc.keys es).Nodup) :
    2 ≤ (entriesOf f es).length ↔
      ∃ d ∈ es, ∃ e ∈ es, d.1 ∈ f.1.names ∧ e.1 ∈ f.1.names ∧ d.1 ≠ e.1 := by
  constructor
  · intro hlen
    obtain ⟨d, e, rest, hrest⟩ : ∃ d e rest, entriesOf f es = d :: e :: rest := by
      match entriesOf f es, hlen with
      | d :: e :: rest, _ => exact ⟨d, e, rest, rfl⟩
    have hd : d ∈ entriesOf f es := by simp [hrest]
    have he : e ∈ entriesOf f es := by simp [hrest]
    have hnd : ((entriesOf f es).map Prod.fst).Nodup := h.sublist (List.filter_sublist.map _)
    rw [hrest, List.map_cons, List.nodup_cons] at hnd
    refine ⟨d, (mem_entriesOf.mp hd).1, e, (mem_entriesOf.mp he).1, (mem_entriesOf.mp hd).2,
      (mem_entriesOf.mp he).2, fun hde => hnd.1 ?_⟩
    rw [hde]
    exact List.mem_map_of_mem List.mem_cons_self
  · rintro ⟨d, hd, e, he, hkd, hke, hne⟩
    have hd : d ∈ entriesOf f es := mem_entriesOf.mpr ⟨hd, hkd⟩
    have he : e ∈ entriesOf f es := mem_entriesOf.mpr ⟨he, hke⟩
    match hf : entriesOf f es with
    | [] => rw [hf] at hd; cases hd
    | [c] =>
      rw [hf, List.mem_singleton] at hd he
      exact absurd (by rw [hd, he]) hne
    | _ :: _ :: _ => simp

end Entries

namespace Gathered

variable {f : FieldInfo × Shape} {es : List (String × Tree)} {e : String × Tree} {o : Option Bound}

theorem bind_entry (h : Gathered f es o) (he : e ∈ es) (hk : e.1 ∈ f.1.names) :
    ∃ b, o = some b ∧ bind f.2 e.2 = .ok b := by
  have hmem : e ∈ entriesOf f es := mem_entriesOf.mpr ⟨he, hk⟩
  cases o with
  | none =>
    have hempty : entriesOf f es = [] := h
    rw [hempty] at hmem
    cases hmem
  | some b =>
    obtain ⟨d, hd, hb⟩ := h
    rw [hd, List.mem_singleton] at hmem
    exact ⟨b, rfl, hmem ▸ hb⟩

theorem eq_none (h : Gathered f es o) (hno : ∀ e ∈ es, e.1 ∉ f.1.names) : o = none := by
  cases o with
  | none => rfl
  | some b =>
    obtain ⟨d, hd, -⟩ := h
    have hmem : d ∈ entriesOf f es := by rw [hd]; exact List.mem_singleton_self d
    exact absurd (mem_entriesOf.mp hmem).2 (hno d (mem_entriesOf.mp hmem).1)

theorem length_le (h : Gathered f es o) : (entriesOf f es).length ≤ 1 := by
  cases o with
  | none =>
    have hempty : entriesOf f es = [] := h
    simp [hempty]
  | some b =>
    obtain ⟨d, hd, -⟩ := h
    simp [hd]

end Gathered

/-! ### One entry -/

section Enter

variable {strict : Bool} {fields : List (FieldInfo × Shape)} {f : FieldInfo × Shape}
  {es : List (String × Tree)} {e : String × Tree} {acc acc' : Fields} {x : BindError}

theorem enter_of_mem (h : NamesApart fields) (hf : f ∈ fields) (hk : e.1 ∈ f.1.names) :
    enter strict fields acc e =
      if (Assoc.get? f.1.name acc).isSome then .error (.duplicateField f.1.name)
      else (bind f.2 e.2).map fun b => acc ++ [(f.1.name, b)] := by
  obtain ⟨hlead, hbind⟩ := leadingName?_of_mem h hf hk
  rw [enter, hlead, hbind]
  rfl

theorem enter_of_unknown (hk : ∀ f ∈ fields, e.1 ∉ f.1.names) :
    enter strict fields acc e =
      if strict then .error (.unknownField e.1 (fields.map fun f => f.1.name)) else .ok acc := by
  rw [enter, leadingName?_eq_none hk]

/-- The invariant through one entry. -/
theorem gathered_enter (h : NamesApart fields)
    (hacc : ∀ f ∈ fields, Gathered f es (Assoc.get? f.1.name acc))
    (he : enter strict fields acc e = .ok acc') :
    ∀ f ∈ fields, Gathered f (es ++ [e]) (Assoc.get? f.1.name acc') := by
  intro f hf
  by_cases hknown : ∃ g ∈ fields, e.1 ∈ g.1.names
  · obtain ⟨g, hg, hkg⟩ := hknown
    rw [enter_of_mem h hg hkg] at he
    split at he
    · cases he
    · next hnew =>
      have hnone : Assoc.get? g.1.name acc = none := by simpa using hnew
      cases hb : bind g.2 e.2 with
      | error x => rw [hb] at he; cases he
      | ok b =>
        rw [hb] at he
        obtain rfl := Except.ok.inj he
        rw [Assoc.get?_append]
        by_cases hk : e.1 ∈ f.1.names
        · obtain rfl := eq_of_mem_names h hf hg hk hkg
          have hempty : entriesOf f es = [] := by
            have := hacc f hf
            rwa [hnone] at this
          rw [hnone, Option.none_or, Assoc.get?, if_pos rfl]
          exact ⟨e, by rw [entriesOf_append_of_mem hk, hempty, List.nil_append], hb⟩
        · -- another field, so another leading name
          have hne : g.1.name ≠ f.1.name := by
            intro hname
            have hfg := eq_of_mem_names h hf hg List.mem_cons_self
              (hname ▸ List.mem_cons_self : f.1.name ∈ g.1.names)
            exact hk (hfg ▸ hkg)
          have hget : Assoc.get? f.1.name [(g.1.name, b)] = none := by
            rw [Assoc.get?, if_neg hne, Assoc.get?]
          rw [hget, Option.or_none]
          unfold Gathered
          rw [entriesOf_append_of_not_mem hk]
          exact hacc f hf
  · have hunknown : ∀ f ∈ fields, e.1 ∉ f.1.names := fun g hg hkg => hknown ⟨g, hg, hkg⟩
    rw [enter_of_unknown hunknown] at he
    split at he
    · cases he
    · obtain rfl := Except.ok.inj he
      unfold Gathered
      rw [entriesOf_append_of_not_mem (hunknown f hf)]
      exact hacc f hf

/-- An entry that is not taken is at fault. -/
theorem fault_of_enter (h : NamesApart fields)
    (hacc : ∀ f ∈ fields, Gathered f es (Assoc.get? f.1.name acc))
    (he : enter strict fields acc e = .error x) : Fault strict fields (es ++ [e]) x := by
  have hmem : e ∈ es ++ [e] := by simp
  by_cases hknown : ∃ f ∈ fields, e.1 ∈ f.1.names
  · obtain ⟨f, hf, hk⟩ := hknown
    rw [enter_of_mem h hf hk] at he
    split at he
    · next hold =>
      obtain rfl := Except.error.inj he
      obtain ⟨b, hb⟩ := Option.isSome_iff_exists.mp hold
      have hone := hacc f hf
      rw [hb] at hone
      obtain ⟨d, hd, -⟩ := hone
      exact .twice hf (by simp [entriesOf_append_of_mem hk, hd])
    · cases hb : bind f.2 e.2 with
      | error y =>
        rw [hb] at he
        obtain rfl := Except.error.inj he
        exact .value hf hmem hk hb
      | ok b => rw [hb] at he; cases he
  · have hunknown : ∀ f ∈ fields, e.1 ∉ f.1.names := fun f hf hk => hknown ⟨f, hf, hk⟩
    rw [enter_of_unknown hunknown] at he
    split at he
    · next hstrict =>
      obtain rfl := Except.error.inj he
      exact .unknown hstrict hmem hunknown
    · cases he

end Enter

/-! ### All entries -/

section Loop

variable {strict : Bool} {fields : List (FieldInfo × Shape)} {es : List (String × Tree)}
  {acc : Fields} {x : BindError}

theorem foldlM_enter_append (e : String × Tree) :
    (es ++ [e]).foldlM (enter strict fields) acc =
      match es.foldlM (enter strict fields) acc with
      | .ok acc' => enter strict fields acc' e
      | .error x => .error x := by
  rw [List.foldlM_append]
  cases es.foldlM (enter strict fields) acc with
  | error x => rfl
  | ok acc' =>
    show [e].foldlM (enter strict fields) acc' = enter strict fields acc' e
    rw [List.foldlM_cons]
    cases enter strict fields acc' e <;> rfl

/-- What the loop has bound, it has bound from the one entry of each field. -/
theorem gathered_of_foldlM (h : NamesApart fields)
    (hes : es.foldlM (enter strict fields) [] = .ok acc) :
    ∀ f ∈ fields, Gathered f es (Assoc.get? f.1.name acc) := by
  induction es using List.reverseRecOn generalizing acc with
  | nil =>
    obtain rfl := Except.ok.inj hes
    exact fun f _ => rfl
  | append_singleton es e ih =>
    rw [foldlM_enter_append] at hes
    cases hprev : es.foldlM (enter strict fields) [] with
    | error x => rw [hprev] at hes; cases hes
    | ok acc' =>
      rw [hprev] at hes
      exact gathered_enter h (ih hprev) hes

theorem known_of_foldlM (hes : es.foldlM (enter strict fields) [] = .ok acc)
    (hstrict : strict = true) : ∀ e ∈ es, ∃ f ∈ fields, e.1 ∈ f.1.names := by
  induction es using List.reverseRecOn generalizing acc with
  | nil => exact fun e he => absurd he List.not_mem_nil
  | append_singleton es d ih =>
    rw [foldlM_enter_append] at hes
    cases hprev : es.foldlM (enter strict fields) [] with
    | error x => rw [hprev] at hes; cases hes
    | ok acc' =>
      rw [hprev] at hes
      intro e he
      rcases List.mem_append.mp he with he | he
      · exact ih hprev e he
      · obtain rfl := List.mem_singleton.mp he
        by_contra hunknown
        push Not at hunknown
        dsimp only at hes
        rw [enter_of_unknown hunknown, if_pos hstrict] at hes
        cases hes

theorem Fault.append (hx : Fault strict fields es x) (e : String × Tree) :
    Fault strict fields (es ++ [e]) x := by
  cases hx with
  | value hf he hk hx => exact .value hf (List.mem_append_left _ he) hk hx
  | @twice f hf hlen =>
    have hle : (entriesOf f es).length ≤ (entriesOf f (es ++ [e])).length :=
      ((List.sublist_append_left es [e]).filter _).length_le
    exact .twice hf (Nat.le_trans hlen hle)
  | unknown hs he hk => exact .unknown hs (List.mem_append_left _ he) hk

theorem fault_of_foldlM (h : NamesApart fields)
    (hes : es.foldlM (enter strict fields) [] = .error x) : Fault strict fields es x := by
  induction es using List.reverseRecOn with
  | nil => cases hes
  | append_singleton es e ih =>
    rw [foldlM_enter_append] at hes
    cases hprev : es.foldlM (enter strict fields) [] with
    | error y =>
      rw [hprev] at hes
      obtain rfl := Except.error.inj hes
      exact (ih hprev).append e
    | ok acc =>
      rw [hprev] at hes
      exact fault_of_enter h (gathered_of_foldlM h hprev) hes

theorem not_fault_of_foldlM (h : NamesApart fields)
    (hes : es.foldlM (enter strict fields) [] = .ok acc) : ¬ Fault strict fields es x := by
  intro hx
  have hall := gathered_of_foldlM h hes
  cases hx with
  | value hf he hk hx =>
    obtain ⟨b, -, hb⟩ := (hall _ hf).bind_entry he hk
    rw [hb] at hx
    cases hx
  | twice hf hlen =>
    have hle := (hall _ hf).length_le
    omega
  | unknown hs he hk =>
    obtain ⟨f, hf, hkf⟩ := known_of_foldlM hes hs _ he
    exact hk f hf hkf

end Loop

/-! ### Fallbacks -/

section Complete

variable {fields : List (FieldInfo × Shape)} {acc vs : Fields} {x : BindError}

theorem get?_of_complete (h : NamesApart fields) (hc : complete acc fields = .ok vs) :
    ∀ f ∈ fields, ∃ b, (Assoc.get? f.1.name acc).or f.1.fallback = some b ∧
      Assoc.get? f.1.name vs = some b := by
  induction fields generalizing vs with
  | nil => exact fun f hf => absurd hf List.not_mem_nil
  | cons g fields ih =>
    rw [complete] at hc
    split at hc
    · cases hc
    · next b hb =>
      cases hrest : complete acc fields with
      | error x => rw [hrest] at hc; cases hc
      | ok us =>
        rw [hrest] at hc
        obtain rfl := Except.ok.inj hc
        intro f hf
        rcases List.mem_cons.mp hf with rfl | hf
        · exact ⟨b, hb, by rw [Assoc.get?, if_pos rfl]⟩
        · have hne : g.1.name ≠ f.1.name := fun hname =>
            (List.pairwise_cons.mp h).1 f hf (List.mem_cons_self : g.1.name ∈ g.1.names)
              (hname ▸ List.mem_cons_self : g.1.name ∈ f.1.names)
          rw [Assoc.get?, if_neg hne]
          exact ih h.of_cons hrest f hf

theorem missing_of_complete (hc : complete acc fields = .error x) :
    ∃ f ∈ fields, Assoc.get? f.1.name acc = none ∧ f.1.fallback = none ∧
      x = .missingField f.1.name := by
  induction fields with
  | nil => cases hc
  | cons f fields ih =>
    rw [complete] at hc
    split at hc
    · next hnone =>
      obtain ⟨hacc, hfallback⟩ := Option.or_eq_none_iff.mp hnone
      exact ⟨f, List.mem_cons_self, hacc, hfallback, (Except.error.inj hc).symm⟩
    · cases hrest : complete acc fields with
      | error y =>
        rw [hrest] at hc
        obtain rfl := Except.error.inj hc
        obtain ⟨g, hg, hmissing⟩ := ih hrest
        exact ⟨g, List.mem_cons_of_mem f hg, hmissing⟩
      | ok vs => rw [hrest] at hc; cases hc

end Complete

/-! ### The whole record -/

section Record

variable {strict : Bool} {fields : List (FieldInfo × Shape)} {es : List (String × Tree)}
  {f : FieldInfo × Shape} {e : String × Tree} {b : Bound} {x : BindError}

theorem bind_record_map (strict : Bool) (fields : List (FieldInfo × Shape))
    (es : List (String × Tree)) : bind (.record strict fields) (.map es) =
      match es.foldlM (enter strict fields) [] with
      | .ok acc => (complete acc fields).map Bound.record
      | .error x => .error x := by
  rw [bind]
  show (es.foldlM (enter strict fields) [] >>= fun acc => _) = _
  cases es.foldlM (enter strict fields) [] <;> rfl

theorem exists_of_bind_ok (h : bind (.record strict fields) (.map es) = .ok b) :
    ∃ acc vs, es.foldlM (enter strict fields) [] = .ok acc ∧ complete acc fields = .ok vs ∧
      b = .record vs := by
  rw [bind_record_map] at h
  cases hes : es.foldlM (enter strict fields) [] with
  | error x => rw [hes] at h; cases h
  | ok acc =>
    rw [hes] at h
    dsimp only at h
    cases hc : complete acc fields with
    | error x => rw [hc] at h; cases h
    | ok vs =>
      rw [hc] at h
      exact ⟨acc, vs, rfl, hc, (Except.ok.inj h).symm⟩

theorem fault_of_bind_error (h : NamesApart fields)
    (hb : bind (.record strict fields) (.map es) = .error x) :
    Fault strict fields es x ∨
      ∃ f ∈ fields, entriesOf f es = [] ∧ f.1.fallback = none ∧ x = .missingField f.1.name := by
  rw [bind_record_map] at hb
  cases hes : es.foldlM (enter strict fields) [] with
  | error y =>
    rw [hes] at hb
    obtain rfl := Except.error.inj hb
    exact .inl (fault_of_foldlM h hes)
  | ok acc =>
    rw [hes] at hb
    dsimp only at hb
    cases hc : complete acc fields with
    | ok vs => rw [hc] at hb; cases hb
    | error y =>
      rw [hc] at hb
      obtain rfl := Except.error.inj hb
      obtain ⟨f, hf, hnone, hfallback, hy⟩ := missing_of_complete hc
      have hempty := gathered_of_foldlM h hes f hf
      rw [hnone] at hempty
      exact .inr ⟨f, hf, hempty, hfallback, hy⟩

theorem not_fault_of_bind_ok (h : NamesApart fields)
    (hb : bind (.record strict fields) (.map es) = .ok b) : ¬ Fault strict fields es x := by
  obtain ⟨acc, vs, hes, -, -⟩ := exists_of_bind_ok hb
  exact not_fault_of_foldlM h hes

theorem bind_entry_of_bind_ok (h : NamesApart fields)
    (hb : bind (.record strict fields) (.map es) = .ok b) (hf : f ∈ fields) (he : e ∈ es)
    (hk : e.1 ∈ f.1.names) : bind f.2 e.2 = .ok (b.field f.1.name) := by
  obtain ⟨acc, vs, hes, hc, rfl⟩ := exists_of_bind_ok hb
  obtain ⟨u, hu, hbu⟩ := (gathered_of_foldlM h hes f hf).bind_entry he hk
  obtain ⟨v, hv, hget⟩ := get?_of_complete h hc f hf
  rw [hu, Option.some_or] at hv
  obtain rfl := Option.some.inj hv
  rw [hbu, Bound.field, hget]
  rfl

theorem fallback_of_bind_ok (h : NamesApart fields)
    (hb : bind (.record strict fields) (.map es) = .ok b) (hf : f ∈ fields)
    (hno : ∀ e ∈ es, e.1 ∉ f.1.names) : f.1.fallback = some (b.field f.1.name) := by
  obtain ⟨acc, vs, hes, hc, rfl⟩ := exists_of_bind_ok hb
  obtain ⟨v, hv, hget⟩ := get?_of_complete h hc f hf
  rw [(gathered_of_foldlM h hes f hf).eq_none hno, Option.none_or] at hv
  rw [hv, Bound.field, hget]
  rfl

/-- A map that binds names no field by two keys. -/
theorem key_eq_of_bind_ok (h : NamesApart fields) (hnd : (Assoc.keys es).Nodup)
    (hb : bind (.record strict fields) (.map es) = .ok b) (hf : f ∈ fields) {d : String × Tree}
    (hd : d ∈ es) (he : e ∈ es) (hkd : d.1 ∈ f.1.names) (hke : e.1 ∈ f.1.names) : d.1 = e.1 := by
  by_contra hne
  have hlen := (two_le_length_entriesOf_iff hnd).mpr ⟨d, hd, e, he, hkd, hke, hne⟩
  exact not_fault_of_bind_ok h hb (.twice hf hlen)

end Record

end Binding

end LayeredConfig
