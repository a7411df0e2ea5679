import LayeredConfig.Proofs.Binding.CommaList
import LayeredConfig.Proofs.Decimal.Integer

/-!
# Integers

A text binds to an integer when the letters between its blanks are written as one and the integer
fits its kind; every other text is refused.  Nothing is wrapped and nothing is cut off.

    bind (int k) (value text) = ok b  ↔ b is an integer that fits k, and text is written as it
                                                                              (bind_int_ok_iff)
    no such integer  → bind (int k) (value text) = error (unparsable text k.name)
                                                                              (bind_int_of_not)

A text reaches the reader as a value, as an item of an array, as a part of a comma list and as a key
of a map.  On all four ways the decimal text of an integer that fits, with blanks around it, gives
the integer back (`Shows.bind_eq`, `bind_array_of_shows`, `bind_joined_of_fits`,
`mapM_entries_of_shows`).
-/

namespace LayeredConfig

namespace Binding

open Decimal (IntKind)

/-- The text is the decimal text of an integer of the kind, with any blanks around it. -/
structure Shows (k : IntKind) (text : String) (n : Int) : Prop where
  fits : k.Fits n
  padded : Padded (toString n) text.toList

/-- The key of an entry is such a text, and its value binds. -/
def ShowsKey (k : IntKind) (v : Shape) (e : String × Tree) (b : Bound × Bound) : Prop :=
  ∃ n, Shows k e.1 n ∧ b.1 = .int n ∧ bind v e.2 = .ok b.2

/-! ## Lemmas -/

section Value

variable {k : IntKind} {n : Int} {text : String}

theorem bind_int_ok_iff {b : Bound} : bind (.int k) (.value text) = .ok b ↔
    ∃ n, b = .int n ∧ k.Written (Text.trim text.toList) n ∧ k.Fits n := by
  rw [bind_int_value]
  constructor
  · intro h
    split at h
    · next n hn => exact ⟨n, (Except.ok.inj h).symm, IntKind.read?_eq_some_iff.mp hn⟩
    · cases h
  · rintro ⟨n, rfl, hn⟩
    rw [IntKind.read?_eq_some_iff.mpr hn]

theorem bind_int_of_not (h : ¬ ∃ n, k.Written (Text.trim text.toList) n ∧ k.Fits n) :
    bind (.int k) (.value text) = .error (.unparsable text k.name) := by
  rw [bind_int_value]
  split
  · next n hn => exact absurd ⟨n, IntKind.read?_eq_some_iff.mp hn⟩ h
  · rfl

/-! ### Decimal text -/

theorem not_blank_of_isDigit {c : Char} (h : c.isDigit = true) : Text.isBlank c = false := by
  have htrim := Text.trim_digits (List.forall_mem_singleton.mpr h)
  exact Text.head?_trim [c] c (by rw [htrim]; rfl)

/-- No letter of an integer is a blank or a comma. -/
theorem plain_toString (h : k.Fits n) : Plain (toString n) := by
  have hletters : ∀ c ∈ (toString n).toList, Text.isBlank c = false ∧ c ≠ ',' := by
    intro c hc
    rcases (IntKind.written_toString h).mem hc with rfl | rfl | hdigit
    · decide
    · decide
    · refine ⟨not_blank_of_isDigit hdigit, ?_⟩
      rintro rfl
      cases hdigit
  have htrim : Text.trim (toString n).toList = (toString n).toList :=
    Text.trim_eq_self (fun c hc => (hletters c (List.mem_of_mem_head? hc)).1)
      fun c hc => (hletters c (List.mem_of_mem_getLast? hc)).1
  refine ⟨fun hc => (hletters ',' hc).2 rfl, ?_⟩
  rw [Text.trimmed, htrim, String.ofList_toList]

theorem Shows.bind_eq (h : Shows k text n) : bind (.int k) (.value text) = .ok (.int n) := by
  have htrim : Text.trim (toString n).toList = (toString n).toList :=
    String.ofList_injective ((plain_toString h.fits).2.trans String.ofList_toList.symm)
  have hwritten : k.Written (Text.trim text.toList) n := by
    rw [h.padded.trim, htrim]
    exact IntKind.written_toString h.fits
  exact bind_int_ok_iff.mpr ⟨n, rfl, hwritten, h.fits⟩

end Value

/-! ### Items, parts and keys -/

section Several

variable {k : IntKind} {texts : List String} {ns : List Int}

theorem bind_array_of_shows (h : List.Forall₂ (Shows k) texts ns) :
    bind (.list (.int k)) (.array (texts.map .value)) = .ok (.list (ns.map .int)) := by
  have hitems : ((texts.map Tree.value).mapM fun t => bind (.int k) t) = .ok (ns.map .int) := by
    rw [mapM_eq_ok_iff, List.forall₂_map_left_iff, List.forall₂_map_right_iff]
    exact h.imp fun _ _ hshows => hshows.bind_eq
  rw [bind_list_array, hitems]
  rfl

/-- The decimal texts themselves show the integers. -/
theorem shows_toString (h : ∀ n ∈ ns, k.Fits n) : List.Forall₂ (Shows k) (ns.map toString) ns := by
  rw [List.forall₂_map_left_iff, List.forall₂_same]
  intro n hn
  refine ⟨h n hn, [], [], List.forall_mem_nil _, List.forall_mem_nil _, ?_⟩
  rw [List.nil_append, List.append_nil]

theorem bind_joined_of_fits (h : ∀ n ∈ ns, k.Fits n) {text : String}
    (hjoined : Joined (ns.map toString) text) :
    bind (.list (.int k)) (.value text) = .ok (.list (ns.map .int)) := by
  have hplain : ∀ x ∈ ns.map toString, Plain x :=
    List.forall_mem_map.mpr fun n hn => plain_toString (h n hn)
  have hne : ns.map toString ≠ [""] := by
    intro hempty
    obtain ⟨n, rfl, hn⟩ := List.map_eq_singleton_iff.mp hempty
    have hletters := (IntKind.written_toString (h n List.mem_cons_self)).ne_nil
    rw [hn] at hletters
    exact hletters rfl
  rw [bind_list_value, commaParts_of_joined hjoined hplain hne, mapM_bindText, ← bind_list_array]
  exact bind_array_of_shows (shows_toString h)

theorem mapM_entries_of_shows {v : Shape} {es : List (String × Tree)} {bs : List (Bound × Bound)}
    (h : List.Forall₂ (ShowsKey k v) es bs) :
    (es.mapM fun e => do
      let key ← bindText (.int k) e.1
      let value ← bind v e.2
      return (key, value)) = .ok bs := by
  rw [mapM_eq_ok_iff]
  refine h.imp fun e b hshows => ?_
  obtain ⟨n, hn, hkey, hvalue⟩ := hshows
  rw [bindText_eq_bind, hn.bind_eq, hvalue]
  show Except.ok (Bound.int n, b.2) = Except.ok b
  rw [← hkey]

end Several

/-! ## Top theorem (proved from the lemmas above) -/

/-- A text binds to an integer of a kind when it is written as one that fits, blanks around it
aside; every other text is refused, and it does not matter whether the text is a value, or a part of
a comma list or a key.  So the decimal text of any integer that fits, with any blanks around it,
gives the integer back: by itself, in a comma list, in an array, and as a key of either kind of
map. -/
theorem bind_integer (k : IntKind) :
    (∀ text b, bind (.int k) (.value text) = .ok b ↔
      ∃ n, b = .int n ∧ k.Written (Text.trim text.toList) n ∧ k.Fits n) ∧
    (∀ text, (¬ ∃ n, k.Written (Text.trim text.toList) n ∧ k.Fits n) →
      bind (.int k) (.value text) = .error (.unparsable text k.name)) ∧
    (∀ text, bindText (.int k) text = bind (.int k) (.value text)) ∧
    (∀ text n, Shows k text n → bind (.int k) (.value text) = .ok (.int n)) ∧
    (∀ (ns : List Int) (text : String), (∀ n ∈ ns, k.Fits n) → Joined (ns.map toString) text →
      bind (.list (.int k)) (.value text) = .ok (.list (ns.map .int))) ∧
    (∀ (texts : List String) (ns : List Int), List.Forall₂ (Shows k) texts ns →
      bind (.list (.int k)) (.array (texts.map .value)) = .ok (.list (ns.map .int))) ∧
    ∀ v es bs, List.Forall₂ (ShowsKey k v) es bs →
      bind (.map (.int k) v) (.map es) =
        .ok (.map (bs.foldl (fun acc b => Bound.insertSorted b.1 b.2 acc) [])) ∧
      bind (.ordered (.int k) v) (.map es) =
        .ok (.map (bs.foldl (fun acc b => Bound.insertLast b.1 b.2 acc) [])) := by
  refine ⟨fun text b => bind_int_ok_iff, fun text => bind_int_of_not,
    fun text => bindText_eq_bind (.int k) text, fun text n => Shows.bind_eq,
    fun ns text h hjoined => bind_joined_of_fits h hjoined, fun texts ns => bind_array_of_shows, ?_⟩
  intro v es bs h
  constructor
  · rw [bind, mapping, mapM_entries_of_shows h]
    rfl
  · rw [bind, mapping, mapM_entries_of_shows h]
    rfl

/-- The ends of the range of one byte: the lowest number binds with zeros in front, as a part of a
list, as an item and as a key; the number after the highest one does not bind. -/
theorem bind_integer_byte :
    let k : IntKind := ⟨true, 8⟩
    bind (.int k) (.value "\t-0128 ") = .ok (.int (-128)) ∧
      bind (.int k) (.value "+128") = .error (.unparsable "+128" k.name) ∧
      bind (.list (.int k)) (.value "127 , -128") = .ok (.list [.int 127, .int (-128)]) ∧
      bind (.list (.int k)) (.array [.value " -128"]) = .ok (.list [.int (-128)]) ∧
      bind (.map (.int k) .text) (.map [("127", .value "high"), (" -128", .value "low")]) =
        .ok (.map [(.int (-128), .text "low"), (.int 127, .text "high")]) := by
  intro k
  obtain ⟨hiff, hrefused, -, -, hlist, harray, hmap⟩ := bind_integer k
  have hblank : ∀ c ∈ [' '], Text.isBlank c = true := List.forall_mem_singleton.mpr (by decide)
  have hlow : Shows k " -128" (-128) :=
    ⟨by decide, [' '], [], hblank, List.forall_mem_nil _, by decide⟩
  have hhigh : Shows k "127" 127 :=
    ⟨by decide, [], [], List.forall_mem_nil _, List.forall_mem_nil _, by decide⟩
  refine ⟨(hiff _ _).mpr ⟨-128, rfl, ?_⟩, hrefused "+128" ?_, ?_, ?_, ?_⟩
  · exact IntKind.read?_eq_some_iff.mp (by decide)
  · rintro ⟨n, hn⟩
    have hread := IntKind.read?_eq_some_iff.mpr hn
    have hnone : k.read? (Text.trim "+128".toList) = none := by decide
    rw [hnone] at hread
    cases hread
  · have hjoined : Joined ["127", "-128"] "127 , -128" := by
      refine ⟨["127 ".toList, " -128".toList], ?_, by decide⟩
      exact .cons ⟨[], [' '], List.forall_mem_nil _, hblank, by decide⟩
        (.cons ⟨[' '], [], hblank, List.forall_mem_nil _, by decide⟩ .nil)
    exact hlist [127, -128] _ (by decide) hjoined
  · exact harray [" -128"] [-128] (.cons hlow .nil)
  · have hkeys : List.Forall₂ (ShowsKey k .text)
        [("127", .value "high"), (" -128", .value "low")]
        [(.int 127, .text "high"), (.int (-128), .text "low")] :=
      .cons ⟨127, hhigh, rfl, rfl⟩ (.cons ⟨-128, hlow, rfl, rfl⟩ .nil)
    have hlt : Bound.cmp (.int (-128)) (.int 127) = .lt := by
      rw [Bound.cmp]
      rfl
    rw [(hmap .text _ _ hkeys).1]
    simp [Bound.insertSorted, Assoc.insertSorted, hlt]

end Binding

end LayeredConfig
