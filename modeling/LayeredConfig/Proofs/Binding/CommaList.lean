import LayeredConfig.Binding.Bind
import LayeredConfig.Proofs.Text.Parts
import Mathlib.Data.List.Forall2

/-!
# Comma lists

A list is written as an array of values or as one text with commas between the values (`Joined`).
The values of the array are bound as trees, the parts of the text as texts, and that comes to the
same for every shape:

    bindText s text = bind s (value text)                                   (bindText_eq_bind)

The parts of the text are the values again when they have no comma and no blanks at their ends, but
for one list: the text of a list of the empty text alone is blank, and a blank text has no parts.

    Joined xs text → commaParts text = xs                                  (commaParts_of_joined)

So a list, a set, an array of fixed length and a tuple bind to the same from both, and where they do
not bind, for the same reason.
-/

namespace LayeredConfig

namespace Binding

/-- The text, with blanks around it. -/
def Padded (x : String) (letters : List Char) : Prop :=
  ∃ front back, (∀ c ∈ front, Text.isBlank c = true) ∧ (∀ c ∈ back, Text.isBlank c = true) ∧
    letters = front ++ x.toList ++ back

/-- The values in one text, with commas between them and any blanks around each. -/
def Joined (xs : List String) (text : String) : Prop :=
  ∃ parts, List.Forall₂ Padded xs parts ∧ text.toList = [','].intercalate parts

/-- A value that a comma list can hold. -/
def Plain (x : String) : Prop := ',' ∉ x.toList ∧ Text.trimmed x = x

instance : DecidablePred Plain := fun x =>
  inferInstanceAs (Decidable (',' ∉ x.toList ∧ Text.trimmed x = x))

/-! ## Lemmas -/

/-! ### Texts and values -/

/-- A value is bound as text; an option hands the value on as a tree, down to a shape that is none. -/
theorem bindText_eq_bind : ∀ (s : Shape) (text : String), bindText s text = bind s (.value text)
  | .option s, text => by
    rw [bindText, bind]
    by_cases hempty : text = ""
    · have hsome : (Tree.value text).text? = some "" := congrArg some hempty
      rw [if_pos hempty, if_pos hsome]
    · have hsome : (Tree.value text).text? ≠ some "" := fun h => hempty (Option.some.inj h)
      rw [if_neg hempty, if_neg hsome, bindText_eq_bind s text]
  | .bool, text | .int _, text | .float _, text | .char, text | .text, text | .bytes, text => by
    rw [bind, bindValue]
  | .list _, text | .set _, text | .array _ _, text | .tuple _ _, text => by
    rw [bind, sequence]
  | .map _ _, text | .ordered _ _, text | .record _ _, text => by
    rw [bind, mapping]
  | .enumeration _, text => by rw [bind]
  | .unsupported _, text | .unit, text => by rw [bindText, bind]
  | .json, text => by rw [bindText, bind, Json.Value.ofTree]

theorem bindTexts_eq_bindTuple (expected : String) (ss : List Shape) (xs : List String) (i : Nat) :
    bindTexts expected i ss xs = bindTuple expected i ss (xs.map .value) := by
  induction ss generalizing xs i with
  | nil => rw [bindTexts, bindTuple]
  | cons s ss ih =>
    cases xs with
    | nil => rw [bindTexts, List.map_nil, bindTuple]
    | cons x xs => rw [bindTexts, List.map_cons, bindTuple, bindText_eq_bind, ih]

theorem mapM_bindText (s : Shape) (xs : List String) :
    (xs.mapM fun x => bindText s x) = (xs.map Tree.value).mapM fun t => bind s t := by
  induction xs with
  | nil => rfl
  | cons x xs ih => rw [List.map_cons, List.mapM_cons, List.mapM_cons, ih, bindText_eq_bind]

/-- Binding one after the other succeeds when each succeeds. -/
theorem mapM_eq_ok_iff {α β : Type} {f : α → Except BindError β} {xs : List α} {ys : List β} :
    xs.mapM f = .ok ys ↔ List.Forall₂ (fun x y => f x = .ok y) xs ys := by
  induction xs generalizing ys with
  | nil =>
    rw [List.mapM_nil, List.forall₂_nil_left_iff]
    exact ⟨fun h => (Except.ok.inj h).symm, fun h => h ▸ rfl⟩
  | cons x xs ih =>
    rw [List.mapM_cons, List.forall₂_cons_left_iff]
    constructor
    · intro h
      cases hx : f x with
      | error e => rw [hx] at h; cases h
      | ok y =>
        rw [hx] at h
        cases hxs : xs.mapM f with
        | error e => rw [hxs] at h; cases h
        | ok ys' =>
          rw [hxs] at h
          exact ⟨y, ys', rfl, ih.mp hxs, (Except.ok.inj h).symm⟩
    · rintro ⟨y, ys', hx, hxs, rfl⟩
      rw [hx, ih.mpr hxs]
      rfl

/-! ### The parts of a comma list -/

theorem Padded.trim {x : String} {letters : List Char} (h : Padded x letters) :
    Text.trim letters = Text.trim x.toList := by
  obtain ⟨front, back, hfront, hback, rfl⟩ := h
  exact Text.trim_padded hfront hback x.toList

theorem Padded.no_comma {x : String} {letters : List Char} (h : Padded x letters)
    (hx : ',' ∉ x.toList) : ',' ∉ letters := by
  obtain ⟨front, back, hfront, hback, rfl⟩ := h
  intro hmem
  rw [List.mem_append, List.mem_append] at hmem
  rcases hmem with (hmem | hmem) | hmem
  · exact absurd (hfront _ hmem) (by decide)
  · exact hx hmem
  · exact absurd (hback _ hmem) (by decide)

theorem map_trim_of_padded {xs : List String} {parts : List (List Char)}
    (h : List.Forall₂ Padded xs parts) (hplain : ∀ x ∈ xs, Plain x) :
    parts.map (fun part => String.ofList (Text.trim part)) = xs := by
  induction h with
  | nil => rfl
  | @cons x part xs parts hpadded _ ih =>
    rw [List.forall_mem_cons] at hplain
    have hx : String.ofList (Text.trim part) = x := by
      rw [hpadded.trim]
      exact hplain.1.2
    rw [List.map_cons, hx, ih hplain.2]

theorem no_comma_of_padded {xs : List String} {parts : List (List Char)}
    (h : List.Forall₂ Padded xs parts) (hplain : ∀ x ∈ xs, Plain x) :
    ∀ part ∈ parts, ',' ∉ part := by
  induction h with
  | nil => simp
  | @cons x part xs parts hpadded _ ih =>
    rw [List.forall_mem_cons] at hplain
    exact List.forall_mem_cons.mpr ⟨hpadded.no_comma hplain.1.1, ih hplain.2⟩

/-- Two parts have a comma between them, and a single one is not blank unless it is empty. -/
theorem trim_joined_ne_nil {x : String} {xs : List String} {parts : List (List Char)}
    (h : List.Forall₂ Padded (x :: xs) parts) (hplain : Plain x) (hne : x :: xs ≠ [""]) :
    Text.trim ([','].intercalate parts) ≠ [] := by
  cases h with
  | @cons _ part _ parts hpadded hrest =>
    cases hrest with
    | nil =>
      rw [List.intercalate_singleton, hpadded.trim]
      intro hnil
      have hx : String.ofList (Text.trim x.toList) = x := hplain.2
      rw [hnil] at hx
      exact hne (by rw [← hx])
    | @cons y next ys parts _ _ =>
      intro hnil
      have hcomma : ',' ∈ [','].intercalate (part :: next :: parts) := by
        rw [List.intercalate_cons_cons]
        simp
      exact absurd (Text.isBlank_of_trim_eq_nil hnil _ hcomma) (by decide)

theorem commaParts_of_joined {xs : List String} {text : String} (h : Joined xs text)
    (hplain : ∀ x ∈ xs, Plain x) (hne : xs ≠ [""]) : commaParts text = xs := by
  obtain ⟨parts, hparts, htext⟩ := h
  rw [commaParts, htext]
  cases xs with
  | nil =>
    cases hparts
    rfl
  | cons x xs =>
    have hparts_ne : parts ≠ [] := by
      rintro rfl
      cases hparts
    have hsplit : ([','].intercalate parts).splitOn ',' = parts :=
      Text.parts_iff.mp ⟨hparts_ne, no_comma_of_padded hparts hplain, rfl⟩
    rw [if_neg (trim_joined_ne_nil hparts (hplain x List.mem_cons_self) hne), hsplit]
    exact map_trim_of_padded hparts hplain

/-! ## Top theorem (proved from the lemmas above) -/

/-- A list of texts without commas and without blanks at their ends, but for the list of the empty
text, binds to the same from one text with commas as from the array of its values: as a list, a set,
an array of fixed length and a tuple, whatever the shapes of the elements. -/
theorem bind_joined_eq_bind_array (xs : List String) (text : String) (hplain : ∀ x ∈ xs, Plain x)
    (hne : xs ≠ [""]) (h : Joined xs text) :
    (∀ s, bind (.list s) (.value text) = bind (.list s) (.array (xs.map .value))) ∧
    (∀ s, bind (.set s) (.value text) = bind (.set s) (.array (xs.map .value))) ∧
    (∀ n s, bind (.array n s) (.value text) = bind (.array n s) (.array (xs.map .value))) ∧
    ∀ expected ss, bind (.tuple expected ss) (.value text) =
      bind (.tuple expected ss) (.array (xs.map .value)) := by
  have hparts := commaParts_of_joined h hplain hne
  refine ⟨?_, ?_, ?_, ?_⟩
  · intro s
    rw [bind_list_value, bind_list_array, hparts, mapM_bindText]
  · intro s
    rw [← bindText_eq_bind, bindText, hparts, mapM_bindText, bind, sequence]
  · intro n s
    rw [← bindText_eq_bind, bindText, hparts, mapM_bindText, List.map_take, bind, sequence]
  · intro expected ss
    rw [← bindText_eq_bind, bindText, hparts, bindTexts_eq_bindTuple, bind, sequence]

/-- Three values with blanks around two of them and nothing between two commas: as options they
bind, the empty one as an absent one, and as bytes the last one does not. -/
theorem bind_joined_eq_bind_array_options :
    let xs := ["1", "", "-7"]
    let text := " 1 ,,\t-7"
    (∀ x ∈ xs, Plain x) ∧ xs ≠ [""] ∧ Joined xs text ∧
      bind (.list (.option .i32)) (.value text) =
        .ok (.list [.some (.int 1), .none, .some (.int (-7))]) ∧
      bind (.array 3 (.option .u8)) (.value text) = .error (.unparsable "-7" "u8") ∧
      bind (.tupleOf [.text, .text, .text, .bool]) (.value text) =
        .error (.tooShort 3 "a tuple of size 4") := by
  intro xs text
  have hplain : ∀ x ∈ xs, Plain x := by decide
  have hne : xs ≠ [""] := by decide
  have hjoined : Joined xs text := by
    have hspace : ∀ c ∈ [' '], Text.isBlank c = true := List.forall_mem_singleton.mpr (by decide)
    have htab : ∀ c ∈ ['\t'], Text.isBlank c = true := List.forall_mem_singleton.mpr (by decide)
    refine ⟨[" 1 ".toList, [], "\t-7".toList], ?_, by decide⟩
    refine .cons ⟨[' '], [' '], hspace, hspace, by decide⟩ (.cons ?_ (.cons ?_ .nil))
    · exact ⟨[], [], List.forall_mem_nil _, List.forall_mem_nil _, by decide⟩
    · exact ⟨['\t'], [], htab, List.forall_mem_nil _, by decide⟩
  obtain ⟨hlist, -, harray, htuple⟩ := bind_joined_eq_bind_array xs text hplain hne hjoined
  refine ⟨hplain, hne, hjoined, ?_, ?_, ?_⟩
  · rw [hlist]
    rfl
  · rw [harray]
    rfl
  · rw [Shape.tupleOf, htuple]
    rfl

end Binding

end LayeredConfig
