import LayeredConfig.Config
import LayeredConfig.Document

/-!
# What is written as JSON is read back

The JSON value of a tree in which maps and arrays nest at most 127 deep is read back from its text,
in every style, and when no map names a key twice it has the tree:

    readDocument (letters style 0 t) = some (ofTree t)        (readDocument_letters)
    (ofTree t).tree = t                                       (tree_ofTree)

The value that is read is the one that the tree binds to: no text becomes a number on the way.

A letter of a string takes one step of the reader, whatever its escape is (`readLetters_escape`).
Strings, arrays and objects end where their last mark stands, so what follows a written tree does
not matter to the reader of it; and the reader of a value skips the white space in front.  Both facts
are in `Takes`, which the elements of a composite hand on to the composite (`readItems_itemLetters`,
`readMembers_entryLetters`).
-/

namespace LayeredConfig

namespace Tree

mutual

/-- How deep maps and arrays nest. -/
def depth : Tree → Nat
  | value _ => 0
  | array ts => depthOfItems ts + 1
  | map es => depthOfEntries es + 1

def depthOfItems : List Tree → Nat
  | [] => 0
  | t :: ts => max (depth t) (depthOfItems ts)

def depthOfEntries : List (String × Tree) → Nat
  | [] => 0
  | (_, t) :: es => max (depth t) (depthOfEntries es)

end

theorem depth_array_le_iff {ts : List Tree} {n : Nat} :
    (array ts).depth ≤ n + 1 ↔ ∀ t ∈ ts, t.depth ≤ n := by
  rw [depth, Nat.add_le_add_iff_right]
  induction ts with
  | nil => simp [depthOfItems]
  | cons t ts ih => rw [depthOfItems, Nat.max_le, ih, List.forall_mem_cons]

theorem depth_map_le_iff {es : List (String × Tree)} {n : Nat} :
    (map es).depth ≤ n + 1 ↔ ∀ e ∈ es, e.2.depth ≤ n := by
  rw [depth, Nat.add_le_add_iff_right]
  induction es with
  | nil => simp [depthOfEntries]
  | cons e es ih => rw [depthOfEntries, Nat.max_le, ih, List.forall_mem_cons]

end Tree

namespace Json

/-- The reader takes the letters for the value, after any white space and before anything. -/
def Takes (reader : ValueReader) (cs : List Char) (v : Value) : Prop :=
  ∀ gap rest, (∀ c ∈ gap, isSpace c = true) → reader (gap ++ (cs ++ rest)) = some (v, rest)

/-! ## Lemmas -/

/-! ### White space -/

theorem skipSpace_append {gap : List Char} (h : ∀ c ∈ gap, isSpace c = true) (cs : List Char) :
    skipSpace (gap ++ cs) = skipSpace cs :=
  List.dropWhile_append_of_pos h

theorem skipSpace_cons {c : Char} (h : isSpace c = false) (cs : List Char) :
    skipSpace (c :: cs) = c :: cs :=
  List.dropWhile_cons_of_neg (by simp [h])

theorem skipSpace_gap_cons {gap : List Char} (hgap : ∀ c ∈ gap, isSpace c = true) {c : Char}
    (h : isSpace c = false) (cs : List Char) : skipSpace (gap ++ c :: cs) = c :: cs := by
  rw [skipSpace_append hgap, skipSpace_cons h]

/-! ### Strings -/

theorem hexValue?_hexDigit : ∀ n < 16, hexValue? (hexDigit n) = some n := by decide

theorem readUnit_control {c : Char} (h : c.toNat < 0x20) (cs : List Char) :
    readUnit ('0' :: '0' :: hexDigit (c.toNat / 16) :: hexDigit (c.toNat % 16) :: cs) =
      some (c, cs) := by
  have hzero : hexValue? '0' = some 0 := rfl
  have hhigh := hexValue?_hexDigit (c.toNat / 16) (by omega)
  have hlow := hexValue?_hexDigit (c.toNat % 16) (by omega)
  have hsum : 16 * (16 * (16 * 0 + 0) + c.toNat / 16) + c.toNat % 16 = c.toNat := by omega
  have hdigits : readHex4 ('0' :: '0' :: hexDigit (c.toNat / 16) :: hexDigit (c.toNat % 16) :: cs) =
      some (c.toNat, cs) := by
    simp only [readHex4, hzero, hhigh, hlow, Option.bind_eq_bind, Option.bind_some, hsum]
    rfl
  rw [readUnit, hdigits]
  simp only [Option.bind_eq_bind, Option.bind_some]
  rw [if_neg (by omega), if_neg (by omega), Char.ofNat_toNat]
  rfl

/-- The three ways in which a letter is written. -/
theorem escape_cases (c : Char) :
    (∃ e, e ≠ 'u' ∧ simpleEscape? e = some c ∧ escape c = ['\\', e]) ∨
    (c.toNat < 0x20 ∧ escape c =
      ['\\', 'u', '0', '0', hexDigit (c.toNat / 16), hexDigit (c.toNat % 16)]) ∨
    (c ≠ '"' ∧ c ≠ '\\' ∧ ¬ c.toNat < 0x20 ∧ escape c = [c]) := by
  unfold escape
  split
  · next h => exact .inl ⟨'"', by decide, by rw [h]; rfl, rfl⟩
  split
  · next h => exact .inl ⟨'\\', by decide, by rw [h]; rfl, rfl⟩
  split
  · next h => exact .inl ⟨'b', by decide, by rw [h]; rfl, rfl⟩
  split
  · next h => exact .inl ⟨'f', by decide, by rw [h]; rfl, rfl⟩
  split
  · next h => exact .inl ⟨'n', by decide, by rw [h]; rfl, rfl⟩
  split
  · next h => exact .inl ⟨'r', by decide, by rw [h]; rfl, rfl⟩
  split
  · next h => exact .inl ⟨'t', by decide, by rw [h]; rfl, rfl⟩
  split
  · next h => exact .inr (.inl ⟨h, rfl⟩)
  · next hquote hslash _ _ _ _ _ h => exact .inr (.inr ⟨hquote, hslash, h, rfl⟩)

/-- A letter takes one step of the reader, however it is written. -/
theorem readLetters_escape (fuel : Nat) (c : Char) (cs : List Char) :
    readLetters (fuel + 1) (escape c ++ cs) =
      (readLetters fuel cs).map fun r => (c :: r.1, r.2) := by
  rcases escape_cases c with ⟨e, hne, he, hesc⟩ | ⟨hlt, hesc⟩ | ⟨hquote, hslash, hlt, hesc⟩
  · rw [hesc]
    show readLetters (fuel + 1) ('\\' :: e :: cs) = _
    rw [readLetters.eq_def]
    simp only [Char.reduceEq, ↓reduceIte]
    rw [he]
    cases readLetters fuel cs <;> rfl
  · rw [hesc]
    show readLetters (fuel + 1) ('\\' :: 'u' :: ('0' :: '0' :: _ :: _ :: cs)) = _
    rw [readLetters.eq_def]
    simp only [Char.reduceEq, ↓reduceIte, readUnit_control hlt, Option.bind_eq_bind,
      Option.bind_some]
    cases readLetters fuel cs <;> rfl
  · rw [hesc]
    show readLetters (fuel + 1) (c :: cs) = _
    rw [readLetters.eq_def]
    simp only
    rw [if_neg hquote, if_neg hslash, if_neg hlt]

theorem readLetters_flatMap_escape {fuel : Nat} {ds : List Char} (h : ds.length < fuel)
    (rest : List Char) : readLetters fuel (ds.flatMap escape ++ '"' :: rest) = some (ds, rest) := by
  induction ds generalizing fuel with
  | nil =>
    cases fuel with
    | zero => cases h
    | succ fuel => simp [readLetters]
  | cons d ds ih =>
    cases fuel with
    | zero => cases h
    | succ fuel =>
      rw [List.flatMap_cons, List.append_assoc, readLetters_escape, ih (Nat.lt_of_succ_lt_succ h)]
      rfl

theorem length_le_length_flatMap_escape (ds : List Char) :
    ds.length ≤ (ds.flatMap escape).length := by
  induction ds with
  | nil => exact Nat.le_refl 0
  | cons d ds ih =>
    have hpos : 0 < (escape d).length := by
      rcases escape_cases d with ⟨e, -, -, hesc⟩ | ⟨-, hesc⟩ | ⟨-, -, -, hesc⟩ <;> simp [hesc]
    rw [List.flatMap_cons, List.length_append, List.length_cons]
    omega

theorem readString_escaped (s : String) (rest : List Char) :
    readString (s.toList.flatMap escape ++ '"' :: rest) = some (s, rest) := by
  have hlen := length_le_length_flatMap_escape s.toList
  have hfuel : s.toList.length < (s.toList.flatMap escape ++ '"' :: rest).length + 1 := by
    rw [List.length_append]
    omega
  rw [readString, readLetters_flatMap_escape hfuel, Option.map_some]
  dsimp only
  rw [String.ofList_toList]

/-! ### Elements -/

theorem letters_array_cons (style : Style) (depth : Nat) (t : Tree) (ts : List Tree) :
    letters style depth (.array (t :: ts)) =
      '[' :: (itemLetters style (depth + 1) (t :: ts) ++ (style.gap depth ++ [']'])) := by
  rw [letters]
  · simp
  · simp

theorem letters_map_cons (style : Style) (depth : Nat) (e : String × Tree)
    (es : List (String × Tree)) : letters style depth (.map (e :: es)) =
      '\x7b' :: (entryLetters style (depth + 1) (e :: es) ++ (style.gap depth ++ ['\x7d'])) := by
  rw [letters]
  · simp
  · simp

theorem itemLetters_cons_cons (style : Style) (depth : Nat) (t u : Tree) (ts : List Tree) :
    itemLetters style depth (t :: u :: ts) =
      style.gap depth ++ (letters style depth t ++ ',' :: itemLetters style depth (u :: ts)) := by
  rw [itemLetters]
  · simp
  · simp

theorem entryLetters_cons_cons (style : Style) (depth : Nat) (e d : String × Tree)
    (es : List (String × Tree)) :
    entryLetters style depth (e :: d :: es) =
      style.gap depth ++ (quote e.1 ++ ':' :: (style.blank ++ (letters style depth e.2 ++
        ',' :: entryLetters style depth (d :: es)))) := by
  rw [entryLetters]
  · simp
  · simp

section Elements

variable {reader : ValueReader} {style : Style} {depth : Nat}

/-- One element of an array, and what its end mark says about the others. -/
theorem readItems_item {t : Tree} (h : Takes reader (letters style depth t) (.ofTree t))
    (fuel : Nat) (after : List Char) :
    readItems reader (fuel + 1) (style.gap depth ++ (letters style depth t ++ after)) =
      match skipSpace after with
      | ',' :: cs => do
        let (vs, cs) ← readItems reader fuel cs
        return (.ofTree t :: vs, cs)
      | ']' :: cs => return ([.ofTree t], cs)
      | _ => none := by
  rw [readItems, h _ _ (style.isSpace_gap depth)]
  rfl

/-- One member of an object, and what its end mark says about the others. -/
theorem readMembers_member {t : Tree} (h : Takes reader (letters style depth t) (.ofTree t))
    (fuel : Nat) (k : String) (after : List Char) :
    readMembers reader (fuel + 1) (style.gap depth ++
        (quote k ++ ':' :: (style.blank ++ (letters style depth t ++ after)))) =
      match skipSpace after with
      | ',' :: cs => do
        let (ms, cs) ← readMembers reader fuel cs
        return ((k, .ofTree t) :: ms, cs)
      | '\x7d' :: cs => return ([(k, .ofTree t)], cs)
      | _ => none := by
  have hquote (cs : List Char) : quote k ++ cs = '"' :: (k.toList.flatMap escape ++ '"' :: cs) := by
    simp [quote]
  rw [readMembers, hquote, skipSpace_gap_cons (style.isSpace_gap depth) (by decide)]
  simp only
  rw [readString_escaped]
  simp only [Option.bind_eq_bind, Option.bind_some]
  rw [skipSpace_cons (by decide)]
  simp only
  rw [h _ _ style.isSpace_blank]
  rfl

theorem readItems_itemLetters {fuel : Nat} {ts : List Tree} (hne : ts ≠ [])
    (h : ∀ t ∈ ts, Takes reader (letters style depth t) (.ofTree t)) (hfuel : ts.length ≤ fuel)
    {gap : List Char} (hgap : ∀ c ∈ gap, isSpace c = true) (rest : List Char) :
    readItems reader fuel (itemLetters style depth ts ++ (gap ++ ']' :: rest)) =
      some (ts.map Value.ofTree, rest) := by
  induction ts generalizing fuel with
  | nil => exact absurd rfl hne
  | cons t ts ih =>
    obtain _ | fuel := fuel
    · cases hfuel
    rw [List.forall_mem_cons] at h
    cases ts with
    | nil =>
      rw [itemLetters, List.append_assoc, readItems_item h.1,
        skipSpace_gap_cons hgap (by decide)]
      rfl
    | cons u ts =>
      have hrest := ih (by simp) h.2 (Nat.le_of_succ_le_succ hfuel)
      rw [itemLetters_cons_cons, List.append_assoc, List.append_assoc, readItems_item h.1,
        List.cons_append, skipSpace_cons (by decide)]
      simp only
      rw [hrest]
      rfl

theorem readMembers_entryLetters {fuel : Nat} {es : List (String × Tree)} (hne : es ≠ [])
    (h : ∀ e ∈ es, Takes reader (letters style depth e.2) (.ofTree e.2)) (hfuel : es.length ≤ fuel)
    {gap : List Char} (hgap : ∀ c ∈ gap, isSpace c = true) (rest : List Char) :
    readMembers reader fuel (entryLetters style depth es ++ (gap ++ '\x7d' :: rest)) =
      some (es.map fun e => (e.1, .ofTree e.2), rest) := by
  induction es generalizing fuel with
  | nil => exact absurd rfl hne
  | cons e es ih =>
    obtain _ | fuel := fuel
    · cases hfuel
    rw [List.forall_mem_cons] at h
    cases es with
    | nil =>
      rw [entryLetters]
      simp only [List.append_assoc, List.cons_append]
      rw [readMembers_member h.1, skipSpace_gap_cons hgap (by decide)]
      rfl
    | cons d es =>
      have hrest := ih (by simp) h.2 (Nat.le_of_succ_le_succ hfuel)
      rw [entryLetters_cons_cons]
      simp only [List.append_assoc, List.cons_append]
      rw [readMembers_member h.1, skipSpace_cons (by decide)]
      simp only
      rw [hrest]
      rfl

end Elements

theorem length_le_length_itemLetters (style : Style) (depth : Nat) (ts : List Tree) :
    ts.length ≤ (itemLetters style depth ts).length + 1 := by
  induction ts with
  | nil => simp
  | cons t ts ih =>
    cases ts with
    | nil => simp
    | cons u ts =>
      rw [itemLetters_cons_cons]
      simp only [List.length_append, List.length_cons] at ih ⊢
      omega

theorem length_le_length_entryLetters (style : Style) (depth : Nat) (es : List (String × Tree)) :
    es.length ≤ (entryLetters style depth es).length + 1 := by
  induction es with
  | nil => simp
  | cons e es ih =>
    cases es with
    | nil => simp
    | cons d es =>
      rw [entryLetters_cons_cons]
      simp only [List.length_append, List.length_cons] at ih ⊢
      omega

/-! ### Trees -/

theorem readValue_gap {gap : List Char} (h : ∀ c ∈ gap, isSpace c = true) (n : Nat)
    (cs : List Char) : readValue n (gap ++ cs) = readValue n cs := by
  rw [readValue.eq_def, readValue.eq_def]
  dsimp only
  rw [skipSpace_append h]

theorem readValue_quote (n : Nat) (s : String) (rest : List Char) :
    readValue n (quote s ++ rest) = some (.string s, rest) := by
  have hquote : quote s ++ rest = '"' :: (s.toList.flatMap escape ++ '"' :: rest) := by
    simp [quote]
  rw [hquote, readValue, skipSpace_cons (by decide)]
  simp only
  rw [readString_escaped]
  rfl

theorem readValue_bracket (n : Nat) {cs : List Char} (h : ∀ rest, skipSpace cs ≠ ']' :: rest) :
    readValue (n + 1) ('[' :: cs) =
      (readItems (readValue n) (cs.length + 1) cs).map fun r => (.array r.1, r.2) := by
  rw [readValue, skipSpace_cons (by decide)]
  -- by `h` the text does not close at once
  simp only

theorem readValue_brace (n : Nat) {cs : List Char} (h : ∀ rest, skipSpace cs ≠ '\x7d' :: rest) :
    readValue (n + 1) ('\x7b' :: cs) =
      (readMembers (readValue n) (cs.length + 1) cs).map fun r =>
        (.object (Assoc.ofList r.1), r.2) := by
  rw [readValue, skipSpace_cons (by decide)]
  -- by `h` the text does not close at once
  simp only

/-- The mark with which a tree starts. -/
def opening : Tree → Char
  | .value _ => '"'
  | .array _ => '['
  | .map _ => '\x7b'

theorem letters_eq_opening_cons (style : Style) (depth : Nat) (t : Tree) :
    ∃ cs, letters style depth t = opening t :: cs := by
  cases t with
  | value s => exact ⟨_, rfl⟩
  | array ts =>
    cases ts with
    | nil => exact ⟨_, rfl⟩
    | cons t ts => exact ⟨_, letters_array_cons style depth t ts⟩
  | map es =>
    cases es with
    | nil => exact ⟨_, rfl⟩
    | cons e es => exact ⟨_, letters_map_cons style depth e es⟩

theorem skipSpace_itemLetters (style : Style) (depth : Nat) (t : Tree) (ts : List Tree)
    (rest : List Char) :
    ∃ cs, skipSpace (itemLetters style depth (t :: ts) ++ rest) = opening t :: cs := by
  obtain ⟨cs, hcs⟩ := letters_eq_opening_cons style depth t
  have hspace : isSpace (opening t) = false := by cases t <;> rfl
  have hfront : ∃ after, itemLetters style depth (t :: ts) =
      style.gap depth ++ (letters style depth t ++ after) := by
    cases ts with
    | nil => exact ⟨[], by simp [itemLetters]⟩
    | cons u ts => exact ⟨_, itemLetters_cons_cons style depth t u ts⟩
  obtain ⟨after, hafter⟩ := hfront
  refine ⟨cs ++ after ++ rest, ?_⟩
  rw [hafter, hcs, List.append_assoc, List.cons_append, List.cons_append,
    skipSpace_gap_cons (style.isSpace_gap depth) hspace]

theorem skipSpace_entryLetters (style : Style) (depth : Nat) (e : String × Tree)
    (es : List (String × Tree)) (rest : List Char) :
    ∃ cs, skipSpace (entryLetters style depth (e :: es) ++ rest) = '"' :: cs := by
  have hfront : ∃ after, entryLetters style depth (e :: es) =
      style.gap depth ++ (quote e.1 ++ after) := by
    cases es with
    | nil => exact ⟨':' :: style.blank ++ letters style depth e.2, by simp [entryLetters]⟩
    | cons d es => exact ⟨_, entryLetters_cons_cons style depth e d es⟩
  obtain ⟨after, hafter⟩ := hfront
  refine ⟨e.1.toList.flatMap escape ++ ['"'] ++ after ++ rest, ?_⟩
  rw [hafter, List.append_assoc, quote, List.cons_append, List.cons_append, List.cons_append,
    skipSpace_gap_cons (style.isSpace_gap depth) (by decide)]

section Composites

variable {style : Style} {depth n : Nat}

theorem takes_array {ts : List Tree}
    (h : ∀ t ∈ ts, Takes (readValue n) (letters style (depth + 1) t) (.ofTree t)) :
    Takes (readValue (n + 1)) (letters style depth (.array ts)) (.ofTree (.array ts)) := by
  intro gap rest hgap
  rw [readValue_gap hgap]
  cases ts with
  | nil => rfl
  | cons t ts =>
    have hlen := length_le_length_itemLetters style (depth + 1) (t :: ts)
    obtain ⟨cs, hcs⟩ := skipSpace_itemLetters style (depth + 1) t ts
      (style.gap depth ++ ']' :: rest)
    rw [letters_array_cons]
    simp only [List.cons_append, List.append_assoc, List.nil_append]
    rw [readValue_bracket, readItems_itemLetters (by simp) h _ (style.isSpace_gap depth),
      Value.ofTree_array]
    · rfl
    · rw [List.length_append]
      omega
    · intro rest' hclose
      rw [hcs] at hclose
      cases t <;> cases hclose

theorem takes_map {es : List (String × Tree)}
    (h : ∀ e ∈ es, Takes (readValue n) (letters style (depth + 1) e.2) (.ofTree e.2)) :
    Takes (readValue (n + 1)) (letters style depth (.map es)) (.ofTree (.map es)) := by
  intro gap rest hgap
  rw [readValue_gap hgap]
  cases es with
  | nil => rfl
  | cons e es =>
    have hlen := length_le_length_entryLetters style (depth + 1) (e :: es)
    obtain ⟨cs, hcs⟩ := skipSpace_entryLetters style (depth + 1) e es
      (style.gap depth ++ '\x7d' :: rest)
    rw [letters_map_cons]
    simp only [List.cons_append, List.append_assoc, List.nil_append]
    rw [readValue_brace, readMembers_entryLetters (by simp) h _ (style.isSpace_gap depth),
      Value.ofTree_map]
    · rfl
    · rw [List.length_append]
      omega
    · intro rest' hclose
      rw [hcs] at hclose
      cases hclose

end Composites

theorem takes_letters (style : Style) (depth : Nat) {n : Nat} {t : Tree} (h : t.depth ≤ n) :
    Takes (readValue n) (letters style depth t) (.ofTree t) := by
  induction t using Tree.induction generalizing depth n with
  | value s =>
    intro gap rest hgap
    rw [readValue_gap hgap, letters, readValue_quote, Value.ofTree]
  | array ts ih =>
    obtain _ | n := n
    · cases h
    rw [Tree.depth_array_le_iff] at h
    exact takes_array fun t ht => ih t ht (depth + 1) (h t ht)
  | map es ih =>
    obtain _ | n := n
    · cases h
    rw [Tree.depth_map_le_iff] at h
    exact takes_map fun e he => ih e he (depth + 1) (h e he)

theorem readDocument_letters (style : Style) {t : Tree} (h : t.depth ≤ maxDepth) :
    readDocument (String.ofList (letters style 0 t)) = some (.ofTree t) := by
  have hread := takes_letters style 0 h [] [] (by simp)
  rw [List.nil_append, List.append_nil] at hread
  rw [readDocument, String.toList_ofList, hread]
  rfl

theorem Value.tree_ofTree {t : Tree} (hd : t.Distinct) : (Value.ofTree t).tree = t := by
  induction t using Tree.induction with
  | value s => rw [ofTree, tree]
  | array ts ih =>
    rw [Tree.distinct_array_iff] at hd
    rw [ofTree_array, tree, treesOfItems_eq, List.map_map]
    congr 1
    conv => rhs; rw [← List.map_id ts]
    exact List.map_congr_left fun t ht => ih t ht (hd t ht)
  | map es ih =>
    rw [Tree.distinct_map_iff] at hd
    have hentries : (es.map fun e => (e.1, ofTree e.2)).map (fun m => (m.1, m.2.tree)) = es := by
      rw [List.map_map]
      conv => rhs; rw [← List.map_id es]
      refine List.map_congr_left fun e he => ?_
      exact Prod.ext rfl (ih e he (hd.2 e he))
    have hkeys : Assoc.keys (es.map fun e => (e.1, ofTree e.2)) = Assoc.keys es := by
      simp [Assoc.keys]
    rw [ofTree_map, Assoc.ofList_eq_self (hkeys ▸ hd.1), tree, treesOfMembers_eq, hentries,
      Tree.ofEntries, Assoc.ofList_eq_self hd.1]

end Json

theorem Document.parse_of_readAs {format : Format} {content : String} {t : Tree}
    (h : readAs format content = some t) :
    parse format content = .ok (if t.text? = some "" then .empty else t) := by
  rw [parse, h]
  cases t with
  | value s => by_cases hs : s = "" <;> simp [hs, Tree.text?]
  | array ts => rfl
  | map es => rfl

/-! ## Top theorem (proved from the lemmas above) -/

/-- A tree of at most 127 nested maps and arrays, of which no map names a key twice, is read back
from its JSON text as it is, the empty value as an empty map.  The JSON value of either text is the
one that the tree is bound to, with its strings, arrays and objects. -/
theorem Config.parse_toJson {t : Tree} (hd : t.Distinct) (hdepth : t.depth ≤ 127) (P : ProfileSet) :
    (∀ text ∈ [toJson ⟨t, P⟩, Json.compact t],
      (t ≠ .value "" → Document.parse .json text = .ok t) ∧
      (t = .value "" → Document.parse .json text = .ok .empty)) ∧
    ∃ v, (∀ text ∈ [toJson ⟨t, P⟩, Json.compact t], Json.readDocument text = some v) ∧
      Binding.bind .json t = .ok (.json v) := by
  have hread : ∀ text ∈ [toJson ⟨t, P⟩, Json.compact t],
      Json.readDocument text = some (.ofTree t) := by
    intro text htext
    simp only [List.mem_cons, List.not_mem_nil, or_false] at htext
    rcases htext with rfl | rfl
    · exact Json.readDocument_letters .pretty hdepth
    · exact Json.readDocument_letters .compact hdepth
  constructor
  · intro text htext
    have htree : Document.readAs .json text = some t := by
      rw [Document.readAs, Json.read, hread text htext, Option.map_some, Json.Value.tree_ofTree hd]
    have hparse := Document.parse_of_readAs htree
    constructor
    · intro hne
      rw [hparse, if_neg]
      intro hempty
      cases t with
      | value s => exact hne (congrArg Tree.value (Option.some.inj hempty))
      | _ => cases hempty
    · rintro rfl
      rw [hparse]
      rfl
  · refine ⟨.ofTree t, hread, ?_⟩
    rw [Binding.bind]

/-- An empty name, letters that are escaped, texts that look like a number and a truth value, and
empty composites. -/
theorem Config.parse_toJson_escapes :
    let t : Tree := .map [("", .array [.value "", .value "1e5", .map []]),
      ("say \"hi\"\\", .map [("\t\x01", .value "true")]), ("ü", .array [])]
    t.Distinct ∧ t.depth ≤ 127 ∧ Document.parse .json (toJson ⟨t, .empty⟩) = .ok t ∧
      Document.parse .json (Json.compact t) = .ok t ∧
      Json.readDocument (Json.compact t) = some (.object [
        ("", .array [.string "", .string "1e5", .object []]),
        ("say \"hi\"\\", .object [("\t\x01", .string "true")]), ("ü", .array [])]) := by
  intro t
  have hd : t.Distinct := by decide
  have hdepth : t.depth ≤ 127 := by decide
  have hne : t ≠ .value "" := by simp [t]
  obtain ⟨hparse, v, hread, hbind⟩ := parse_toJson hd hdepth .empty
  rw [Binding.bind] at hbind
  obtain rfl : .ofTree t = v := Bound.json.inj (Except.ok.inj hbind)
  exact ⟨hd, hdepth, (hparse _ (by simp)).1 hne, (hparse _ (by simp)).1 hne, hread _ (by simp)⟩

end LayeredConfig
