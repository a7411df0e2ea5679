import LayeredConfig.Environment
import LayeredConfig.Proofs.Tree.Step
import Mathlib.Data.List.Infix

/-!
# What the name of a variable denotes

The rest of a name, behind the marker, is cut at pairs of underscores.  Of a run of underscores the
first two make the pair, so that a piece can start with an underscore, but only the last one can end
with one (`Pieces`).

    splitPairs rest = parts       ↔ Pieces rest parts                       (splitPairs_eq_iff)
    denoted? name var = some p    ↔ Denotes name var p, for a plain name   (denoted?_eq_some_iff)

A plain name has no small letters, so it can be spelled from its path (`Denotes.spelled`).  Hence two
names do not denote one path, and the name of a path stands in front of the names of all paths that
it leads to, as letters and in the order of names (`Denotes.not_lt`).
-/

namespace LayeredConfig.Environment

/-- The letters of plain names: capitals, digits and underscores. -/
def plainLetter (c : Char) : Bool := c.isUpper || c.isDigit || c == '_'

def PlainName (name : String) : Prop := ∀ c ∈ name.toList, plainLetter c = true

instance : DecidablePred PlainName := fun name => List.decidableBAll _ name.toList

/-- Letters cut at pairs of underscores, each the first one that can be found. -/
inductive Pieces : List Char → List (List Char) → Prop where
  | last {part : List Char} (h : ¬ ['_', '_'] <:+: part) : Pieces part [part]
  | cons {part rest : List Char} {parts : List (List Char)} (h : ¬ ['_', '_'] <:+: part)
    (hend : part.getLast? ≠ some '_') (hrest : Pieces rest parts) :
    Pieces (part ++ '_' :: '_' :: rest) (part :: parts)

/-- The variable belongs to the name, none of its pieces is empty, and the path goes through them in
small letters. -/
def Denotes (name var : String) (p : Path) : Prop :=
  ∃ rest parts, var.toList = (Text.upper name).toList ++ '_' :: '_' :: rest ∧ Pieces rest parts ∧
    (∀ part ∈ parts, part ≠ []) ∧
    p = parts.map fun part => .key (String.ofList (part.map Char.toLower))

/-- The path that the tree of a name takes from a variable. -/
def denoted? (name var : String) : Option Path :=
  (strip? (marker name) var.toList).bind path?

/-- A key in capitals. -/
def capitals : Segment → List Char
  | .key k => k.toList.map Char.toUpper
  | .index _ => []

/-! ## Lemmas -/

variable {name var var' : String} {p q : Path} {c : Char} {cs rest part : List Char}
  {parts : List (List Char)}

/-! ### Cutting at pairs of underscores -/

theorem splitPairs_cons (h : ¬ (c = '_' ∧ cs.head? = some '_'))
    (hcs : splitPairs cs = part :: parts) : splitPairs (c :: cs) = (c :: part) :: parts := by
  rw [splitPairs.eq_3, hcs]
  rintro cs' rfl rfl
  exact h ⟨rfl, rfl⟩

theorem no_pair_of_cons (h : ¬ ['_', '_'] <:+: c :: cs) :
    ¬ (c = '_' ∧ cs.head? = some '_') ∧ ¬ ['_', '_'] <:+: cs := by
  rw [List.infix_cons_iff, not_or] at h
  refine ⟨?_, h.2⟩
  rintro ⟨rfl, hd⟩
  obtain ⟨cs', rfl⟩ := List.head?_eq_some_iff.mp hd
  exact h.1 ⟨cs', rfl⟩

theorem no_pair_cons (h : ¬ (c = '_' ∧ cs.head? = some '_')) (hcs : ¬ ['_', '_'] <:+: cs) :
    ¬ ['_', '_'] <:+: c :: cs := by
  rw [List.infix_cons_iff]
  rintro (⟨back, hback⟩ | hinfix)
  · obtain ⟨rfl, rfl⟩ := List.cons.inj hback
    exact h ⟨rfl, rfl⟩
  · exact hcs hinfix

theorem splitPairs_of_no_pair (h : ¬ ['_', '_'] <:+: cs) : splitPairs cs = [cs] := by
  induction cs with
  | nil => rw [splitPairs]
  | cons c cs ih =>
    obtain ⟨hfront, hcs⟩ := no_pair_of_cons h
    exact splitPairs_cons hfront (ih hcs)

theorem splitPairs_append (h : ¬ ['_', '_'] <:+: part) (hend : part.getLast? ≠ some '_')
    (rest : List Char) : splitPairs (part ++ '_' :: '_' :: rest) = part :: splitPairs rest := by
  induction part with
  | nil => rw [List.nil_append, splitPairs]
  | cons c part ih =>
    obtain ⟨hfront, hpart⟩ := no_pair_of_cons h
    rw [List.cons_append]
    cases part with
    | nil =>
      refine splitPairs_cons ?_ (by rw [List.nil_append, splitPairs])
      rintro ⟨rfl, -⟩
      exact hend rfl
    | cons d part =>
      rw [List.getLast?_cons_cons] at hend
      exact splitPairs_cons hfront (ih hpart hend)

/-- A letter in front that does not make a pair belongs to the first piece. -/
theorem Pieces.cons_letter (h : ¬ (c = '_' ∧ cs.head? = some '_'))
    (hcs : Pieces cs (part :: parts)) : Pieces (c :: cs) ((c :: part) :: parts) := by
  cases hcs with
  | last hpart => exact .last (no_pair_cons h hpart)
  | @cons _ rest _ hpart hend hrest =>
    cases part with
    | nil =>
      have hc : c ≠ '_' := fun hc => h ⟨hc, rfl⟩
      refine .cons (no_pair_cons (fun hd => hc hd.1) hpart) ?_ hrest
      intro hlast
      exact hc (Option.some.inj hlast)
    | cons d part =>
      have hfront : ¬ (c = '_' ∧ (d :: part).head? = some '_') := h
      refine .cons (no_pair_cons hfront hpart) ?_ hrest
      rw [List.getLast?_cons_cons]
      exact hend

theorem pieces_splitPairs (cs : List Char) : Pieces cs (splitPairs cs) := by
  fun_induction splitPairs cs with
  | case1 => exact .last (by simp)
  | case2 cs ih => exact @Pieces.cons [] cs _ (by simp) (by simp) ih
  | case3 c cs hpair hnil ih =>
    rw [hnil] at ih
    cases ih
  | case4 c cs hpair part parts hparts ih =>
    rw [hparts] at ih
    refine Pieces.cons_letter ?_ ih
    rintro ⟨rfl, hd⟩
    obtain ⟨cs', rfl⟩ := List.head?_eq_some_iff.mp hd
    exact hpair cs' rfl rfl

theorem splitPairs_eq_iff : splitPairs rest = parts ↔ Pieces rest parts := by
  refine ⟨fun h => h ▸ pieces_splitPairs rest, ?_⟩
  intro h
  induction h with
  | last hpart => exact splitPairs_of_no_pair hpart
  | cons hpart hend _ ih => rw [splitPairs_append hpart hend, ih]

theorem Pieces.ne_nil (h : Pieces rest parts) : parts ≠ [] := by
  cases h <;> simp

theorem Pieces.joined (h : Pieces rest parts) : ['_', '_'].intercalate parts = rest := by
  induction h with
  | last => exact List.intercalate_singleton
  | cons _ _ hrest ih =>
    rw [List.intercalate_cons_of_ne_nil hrest.ne_nil, ih, List.append_assoc]
    rfl

theorem intercalate_isPrefixOf (sep : List Char) {xs ys : List (List Char)} (hne : xs ≠ [])
    (h : xs <+: ys) : sep.intercalate xs <+: sep.intercalate ys := by
  obtain ⟨zs, rfl⟩ := h
  induction xs with
  | nil => exact absurd rfl hne
  | cons x xs ih =>
    cases xs with
    | nil =>
      cases zs with
      | nil => exact List.prefix_refl _
      | cons z zs =>
        rw [List.intercalate_singleton, List.singleton_append, List.intercalate_cons_cons,
          List.append_assoc]
        exact List.prefix_append x _
    | cons x' xs =>
      rw [List.cons_append, List.cons_append, List.intercalate_cons_cons,
        List.intercalate_cons_cons]
      exact (List.prefix_append_right_inj _).mpr (ih (by simp))

/-! ### Plain letters -/

theorem toNat_lt_of_plain (h : plainLetter c = true) : c.toNat < 0x80 := by
  have hupto : ∀ d : Char, d.toNat < 0x80 → c.val ≤ d.val → c.toNat < 0x80 :=
    fun d hd hcd => Nat.lt_of_le_of_lt (UInt32.le_iff_toNat_le.mp hcd) hd
  rw [plainLetter, Bool.or_eq_true, Bool.or_eq_true, beq_iff_eq] at h
  rcases h with (hupper | hdigit) | rfl
  · exact hupto 'Z' (by decide) (of_decide_eq_true hupper).2
  · exact hupto '9' (by decide) (of_decide_eq_true (Bool.and_eq_true_iff.mp hdigit).2)
  · decide

theorem toUpper_toLower_of_plain (h : plainLetter c = true) : c.toLower.toUpper = c := by
  have hascii : ∀ n < 0x80, plainLetter (Char.ofNat n) = true →
      (Char.ofNat n).toLower.toUpper = Char.ofNat n := by decide +kernel
  have hchar := Char.ofNat_toNat c
  rw [← hchar] at h ⊢
  exact hascii c.toNat (toNat_lt_of_plain (hchar ▸ h)) h

theorem lowerAfter_of_plain (before : List Char) (h : ∀ c ∈ cs, plainLetter c = true) :
    Text.lowerAfter before cs = cs.map Char.toLower := by
  induction cs generalizing before with
  | nil => rfl
  | cons c cs ih =>
    rw [List.forall_mem_cons] at h
    have hascii := toNat_lt_of_plain h.1
    have hsigma : c ≠ 'Σ' := by
      rintro rfl
      exact absurd hascii (by decide)
    rw [Text.lowerAfter, if_neg hsigma, Text.lowerChar, if_pos hascii, ih _ h.2]
    rfl

theorem lower_of_plain (h : ∀ c ∈ cs, plainLetter c = true) :
    Text.lower (String.ofList cs) = String.ofList (cs.map Char.toLower) := by
  rw [Text.lower, String.toList_ofList, lowerAfter_of_plain [] h]

theorem capitals_of_plain (h : ∀ c ∈ part, plainLetter c = true) :
    capitals (.key (String.ofList (part.map Char.toLower))) = part := by
  rw [capitals, String.toList_ofList, List.map_map]
  have heach := List.map_congr_left fun c hc => toUpper_toLower_of_plain (h c hc)
  exact heach.trans (List.map_id part)

/-! ### The path of a name -/

theorem strip?_eq_some_iff {front : List Char} : strip? front cs = some rest ↔
    cs = front ++ rest := by
  fun_induction strip? front cs with
  | case1 cs => simp
  | case2 d ds => simp
  | case3 ds c cs ih => simpa using ih
  | case4 d ds c cs hne =>
    constructor
    · intro h
      cases h
    · intro h
      exact absurd (List.cons.inj h).1.symm hne

theorem path?_eq_some_iff : path? rest = some p ↔ ∃ parts, Pieces rest parts ∧
    (∀ part ∈ parts, part ≠ []) ∧
      p = parts.map fun part => .key (Text.lower (String.ofList part)) := by
  have hany : (splitPairs rest).any (· = []) = true ↔ ¬ ∀ part ∈ splitPairs rest, part ≠ [] := by
    simp
  constructor
  · intro h
    rw [path?] at h
    split at h
    · cases h
    · next hempty =>
      rw [hany, not_not] at hempty
      exact ⟨_, pieces_splitPairs rest, hempty, (Option.some.inj h).symm⟩
  · rintro ⟨parts, hparts, hne, rfl⟩
    obtain rfl := splitPairs_eq_iff.mpr hparts
    rw [path?, if_neg (by rw [hany, not_not]; exact hne)]

theorem Pieces.plain (h : Pieces rest parts) (hrest : ∀ c ∈ rest, plainLetter c = true) :
    ∀ part ∈ parts, ∀ c ∈ part, plainLetter c = true := by
  induction h with
  | last => exact List.forall_mem_singleton.mpr hrest
  | cons _ _ _ ih =>
    rw [List.forall_mem_append, List.forall_mem_cons, List.forall_mem_cons] at hrest
    exact List.forall_mem_cons.mpr ⟨hrest.1, ih hrest.2.2.2⟩

theorem Pieces.lower_eq (h : Pieces rest parts) (hrest : ∀ c ∈ rest, plainLetter c = true) :
    (parts.map fun part => Segment.key (Text.lower (String.ofList part))) =
      parts.map fun part => .key (String.ofList (part.map Char.toLower)) := by
  refine List.map_congr_left fun part hpart => ?_
  rw [lower_of_plain (h.plain hrest part hpart)]

theorem marker_append (name : String) (rest : List Char) :
    marker name ++ rest = (Text.upper name).toList ++ '_' :: '_' :: rest := by
  rw [marker, List.append_assoc]
  rfl

theorem PlainName.of_rest (hvar : PlainName var) (h : var.toList = marker name ++ rest) :
    ∀ c ∈ rest, plainLetter c = true :=
  fun c hc => hvar c (h ▸ List.mem_append_right _ hc)

theorem denoted?_eq_some_iff (hvar : PlainName var) :
    denoted? name var = some p ↔ Denotes name var p := by
  simp only [denoted?, Option.bind_eq_some_iff, strip?_eq_some_iff, path?_eq_some_iff, Denotes,
    ← marker_append]
  constructor
  · rintro ⟨rest, hletters, parts, hparts, hne, rfl⟩
    exact ⟨rest, parts, hletters, hparts, hne, hparts.lower_eq (hvar.of_rest hletters)⟩
  · rintro ⟨rest, parts, hletters, hparts, hne, rfl⟩
    exact ⟨rest, hletters, parts, hparts, hne, (hparts.lower_eq (hvar.of_rest hletters)).symm⟩

/-! ### The name of a path -/

theorem Denotes.ne_nil (h : Denotes name var p) : p ≠ [] := by
  obtain ⟨rest, parts, -, hparts, -, rfl⟩ := h
  simpa using hparts.ne_nil

theorem Denotes.isKey (h : Denotes name var p) : ∀ s ∈ p, s.isKey = true := by
  obtain ⟨rest, parts, -, -, -, rfl⟩ := h
  intro s hs
  obtain ⟨part, -, rfl⟩ := List.mem_map.mp hs
  rfl

theorem Pieces.capitals_eq (h : Pieces rest parts) (hrest : ∀ c ∈ rest, plainLetter c = true) :
    (parts.map fun part => Segment.key (String.ofList (part.map Char.toLower))).map capitals =
      parts := by
  rw [List.map_map]
  have heach := List.map_congr_left fun part hpart =>
    capitals_of_plain (h.plain hrest part hpart)
  exact heach.trans (List.map_id parts)

theorem Denotes.spelled (h : Denotes name var p) (hvar : PlainName var) :
    var.toList = marker name ++ ['_', '_'].intercalate (p.map capitals) := by
  obtain ⟨rest, parts, hletters, hparts, -, rfl⟩ := h
  rw [← marker_append] at hletters
  rw [hparts.capitals_eq (hvar.of_rest hletters), hparts.joined, hletters]

theorem Denotes.eq_of_path (h : Denotes name var p) (h' : Denotes name var' p)
    (hvar : PlainName var) (hvar' : PlainName var') : var = var' := by
  rw [String.ext_iff, h.spelled hvar, h'.spelled hvar']

/-- A name comes before the names of the paths that its path leads to. -/
theorem Denotes.not_lt (h : Denotes name var p) (h' : Denotes name var' q)
    (hvar : PlainName var) (hvar' : PlainName var') (hpq : p <+: q) :
    compare var' var ≠ .lt := by
  have hprefix : var.toList <+: var'.toList := by
    rw [h.spelled hvar, h'.spelled hvar']
    exact (List.prefix_append_right_inj _).mpr
      (intercalate_isPrefixOf _ (by simpa using h.ne_nil) (hpq.map capitals))
  intro hlt
  exact hprefix.le (String.lt_iff.mp (compareOfLessAndEq_eq_lt.mp hlt))

end LayeredConfig.Environment
