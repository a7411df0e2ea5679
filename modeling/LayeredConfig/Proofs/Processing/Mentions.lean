import LayeredConfig.Proofs.Processing.Clean

/-!
# The profiles that a tree mentions

A tree mentions the profiles that the decorations of its keys list, at every depth of the tree and
at every level of a stacked decoration (`Tree.mentions`).  Processing asks of a profile set only
which of these it holds:

    P and Q agree on t.mentions → P.process t = Q.process t              (process_eq_of_agrees)

The removal pass does not look at the profiles and brings no key in, so that what it leaves mentions
no more than the tree did; of what it leaves, the profile pass asks key by key.
-/

namespace LayeredConfig

/-- The profiles that the decorations of a key list, level by level. -/
def Decoration.mentions (key : List Char) : List String :=
  match _h : parse? key with
  | none => []
  | some d => d.profiles.map String.ofList ++ mentions d.name
termination_by key.length
decreasing_by exact length_name_lt _h

namespace Tree

mutual

/-- The profiles that the decorations of the tree's keys list, at every depth. -/
def mentions : Tree → List String
  | value _ => []
  | array ts => mentionsItems ts
  | map es => mentionsEntries es

def mentionsItems : List Tree → List String
  | [] => []
  | t :: ts => mentions t ++ mentionsItems ts

def mentionsEntries : List (String × Tree) → List String
  | [] => []
  | (k, t) :: es => Decoration.mentions k.toList ++ mentions t ++ mentionsEntries es

end

end Tree

/-- Each of the names is in both sets or in neither. -/
def ProfileSet.Agrees (P Q : ProfileSet) (names : List String) : Prop :=
  ∀ x ∈ names, x ∈ P ↔ x ∈ Q

/-! ## Lemmas -/

theorem Decoration.mentions_of_parse? {key : List Char} {d : Decoration}
    (h : parse? key = some d) :
    mentions key = d.profiles.map String.ofList ++ mentions d.name := by
  rw [mentions]
  split
  · next hd =>
    rw [h] at hd
    cases hd
  · next d' hd =>
    obtain rfl := Option.some.inj (h.symm.trans hd)
    rfl

namespace Tree

theorem mem_mentions_array {x : String} {ts : List Tree} :
    x ∈ (array ts).mentions ↔ ∃ t ∈ ts, x ∈ t.mentions := by
  show x ∈ mentionsItems ts ↔ _
  induction ts with
  | nil => simp [mentionsItems]
  | cons t ts ih => rw [mentionsItems, List.mem_append, ih, List.exists_mem_cons_iff]

theorem mem_mentions_map {x : String} {es : List (String × Tree)} :
    x ∈ (map es).mentions ↔
      ∃ e ∈ es, x ∈ Decoration.mentions e.1.toList ∨ x ∈ e.2.mentions := by
  show x ∈ mentionsEntries es ↔ _
  induction es with
  | nil => simp [mentionsEntries]
  | cons e es ih =>
    rw [mentionsEntries, List.mem_append, List.mem_append, ih, List.exists_mem_cons_iff]

/-- The removal pass brings in no key, and so no profile. -/
theorem mem_mentions_of_removeMarked {x : String} {t : Tree} (h : x ∈ t.removeMarked.mentions) :
    x ∈ t.mentions := by
  induction t using Tree.induction with
  | value s => rwa [removeMarked] at h
  | array ts ih =>
    rw [removeMarked_array, mem_mentions_array] at h
    obtain ⟨_, hu, hx⟩ := h
    obtain ⟨t, ht, rfl⟩ := List.mem_map.mp hu
    exact mem_mentions_array.mpr ⟨t, ht, ih t ht hx⟩
  | map es ih =>
    rw [removeMarked_map, mem_mentions_map] at h
    obtain ⟨_, hd, hx⟩ := h
    obtain ⟨e, he, rfl⟩ := List.mem_map.mp hd
    have he := (List.mem_filter.mp he).1
    exact mem_mentions_map.mpr ⟨e, he, hx.imp_right (ih e he)⟩

end Tree

namespace ProfileSet

variable {P Q : ProfileSet}

theorem Agrees.mono {xs ys : List String} (h : P.Agrees Q ys) (hsub : ∀ x ∈ xs, x ∈ ys) :
    P.Agrees Q xs :=
  fun x hx => h x (hsub x hx)

theorem meets_eq_of_agrees {names : List String} (h : P.Agrees Q names) :
    P.meets names = Q.meets names := by
  unfold meets
  rw [Bool.eq_iff_iff, List.any_eq_true, List.any_eq_true]
  simp only [decide_eq_true_eq]
  constructor
  · rintro ⟨x, hx, hP⟩
    exact ⟨x, hx, (h x hx).mp hP⟩
  · rintro ⟨x, hx, hQ⟩
    exact ⟨x, hx, (h x hx).mpr hQ⟩

/-- Agreement on what a key mentions is agreement on its last decoration and on what the name before
it mentions. -/
theorem agrees_levels {key : List Char} {d : Decoration} (hd : Decoration.parse? key = some d)
    (h : P.Agrees Q (Decoration.mentions key)) :
    P.Agrees Q (d.profiles.map String.ofList) ∧ P.Agrees Q (Decoration.mentions d.name) := by
  rw [Decoration.mentions_of_parse? hd] at h
  exact ⟨h.mono fun _ => List.mem_append_left _, h.mono fun _ => List.mem_append_right _⟩

/-- What becomes of a key, by the profiles that its decorations list. -/
theorem resolveLetters_eq_of_agrees {key : List Char} (h : P.Agrees Q (Decoration.mentions key)) :
    P.resolveLetters key = Q.resolveLetters key := by
  fun_induction P.resolveLetters key with
  | case1 key hd => rw [resolveLetters_of_plain Q hd]
  | case2 key d hd hmeets ih =>
    obtain ⟨hlevel, hname⟩ := agrees_levels hd h
    rw [resolveLetters_of_decorated Q hd, ← meets_eq_of_agrees hlevel, if_pos hmeets, ih hname]
  | case3 key d hd hmeets =>
    obtain ⟨hlevel, -⟩ := agrees_levels hd h
    rw [resolveLetters_of_decorated Q hd, ← meets_eq_of_agrees hlevel, if_neg hmeets]

theorem resolve?_eq_of_agrees {key : String} (h : P.Agrees Q (Decoration.mentions key.toList)) :
    P.resolve? key = Q.resolve? key := by
  rw [resolve?, resolve?, resolveLetters_eq_of_agrees h]

theorem select_eq_of_agrees {t : Tree} (h : P.Agrees Q t.mentions) : P.select t = Q.select t := by
  induction t using Tree.induction with
  | value s => rw [select, select]
  | array ts ih =>
    rw [select_array, select_array]
    congr 1
    apply List.map_congr_left
    intro t ht
    exact ih t ht (h.mono fun x hx => Tree.mem_mentions_array.mpr ⟨t, ht, hx⟩)
  | map es ih =>
    rw [select_map, select_map]
    congr 2
    apply List.filterMap_congr
    intro e he
    have hkey : P.resolve? e.1 = Q.resolve? e.1 :=
      resolve?_eq_of_agrees (h.mono fun x hx => Tree.mem_mentions_map.mpr ⟨e, he, .inl hx⟩)
    have hchild : P.select e.2 = Q.select e.2 :=
      ih e he (h.mono fun x hx => Tree.mem_mentions_map.mpr ⟨e, he, .inr hx⟩)
    rw [hkey, hchild]

theorem process_eq_of_agrees {t : Tree} (h : P.Agrees Q t.mentions) :
    P.process t = Q.process t :=
  select_eq_of_agrees (h.mono fun _ => Tree.mem_mentions_of_removeMarked)

end ProfileSet

end LayeredConfig
