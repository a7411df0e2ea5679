/-! Association lists that keep the order of insertion.

A map with visible order is a list of pairs.  `insert` replaces the value of a present key where it
stands and puts a new key last; `erase` closes the gap.  `insertSorted` keeps the keys ascending
instead.

Main facts: `get?_insert`, `keys_insert_of_mem`, `keys_insert_of_not_mem`, `get?_erase`,
`erase_eq_filter`, `exists_split_of_get?`, `ofList_eq_self`, `get?_ofList`, `mem_ofList_iff`,
`keys_ofList`. -/

namespace LayeredConfig.Assoc

variable {α β : Type} [DecidableEq α]

def keys (es : List (α × β)) : List α := es.map Prod.fst

/-- The value of the first entry of the key. -/
def get? (k : α) : List (α × β) → Option β
  | [] => none
  | e :: es => if e.1 = k then some e.2 else get? k es

def insert (k : α) (v : β) : List (α × β) → List (α × β)
  | [] => [(k, v)]
  | e :: es => if e.1 = k then (k, v) :: es else e :: insert k v es

def erase (k : α) : List (α × β) → List (α × β)
  | [] => []
  | e :: es => if e.1 = k then es else e :: erase k es

/-- Entries taken one after the other: the last value of a key, at its first position. -/
def ofList (es : List (α × β)) : List (α × β) :=
  es.foldl (fun acc e => insert e.1 e.2 acc) []

/-- Insertion by ascending key; a present key takes the new value. -/
def insertSorted (cmp : α → α → Ordering) (k : α) (v : β) : List (α × β) → List (α × β)
  | [] => [(k, v)]
  | e :: es =>
    match cmp k e.1 with
    | .lt => (k, v) :: e :: es
    | .eq => (e.1, v) :: es
    | .gt => e :: insertSorted cmp k v es

/-! ## Lemmas -/

omit [DecidableEq α] in
@[simp] theorem keys_nil : keys ([] : List (α × β)) = [] := rfl

omit [DecidableEq α] in
@[simp] theorem keys_cons (e : α × β) (es : List (α × β)) : keys (e :: es) = e.1 :: keys es := rfl

theorem get?_insert (k j : α) (v : β) (es : List (α × β)) :
    get? j (insert k v es) = if k = j then some v else get? j es := by
  induction es with
  | nil => simp [insert, get?]
  | cons e es ih =>
    simp only [insert]
    by_cases he : e.1 = k
    · subst he
      simp only [if_true, get?]
      split <;> rfl
    · rw [if_neg he]
      simp only [get?, ih]
      by_cases hk : k = j
      · subst hk; simp [he]
      · simp [hk]

theorem get?_eq_none_iff (k : α) (es : List (α × β)) : get? k es = none ↔ k ∉ keys es := by
  induction es with
  | nil => simp [get?]
  | cons e es ih =>
    simp only [get?, keys_cons, List.mem_cons, not_or]
    split
    · next h => simp [h]
    · next h => exact ⟨fun hn => ⟨fun hk => h hk.symm, ih.mp hn⟩, fun hn => ih.mpr hn.2⟩

theorem keys_insert_of_mem {k : α} {es : List (α × β)} (v : β) (h : k ∈ keys es) :
    keys (insert k v es) = keys es := by
  induction es with
  | nil => cases h
  | cons e es ih =>
    simp only [insert]
    split
    · next he => simp [he]
    · next he =>
      rw [keys_cons, List.mem_cons] at h
      rw [keys_cons, keys_cons, ih (h.resolve_left fun hk => he hk.symm)]

theorem insert_of_not_mem {k : α} {es : List (α × β)} (v : β) (h : k ∉ keys es) :
    insert k v es = es ++ [(k, v)] := by
  induction es with
  | nil => rfl
  | cons e es ih =>
    rw [keys_cons, List.mem_cons, not_or] at h
    rw [insert, if_neg fun he => h.1 he.symm, ih h.2, List.cons_append]

theorem keys_insert_of_not_mem {k : α} {es : List (α × β)} (v : β) (h : k ∉ keys es) :
    keys (insert k v es) = keys es ++ [k] := by
  rw [insert_of_not_mem v h]
  simp [keys]

theorem nodup_keys_insert (k : α) (v : β) {es : List (α × β)} (h : (keys es).Nodup) :
    (keys (insert k v es)).Nodup := by
  by_cases hk : k ∈ keys es
  · rw [keys_insert_of_mem v hk]; exact h
  · rw [keys_insert_of_not_mem v hk, List.nodup_append]
    refine ⟨h, by simp, ?_⟩
    intro a ha b hb hab
    rw [List.mem_singleton] at hb
    exact hk (hb ▸ hab ▸ ha)

omit [DecidableEq α] in
/-- Where no key comes twice, that of an entry does not come before it. -/
theorem not_mem_keys_of_nodup {e : α × β} {front back : List (α × β)}
    (h : (keys (front ++ e :: back)).Nodup) : e.1 ∉ keys front := by
  rw [keys, List.map_append, List.nodup_append] at h
  exact fun he => h.2.2 e.1 he e.1 List.mem_cons_self rfl

theorem get?_erase {es : List (α × β)} (h : (keys es).Nodup) (k j : α) :
    get? j (erase k es) = if k = j then none else get? j es := by
  induction es with
  | nil => simp [erase, get?]
  | cons e es ih =>
    rw [keys_cons, List.nodup_cons] at h
    simp only [erase]
    by_cases he : e.1 = k
    · rw [if_pos he]
      by_cases hk : k = j
      · rw [if_pos hk, get?_eq_none_iff, ← hk, ← he]
        exact h.1
      · rw [if_neg hk, get?, if_neg fun hj => hk (he ▸ hj)]
    · rw [if_neg he]
      simp only [get?, ih h.2]
      by_cases hk : k = j
      · subst hk; simp [he]
      · simp [hk]

theorem mem_insert {e : α × β} {k : α} {v : β} {es : List (α × β)} (h : e ∈ insert k v es) :
    e = (k, v) ∨ e ∈ es := by
  induction es with
  | nil => exact .inl (List.mem_singleton.mp h)
  | cons d es ih =>
    rw [insert] at h
    split at h
    · rcases List.mem_cons.mp h with h | h
      · exact .inl h
      · exact .inr (List.mem_cons_of_mem d h)
    · rcases List.mem_cons.mp h with rfl | h
      · exact .inr List.mem_cons_self
      · exact (ih h).imp_right (List.mem_cons_of_mem d)

theorem mem_of_mem_erase {e : α × β} {k : α} {es : List (α × β)} (h : e ∈ erase k es) : e ∈ es := by
  induction es with
  | nil => cases h
  | cons d es ih =>
    rw [erase] at h
    split at h
    · exact List.mem_cons_of_mem d h
    · rcases List.mem_cons.mp h with rfl | h
      · exact List.mem_cons_self
      · exact List.mem_cons_of_mem d (ih h)

theorem get?_of_mem {e : α × β} {es : List (α × β)} (h : (keys es).Nodup) (he : e ∈ es) :
    get? e.1 es = some e.2 := by
  induction es with
  | nil => cases he
  | cons d es ih =>
    rw [keys_cons, List.nodup_cons] at h
    rw [get?]
    rcases List.mem_cons.mp he with rfl | he
    · rw [if_pos rfl]
    · have hne : d.1 ≠ e.1 := by
        intro hd
        exact h.1 (hd ▸ List.mem_map_of_mem he)
      rw [if_neg hne, ih h.2 he]

theorem mem_of_get? {k : α} {v : β} {es : List (α × β)} (h : get? k es = some v) :
    (k, v) ∈ es := by
  induction es with
  | nil => cases h
  | cons e es ih =>
    rw [get?] at h
    split at h
    · next he =>
      obtain rfl := Option.some.inj h
      rw [← he]
      exact List.mem_cons_self
    · exact List.mem_cons_of_mem e (ih h)

theorem get?_eq_of_perm {es fs : List (α × β)}
    (h : (keys es).Nodup) (hperm : es.Perm fs) (k : α) : get? k es = get? k fs := by
  have hfs : (keys fs).Nodup := (hperm.map Prod.fst).nodup_iff.mp h
  cases hk : get? k es with
  | some v => exact (get?_of_mem hfs (hperm.mem_iff.mp (mem_of_get? hk))).symm
  | none =>
    have hnot : k ∉ keys fs := fun hmem =>
      (get?_eq_none_iff k es).mp hk ((hperm.map Prod.fst).mem_iff.mpr hmem)
    exact ((get?_eq_none_iff k fs).mpr hnot).symm

theorem get?_append (k : α) (es fs : List (α × β)) :
    get? k (es ++ fs) = (get? k es).or (get? k fs) := by
  induction es with
  | nil => rfl
  | cons e es ih =>
    rw [List.cons_append, get?, get?, ih]
    split <;> rfl

theorem erase_eq_filter {es : List (α × β)} (h : (keys es).Nodup) (k : α) :
    erase k es = es.filter fun e => e.1 ≠ k := by
  induction es with
  | nil => rfl
  | cons e es ih =>
    rw [keys_cons, List.nodup_cons] at h
    rw [erase, List.filter_cons]
    by_cases he : e.1 = k
    · subst he
      have hall : ∀ d ∈ es, decide (d.1 ≠ e.1) = true := by
        intro d hd
        refine decide_eq_true fun hde => h.1 ?_
        exact hde ▸ List.mem_map_of_mem hd
      rw [if_pos rfl, if_neg (by simp), List.filter_eq_self.mpr hall]
    · rw [if_neg he, if_pos (by simpa using he), ih h.2]

/-- Taking an entry out and putting it last names no key twice. -/
theorem nodup_keys_erase_append {es : List (α × β)} (h : (keys es).Nodup) (k : α) (v : β) :
    (keys (erase k es ++ [(k, v)])).Nodup := by
  rw [erase_eq_filter h]
  unfold keys at h ⊢
  rw [List.map_append, List.nodup_append]
  refine ⟨h.sublist (List.filter_sublist.map _), by simp, ?_⟩
  intro a ha b hb
  obtain ⟨e, he, rfl⟩ := List.mem_map.mp ha
  rw [List.map_cons, List.map_nil, List.mem_singleton] at hb
  rw [hb]
  simpa using (List.mem_filter.mp he).2

/-! ### A key where it stands -/

theorem exists_split_of_get? {k : α} {v : β} {es : List (α × β)} (h : get? k es = some v) :
    ∃ front back, es = front ++ (k, v) :: back ∧ k ∉ keys front := by
  induction es with
  | nil => cases h
  | cons e es ih =>
    rw [get?] at h
    split at h
    · next he =>
      obtain rfl := Option.some.inj h
      exact ⟨[], es, by rw [← he]; rfl, List.not_mem_nil⟩
    · next he =>
      obtain ⟨front, back, rfl, hk⟩ := ih h
      refine ⟨e :: front, back, rfl, ?_⟩
      rw [keys_cons, List.mem_cons, not_or]
      exact ⟨fun hke => he hke.symm, hk⟩

theorem get?_append_cons_self {k : α} {front : List (α × β)} (h : k ∉ keys front) (v : β)
    (back : List (α × β)) : get? k (front ++ (k, v) :: back) = some v := by
  rw [get?_append, (get?_eq_none_iff k front).mpr h, Option.none_or, get?, if_pos rfl]

theorem get?_append_cons_of_ne {j k : α} (h : j ≠ k) (v : β) (front back : List (α × β)) :
    get? j (front ++ (k, v) :: back) = get? j (front ++ back) := by
  rw [get?_append, get?_append, get?, if_neg fun hk => h hk.symm]

theorem insert_append_cons {k : α} {front : List (α × β)} (h : k ∉ keys front) (v w : β)
    (back : List (α × β)) : insert k v (front ++ (k, w) :: back) = front ++ (k, v) :: back := by
  induction front with
  | nil => exact if_pos rfl
  | cons e front ih =>
    rw [keys_cons, List.mem_cons, not_or] at h
    rw [List.cons_append, insert, if_neg fun he => h.1 he.symm, ih h.2, List.cons_append]

/-- Putting in what is there changes nothing. -/
theorem insert_of_get? {k : α} {v : β} {es : List (α × β)} (h : get? k es = some v) :
    insert k v es = es := by
  obtain ⟨front, back, rfl, hk⟩ := exists_split_of_get? h
  exact insert_append_cons hk v v back

theorem erase_append_cons {k : α} {front : List (α × β)} (h : k ∉ keys front) (v : β)
    (back : List (α × β)) : erase k (front ++ (k, v) :: back) = front ++ back := by
  induction front with
  | nil => exact if_pos rfl
  | cons e front ih =>
    rw [keys_cons, List.mem_cons, not_or] at h
    rw [List.cons_append, erase, if_neg fun he => h.1 he.symm, ih h.2, List.cons_append]

theorem erase_of_not_mem {k : α} {es : List (α × β)} (h : k ∉ keys es) : erase k es = es := by
  induction es with
  | nil => rfl
  | cons e es ih =>
    rw [keys_cons, List.mem_cons, not_or] at h
    rw [erase, if_neg fun he => h.1 he.symm, ih h.2]

/-! ### A key left out -/

theorem filter_insert_self (k : α) (v : β) (es : List (α × β)) :
    (insert k v es).filter (fun e => e.1 ≠ k) = es.filter fun e => e.1 ≠ k := by
  induction es with
  | nil => simp [insert]
  | cons e es ih =>
    rw [insert]
    split
    · next he => simp [he]
    · next he =>
      rw [List.filter_cons, if_pos (decide_eq_true he), List.filter_cons,
        if_pos (decide_eq_true he), ih]

theorem filter_insert_of_ne {j k : α} (h : j ≠ k) (v : β) (es : List (α × β)) :
    (insert j v es).filter (fun e => e.1 ≠ k) = insert j v (es.filter fun e => e.1 ≠ k) := by
  induction es with
  | nil => simp [insert, h]
  | cons e es ih =>
    rw [insert]
    by_cases he : e.1 = j
    · have hek : e.1 ≠ k := he ▸ h
      rw [if_pos he, List.filter_cons, if_pos (decide_eq_true h), List.filter_cons,
        if_pos (decide_eq_true hek), insert, if_pos he]
    · rw [if_neg he, List.filter_cons, List.filter_cons, ih]
      split
      · rw [insert, if_neg he]
      · rfl

theorem get?_filter_of_ne {j k : α} (h : j ≠ k) (es : List (α × β)) :
    get? j (es.filter fun e => e.1 ≠ k) = get? j es := by
  induction es with
  | nil => rfl
  | cons e es ih =>
    rw [List.filter_cons]
    split
    · rw [get?, get?, ih]
    · next he =>
      have hek : e.1 = k := by simpa using he
      rw [ih, get?, if_neg fun hj => h (hj.symm.trans hek)]

/-- Up to order, putting in is leaving out and adding. -/
theorem perm_insert {es : List (α × β)} (h : (keys es).Nodup) (k : α) (v : β) :
    (insert k v es).Perm ((k, v) :: es.filter fun e => e.1 ≠ k) := by
  induction es with
  | nil => exact List.Perm.refl _
  | cons e es ih =>
    rw [keys_cons, List.nodup_cons] at h
    rw [insert, List.filter_cons]
    by_cases he : e.1 = k
    · have hnot : k ∉ keys es := he ▸ h.1
      rw [if_pos he, if_neg (by simpa using he), ← erase_eq_filter h.2, erase_of_not_mem hnot]
    · rw [if_neg he, if_pos (by simpa using he)]
      exact ((ih h.2).cons e).trans (List.Perm.swap _ _ _)

/-! ### Entries taken one after the other -/

theorem nodup_keys_ofList (es : List (α × β)) : (keys (ofList es)).Nodup := by
  have hfold : ∀ acc : List (α × β), (keys acc).Nodup →
      (keys (es.foldl (fun acc e => insert e.1 e.2 acc) acc)).Nodup := by
    induction es with
    | nil => exact fun acc h => h
    | cons e es ih => exact fun acc h => ih _ (nodup_keys_insert e.1 e.2 h)
  exact hfold [] List.nodup_nil

theorem mem_of_mem_ofList {e : α × β} {es : List (α × β)} (h : e ∈ ofList es) : e ∈ es := by
  have hfold : ∀ acc : List (α × β), e ∈ es.foldl (fun acc e => insert e.1 e.2 acc) acc →
      e ∈ acc ∨ e ∈ es := by
    clear h
    induction es with
    | nil => exact fun acc h => .inl h
    | cons d es ih =>
      intro acc h
      rcases ih _ h with h | h
      · rcases mem_insert h with h | h
        · exact .inr (h ▸ List.mem_cons_self)
        · exact .inl h
      · exact .inr (List.mem_cons_of_mem d h)
  rcases hfold [] h with h | h
  · cases h
  · exact h

theorem ofList_eq_self {es : List (α × β)} (h : (keys es).Nodup) : ofList es = es := by
  have hfold : ∀ acc : List (α × β), (keys (acc ++ es)).Nodup →
      es.foldl (fun acc e => insert e.1 e.2 acc) acc = acc ++ es := by
    clear h
    induction es with
    | nil => exact fun acc _ => (List.append_nil acc).symm
    | cons e es ih =>
      intro acc h
      have hnew : e.1 ∉ keys acc := not_mem_keys_of_nodup h
      rw [List.foldl_cons, insert_of_not_mem e.2 hnew, ih _ (by simpa using h)]
      simp
  exact hfold [] h

/-- Of the entries of a key the last one counts. -/
theorem get?_ofList (k : α) (es : List (α × β)) :
    get? k (ofList es) = (es.filter fun e => e.1 = k).getLast?.map Prod.snd := by
  have hfold : ∀ acc : List (α × β), get? k (es.foldl (fun acc e => insert e.1 e.2 acc) acc) =
      ((es.filter fun e => e.1 = k).getLast?.map Prod.snd).or (get? k acc) := by
    induction es with
    | nil => exact fun acc => rfl
    | cons e es ih =>
      intro acc
      rw [List.foldl_cons, ih, get?_insert, List.filter_cons]
      by_cases he : e.1 = k
      · rw [if_pos he, if_pos (decide_eq_true he), List.getLast?_cons]
        cases (es.filter fun e => e.1 = k).getLast? <;> rfl
      · rw [if_neg he, if_neg (by simpa using he)]
  rw [ofList, hfold, get?, Option.or_none]

/-- An entry lasts when no later one has its key. -/
theorem mem_ofList_iff {k : α} {v : β} {es : List (α × β)} : (k, v) ∈ ofList es ↔
    ∃ front back, es = front ++ (k, v) :: back ∧ k ∉ keys back := by
  have hget : (k, v) ∈ ofList es ↔ get? k (ofList es) = some v :=
    ⟨get?_of_mem (nodup_keys_ofList es), mem_of_get?⟩
  rw [hget, get?_ofList, List.getLast?_filter, Option.map_eq_some_iff]
  constructor
  · rintro ⟨e, he, rfl⟩
    obtain ⟨hk, back, front, hes, hback⟩ := List.find?_eq_some_iff_append.mp he
    obtain rfl : e.1 = k := by simpa using hk
    refine ⟨front.reverse, back.reverse, ?_, ?_⟩
    · rw [← List.reverse_reverse es, hes]
      simp
    · intro hmem
      obtain ⟨d, hd, hde⟩ := List.mem_map.mp hmem
      have hne := hback d (List.mem_reverse.mp hd)
      simp [hde] at hne
  · rintro ⟨front, back, rfl, hback⟩
    refine ⟨(k, v), List.find?_eq_some_iff_append.mpr
      ⟨by simp, back.reverse, front.reverse, ?_, ?_⟩, rfl⟩
    · simp
    · intro d hd
      have hne : d.1 ≠ k := fun h => hback (h ▸ List.mem_map_of_mem (List.mem_reverse.mp hd))
      simpa using hne

/-- A key stands where its first entry stood. -/
theorem keys_ofList (es : List (α × β)) : keys (ofList es) = (keys es).eraseDups := by
  have hfold : ∀ acc : List (α × β), keys (es.foldl (fun acc e => insert e.1 e.2 acc) acc) =
      keys acc ++ ((keys es).filter fun k => k ∉ keys acc).eraseDups := by
    induction es with
    | nil => simp
    | cons e es ih =>
      intro acc
      rw [List.foldl_cons, ih, keys_cons, List.filter_cons]
      by_cases he : e.1 ∈ keys acc
      · rw [keys_insert_of_mem _ he, if_neg (by simpa using he)]
      · have hrest : (keys es).filter (fun k => k ∉ keys acc ++ [e.1]) =
            ((keys es).filter fun k => k ∉ keys acc).filter fun k => !k == e.1 := by
          rw [List.filter_filter]
          apply List.filter_congr
          intro k _
          rw [Bool.eq_iff_iff]
          simp [and_comm]
        rw [keys_insert_of_not_mem _ he, if_pos (by simpa using he), List.eraseDups_cons, hrest,
          List.append_assoc]
        rfl
  rw [ofList, hfold, List.filter_eq_self.mpr (by simp)]
  rfl

end LayeredConfig.Assoc
