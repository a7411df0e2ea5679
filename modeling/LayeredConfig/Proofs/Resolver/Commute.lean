import LayeredConfig.Proofs.Resolver.Program
import LayeredConfig.Proofs.Resolver.Reached

/-!
# Calls that change places

A change of profiles makes all layers anew from the raw sources; every other call keeps the layers
up to date under the profiles of its moment.  Both give the resolver from scratch over what stands,
so that a switch and a call on a source can change places, and nothing differs afterwards:

    o no switch → (r.act o).setProfiles P = (r.setProfiles P).act o          (act_setProfiles)

Two calls on different sources differ only in which of them was registered last.  That decides
nothing unless they tie, so that calls of different priorities can change places too; the raw
sources then come in another order, and all else is the same (`Alike`):

    different names, different priorities →
      Alike ((r.act o).act o') ((r.act o').act o)                             (alike_act_act)

From the first it follows that every interleaving of switches with calls on sources does what all
the calls do, followed by all the switches (`run_interleaved`).
-/

namespace LayeredConfig

/-- The third list holds the elements of the other two, those of each in their order. -/
inductive Interleaved {α : Type} : List α → List α → List α → Prop
  | nil : Interleaved [] [] []
  | left {x : α} {xs ys zs : List α} : Interleaved xs ys zs → Interleaved (x :: xs) ys (x :: zs)
  | right {y : α} {xs ys zs : List α} : Interleaved xs ys zs → Interleaved xs (y :: ys) (y :: zs)

namespace Resolver

/-- The source that a call is about. -/
def Action.name? : Action → Option String
  | .register name _ _ => some name
  | .registerSource _ s => some s.name
  | .unregister name => some name
  | .reload _ name => some name
  | .setProfiles _ => none

/-- The priority at which a call registers its source, if it does. -/
def Action.priority? (r : Resolver) : Action → Option Priority
  | .register _ _ priority => some priority
  | .registerSource env s => some (s.priority env)
  | .reload env name => ((r.raw? name).bind RawSource.origin).map fun s => s.priority env
  | _ => none

/-- Everything but the order of the raw sources is the same. -/
structure Alike (r r' : Resolver) : Prop where
  profiles_eq : r.profiles = r'.profiles
  raw?_eq : ∀ name, r.raw? name = r'.raw? name
  stack_eq : r.stack = r'.stack

end Resolver

/-! ## Lemmas -/

theorem Interleaved.map {α β : Type} (f : α → β) {xs ys zs : List α} (h : Interleaved xs ys zs) :
    Interleaved (xs.map f) (ys.map f) (zs.map f) := by
  induction h with
  | nil => exact .nil
  | left _ ih => exact .left ih
  | right _ ih => exact .right ih

namespace Resolver

/-! ### What a call depends on -/

/-- What a call answers depends only on the raw source of its name. -/
theorem call_fst_congr {r r' : Resolver} {o : Action}
    (h : ∀ name, o.name? = some name → r.raw? name = r'.raw? name) :
    (r.call o).1 = (r'.call o).1 := by
  rw [call_eq, call_eq]
  cases o with
  | register name t priority =>
    show Except.ok (Answer.previous ((r.raw? name).map RawSource.tree)) = _
    rw [h name rfl]
    rfl
  | registerSource env s =>
    cases hl : s.loadMap env with
    | ok t => rw [attempt, attempt, registerSource_of_ok hl, registerSource_of_ok hl]; rfl
    | error e => rw [attempt, attempt, registerSource_of_error hl, registerSource_of_error hl]
  | unregister name =>
    show Except.ok (Answer.previous ((r.raw? name).map RawSource.tree)) = _
    rw [h name rfl]
    rfl
  | reload env name =>
    have hraw := h name rfl
    rw [attempt, attempt]
    obtain ⟨hr, he⟩ | ⟨raw, hr, ho, he⟩ | ⟨raw, s, e, hr, ho, hl, he⟩ |
      ⟨raw, s, t, hr, ho, hl, he⟩ := reload_cases r env name
    · rw [he, reload_of_unknown (hraw ▸ hr)]
    · rw [he, reload_of_bare (hraw ▸ hr) ho]
      rfl
    · rw [he, reload_of_error (hraw ▸ hr) ho hl]
    · rw [he, reload_of_ok (hraw ▸ hr) ho hl]
      rfl
  | setProfiles P => rfl

/-- So does what it does to the sources. -/
theorem Action.event?_congr {h h' : List Event} {o : Action}
    (hget : ∀ name, o.name? = some name →
      Assoc.get? name (standing h) = Assoc.get? name (standing h')) :
    o.event? h = o.event? h' := by
  cases o with
  | reload env name => rw [event?, event?, hget name rfl]
  | _ => rfl

/-- The four ways in which a call changes the sources. -/
theorem Action.event?_eq_some {h : List Event} {o : Action} {e : Event} (he : o.event? h = some e) :
    (∃ n t p, o = .register n t p ∧ e = .enter n { tree := t, priority := p }) ∨
    (∃ env s t, o = .registerSource env s ∧
      e = .enter s.name { tree := t, priority := s.priority env, origin := some s }) ∨
    (∃ n, o = .unregister n ∧ e = .leave n) ∨
    ∃ env n old s t, o = .reload env n ∧ Assoc.get? n (standing h) = some old ∧
      old.origin = some s ∧
      e = .enter n { tree := t, priority := s.priority env, origin := some s } := by
  cases o with
  | register n t p => exact .inl ⟨n, t, p, rfl, (Option.some.inj he).symm⟩
  | registerSource env s =>
    rw [event?] at he
    split at he
    · next t _ => exact .inr (.inl ⟨env, s, t, rfl, (Option.some.inj he).symm⟩)
    · cases he
  | unregister n => exact .inr (.inr (.inl ⟨n, rfl, (Option.some.inj he).symm⟩))
  | reload env n =>
    rw [event?] at he
    split at he
    · cases he
    · next s hs =>
      obtain ⟨old, hold, ho⟩ := Option.bind_eq_some_iff.mp hs
      split at he
      · next t _ =>
        exact .inr (.inr (.inr ⟨env, n, old, s, t, rfl, hold, ho, (Option.some.inj he).symm⟩))
      · cases he
  | setProfiles P => cases he

theorem Action.name?_of_event? {h : List Event} {o : Action} {e : Event}
    (he : o.event? h = some e) : o.name? = some e.name := by
  obtain ⟨_, _, _, rfl, rfl⟩ | ⟨_, _, _, rfl, rfl⟩ | ⟨_, rfl, rfl⟩ |
    ⟨_, _, _, _, _, rfl, -, -, rfl⟩ := event?_eq_some he
  all_goals rfl

/-- A source comes in at the priority of its call. -/
theorem Action.priority?_of_event? {P : ProfileSet} {h : List Event} {o : Action} {name : String}
    {raw : RawSource} (he : o.event? h = some (.enter name raw)) :
    o.priority? (replay P (standing h)) = some raw.priority := by
  obtain ⟨_, _, _, rfl, heq⟩ | ⟨_, _, _, rfl, heq⟩ | ⟨_, -, heq⟩ |
    ⟨env, n, old, s, t, rfl, hold, ho, heq⟩ := event?_eq_some he
  · obtain ⟨-, rfl⟩ := Event.enter.inj heq
    rfl
  · obtain ⟨-, rfl⟩ := Event.enter.inj heq
    rfl
  · cases heq
  · obtain ⟨-, rfl⟩ := Event.enter.inj heq
    show ((Assoc.get? n (standing h)).bind RawSource.origin).map _ = _
    rw [hold, Option.bind_some, ho, Option.map_some]

theorem Action.not_isSwitch_of_name? {o : Action} {n : String} (h : o.name? = some n) :
    o.isSwitch = false := by
  cases o with
  | setProfiles P => cases h
  | _ => rfl

theorem Action.profilesAfter_of_not_isSwitch {o : Action} (h : o.isSwitch = false)
    (P : ProfileSet) : o.profilesAfter P = P := by
  cases o with
  | setProfiles Q => cases h
  | _ => rfl

/-! ### A switch and a call on a source -/

theorem act_setProfiles {r : Resolver} (hr : r.Reached) {o : Action} (ho : o.isSwitch = false)
    (P : ProfileSet) : (r.act o).setProfiles P = (r.setProfiles P).act o := by
  obtain ⟨h, hr⟩ := hr.exists_history
  have hswitch : ∀ Q g, (replay Q (standing g)).setProfiles P = replay P (standing g) :=
    fun Q g => setProfiles_eq_replay (replay Q (standing g)) P (nodup_keys_standing g)
  rw [hr, act_replay, hswitch, hswitch, act_replay, Action.profilesAfter_of_not_isSwitch ho]

theorem run_act_of_isSwitch {r : Resolver} (hr : r.Reached) {x : Action} (hx : x.isSwitch = true)
    {ys : List Action} (hys : ∀ y ∈ ys, y.isSwitch = false) :
    (r.act x).run ys = (r.run ys).act x := by
  induction ys generalizing r with
  | nil => rfl
  | cons y ys ih =>
    cases x with
    | setProfiles P =>
      have hswap : (r.act (.setProfiles P)).act y = (r.act y).act (.setProfiles P) :=
        (act_setProfiles hr (hys y List.mem_cons_self) P).symm
      show ((r.act (.setProfiles P)).act y).run ys = _
      rw [hswap]
      exact ih (hr.act y) fun z hz => hys z (List.mem_cons_of_mem y hz)
    | _ => cases hx

/-- Whatever the interleaving, all calls on sources might have come first, then all switches. -/
theorem run_interleaved {r : Resolver} (hr : r.Reached) {xs ys zs : List Action}
    (h : Interleaved xs ys zs) (hxs : ∀ x ∈ xs, x.isSwitch = true)
    (hys : ∀ y ∈ ys, y.isSwitch = false) : r.run zs = (r.run ys).run xs := by
  induction h generalizing r with
  | nil => rfl
  | @left x xs ys zs _ ih =>
    have hx := hxs x List.mem_cons_self
    show (r.act x).run zs = ((r.run ys).act x).run xs
    rw [ih (hr.act x) (fun z hz => hxs z (List.mem_cons_of_mem x hz)) hys,
      run_act_of_isSwitch hr hx hys]
  | @right y xs ys zs _ ih =>
    exact ih (hr.act y) hxs fun z hz => hys z (List.mem_cons_of_mem y hz)

/-! ### Two calls on different sources -/

theorem alike_replay (P : ProfileSet) {sources sources' : List (String × RawSource)}
    (hnd : (Assoc.keys sources).Nodup)
    (h : mergeOrder (fun s => s.2.priority) sources =
      mergeOrder (fun s => s.2.priority) sources') :
    Alike (replay P sources) (replay P sources') where
  profiles_eq := rfl
  raw?_eq := by
    have hperm : sources.Perm sources' := by
      refine (perm_mergeOrder (fun s => s.2.priority) sources).symm.trans ?_
      rw [h]
      exact perm_mergeOrder _ sources'
    exact Assoc.get?_eq_of_perm hnd hperm
  stack_eq := by
    have hlayers : (replay P sources).stack.layers = (replay P sources').stack.layers := by
      rw [layers_replay, layers_replay, h]
    exact congrArg LayerStack.ofLayers hlayers

/-- Two events about different names: both outdate what stood, and neither the other. -/
theorem standing_append_append (h : List Event) {d e : Event} (hne : d.name ≠ e.name) :
    standing (h ++ [d] ++ [e]) =
      (standing h).filter (fun s => s.1 ≠ e.name && s.1 ≠ d.name) ++ standing [d] ++
        standing [e] := by
  have hd : (standing [d]).filter (fun s => s.1 ≠ e.name) = standing [d] := by
    cases d with
    | leave n => rfl
    | enter n raw =>
      rw [List.filter_eq_self]
      intro s hs
      obtain rfl := List.mem_singleton.mp hs
      exact decide_eq_true hne
  rw [standing_append, Assoc.erase_eq_filter (nodup_keys_standing _), standing_append,
    Assoc.erase_eq_filter (nodup_keys_standing _), List.filter_append, List.filter_filter, hd]

/-- Only which of two events came last can tell their histories apart, and only in a tie. -/
theorem alike_standing (P : ProfileSet) (h : List Event) {d e : Event} (hne : d.name ≠ e.name)
    (hpri : ∀ n raw n' raw', d = .enter n raw → e = .enter n' raw' →
      raw.priority ≠ raw'.priority) :
    Alike (replay P (standing (h ++ [d] ++ [e]))) (replay P (standing (h ++ [e] ++ [d]))) := by
  apply alike_replay P (nodup_keys_standing _)
  rw [standing_append_append h hne, standing_append_append h hne.symm]
  simp only [Bool.and_comm (decide (_ ≠ d.name))]
  cases d with
  | leave n => simp [standing]
  | enter n raw =>
    cases e with
    | leave n' => simp [standing]
    | enter n' raw' =>
      exact mergeOrder_append_append _ (hpri n raw n' raw' rfl rfl)

/-- A call leaves what stands under other names as it was. -/
theorem get?_standing_append {h : List Event} {o : Action} {n : String} (hn : o.name? ≠ some n) :
    Assoc.get? n (standing (h ++ (o.event? h).toList)) = Assoc.get? n (standing h) := by
  cases he : o.event? h with
  | none => rw [Option.toList_none, List.append_nil]
  | some e =>
    have hen : e.name ≠ n := by
      rintro rfl
      exact hn (Action.name?_of_event? he)
    have hnone : Assoc.get? n (standing [e]) = none := by
      cases e with
      | leave m => rfl
      | enter m raw => exact if_neg hen
    show Assoc.get? n (standing (h ++ [e])) = _
    rw [standing_append, Assoc.get?_append, Assoc.get?_erase (nodup_keys_standing h), if_neg hen,
      hnone, Option.or_none]

theorem raw?_act {r : Resolver} (hr : r.Reached) {o : Action} {n : String}
    (hn : o.name? ≠ some n) : (r.act o).raw? n = r.raw? n := by
  obtain ⟨h, hr⟩ := hr.exists_history
  rw [hr, act_replay]
  exact get?_standing_append hn

/-- A call answers the same after a call on another source. -/
theorem call_fst_act {r : Resolver} (hr : r.Reached) {o o' : Action} (hne : o.name? ≠ o'.name?) :
    ((r.act o').call o).1 = (r.call o).1 := by
  apply call_fst_congr
  intro n hn
  exact raw?_act hr fun hn' => hne (hn.trans hn'.symm)

/-- A call does the same to the sources after a call on another one. -/
theorem Action.event?_append {h : List Event} {o o' : Action} (hne : o.name? ≠ o'.name?) :
    o.event? (h ++ (o'.event? h).toList) = o.event? h := by
  apply event?_congr
  intro n hn
  exact get?_standing_append fun hn' => hne (hn.trans hn'.symm)

theorem alike_act_act {r : Resolver} (hr : r.Reached) {o o' : Action} {n n' : String}
    (hn : o.name? = some n) (hn' : o'.name? = some n') (hne : n ≠ n')
    (hpri : ∀ p, o.priority? r = some p → o'.priority? r ≠ some p) :
    Alike ((r.act o).act o') ((r.act o').act o) := by
  obtain ⟨h, hr⟩ := hr.exists_history
  have hname : o.name? ≠ o'.name? := by simpa [hn, hn'] using hne
  rw [hr] at hpri ⊢
  rw [act_replay, act_replay, act_replay, act_replay, Action.event?_append hname,
    Action.event?_append hname.symm]
  simp only [Action.profilesAfter_of_not_isSwitch (Action.not_isSwitch_of_name? hn),
    Action.profilesAfter_of_not_isSwitch (Action.not_isSwitch_of_name? hn')]
  cases hd : o.event? h with
  | none => simpa using alike_replay _ (nodup_keys_standing _) rfl
  | some d =>
    cases he : o'.event? h with
    | none => simpa using alike_replay _ (nodup_keys_standing _) rfl
    | some e =>
      apply alike_standing
      · intro hde
        apply hname
        rw [Action.name?_of_event? hd, Action.name?_of_event? he, hde]
      · rintro m raw m' raw' rfl rfl heq
        apply hpri raw.priority (Action.priority?_of_event? hd)
        rw [Action.priority?_of_event? he, heq]

end Resolver

end LayeredConfig
