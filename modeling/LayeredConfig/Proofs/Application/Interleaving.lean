import LayeredConfig.Proofs.Application.Coherence
import LayeredConfig.Proofs.Resolver.Commute

/-!
# Clients of one application

Several clients make calls on one application, which takes them one at a time.  When one of them
switches profiles and another one loads sources again, the order in which their calls come in does
not show afterwards: an application is what its resolver and its identifier are, and the resolver
does not remember under which profiles a source came in.

    zs, zs' interleavings of xs and ys → a.run zs = a.run zs'             (run_eq_of_interleaved)
-/

namespace LayeredConfig

namespace Application

/-- Whether a call only changes the active profiles. -/
def Action.isSwitch (c : Action) : Bool := c.onResolver.isSwitch

/-! ## Lemmas -/

/-- Applications of one identifier differ only in their resolvers. -/
theorem eq_of_resolver_eq {a b : Application} (ha : a.config = a.resolver.resolve)
    (hb : b.config = b.resolver.resolve) (hid : a.id = b.id) (h : a.resolver = b.resolver) :
    a = b := by
  obtain ⟨r, c, i⟩ := a
  obtain ⟨r', c', i'⟩ := b
  simp only at ha hb hid h
  rw [ha, hb, hid, h]

theorem run_eq_of_interleaved {a : Application} (h : a.Kept) {xs ys zs zs' : List Action}
    (hxs : ∀ x ∈ xs, x.isSwitch = true) (hys : ∀ y ∈ ys, y.isSwitch = false)
    (hzs : Interleaved xs ys zs) (hzs' : Interleaved xs ys zs') : a.run zs = a.run zs' := by
  have hlast : ∀ ws, Interleaved xs ys ws → (a.run ws).resolver =
      (a.resolver.run (ys.map Action.onResolver)).run (xs.map Action.onResolver) := by
    intro ws hws
    rw [resolver_run]
    apply Resolver.run_interleaved h.reached (hws.map Action.onResolver)
    · exact List.forall_mem_map.mpr hxs
    · exact List.forall_mem_map.mpr hys
  apply eq_of_resolver_eq (h.run zs).config_eq (h.run zs').config_eq
  · rw [id_run, id_run]
  · rw [hlast zs hzs, hlast zs' hzs']

/-! ## Top theorem (proved from the lemmas above) -/

/-- A change of profiles can change places with any call on a source of a resolver: the call
answers the same, and the same resolver is left.  Two calls on different sources can, unless they
register them at one priority: both answer the same, and all but the order of the raw sources is
the same.  So all interleavings of one client's switches with another client's calls on sources
leave the same resolver, and the same application. -/
theorem interleaved_run {r : Resolver} (hr : r.Reached) {a₀ : Application} (ha : Started a₀)
    (cs : List Action) :
    (∀ o P, o.isSwitch = false →
      ((r.setProfiles P).call o).1 = (r.call o).1 ∧
        ((r.setProfiles P).call o).2 = (r.call o).2.setProfiles P) ∧
    (∀ o o' n n', o.name? = some n → o'.name? = some n' → n ≠ n' →
      (∀ p, o.priority? r = some p → o'.priority? r ≠ some p) →
      ((r.call o').2.call o).1 = (r.call o).1 ∧ ((r.call o).2.call o').1 = (r.call o').1 ∧
        ((r.call o).2.call o').2.Alike ((r.call o').2.call o).2) ∧
    (∀ xs ys zs zs', (∀ x ∈ xs, x.isSwitch = true) → (∀ y ∈ ys, y.isSwitch = false) →
      Interleaved xs ys zs → Interleaved xs ys zs' → r.run zs = r.run zs') ∧
    ∀ xs ys zs zs', (∀ x ∈ xs, x.isSwitch = true) → (∀ y ∈ ys, y.isSwitch = false) →
      Interleaved xs ys zs → Interleaved xs ys zs' →
      (a₀.run cs).run zs = (a₀.run cs).run zs' := by
  refine ⟨?_, ?_, ?_, ?_⟩
  · intro o P ho
    refine ⟨Resolver.call_fst_congr fun n _ => rfl, ?_⟩
    rw [Resolver.call_snd, Resolver.call_snd]
    exact (Resolver.act_setProfiles hr ho P).symm
  · intro o o' n n' hn hn' hne hpri
    rw [Resolver.call_snd, Resolver.call_snd, Resolver.call_snd, Resolver.call_snd]
    have hname : o.name? ≠ o'.name? := by simpa [hn, hn'] using hne
    exact ⟨Resolver.call_fst_act hr hname, Resolver.call_fst_act hr hname.symm,
      Resolver.alike_act_act hr hn hn' hne hpri⟩
  · intro xs ys zs zs' hxs hys hzs hzs'
    rw [Resolver.run_interleaved hr hzs hxs hys, Resolver.run_interleaved hr hzs' hxs hys]
  · intro xs ys zs zs' hxs hys hzs hzs'
    exact run_eq_of_interleaved (kept_run ha cs) hxs hys hzs hzs'

/-- A source has moved up, past another one that it tied with at first: a switch and a registration
change places, two registrations do, and so do the calls of two clients. -/
theorem interleaved_run_moved :
    let one : Tree := .map [("k", .value "1")]
    let two : Tree := .map [("k<dev>", .value "2")]
    let dev : ProfileSet := ⟨["dev"], by simp⟩
    let r := (Resolver.new .empty).run
      [.register "a" one 0, .register "b" two 0, .register "a" two 5]
    let up : Resolver.Action := .register "a" one 7
    let down : Resolver.Action := .register "b" one 3
    let source := Source.ofTree "a" two 0
    let load : Action := .reload {} "a"
    ∃ a₀ host, Builder.ofSteps [.source source] = .ok { sources := [source] } ∧
      ApplicationBuilder.build { config := { sources := [source] } } {} plainHost ⟨"7"⟩ =
        .ok (a₀, host) ∧
      ((r.setProfiles dev).call up).2 = (r.call up).2.setProfiles dev ∧
      ((r.call up).2.call down).2.Alike ((r.call down).2.call up).2 ∧
      r.run [.setProfiles dev, up, down] = r.run [up, down, .setProfiles dev] ∧
      a₀.run [.setProfiles dev, load] = a₀.run [load, .setProfiles dev] := by
  intro one two dev r up down source load
  have hsteps : Builder.ofSteps [.source source] = .ok { sources := [source] } := rfl
  obtain ⟨⟨a₀, host⟩, hbuild⟩ : ∃ built,
      ApplicationBuilder.build { config := { sources := [source] } } {} plainHost ⟨"7"⟩ =
        .ok built :=
    exists_of_isOk (by decide +kernel)
  obtain ⟨hswitch, hcalls, hresolver, happlication⟩ :=
    interleaved_run ⟨.empty, _, rfl⟩ (.build hsteps hbuild) []
  refine ⟨a₀, host, hsteps, hbuild, (hswitch up dev rfl).2, ?_, ?_, ?_⟩
  · refine (hcalls up down "a" "b" rfl rfl (by decide) ?_).2.2
    rintro p hp hp'
    obtain rfl := Option.some.inj hp
    exact absurd hp' (by decide)
  · exact hresolver [.setProfiles dev] [up, down] _ _ (by simp [Resolver.Action.isSwitch])
      (by simp [up, down, Resolver.Action.isSwitch]) (.left (.right (.right .nil)))
      (.right (.right (.left .nil)))
  · exact happlication [.setProfiles dev] [load] _ _ (by simp [Action.isSwitch, Action.onResolver,
      Resolver.Action.isSwitch]) (by simp [load, Action.isSwitch, Action.onResolver,
      Resolver.Action.isSwitch]) (.left (.right .nil)) (.right (.left .nil))

end Application

end LayeredConfig
