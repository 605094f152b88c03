import Zuvloop.Polling.Invariant

/-!
# The references to handles

Every reference to a handle is in the map, on the ready queue or about to be released, until it is
released.

## Main definitions

* `State.held`: the references to a handle that somebody has.

## Main results

* `ledger_of_reachable`: what was taken is held or has been released, whatever happens.
-/

namespace Zuvloop.Polling

open Transition

variable {s s' : State} {fd g : Fd} {p q : Poller} {d : Direction} {h x : ℕ} {ok : Bool} {l : Label}

/-! ## Who is registered -/

/-- A handle is registered where it was registered first. -/
def State.isRegistered (s : State) (h : ℕ) : Bool :=
  ((s.pollers.lookup (s.home h).1).bind fun p => p.slot (s.home h).2) = some h

theorem Inv.isRegistered_iff (hi : Inv s) : s.isRegistered h = true ↔ s.Registered h := by
  rw [State.isRegistered, decide_eq_true_iff, Option.bind_eq_some_iff]
  constructor
  · rintro ⟨p, hl, hd⟩
    exact ⟨_, p, _, hl, hd⟩
  · rintro ⟨fd, p, d, hl, hd⟩
    have hhome := ((hi.ok fd p hl).slot d h hd).2.2
    exact ⟨p, by rw [hhome]; exact hl, by rw [hhome]; exact hd⟩

/-- The references to a handle: in the map, on the ready queue and about to be released. -/
def State.held (s : State) (h : ℕ) : ℕ :=
  (s.isRegistered h).toNat + s.ready.count h + (s.todo.filterMap Action.handle).count h

/-- Everything that was taken is held by somebody or has been released. -/
structure Ledger (s : State) : Prop where
  balance : ∀ h, s.acquired h = s.released h + s.held h
  fresh : ∀ h, s.nextHandle ≤ h → s.acquired h = 0
  /-- A closed loop has nothing to run. -/
  idle : s.closed = true → s.ready = []

/-- What is registered after `rearm`. -/
theorem registered_rearm (hp : p.interest = .none → p.events ≠ .none) :
    (s.rearm fd p ok).Registered x ↔
      (∃ g q d, g ≠ fd ∧ s.pollers.lookup g = some q ∧ q.slot d = some x) ∨
        ∃ d, p.slot d = some x := by
  constructor
  · rintro ⟨g, q, d, hq, hd⟩
    by_cases hg : g = fd
    · subst hg
      rw [lookup_rearm hp] at hq
      split at hq
      · cases hq
      · obtain rfl := Option.some.inj hq
        exact .inr ⟨d, hd⟩
    · exact .inl ⟨g, q, d, hg, (lookup_rearm_ne hg).symm.trans hq, hd⟩
  · rintro (⟨g, q, d, hg, hq, hd⟩ | ⟨d, hd⟩)
    · exact ⟨g, q, d, (lookup_rearm_ne hg).trans hq, hd⟩
    · exact ⟨fd, _, d, (lookup_rearm hp).trans (if_neg (Poller.interest_ne_none hd)), hd⟩

/-- A handle is registered once. -/
theorem Inv.unique (hi : Inv s) {d' : Direction} (hq : s.pollers.lookup g = some q)
    (hd' : q.slot d' = some x) (hl : s.pollers.lookup fd = some p) (hd : p.slot d = some x) :
    g = fd ∧ d' = d :=
  Prod.mk.inj (((hi.ok g q hq).slot d' x hd').2.2.symm.trans ((hi.ok fd p hl).slot d x hd).2.2)

/-- `remove` unregisters its handle. -/
theorem registered_remove (hi : Inv s) (hl : s.pollers.lookup fd = some p)
    (hd : p.slot d = some h) : (s.remove fd d ok).Registered x ↔ s.Registered x ∧ x ≠ h := by
  have hpend := hi.pending_remove hl hd
  rw [State.remove_of_some hl hd]
  refine (registered_rearm hpend.events).trans ⟨?_, ?_⟩
  · rintro (⟨g, q, d', hg, hq, hd'⟩ | ⟨d', hd'⟩)
    · refine ⟨⟨g, q, d', hq, hd'⟩, ?_⟩
      rintro rfl
      exact hg (hi.unique hq hd' hl hd).1
    · have hdd : d' ≠ d := by
        rintro rfl
        simp at hd'
      have hd' := (Poller.slot_setSlot_ne hdd).symm.trans hd'
      refine ⟨⟨fd, p, d', hl, hd'⟩, ?_⟩
      rintro rfl
      exact hdd (hi.unique hl hd' hl hd).2
  · rintro ⟨⟨g, q, d', hq, hd'⟩, hne⟩
    by_cases hg : g = fd
    · obtain rfl : p = q := Option.some.inj (hl.symm.trans (hg ▸ hq))
      have hdd : d' ≠ d := by
        rintro rfl
        exact hne (Option.some.inj (hd'.symm.trans hd))
      exact .inr ⟨d', (Poller.slot_setSlot_ne hdd).trans hd'⟩
    · exact .inl ⟨g, q, d', hg, hq, hd'⟩

/-- The handles of a poller after one of them was replaced. -/
theorem slot_setSlot_iff {new : ℕ} :
    (∃ d', (p.setSlot d (some new)).slot d' = some x) ↔
      x = new ∨ ∃ d', d' ≠ d ∧ p.slot d' = some x := by
  constructor
  · rintro ⟨d', hd'⟩
    by_cases hdd : d' = d
    · subst hdd
      simp only [Poller.slot_setSlot_self, Option.some.injEq] at hd'
      exact .inl hd'.symm
    · exact .inr ⟨d', hdd, (Poller.slot_setSlot_ne hdd).symm.trans hd'⟩
  · rintro (rfl | ⟨d', hdd, hd'⟩)
    · exact ⟨d, Poller.slot_setSlot_self⟩
    · exact ⟨d', (Poller.slot_setSlot_ne hdd).trans hd'⟩

/-- `add` registers a new handle and unregisters the one it supersedes. -/
theorem registered_add_iff (hi : Inv s) :
    (s.add fd d ok).Registered x ↔ x = s.nextHandle ∨
      (s.Registered x ∧ ∀ p, s.pollers.lookup fd = some p → p.slot d ≠ some x) := by
  have hrearm : ∀ (t : State) (p : Poller), t.pollers = s.pollers →
      ((t.rearm fd (p.setSlot d (some s.nextHandle)) ok).Registered x ↔
        (∃ g q d', g ≠ fd ∧ s.pollers.lookup g = some q ∧ q.slot d' = some x) ∨
          (x = s.nextHandle ∨ ∃ d', d' ≠ d ∧ p.slot d' = some x)) := by
    intro t p ht
    rw [registered_rearm fun hnone => absurd hnone
      (Poller.interest_ne_none Poller.slot_setSlot_self), slot_setSlot_iff, ht]
  cases hl : s.pollers.lookup fd with
  | none =>
    have hempty : ∀ d', (⟨s.nextPoll, none, none, .none⟩ : Poller).slot d' = none := by
      intro d'
      cases d' <;> rfl
    have hpollers : ((s.create fd d).get fd).2.pollers = s.pollers := by
      rw [State.get_of_none (by exact hl)]
      rfl
    rw [State.add_of_none hl, hrearm _ _ hpollers, or_left_comm]
    refine or_congr_right ⟨?_, ?_⟩
    · rintro (⟨g, q, d', -, hq, hd'⟩ | ⟨d', -, hd'⟩)
      · exact ⟨⟨g, q, d', hq, hd'⟩, by simp⟩
      · simp [hempty] at hd'
    · rintro ⟨⟨g, q, d', hq, hd'⟩, -⟩
      refine .inl ⟨g, q, d', ?_, hq, hd'⟩
      rintro rfl
      simp [hl] at hq
  | some p =>
    have hadd : (s.add fd d ok).Registered x ↔
        (∃ g q d', g ≠ fd ∧ s.pollers.lookup g = some q ∧ q.slot d' = some x) ∨
          (x = s.nextHandle ∨ ∃ d', d' ≠ d ∧ p.slot d' = some x) := by
      cases hd : p.slot d with
      | none =>
        rw [State.add_of_some hl hd]
        exact hrearm _ _ rfl
      | some old =>
        rw [State.add_of_superseded hl hd]
        exact hrearm _ _ rfl
    rw [hadd, or_left_comm]
    refine or_congr_right ⟨?_, ?_⟩
    · rintro (⟨g, q, d', hg, hq, hd'⟩ | ⟨d', hdd, hd'⟩)
      · refine ⟨⟨g, q, d', hq, hd'⟩, fun r hr hd => ?_⟩
        obtain rfl := Option.some.inj hr
        exact hg (hi.unique hq hd' hl hd).1
      · refine ⟨⟨fd, p, d', hl, hd'⟩, fun r hr hd => ?_⟩
        obtain rfl := Option.some.inj hr
        exact hdd (hi.unique hl hd' hl hd).2
    · rintro ⟨⟨g, q, d', hq, hd'⟩, hnot⟩
      by_cases hg : g = fd
      · obtain rfl : p = q := Option.some.inj (hl.symm.trans (hg ▸ hq))
        refine .inr ⟨d', ?_, hd'⟩
        rintro rfl
        exact hnot p rfl hd'
      · exact .inl ⟨g, q, d', hg, hq, hd'⟩

/-- `closeAll` unregisters the handles of a poller. -/
theorem registered_destroyed (hi : Inv s) (hl : s.pollers.lookup fd = some p)
    {todo : List Action} :
    State.Registered (({ s with todo }.setPoller fd
      { p with reader := none, writer := none }).destroy p) x ↔
      s.Registered x ∧ ¬(p.reader = some x ∨ p.writer = some x) := by
  rw [← Poller.exists_slot]
  constructor
  · rintro ⟨g, q, d, hq, hd⟩
    by_cases hg : g = fd
    · subst hg
      obtain rfl := Option.some.inj ((AList.lookup_insert _).symm.trans hq)
      cases d <;> cases hd
    · have hq : s.pollers.lookup g = some q := (AList.lookup_insert_ne hg).symm.trans hq
      refine ⟨⟨g, q, d, hq, hd⟩, ?_⟩
      rintro ⟨d', hd'⟩
      exact hg (hi.unique hq hd hl hd').1
  · rintro ⟨⟨g, q, d, hq, hd⟩, hnot⟩
    refine ⟨g, q, d, ?_, hd⟩
    have hg : g ≠ fd := by
      rintro rfl
      obtain rfl := Option.some.inj (hl.symm.trans hq)
      exact hnot ⟨d, hd⟩
    exact (AList.lookup_insert_ne hg).trans hq

/-- A poller releases each of its handles once. -/
theorem Inv.count_releases (hi : Inv s) (hl : s.pollers.lookup fd = some p) (x : ℕ) :
    (p.releases.filterMap Action.handle).count x =
      if p.reader = some x ∨ p.writer = some x then 1 else 0 := by
  have hcount : ∀ o : Option ℕ, o.toList.count x = if o = some x then 1 else 0 := by
    intro o
    cases o with
    | none => rfl
    | some y => simp [List.count_singleton]
  have hboth : p.reader = some x → p.writer ≠ some x := by
    intro hr hw
    have hslot : p.slot .reader = some x := hr
    have hslot' : p.slot .writer = some x := hw
    cases (hi.unique hl hslot hl hslot').2
  rw [Poller.filterMap_handle_releases, List.count_append, hcount, hcount]
  by_cases hr : p.reader = some x
  · simp [hr, hboth hr]
  · simp [hr]

/-! ## The ledger -/

/-- Where a step registers what was registered before, and nothing else. -/
theorem isRegistered_congr (hi : Inv s) (hi' : Inv s') (h : s'.Registered x ↔ s.Registered x) :
    s'.isRegistered x = s.isRegistered x := by
  rw [Bool.eq_iff_iff, hi'.isRegistered_iff, hi.isRegistered_iff, h]

/-- The handle that a call of `add` supersedes. -/
def State.superseded (s : State) (fd : Fd) (d : Direction) : Option ℕ :=
  (s.pollers.lookup fd).bind fun p => p.slot d

/-- What `add` does besides registering: it takes a reference to a new handle and is going to
release the one it supersedes. -/
structure Added (s s' : State) (old : Option ℕ) : Prop where
  nextHandle : s'.nextHandle = s.nextHandle + 1
  acquired : s'.acquired = Function.update s.acquired s.nextHandle 1
  released : s'.released = s.released
  ready : s'.ready = s.ready
  todo : s'.todo = (old.map Action.release).toList ++ s.todo
  closed : s'.closed = s.closed
  ran : s'.ran = s.ran
  /-- No handle that was cancelled before is so no longer. -/
  cancelled : ∀ x < s.nextHandle, s.cancelled x = true → s'.cancelled x = true

theorem added : Added s (s.add fd d ok) (s.superseded fd d) := by
  cases hl : s.pollers.lookup fd with
  | none =>
    have hk : Kept ((s.create fd d).get fd).2 (((s.create fd d).get fd).2.rearm fd
        (Poller.setSlot ⟨s.nextPoll, none, none, .none⟩ d (some s.nextHandle)) ok) := kept_rearm
    rw [State.add_of_none hl, State.superseded, hl]
    rw [State.get_of_none (by exact hl)] at hk ⊢
    refine ⟨hk.nextHandle, hk.acquired, hk.released, hk.ready, hk.todo, hk.closed, hk.ran,
      fun x hx hcan => ?_⟩
    rw [hk.cancelled]
    simpa [State.create, State.setPoll, Nat.ne_of_lt hx] using hcan
  | some p =>
    rw [State.superseded, hl, Option.bind_some]
    cases hd : p.slot d with
    | none =>
      have hk : Kept (s.create fd d)
          ((s.create fd d).rearm fd (p.setSlot d (some s.nextHandle)) ok) := kept_rearm
      rw [State.add_of_some hl hd]
      refine ⟨hk.nextHandle, hk.acquired, hk.released, hk.ready, hk.todo, hk.closed, hk.ran,
        fun x hx hcan => ?_⟩
      rw [hk.cancelled]
      simpa [State.create, Nat.ne_of_lt hx] using hcan
    | some old =>
      have hk : Kept ((s.create fd d).cancel old)
          (((s.create fd d).cancel old).rearm fd (p.setSlot d (some s.nextHandle)) ok) := kept_rearm
      rw [State.add_of_superseded hl hd]
      refine ⟨hk.nextHandle, hk.acquired, hk.released, hk.ready,
        congrArg (Action.release old :: ·) hk.todo, hk.closed, hk.ran, fun x hx hcan => ?_⟩
      rw [State.push, hk.cancelled]
      by_cases hxo : x = old <;> simp [State.cancel, State.create, Nat.ne_of_lt hx, hxo, hcan]

/-- Whether a handle is the one that is about to be released. -/
theorem count_handles (old : Option ℕ) :
    ((old.map Action.release).toList.filterMap Action.handle).count x =
      if old = some x then 1 else 0 := by
  cases old with
  | none => rfl
  | some y => simp [Action.handle, List.count_singleton]

namespace Ledger

/-- A handle that has not been created is nowhere. -/
theorem held_fresh (hg : Ledger s) (hx : s.nextHandle ≤ x) : s.released x = 0 ∧ s.held x = 0 := by
  have := hg.balance x
  have := hg.fresh x hx
  omega

/-- A new handle is in the map; the one it supersedes is about to be released. -/
theorem add (hg : Ledger s) (hi : Inv s) (hc : s.closed = false) (fd : Fd) (d : Direction)
    (ok : Bool) : Ledger (s.add fd d ok) := by
  have hi' := hi.add hc fd d ok
  have ha := (added : Added s (s.add fd d ok) (s.superseded fd d))
  have hiff : ∀ x, (s.add fd d ok).isRegistered x =
      (decide (x = s.nextHandle) || (s.isRegistered x && decide (s.superseded fd d ≠ some x))) := by
    intro x
    rw [Bool.eq_iff_iff, hi'.isRegistered_iff, registered_add_iff hi, Bool.or_eq_true,
      decide_eq_true_iff, Bool.and_eq_true, hi.isRegistered_iff, decide_eq_true_iff]
    refine or_congr_right (and_congr_right fun _ => ?_)
    cases hl : s.pollers.lookup fd <;> simp [State.superseded, hl]
  have hold : ∀ x, s.superseded fd d = some x → s.isRegistered x = true ∧ x < s.nextHandle := by
    intro x hx
    obtain ⟨p, hl, hd⟩ := Option.bind_eq_some_iff.mp hx
    exact ⟨hi.isRegistered_iff.mpr ⟨fd, p, d, hl, hd⟩, ((hi.ok fd p hl).slot d x hd).1⟩
  refine ⟨fun x => ?_, fun x hx => ?_, fun hcl => ?_⟩
  · have hb := hg.balance x
    rw [State.held] at hb ⊢
    rw [hiff x, ha.acquired, ha.released, ha.ready, ha.todo, List.filterMap_append,
      List.count_append, count_handles]
    by_cases hx : x = s.nextHandle
    · -- nobody else has the new handle
      obtain ⟨hr, hh⟩ := hg.held_fresh (x := x) (hx ▸ Nat.le_refl _)
      have hne : s.superseded fd d ≠ some x := fun h => Nat.ne_of_lt (hold x h).2 hx
      rw [State.held] at hh
      rw [if_neg hne]
      simp only [hx, Function.update_self, decide_true, Bool.true_or, Bool.toNat_true]
      rw [← hx]
      omega
    · rw [Function.update_of_ne hx, decide_eq_false hx, Bool.false_or]
      by_cases hs : s.superseded fd d = some x
      · simp only [(hold x hs).1, Bool.toNat_true] at hb
        simp only [hs, ne_eq, not_true_eq_false, decide_false, Bool.and_false, Bool.toNat_false,
          if_true]
        omega
      · simp only [ne_eq, hs, not_false_eq_true, decide_true, Bool.and_true, if_false]
        omega
  · rw [ha.nextHandle] at hx
    rw [ha.acquired, Function.update_of_ne (by omega)]
    exact hg.fresh x (by omega)
  · rw [ha.closed, hc] at hcl
    cases hcl

/-- What is removed is about to be released. -/
theorem remove (hg : Ledger s) (hi : Inv s) (fd : Fd) (d : Direction) (ok : Bool) :
    Ledger (s.remove fd d ok) := by
  cases hl : s.pollers.lookup fd with
  | none => simpa [State.remove, hl] using hg
  | some p =>
    cases hd : p.slot d with
    | none => simpa [State.remove, hl, hd] using hg
    | some h =>
      have hi' := hi.remove fd d ok
      have hh : s.isRegistered h = true := hi.isRegistered_iff.mpr ⟨fd, p, d, hl, hd⟩
      have hiff : ∀ x, (s.remove fd d ok).isRegistered x =
          (s.isRegistered x && decide (x ≠ h)) := by
        intro x
        rw [Bool.eq_iff_iff, hi'.isRegistered_iff, registered_remove hi hl hd, Bool.and_eq_true,
          hi.isRegistered_iff, decide_eq_true_iff]
      have hk : Kept (s.cancel h) ((s.cancel h).rearm fd (p.setSlot d none) ok) := kept_rearm
      rw [State.remove_of_some hl hd] at hiff ⊢
      refine ⟨fun x => ?_, fun x hx => ?_, fun hc => ?_⟩
      · have hb := hg.balance x
        rw [State.held] at hb ⊢
        rw [hiff x]
        simp only [State.push, hk.acquired, hk.released, hk.ready, hk.todo, List.singleton_append]
        simp only [State.cancel, List.filterMap_cons, Action.handle, List.count_cons]
        by_cases hxh : x = h
        · subst hxh
          simp [hh] at hb ⊢
          omega
        · simp [hxh, Ne.symm hxh] at hb ⊢
          omega
      · exact (congrFun hk.acquired x).trans (hg.fresh x (hk.nextHandle ▸ hx))
      · exact hk.ready.trans (hg.idle (hk.closed.symm.trans hc))

/-- A scheduled handle is on the ready queue. -/
theorem schedule (hg : Ledger s) (hc : s.closed = false) (o : Option ℕ)
    (ho : ∀ h, o = some h → h < s.nextHandle) : Ledger (s.schedule o) := by
  cases o with
  | none => exact hg
  | some h =>
    rw [State.schedule]
    split
    · exact hg
    refine ⟨fun x => ?_, fun x hx => ?_, fun hcl => ?_⟩
    · have hb := hg.balance x
      rw [State.held] at hb ⊢
      by_cases hxh : x = h
      · subst hxh
        simp [State.isRegistered] at hb ⊢
        omega
      · simpa [hxh, Ne.symm hxh, State.isRegistered, List.count_append] using hb
    · have hlt := ho h rfl
      have hxh : x ≠ h := by
        rintro rfl
        exact absurd hlt (Nat.not_lt.mpr hx)
      simpa [hxh] using hg.fresh x hx
    · exact absurd (hc.symm.trans hcl) (by decide)

/-- Changes that concern nobody's references. -/
theorem congr (hg : Ledger s) (hreg : ∀ x, s'.isRegistered x = s.isRegistered x)
    (hn : s'.nextHandle = s.nextHandle) (ha : s'.acquired = s.acquired)
    (hr : s'.released = s.released) (hq : s'.ready = s.ready) (ht : s'.todo = s.todo)
    (hc : s'.closed = s.closed) : Ledger s' := by
  refine ⟨fun x => ?_, fun x hx => ?_, fun hcl => ?_⟩
  · rw [State.held, hreg x, ha, hr, hq, ht]
    exact hg.balance x
  · rw [ha]
    exact hg.fresh x (hn ▸ hx)
  · rw [hq]
    exact hg.idle (hc ▸ hcl)

/-- A poll that is armed again registers what was registered. -/
theorem rearm (hg : Ledger s) (hi : Inv s) (hl : s.pollers.lookup fd = some p)
    (hne : p.interest ≠ .none) (events : Events) (ok : Bool) :
    Ledger (s.rearm fd { p with events } ok) := by
  have hpend := hi.pending hl hne events
  have hk : Kept s (s.rearm fd { p with events } ok) := kept_rearm
  refine hg.congr (fun x => isRegistered_congr hi (hpend.rearm ok) ?_) hk.nextHandle hk.acquired
    hk.released hk.ready hk.todo hk.closed
  refine (registered_rearm hpend.events).trans ⟨?_, ?_⟩
  · rintro (⟨g, q, d, -, hq, hd⟩ | ⟨d, hd⟩)
    · exact ⟨g, q, d, hq, hd⟩
    · exact ⟨fd, p, d, hl, hd⟩
  · rintro ⟨g, q, d, hq, hd⟩
    by_cases hgf : g = fd
    · obtain rfl : p = q := Option.some.inj (hl.symm.trans (hgf ▸ hq))
      exact .inr ⟨d, hd⟩
    · exact .inl ⟨g, q, d, hgf, hq, hd⟩

/-- Both handles of a poller are scheduled and its poll is armed again. -/
theorem onPollError (hg : Ledger s) (hi : Inv s) (hc : s.closed = false)
    (hl : s.pollers.lookup fd = some p) (ok : Bool) : Ledger (s.onPollError fd p ok) := by
  have hstop := hi.setPolling p.poll .none
  have hgstop : Ledger (s.setPoll p.poll { s.polls p.poll with polling := .none }) :=
    hg.congr (fun _ => rfl) rfl rfl rfl rfl rfl rfl
  have hreader := hi.lt_of_slot (d := .reader) hl
  have hwriter := hi.lt_of_slot (d := .writer) hl
  have hread := hstop.schedule p.reader hreader
  have hgread := hgstop.schedule hc p.reader hreader
  have hwrite := hread.schedule p.writer fun x hx => by
    rw [nextHandle_schedule]
    exact hwriter x hx
  have hgwrite := hgread.schedule (by rw [closed_schedule]; exact hc) p.writer fun x hx => by
    rw [nextHandle_schedule]
    exact hwriter x hx
  refine hgwrite.rearm hwrite ?_ (hi.live hc fd p hl) .none ok
  rw [pollers_schedule, pollers_schedule]
  exact hl

/-- The handles whose events occurred are scheduled. -/
theorem onPoll (hg : Ledger s) (hi : Inv s) (hc : s.closed = false)
    (hl : s.pollers.lookup fd = some p) (events : Events) : Ledger (s.onPoll p events) := by
  have hreader := hi.lt_of_slot (d := .reader) hl
  have hwriter := hi.lt_of_slot (d := .writer) hl
  rw [State.onPoll]
  cases events.readable <;> cases events.writable
  · exact hg
  · exact hg.schedule hc _ hwriter
  · exact hg.schedule hc _ hreader
  · refine (hg.schedule hc _ hreader).schedule ?_ _ fun x hx => ?_
    · rw [closed_schedule]
      exact hc
    · rw [nextHandle_schedule]
      exact hwriter x hx

/-- The reference of the ready queue is released when the callback has run. -/
theorem runReady (hg : Ledger s) {rest : List ℕ} (hr : s.ready = h :: rest)
    (hc : s.closed = false) : Ledger (s.runReady h rest) := by
  have hrun : ∀ ran, Ledger (State.push { s with ready := rest, ran } [.release h]) := by
    intro ran
    refine ⟨fun x => ?_, hg.fresh, fun hcl => absurd (hc.symm.trans hcl) (by decide)⟩
    have hb := hg.balance x
    rw [State.held, hr, List.count_cons] at hb
    rw [State.held, State.push, List.singleton_append]
    simp only [State.isRegistered, List.filterMap_cons, Action.handle, List.count_cons] at hb ⊢
    omega
  rw [State.runReady]
  by_cases hcan : s.cancelled h = true
  · simp only [hcan, if_true]
    exact hrun s.ran
  · simp only [hcan]
    exact hrun _

/-- The references of the ready queue are about to be released. -/
theorem close (hg : Ledger s) (fds : List Fd) : Ledger (s.close fds) := by
  refine ⟨fun x => ?_, hg.fresh, fun _ => rfl⟩
  have hmap : (s.ready.map Action.release).filterMap Action.handle = s.ready := by
    simp [List.filterMap_map, Function.comp_def, Action.handle]
  have hb := hg.balance x
  rw [State.held] at hb ⊢
  simp only [State.close, State.push, State.isRegistered, List.append_assoc, List.filterMap_append,
    hmap, List.singleton_append, List.filterMap_cons, Action.handle, List.count_append,
    List.count_nil] at hb ⊢
  omega

/-- `closeAll` is about to release the handles of a poller. -/
theorem destroyed (hg : Ledger s) (hi : Inv s) {fds : List Fd} {todo : List Action}
    (ht : s.todo = .destroyAll (fd :: fds) :: todo) (hl : s.pollers.lookup fd = some p) :
    Ledger (({ s with todo := .destroyAll fds :: todo }.setPoller fd
      { p with reader := none, writer := none }).destroy p) := by
  refine ⟨fun x => ?_, hg.fresh, hg.idle⟩
  have hreg : State.Registered (({ s with todo := .destroyAll fds :: todo }.setPoller fd
      { p with reader := none, writer := none }).destroy p) x ↔
      s.Registered x ∧ ¬(p.reader = some x ∨ p.writer = some x) := registered_destroyed hi hl
  rw [← (hi.destroyed ht hl).isRegistered_iff, ← hi.isRegistered_iff] at hreg
  have hlist : (({ s with todo := .destroyAll fds :: todo }.setPoller fd
      { p with reader := none, writer := none }).destroy p).todo.filterMap Action.handle =
      p.releases.filterMap Action.handle ++ todo.filterMap Action.handle := by
    simp only [State.destroy, State.push, State.setPoller, State.setPoll, List.filterMap_append]
    rw [List.filterMap_cons_none (a := Action.destroyAll fds) rfl]
  have hb := hg.balance x
  rw [State.held, ht, List.filterMap_cons_none rfl] at hb
  rw [State.held, hlist, List.count_append, hi.count_releases hl x]
  by_cases hslot : p.reader = some x ∨ p.writer = some x
  · -- from the map to what is about to be released
    obtain ⟨d, hd⟩ := Poller.exists_slot.mpr hslot
    rw [hi.isRegistered_iff.mpr ⟨fd, p, d, hl, hd⟩] at hb
    rw [Bool.eq_false_iff.mpr fun h => (hreg.mp h).2 hslot, if_pos hslot]
    simp only [State.destroy, State.push, State.setPoller, State.setPoll, Bool.toNat_true,
      Bool.toNat_false] at hb ⊢
    omega
  · rw [Bool.eq_iff_iff.mpr (hreg.trans (and_iff_left hslot)), if_neg hslot]
    simp only [State.destroy, State.push, State.setPoller, State.setPoll]
    omega

/-- The next action releases a reference, or prepares to. -/
theorem act (hg : Ledger s) (hi : Inv s) {a : Action} {todo : List Action}
    (ht : s.todo = a :: todo) : Ledger ({ s with todo }.act a) := by
  have hb : ∀ x, s.acquired x = s.released x + ((s.isRegistered x).toNat + s.ready.count x +
      ((a :: todo).filterMap Action.handle).count x) := by
    intro x
    rw [← ht]
    exact hg.balance x
  -- one reference less is about to be released
  have hrelease : ∀ h, a.handle = some h → Ledger (State.decref { s with todo } h) := by
    intro h ha
    refine ⟨fun x => ?_, hg.fresh, hg.idle⟩
    have hbx := hb x
    have hreg : (State.decref { s with todo } h).isRegistered x = s.isRegistered x := rfl
    rw [List.filterMap_cons_some ha, List.count_cons] at hbx
    rw [State.held, hreg]
    by_cases hxh : x = h
    · subst hxh
      simp only [State.decref, beq_self_eq_true, if_true, Function.update_self] at hbx ⊢
      omega
    · simp only [State.decref, beq_iff_eq, Ne.symm hxh, if_false, Function.update_of_ne hxh]
        at hbx ⊢
      omega
  cases a with
  | release h => exact hrelease h rfl
  | cancelRelease h =>
    exact (hrelease h rfl).congr (fun _ => rfl) rfl rfl rfl rfl rfl rfl
  | destroyAll fds =>
    have hiff := (hi.visiting ht).2.2.2
    have hclosed := (hi.visiting ht).1
    cases fds with
    | nil =>
      -- nothing is registered any more
      refine ⟨fun x => ?_, hg.fresh, hg.idle⟩
      have hreg : s.isRegistered x = false := by
        rw [Bool.eq_false_iff]
        intro hreg
        obtain ⟨fd, p, d, hl, hd⟩ := hi.isRegistered_iff.mp hreg
        simpa using (hiff fd p hl).mpr (Poller.interest_ne_none hd)
      have hempty : (State.act { s with todo } (.destroyAll [])).isRegistered x = false := rfl
      have hbx := hb x
      rw [hreg, List.filterMap_cons_none rfl] at hbx
      rw [State.held, hempty]
      exact hbx
    | cons fd fds =>
      rw [State.act]
      split
      · refine ⟨fun x => ?_, hg.fresh, hg.idle⟩
        have hbx := hb x
        rw [List.filterMap_cons_none rfl] at hbx
        exact hbx
      · exact hg.destroyed hi ht ‹_›

/-- Every step keeps the ledger. -/
theorem step (hg : Ledger s) (hi : Inv s) (hstep : machine.step s l = some s') : Ledger s' := by
  cases l with
  | add fd d ok =>
    obtain ⟨hc, rfl⟩ := step_add hstep
    exact hg.add hi hc fd d ok
  | remove fd d ok =>
    obtain ⟨⟩ := hstep
    exact hg.remove hi fd d ok
  | event fd events =>
    obtain ⟨p, hl, hc, rfl⟩ := step_event hstep
    exact hg.onPoll hi hc hl events
  | error fd ok =>
    obtain ⟨p, hl, hc, rfl⟩ := step_error hstep
    exact hg.onPollError hi hc hl ok
  | run =>
    obtain ⟨h, rest, hr, hc, rfl⟩ := step_run hstep
    exact hg.runReady hr hc
  | close fds =>
    obtain ⟨-, ⟨⟩⟩ := Option.ite_none_right_eq_some.mp hstep
    exact hg.close fds
  | next =>
    obtain ⟨a, todo, ht, rfl⟩ := step_next hstep
    exact hg.act hi ht

end Ledger

/-- The ledger balances whatever happens. -/
theorem ledger_of_reachable {ok : State → Label → Prop} (h : machine.Reachable ok s) :
    Ledger s := by
  refine h.invariant (I := Ledger) ?_ fun _ _ _ hr hg _ hstep => hg.step (inv_of_reachable hr) hstep
  exact ⟨fun _ => rfl, fun _ _ => rfl, fun _ => rfl⟩

end Zuvloop.Polling
