import Zuvloop.Polling.Ledger

/-!
# The registry over whole runs

What is left to say once the invariant and the ledger are there: a callback that is not registered
does not run any more, and libuv polls for what is registered as long as `uv_poll_start` succeeds.

## Main definitions

* `Started`: a call of `uv_poll_start` in this step, if there is one, succeeds.

## Main results

* `registry_safe`: all of it together.
-/

namespace Zuvloop.Polling

open Transition

variable {s s' : State} {fd g : Fd} {p q : Poller} {d : Direction} {h : ℕ} {ok : Bool} {l : Label}

/-- A call of `uv_poll_start`, if there is one, succeeds. -/
def Started (_ : State) : Label → Prop
  | .add _ _ ok | .remove _ _ ok | .error _ ok => ok = true
  | .event _ _ | .run | .close _ | .next => True

instance : DecidableRel Started := fun _ l => by
  cases l <;> simp only [Started] <;> infer_instance

/-! ## What never runs -/

/-- A handle that the loop does not run: it is cancelled, or the loop is closed. -/
structure Stale (h : ℕ) (s : State) : Prop where
  lt : h < s.nextHandle
  stale : s.closed = true ∨ s.cancelled h = true

/-- A handle that exists and is not registered is stale. -/
theorem Inv.stale (hi : Inv s) (hlt : h < s.nextHandle) (hnot : ¬s.Registered h) : Stale h s := by
  refine ⟨hlt, ?_⟩
  by_contra hs
  rw [not_or, Bool.not_eq_true, Bool.not_eq_true] at hs
  exact hnot (hi.registered hs.1 h hlt hs.2)

/-- `schedule` touches the ready queue and takes a reference. -/
theorem schedule_eq (o : Option ℕ) :
    ∃ ready acquired, s.schedule o = { s with ready, acquired } := by
  cases o with
  | none => exact ⟨_, _, rfl⟩
  | some x =>
    rw [State.schedule]
    split <;> exact ⟨_, _, rfl⟩

/-- What a step does to cancelled handles, and to what was run, if it does not run anything. -/
structure Calm (s s' : State) : Prop where
  nextHandle : s.nextHandle ≤ s'.nextHandle
  closed : s.closed = true → s'.closed = true
  cancelled : ∀ x < s.nextHandle, s.cancelled x = true → s'.cancelled x = true
  ran : s'.ran = s.ran

theorem calm_schedule (o : Option ℕ) : Calm s (s.schedule o) := by
  obtain ⟨ready, acquired, heq⟩ := schedule_eq (s := s) o
  rw [heq]
  exact ⟨le_rfl, id, fun _ _ h => h, rfl⟩

theorem calm_act (a : Action) : Calm s (s.act a) := by
  cases a with
  | release h => exact ⟨le_rfl, id, fun _ _ h => h, rfl⟩
  | cancelRelease h =>
    refine ⟨le_rfl, id, fun x _ hx => ?_, rfl⟩
    by_cases hxh : x = h <;> simp [State.act, State.decref, State.cancel, hxh, hx]
  | destroyAll fds =>
    cases fds with
    | nil => exact ⟨le_rfl, id, fun _ _ h => h, rfl⟩
    | cons fd fds =>
      rw [State.act]
      split <;> exact ⟨le_rfl, id, fun _ _ h => h, rfl⟩

theorem Calm.trans {s₁ s₂ s₃ : State} (h : Calm s₁ s₂) (h' : Calm s₂ s₃) : Calm s₁ s₃ :=
  ⟨le_trans h.nextHandle h'.nextHandle, fun hc => h'.closed (h.closed hc),
    fun x hx hc => h'.cancelled x (Nat.lt_of_lt_of_le hx h.nextHandle) (h.cancelled x hx hc),
    h'.ran.trans h.ran⟩

theorem Kept.calm (hk : Kept s s') : Calm s s' :=
  ⟨Nat.le_of_eq hk.nextHandle.symm, fun hc => hk.closed.trans hc,
    fun x _ hc => (congrFun hk.cancelled x).trans hc, hk.ran⟩

theorem calm_remove : Calm s (s.remove fd d ok) := by
  cases hl : s.pollers.lookup fd with
  | none =>
    simp only [State.remove, hl]
    exact ⟨le_rfl, id, fun _ _ h => h, rfl⟩
  | some p =>
    cases hd : p.slot d with
    | none =>
      simp only [State.remove, hl, hd]
      exact ⟨le_rfl, id, fun _ _ h => h, rfl⟩
    | some x =>
      have hk : Kept (s.cancel x) ((s.cancel x).rearm fd (p.setSlot d none) ok) := kept_rearm
      have hcancel : Calm s (s.cancel x) := by
        refine ⟨le_rfl, id, fun y _ hy => ?_, rfl⟩
        by_cases hyx : y = x <;> simp [State.cancel, hyx, hy]
      rw [State.remove_of_some hl hd]
      exact (hcancel.trans hk.calm).trans ⟨le_rfl, id, fun _ _ h => h, rfl⟩

theorem calm_onPoll (events : Events) : Calm s (s.onPoll p events) := by
  rw [State.onPoll]
  cases events.readable <;> cases events.writable
  · exact ⟨le_rfl, id, fun _ _ h => h, rfl⟩
  · exact calm_schedule _
  · exact calm_schedule _
  · exact (calm_schedule _).trans (calm_schedule _)

theorem calm_onPollError : Calm s (s.onPollError fd p ok) := by
  have hstop : Calm s (s.setPoll p.poll { s.polls p.poll with polling := .none }) :=
    ⟨le_rfl, id, fun _ _ h => h, rfl⟩
  exact ((hstop.trans (calm_schedule _)).trans (calm_schedule _)).trans kept_rearm.calm

/-- A stale handle stays so, and is not run. -/
theorem Stale.step (hs : Stale h s) (hstep : machine.step s l = some s') :
    Stale h s' ∧ s'.ran.count h = s.ran.count h := by
  have hcalm : Calm s s' → Stale h s' ∧ s'.ran.count h = s.ran.count h := fun hc =>
    ⟨⟨Nat.lt_of_lt_of_le hs.lt hc.nextHandle,
      hs.stale.imp hc.closed (hc.cancelled h hs.lt)⟩, by rw [hc.ran]⟩
  cases l with
  | add fd d ok =>
    obtain ⟨-, rfl⟩ := step_add hstep
    have ha : Added s (s.add fd d ok) (s.superseded fd d) := added
    exact hcalm ⟨ha.nextHandle ▸ Nat.le_succ _, fun hc => ha.closed.trans hc, ha.cancelled, ha.ran⟩
  | remove fd d ok =>
    obtain ⟨⟩ := hstep
    exact hcalm calm_remove
  | event fd events =>
    obtain ⟨p, -, -, rfl⟩ := step_event hstep
    exact hcalm (calm_onPoll events)
  | error fd ok =>
    obtain ⟨p, -, -, rfl⟩ := step_error hstep
    exact hcalm calm_onPollError
  | run =>
    obtain ⟨x, rest, -, hc, rfl⟩ := step_run hstep
    have hcan : s.cancelled h = true := hs.stale.resolve_left (by simp [hc])
    refine ⟨?_, ?_⟩
    · simp only [State.runReady]
      split <;> exact ⟨hs.lt, .inr hcan⟩
    · -- what is run is not cancelled
      simp only [State.runReady]
      split
      · rfl
      · rename_i hx
        have hne : x ≠ h := by
          rintro rfl
          exact hx hcan
        simp [State.push, List.count_append, hne]
  | close fds =>
    obtain ⟨-, ⟨⟩⟩ := Option.ite_none_right_eq_some.mp hstep
    exact hcalm ⟨le_rfl, fun _ => rfl, fun _ _ h => h, rfl⟩
  | next =>
    obtain ⟨a, todo, -, rfl⟩ := step_next hstep
    have hc := calm_act (s := { s with todo }) a
    exact hcalm ⟨hc.nextHandle, hc.closed, hc.cancelled, hc.ran⟩

/-! ## What libuv polls for -/

/-- libuv has been asked for what is in the cache of a poller, and polls for it. -/
def Poller.Polled (p : Poller) (s : State) : Prop :=
  p.interest ≠ .none →
    (s.polls p.poll).asked = p.events ∧ (s.polls p.poll).polling = p.events

/-- `rearm` touches no other poll handle. -/
theorem polls_rearm_ne {i : ℕ} (hi : i ≠ p.poll) : (s.rearm fd p ok).polls i = s.polls i := by
  rw [State.rearm]
  split
  · rfl
  split
  · simp [State.destroy, State.push, State.setPoll, State.removePoller, hi]
  · cases ok <;> simp [State.pollStart, State.setPoll, State.setPoller, hi]

/-- A call of `uv_poll_start` that succeeds, unless the cache says that it is not needed. -/
theorem polls_rearm_self (hne : p.interest ≠ .none) :
    (s.rearm fd p true).polls p.poll =
      if p.interest = p.events then s.polls p.poll
      else { s.polls p.poll with polling := p.interest, asked := p.interest } := by
  rw [State.rearm]
  split
  · rfl
  · simp [State.pollStart, State.setPoll, State.setPoller]

/-- After `rearm` every poller is polled for what is in its cache. -/
theorem polled_rearm (hp : p.interest = .none → p.events ≠ .none)
    (hother : ∀ g q, g ≠ fd → s.pollers.lookup g = some q → q.poll ≠ p.poll ∧ q.Polled s)
    (hself : p.interest = p.events → p.Polled s) :
    ∀ g q, (s.rearm fd p true).pollers.lookup g = some q → q.Polled (s.rearm fd p true) := by
  intro g q hq
  by_cases hg : g = fd
  · subst hg
    rw [lookup_rearm hp] at hq
    split at hq
    · cases hq
    · rename_i hne
      obtain rfl := Option.some.inj hq
      intro _
      rw [polls_rearm_self hne]
      split
      · rename_i heq
        rw [heq]
        exact hself heq hne
      · exact ⟨rfl, rfl⟩
  · rw [lookup_rearm_ne hg] at hq
    obtain ⟨hpoll, hq⟩ := hother g q hg hq
    rw [Poller.Polled, polls_rearm_ne hpoll]
    exact hq

/-- All pollers in the map are polled for what is in their caches. -/
def Polled (s : State) : Prop := ∀ fd p, s.pollers.lookup fd = some p → p.Polled s

namespace Polled

/-- The pollers of other descriptors have other poll handles. -/
theorem other (hw : Polled s) (hi : Inv s) (hl : s.pollers.lookup fd = some p) (g : Fd) (q : Poller)
    (hg : g ≠ fd) (hq : s.pollers.lookup g = some q) : q.poll ≠ p.poll ∧ q.Polled s := by
  refine ⟨fun heq => hg ?_, hw g q hq⟩
  have hdesc := (hi.ok g q hq).desc
  rw [heq, (hi.ok fd p hl).desc] at hdesc
  exact hdesc.symm

/-- `rearm` of a poller one of whose handles was replaced or removed. -/
theorem setSlot (hw : Polled s) (hi : Inv s) (hl : s.pollers.lookup fd = some p)
    (hne : p.interest ≠ .none) (o : Option ℕ) {t : State} (hp : t.pollers = s.pollers)
    (hu : t.polls = s.polls) : Polled (t.rearm fd (p.setSlot d o) true) := by
  have hself : (s.polls p.poll).asked = p.events ∧ (s.polls p.poll).polling = p.events :=
    hw fd p hl hne
  refine polled_rearm (fun _ => ?_) (fun g q hg hq => ?_) fun _ _ => ?_
  · rwa [Poller.events_setSlot, (hi.ok fd p hl).events hne]
  · rw [hp] at hq
    rw [Poller.poll_setSlot, Poller.Polled, hu]
    exact hw.other hi hl g q hg hq
  · rwa [hu, Poller.poll_setSlot, Poller.events_setSlot]

theorem add (hw : Polled s) (hi : Inv s) (hc : s.closed = false) : Polled (s.add fd d true) := by
  cases hl : s.pollers.lookup fd with
  | none =>
    have hne : (Poller.setSlot ⟨s.nextPoll, none, none, .none⟩ d (some s.nextHandle)).interest ≠
        .none := Poller.interest_ne_none Poller.slot_setSlot_self
    rw [State.add_of_none hl, State.get_of_none (by exact hl)]
    refine polled_rearm (fun hnone => absurd hnone hne) (fun g q hg hq => ?_) fun heq => ?_
    · have hlt : q.poll ≠ s.nextPoll := Nat.ne_of_lt (hi.ok g q hq).lt
      refine ⟨by simpa using hlt, ?_⟩
      simpa [Poller.Polled, State.setPoll, State.create, hlt] using hw g q hq
    · exact absurd (heq.trans (by simp)) hne
  | some p =>
    have hne := hi.live hc fd p hl
    cases hd : p.slot d with
    | none =>
      rw [State.add_of_some hl hd]
      exact hw.setSlot hi hl hne _ rfl rfl
    | some old =>
      rw [State.add_of_superseded hl hd]
      exact hw.setSlot hi hl hne _ rfl rfl

theorem remove (hw : Polled s) (hi : Inv s) : Polled (s.remove fd d true) := by
  cases hl : s.pollers.lookup fd with
  | none => simpa [State.remove, hl] using hw
  | some p =>
    cases hd : p.slot d with
    | none => simpa [State.remove, hl, hd] using hw
    | some h =>
      rw [State.remove_of_some hl hd]
      exact hw.setSlot hi hl (Poller.interest_ne_none hd) _ rfl rfl

/-- The poll handle that libuv stopped is started again. -/
theorem onPollError (hw : Polled s) (hi : Inv s) (hc : s.closed = false)
    (hl : s.pollers.lookup fd = some p) : Polled (s.onPollError fd p true) := by
  have hne := hi.live hc fd p hl
  have hsched : ∀ (t : State) (o : Option ℕ), (t.schedule o).pollers = t.pollers ∧
      (t.schedule o).polls = t.polls := by
    intro t o
    obtain ⟨ready, acquired, heq⟩ := schedule_eq (s := t) o
    rw [heq]
    exact ⟨rfl, rfl⟩
  refine polled_rearm (fun hnone => absurd hnone hne) (fun g q hg hq => ?_) fun heq =>
    absurd heq hne
  rw [(hsched _ _).1, (hsched _ _).1] at hq
  obtain ⟨hpoll, hq⟩ := hw.other hi hl g q hg hq
  refine ⟨hpoll, ?_⟩
  rw [Poller.Polled, (hsched _ _).2, (hsched _ _).2]
  simpa [Poller.Polled, State.setPoll, hpoll] using hq

/-- Nothing that `next` does changes what is polled of the pollers that have handles. -/
theorem act (hw : Polled s) (hi : Inv s) {a : Action} {todo : List Action}
    (ht : s.todo = a :: todo) : Polled ({ s with todo }.act a) := by
  cases a with
  | release h => exact hw
  | cancelRelease h => exact hw
  | destroyAll fds =>
    cases fds with
    | nil => exact fun fd p hl => absurd hl (by simp [State.act])
    | cons fd fds =>
      rw [State.act]
      split
      · exact hw
      · rename_i p hl
        intro g q hq
        by_cases hg : g = fd
        · subst hg
          obtain rfl := Option.some.inj ((AList.lookup_insert _).symm.trans hq)
          exact fun hne => absurd rfl hne
        · have hq : s.pollers.lookup g = some q := (AList.lookup_insert_ne hg).symm.trans hq
          obtain ⟨hpoll, hq⟩ := hw.other hi hl g q hg hq
          simpa [Poller.Polled, State.destroy, State.push, State.setPoll, State.setPoller, hpoll]
            using hq

/-- Every step keeps it, if `uv_poll_start` succeeds. -/
theorem step (hw : Polled s) (hi : Inv s) (hok : Started s l)
    (hstep : machine.step s l = some s') : Polled s' := by
  have hsched : ∀ (t : State) (o : Option ℕ), Polled t → Polled (t.schedule o) := by
    intro t o ht
    obtain ⟨ready, acquired, heq⟩ := schedule_eq (s := t) o
    rw [heq]
    exact ht
  cases l with
  | add fd d ok =>
    obtain ⟨hc, rfl⟩ := step_add hstep
    obtain rfl : ok = true := hok
    exact hw.add hi hc
  | remove fd d ok =>
    obtain ⟨⟩ := hstep
    obtain rfl : ok = true := hok
    exact hw.remove hi
  | event fd events =>
    obtain ⟨p, -, -, rfl⟩ := step_event hstep
    rw [State.onPoll]
    cases events.readable <;> cases events.writable
    · exact hw
    · exact hsched _ _ hw
    · exact hsched _ _ hw
    · exact hsched _ _ (hsched _ _ hw)
  | error fd ok =>
    obtain ⟨p, hl, hc, rfl⟩ := step_error hstep
    obtain rfl : ok = true := hok
    exact hw.onPollError hi hc hl
  | run =>
    obtain ⟨h, rest, -, -, rfl⟩ := step_run hstep
    simp only [State.runReady]
    split <;> exact hw
  | close fds =>
    obtain ⟨-, ⟨⟩⟩ := Option.ite_none_right_eq_some.mp hstep
    exact hw
  | next =>
    obtain ⟨a, todo, ht, rfl⟩ := step_next hstep
    exact hw.act hi ht

end Polled

/-- libuv polls for what is registered as long as `uv_poll_start` succeeds. -/
theorem polled_of_reachable (h : machine.Reachable Started s) : Polled s := by
  refine h.invariant (I := Polled) (fun fd p hl => absurd hl (by simp [machine])) ?_
  exact fun _ _ _ hr hw hok hstep => hw.step (inv_of_reachable hr) hok hstep

/-! ## The registry -/

/-- A poll handle is open exactly if a poller that has handles owns it, and was closed once
otherwise. -/
theorem Inv.closes (hi : Inv s) {i : ℕ} (hlt : i < s.nextPoll) :
    ((∃ fd p, s.pollers.lookup fd = some p ∧ p.interest ≠ .none ∧ p.poll = i) →
      (s.polls i).closes = 0) ∧
    ((¬∃ fd p, s.pollers.lookup fd = some p ∧ p.interest ≠ .none ∧ p.poll = i) →
      (s.polls i).closes = 1) := by
  constructor
  · rintro ⟨fd, p, hl, hne, rfl⟩
    rw [(hi.ok fd p hl).closes, if_neg hne]
  · intro hnot
    by_cases hex : ∃ fd p, s.pollers.lookup fd = some p ∧ p.poll = i
    · obtain ⟨fd, p, hl, rfl⟩ := hex
      have hnone : p.interest = .none := by
        by_contra hne
        exact hnot ⟨fd, p, hl, hne, rfl⟩
      rw [(hi.ok fd p hl).closes, if_pos hnone]
    · exact hi.removed i hlt fun fd p hl heq => hex ⟨fd, p, hl, heq⟩

/-- When a closed loop has nothing left to do, nothing is registered. -/
theorem Inv.empty (hi : Inv s) (hc : s.closed = true) (ht : s.todo = []) : s.pollers = ∅ := by
  rcases hi.closing hc with ⟨-, hempty⟩ | ⟨fds, hv, -⟩
  · exact hempty
  · simp [State.visits, ht] at hv

/-- Whatever is called, whatever libuv reports and however finalizers interfere, as long as
`uv_poll_start` succeeds: a callback that was removed or superseded never runs again; the map has
one poller for a descriptor and, unless `closeAll` is at work, each of them has a handle; the cache
of a poller with handles is what is registered, what libuv was asked for and what it polls for; a
poll handle is closed once, when its poller has no handles left; every reference is held by the map,
the ready queue or a function about to release it until it is released; and nothing is left over
when the loop has been closed. -/
theorem registry_safe (hs : machine.Reachable Started s) :
    (∀ h < s.nextHandle, ¬s.Registered h → ∀ ls s', machine.play Started ls s = some s' →
      s'.ran.count h = s.ran.count h) ∧
    (s.pollers.keys.Nodup ∧ (s.visits = [] → ∀ fd p, s.pollers.lookup fd = some p →
      p.reader.isSome = true ∨ p.writer.isSome = true)) ∧
    (∀ fd p, s.pollers.lookup fd = some p → p.interest ≠ .none → p.events = p.interest ∧
      (s.polls p.poll).asked = p.interest ∧ (s.polls p.poll).polling = p.interest) ∧
    (∀ i < s.nextPoll,
      ((∃ fd p, s.pollers.lookup fd = some p ∧ p.interest ≠ .none ∧ p.poll = i) →
        (s.polls i).closes = 0) ∧
      ((¬∃ fd p, s.pollers.lookup fd = some p ∧ p.interest ≠ .none ∧ p.poll = i) →
        (s.polls i).closes = 1)) ∧
    (∀ h, s.acquired h = s.released h + s.held h) ∧
    (s.closed = true → s.todo = [] →
      (∀ i < s.nextPoll, (s.polls i).closes = 1) ∧ ∀ h, s.released h = s.acquired h) := by
  have hi := inv_of_reachable hs
  have hg := ledger_of_reachable hs
  refine ⟨fun h hlt hnot ls s' hplay => ?_, ⟨AList.keys_nodup _, fun hv fd p hl => ?_⟩,
    fun fd p hl hne => ?_, fun i hlt => hi.closes hlt, hg.balance,
    fun hc ht => ⟨fun i hlt => ?_, fun h => ?_⟩⟩
  · refine (Machine.play_invariant (I := fun t => Stale h t ∧ t.ran.count h = s.ran.count h)
      (fun t t' l ht hl => ?_) ⟨hi.stale hlt hnot, rfl⟩ hplay).2
    obtain ⟨hstale, hran⟩ := ht.1.step hl
    exact ⟨hstale, hran.trans ht.2⟩
  · have hne : p.interest ≠ .none := by
      cases hc : s.closed with
      | false => exact hi.live hc fd p hl
      | true =>
        rcases hi.closing hc with ⟨-, hempty⟩ | ⟨fds, hv', -⟩
        · simp [hempty] at hl
        · simp [hv] at hv'
    by_contra hnot
    rw [not_or, Bool.not_eq_true, Bool.not_eq_true] at hnot
    exact hne (by rw [Poller.interest, hnot.1, hnot.2]; rfl)
  · have hev := (hi.ok fd p hl).events hne
    obtain ⟨hasked, hpolling⟩ := polled_of_reachable hs fd p hl hne
    exact ⟨hev, hasked.trans hev, hpolling.trans hev⟩
  · refine (hi.closes hlt).2 ?_
    rintro ⟨fd, p, hl, -⟩
    simp [hi.empty hc ht] at hl
  · have hb := hg.balance h
    have hreg : s.isRegistered h = false := by
      rw [State.isRegistered, hi.empty hc ht]
      rfl
    rw [State.held, hreg, hg.idle hc, ht] at hb
    simpa using hb.symm

theorem registry_safe_readded : ∃ s, machine.Reachable Started s ∧ s.ready = [0] ∧
    ¬s.Registered 0 ∧ ∀ ls s', machine.play Started ls s = some s' → s'.ran.count 0 = 0 := by
  obtain ⟨s, hs, hr⟩ : ∃ s, machine.play Started [.add 3 .reader true, .event 3 ⟨true, false⟩,
      .add 3 .reader true] machine.init = some s ∧ s.ready = [0] ∧ s.nextHandle = 2 ∧
      s.cancelled 0 = true ∧ s.ran = [] := ⟨_, rfl, rfl, rfl, rfl, rfl⟩
  have hs := Machine.Reachable.init.play hs
  have hnot : ¬s.Registered 0 := by
    rintro ⟨fd, p, d, hl, hd⟩
    simp [((inv_of_reachable hs).ok fd p hl).slot d 0 hd] at hr
  refine ⟨s, hs, hr.1, hnot, fun ls s' hplay => ?_⟩
  rw [(registry_safe hs).1 0 (by simp [hr.2.1]) hnot ls s' hplay, hr.2.2.2]
  rfl

/-- While `closeAll` runs a finalizer, the map has a poller without handles. -/
theorem not_registry_safe : ¬∀ s, machine.Reachable Started s → ∀ fd p,
    s.pollers.lookup fd = some p → p.reader.isSome = true ∨ p.writer.isSome = true := by
  intro h
  obtain ⟨s, p, hs, hl, hp⟩ : ∃ s p, machine.play Started [.add 3 .reader true, .close [3], .next]
      machine.init = some s ∧ s.pollers.lookup 3 = some p ∧ p.reader = none ∧ p.writer = none :=
    ⟨_, _, rfl, rfl, rfl, rfl⟩
  have hor := h s (Machine.Reachable.init.play hs) 3 p hl
  simp [hp] at hor

end Zuvloop.Polling
