import Zuvloop.Polling.Registry

/-!
# What holds of the registry

The invariant of the pollers speaks of one descriptor at a time: a poll handle knows its descriptor,
and a handle knows where it was registered. While a function is at work, what holds is `Pending`:
the invariant for all other descriptors, and what `rearm` needs to restore it for its own.

## Main results

* `inv_of_reachable`: the invariant, whatever happens.
-/

namespace Zuvloop.Polling

open Transition

variable {s s' : State} {fd g : Fd} {p q : Poller} {d : Direction} {h i : ℕ} {ok : Bool} {l : Label}

/-! ## The invariant -/

/-- A handle is registered. -/
def State.Registered (s : State) (h : ℕ) : Prop :=
  ∃ fd p d, s.pollers.lookup fd = some p ∧ p.slot d = some h

/-- What is left of `closeAll`. -/
def State.visits (s : State) : List (List Fd) := s.todo.filterMap Action.visits

/-- What holds of a poller in the map. -/
structure Poller.Ok (p : Poller) (s : State) (fd : Fd) : Prop where
  /-- The poll handle is the descriptor's. -/
  desc : (s.polls p.poll).fd = fd
  lt : p.poll < s.nextPoll
  /-- The cache is what the handles wait for. -/
  events : p.interest ≠ .none → p.events = p.interest
  /-- The poll handle is open as long as there are handles. -/
  closes : (s.polls p.poll).closes = if p.interest = .none then 1 else 0
  /-- The handles were registered here, and are not cancelled. -/
  slot : ∀ d h, p.slot d = some h → h < s.nextHandle ∧ s.cancelled h = false ∧ s.home h = (fd, d)

/-- What holds whatever happens. -/
structure Inv (s : State) : Prop where
  ok : ∀ fd p, s.pollers.lookup fd = some p → p.Ok s fd
  /-- In an open loop there are no pollers without handles. -/
  live : s.closed = false → ∀ fd p, s.pollers.lookup fd = some p → p.interest ≠ .none
  /-- Poll handles that are not in the map are closed. -/
  removed : ∀ i < s.nextPoll, (∀ fd p, s.pollers.lookup fd = some p → p.poll ≠ i) →
    (s.polls i).closes = 1
  /-- In an open loop a handle that is not cancelled is registered. -/
  registered : s.closed = false → ∀ h < s.nextHandle, s.cancelled h = false → s.Registered h
  /-- The handles on the ready queue exist. -/
  ready : ∀ h ∈ s.ready, h < s.nextHandle
  /-- What is about to be cancelled is not registered any more. -/
  doomed : ∀ h, Action.cancelRelease h ∈ s.todo → h < s.nextHandle ∧ ¬s.Registered h
  /-- `closeAll` is not called before the loop is closed. -/
  opened : s.closed = false → s.visits = []
  /-- In a closed loop `closeAll` has emptied the map, or it is under way and has not come to the
  pollers that have handles. -/
  closing : s.closed = true → (s.visits = [] ∧ s.pollers = ∅) ∨
    ∃ fds, s.visits = [fds] ∧ fds.Nodup ∧
      ∀ fd p, s.pollers.lookup fd = some p → (fd ∈ fds ↔ p.interest ≠ .none)

/-- What holds before `rearm`, with the poller it is given. -/
structure Pending (s : State) (fd : Fd) (p : Poller) : Prop where
  ok : ∀ g q, g ≠ fd → s.pollers.lookup g = some q → q.Ok s g
  live : s.closed = false → ∀ g q, g ≠ fd → s.pollers.lookup g = some q → q.interest ≠ .none
  removed : ∀ i < s.nextPoll, i ≠ p.poll →
    (∀ g q, g ≠ fd → s.pollers.lookup g = some q → q.poll ≠ i) → (s.polls i).closes = 1
  registered : s.closed = false → ∀ h < s.nextHandle, s.cancelled h = false →
    (∃ g q d, g ≠ fd ∧ s.pollers.lookup g = some q ∧ q.slot d = some h) ∨
      ∃ d, p.slot d = some h
  ready : ∀ h ∈ s.ready, h < s.nextHandle
  doomed : ∀ h, Action.cancelRelease h ∈ s.todo → h < s.nextHandle ∧
    (∀ g q d, g ≠ fd → s.pollers.lookup g = some q → q.slot d ≠ some h) ∧ ∀ d, p.slot d ≠ some h
  opened : s.closed = false → s.visits = []
  closing : s.closed = true → ∃ fds, s.visits = [fds] ∧ fds.Nodup ∧ fd ∈ fds ∧
    ∀ g q, g ≠ fd → s.pollers.lookup g = some q → (g ∈ fds ↔ q.interest ≠ .none)
  /-- The poll handle is the descriptor's, and open. -/
  desc : (s.polls p.poll).fd = fd
  lt : p.poll < s.nextPoll
  closes : (s.polls p.poll).closes = 0
  /-- A poller that has lost its last handle had something in its cache. -/
  events : p.interest = .none → p.events ≠ .none
  slot : ∀ d h, p.slot d = some h → h < s.nextHandle ∧ s.cancelled h = false ∧ s.home h = (fd, d)

/-! ## `rearm` -/

/-- What `rearm` leaves as it is. -/
structure Kept (s s' : State) : Prop where
  nextPoll : s'.nextPoll = s.nextPoll
  nextHandle : s'.nextHandle = s.nextHandle
  cancelled : s'.cancelled = s.cancelled
  home : s'.home = s.home
  acquired : s'.acquired = s.acquired
  released : s'.released = s.released
  ready : s'.ready = s.ready
  todo : s'.todo = s.todo
  ran : s'.ran = s.ran
  closed : s'.closed = s.closed

theorem Kept.visits (hk : Kept s s') : s'.visits = s.visits := by rw [State.visits, hk.todo]; rfl

/-- `rearm` changes the map, a poll handle and nothing else: a poller without interest has no
handles to release. -/
theorem kept_rearm : Kept s (s.rearm fd p ok) := by
  rw [State.rearm]
  split
  · constructor <;> rfl
  split
  · rename_i hnone
    have hreader : p.reader = none := Poller.interest_eq_none.mp hnone .reader
    have hwriter : p.writer = none := Poller.interest_eq_none.mp hnone .writer
    constructor <;> simp [State.destroy, State.removePoller, State.setPoll, State.push,
      Poller.releases, hreader, hwriter]
  · cases ok <;> constructor <;> rfl

/-- The pollers of other descriptors stay where they are. -/
theorem lookup_rearm_ne (hg : g ≠ fd) :
    (s.rearm fd p ok).pollers.lookup g = s.pollers.lookup g := by
  rw [State.rearm]
  split
  · exact AList.lookup_insert_ne hg
  split
  · exact AList.lookup_erase_ne hg
  · cases ok <;> exact AList.lookup_insert_ne hg

/-- A poller without interest leaves the map, any other is put there with its cache up to date. -/
theorem lookup_rearm (hp : p.interest = .none → p.events ≠ .none) :
    (s.rearm fd p ok).pollers.lookup fd =
      if p.interest = .none then none else some { p with events := p.interest } := by
  rw [State.rearm]
  split
  · rename_i heq
    have hne : p.interest ≠ .none := fun hnone => hp hnone (heq ▸ hnone)
    rw [if_neg hne, State.setPoller, heq]
    exact AList.lookup_insert _
  split
  · exact AList.lookup_erase _ _
  · cases ok <;> exact AList.lookup_insert _

/-- Poll handles keep their descriptors. -/
theorem fd_rearm : ((s.rearm fd p ok).polls i).fd = (s.polls i).fd := by
  rw [State.rearm]
  split
  · rfl
  split
  · by_cases hi : i = p.poll <;>
      simp [State.destroy, State.removePoller, State.setPoll, State.push, hi]
  · by_cases hi : i = p.poll <;> cases ok <;>
      simp [State.pollStart, State.setPoller, State.setPoll, hi]

/-- The poll handle of a poller without interest is closed. -/
theorem closes_rearm (hp : p.interest = .none → p.events ≠ .none) :
    ((s.rearm fd p ok).polls i).closes =
      (s.polls i).closes + if i = p.poll ∧ p.interest = .none then 1 else 0 := by
  rw [State.rearm]
  split
  · rename_i heq
    have hne : p.interest ≠ .none := fun hnone => hp hnone (heq ▸ hnone)
    simp [hne, State.setPoller]
  split
  · rename_i hnone
    by_cases hi : i = p.poll <;>
      simp [State.destroy, State.removePoller, State.setPoll, State.push, hi, hnone]
  · rename_i hne
    by_cases hi : i = p.poll <;> cases ok <;>
      simp [State.pollStart, State.setPoller, State.setPoll, hi, hne]

/-- A poller that is right stays right while its poll handle and its handles stay what they are. -/
theorem Poller.Ok.mono (hp : p.Ok s fd) (hfd : (s'.polls p.poll).fd = (s.polls p.poll).fd)
    (hcl : (s'.polls p.poll).closes = (s.polls p.poll).closes) (hlt : s.nextPoll ≤ s'.nextPoll)
    (hslot : ∀ d h, p.slot d = some h →
      h < s'.nextHandle ∧ s'.cancelled h = false ∧ s'.home h = (fd, d)) : p.Ok s' fd :=
  ⟨hfd.trans hp.desc, Nat.lt_of_lt_of_le hp.lt hlt, hp.events, hcl.trans hp.closes, hslot⟩

/-- The pollers of other descriptors have other poll handles. -/
theorem Pending.poll_ne (hp : Pending s fd p) (hg : g ≠ fd) (hq : s.pollers.lookup g = some q) :
    q.poll ≠ p.poll := by
  intro heq
  have hdesc := (hp.ok g q hg hq).desc
  rw [heq, hp.desc] at hdesc
  exact hg hdesc.symm

/-- `rearm` restores the invariant. -/
theorem Pending.rearm (hp : Pending s fd p) (ok : Bool) : Inv (s.rearm fd p ok) := by
  have hk : Kept s (s.rearm fd p ok) := kept_rearm
  have hlookup : (s.rearm fd p ok).pollers.lookup fd =
      if p.interest = .none then none else some { p with events := p.interest } :=
    lookup_rearm hp.events
  have hcloses : ∀ i, ((s.rearm fd p ok).polls i).closes =
      (s.polls i).closes + if i = p.poll ∧ p.interest = .none then 1 else 0 :=
    fun _ => closes_rearm hp.events
  -- what the map has at a descriptor afterwards
  have hcases : ∀ g q, (s.rearm fd p ok).pollers.lookup g = some q →
      (g ≠ fd ∧ s.pollers.lookup g = some q) ∨
        (g = fd ∧ p.interest ≠ .none ∧ q = { p with events := p.interest }) := by
    intro g q hq
    by_cases hg : g = fd
    · subst hg
      rw [hlookup] at hq
      split at hq
      · cases hq
      · rename_i hne
        exact .inr ⟨rfl, hne, (Option.some.inj hq).symm⟩
    · exact .inl ⟨hg, (lookup_rearm_ne hg).symm.trans hq⟩
  refine ⟨fun g q hq => ?_, fun hc g q hq => ?_, fun i hi hnot => ?_, fun hc h hlt hcan => ?_, ?_,
    fun h hmem => ?_, fun hc => ?_, fun hc => .inr ?_⟩
  · rcases hcases g q hq with ⟨hg, hq⟩ | ⟨rfl, hne, rfl⟩
    · refine (hp.ok g q hg hq).mono fd_rearm ?_ (Nat.le_of_eq hk.nextPoll.symm) fun d h hd => ?_
      · simp [hcloses, hp.poll_ne hg hq]
      · rw [hk.nextHandle, hk.cancelled, hk.home]
        exact (hp.ok g q hg hq).slot d h hd
    · refine ⟨fd_rearm.trans hp.desc, hk.nextPoll ▸ hp.lt, fun _ => rfl, ?_, fun d h hd => ?_⟩
      · simp [hcloses, hp.closes, hne]
      · rw [hk.nextHandle, hk.cancelled, hk.home]
        exact hp.slot d h hd
  · rcases hcases g q hq with ⟨hg, hq⟩ | ⟨rfl, hne, rfl⟩
    · exact hp.live (hk.closed ▸ hc) g q hg hq
    · exact hne
  · rw [hk.nextPoll] at hi
    have hnot' : ∀ g q, g ≠ fd → s.pollers.lookup g = some q → q.poll ≠ i :=
      fun g q hg hq => hnot g q ((lookup_rearm_ne hg).trans hq)
    by_cases hip : i = p.poll
    · -- the poll handle of the poller itself, which is not in the map any more
      have hnone : p.interest = .none := by
        by_contra hne
        exact hnot fd { p with events := p.interest } (by rw [hlookup, if_neg hne]) hip.symm
      simp [hcloses, hip, hnone, hp.closes]
    · simp [hcloses, hip, hp.removed i hi hip hnot']
  · rw [hk.nextHandle] at hlt
    rw [hk.cancelled] at hcan
    rcases hp.registered (hk.closed ▸ hc) h hlt hcan with ⟨g, q, d, hg, hq, hd⟩ | ⟨d, hd⟩
    · exact ⟨g, q, d, (lookup_rearm_ne hg).trans hq, hd⟩
    · have hne := Poller.interest_ne_none hd
      exact ⟨fd, { p with events := p.interest }, d, by rw [hlookup, if_neg hne], hd⟩
  · rw [hk.ready, hk.nextHandle]
    exact hp.ready
  · obtain ⟨hlt, hrest, hself⟩ := hp.doomed h (hk.todo ▸ hmem)
    refine ⟨hk.nextHandle ▸ hlt, ?_⟩
    rintro ⟨g, q, d, hq, hd⟩
    rcases hcases g q hq with ⟨hg, hq⟩ | ⟨rfl, -, rfl⟩
    · exact hrest g q d hg hq hd
    · exact hself d hd
  · rw [hk.visits]
    exact hp.opened (hk.closed ▸ hc)
  · obtain ⟨fds, hv, hnodup, hself, hrest⟩ := hp.closing (hk.closed ▸ hc)
    refine ⟨fds, hk.visits.trans hv, hnodup, fun g q hq => ?_⟩
    rcases hcases g q hq with ⟨hg, hq⟩ | ⟨rfl, hne, rfl⟩
    · exact hrest g q hg hq
    · exact iff_of_true hself hne

/-! ## The functions -/

/-- What is released, and what is on the ready queue, concerns nothing else. -/
theorem Inv.frame (hi : Inv s) {ready ran : List ℕ} {acquired released : ℕ → ℕ}
    (hr : ∀ h ∈ ready, h < s.nextHandle) :
    Inv { s with ready, ran, acquired, released } :=
  ⟨fun fd p hp => (hi.ok fd p hp).mono rfl rfl le_rfl (hi.ok fd p hp).slot, hi.live, hi.removed,
    hi.registered, hr, hi.doomed, hi.opened, hi.closing⟩

/-- A handle that is to be released. -/
theorem Inv.push (hi : Inv s) (h : ℕ) : Inv (s.push [.release h]) :=
  ⟨fun fd p hp => (hi.ok fd p hp).mono rfl rfl le_rfl (hi.ok fd p hp).slot, hi.live, hi.removed,
    hi.registered, hi.ready,
    fun x hx => hi.doomed x ((List.mem_cons.mp hx).resolve_left (by simp)), hi.opened, hi.closing⟩

/-- The new handle of a descriptor without a poller. -/
theorem Inv.pending_new (hi : Inv s) (hc : s.closed = false) (hl : s.pollers.lookup fd = none) :
    Pending ((s.create fd d).get fd).2 fd
      (Poller.setSlot ⟨s.nextPoll, none, none, .none⟩ d (some s.nextHandle)) := by
  rw [State.get_of_none (by exact hl)]
  -- the new poll handle and the new handle are nobody else's
  have hother : ∀ g q, s.pollers.lookup g = some q → g ≠ fd := by
    rintro g q hq rfl
    simp [hl] at hq
  refine ⟨fun g q _ hq => (hi.ok g q hq).mono ?_ ?_ (Nat.le_succ _) fun d' x hx => ?_,
    fun _ g q _ hq => hi.live hc g q hq, fun i hlt hne hnot => ?_, fun _ x hlt hcan => ?_,
    fun x hx => Nat.lt_succ_of_lt (hi.ready x hx), fun x hx => ?_, fun _ => hi.opened hc,
    fun hc' => absurd hc' (by simp [State.create, State.setPoll, hc]),
    ?_, ?_, ?_, ?_, fun d' x hx => ?_⟩
  · simp [State.create, State.setPoll, Nat.ne_of_lt (hi.ok g q hq).lt]
  · simp [State.create, State.setPoll, Nat.ne_of_lt (hi.ok g q hq).lt]
  · obtain ⟨hlt, hcan, hhome⟩ := (hi.ok g q hq).slot d' x hx
    refine ⟨Nat.lt_succ_of_lt hlt, ?_, ?_⟩ <;>
      simpa [State.create, State.setPoll, Nat.ne_of_lt hlt]
  · have hlt : i < s.nextPoll := by
      have hne : i ≠ s.nextPoll := by simpa using hne
      have hlt : i < s.nextPoll + 1 := hlt
      omega
    have hcl := hi.removed i hlt fun g q hq => hnot g q (hother g q hq) hq
    simpa [State.create, State.setPoll, Nat.ne_of_lt hlt] using hcl
  · by_cases hx : x = s.nextHandle
    · exact .inr ⟨d, by simp [hx]⟩
    · have hlt : x < s.nextHandle := by
        have hlt : x < s.nextHandle + 1 := hlt
        omega
      have hcan : s.cancelled x = false := by
        simpa [State.create, State.setPoll, hx] using hcan
      obtain ⟨g, q, d', hq, hd⟩ := hi.registered hc x hlt hcan
      exact .inl ⟨g, q, d', hother g q hq, hq, hd⟩
  · obtain ⟨hlt, hnot⟩ := hi.doomed x hx
    refine ⟨Nat.lt_succ_of_lt hlt, fun g q d' _ hq hd => hnot ⟨g, q, d', hq, hd⟩, fun d' hd => ?_⟩
    by_cases hdd : d' = d
    · subst hdd
      obtain rfl : s.nextHandle = x := by simpa using hd
      exact Nat.lt_irrefl _ hlt
    · rw [Poller.slot_setSlot_ne hdd] at hd
      cases d' <;> cases hd
  · simp [State.create, State.setPoll]
  · simp [State.create]
  · simp [State.create, State.setPoll]
  · exact fun hnone => absurd hnone (Poller.interest_ne_none Poller.slot_setSlot_self)
  · by_cases hd : d' = d
    · subst hd
      obtain rfl : s.nextHandle = x := by simpa using hx
      simp [State.create, State.setPoll]
    · rw [Poller.slot_setSlot_ne hd] at hx
      cases d' <;> cases hx

/-- The new handle of a descriptor with a poller; the one it supersedes is cancelled. -/
theorem Inv.pending_add (hi : Inv s) (hc : s.closed = false) (hl : s.pollers.lookup fd = some p)
    {cancelled : ℕ → Bool} (hold : ∀ x, p.slot d = some x → cancelled x = true)
    (hkept : ∀ x, p.slot d ≠ some x → cancelled x = (s.create fd d).cancelled x) :
    Pending { s.create fd d with cancelled } fd (p.setSlot d (some s.nextHandle)) := by
  have hp := hi.ok fd p hl
  have hnone : p.interest ≠ .none := hi.live hc fd p hl
  have hnew : cancelled s.nextHandle = false := by
    rw [hkept _ fun hx => Nat.lt_irrefl _ (hp.slot d _ hx).1]
    simp [State.create]
  -- a handle elsewhere is neither the new one nor the superseded one
  have helse : ∀ g q d' x, s.pollers.lookup g = some q → q.slot d' = some x →
      (g ≠ fd ∨ d' ≠ d) → x < s.nextHandle + 1 ∧ cancelled x = false ∧
        (s.create fd d).home x = (g, d') := by
    intro g q d' x hq hx hne
    obtain ⟨hlt, hcan, hhome⟩ := (hi.ok g q hq).slot d' x hx
    refine ⟨Nat.lt_succ_of_lt hlt, ?_, ?_⟩
    · rw [hkept x fun hx' => ?_]
      · simpa [State.create, Nat.ne_of_lt hlt] using hcan
      · have hhome' := (hp.slot d x hx').2.2
        rw [hhome, Prod.mk.injEq] at hhome'
        exact hne.elim (absurd hhome'.1) (absurd hhome'.2)
    · simpa [State.create, Nat.ne_of_lt hlt] using hhome
  refine ⟨fun g q hg hq =>
      (hi.ok g q hq).mono rfl rfl le_rfl fun d' x hx => helse g q d' x hq hx (.inl hg),
    fun _ g q _ hq => hi.live hc g q hq, fun i hlt hne hnot => ?_, fun _ x hlt hcan => ?_,
    fun x hx => Nat.lt_succ_of_lt (hi.ready x hx), fun x hx => ?_, fun _ => hi.opened hc,
    fun hc' => absurd hc' (by simp [State.create, hc]), ?_, ?_, ?_, ?_, fun d' x hx => ?_⟩
  · refine hi.removed i hlt fun g q hq => ?_
    by_cases hg : g = fd
    · obtain rfl : p = q := Option.some.inj (hl.symm.trans (hg ▸ hq))
      exact fun heq => hne (by simp [heq])
    · exact hnot g q hg hq
  · by_cases hx : x = s.nextHandle
    · exact .inr ⟨d, by simp [hx]⟩
    have hlt : x < s.nextHandle := Nat.lt_of_le_of_ne (Nat.le_of_lt_succ hlt) hx
    have hne : p.slot d ≠ some x := fun hd => by simp [hold x hd] at hcan
    have hcan : s.cancelled x = false := by
      simpa [State.create, hx] using (hkept x hne).symm.trans hcan
    obtain ⟨g, q, d', hq, hd⟩ := hi.registered hc x hlt hcan
    by_cases hg : g = fd
    · obtain rfl : p = q := Option.some.inj (hl.symm.trans (hg ▸ hq))
      have hd' : d' ≠ d := fun heq => hne (heq ▸ hd)
      exact .inr ⟨d', (Poller.slot_setSlot_ne hd').trans hd⟩
    · exact .inl ⟨g, q, d', hg, hq, hd⟩
  · obtain ⟨hlt, hnot⟩ := hi.doomed x hx
    refine ⟨Nat.lt_succ_of_lt hlt, fun g q d' _ hq hd => hnot ⟨g, q, d', hq, hd⟩, fun d' hd => ?_⟩
    by_cases hdd : d' = d
    · subst hdd
      obtain rfl : s.nextHandle = x := by simpa using hd
      exact Nat.lt_irrefl _ hlt
    · exact hnot ⟨fd, p, d', hl, (Poller.slot_setSlot_ne hdd).symm.trans hd⟩
  · simpa [State.create] using hp.desc
  · simpa [State.create] using hp.lt
  · simpa [State.create, hnone] using hp.closes
  · exact fun hnone => absurd hnone (Poller.interest_ne_none Poller.slot_setSlot_self)
  · by_cases hd : d' = d
    · subst hd
      obtain rfl : s.nextHandle = x := by simpa using hx
      exact ⟨Nat.lt_succ_self _, hnew, by simp [State.create]⟩
    · exact helse fd p d' x hl (Poller.slot_setSlot_ne hd ▸ hx) (.inr hd)

/-- `add` keeps the invariant. -/
theorem Inv.add (hi : Inv s) (hc : s.closed = false) (fd : Fd) (d : Direction) (ok : Bool) :
    Inv (s.add fd d ok) := by
  cases hl : s.pollers.lookup fd with
  | none =>
    rw [State.add_of_none hl]
    exact (hi.pending_new hc hl).rearm ok
  | some p =>
    cases hd : p.slot d with
    | none =>
      rw [State.add_of_some hl hd]
      exact (hi.pending_add hc hl (by simp [hd]) fun _ _ => rfl).rearm ok
    | some old =>
      rw [State.add_of_superseded hl hd]
      refine ((hi.pending_add hc hl ?_ ?_).rearm ok).push old
      · rintro x hx
        obtain rfl : old = x := by simpa [hd] using hx
        simp [State.create]
      · intro x hx
        have hne : x ≠ old := fun heq => hx (heq ▸ hd)
        simp [hne]

/-- The handle that is removed is cancelled, and its poller closed if it was the last one. -/
theorem Inv.pending_remove (hi : Inv s) (hl : s.pollers.lookup fd = some p)
    (hd : p.slot d = some h) : Pending (s.cancel h) fd (p.setSlot d none) := by
  have hp := hi.ok fd p hl
  have hnone : p.interest ≠ .none := Poller.interest_ne_none hd
  have hhome := (hp.slot d h hd).2.2
  -- a handle elsewhere is not the one that is removed
  have helse : ∀ g q d' x, s.pollers.lookup g = some q → q.slot d' = some x → (g ≠ fd ∨ d' ≠ d) →
      x < s.nextHandle ∧ (s.cancel h).cancelled x = false ∧ s.home x = (g, d') := by
    intro g q d' x hq hx hne
    obtain ⟨hlt, hcan, hhome'⟩ := (hi.ok g q hq).slot d' x hx
    refine ⟨hlt, ?_, hhome'⟩
    have hxh : x ≠ h := by
      rintro rfl
      rw [hhome, Prod.mk.injEq] at hhome'
      exact hne.elim (absurd hhome'.1.symm) (absurd hhome'.2.symm)
    simpa [State.cancel, hxh] using hcan
  have hslot : ∀ d' x, (p.setSlot d none).slot d' = some x → d' ≠ d ∧ p.slot d' = some x := by
    intro d' x hx
    by_cases hdd : d' = d
    · subst hdd
      simp at hx
    · exact ⟨hdd, (Poller.slot_setSlot_ne hdd).symm.trans hx⟩
  refine ⟨fun g q hg hq =>
      (hi.ok g q hq).mono rfl rfl le_rfl fun d' x hx => helse g q d' x hq hx (.inl hg),
    fun hc g q _ hq => hi.live hc g q hq, fun i hlt hne hnot => ?_, fun hc x hlt hcan => ?_,
    hi.ready, fun x hx => ?_, hi.opened, fun hc => ?_, ?_, ?_, ?_, fun _ => ?_, fun d' x hx => ?_⟩
  · refine hi.removed i hlt fun g q hq => ?_
    by_cases hg : g = fd
    · obtain rfl : p = q := Option.some.inj (hl.symm.trans (hg ▸ hq))
      exact fun heq => hne (by simp [heq])
    · exact hnot g q hg hq
  · have hxh : x ≠ h := by
      rintro rfl
      simp [State.cancel] at hcan
    have hcan : s.cancelled x = false := by simpa [State.cancel, hxh] using hcan
    obtain ⟨g, q, d', hq, hd'⟩ := hi.registered hc x hlt hcan
    by_cases hg : g = fd
    · obtain rfl : p = q := Option.some.inj (hl.symm.trans (hg ▸ hq))
      have hdd : d' ≠ d := by
        rintro rfl
        exact hxh (Option.some.inj (hd'.symm.trans hd))
      exact .inr ⟨d', (Poller.slot_setSlot_ne hdd).trans hd'⟩
    · exact .inl ⟨g, q, d', hg, hq, hd'⟩
  · obtain ⟨hlt, hnot⟩ := hi.doomed x hx
    exact ⟨hlt, fun g q d' _ hq hd' => hnot ⟨g, q, d', hq, hd'⟩,
      fun d' hd' => hnot ⟨fd, p, d', hl, (hslot d' x hd').2⟩⟩
  · rcases hi.closing hc with ⟨-, hempty⟩ | ⟨fds, hv, hnodup, hiff⟩
    · simp [hempty] at hl
    · exact ⟨fds, hv, hnodup, (hiff fd p hl).mpr hnone, fun g q _ hq => hiff g q hq⟩
  · simpa [State.cancel] using hp.desc
  · simpa [State.cancel] using hp.lt
  · simpa [State.cancel, hnone] using hp.closes
  · simpa [hp.events hnone] using hnone
  · obtain ⟨hdd, hx⟩ := hslot d' x hx
    exact helse fd p d' x hl hx (.inr hdd)

/-- `remove` keeps the invariant. -/
theorem Inv.remove (hi : Inv s) (fd : Fd) (d : Direction) (ok : Bool) :
    Inv (s.remove fd d ok) := by
  cases hl : s.pollers.lookup fd with
  | none => simpa [State.remove, hl] using hi
  | some p =>
    cases hd : p.slot d with
    | none => simpa [State.remove, hl, hd] using hi
    | some h =>
      rw [State.remove_of_some hl hd]
      exact ((hi.pending_remove hl hd).rearm ok).push h

/-- `schedule` touches the ready queue only. -/
theorem Inv.schedule (hi : Inv s) (x : Option ℕ) (hx : ∀ h, x = some h → h < s.nextHandle) :
    Inv (s.schedule x) := by
  rw [State.schedule.eq_def]
  split
  · exact hi
  split
  · exact hi
  · rename_i h _
    refine hi.frame fun y hy => ?_
    rcases List.mem_append.mp hy with hy | hy
    · exact hi.ready y hy
    · exact List.mem_singleton.mp hy ▸ hx h rfl

/-- The handles of a poller in the map can be scheduled. -/
theorem Inv.lt_of_slot (hi : Inv s) (hl : s.pollers.lookup fd = some p) :
    ∀ x, p.slot d = some x → x < s.nextHandle :=
  fun x hx => ((hi.ok fd p hl).slot d x hx).1

@[simp]
theorem nextHandle_schedule (x : Option ℕ) : (s.schedule x).nextHandle = s.nextHandle := by
  cases x with
  | none => rfl
  | some h =>
    rw [State.schedule]
    split <;> rfl

@[simp]
theorem pollers_schedule (x : Option ℕ) : (s.schedule x).pollers = s.pollers := by
  cases x with
  | none => rfl
  | some h =>
    rw [State.schedule]
    split <;> rfl

@[simp]
theorem closed_schedule (x : Option ℕ) : (s.schedule x).closed = s.closed := by
  cases x with
  | none => rfl
  | some h =>
    rw [State.schedule]
    split <;> rfl

/-- Events put handles on the ready queue. -/
theorem Inv.onPoll (hi : Inv s) (hl : s.pollers.lookup fd = some p) (events : Events) :
    Inv (s.onPoll p events) := by
  have hread : Inv (if events.readable then s.schedule p.reader else s) := by
    split
    · exact hi.schedule _ (hi.lt_of_slot (d := .reader) hl)
    · exact hi
  rw [State.onPoll]
  split
  · refine hread.schedule _ fun x hx => ?_
    have hlt := hi.lt_of_slot (d := .writer) hl x hx
    split <;> simpa using hlt
  · exact hread

/-- What libuv polls for concerns nothing here. -/
theorem Inv.setPolling (hi : Inv s) (i : ℕ) (events : Events) :
    Inv (s.setPoll i { s.polls i with polling := events }) := by
  have hfd : ∀ j, ((s.setPoll i { s.polls i with polling := events }).polls j).fd =
      (s.polls j).fd := by
    intro j
    by_cases hj : j = i <;> simp [State.setPoll, hj]
  have hcl : ∀ j, ((s.setPoll i { s.polls i with polling := events }).polls j).closes =
      (s.polls j).closes := by
    intro j
    by_cases hj : j = i <;> simp [State.setPoll, hj]
  exact ⟨fun fd p hp => (hi.ok fd p hp).mono (hfd _) (hcl _) le_rfl (hi.ok fd p hp).slot, hi.live,
    fun j hj hnot => (hcl j).trans (hi.removed j hj hnot), hi.registered, hi.ready, hi.doomed,
    hi.opened, hi.closing⟩

/-- A poller with handles whose cache has been changed. -/
theorem Inv.pending (hi : Inv s) (hl : s.pollers.lookup fd = some p) (hne : p.interest ≠ .none)
    (events : Events) : Pending s fd { p with events } := by
  have hp := hi.ok fd p hl
  refine ⟨fun g q _ hq => hi.ok g q hq, fun hc g q _ hq => hi.live hc g q hq,
    fun i hlt hip hnot => ?_, fun hc x hlt hcan => ?_, hi.ready, fun x hx => ?_, hi.opened,
    fun hc => ?_, hp.desc, hp.lt, ?_, fun hnone => absurd hnone hne, hp.slot⟩
  · refine hi.removed i hlt fun g q hq => ?_
    by_cases hg : g = fd
    · obtain rfl : p = q := Option.some.inj (hl.symm.trans (hg ▸ hq))
      exact fun heq => hip heq.symm
    · exact hnot g q hg hq
  · obtain ⟨g, q, d, hq, hd⟩ := hi.registered hc x hlt hcan
    by_cases hg : g = fd
    · obtain rfl : p = q := Option.some.inj (hl.symm.trans (hg ▸ hq))
      exact .inr ⟨d, hd⟩
    · exact .inl ⟨g, q, d, hg, hq, hd⟩
  · obtain ⟨hlt, hnot⟩ := hi.doomed x hx
    exact ⟨hlt, fun g q d _ hq hd => hnot ⟨g, q, d, hq, hd⟩,
      fun d hd => hnot ⟨fd, p, d, hl, hd⟩⟩
  · rcases hi.closing hc with ⟨-, hempty⟩ | ⟨fds, hv, hnodup, hiff⟩
    · simp [hempty] at hl
    · exact ⟨fds, hv, hnodup, (hiff fd p hl).mpr hne, fun g q _ hq => hiff g q hq⟩
  · simpa [hne] using hp.closes

/-- An error schedules both handles and polls again. -/
theorem Inv.onPollError (hi : Inv s) (hc : s.closed = false) (hl : s.pollers.lookup fd = some p)
    (ok : Bool) : Inv (s.onPollError fd p ok) := by
  have hstop := hi.setPolling p.poll .none
  have hread := hstop.schedule p.reader (hi.lt_of_slot (d := .reader) hl)
  have hwrite := hread.schedule p.writer fun x hx => by
    rw [nextHandle_schedule]
    exact hi.lt_of_slot (d := .writer) hl x hx
  refine (hwrite.pending ?_ (hi.live hc fd p hl) .none).rearm ok
  rw [pollers_schedule, pollers_schedule]
  exact hl

/-- The ready queue moves on. -/
theorem Inv.runReady (hi : Inv s) {rest : List ℕ} (hr : s.ready = h :: rest) :
    Inv (s.runReady h rest) := by
  have hrest : ∀ x ∈ rest, x < s.nextHandle := fun x hx =>
    hi.ready x (hr ▸ List.mem_cons_of_mem _ hx)
  rw [State.runReady]
  by_cases hcan : s.cancelled h = true
  · simp only [hcan, if_true]
    exact (hi.frame hrest).push h
  · simp only [hcan]
    exact (hi.frame hrest).push h

/-- `closeAll` is going to come to every poller. -/
theorem Inv.close (hi : Inv s) (hc : s.closed = false) {fds : List Fd}
    (hf : fds.Perm s.pollers.keys) : Inv (s.close fds) := by
  have hv : (s.close fds).visits = [fds] := by
    have htodo := hi.opened hc
    rw [State.visits] at htodo
    simp [State.close, State.visits, State.push, List.filterMap_map, Action.visits,
      Function.comp_def, htodo]
  have hmem : ∀ x, Action.cancelRelease x ∈ (s.close fds).todo →
      Action.cancelRelease x ∈ s.todo := by
    intro x hx
    simpa [State.close, State.push] using hx
  refine ⟨fun fd p hp => (hi.ok fd p hp).mono rfl rfl le_rfl (hi.ok fd p hp).slot,
    fun h => absurd h (by simp [State.close, State.push]), hi.removed,
    fun h => absurd h (by simp [State.close, State.push]),
    fun x hx => absurd hx (by simp [State.close, State.push]),
    fun x hx => hi.doomed x (hmem x hx), fun h => absurd h (by simp [State.close, State.push]),
    fun _ => .inr ⟨fds, hv, hf.nodup_iff.mpr (AList.keys_nodup _), fun fd p hp => ?_⟩⟩
  refine iff_of_true (hf.mem_iff.mpr ?_) (hi.live hc fd p hp)
  exact AList.mem_keys.mpr (AList.lookup_isSome.mp (by
    have hp : s.pollers.lookup fd = some p := hp
    simp [hp]))

/-- An action less that is not `closeAll`. -/
theorem Inv.pop (hi : Inv s) {a : Action} {todo : List Action} (ht : s.todo = a :: todo)
    (ha : a.visits = none) : Inv { s with todo } := by
  have hv : State.visits { s with todo } = s.visits := by
    rw [State.visits, State.visits, ht, List.filterMap_cons_none ha]
  refine ⟨fun fd p hp => (hi.ok fd p hp).mono rfl rfl le_rfl (hi.ok fd p hp).slot, hi.live,
    hi.removed, hi.registered, hi.ready,
    fun x hx => hi.doomed x (ht ▸ List.mem_cons_of_mem _ hx), fun hc => hv.trans (hi.opened hc),
    fun hc => ?_⟩
  rw [hv]
  exact hi.closing hc

/-- A handle that is not registered may be cancelled. -/
theorem Inv.cancel (hi : Inv s) (hnot : ¬s.Registered h) : Inv (s.cancel h) := by
  refine ⟨fun fd p hp => (hi.ok fd p hp).mono rfl rfl le_rfl fun d x hd => ?_, hi.live,
    hi.removed, fun hc x hlt hcan => ?_, hi.ready, hi.doomed, hi.opened, hi.closing⟩
  · obtain ⟨hlt, hcan, hhome⟩ := (hi.ok fd p hp).slot d x hd
    have hne : x ≠ h := by
      rintro rfl
      exact hnot ⟨fd, p, d, hp, hd⟩
    exact ⟨hlt, by simpa [State.cancel, hne] using hcan, hhome⟩
  · have hne : x ≠ h := by
      rintro rfl
      simp [State.cancel] at hcan
    exact hi.registered hc x hlt (by simpa [State.cancel, hne] using hcan)

/-- Where `closeAll` is. -/
theorem Inv.visiting (hi : Inv s) {fds : List Fd} {todo : List Action}
    (ht : s.todo = .destroyAll fds :: todo) :
    s.closed = true ∧ todo.filterMap Action.visits = [] ∧ fds.Nodup ∧
      ∀ fd p, s.pollers.lookup fd = some p → (fd ∈ fds ↔ p.interest ≠ .none) := by
  have hvs : s.visits = fds :: todo.filterMap Action.visits := by
    rw [State.visits, ht]
    rfl
  have hclosed : s.closed = true := by
    by_contra hc
    simp [hi.opened (by simpa using hc)] at hvs
  rcases hi.closing hclosed with ⟨hv, -⟩ | ⟨fds', hv, hnodup, hiff⟩
  · simp [hv] at hvs
  · obtain ⟨rfl, htodo⟩ := List.cons.inj (hv.symm.trans hvs)
    exact ⟨hclosed, htodo.symm, hnodup, hiff⟩

/-- `closeAll` has come to the end of the map. -/
theorem Inv.emptied (hi : Inv s) {todo : List Action} (ht : s.todo = .destroyAll [] :: todo) :
    Inv { s with todo, pollers := ∅ } := by
  obtain ⟨hclosed, htodo, -, hiff⟩ := hi.visiting ht
  refine ⟨fun fd p hp => absurd hp (by simp), fun hc => absurd hc (by simp [hclosed]),
    fun i hlt _ => ?_, fun hc => absurd hc (by simp [hclosed]), hi.ready, fun x hx => ?_,
    fun hc => absurd hc (by simp [hclosed]), fun _ => .inl ⟨htodo, rfl⟩⟩
  · -- the pollers that were left have no handles
    by_cases hex : ∃ fd p, s.pollers.lookup fd = some p ∧ p.poll = i
    · obtain ⟨fd, p, hp, rfl⟩ := hex
      have hnone : p.interest = .none := by
        by_contra hne
        simpa using (hiff fd p hp).mpr hne
      simpa [hnone] using (hi.ok fd p hp).closes
    · exact hi.removed i hlt fun fd p hp heq => hex ⟨fd, p, hp, heq⟩
  · refine ⟨(hi.doomed x (ht ▸ List.mem_cons_of_mem _ hx)).1, ?_⟩
    rintro ⟨fd, p, d, hp, -⟩
    simp at hp

/-- `closeAll` has come to a descriptor whose handles a finalizer has removed. -/
theorem Inv.skipped (hi : Inv s) {fds : List Fd} {todo : List Action}
    (ht : s.todo = .destroyAll (fd :: fds) :: todo) (hl : s.pollers.lookup fd = none) :
    Inv { s with todo := .destroyAll fds :: todo } := by
  obtain ⟨hclosed, htodo, hnodup, hiff⟩ := hi.visiting ht
  have hv : State.visits { s with todo := .destroyAll fds :: todo } = [fds] := by
    simp [State.visits, Action.visits, htodo]
  refine ⟨fun fd p hp => (hi.ok fd p hp).mono rfl rfl le_rfl (hi.ok fd p hp).slot, hi.live,
    hi.removed, hi.registered, hi.ready, fun x hx => hi.doomed x ?_,
    fun hc => absurd hc (by simp [hclosed]),
    fun _ => .inr ⟨fds, hv, (List.nodup_cons.mp hnodup).2, fun g q hq => ?_⟩⟩
  · rw [ht]
    exact List.mem_cons_of_mem _ ((List.mem_cons.mp hx).resolve_left (by simp))
  · rw [← hiff g q hq, List.mem_cons]
    refine (or_iff_right ?_).symm
    rintro rfl
    have hq : s.pollers.lookup g = some q := hq
    simp [hl] at hq

/-- `closeAll` destroys a poller. -/
theorem Inv.destroyed (hi : Inv s) {fds : List Fd} {todo : List Action}
    (ht : s.todo = .destroyAll (fd :: fds) :: todo) (hl : s.pollers.lookup fd = some p) :
    Inv (({ s with todo := .destroyAll fds :: todo }.setPoller fd
      { p with reader := none, writer := none }).destroy p) := by
  obtain ⟨hclosed, htodo, hnodup, hiff⟩ := hi.visiting ht
  have hp := hi.ok fd p hl
  have hne : p.interest ≠ .none := (hiff fd p hl).mp List.mem_cons_self
  have hpolls : ∀ i, i ≠ p.poll → (({ s with todo := .destroyAll fds :: todo }.setPoller fd
      { p with reader := none, writer := none }).destroy p).polls i = s.polls i := by
    intro i hip
    simp [State.destroy, State.setPoller, State.setPoll, State.push, hip]
  -- the map, with its poller emptied
  have hcases : ∀ g q, (s.pollers.insert fd { p with reader := none, writer := none }).lookup g =
      some q → (g ≠ fd ∧ s.pollers.lookup g = some q) ∨
        (g = fd ∧ q = { p with reader := none, writer := none }) := by
    intro g q hq
    by_cases hg : g = fd
    · subst hg
      exact .inr ⟨rfl, (Option.some.inj ((AList.lookup_insert _).symm.trans hq)).symm⟩
    · exact .inl ⟨hg, (AList.lookup_insert_ne hg).symm.trans hq⟩
  have hempty : ∀ d, Poller.slot { p with reader := none, writer := none } d = none := by
    intro d
    cases d <;> rfl
  refine ⟨fun g q hq => ?_, fun hc => absurd (hclosed.symm.trans hc) (by decide),
    fun i hlt hnot => ?_, fun hc => absurd (hclosed.symm.trans hc) (by decide), hi.ready,
    fun x hx => ?_, fun hc => absurd (hclosed.symm.trans hc) (by decide),
    fun _ => .inr ⟨fds, ?_, (List.nodup_cons.mp hnodup).2, fun g q hq => ?_⟩⟩
  · rcases hcases g q hq with ⟨hg, hq⟩ | ⟨rfl, rfl⟩
    · have hq' := hi.ok g q hq
      have hpoll : q.poll ≠ p.poll := by
        intro heq
        exact hg (hq'.desc.symm.trans (heq ▸ hp.desc))
      exact hq'.mono (by rw [hpolls _ hpoll]) (by rw [hpolls _ hpoll]) le_rfl hq'.slot
    · refine ⟨?_, hp.lt, fun hnone => absurd (Poller.interest_eq_none.mpr hempty) hnone, ?_,
        fun d x hd => ?_⟩
      · simpa [State.destroy, State.setPoller, State.setPoll, State.push] using hp.desc
      · have hcl := hp.closes
        rw [if_neg hne] at hcl
        simp [State.destroy, State.setPoller, State.setPoll, State.push, hcl,
          Poller.interest_eq_none.mpr hempty]
      · simp [hempty] at hd
  · have hip : i ≠ p.poll := by
      rintro rfl
      exact hnot fd _ (AList.lookup_insert _) rfl
    rw [hpolls i hip]
    refine hi.removed i hlt fun g q hq => ?_
    by_cases hg : g = fd
    · obtain rfl : p = q := Option.some.inj (hl.symm.trans (hg ▸ hq))
      exact hip.symm
    · exact hnot g q ((AList.lookup_insert_ne hg).trans hq)
  · -- a handle of this poller is registered nowhere else, any other one was not before
    have hwas : x < s.nextHandle ∧ ∀ g q d, g ≠ fd → s.pollers.lookup g = some q →
        q.slot d ≠ some x := by
      rcases List.mem_append.mp hx with hx | hx
      · obtain ⟨d, hd⟩ := Poller.mem_releases.mp hx
        obtain ⟨hlt, -, hhome⟩ := hp.slot d x hd
        refine ⟨hlt, fun g q d' hg hq hd' => hg ?_⟩
        have hhome' := ((hi.ok g q hq).slot d' x hd').2.2
        exact (congrArg Prod.fst (hhome'.symm.trans hhome))
      · have hx : Action.cancelRelease x ∈ todo := (List.mem_cons.mp hx).resolve_left (by simp)
        obtain ⟨hlt, hnot⟩ := hi.doomed x (ht ▸ List.mem_cons_of_mem _ hx)
        exact ⟨hlt, fun g q d _ hq hd => hnot ⟨g, q, d, hq, hd⟩⟩
    refine ⟨hwas.1, ?_⟩
    rintro ⟨g, q, d, hq, hd⟩
    rcases hcases g q hq with ⟨hg, hq⟩ | ⟨rfl, rfl⟩
    · exact hwas.2 g q d hg hq hd
    · simp [hempty] at hd
  · simp [State.visits, State.destroy, State.push, State.setPoller, State.setPoll, Action.visits,
      htodo]
  · rcases hcases g q hq with ⟨hg, hq⟩ | ⟨rfl, rfl⟩
    · rw [← hiff g q hq, List.mem_cons, or_iff_right hg]
    · exact iff_of_false (List.nodup_cons.mp hnodup).1
        fun hnone => hnone (Poller.interest_eq_none.mpr hempty)

/-- The next action keeps the invariant. -/
theorem Inv.act (hi : Inv s) {a : Action} {todo : List Action} (ht : s.todo = a :: todo) :
    Inv ({ s with todo }.act a) := by
  cases a with
  | release h => exact (hi.pop ht rfl).frame hi.ready
  | cancelRelease h =>
    have hnot := (hi.doomed h (ht ▸ List.mem_cons_self)).2
    exact ((hi.pop ht rfl).cancel hnot).frame hi.ready
  | destroyAll fds =>
    cases fds with
    | nil => exact hi.emptied ht
    | cons fd fds =>
      rw [State.act]
      split
      · exact hi.skipped ht ‹_›
      · exact hi.destroyed ht ‹_›

/-! ## Steps -/

/-- What a call of `add` needs and does. -/
theorem step_add (hstep : machine.step s (.add fd d ok) = some s') :
    s.closed = false ∧ s' = s.add fd d ok := by
  obtain ⟨hc, ⟨⟩⟩ := Option.ite_none_left_eq_some.mp hstep
  exact ⟨by simpa using hc, rfl⟩

/-- When libuv reports events, and what they do. -/
theorem step_event {events : Events} (hstep : machine.step s (.event fd events) = some s') :
    ∃ p, s.pollers.lookup fd = some p ∧ s.closed = false ∧ s' = s.onPoll p events := by
  simp only [machine, step] at hstep
  split at hstep
  · cases hstep
  · obtain ⟨hc, ⟨⟩⟩ := Option.ite_none_right_eq_some.mp hstep
    exact ⟨_, ‹_›, hc.1, rfl⟩

/-- When libuv reports an error, and what it does. -/
theorem step_error (hstep : machine.step s (.error fd ok) = some s') :
    ∃ p, s.pollers.lookup fd = some p ∧ s.closed = false ∧ s' = s.onPollError fd p ok := by
  simp only [machine, step] at hstep
  split at hstep
  · cases hstep
  · obtain ⟨hc, ⟨⟩⟩ := Option.ite_none_right_eq_some.mp hstep
    exact ⟨_, ‹_›, hc.1, rfl⟩

/-- When the loop runs a handle. -/
theorem step_run (hstep : machine.step s .run = some s') :
    ∃ h rest, s.ready = h :: rest ∧ s.closed = false ∧ s' = s.runReady h rest := by
  simp only [machine, step] at hstep
  split at hstep
  · cases hstep
  · obtain ⟨hc, ⟨⟩⟩ := Option.ite_none_left_eq_some.mp hstep
    exact ⟨_, _, ‹_›, by simpa using hc, rfl⟩

/-- What comes next. -/
theorem step_next (hstep : machine.step s .next = some s') :
    ∃ a todo, s.todo = a :: todo ∧ s' = { s with todo }.act a := by
  simp only [machine, step] at hstep
  split at hstep
  · cases hstep
  · obtain ⟨⟩ := hstep
    exact ⟨_, _, ‹_›, rfl⟩

/-- Every step keeps the invariant. -/
theorem Inv.step (hi : Inv s) (hstep : machine.step s l = some s') : Inv s' := by
  cases l with
  | add fd d ok =>
    obtain ⟨hc, rfl⟩ := step_add hstep
    exact hi.add hc fd d ok
  | remove fd d ok =>
    obtain ⟨⟩ := hstep
    exact hi.remove fd d ok
  | event fd events =>
    obtain ⟨p, hl, -, rfl⟩ := step_event hstep
    exact hi.onPoll hl events
  | error fd ok =>
    obtain ⟨p, hl, hc, rfl⟩ := step_error hstep
    exact hi.onPollError hc hl ok
  | run =>
    obtain ⟨h, rest, hr, -, rfl⟩ := step_run hstep
    exact hi.runReady hr
  | close fds =>
    obtain ⟨hc, ⟨⟩⟩ := Option.ite_none_right_eq_some.mp hstep
    exact hi.close hc.1 hc.2
  | next =>
    obtain ⟨a, todo, ht, rfl⟩ := step_next hstep
    exact hi.act ht

theorem Inv.init : Inv machine.init := by
  constructor <;> simp [machine, State.visits]

/-- The invariant holds whatever happens. -/
theorem inv_of_reachable {ok : State → Label → Prop} (h : machine.Reachable ok s) : Inv s :=
  h.invariant Inv.init fun _ _ _ _ hi _ hstep => hi.step hstep

end Zuvloop.Polling
