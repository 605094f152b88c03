import Zuvloop.Reentrant.Calls
import Zuvloop.Sendfile.StandIn
import Zuvloop.Stream.Progress

/-!
# The native path of `sendfile`

`_transport_sendfile_native` of `_sendfile.py` has the kernel write to the socket of a transport,
past its write buffer. Before it does so it installs the stand-in, sets both water marks to zero,
and waits in `drain` unless the buffer is empty. Here the stand-in of `Zuvloop.Sendfile.StandIn` is
put to work on a transport of `Zuvloop.Stream`: it is told what the transport calls, and sees the
flags that the transport has.

What runs up to the first `await` is one step, in which nothing else runs. From then on anything may
happen in any order: flushes, partial writes, completions, further writes, calls of any method of
any transport. Only the protocol and the water marks of this transport are left alone.

## Main definitions

* `Opening`: what `sendfile` calls before its first `await`.
* `Native`, `Native.Step`: a loop, its transports and a call of `sendfile`.

## Main results

* `native_sendfile_ordered`: all that was accepted before `sendfile` is sent before `os.sendfile`.
* `not_native_sendfile_ordered`: but for a vector that is torn.
-/

namespace Zuvloop.Sendfile

open Reentrant

/-! ## The call -/

/-- Python code that `sendfile` calls into: it raises nothing, and a water mark of zero is zero. -/
def calm : Env Stream.sig where
  answers := (Stream.env True).answers
  returns := fun _ c r => r.raised = none ∧ (c = .index → r.value = 0)
  starts := (Stream.env True).starts

/-- `Opening stack ops s s'`: Python code on top of `stack` calls the entry points one after the
other. -/
inductive Opening (stack : List Stream.Callback) :
    List Stream.Op → Stream.State → Stream.State → Prop where
  | nil (s : Stream.State) : Opening stack [] s s
  | cons {op : Stream.Op} {ops : List Stream.Op} {s s₁ s' : Stream.State} :
      Stream.Startable s op → Exec Stream.system calm (Stream.entry op) s () s₁ →
      Opening stack ops s₁ s' → Opening stack (op :: ops) s s'

/-- What `sendfile` calls on the transport: `pause_reading()`, `set_protocol(self)` and
`set_write_buffer_limits(high=0, low=0)`. -/
def opening (t : ℕ) : List Stream.Op :=
  [.pauseReading t, .setProtocol t .plain, .setWriteBufferLimits t true true]

/-- A loop with its transports, and a call of `sendfile` on one of them. -/
structure Native where
  /-- The loop, its transports, and what runs. -/
  loop : Config Stream.sig
  /-- The stand-in, its waiters, and the task of `sendfile`. -/
  standIn : State
  /-- What the transport had accepted when `sendfile` was called. -/
  accepted : Stream.Bytes
  /-- The task has come to `os.sendfile`. -/
  started : Bool

/-- What `sendfile` sees of a transport. -/
def mirror (tr : Stream.Transport) : Transport :=
  ⟨tr.protocolPaused, tr.reading, tr.isClosing, tr.history.contains (.called .connectionLost)⟩

namespace State

variable (s : State)

/-- The stand-in looks at the transport. -/
def sees (tr : Stream.Transport) : State := { s with transport := mirror tr }

/-- A method of the protocol is called. -/
def called : Stream.Method → State
  | .pauseWriting => s.pauseWriting
  | .resumeWriting => s.resumeWriting
  | .connectionLost => s.connectionLost
  | .connectionMade | .dataReceived | .eofReceived | .getBuffer | .bufferUpdated => s

/-- What the stand-in knows when the loop has taken its next step. -/
def notified (t : ℕ) (c : Config Stream.sig) : State :=
  match c.running with
  | some (.yield (.protocol u m) _) => if u = t then s.called m else s
  | _ => s

end State

namespace Native

variable (n : Native) (t : ℕ)

/-- The transport. -/
def transport : Stream.Transport := n.loop.state.tr t

/-- The task is in `drain`. -/
def Waits : Prop := ∃ f, n.standIn.task = .draining f

/-- `_transport_sendfile_native` up to its first `await`, or to `os.sendfile`. The calls on the
transport lead from `s` to `s'`. -/
def begin (s s' : Stream.State)
    (stack : List (Stream.Callback × (Stream.Result → Stream.P Unit))) : Native :=
  let standIn := (n.standIn.sees (s.tr t)).install
  -- `set_write_buffer_limits` may have called `pause_writing`
  let standIn :=
    if (s'.tr t).protocolPaused = (s.tr t).protocolPaused then standIn else standIn.pauseWriting
  let standIn := standIn.sees (s'.tr t)
  let standIn := if 0 < (s'.tr t).bufferedBytes then standIn.drain else standIn
  { loop := ⟨s', none, stack⟩, standIn, accepted := (s.tr t).accepted
    started := standIn.task = .running }

/-- The task goes on once its waiter is done. -/
def wake (f : ℕ) : Native :=
  let standIn := (n.standIn.sees (n.transport t)).wake f
  { n with standIn, started := standIn.task = .running }

end Native

/-- A step leaves the protocol and the low-water mark of the transport alone. -/
def Undisturbed (t : ℕ) (c c' : Config Stream.sig) (l : Reentrant.Label Stream.sig) : Prop :=
  (∀ p, l ≠ .start (.setProtocol t p)) ∧ (c'.state.tr t).lowWater = (c.state.tr t).lowWater

namespace Native

/-- What can happen next. -/
inductive Step (t : ℕ) (n : Native) : Native → Prop where
  /-- The loop, the transports and everything else go on. -/
  | loop {c : Config Stream.sig} (l : Reentrant.Label Stream.sig) :
      (Stream.env True).Allows n.loop l → Stream.system.step l n.loop = some c →
      (n.Waits → Undisturbed t n.loop c l) →
      Step t n { n with loop := c, standIn := n.standIn.notified t n.loop }
  /-- `sendfile` is called, on a transport that is not closing. -/
  | sendfile {s s' : Stream.State}
      {stack : List (Stream.Callback × (Stream.Result → Stream.P Unit))} :
      n.loop = ⟨s, none, stack⟩ → n.standIn.task = .idle → (s.tr t).isClosing = false →
      Opening (stack.map Prod.fst) (opening t) s s' → Step t n (n.begin t s s' stack)
  /-- The task is cancelled. -/
  | cancel {f : ℕ} : n.loop.running = none → n.standIn.task = .draining f →
      Step t n { n with standIn := n.standIn.cancel f }
  /-- The task runs after its waiter is done. -/
  | wake {f : ℕ} : n.loop.running = none → n.standIn.task = .draining f →
      n.standIn.future f ≠ .pending → Step t n (n.wake t f)

/-- A new loop, before the call. -/
def init : Native := ⟨Stream.system.initial, machine.init, [], false⟩

/-- What the steps lead to. -/
inductive Reachable (t : ℕ) : Native → Prop where
  | init : Reachable t init
  | step {n n' : Native} : Reachable t n → Step t n n' → Reachable t n'

end Native

/-! ## The calls on the transport -/

variable {t : ℕ} {s s' : Stream.State}

/-- A run with calm Python code is a run. -/
theorem Opening.reachable {ops : List Stream.Op}
    {stack : List (Stream.Callback × (Stream.Result → Stream.P Unit))}
    (h : Opening (stack.map Prod.fst) ops s s')
    (hr : Stream.system.Reachable (Stream.env True) ⟨s, none, stack⟩) :
    Stream.system.Reachable (Stream.env True) ⟨s', none, stack⟩ := by
  induction h with
  | nil s => exact hr
  | @cons op ops s s₁ s' hstart hexec _ ih =>
    have hrun : Exec Stream.system (Stream.env True) (Stream.entry op) s () s₁ := by
      refine Exec.mono (fun s q a h => ?_) (fun _ _ _ _ => ?_) hexec
      · exact h
      · trivial
    exact ih (hrun.entry_reachable hr hstart)

/-- Programs that `sendfile` calls while it looks at the transport. -/
abbrev Follows (R : Stream.Transport → Stream.Transport → Prop) (t : ℕ) {α : Type}
    (p : Stream.P α) : Prop :=
  p.Follows Stream.system calm (fun _ => []) fun s s' => R (s.tr t) (s'.tr t)

/-- A run of an entry point is a run of what it does. -/
theorem follows_entry {op : Stream.Op} {R : Stream.Transport → Stream.Transport → Prop}
    (hexec : Exec Stream.system calm (Stream.entry op) s () s')
    (hfinish : Stream.finish op = Stream.update Stream.State.leave)
    (h : Follows R t (Stream.run op)) : R (s.tr t) (s'.tr t) := by
  refine hexec.after (Q := fun _ (s' : Stream.State) => R (s.tr t) (s'.tr t)) ?_
  refine (Prog.after_bind _ _ _ _).mpr ?_
  refine (Prog.after_bind (Stream.run op) _ _ _).mpr (Prog.after_mono (h s.enter) fun _ s₁ h₁ => ?_)
  rw [hfinish]
  exact h₁

/-- Nothing is accepted, and the protocol is as paused as it was. -/
structure Keeps (tr tr' : Stream.Transport) : Prop where
  /-- The bytes accepted. -/
  accepted : tr'.accepted = tr.accepted
  /-- The pause. -/
  paused : tr'.protocolPaused = tr.protocolPaused

theorem Keeps.trans {tr₁ tr₂ tr₃ : Stream.Transport} (h : Keeps tr₁ tr₂) (h' : Keeps tr₂ tr₃) :
    Keeps tr₁ tr₃ := ⟨h'.accepted.trans h.accepted, h'.paused.trans h.paused⟩

theorem Keeps.act {a : Stream.Act} (ha : ∀ tr, Keeps tr (a.run tr)) :
    Follows Keeps t (Stream.act t a) := fun s => by
  change Keeps (s.tr t) ((s.act t a).tr t)
  rw [Stream.State.tr_act_self]
  exact ha _

theorem keeps_pauseReading : Follows Keeps t (Stream.pauseReading t) := by
  have hbind {α β : Type} {p : Stream.P α} {f : α → Stream.P β} (hp : Follows Keeps t p)
      (hf : ∀ a, Follows Keeps t (f a)) : Follows Keeps t (p >>= f) :=
    Prog.Follows.bind (fun _ _ _ h h' => h.trans h') hp hf
  have hpure : Follows Keeps t (pure ()) := fun _ => ⟨rfl, rfl⟩
  have hpaused (tr : Stream.Transport) (early : Bool) : Follows Keeps t
      (if !tr.allocatingReadBuffer then Stream.act t (.readingPaused early) else pure ()) :=
    Prog.Follows.ite (Keeps.act fun _ => ⟨rfl, rfl⟩) hpure
  have hread (s₀ : Stream.State) : Follows Keeps t (Stream.self t) := fun _ => ⟨rfl, rfl⟩
  refine hbind (fun _ => ⟨rfl, rfl⟩) fun s₀ => hbind (hread s₀) fun tr => Prog.Follows.ite
    (Prog.Follows.ite (hbind (Keeps.act fun _ => ⟨rfl, rfl⟩) fun _ => hpaused tr _)
      (hbind (Keeps.act fun _ => ⟨rfl, rfl⟩) fun _ => hpaused tr _)) (hpaused tr _)

/-- Both water marks are zero, and if anything is buffered the protocol is paused. -/
structure Limited (tr tr' : Stream.Transport) : Prop where
  /-- Nothing is accepted. -/
  accepted : tr'.accepted = tr.accepted
  /-- The low-water mark. -/
  lowWater : tr'.lowWater = 0
  /-- Whoever was paused is paused. -/
  paused : tr.protocolPaused = true → tr'.protocolPaused = true
  /-- And so is whoever has bytes waiting. -/
  above : 0 < tr'.bufferedBytes → tr'.protocolPaused = true

/-- Calm Python code returns at once. -/
theorem after_foreign {c : Stream.Callback} {Q : Stream.Result → Stream.State → Prop}
    (h : ∀ r : Stream.Result, r.raised = none → (c = .index → r.value = 0) → Q r s) :
    (Stream.foreign c).after Stream.system calm (fun _ => []) Q s := by
  intro s₁ hcalls r hr
  rw [hcalls.eq_of_nil]
  exact h r hr.1 hr.2

/-- A water mark of zero. -/
theorem after_waterMark {message : String}
    {Q : Except Stream.Exc (Option ℕ) → Stream.State → Prop} (h : Q (.ok (some 0)) s) :
    (Stream.waterMark true message).after Stream.system calm (fun _ => []) Q s := by
  refine (Prog.after_bind _ _ _ _).mpr (after_foreign fun r hraised hvalue => ?_)
  rw [hraised]
  dsimp only
  rw [hvalue rfl]
  exact h

/-- `pause_writing` of the stand-in calls nothing. -/
theorem after_callProtocol {m : Stream.Method} {Q : Unit → Stream.State → Prop} (h : Q () s) :
    (Stream.callProtocol t m).after Stream.system calm (fun _ => []) Q s := by
  refine (Prog.after_bind _ _ _ _).mpr ((Prog.after_ite _ _ _ _ _).mpr ?_)
  split
  · refine (Prog.after_bind _ _ _ _).mpr (after_foreign fun r hraised _ => ?_)
    rw [hraised]
    exact h
  · exact h

theorem limited_setWriteBufferLimits :
    Follows Limited t (Stream.setWriteBufferLimits t true true) := by
  intro s
  refine (Prog.after_bind _ _ _ _).mpr ((Prog.after_bind _ _ _ _).mpr (after_waterMark ?_))
  refine (Prog.after_bind _ _ _ _).mpr (after_waterMark ?_)
  have hset : ((s.act t (.setLimits 0 0)).tr t) = (Stream.Act.setLimits 0 0).run (s.tr t) :=
    Stream.State.tr_act_self ..
  change ((Stream.maybePauseProtocol t).bind fun _ => Prog.ret (Except.ok ())).after _ _ _ _
    (s.act t (.setLimits 0 0))
  refine (Prog.after_bind_iff _ _ _ _).mpr ((Prog.after_bind _ _ _ _).mpr ?_)
  refine (Prog.after_ite _ _ _ _ _).mpr ?_
  split
  · rename_i hnone
    -- nothing is buffered
    have hlow : ((s.act t (.setLimits 0 0)).tr t).bufferedBytes ≤
        ((s.act t (.setLimits 0 0)).tr t).highWater := hnone
    have hzero : ((s.act t (.setLimits 0 0)).tr t).bufferedBytes = 0 := by
      rw [hset] at hlow ⊢
      exact Nat.le_zero.mp hlow
    refine ⟨?_, ?_, ?_, fun hpos => ?_⟩
    · rw [hset]
      rfl
    · rw [hset]
      rfl
    · rw [hset]
      exact id
    · exact absurd hzero hpos.ne'
  refine (Prog.after_ite _ _ _ _ _).mpr ?_
  split
  · rename_i hpaused
    refine ⟨?_, ?_, fun _ => hpaused, fun _ => hpaused⟩
    · rw [hset]
      rfl
    · rw [hset]
      rfl
  · refine (Prog.after_bind _ _ _ _).mpr (after_callProtocol ?_)
    -- the protocol is paused
    have hpause : ((s.act t (.setLimits 0 0)).act t .pauseWriting).tr t =
        Stream.Act.pauseWriting.run ((Stream.Act.setLimits 0 0).run (s.tr t)) := by
      rw [Stream.State.tr_act_self, hset]
    have hrun := Stream.Transport.recordCall_eq
      { (Stream.Act.setLimits 0 0).run (s.tr t) with protocolPaused := true } .pauseWriting
    refine ⟨?_, ?_, fun _ => ?_, fun _ => ?_⟩
    all_goals rw [hpause, Stream.Act.run, hrun]
    · rfl
    · rfl

theorem Opening.of_cons {stack : List Stream.Callback} {op : Stream.Op} {ops : List Stream.Op}
    (h : Opening stack (op :: ops) s s') :
    ∃ s₁, Exec Stream.system calm (Stream.entry op) s () s₁ ∧ Opening stack ops s₁ s' := by
  cases h with
  | cons _ hexec hrest => exact ⟨_, hexec, hrest⟩

/-- What `sendfile` finds after its calls. -/
theorem limited_of_opening {stack : List Stream.Callback} (h : Opening stack (opening t) s s') :
    Limited (s.tr t) (s'.tr t) := by
  obtain ⟨s₁, hpause, h⟩ := h.of_cons
  obtain ⟨s₂, hbind, h⟩ := h.of_cons
  obtain ⟨s₃, hlimits, h⟩ := h.of_cons
  cases h
  have h₁ : Keeps (s.tr t) (s₁.tr t) := follows_entry hpause rfl keeps_pauseReading
  have h₂ : Keeps (s₁.tr t) (s₂.tr t) :=
    follows_entry hbind rfl (Keeps.act (a := .bindProtocol .plain) fun _ => ⟨rfl, rfl⟩)
  have h₃ : Limited (s₂.tr t) (s'.tr t) := follows_entry hlimits rfl fun s₀ =>
    (Prog.after_map _ _ _ _).mpr (limited_setWriteBufferLimits s₀)
  have hkeeps := h₁.trans h₂
  exact ⟨h₃.accepted.trans hkeeps.accepted, h₃.lowWater,
    fun hp => h₃.paused (hkeeps.paused.trans hp), h₃.above⟩

/-! ## The stand-in -/

variable {n n' : Native} {f : ℕ}

/-- A waiter that is done otherwise is not finished. -/
theorem State.finished_of_set {s : State} {g f : ℕ} {x : Fut} (hx : x ≠ .finished)
    (hf : (s.futures.set g x).getD f .pending = .finished) : s.future f = .finished := by
  rw [List.getD_eq_getElem?_getD, List.getElem?_set] at hf
  rw [State.future, List.getD_eq_getElem?_getD]
  split at hf
  · split at hf
    · exact absurd hf hx
    · cases hf
  · exact hf

/-- A callback leaves the task alone, and of the waiters only `resume_writing` finishes one. -/
theorem State.called_spec (s : State) (m : Stream.Method) :
    (s.called m).task = s.task ∧ s.futures.length ≤ (s.called m).futures.length ∧
      ∀ f < s.futures.length, (s.called m).future f = .finished →
        s.future f = .finished ∨ m = .resumeWriting := by
  cases m with
  | pauseWriting =>
    have hspec : s.pauseWriting.task = s.task ∧
        (s.pauseWriting.futures = s.futures ∨
          s.pauseWriting.futures = s.futures ++ [.pending]) := by
      rw [State.pauseWriting]
      split
      · exact ⟨rfl, .inl rfl⟩
      · split
        · exact ⟨rfl, .inr rfl⟩
        · exact ⟨rfl, .inl rfl⟩
    obtain ⟨htask, hsame | hmore⟩ := hspec
    · refine ⟨htask, hsame ▸ le_rfl, fun f _ hf => .inl ?_⟩
      rw [State.future, ← hsame]
      exact hf
    · refine ⟨htask, ?_, fun f hlt hf => .inl ?_⟩
      · change _ ≤ s.pauseWriting.futures.length
        rw [hmore, List.length_append]
        exact Nat.le_add_right _ _
      · change s.pauseWriting.futures.getD f .pending = _ at hf
        rwa [hmore, List.getD_append _ _ _ _ hlt] at hf
  | resumeWriting =>
    refine ⟨?_, ?_, fun _ _ _ => .inr rfl⟩
    · change s.resumeWriting.task = s.task
      rw [State.resumeWriting]
      split
      · rfl
      · split
        · rfl
        · split <;> rfl
    · change s.futures.length ≤ s.resumeWriting.futures.length
      rw [State.resumeWriting]
      split
      · exact le_rfl
      · split
        · exact le_rfl
        · split
          · exact (List.length_set ..).ge
          · exact le_rfl
  | connectionLost =>
    have hspec : s.connectionLost.task = s.task ∧ (s.connectionLost.futures = s.futures ∨
        ∃ g, s.connectionLost.futures = s.futures.set g .failed) := by
      rw [State.connectionLost]
      dsimp only
      split
      · split
        · exact ⟨rfl, .inr ⟨_, rfl⟩⟩
        · exact ⟨rfl, .inl rfl⟩
      · exact ⟨rfl, .inl rfl⟩
    obtain ⟨htask, hsame | ⟨g, hfailed⟩⟩ := hspec
    · refine ⟨htask, hsame ▸ le_rfl, fun f _ hf => .inl ?_⟩
      rw [State.future, ← hsame]
      exact hf
    · refine ⟨htask, ?_, fun f hlt hf => .inl ?_⟩
      · change _ ≤ s.connectionLost.futures.length
        rw [hfailed, List.length_set]
      · change s.connectionLost.futures.getD f .pending = _ at hf
        rw [hfailed] at hf
        exact State.finished_of_set (by decide) hf
  | connectionMade | dataReceived | eofReceived | getBuffer | bufferUpdated =>
    exact ⟨rfl, le_rfl, fun _ _ hf => .inl hf⟩

/-- The same of the next step of the loop: a waiter is finished when the transport calls
`resume_writing`. -/
theorem State.notified_spec (s : State) (t : ℕ) (c : Config Stream.sig) :
    (s.notified t c).task = s.task ∧ s.futures.length ≤ (s.notified t c).futures.length ∧
      ∀ f < s.futures.length, (s.notified t c).future f = .finished →
        s.future f = .finished ∨
          ∃ k, c.running = some (.yield (.protocol t .resumeWriting) k) := by
  rw [State.notified]
  split
  · rename_i u m k hrunning
    split
    · rename_i hu
      obtain ⟨htask, hlen, hfuture⟩ := s.called_spec m
      refine ⟨htask, hlen, fun f hlt hf => (hfuture f hlt hf).imp_right fun hm => ⟨k, ?_⟩⟩
      rw [hrunning, hu, hm]
    · exact ⟨rfl, le_rfl, fun _ _ hf => .inl hf⟩
  · exact ⟨rfl, le_rfl, fun _ _ hf => .inl hf⟩

/-- The stand-in has a waiter that is not done. -/
def State.Pending (s : State) (f : ℕ) : Prop :=
  s.standIn.bind StandIn.waiter = some f ∧ f < s.futures.length ∧ s.future f = .pending

/-- The waiter of a protocol that is paused when the stand-in is installed. -/
theorem State.pending_install {s : State} (hpaused : s.transport.paused = true) :
    s.install.Pending s.futures.length := by
  rw [State.Pending, State.future, State.install]
  simp [hpaused]

/-- The waiter of a protocol that is paused afterwards. -/
theorem State.pending_pauseWriting {s : State} {p : StandIn} (hs : s.standIn = some p)
    (hnone : p.waiter = none) : s.pauseWriting.Pending s.futures.length := by
  rw [State.Pending, State.future, State.pauseWriting, hs]
  simp [hnone]

/-- `drain` waits for it. -/
theorem State.Pending.drain {s : State} {f : ℕ} (h : s.Pending f)
    (hopen : s.transport.closing = false) : s.drain = { s with task := .draining f } := by
  obtain ⟨hwaiter, -, hpending⟩ := h
  rw [State.drain, if_neg (by simp [hopen]), hwaiter]
  simp only [hpending]

/-! ## The invariant -/

namespace Native

/-- Everything that was accepted before the call has been sent, unless a vector was torn. -/
def Ordered (t : ℕ) (n : Native) : Prop :=
  (n.transport t).isClosing = false → (n.transport t).failed = false →
    (n.transport t).torn = false → n.accepted <+: (n.transport t).sent

/-- What holds while the task waits. -/
structure Waiting (t : ℕ) (n : Native) (f : ℕ) : Prop where
  /-- The waiter exists. -/
  waiter : f < n.standIn.futures.length
  /-- The low-water mark is zero. -/
  lowWater : (n.transport t).lowWater = 0
  /-- What was accepted stays so. -/
  accepted : n.accepted <+: (n.transport t).accepted
  /-- The waiter is finished only once everything has been sent. -/
  finished : n.standIn.future f = .finished → n.Ordered t

/-- What holds in every state. -/
structure Inv (t : ℕ) (n : Native) : Prop where
  /-- The loop is one that its steps lead to. -/
  loop : Stream.system.Reachable (Stream.env True) n.loop
  /-- The task waits. -/
  waiting : ∀ f, n.standIn.task = .draining f → Waiting t n f

/-- What has been sent stays sent. -/
theorem Ordered.beyond (h : n.Ordered t) (haccepted : n'.accepted = n.accepted)
    (hbeyond : (n.transport t).Beyond (n'.transport t)) : n'.Ordered t := by
  intro hopen hfailed htorn
  rw [haccepted]
  have hsent := h (hbeyond.isClosing hopen) (hbeyond.taken hfailed).1 (hbeyond.torn htorn)
  exact hsent.trans (hbeyond.sent hfailed)

/-- The loop goes on. -/
theorem Inv.next (h : Inv t n) {c : Config Stream.sig} {l : Reentrant.Label Stream.sig}
    (hallowed : (Stream.env True).Allows n.loop l) (hstep : Stream.system.step l n.loop = some c)
    (hundisturbed : n.Waits → Undisturbed t n.loop c l) :
    Inv t { n with loop := c, standIn := n.standIn.notified t n.loop } := by
  have hreach := h.loop.step hallowed hstep
  obtain ⟨htask, hlen, hfuture⟩ := n.standIn.notified_spec t n.loop
  refine ⟨hreach, fun f hf => ?_⟩
  have hwait : n.standIn.task = .draining f := htask.symm.trans hf
  have hw := h.waiting f hwait
  have hbeyond := Stream.beyond h.loop hstep t
  have haccepted : n.accepted <+: (c.state.tr t).accepted := hw.accepted.trans hbeyond.accepted
  have hlow : (c.state.tr t).lowWater = 0 := (hundisturbed ⟨f, hwait⟩).2.trans hw.lowWater
  refine ⟨hw.waiter.trans_le hlen, hlow, haccepted, fun hfin => ?_⟩
  rcases hfuture f hw.waiter hfin with hbefore | ⟨k, hcalled⟩
  · exact (hw.finished hbefore).beyond rfl hbeyond
  · intro hopen _ htorn
    -- `resume_writing` is called, and nothing is waiting
    obtain ⟨⟨s, running, stack⟩, standIn, accepted, started⟩ := n
    obtain rfl : running = _ := hcalled
    obtain rfl : l = .tau := by
      cases l with
      | tau => rfl
      | _ => cases hstep
    cases hstep
    have hempty : (s.tr t).bufferedBytes = 0 := by
      have hlow' := (Stream.resumed h.loop).2
      rw [show (s.tr t).lowWater = 0 from hlow] at hlow'
      exact Nat.le_zero.mp hlow'
    change accepted <+: (s.tr t).sent
    rw [Stream.sent_of_empty hreach hopen hempty htorn]
    exact haccepted

/-- The stand-in after the calls of `sendfile`, before `drain`: if the protocol is paused, it has a
waiter. -/
theorem pending_begin (tr : Stream.Transport) {tr' : Stream.Transport} (σ : State)
    (hpaused : tr'.protocolPaused = true) :
    ∃ f, (if tr'.protocolPaused = tr.protocolPaused then (σ.sees tr).install
      else (σ.sees tr).install.pauseWriting).Pending f := by
  cases hbefore : tr.protocolPaused with
  | true =>
    rw [if_pos hpaused]
    exact ⟨_, State.pending_install hbefore⟩
  | false =>
    rw [if_neg (by simp [hpaused])]
    refine ⟨_, State.pending_pauseWriting (p := ⟨tr.reading, false, none⟩) ?_ rfl⟩
    simp [State.install, State.sees, mirror, hbefore]

/-- If the task waits, then for a waiter that is not done; and it goes on to `os.sendfile` at once
only if nothing is buffered. -/
theorem begin_spec {s s' : Stream.State}
    {stack : List (Stream.Callback × (Stream.Result → Stream.P Unit))}
    (hlimited : Limited (s.tr t) (s'.tr t)) :
    (∀ f, (n.begin t s s' stack).standIn.task = .draining f →
      f < (n.begin t s s' stack).standIn.futures.length ∧
        (n.begin t s s' stack).standIn.future f = .pending) ∧
    ((n.begin t s s' stack).started = true → (s'.tr t).isClosing = false →
      (s'.tr t).bufferedBytes = 0) := by
  have htask : (if (s'.tr t).protocolPaused = (s.tr t).protocolPaused
      then (n.standIn.sees (s.tr t)).install
      else (n.standIn.sees (s.tr t)).install.pauseWriting).task = .running := by
    split
    · rfl
    · exact (State.called_spec _ .pauseWriting).1
  have hpending (hpaused : (s'.tr t).protocolPaused = true) :=
    pending_begin (s.tr t) n.standIn hpaused
  rw [Native.begin]
  dsimp only
  generalize (if (s'.tr t).protocolPaused = (s.tr t).protocolPaused
      then (n.standIn.sees (s.tr t)).install
      else (n.standIn.sees (s.tr t)).install.pauseWriting) = σ at htask hpending
  by_cases hpos : 0 < (s'.tr t).bufferedBytes
  · obtain ⟨f, hf⟩ := hpending (hlimited.above hpos)
    rw [if_pos hpos]
    have hf' : (σ.sees (s'.tr t)).Pending f := hf
    cases hclosing : (s'.tr t).isClosing with
    | false =>
      rw [hf'.drain hclosing]
      refine ⟨fun g hg => ?_, fun hstarted => ?_⟩
      · cases hg
        exact hf.2
      · cases of_decide_eq_true hstarted
    | true =>
      have hdrain : (σ.sees (s'.tr t)).drain = { σ.sees (s'.tr t) with task := .unwinding } :=
        if_pos hclosing
      rw [hdrain]
      refine ⟨fun g hg => ?_, fun _ hopen => ?_⟩
      · cases hg
      · cases hopen
  · rw [if_neg hpos]
    refine ⟨fun g hg => ?_, fun _ _ => Nat.eq_zero_of_not_pos hpos⟩
    change σ.task = _ at hg
    rw [htask] at hg
    cases hg

/-- Every step keeps the invariant. -/
theorem Inv.step (h : Inv t n) (hstep : Step t n n') : Inv t n' := by
  cases hstep with
  | loop l hallowed hstep hundisturbed => exact h.next hallowed hstep hundisturbed
  | @sendfile s s' stack hloop hidle hopen hopening =>
    have hreach : Stream.system.Reachable (Stream.env True) ⟨s, none, stack⟩ := hloop ▸ h.loop
    have hlimited := limited_of_opening hopening
    refine ⟨hopening.reachable hreach, fun f hf => ?_⟩
    obtain ⟨hlt, hpending⟩ := (begin_spec hlimited).1 f hf
    refine ⟨hlt, hlimited.lowWater, ?_, fun hfin => ?_⟩
    · exact hlimited.accepted ▸ List.prefix_rfl
    · rw [hpending] at hfin
      cases hfin
  | @cancel f hrunning hwait =>
    have hcancel : (n.standIn.cancel f).task = n.standIn.task ∧
        (n.standIn.cancel f).futures.length = n.standIn.futures.length ∧
        ∀ g, (n.standIn.cancel f).future g = .finished → n.standIn.future g = .finished := by
      rw [State.cancel]
      split
      · exact ⟨rfl, List.length_set .., fun g hg => State.finished_of_set (by decide) hg⟩
      · exact ⟨rfl, rfl, fun g hg => hg⟩
    refine ⟨h.loop, fun g hg => ?_⟩
    have hw := h.waiting g (hcancel.1.symm.trans hg)
    exact ⟨hcancel.2.1 ▸ hw.waiter, hw.lowWater, hw.accepted,
      fun hfin => hw.finished (hcancel.2.2 g hfin)⟩
  | @wake f hrunning hwait hdone =>
    refine ⟨h.loop, fun g hg => ?_⟩
    change ((n.standIn.sees _).wake f).task = _ at hg
    rw [State.wake] at hg
    split at hg <;> cases hg

theorem inv_of_reachable (h : Reachable t n) : Inv t n := by
  induction h with
  | init => exact ⟨.initial, fun f hf => by cases hf⟩
  | step _ hstep ih => exact ih.step hstep

end Native

/-! ## Order -/

/-- When `sendfile` comes to `os.sendfile` on a transport that is open, whatever the state of the
transport was at the call and whatever happened since, the socket has taken every byte that was
accepted before the call, unless a vector was torn. -/
theorem native_sendfile_ordered (h : Native.Reachable t n) (hstep : Native.Step t n n')
    (hbefore : n.started = false) (hstarted : n'.started = true)
    (hopen : (n'.transport t).isClosing = false) (htorn : (n'.transport t).torn = false) :
    n'.accepted <+: (n'.transport t).sent := by
  have hinv := Native.inv_of_reachable h
  have hinv' := hinv.step hstep
  cases hstep with
  | loop | cancel => exact absurd (hbefore.symm.trans hstarted) Bool.false_ne_true
  | @sendfile s s' stack hloop hidle hopen₀ hopening =>
    have hlimited := limited_of_opening hopening
    have hempty := (Native.begin_spec hlimited).2 hstarted hopen
    have heq : (s.tr t).accepted = (s'.tr t).sent := by
      rw [Stream.sent_of_empty hinv'.loop hopen hempty htorn, hlimited.accepted]
    exact heq ▸ List.prefix_rfl
  | @wake f hrunning hwait hdone =>
    obtain ⟨⟨s, running, stack⟩, standIn, accepted, started⟩ := n
    obtain rfl : running = none := hrunning
    -- a task that goes on was woken by a waiter that is finished
    have hfinished : standIn.future f = .finished := by
      by_contra hnot
      have hwake : ((standIn.sees (s.tr t)).wake f).task = .running := of_decide_eq_true hstarted
      rw [State.wake, if_neg fun hf => hnot hf.1] at hwake
      cases hwake
    have hclosing : (s.tr t).closing = false := (Bool.or_eq_false_iff.mp hopen).1
    have hfailed : (s.tr t).failed = false := by
      rw [← Bool.not_eq_true] at hclosing ⊢
      exact fun hfailed => hclosing (Stream.closing_of_failed hinv.loop hfailed)
    exact (hinv.waiting f hwait).finished hfinished hopen hfailed htorn

/-! ## Concrete runs -/

instance (s : Stream.State) (q : Stream.Request) (a : Stream.Answer) :
    Decidable (calm.answers s q a) := inferInstanceAs (Decidable ((Stream.env True).answers s q a))

instance (s : Stream.State) (c : Stream.Callback) (r : Stream.Result) :
    Decidable (calm.returns s c r) :=
  inferInstanceAs (Decidable (r.raised = none ∧ (c = .index → r.value = 0)))

/-- Make the calls, one after the other. -/
def callAll : List Stream.Op → Stream.State → Option Stream.State
  | [], s => some s
  | op :: ops, s =>
    if Stream.Startable s op then
      match (Stream.entry op).follow calm (fun _ s w => some (s, w)) s
          ([], List.replicate 3 ⟨none, [], true, 0⟩) with
      | some (_, s₁, _) => callAll ops s₁
      | none => none
    else none

theorem opening_of_callAll {stack : List Stream.Callback} {ops : List Stream.Op}
    (h : callAll ops s = some s') : Opening stack ops s s' := by
  induction ops generalizing s with
  | nil =>
    cases h
    exact .nil _
  | cons op ops ih =>
    rw [callAll] at h
    split at h
    · rename_i hstart
      split at h
      · rename_i s₁ w heq
        have hquiet : ExecCalling Stream.system calm (fun _ => []) _ _ _ _ :=
          Prog.execCalling_of_follow (fun c s w s₁ w₁ hsome => by cases hsome; exact .nil s) heq
        exact .cons hstart hquiet.exec (ih h)
      · cases h
    · cases h

/-- The step binds a protocol. -/
def binds : Reentrant.Label Stream.sig → Bool
  | .start (.setProtocol _ _) => true
  | _ => false

namespace Native

/-- The loop takes a step, which binds no protocol and leaves the low-water mark alone. -/
def next (t : ℕ) (l : Reentrant.Label Stream.sig) (n : Native) : Option Native :=
  match Stream.system.step l n.loop with
  | some c =>
    if (c.state.tr t).lowWater = (n.loop.state.tr t).lowWater ∧ binds l = false then
      some { n with loop := c, standIn := n.standIn.notified t n.loop }
    else none
  | none => none

/-- The loop takes up to `fuel` steps of its own. -/
def advance (t : ℕ) : ℕ → Native → Native
  | 0, n => n
  | fuel + 1, n =>
    match next t .tau n with
    | some n' => advance t fuel n'
    | none => n

/-- The loop takes the given steps in turn, each followed by steps of its own. -/
def play (t fuel : ℕ) : List (Reentrant.Label Stream.sig) → Native → Option Native
  | [], n => some n
  | l :: ls, n =>
    if (Stream.env True).Allows n.loop l then
      (next t l n).bind fun n' => play t fuel ls (advance t fuel n')
    else none

theorem Reachable.next {l : Reentrant.Label Stream.sig} (h : Reachable t n)
    (hallowed : (Stream.env True).Allows n.loop l) (hnext : Native.next t l n = some n') :
    Reachable t n' := by
  rw [Native.next] at hnext
  split at hnext
  · rename_i c hstep
    obtain ⟨⟨hlow, hbinds⟩, ⟨⟩⟩ := Option.ite_none_right_eq_some.mp hnext
    refine h.step (.loop l hallowed hstep fun _ => ⟨?_, hlow⟩)
    rintro p rfl
    cases hbinds
  · cases hnext

theorem Reachable.advance {fuel : ℕ} (h : Reachable t n) :
    Reachable t (Native.advance t fuel n) := by
  induction fuel generalizing n with
  | zero => exact h
  | succ fuel ih =>
    rw [Native.advance]
    split
    · rename_i n' hnext
      exact ih (h.next (l := .tau) trivial hnext)
    · exact h

/-- A run that goes through ends in a reachable state. -/
theorem Reachable.play {fuel : ℕ} {ls : List (Reentrant.Label Stream.sig)} (h : Reachable t n)
    (hplay : Native.play t fuel ls n = some n') : Reachable t n' := by
  induction ls generalizing n with
  | nil =>
    obtain rfl := Option.some.inj hplay
    exact h
  | cons l ls ih =>
    rw [Native.play] at hplay
    split at hplay
    · rename_i hallowed
      obtain ⟨n₁, hnext, hrest⟩ := Option.bind_eq_some_iff.mp hplay
      exact ih (h.next hallowed hnext).advance hrest
    · cases hplay

/-- `sendfile` is called. -/
def call (t : ℕ) (n : Native) : Option Native :=
  match n.loop with
  | ⟨s, none, stack⟩ =>
    if n.standIn.task = .idle ∧ (s.tr t).isClosing = false then
      (callAll (opening t) s).map fun s' => n.begin t s s' stack
    else none
  | _ => none

theorem step_of_call (h : n.call t = some n') : Step t n n' := by
  rw [call] at h
  split at h
  · rename_i s stack hloop
    obtain ⟨⟨hidle, hopen⟩, hcall⟩ := Option.ite_none_right_eq_some.mp h
    obtain ⟨s', hcallAll, rfl⟩ := Option.map_eq_some_iff.mp hcall
    exact .sendfile hloop hidle hopen (opening_of_callAll hcallAll)
  · cases h

end Native

/-- A transport is made, and a callback is run in a loop that runs. -/
def inCallback : List (Reentrant.Label Stream.sig) :=
  Stream.opening .plain ++ [.start .runBegin, .start .onOther]

/-- Two bytes wait for the end of the iteration. The socket takes one and libuv queues the other,
and `sendfile` goes on when that one is taken too. -/
theorem native_sendfile_ordered_drained : ∃ n n' : Native, Native.Step 0 n n' ∧
    n.started = false ∧ n'.started = true ∧ n'.accepted = [1, 2] ∧
      (n'.transport 0).sent = [1, 2] ∧ n'.accepted <+: (n'.transport 0).sent := by
  obtain ⟨n₀, n₁, n₂, hplay, hcall, hrest, hrunning, hwait, hdone, hstarted, hstarted', hopen,
      htorn, haccepted, hsent⟩ : ∃ n₀ n₁ n₂ : Native,
      Native.play 0 60 (inCallback ++ [.start (.write 0), Stream.exported [1, 2]]) Native.init =
        some n₀ ∧
      n₀.call 0 = some n₁ ∧
      Native.play 0 60 [Stream.returned, .start .prepare, Stream.status 1, Stream.yes,
        .answer ⟨true, 0, 1⟩, Stream.returned, .start .poll, .start (.onWritten 0 0 0),
        Stream.returned, .start .onOther] n₁ = some n₂ ∧
      n₂.loop.running = none ∧ n₂.standIn.task = .draining 0 ∧ n₂.standIn.future 0 ≠ .pending ∧
      n₂.started = false ∧ (n₂.wake 0 0).started = true ∧
      ((n₂.wake 0 0).transport 0).isClosing = false ∧
      ((n₂.wake 0 0).transport 0).torn = false ∧ (n₂.wake 0 0).accepted = [1, 2] ∧
      ((n₂.wake 0 0).transport 0).sent = [1, 2] :=
    ⟨_, _, _, rfl, rfl, rfl, rfl, rfl, by decide, rfl, rfl, rfl, rfl, rfl, rfl⟩
  have hreach : Native.Reachable 0 n₂ := by
    have h₀ : Native.Reachable 0 n₀ := Native.Reachable.init.play hplay
    exact (h₀.step (Native.step_of_call hcall)).play hrest
  have hstep : Native.Step 0 n₂ (n₂.wake 0 0) := .wake hrunning hwait hdone
  exact ⟨n₂, n₂.wake 0 0, hstep, hstarted, hstarted', haccepted, hsent,
    native_sendfile_ordered hreach hstep hstarted hstarted' hopen htorn⟩

/-- Five buffers go straight to the socket, which takes three of them, and there is no memory to
queue the rest: `sendfile` goes on at once. -/
theorem not_native_sendfile_ordered : ¬ ∀ n n' : Native, Native.Reachable 0 n →
    Native.Step 0 n n' → n.started = false → n'.started = true →
      (n'.transport 0).isClosing = false → n'.accepted <+: (n'.transport 0).sent := by
  intro h
  obtain ⟨n, n', hplay, hcall, hbefore, hstarted, hopen, haccepted, hsent⟩ : ∃ n n' : Native,
      Native.play 0 60 (inCallback ++ [.start (.writelines 0), Stream.counted 5, Stream.yes,
        Stream.exported [1], Stream.exported [2], Stream.exported [3], Stream.exported [4],
        Stream.exported [5], Stream.status 3, .answer ⟨false, 0, 0⟩]) Native.init = some n ∧
      n.call 0 = some n' ∧ n.started = false ∧ n'.started = true ∧
      (n'.transport 0).isClosing = false ∧ n'.accepted = [1, 2, 3, 4, 5] ∧
      (n'.transport 0).sent = [1, 2, 3] := ⟨_, _, rfl, rfl, rfl, rfl, rfl, rfl, rfl⟩
  have hreach : Native.Reachable 0 n := Native.Reachable.init.play hplay
  have hpre := h n n' hreach (Native.step_of_call hcall) hbefore hstarted hopen
  rw [haccepted, hsent] at hpre
  exact absurd hpre (by decide)

end Zuvloop.Sendfile
