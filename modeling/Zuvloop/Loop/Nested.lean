import Zuvloop.Loop.Wakeup
import Zuvloop.Reentrant.Confined

/-!
# What runs while a callback is suspended

While a callback, a finalizer or a protocol method runs, Python code may call every scheduling
function of the loop, but libuv calls nothing. What these functions change is `Touch`: among other
things they only append to the ready queue, and while the loop runs they never take back that it
has been asked to stop. `Frame` is what follows for everything that happens meanwhile.

Nothing here depends on allocations: they may fail.

## Main definitions

* `Touch`, `Work`, `InBatch`, `Turn`: the changes that scheduling, running a callback, running a
  batch, and all functions of the loop make.
* `Makes`: a program makes only given changes.
* `Persists`, `Onward`, `Frame`: what is left in place while a batch runs, while a callback runs,
  and while a callback is suspended.

## Main results

* `frame_of_interlude`, `frame_of_run`: everything Python code does while a callback is suspended is
  in `Frame`, and so is every scheduling function that libuv calls.
* `idleActive_eq`: the cached flag of the idle handle is right whenever Python code runs.
-/

namespace Zuvloop.Loop

open Reentrant

variable {T : Type} [LinearOrder T]

/-! ## Changes -/

/-- A change that scheduling, cancelling or the collection of timers makes to the loop. -/
inductive Touch : State T → State T → Prop where
  | clock (s : State T) (t : T) : Touch s (s.setClock t)
  | handle (s : State T) (h : ℕ) (f : HandleRec T → HandleRec T) : Touch s (s.setHandle h f)
  | create (s : State T) (kind : HandleKind) (when : T) : Touch s (s.create kind when)
  | ready (s : State T) (q : Queue ℕ) : s.ready.toList <+: q.toList → Touch s (s.setReady q)
  | inbox (s : State T) (q : Queue ℕ) : Touch s (s.setInbox q)
  | timers (s : State T) (timers : TimerHeap T ℕ) : Touch s (s.setTimers timers)
  | compact (s : State T) (ok : Bool) : Touch s (s.compactTimers ok).1
  | record (s : State T) (e : Event T) : e.ran? = none → Touch s (s.record e)
  | wake (s : State T) (pending sent dispatched : Bool) :
      Touch s { s with wakerPending := pending, asyncSent := sent, wakeDispatched := dispatched }
  | timer (s : State T) (d : Option T) (active : Bool) :
      Touch s { s with uvTimer := d, timerActive := active }
  | startIdle (s : State T) : Touch s (s.setCore Core.startIdle)
  | captureFatal (s : State T) : Touch s (s.setCore Core.captureFatal)
  | panic (s : State T) : Touch s (s.setCore Core.panic)
  | stop (s : State T) :
      Touch s (s.setCore fun c => { c with stopping := true, uvStop := c.uvStop || !c.closed })
  | begin (s : State T) : s.running = false →
      Touch s (s.setCore fun c => { c with running := true, stopping := false })
  | surroundings (s : State T) (e : Surroundings) : Touch s (e.apply s)
  | trans {s s₁ s' : State T} : Touch s s₁ → Touch s₁ s' → Touch s s'

/-- A change that the run of one callback makes. -/
inductive Work : State T → State T → Prop where
  | touch {s s' : State T} : Touch s s' → Work s s'
  | ran (s : State T) (h : ℕ) : Work s (s.record (.ran h))

/-- A change that a batch of callbacks makes. -/
inductive InBatch : State T → State T → Prop where
  | work {s s' : State T} : Work s s' → InBatch s s'
  | count (s : State T) : InBatch s s.countBatch
  | pop (s : State T) : InBatch s (s.setReady s.ready.pop.2)

/-- A change that any function of the loop makes. -/
inductive Turn : State T → State T → Prop where
  | batch {s s' : State T} : InBatch s s' → Turn s s'
  | stopIdle (s : State T) : Turn s (s.setCore Core.stopIdle)
  | runEnd (s : State T) : Turn s (s.setCore fun c =>
      { c with running := false, stopping := false, fatal := false, uvStop := false })

section Touches

variable {s s' : State T}

theorem Touch.push {ok : Bool} {h : ℕ} (hpush : s.pushReady ok h = some s') : Touch s s' := by
  obtain ⟨q, hq, rfl⟩ := Option.map_eq_some_iff.mp hpush
  refine .ready s q ?_
  rw [Queue.toList_of_push hq]
  exact List.prefix_append _ _

theorem Touch.sendWake (s : State T) : Touch s s.sendWake := by
  rw [State.sendWake]
  split
  · exact .wake s true true s.wakeDispatched
  · exact .wake s s.wakerPending s.asyncSent s.wakeDispatched

theorem Touch.stopTimer (s : State T) : Touch s s.stopTimer := by
  rw [State.stopTimer]
  split
  · exact .timer s none false
  · exact .timer s s.uvTimer s.timerActive

theorem Touch.uncountCancelled (s : State T) : Touch s s.uncountCancelled := by
  rw [State.uncountCancelled]
  split
  · exact .timers s _
  · exact .timers s s.timers

/-- Moving the inbox to the ready queue appends to it. -/
theorem prefix_of_drainLoop {count : ℕ} {ready inbox ready' inbox' : Queue ℕ}
    (h : State.drainLoop count ready inbox = some (ready', inbox')) :
    ready.toList <+: ready'.toList := by
  induction count generalizing ready inbox with
  | zero =>
    cases h
    exact List.prefix_rfl
  | succ count ih =>
    rw [State.drainLoop] at h
    split at h
    · cases h
      exact List.prefix_rfl
    · obtain ⟨q, hq, hrest⟩ := Option.bind_eq_some_iff.mp h
      have hlist := Queue.toList_of_pushAssumeCapacity hq
      refine List.IsPrefix.trans ?_ (ih hrest)
      rw [hlist]
      exact List.prefix_append _ _

theorem Touch.drain {ok : Bool} (h : s.drainThreadsafe ok = .ok s') : Touch s s' := by
  rw [State.drainThreadsafe] at h
  split at h
  · cases h
  · rename_i q hq
    split at h
    · cases h
    · rename_i ready inbox hloop
      cases h
      refine .trans (.ready s ready ?_) (.inbox _ inbox)
      rw [← Queue.toList_of_ensureUnusedCapacity hq]
      exact prefix_of_drainLoop hloop

end Touches

/-! ## The functions of the loop are confined to these changes -/

/-- All procedures but the idle loop. -/
def Proc.Scheduling : Proc T → Prop
  | .idleLoop .. => False
  | _ => True

/-- From this state the program makes only the given changes. -/
def MakesAt (step : State T → State T → Prop) (procs : Proc T → Prop) {α : Type} (p : P T α)
    (s : State T) : Prop := p.confined step procs (fun _ _ => True) s

/-- From every state the program makes only the given changes. -/
def Makes (step : State T → State T → Prop) (procs : Proc T → Prop) {α : Type} (p : P T α) :
    Prop := ∀ s, MakesAt step procs p s

/-- The program makes only the changes scheduling functions make, and calls no procedure. -/
abbrev Touches {α : Type} (p : P T α) : Prop := Makes Touch (fun _ => False) p

/-- The program makes only the changes scheduling functions make. -/
abbrev Schedules {α : Type} (p : P T α) : Prop := Makes Touch Proc.Scheduling p

section Confined

variable {step : State T → State T → Prop} {procs : Proc T → Prop} {s : State T}

@[simp]
theorem confined_getState (Q : State T → State T → Prop) :
    (getState : P T _).confined step procs Q s ↔ Q s s := Iff.rfl

@[simp]
theorem confined_setState (s' : State T) (Q : Unit → State T → Prop) :
    (setState s').confined step procs Q s ↔ step s s' ∧ Q () s' := Iff.rfl

@[simp]
theorem confined_update (f : State T → State T) (Q : Unit → State T → Prop) :
    (update f).confined step procs Q s ↔ step s (f s) ∧ Q () (f s) := Iff.rfl

theorem confined_alloc {Q : Bool → State T → Prop} (h : ∀ ok, Q ok s) :
    (alloc : P T _).confined step procs Q s := fun a => h a.ok

theorem confined_enterContext {Q : Bool → State T → Prop} (h : ∀ ok, Q ok s) :
    (enterContext : P T _).confined step procs Q s := fun a => h a.ok

theorem confined_hrtime {Q : ℕ → State T → Prop} (h : ∀ n, Q n s) :
    (hrtime : P T _).confined step procs Q s := fun a => h a.nanoseconds

theorem confined_python {c : Callback} {Q : Unit → State T → Prop} (h : ∀ s', Q () s') :
    (python c : P T _).confined step procs Q s := fun _ s' => h s'

end Confined

section Combinators

variable {step : State T → State T → Prop} {procs : Proc T → Prop} {α β : Type} {s s' : State T}

theorem Makes.bind {p : P T α} {f : α → P T β} (hp : Makes step procs p)
    (hf : ∀ a, Makes step procs (f a)) : Makes step procs (p >>= f) := fun s =>
  (Prog.confined_bind _ _ _ _).mpr
    (Prog.confined_mono (hp s) (fun _ _ h => h) (fun _ h => h) fun a s' _ => hf a s')

/-- A program that makes given changes makes no others. -/
theorem Makes.mono {step' : State T → State T → Prop} {procs' : Proc T → Prop} {p : P T α}
    (hp : Makes step procs p) (hstep : ∀ s s', step s s' → step' s s')
    (hprocs : ∀ f, procs f → procs' f) : Makes step' procs' p :=
  fun s => Prog.confined_mono (hp s) hstep hprocs fun _ _ h => h

theorem Makes.map {p : P T α} (hp : Makes step procs p) (f : α → β) : Makes step procs (f <$> p) :=
  fun s => (Prog.confined_map _ _ _ _).mpr (hp s)

theorem Makes.ite {c : Prop} [Decidable c] {p q : P T α} (hp : Makes step procs p)
    (hq : Makes step procs q) : Makes step procs (if c then p else q) := by
  split
  · exact hp
  · exact hq

theorem Makes.pure (a : α) : Makes step procs (Pure.pure a : P T α) := fun _ => trivial

theorem Makes.update {f : State T → State T} (hf : ∀ s, step s (f s)) :
    Makes step procs (Loop.update f) := fun s => ⟨hf s, trivial⟩

theorem Makes.release : Makes step procs (Loop.release : P T Unit) :=
  fun _ => confined_python fun _ => trivial

theorem Makes.python (c : Callback) : Makes step procs (Loop.python c : P T Unit) :=
  fun _ => confined_python fun _ => trivial

theorem Makes.enterContext : Makes step procs (Loop.enterContext : P T Bool) :=
  fun _ => confined_enterContext fun _ => trivial

theorem Makes.hrtime : Makes step procs (Loop.hrtime : P T ℕ) :=
  fun _ => confined_hrtime fun _ => trivial

theorem Makes.foreign (c : Callback) : Makes step procs (Prog.foreign (S := sig T) c) :=
  fun _ _ _ => trivial

theorem Makes.now (hclock : ∀ (s : State T) t, step s (s.setClock t)) :
    Makes step procs (Loop.now : P T T) := fun _ _ => ⟨hclock _ _, trivial⟩

theorem Makes.invoke {f : Proc T} (hf : procs f) :
    Makes step procs (Prog.invoke (S := sig T) f) := fun _ => ⟨hf, fun _ => trivial⟩

/-- What comes after a reading of the state may depend on the state. -/
theorem Makes.getState {f : State T → P T α} (hf : ∀ s, MakesAt step procs (f s) s) :
    Makes step procs (Loop.getState >>= f) := fun s => (Prog.confined_bind _ _ _ _).mpr (hf s)

theorem MakesAt.getState {f : State T → P T α} (hf : MakesAt step procs (f s) s) :
    MakesAt step procs (Loop.getState >>= f) s := (Prog.confined_bind _ _ _ _).mpr hf

theorem MakesAt.alloc {f : Bool → P T α} (hf : ∀ ok, MakesAt step procs (f ok) s) :
    MakesAt step procs (Loop.alloc >>= f) s :=
  (Prog.confined_bind _ _ _ _).mpr (confined_alloc hf)

theorem MakesAt.setState {f : Unit → P T α} (hstep : step s s')
    (hf : MakesAt step procs (f ()) s') : MakesAt step procs (Loop.setState s' >>= f) s :=
  (Prog.confined_bind _ _ _ _).mpr ⟨hstep, hf⟩

theorem MakesAt.update {g : State T → State T} {f : Unit → P T α} (hstep : step s (g s))
    (hf : MakesAt step procs (f ()) (g s)) : MakesAt step procs (Loop.update g >>= f) s :=
  (Prog.confined_bind _ _ _ _).mpr ⟨hstep, hf⟩

theorem MakesAt.ite {c : Prop} [Decidable c] {p q : P T α} (hp : MakesAt step procs p s)
    (hq : MakesAt step procs q s) : MakesAt step procs (if c then p else q) s := by
  split
  · exact hp
  · exact hq

theorem MakesAt.pure (a : α) : MakesAt step procs (Pure.pure a : P T α) s := trivial

end Combinators

/-! ### Timers -/

theorem schedules_collectDueTimers : Schedules (collectDueTimers : P T Unit) :=
  .bind (.now .clock) fun deadline => .invoke (f := .collectDue deadline) trivial

theorem schedules_collectDueBody (deadline : T) :
    Schedules (collectDueBody deadline : P T Unit) := by
  refine .getState fun s => ?_
  split
  · exact ⟨.startIdle s, trivial⟩
  · rename_i entry hpeek
    refine .ite ⟨.startIdle s, trivial⟩ (.update (.trans (.timers s _) (.handle _ _ _)) ?_)
    refine .ite (Makes.bind .release (fun _ => .bind (.update .uncountCancelled) fun _ =>
      .invoke (f := .collectDue deadline) trivial) _) (.getState (.alloc fun ok => ?_))
    split
    · exact .update (.captureFatal _) (Makes.release _)
    · rename_i s' hpush
      exact .setState (.trans (.push hpush) (.record _ _ rfl))
        (Makes.invoke (f := .collectDue deadline) trivial _)

theorem schedules_dropCancelledBody : Schedules (dropCancelledBody : P T Unit) := by
  refine .getState fun s => ?_
  split
  · exact .pure ()
  · refine .ite (.update (.trans (.timers s _) (.handle _ _ _)) ?_) (.pure ())
    exact Makes.bind .release (fun _ => .bind (.update .uncountCancelled) fun _ =>
      .invoke (f := .dropCancelled) trivial) _

theorem schedules_armTimer : Schedules (armTimer : P T Unit) := by
  refine .bind (.invoke (f := .dropCancelled) trivial) fun _ => .getState fun s => ?_
  split
  · exact ⟨.stopTimer s, trivial⟩
  · exact Makes.bind (.now .clock) (fun _ => .update fun s => .timer s _ true) _

theorem schedules_releaseAll (doomed : List ℕ) : Schedules (releaseAll doomed : P T Unit) := by
  induction doomed with
  | nil => exact .pure ()
  | cons _ _ ih => exact .bind .release fun _ => ih

theorem schedules_noteTimerCancelled : Schedules (noteTimerCancelled : P T Unit) := by
  refine .bind (.update fun s => .timers s _) fun _ => .getState fun s => ?_
  refine .ite (.alloc fun ok => .setState (.compact s ok) ?_) (.pure ())
  exact Makes.bind (schedules_releaseAll _) (fun _ => schedules_armTimer) _

theorem schedules_create (kind : HandleKind) (when : T) : Schedules (create kind when) := by
  refine fun s => .alloc fun ok => .ite (.getState (.setState (.create s kind when) ?_)) (.pure _)
  exact .pure _

theorem schedules_scheduleAt (when : T) (alreadyDue : Bool) :
    Schedules (scheduleAt when alreadyDue) := by
  refine .getState fun s => .ite (.pure _) (Makes.bind (schedules_create _ _) (fun r => ?_) s)
  cases r with
  | error e => exact .pure _
  | ok h =>
    refine .getState fun s => .ite (.update (.handle s h _) (.getState (.alloc fun ok => ?_)))
      (.alloc fun ok => ?_)
    · split
      · exact .pure _
      · rename_i s' hpush
        refine .setState (.trans (.push hpush) (.trans (.record _ _ rfl) (.startIdle _))) (.pure _)
    · split
      · exact .pure _
      · exact .update (.timers s _) (Makes.bind schedules_armTimer (fun _ => .pure _) _)

theorem schedules_callLater [Add T] [Zero T] (delay : T) : Schedules (callLater delay) :=
  .bind (.now .clock) fun _ => schedules_scheduleAt _ _

theorem schedules_callAt (when : T) : Schedules (callAt when) :=
  .bind (.now .clock) fun _ => schedules_scheduleAt _ _

theorem schedules_onTimer : Schedules (onTimer : P T Unit) :=
  .bind (.update fun s => .timer s none false) fun _ =>
    .bind schedules_collectDueTimers fun _ => schedules_armTimer

/-! ### Scheduling -/

theorem schedules_scheduleSoon [Inhabited T] : Schedules (scheduleSoon : P T _) := by
  refine .bind (schedules_create _ _) fun r => ?_
  cases r with
  | error e => exact .pure _
  | ok h =>
    refine .getState fun s => .ite (.pure _) (.alloc fun ok => ?_)
    split
    · exact .pure _
    · exact .update (.panic s) (.pure _)
    · rename_i s₁ hdrain
      refine .setState (.drain hdrain) (.alloc fun ok => ?_)
      split
      · exact .pure _
      · rename_i s₂ hpush
        exact .setState (.trans (.push hpush) (.trans (.record _ _ rfl) (.startIdle _))) (.pure _)

theorem schedules_callSoonThreadsafe [Inhabited T] :
    Schedules (callSoonThreadsafe : P T _) := by
  refine .getState fun s => .ite (.pure _) (Makes.bind (schedules_create _ _) (fun r => ?_) s)
  cases r with
  | error e => exact .pure _
  | ok h =>
    refine .getState fun s => .alloc fun ok => ?_
    split
    · exact .pure _
    · exact .setState (.trans (.inbox s _) (.trans (.record _ _ rfl) (.sendWake _))) (.pure _)

theorem schedules_onWake : Schedules (onWake : P T Unit) := by
  refine .bind (.update fun s => .wake s false s.asyncSent false) fun _ =>
    .getState fun s => .alloc fun ok => ?_
  split
  · exact ⟨.captureFatal s, trivial⟩
  · exact ⟨.panic s, trivial⟩
  · rename_i s' hdrain
    exact ⟨.trans (.drain hdrain) (.startIdle _), trivial⟩

theorem schedules_scheduleFired (fired : List ℕ) :
    Schedules (scheduleFired fired : P T Unit) := by
  induction fired with
  | nil => exact .pure ()
  | cons h fired ih =>
    refine .getState fun s => .ite (.alloc fun ok => ?_) (ih s)
    split
    · exact Makes.bind .release (fun _ => ih) s
    · rename_i s' hpush
      exact .setState (.push hpush) (ih s')

theorem schedules_onPoll (fired : List ℕ) : Schedules (onPoll fired : P T Unit) :=
  .bind (schedules_scheduleFired fired) fun _ => .update .startIdle

theorem schedules_scheduleCall [Inhabited T] : Schedules (scheduleCall : P T Unit) := by
  refine .getState fun s => .ite (.pure _) (Makes.bind (schedules_create _ _) (fun r => ?_) s)
  cases r with
  | error e => exact .update .captureFatal
  | ok h =>
    refine .getState fun s => .alloc fun ok => ?_
    split
    · exact ⟨.captureFatal s, trivial⟩
    · rename_i s' hpush
      exact ⟨.trans (.push hpush) (.startIdle _), trivial⟩

/-! ### Cancelling -/

theorem touches_clearCallback (h : ℕ) : Touches (clearCallback h : P T Unit) :=
  .bind .release fun _ => .bind (.update fun s => .handle s h _) fun _ => .release

theorem schedules_clearCallback (h : ℕ) : Schedules (clearCallback h : P T Unit) :=
  (touches_clearCallback h).mono (fun _ _ h => h) fun _ => False.elim

theorem schedules_cancelHandle (h : ℕ) : Schedules (cancelHandle h : P T Unit) :=
  .getState fun s => .ite (.update (.handle s h _)
    (.ite (schedules_clearCallback h _) (.pure ()))) (.pure ())

theorem schedules_timerCancel (h : ℕ) : Schedules (timerCancel h : P T Unit) := by
  have hnote : Schedules (do
      let s ← getState
      if (s.handles h).inHeap then noteTimerCancelled : P T Unit) :=
    .getState fun s => .ite (schedules_noteTimerCancelled s) (.pure ())
  refine .getState fun s => .ite (.update (.handle s h _) ?_) (.pure ())
  exact .ite (Makes.bind (schedules_clearCallback h) (fun _ => hnote) _) (hnote _)

theorem schedules_cancelTimer (h : ℕ) : Schedules (cancelTimer h : P T Unit) :=
  .getState fun s => Makes.bind (schedules_timerCancel h)
    (fun _ => .update fun s => .record s _ rfl) s

theorem schedules_cancelThreadsafe (h : ℕ) : Schedules (cancelThreadsafe h : P T Unit) := by
  refine .bind (.update fun s => .handle s h _) fun _ => .getState fun s =>
    .ite (.update (.handle s h _) (.ite (.update (.handle _ h _) ?_) (.pure ()))) (.pure ())
  exact Makes.bind .release (fun _ => .release) _

theorem schedules_cancel (h : ℕ) : Schedules (cancel h : P T Unit) := by
  refine .getState fun s => ?_
  split
  · exact schedules_cancelTimer h s
  · exact schedules_cancelThreadsafe h s
  · exact schedules_cancelHandle h s
  · exact schedules_cancelHandle h s

/-! ### Running and stopping the loop -/

theorem schedules_runBegin : Schedules (runBegin : P T _) := by
  refine .getState fun s => .ite (.pure _) ?_
  split
  · exact .pure _
  · rename_i hrunning
    refine .update (.begin s (by simpa using hrunning)) (.update (.startIdle _) ?_)
    exact Makes.bind schedules_armTimer (fun _ => .pure _) _

theorem schedules_stop : Schedules (stop : P T Unit) := .update .stop

/-- The procedures other than the idle loop. -/
theorem schedules_body {f : Proc T} (hf : f.Scheduling) : Schedules (body f) := by
  cases f with
  | collectDue deadline => exact schedules_collectDueBody deadline
  | dropCancelled => exact schedules_dropCancelledBody
  | idleLoop => exact False.elim hf

/-- The entry points other than those that start and end with a turn of the loop. -/
theorem schedules_entry [Add T] [Zero T] [Inhabited T] {op : Op T} (hidle : op ≠ .onIdle)
    (hend : op ≠ .runEnd) : Schedules (entry op) := by
  cases op with
  | callSoon => exact schedules_scheduleSoon.map _
  | callSoonThreadsafe => exact schedules_callSoonThreadsafe.map _
  | callLater delay => exact (schedules_callLater delay).map _
  | callAt when => exact (schedules_callAt when).map _
  | cancel h => exact schedules_cancel h
  | stop => exact schedules_stop
  | runBegin => exact schedules_runBegin.map _
  | runEnd => exact absurd rfl hend
  | onIdle => exact absurd rfl hidle
  | onTimer => exact schedules_onTimer
  | asyncDispatch => exact .update fun s => .wake s s.wakerPending false true
  | onWake => exact schedules_onWake
  | onPoll fired => exact schedules_onPoll fired
  | createNative => exact (schedules_create _ _).map _
  | scheduleCall => exact schedules_scheduleCall
  | surroundings e => exact .update fun s => .surroundings s e

/-! ### Running callbacks -/

/-- The program makes only the changes that the run of one callback makes. -/
abbrev Works {α : Type} (p : P T α) : Prop := Makes Work (fun _ => False) p

theorem Work.handle (s : State T) (h : ℕ) (f : HandleRec T → HandleRec T) :
    Work s (s.setHandle h f) := .touch (.handle s h f)

theorem Works.of_touches {α : Type} {p : P T α} (h : Touches p) : Works p :=
  h.mono (fun _ _ => .touch) fun _ h => h

theorem touches_callbackFailed (o : Outcome) : Touches (callbackFailed o : P T Unit) := by
  cases o with
  | exit => exact .update .captureFatal
  | returned | raised => exact .python _

theorem works_callbackFailed (o : Outcome) : Works (callbackFailed o : P T Unit) :=
  .of_touches (touches_callbackFailed o)

theorem works_invoke (h : ℕ) : Works (Loop.invoke h : P T Unit) := by
  refine .bind (.update fun s => .ran s h) fun _ => .bind .enterContext fun entered =>
    .ite ?_ (works_callbackFailed _)
  refine .bind (.foreign _) fun outcome => ?_
  cases outcome with
  | returned => exact .pure ()
  | raised => exact works_callbackFailed _
  | exit => exact works_callbackFailed _

theorem touches_finishRun (h : ℕ) : Touches (finishRun h : P T Unit) :=
  .bind (.update fun s => .handle s h _) fun _ => .getState fun s =>
    .ite (touches_clearCallback h s) (.pure ())

theorem works_finishRun (h : ℕ) : Works (finishRun h : P T Unit) :=
  .of_touches (touches_finishRun h)

theorem works_runHandle (h : ℕ) : Works (runHandle h : P T Unit) := by
  refine .getState fun s => .ite (.pure ()) (.update (.handle s h _) (.alloc fun ok => ?_))
  exact .ite ((works_invoke h).bind (fun _ => works_finishRun h) _)
    ((works_callbackFailed _).bind (fun _ => works_finishRun h) _)

theorem works_runTimer (h : ℕ) : Works (runTimer h : P T Unit) :=
  .getState fun s => .ite (.pure ()) (.update (.handle s h _)
    (Makes.bind (works_invoke h) (fun _ => works_finishRun h) _))

theorem works_runThreadsafe (h : ℕ) : Works (runThreadsafe h : P T Unit) := by
  have hdone : Works (do
      update fun s => s.setHandle h (HandleRec.setRunState .done)
      let s ← getState
      if (s.handles h).cancelled then
        update fun s => s.setHandle h HandleRec.dropCallback
        release
        release : P T Unit) := by
    refine .bind (.update fun s => .handle s h _) fun _ => .getState fun s =>
      .ite (.update (.handle s h _) ?_) (.pure ())
    exact Makes.bind .release (fun _ => .release) _
  refine .getState fun s => .ite (.pure ()) (.update (.handle s h _)
    (.ite (.update (.touch (.panic _)) (.pure ())) (.alloc fun ok => ?_)))
  exact .ite ((works_invoke h).bind (fun _ => hdone) _)
    ((works_callbackFailed _).bind (fun _ => hdone) _)

theorem works_runOne (h : ℕ) : Works (runOne h : P T Unit) := by
  refine .getState fun s => ?_
  split
  · exact .update (.handle s h _) (works_runTimer h _)
  · exact works_runThreadsafe h s
  · exact works_runHandle h s
  · exact works_runHandle h s

theorem works_runMonitored (h duration : ℕ) : Works (runMonitored h duration : P T Unit) :=
  .bind .hrtime fun _ => .bind (works_runOne h) fun _ => .bind .hrtime fun _ =>
    .ite (.python _) (.pure ())

theorem works_runTimed (h : ℕ) : Works (runTimed h : P T Unit) := by
  refine .getState fun s => ?_
  split
  · exact .ite (works_runMonitored h _ s) (works_runOne h s)
  · exact works_runOne h s

/-! ### Batches -/

/-- The program makes only the changes that a batch of callbacks makes. -/
abbrev Batches {α : Type} (p : P T α) : Prop := Makes InBatch (fun _ => False) p

theorem Batches.of_works {α : Type} {p : P T α} (h : Works p) : Batches p :=
  h.mono (fun _ _ => .work) fun _ h => h

theorem batches_runReadyLoop (remaining : ℕ) : Batches (runReadyLoop remaining : P T Unit) := by
  induction remaining with
  | zero => exact .pure ()
  | succ remaining ih =>
    refine .getState fun s => ?_
    have hpop := InBatch.pop s
    split
    · exact .pure ()
    · rename_i h q heq
      rw [heq] at hpop
      exact .setState hpop (Makes.bind (Batches.of_works (works_runTimed h))
        (fun _ => .bind .release fun _ => ih) _)

theorem batches_runReady : Batches (runReady : P T Unit) :=
  .getState fun s => .update (.count s) (batches_runReadyLoop _ _)

/-! ### A turn of the loop -/

/-- The program makes only the changes the functions of the loop make. -/
abbrev Turns {α : Type} (p : P T α) : Prop := Makes Turn (fun _ => True) p

theorem Turns.of_schedules {α : Type} {p : P T α} (h : Schedules p) : Turns p :=
  h.mono (fun _ _ h => .batch (.work (.touch h))) fun _ _ => trivial

theorem Turns.of_batches {α : Type} {p : P T α} (h : Batches p) : Turns p :=
  h.mono (fun _ _ => .batch) fun _ => False.elim

theorem turns_idleBody (batches callbacks started : ℕ) :
    Turns (idleBody batches callbacks started : P T Unit) := by
  refine .getState fun s => .ite (.pure ()) (Makes.bind (Turns.of_batches batches_runReady)
    (fun _ => ?_) s)
  refine .getState fun s₁ => .ite (.pure ()) (.ite (.ite (.pure ()) ?_) ?_)
  · refine Makes.bind .hrtime (fun time => ?_) s₁
    exact .ite (.pure ()) (.invoke (f := .idleLoop _ _ _) trivial)
  · exact Makes.invoke (f := .idleLoop _ _ _) trivial s₁

theorem turns_onIdle : Turns (onIdle : P T Unit) :=
  .bind .hrtime fun started =>
    .bind (.invoke (f := .idleLoop 0 0 started) trivial) fun _ => .update .stopIdle

theorem turns_runEnd : Turns (runEnd : P T Bool) :=
  .getState fun s => .setState (.runEnd s) (.pure _)

theorem turns_body (f : Proc T) : Turns (body f) := by
  cases f with
  | idleLoop batches callbacks started => exact turns_idleBody batches callbacks started
  | collectDue deadline => exact .of_schedules (schedules_collectDueBody deadline)
  | dropCancelled => exact .of_schedules schedules_dropCancelledBody

theorem turns_entry [Add T] [Zero T] [Inhabited T] (op : Op T) : Turns (entry op) := by
  by_cases hidle : op = .onIdle
  · subst hidle
    exact turns_onIdle
  by_cases hend : op = .runEnd
  · subst hend
    exact turns_runEnd.map _
  exact .of_schedules (schedules_entry hidle hend)

/-! ## What follows -/

/-- What is not taken back while something is in progress. -/
structure Persists (s s' : State T) : Prop where
  /-- The loop goes on running. -/
  running : s.running = true → s'.running = true
  /-- A loop that runs remembers that it was asked to stop. -/
  stopping : s.running = true → s.stopping = true → s'.stopping = true
  /-- So does libuv. -/
  uvStop : s.uvStop = true → s'.uvStop = true
  /-- A fatal exception is kept. -/
  fatal : s.fatal = true → s'.fatal = true
  /-- The idle handle is not stopped. -/
  idle : s.idleActive = true ∧ s.uvIdle = true → s'.idleActive = true ∧ s'.uvIdle = true

/-- What is left in place while the loop runs one callback. -/
structure Onward (s s' : State T) : Prop extends Persists s s' where
  /-- Nothing is taken off the ready queue. -/
  ready : s.ready.toList <+: s'.ready.toList
  /-- No batch is counted. -/
  counts : s'.iterations = s.iterations ∧ s'.callbacksRun = s.callbacksRun

/-- What is left in place while a callback is suspended. -/
structure Frame (s s' : State T) : Prop extends Onward s s' where
  /-- No callback is run. -/
  ran : s'.ran = s.ran

namespace Persists

theorem refl (s : State T) : Persists s s := ⟨id, fun _ => id, id, id, id⟩

theorem trans {s₁ s₂ s₃ : State T} (h : Persists s₁ s₂) (h' : Persists s₂ s₃) :
    Persists s₁ s₃ where
  running := h'.running ∘ h.running
  stopping := fun hrun hstop => h'.stopping (h.running hrun) (h.stopping hrun hstop)
  uvStop := h'.uvStop ∘ h.uvStop
  fatal := h'.fatal ∘ h.fatal
  idle := h'.idle ∘ h.idle

/-- A change that none of this depends on. -/
theorem of_eq {s s' : State T} (hrunning : s'.running = s.running)
    (hstopping : s'.stopping = s.stopping) (huvStop : s'.uvStop = s.uvStop)
    (hfatal : s'.fatal = s.fatal) (hidle : s'.idleActive = s.idleActive)
    (huvIdle : s'.uvIdle = s.uvIdle) : Persists s s' where
  running := fun h => hrunning.trans h
  stopping := fun _ h => hstopping.trans h
  uvStop := fun h => huvStop.trans h
  fatal := fun h => hfatal.trans h
  idle := fun h => ⟨hidle.trans h.1, huvIdle.trans h.2⟩

end Persists

theorem Onward.refl (s : State T) : Onward s s := ⟨.refl s, List.prefix_rfl, rfl, rfl⟩

theorem Onward.trans {s₁ s₂ s₃ : State T} (h : Onward s₁ s₂) (h' : Onward s₂ s₃) :
    Onward s₁ s₃ where
  toPersists := h.toPersists.trans h'.toPersists
  ready := h.ready.trans h'.ready
  counts := ⟨h'.counts.1.trans h.counts.1, h'.counts.2.trans h.counts.2⟩

theorem Frame.refl (s : State T) : Frame s s := ⟨.refl s, rfl⟩

theorem Frame.trans {s₁ s₂ s₃ : State T} (h : Frame s₁ s₂) (h' : Frame s₂ s₃) : Frame s₁ s₃ :=
  ⟨h.toOnward.trans h'.toOnward, h'.ran.trans h.ran⟩

/-- What scheduling functions change is in the frame. -/
theorem Touch.frame {s s' : State T} (h : Touch s s') : Frame s s' := by
  have hrest : ∀ {s s' : State T}, Persists s s' → s'.ready = s.ready →
      s'.iterations = s.iterations ∧ s'.callbacksRun = s.callbacksRun → s'.ran = s.ran →
      Frame s s' :=
    fun hp hready hcounts hran => ⟨⟨hp, hready ▸ List.prefix_rfl, hcounts⟩, hran⟩
  induction h with
  | ready s q hq => exact ⟨⟨.of_eq rfl rfl rfl rfl rfl rfl, hq, rfl, rfl⟩, rfl⟩
  | record s e he =>
    refine hrest (.of_eq rfl rfl rfl rfl rfl rfl) rfl ⟨rfl, rfl⟩ ?_
    rw [State.ran_record, he]
    exact List.append_nil _
  | startIdle s =>
    simp only [State.setCore, Core.startIdle]
    split
    · exact hrest ⟨id, fun _ => id, id, id, fun _ => ⟨rfl, rfl⟩⟩ rfl ⟨rfl, rfl⟩ rfl
    · exact .refl s
  | captureFatal s =>
    exact hrest ⟨id, fun _ _ => rfl, fun _ => rfl, fun _ => rfl, id⟩ rfl ⟨rfl, rfl⟩ rfl
  | stop s =>
    refine hrest ⟨id, fun _ _ => rfl, fun h => ?_, id, id⟩ rfl ⟨rfl, rfl⟩ rfl
    change (s.uvStop || !s.closed) = true
    rw [h]
    rfl
  | begin s hrunning =>
    have hno : s.running ≠ true := by simp [hrunning]
    exact hrest ⟨fun h => absurd h hno, fun h => absurd h hno, id, id, id⟩ rfl ⟨rfl, rfl⟩ rfl
  | trans _ _ ih ih' => exact ih.trans ih'
  | _ => exact hrest (.of_eq rfl rfl rfl rfl rfl rfl) rfl ⟨rfl, rfl⟩ rfl

/-- What the run of a callback changes itself. -/
theorem Work.onward {s s' : State T} (h : Work s s') : Onward s s' := by
  cases h with
  | touch h => exact h.frame.toOnward
  | ran => exact ⟨.of_eq rfl rfl rfl rfl rfl rfl, List.prefix_rfl, rfl, rfl⟩

/-- What a batch changes itself. -/
theorem InBatch.persists {s s' : State T} (h : InBatch s s') : Persists s s' := by
  cases h with
  | work h => exact h.onward.toPersists
  | count | pop => exact .of_eq rfl rfl rfl rfl rfl rfl

/-- The specification of what runs while a callback is suspended: the idle loop does not. -/
def nestedSpec : Spec (sig T) where
  inv := fun _ => True
  rely := Frame
  pre := fun f _ => f.Scheduling
  post := fun _ => Frame

theorem nestedSpec_admits : (nestedSpec : Spec (sig T)).Admits Touch Proc.Scheduling where
  refl := Frame.refl
  trans := fun _ _ _ => Frame.trans
  step := fun _ _ _ h => ⟨trivial, h.frame⟩
  pre := fun _ _ h _ => h
  post := fun _ _ _ _ h => ⟨trivial, h⟩

section Environment

variable [Add T] [Zero T] [Inhabited T] {E : Env (sig T)}
  (hE : ∀ stack s op, E.starts stack s op → Startable stack s op)

include hE

theorem nested_verified (t : T) : Verified (system t) E.nested nestedSpec where
  rely_refl := Frame.refl
  rely_trans := fun _ _ _ => Frame.trans
  init := trivial
  body := fun f s hf =>
    Prog.wp_mono (Prog.confined_keeps nestedSpec_admits (schedules_body hf) s trivial)
      fun _ _ h => h.2
  entry := by
    intro stack s op hop hinv _
    have hstart := hE stack s op hop.2
    -- libuv calls nothing, since the stack is not empty
    have hidle : op ≠ .onIdle := fun h => by
      subst h
      exact hop.1 hstart.1
    have hend : op ≠ .runEnd := fun h => by
      subst h
      exact hop.1 hstart.1
    exact Prog.confined_keeps nestedSpec_admits (schedules_entry hidle hend) s hinv

/-- What Python code does while a callback is suspended is in the frame. -/
theorem frame_of_interlude (t : T) {n : ℕ} {c : Callback} {stack : List Callback}
    {s s' : State T} (h : Interlude (system t) E n (c :: stack) s s') : Frame s s' := by
  have hsound := Interlude.sound_of_nested (nested_verified hE t) n stack c s s' h
  by_cases hquiet : E.nested.Quiet c
  · rw [hsound.1 hquiet]
    exact .refl _
  · exact (hsound.2 hquiet trivial).2

/-- A scheduling function that libuv calls is in the frame, with all that Python code does. -/
theorem frame_of_run (t : T) {n : ℕ} {α : Type} {p : P T α} (hp : Schedules p) {s s' : State T}
    {a : α} {log : Log (sig T)}
    (hrun : Run (system t) E (fun c => Interlude (system t) E n [c]) p s a s' log) :
    Frame s s' := by
  have hsound := Interlude.sound_of_nested (nested_verified hE t) n []
  have hwp := Prog.confined_keeps (E := E.nested) nestedSpec_admits hp s trivial
  exact ((nested_verified hE t).run hsound (run_nested_iff.mpr hrun) hwp).1.2

end Environment

/-! ## Every turn -/

/-- The specification of all functions of the loop: the cached flag of the idle handle is right, and
what has run is not forgotten. -/
def turnSpec : Spec (sig T) :=
  .keeping (S := sig T) (fun s => s.idleActive = s.uvIdle) fun s s' => s.ran <+: s'.ran

theorem Touch.idleFlag {s s' : State T} (h : Touch s s') (hs : s.idleActive = s.uvIdle) :
    s'.idleActive = s'.uvIdle := by
  induction h with
  | startIdle s =>
    simp only [State.setCore, Core.startIdle]
    split
    · rfl
    · exact hs
  | trans _ _ ih ih' => exact ih' (ih hs)
  | _ => exact hs

theorem Turn.idleFlag {s s' : State T} (h : Turn s s') (hs : s.idleActive = s.uvIdle) :
    s'.idleActive = s'.uvIdle := by
  cases h with
  | batch h =>
    cases h with
    | work h =>
      cases h with
      | touch h => exact h.idleFlag hs
      | ran => exact hs
    | count | pop => exact hs
  | stopIdle =>
    simp only [State.setCore, Core.stopIdle]
    split
    · rfl
    · exact hs
  | _ => exact hs

/-- Every change leaves the callbacks that have run in place. -/
theorem Turn.ran_prefix {s s' : State T} (h : Turn s s') : s.ran <+: s'.ran := by
  cases h with
  | batch h =>
    cases h with
    | work h =>
      cases h with
      | touch h => exact h.frame.ran ▸ List.prefix_rfl
      | ran =>
        rw [State.ran_record]
        exact List.prefix_append _ _
    | count | pop => exact List.prefix_rfl
  | stopIdle | runEnd => exact List.prefix_rfl

theorem turnSpec_admits : (turnSpec : Spec (sig T)).Admits Turn fun _ => True where
  refl := fun _ => List.prefix_rfl
  trans := fun _ _ _ => List.IsPrefix.trans
  step := fun _ _ hs h => ⟨h.idleFlag hs, h.ran_prefix⟩
  pre := fun _ _ _ hs => hs
  post := fun _ _ _ _ h => h

theorem turns_verified [Add T] [Zero T] [Inhabited T] (E : Env (sig T)) (t : T) :
    Verified (system t) E turnSpec where
  rely_refl := fun _ => List.prefix_rfl
  rely_trans := fun _ _ _ => List.IsPrefix.trans
  init := rfl
  body := fun f s hs => Prog.confined_keeps turnSpec_admits (turns_body f) s hs
  entry := fun _ s op _ hs _ => Prog.confined_keeps turnSpec_admits (turns_entry op) s hs

/-- Between two native callbacks the cached flag of the idle handle is right. -/
theorem idleActive_eq [Add T] [Zero T] [Inhabited T] {E : Env (sig T)} {t : T} {s : State T}
    (h : (system t).Reachable E ⟨s, none, []⟩) : s.idleActive = s.uvIdle :=
  ((turns_verified E t).top_level h).1

end Zuvloop.Loop
