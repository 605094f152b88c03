import Zuvloop.Loop.Drain

/-!
# Stopping the loop

`stop()` sets two flags: the loop's own, which ends the idle callback after the batch in progress,
and libuv's, which ends `uv_run` before its next iteration. `_run` clears the first when it starts
and `uv_run` clears the second when it returns. So a `stop()` between two runs is remembered by
libuv alone, and the next `uv_run` returns without running any phase.

`uv_run` is a relation here, phase by phase. What other native code does in a phase (streams,
resolvers, processes, and the writes `onFlush` sends) is Python code it runs, which may call the
loop as it likes. What else keeps libuv's loop alive than an active idle handle is left open.

A `_run()` called by Python code that itself runs inside a scheduling function of a loop that does
not run is not followed.

## Main definitions

* `UvRun`: `uv_run` in the mode `UV_RUN_DEFAULT`.
* `Forever`: one call of `_run`, up to the writes it flushes at the end.
* `Session`: a sequence of runs, with Python code before, between and after them.

## Main results

* `stop_honoured_iff`: a `stop()` while the loop does not run makes the next run skip what is
  queued.
-/

namespace Zuvloop.Loop

open Reentrant

variable {T : Type} [LinearOrder T]

/-! ## Runs of the loop -/

/-- One call of the idle handle's callback. -/
structure IdleCall (T : Type) [LinearOrder T] where
  /-- The state it starts in. -/
  before : State T
  /-- The state it ends in. -/
  after : State T
  /-- What happens. -/
  log : Log (sig T)

/-- One call of `_run` that does not raise, up to the writes it flushes at the end. -/
structure Forever (T : Type) [LinearOrder T] where
  /-- The state in which `_run` is called. -/
  start : State T
  /-- The state in which it calls `uv_run`. -/
  entered : State T
  /-- The state in which libuv, after the timers, first looks whether it has been asked to stop. -/
  head : State T
  /-- The state in which `uv_run` returns. -/
  left : State T
  /-- The state after it. -/
  returned : State T
  /-- The calls of the idle handle's callback. -/
  calls : List (IdleCall T)

section Sessions

variable [Add T] [Zero T] [Inhabited T] (t : T) (n : ℕ)

/-- libuv calls an entry point, or other native code runs Python code. -/
def Native (ops : Op T → Prop) (s s' : State T) : Prop :=
  (∃ c, Meanwhile t n c s s') ∨ ∃ op log, ops op ∧ Startable [] s op ∧
    Run (system t) (env False) (Meanwhile t n) ((system t).entry op) s () s' log

/-- A phase of `uv_run` in which libuv may call the given entry points. -/
def Phase (ops : Op T → Prop) : State T → State T → Prop :=
  Relation.ReflTransGen (Native t n ops)

/-- `uv__run_timers`. -/
def RunTimers : State T → State T → Prop := Phase t n (· = .onTimer)

/-- `uv__run_pending`, `uv__run_prepare`, `uv__run_check` and `uv__run_closing_handles`. -/
def RunOther : State T → State T → Prop := Phase t n fun _ => False

/-- `uv__io_poll`. -/
def IoPoll : State T → State T → Prop :=
  Phase t n fun op => op = .asyncDispatch ∨ op = .onWake ∨ ∃ fired, op = .onPoll fired

/-- `uv__run_idle`: the callback of the idle handle, if it is active. -/
inductive RunIdle : State T → List (IdleCall T) → State T → Prop where
  | inactive {s : State T} : s.uvIdle = false → RunIdle s [] s
  | active (i : IdleCall T) : Startable [] i.before .onIdle →
      Run (system t) (env False) (Meanwhile t n) onIdle i.before () i.after i.log →
      RunIdle i.before [i] i.after

/-- The `while` loop of `uv_run`. -/
inductive UvLoop : Bool → State T → List (IdleCall T) → State T → Prop where
  /-- Nothing is alive, or libuv has been asked to stop. -/
  | exit {alive : Bool} {s : State T} : alive = false ∨ s.uvStop = true → UvLoop alive s [] s
  /-- One iteration. -/
  | iterate {alive : Bool} {s s₁ s₂ s₃ s₄ s₅ s₆ s' : State T} {calls rest : List (IdleCall T)} :
      s.uvStop = false → RunOther t n s s₁ → RunIdle t n s₁ calls s₂ → RunOther t n s₂ s₃ →
      IoPoll t n s₃ s₄ → RunOther t n s₄ s₅ → RunTimers t n s₅ s₆ →
      (s₆.uvIdle = true → alive = true) → UvLoop alive s₆ rest s' →
      UvLoop true s (calls ++ rest) s'

/-- `uv_run` in the mode `UV_RUN_DEFAULT`. The flag is cleared by what follows it. -/
structure UvRun (entered head : State T) (calls : List (IdleCall T)) (left : State T) : Prop where
  /-- An active idle handle is alive, the timers run first, and then the loop. -/
  phases : ∃ alive : Bool, (entered.uvIdle = true → alive = true) ∧
    (if alive = true ∧ entered.uvStop = false then RunTimers t n entered head
      else head = entered) ∧ UvLoop t n alive head calls left

/-- One call of `_run` in a loop that does not run. -/
structure Forever.IsRun (r : Forever T) : Prop where
  /-- Up to `uv_run`. -/
  begin : ∃ log, Run (system t) (env False) (Meanwhile t n) (runBegin : P T _) r.start (.ok ())
    r.entered log
  /-- `uv_run`. -/
  uvRun : UvRun t n r.entered r.head r.calls r.left
  /-- From its return on. -/
  finish : ∃ fatal log, Run (system t) (env False) (Meanwhile t n) (runEnd : P T Bool) r.left fatal
    r.returned log

/-- The runs of a loop so far, in order, with Python code before, between and after them. -/
inductive Session : State T → List (Forever T) → Prop where
  | init : Session (State.init t) []
  /-- Python code calls the loop, as the flush at the end of a run makes it do. -/
  | python {s s' : State T} {rs : List (Forever T)} (c : Callback) : Session s rs →
      Meanwhile t n c s s' → Session s' rs
  /-- The loop runs. -/
  | forever {rs : List (Forever T)} (r : Forever T) : Session r.start rs → r.IsRun t n →
      Session r.returned (rs ++ [r])

end Sessions

/-- The callbacks a run has run. -/
def Forever.ran (r : Forever T) : List ℕ := r.returned.ran.drop r.start.ran.length

/-- Every callback that was queued when the run started has run when it returns, unless it has been
cancelled. -/
def Forever.RunsQueued (r : Forever T) : Prop :=
  (r.start.ready.toList.filter fun h => !(r.returned.handles h).cancelled).Sublist r.ran

/-- A run that starts after `stop()` was called, with libuv's flag still set. -/
def Forever.Stopped (r : Forever T) : Prop := r.start.uvStop = true

/-- The run starts with libuv's flag clear, or nothing is queued that is not cancelled. -/
def Forever.Clear (r : Forever T) : Prop :=
  r.start.uvStop = false ∨ ∀ h ∈ r.start.ready.toList, (r.entered.handles h).cancelled = true

/-! ## What a run keeps -/

/-- What holds between two native callbacks. -/
structure Steady (s : State T) : Prop where
  /-- The two queues are in order. -/
  ordered : Ordered s
  /-- The cached flag of the idle handle is right. -/
  idle : s.idleActive = s.uvIdle

/-- What a run leaves in place. -/
structure Later (s s' : State T) : Prop where
  /-- What is cancelled stays cancelled. -/
  rely : OrderRely s s'
  /-- What has run is not forgotten. -/
  ran : s.ran <+: s'.ran

theorem Later.refl (s : State T) : Later s s := ⟨.refl s, List.prefix_rfl⟩

theorem Later.trans {s₁ s₂ s₃ : State T} (h : Later s₁ s₂) (h' : Later s₂ s₃) : Later s₁ s₃ :=
  ⟨h.rely.trans h'.rely, h.ran.trans h'.ran⟩

theorem OrderRely.of_init [Inhabited T] (t : T) (s : State T) : OrderRely (State.init t) s where
  fresh := Nat.zero_le _
  ran := by simp [State.ran, State.init]
  kind := fun h hh => absurd hh (Nat.not_lt_zero h)
  cancelled := fun h hh => absurd hh (Nat.not_lt_zero h)

/-- What is not cancelled has not been cancelled before. -/
theorem Later.live {s s' : State T} (hlater : Later s s') {h : ℕ} (hlt : h < s.fresh)
    (hlive : (!(s'.handles h).cancelled) = true) : (!(s.handles h).cancelled) = true := by
  cases hc : (s.handles h).cancelled with
  | false => rfl
  | true =>
    rw [hlater.rely.cancelled h hlt hc] at hlive
    cases hlive

theorem Ordered.queued_ready {s : State T} (hs : Ordered s) {h : ℕ} (hh : h ∈ s.ready.toList) :
    h < s.fresh :=
  hs.queued h (List.mem_append_left _ (List.mem_append_right _ hh))

section Runs

variable [Add T] [Zero T] [Inhabited T] {t : T} {n : ℕ} {s s' : State T} {log : Log (sig T)}

/-- A program of the loop keeps what holds between two native callbacks. -/
theorem steady_of_run {α : Type} {a : α} {p : P T α} (hs : Steady s)
    (hwp : p.wp (env False) orderSpec (fun _ s' => Ordered s' ∧ OrderRely s s') s)
    (hturns : Turns p) (hrun : Run (system t) (env False) (Meanwhile t n) p s a s' log) :
    Steady s' ∧ Later s s' := by
  have hflag := Prog.confined_keeps (E := env False) turnSpec_admits hturns s hs.idle
  obtain ⟨hordered, hrely⟩ := ((Order.verified t).run sound_meanwhile hrun hwp).1
  have hV := turns_verified (env False) t
  obtain ⟨hidle, hran⟩ := (hV.run (hV.interlude n []) hrun hflag).1
  exact ⟨⟨hordered, hidle⟩, hrely, hran⟩

theorem steady_of_meanwhile {c : Callback} (hs : Steady s) (h : Meanwhile t n c s s') :
    Steady s' ∧ Later s s' := by
  obtain ⟨hordered, hrely⟩ := (sound_meanwhile c s s' h).2 (not_quiet c) hs.ordered
  obtain ⟨hidle, hran⟩ :=
    ((turns_verified (env False) t).interlude n [] c s s' h).2 (not_quiet c) hs.idle
  exact ⟨⟨hordered, hidle⟩, hrely, hran⟩

/-- An entry point keeps what holds between two native callbacks. -/
theorem steady_of_entry (op : Op T) (hs : Steady s) (hstart : Startable [] s op)
    (hrun : Run (system t) (env False) (Meanwhile t n) ((system t).entry op) s () s' log) :
    Steady s' ∧ Later s s' :=
  steady_of_run hs ((ordered_verified t).entry [] s op ⟨hstart, fun h => h.elim⟩ hs.ordered
    fun _ => .of_init t s) (turns_entry op) hrun

/-- Scheduling functions and Python code take nothing off the ready queue. -/
theorem steady_of_native {ops : Op T → Prop}
    (hops : ∀ op, ops op → op ≠ .onIdle ∧ op ≠ .runEnd) (hs : Steady s)
    (h : Native t n ops s s') : (Steady s' ∧ Later s s') ∧ Frame s s' := by
  rcases h with ⟨c, h⟩ | ⟨op, log, hop, hstart, hrun⟩
  · exact ⟨steady_of_meanwhile hs h, frame_of_meanwhile h⟩
  · obtain ⟨hidle, hend⟩ := hops op hop
    exact ⟨steady_of_entry op hs hstart hrun,
      frame_of_run (E := env False) (fun _ _ _ h => h.1) t (schedules_entry hidle hend) hrun⟩

theorem steady_of_phase {ops : Op T → Prop}
    (hops : ∀ op, ops op → op ≠ .onIdle ∧ op ≠ .runEnd) (hs : Steady s)
    (h : Phase t n ops s s') : (Steady s' ∧ Later s s') ∧ Frame s s' := by
  induction h with
  | refl => exact ⟨⟨hs, .refl s⟩, .refl s⟩
  | tail _ hstep ih =>
    obtain ⟨⟨hs₁, hlater₁⟩, hframe₁⟩ := ih
    obtain ⟨⟨hs₂, hlater₂⟩, hframe₂⟩ := steady_of_native hops hs₁ hstep
    exact ⟨⟨hs₂, hlater₁.trans hlater₂⟩, hframe₁.trans hframe₂⟩

theorem steady_of_timers (hs : Steady s) (h : RunTimers t n s s') :
    (Steady s' ∧ Later s s') ∧ Frame s s' :=
  steady_of_phase (fun op hop => by subst hop; simp) hs h

theorem steady_of_other (hs : Steady s) (h : RunOther t n s s') :
    (Steady s' ∧ Later s s') ∧ Frame s s' := steady_of_phase (fun _ => False.elim) hs h

theorem steady_of_poll (hs : Steady s) (h : IoPoll t n s s') :
    (Steady s' ∧ Later s s') ∧ Frame s s' :=
  steady_of_phase (by rintro op (rfl | rfl | ⟨fired, rfl⟩) <;> simp) hs h

/-! ### The idle callback -/

/-- One call of the idle handle's callback is a sequence of batches, each of which runs every
callback that was queued when it started and is not cancelled. -/
theorem batches_of_idleBody {batches callbacks started : ℕ} (hs : Ordered s)
    (hrun : Run (system t) (env False) (Meanwhile t n) (idleBody batches callbacks started) s ()
      s' log) :
    ∃ bs : List (Batch T), log = bs.flatMap Batch.log ∧
      ∀ b ∈ bs, takenIn b.log = b.before.ready.toList ∧
        RanAll b.before.ready.toList b.before b.after := by
  -- induction on the number of batches that may still come
  obtain ⟨fuel, hfuel⟩ : ∃ fuel, readyDrainIoBatchLimit ≤ batches + fuel :=
    ⟨readyDrainIoBatchLimit, Nat.le_add_left _ _⟩
  induction fuel generalizing batches callbacks s log with
  | zero =>
    have hlimit : s.idleLimit batches callbacks = true := s.idleLimit_of_le callbacks hfuel
    obtain ⟨-, rfl⟩ := run_idleBody_of_limit hlimit hrun
    exact ⟨[], rfl, by simp⟩
  | succ fuel ih =>
    cases hlimit : s.idleLimit batches callbacks with
    | true =>
      obtain ⟨-, rfl⟩ := run_idleBody_of_limit hlimit hrun
      exact ⟨[], rfl, by simp⟩
    | false =>
      obtain ⟨s₁, log₁, log₂, hbatch, rfl, hrest⟩ := run_idleBody_of_room hlimit hrun
      let b : Batch T := ⟨s, s₁, log₁⟩
      have hb : b.IsRun (system t) (env False) (Meanwhile t n) := hbatch
      obtain ⟨hran, hordered, -⟩ := Batch.ran hs hb
      have hwhole := (Batch.whole (fun c s s' h => (frame_of_meanwhile h).toOnward) hb).1
      rcases hrest with ⟨rfl, rfl, -⟩ | ⟨-, -, hagain⟩
      · exact ⟨[b], by simp [b], by simpa using ⟨hwhole, hran⟩⟩
      · obtain ⟨bs, rfl, hbs⟩ := ih hordered hagain (by omega)
        exact ⟨b :: bs, rfl, List.forall_mem_cons.mpr ⟨⟨hwhole, hran⟩, hbs⟩⟩

/-- What is queued when the idle handle's callback starts has run when it returns, unless it has
been cancelled. -/
theorem ran_of_onIdle (hs : Steady s) (hne : s.ready.toList ≠ [])
    (hrun : Run (system t) (env False) (Meanwhile t n) onIdle s () s' log) :
    ∃ ran, s'.ran = s.ran ++ ran ∧
      (s.ready.toList.filter fun h => !(s'.handles h).cancelled).Sublist ran := by
  obtain ⟨started, s₀, _, _, hclock, hdrain, -⟩ := run_bind_iff.mp hrun
  obtain ⟨_, hrequest, rfl⟩ := run_map_iff.mp hclock
  obtain ⟨-, rfl, -⟩ := run_request_iff.mp hrequest
  obtain ⟨_, s₁, _, _, hloop, hstop, -⟩ := run_bind_iff.mp hdrain
  obtain ⟨rfl, -⟩ := run_modify_iff.mp hstop
  have hlimit : s₀.idleLimit 0 0 = false := by
    have hlen : (s₀.ready.len == 0) = false :=
      beq_eq_false_iff_ne.mpr fun h => hne ((Queue.len_eq_zero_iff _).mp h)
    simp [State.idleLimit, hlen]
  obtain ⟨s₂, log₁, log₂, hbatch, -, hrest⟩ :=
    run_idleBody_of_room hlimit (run_invoke_iff.mp hloop)
  obtain ⟨⟨ran, hran, -, hall⟩, hordered, hrely⟩ :=
    Batch.ran (b := ⟨s₀, s₂, log₁⟩) hs.ordered hbatch
  have hs₂ : Steady s₂ := (steady_of_run hs (Order.keeps_runReady s₀ hs.ordered)
    (.of_batches batches_runReady) hbatch).1
  -- the rest of the drain
  have hlater : Later s₂ s₁ := by
    rcases hrest with ⟨rfl, -, -⟩ | ⟨-, -, hagain⟩
    · exact .refl _
    · exact (steady_of_run hs₂ ((ordered_verified t).body (.idleLoop _ _ _) s₂
        hs₂.ordered) (turns_idleBody _ _ _) hagain).2
  obtain ⟨more, hmore⟩ := hlater.ran
  refine ⟨ran ++ more, ?_, List.Sublist.trans ?_ (hall.trans (List.sublist_append_left ran more))⟩
  · change s₁.ran = _
    rw [← hmore, hran, List.append_assoc]
  · refine filter_sublist_filter fun h hh hlive => hlater.live ?_ hlive
    exact (hs.ordered.queued_ready hh).trans_le hrely.fresh

/-! ### One run -/

theorem steady_of_idle {calls : List (IdleCall T)} (hs : Steady s)
    (h : RunIdle t n s calls s') : Steady s' ∧ Later s s' := by
  cases h with
  | inactive => exact ⟨hs, .refl s⟩
  | active i hstart hrun => exact steady_of_entry .onIdle hs hstart hrun

theorem steady_of_uvLoop {alive : Bool} {calls : List (IdleCall T)} (hs : Steady s)
    (h : UvLoop t n alive s calls s') :
    (Steady s' ∧ Later s s') ∧ ∀ i ∈ calls, Steady i.before ∧
      Run (system t) (env False) (Meanwhile t n) (onIdle : P T Unit) i.before () i.after i.log := by
  induction h with
  | exit => exact ⟨⟨hs, .refl _⟩, by simp⟩
  | iterate _ h₁ h₂ h₃ h₄ h₅ h₆ _ _ ih =>
    obtain ⟨⟨hs₁, hlater₁⟩, -⟩ := steady_of_other hs h₁
    obtain ⟨hs₂, hlater₂⟩ := steady_of_idle hs₁ h₂
    obtain ⟨⟨hs₃, hlater₃⟩, -⟩ := steady_of_other hs₂ h₃
    obtain ⟨⟨hs₄, hlater₄⟩, -⟩ := steady_of_poll hs₃ h₄
    obtain ⟨⟨hs₅, hlater₅⟩, -⟩ := steady_of_other hs₄ h₅
    obtain ⟨⟨hs₆, hlater₆⟩, -⟩ := steady_of_timers hs₅ h₆
    obtain ⟨⟨hs', hlater'⟩, hcalls⟩ := ih hs₆
    refine ⟨⟨hs', ?_⟩, fun i hi => ?_⟩
    · exact hlater₁.trans (hlater₂.trans (hlater₃.trans (hlater₄.trans (hlater₅.trans
        (hlater₆.trans hlater')))))
    · rcases List.mem_append.mp hi with hi | hi
      · cases h₂ with
        | inactive => cases hi
        | active i' hstart hrun =>
          obtain rfl := List.mem_singleton.mp hi
          exact ⟨hs₁, hrun⟩
      · exact hcalls i hi

/-- `_run` up to `uv_run` starts the idle handle if there is something to run. -/
theorem entered_of_runBegin {r : Except Error Unit} (hs : Steady s)
    (hrun : Run (system t) (env False) (Meanwhile t n) (runBegin : P T _) s r s' log) :
    (Steady s' ∧ Later s s') ∧ Frame s s' ∧
      (r = .ok () → s.ready.toList ≠ [] → s'.uvIdle = true) := by
  refine ⟨steady_of_run hs (Order.keeps_runBegin s hs.ordered) (.of_schedules schedules_runBegin)
    hrun, frame_of_run (E := env False) (fun _ _ _ h => h.1) t schedules_runBegin hrun,
    fun hok hne => ?_⟩
  have hrest := run_read_bind_iff.mp hrun
  split at hrest
  · obtain ⟨rfl, -⟩ := run_pure_iff.mp hrest
    cases hok
  split at hrest
  · obtain ⟨rfl, -⟩ := run_pure_iff.mp hrest
    cases hok
  obtain ⟨_, hbegun, -⟩ := run_modify_bind_iff.mp hrest
  obtain ⟨_, hstarted, -⟩ := run_modify_bind_iff.mp hbegun
  obtain ⟨_, s₁, _, _, harm, hlast, -⟩ := run_bind_iff.mp hstarted
  obtain ⟨-, rfl, -⟩ := run_pure_iff.mp hlast
  -- arming the timer leaves the idle handle active
  have hframe := frame_of_run (E := env False) (fun _ _ _ h => h.1) t schedules_armTimer harm
  refine (hframe.idle ?_).2
  have hlen : (s.ready.len == 0) = false :=
    beq_eq_false_iff_ne.mpr fun h => hne ((Queue.len_eq_zero_iff _).mp h)
  have hflag := hs.idle
  simp only [State.setCore, Core.startIdle, bne, hlen, Bool.not_false, Bool.and_true]
  split
  · exact ⟨rfl, rfl⟩
  · rename_i hactive
    have hactive : s.idleActive = true := by simpa using hactive
    exact ⟨hactive, hflag ▸ hactive⟩

/-- `_run` from the return of `uv_run` on changes only the flags. -/
theorem returned_of_runEnd {fatal : Bool}
    (hrun : Run (system t) (env False) (Meanwhile t n) (runEnd : P T Bool) s fatal s' log) :
    s'.ran = s.ran ∧ s'.handles = s.handles := by
  obtain ⟨_, hlast, -⟩ := run_modify_bind_iff.mp (run_read_bind_iff.mp hrun)
  obtain ⟨-, rfl, -⟩ := run_pure_iff.mp hlast
  exact ⟨rfl, rfl⟩

/-- A run ends as it has to, and so do the calls of the idle handle's callback in it. -/
theorem Forever.steady {r : Forever T} (hs : Steady r.start) (hr : r.IsRun t n) :
    (Steady r.returned ∧ Later r.entered r.returned) ∧ ∀ i ∈ r.calls, Steady i.before ∧
      Run (system t) (env False) (Meanwhile t n) (onIdle : P T Unit) i.before () i.after i.log := by
  obtain ⟨⟨log₁, hbegin⟩, ⟨alive, -, hhead, hloop⟩, ⟨fatal, log₂, hend⟩⟩ := hr
  obtain ⟨⟨hs₁, -⟩, -⟩ := entered_of_runBegin hs hbegin
  have hhead' : Steady r.head ∧ Later r.entered r.head := by
    split at hhead
    · exact (steady_of_timers hs₁ hhead).1
    · rw [hhead]
      exact ⟨hs₁, .refl _⟩
  obtain ⟨⟨hs₂, hlater₂⟩, hcalls⟩ := steady_of_uvLoop hhead'.1 hloop
  have hwp : (runEnd : P T Bool).wp (env False) orderSpec
      (fun _ s' => Ordered s' ∧ OrderRely r.left s') r.left :=
    ⟨hs₂.ordered.setCore rfl, .setCore _ _⟩
  obtain ⟨hs₃, hlater₃⟩ := steady_of_run hs₂ hwp turns_runEnd hend
  exact ⟨⟨hs₃, hhead'.2.trans (hlater₂.trans hlater₃)⟩, hcalls⟩

/-- A loop that is alive and has not been asked to stop reaches its idle phase. -/
theorem idle_of_uvLoop {calls : List (IdleCall T)} (hs : Steady s) (hclear : s.uvStop = false)
    (h : UvLoop t n true s calls s') :
    ∃ s₁ s₂ calls₁, (Steady s₁ ∧ Frame s s₁) ∧ RunIdle t n s₁ calls₁ s₂ ∧ Later s₂ s' := by
  cases h with
  | exit hexit =>
    rw [hclear] at hexit
    simp at hexit
  | iterate _ h₁ h₂ h₃ h₄ h₅ h₆ _ hrest =>
    obtain ⟨⟨hs₁, -⟩, hframe⟩ := steady_of_other hs h₁
    obtain ⟨hs₂, -⟩ := steady_of_idle hs₁ h₂
    obtain ⟨⟨hs₃, hlater₃⟩, -⟩ := steady_of_other hs₂ h₃
    obtain ⟨⟨hs₄, hlater₄⟩, -⟩ := steady_of_poll hs₃ h₄
    obtain ⟨⟨hs₅, hlater₅⟩, -⟩ := steady_of_other hs₄ h₅
    obtain ⟨⟨hs₆, hlater₆⟩, -⟩ := steady_of_timers hs₅ h₆
    obtain ⟨⟨-, hlater'⟩, -⟩ := steady_of_uvLoop hs₆ hrest
    exact ⟨_, _, _, ⟨hs₁, hframe⟩, h₂,
      hlater₃.trans (hlater₄.trans (hlater₅.trans (hlater₆.trans hlater')))⟩

/-- A run whose loop libuv enters with its flag clear runs all that was queued when it started. -/
theorem Forever.runsQueued {r : Forever T} (hs : Steady r.start) (hr : r.IsRun t n)
    (hclear : r.head.uvStop = false) : r.RunsQueued := by
  rw [Forever.RunsQueued]
  by_cases hne : r.start.ready.toList = []
  · rw [hne]
    exact List.nil_sublist _
  obtain ⟨⟨log₁, hbegin⟩, ⟨alive, halive, hhead, hloop⟩, ⟨fatal, log₂, hend⟩⟩ := hr
  obtain ⟨⟨hs₁, -⟩, hframe₁, hstarted⟩ := entered_of_runBegin hs hbegin
  have hidle₁ : r.entered.uvIdle = true := hstarted rfl hne
  have hentered : r.entered.uvStop = false := by
    by_contra hset
    rw [if_neg fun h => hset h.2] at hhead
    exact hset (hhead ▸ hclear)
  obtain rfl := halive hidle₁
  rw [if_pos ⟨rfl, hentered⟩] at hhead
  obtain ⟨⟨hs₂, -⟩, hframe₂⟩ := steady_of_timers hs₁ hhead
  obtain ⟨s₃, s₄, calls, ⟨hs₃, hframe₃⟩, hidle, hlater⟩ := idle_of_uvLoop hs₂ hclear hloop
  -- until then nothing has run, nothing was taken off the queue, and the idle handle is active
  have hframe := (hframe₁.trans hframe₂).trans hframe₃
  have hidle₃ := (hframe₂.trans hframe₃).idle ⟨hs₁.idle.trans hidle₁, hidle₁⟩
  obtain ⟨more, hmore⟩ := hframe.ready
  obtain ⟨hran_end, hhandles_end⟩ := returned_of_runEnd hend
  cases hidle with
  | inactive hno =>
    rw [hidle₃.2] at hno
    cases hno
  | active i hstart hrun =>
    have hne₃ : i.before.ready.toList ≠ [] := by
      rw [← hmore]
      exact List.append_ne_nil_of_left_ne_nil hne _
    obtain ⟨ran, hran, hall⟩ := ran_of_onIdle hs₃ hne₃ hrun
    obtain ⟨hs₄, hlater₄⟩ := steady_of_entry .onIdle hs₃ hstart hrun
    obtain ⟨rest, hrest⟩ := hlater.ran
    -- the new callbacks are those of the idle phase, and those after it
    have hnew : r.ran = ran ++ rest := by
      rw [Forever.ran, hran_end, ← hrest, hran, hframe.ran, List.append_assoc,
        List.drop_left]
    rw [hnew, hhandles_end]
    refine List.Sublist.trans ?_ (List.sublist_append_left ran rest)
    refine List.Sublist.trans ?_ hall
    rw [← hmore, List.filter_append]
    refine List.Sublist.trans (filter_sublist_filter fun h hh hlive => ?_)
      (List.sublist_append_left _ _)
    refine hlater.live (lt_of_lt_of_le ?_ hlater₄.rely.fresh) hlive
    refine hs₃.ordered.queued_ready ?_
    rw [← hmore]
    exact List.mem_append_left _ hh

theorem UvLoop.eq_of_stopped {alive : Bool} {calls : List (IdleCall T)}
    (h : UvLoop t n alive s calls s') (hstop : s.uvStop = true) : s' = s := by
  cases h with
  | exit => rfl
  | iterate hno =>
    rw [hstop] at hno
    cases hno

/-- A run that starts with libuv's flag set runs nothing. -/
theorem Forever.skips {r : Forever T} (hs : Steady r.start) (hr : r.IsRun t n)
    (hstop : r.Stopped) : r.ran = [] ∧ r.returned.handles = r.entered.handles := by
  obtain ⟨⟨log₁, hbegin⟩, ⟨alive, -, hhead, hloop⟩, ⟨fatal, log₂, hend⟩⟩ := hr
  obtain ⟨-, hframe, -⟩ := entered_of_runBegin hs hbegin
  have hentered : r.entered.uvStop = true := hframe.uvStop hstop
  rw [if_neg fun h => by simp [hentered] at h] at hhead
  have hleft : r.left = r.entered := (hloop.eq_of_stopped (hhead ▸ hentered)).trans hhead
  obtain ⟨hran, hhandles⟩ := returned_of_runEnd hend
  rw [hleft] at hran hhandles
  exact ⟨by rw [Forever.ran, hran, hframe.ran, List.drop_length], hhandles⟩

/-- A `stop()` before a run is honoured if and only if the run is clear. -/
theorem Forever.honoured_iff {r : Forever T} (hs : Steady r.start) (hr : r.IsRun t n) :
    (r.Stopped → r.RunsQueued) ↔ r.Clear := by
  refine ⟨fun h => ?_, fun h hstop => ?_⟩
  · by_cases hstop : r.Stopped
    · obtain ⟨hran, hhandles⟩ := r.skips hs hr hstop
      have hqueued := h hstop
      rw [Forever.RunsQueued, hran, hhandles, List.sublist_nil, List.filter_eq_nil_iff] at hqueued
      exact .inr fun k hk => by simpa using hqueued k hk
    · exact .inl (Bool.eq_false_iff.mpr hstop)
  · obtain ⟨hran, hhandles⟩ := r.skips hs hr hstop
    rcases h with hclear | hcancelled
    · rw [Forever.Stopped, hclear] at hstop
      cases hstop
    · rw [Forever.RunsQueued, hran, hhandles, List.sublist_nil, List.filter_eq_nil_iff]
      exact fun k hk => by simp [hcancelled k hk]

theorem Session.steady {rs : List (Forever T)} (h : Session t n s rs) :
    Steady s ∧ ∀ r ∈ rs, Steady r.start ∧ r.IsRun t n := by
  induction h with
  | init => exact ⟨⟨ordered_init t, rfl⟩, by simp⟩
  | python c _ hpython ih => exact ⟨(steady_of_meanwhile ih.1 hpython).1, ih.2⟩
  | forever r _ hr ih =>
    refine ⟨(r.steady ih.1 hr).1.1, fun r' hr' => ?_⟩
    rcases List.mem_append.mp hr' with hr' | hr'
    · exact ih.2 r' hr'
    · obtain rfl := List.mem_singleton.mp hr'
      exact ⟨ih.1, hr⟩

end Runs

/-! ## When `stop()` is honoured -/

/-- `stop()` sets libuv's flag, and nothing clears it until `uv_run` returns. -/
theorem uvStop_of_stop [Add T] [Zero T] [Inhabited T] {t : T} {n : ℕ} {c : Callback}
    {s s₁ s' : State T} {log : Log (sig T)} (hopen : s.closed = false)
    (hstop : Run (system t) (env False) (Meanwhile t n) (stop : P T Unit) s () s₁ log)
    (hpython : Meanwhile t n c s₁ s') : s'.uvStop = true := by
  obtain ⟨rfl, -⟩ := run_modify_iff.mp hstop
  refine (frame_of_meanwhile hpython).uvStop ?_
  change (s.uvStop || !s.closed) = true
  rw [hopen, Bool.not_false, Bool.or_true]

/-- Over every session: a `stop()` while the loop does not run makes the next run skip what is
queued, unless all of it is cancelled. A run whose loop libuv enters with its flag clear runs all
that was queued when it started; and every batch, whether one of its callbacks stops the loop or
not, runs all that was queued when it started. -/
theorem stop_honoured_iff [Add T] [Zero T] [Inhabited T] (t : T) (n : ℕ) {s : State T}
    {rs : List (Forever T)} (h : Session t n s rs) :
    ((∀ r ∈ rs, r.Stopped → r.RunsQueued) ↔ ∀ r ∈ rs, r.Clear) ∧
      (∀ r ∈ rs, r.head.uvStop = false → r.RunsQueued) ∧
      ∀ r ∈ rs, ∀ i ∈ r.calls, ∃ (bs : List (Batch T)) (s₁ : State T),
        i.log = bs.flatMap Batch.log ++ [.set s₁ i.after] ∧
        ∀ b ∈ bs, takenIn b.log = b.before.ready.toList ∧
          RanAll b.before.ready.toList b.before b.after := by
  obtain ⟨-, hrs⟩ := h.steady
  refine ⟨forall₂_congr fun r hr => ?_, fun r hr => ?_, fun r hr i hi => ?_⟩
  · exact r.honoured_iff (hrs r hr).1 (hrs r hr).2
  · exact r.runsQueued (hrs r hr).1 (hrs r hr).2
  · obtain ⟨hs, hrun⟩ := (r.steady (hrs r hr).1 (hrs r hr).2).2 i hi
    obtain ⟨started, s₀, _, _, hclock, hdrain, hlog⟩ := run_bind_iff.mp hrun
    obtain ⟨_, hrequest, rfl⟩ := run_map_iff.mp hclock
    obtain ⟨-, rfl, rfl⟩ := run_request_iff.mp hrequest
    obtain ⟨_, s₁, log₁, log₂, hloop, hstop, rfl⟩ := run_bind_iff.mp hdrain
    obtain ⟨hafter, rfl⟩ := run_modify_iff.mp hstop
    obtain ⟨bs, rfl, hbs⟩ := batches_of_idleBody hs.ordered (run_invoke_iff.mp hloop)
    exact ⟨bs, s₁, by rw [hlog, hafter, List.nil_append], hbs⟩

/-! ### Two sessions -/

section Examples

/-- Python code starts one entry point, with the given answers. -/
theorem meanwhile_of_replay {c : Callback} (op : Op ℕ) {s s' : State ℕ} {log : Log (sig ℕ)}
    {ls : List (Label (sig ℕ))} (hstart : Startable [c] s op)
    (h : replay (system 0) (env False) 8 [c] ((system 0).entry op) s ls = some (s', log, [])) :
    Meanwhile 0 9 c s s' :=
  .single ⟨op, log, ⟨hstart, fun h => h.elim⟩, run_of_replay h⟩

/-- `_run` up to `uv_run`, with nothing to collect. -/
theorem runBegin_of_replay {s s' : State ℕ} {r : Except Error Unit} {log : Log (sig ℕ)}
    (h : (runBegin : P ℕ _).replay (env False) (fun _ s ls => some (s, ls))
      (fun f => replay (system 0) (env False) 8 [] ((system 0).body f)) s [] =
        some (r, s', log, [])) :
    Run (system 0) (env False) (Meanwhile 0 9) (runBegin : P ℕ _) s r s' log := by
  refine Prog.run_of_replay (fun c s ls s₁ ls₁ h => ?_) (fun f s ls s₁ log ls₁ h => ?_) h
  · cases h
    exact .refl
  · exact (run_of_replay h).mono fun c _ _ hc => hc.succ

theorem run_runEnd (s : State ℕ) : ∃ log, Run (system 0) (env False) (Meanwhile 0 9)
    (runEnd : P ℕ Bool) s s.fatal (s.setCore fun c =>
      { c with running := false, stopping := false, fatal := false, uvStop := false }) log :=
  ⟨_, run_read_bind_iff.mpr (run_modify_bind_iff.mpr ⟨[], .ret _ _, rfl⟩)⟩

/-- A callback is queued, the loop is stopped, and the loop runs: the callback does not. -/
theorem stop_skips :
    ¬ ∀ (n : ℕ) (s : State ℕ) (rs : List (Forever ℕ)), Session 0 n s rs →
      ∀ r ∈ rs, r.Stopped → r.RunsQueued := by
  intro hall
  let yes : Label (sig ℕ) := .answer ⟨true, 0, 0⟩
  obtain ⟨s₁, s₂, s₃, log₁, log₂, log₃, hsoon, hstop, hbegin, hready, hset, hset₃, hlive, hran⟩ :
      ∃ s₁ s₂ s₃ log₁ log₂ log₃,
        replay (system 0) (env False) 8 [.finalizer] ((system 0).entry .callSoon) (State.init 0)
          [yes, yes, yes] = some (s₁, log₁, []) ∧
        replay (system 0) (env False) 8 [.finalizer] ((system 0).entry .stop) s₁ [] =
          some (s₂, log₂, []) ∧
        (runBegin : P ℕ _).replay (env False) (fun _ s ls => some (s, ls))
          (fun f => replay (system 0) (env False) 8 [] ((system 0).body f)) s₂ [] =
            some (.ok (), s₃, log₃, []) ∧
        s₂.ready.toList = [0] ∧ s₂.uvStop = true ∧ s₃.uvStop = true ∧
        (s₃.handles 0).cancelled = false ∧ s₃.ran = [] :=
    ⟨_, _, _, _, _, _, rfl, rfl, rfl, rfl, rfl, rfl, rfl, rfl⟩
  let r : Forever ℕ :=
    { start := s₂, entered := s₃, head := s₃, left := s₃,
      returned := s₃.setCore fun c =>
        { c with running := false, stopping := false, fatal := false, uvStop := false },
      calls := [] }
  have hr : r.IsRun 0 9 := by
    refine ⟨⟨log₃, runBegin_of_replay hbegin⟩, ⟨true, fun _ => rfl, ?_, .exit (.inr hset₃)⟩,
      ⟨s₃.fatal, run_runEnd s₃⟩⟩
    rw [if_neg fun h => by simp [r, hset₃] at h]
  have hsession : Session 0 9 r.returned ([] ++ [r]) :=
    .forever r (.python .finalizer (.python .finalizer .init (meanwhile_of_replay .callSoon trivial
      hsoon))
      (meanwhile_of_replay .stop trivial hstop)) hr
  have hqueued := hall 9 _ _ hsession r (by simp) hset
  -- the callback is queued and not cancelled, and none has run
  have hnone : r.ran = [] := by
    have hreturned : r.returned.ran = [] := hran
    rw [Forever.ran, hreturned, List.drop_nil]
  have hfilter :
      (r.start.ready.toList.filter fun h => !(r.returned.handles h).cancelled) = [0] := by
    have hstart : r.start.ready.toList = [0] := hready
    have hhandle : (r.returned.handles 0).cancelled = false := hlive
    rw [hstart]
    simp [hhandle]
  rw [Forever.RunsQueued, hnone, hfilter] at hqueued
  exact absurd (List.sublist_nil.mp hqueued) (List.cons_ne_nil _ _)

/-- Two callbacks are queued, and the first stops the loop: the second still runs. -/
theorem stop_honoured_in_batch :
    ∃ (s : State ℕ) (r : Forever ℕ), Session 0 9 s [r] ∧ r.start.ready.toList = [0, 1] ∧
      r.head.uvStop = false ∧ r.left.uvStop = true ∧ r.RunsQueued ∧ r.ran = [0, 1] := by
  let yes : Label (sig ℕ) := .answer ⟨true, 0, 0⟩
  let fin : Label (sig ℕ) := .resume .returned
  obtain ⟨s₁, s₂, s₃, s₄, log₁, log₂, log₃, log₄, hfirst, hsecond, hbegin, hidle, hstart, hready,
      hset, hset₃, hset₄, hran₂, hran₄⟩ :
      ∃ s₁ s₂ s₃ s₄ log₁ log₂ log₃ log₄,
        replay (system 0) (env False) 8 [.finalizer] ((system 0).entry .callSoon) (State.init 0)
          [yes, yes, yes] = some (s₁, log₁, []) ∧
        replay (system 0) (env False) 8 [.finalizer] ((system 0).entry .callSoon) s₁
          [yes, yes, yes] = some (s₂, log₂, []) ∧
        (runBegin : P ℕ _).replay (env False) (fun _ s ls => some (s, ls))
          (fun f => replay (system 0) (env False) 8 [] ((system 0).body f)) s₂ [] =
            some (.ok (), s₃, log₃, []) ∧
        replay (system 0) (env False) 9 [] onIdle s₃
          [yes, yes, yes, .start .stop, fin, fin, yes, yes, fin, fin] = some (s₄, log₄, []) ∧
        Startable [] s₃ .onIdle ∧ s₂.ready.toList = [0, 1] ∧ s₂.uvStop = false ∧
        s₃.uvStop = false ∧ s₄.uvStop = true ∧ s₂.ran = [] ∧ s₄.ran = [0, 1] :=
    ⟨_, _, _, _, _, _, _, _, rfl, rfl, rfl, rfl, by decide, rfl, rfl, rfl, rfl, rfl, rfl⟩
  let i : IdleCall ℕ := ⟨s₃, s₄, log₄⟩
  let r : Forever ℕ :=
    { start := s₂, entered := s₃, head := s₃, left := s₄,
      returned := s₄.setCore fun c =>
        { c with running := false, stopping := false, fatal := false, uvStop := false },
      calls := [i] ++ [] }
  have hactive : RunIdle 0 9 s₃ [i] s₄ := .active i hstart (run_of_replay hidle)
  have hr : r.IsRun 0 9 := by
    refine ⟨⟨log₃, runBegin_of_replay hbegin⟩, ⟨true, fun _ => rfl, ?_,
      .iterate hset₃ .refl hactive .refl .refl .refl .refl (fun _ => rfl) (.exit (.inr hset₄))⟩,
      ⟨s₄.fatal, run_runEnd s₄⟩⟩
    rw [if_pos ⟨rfl, hset₃⟩]
    exact .refl
  have hsession : Session 0 9 r.returned ([] ++ [r]) :=
    .forever r (.python .finalizer (.python .finalizer .init (meanwhile_of_replay .callSoon trivial
      hfirst))
      (meanwhile_of_replay .callSoon trivial hsecond)) hr
  have hran : r.ran = [0, 1] := by
    have hreturned : r.returned.ran = [0, 1] := hran₄
    have hstarted : r.start.ran = [] := hran₂
    rw [Forever.ran, hreturned, hstarted]
    rfl
  exact ⟨_, r, hsession, hready, hset₃, hset₄,
    (stop_honoured_iff 0 9 hsession).2.1 r (by simp) hset₃, hran⟩

end Examples

end Zuvloop.Loop
