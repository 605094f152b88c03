import Zuvloop.Loop.Scheduling

/-!
# Registration order

Handles travel from `call_soon_threadsafe` through the inbox into the ready queue, and from
`call_soon` straight into the ready queue, which is first topped up from the inbox. `Ordered` is the
invariant behind this: what has run, followed by the ready queue, followed by the inbox, is the
sequence of registrations, as far as handles are concerned that have not been cancelled.

The invariant holds whenever Python code runs, so it covers every interleaving of the loop
with calls from other threads, from callbacks, from finalizers and from exception handlers.
-/

namespace Zuvloop.Loop

open Reentrant

variable {T : Type} [LinearOrder T]

/-! ## The invariant -/

/-- A handle of `call_soon` or `call_soon_threadsafe` that has not been cancelled. -/
def State.live (s : State T) (h : ℕ) : Bool :=
  decide ((s.handles h).kind = .soon ∨ (s.handles h).kind = .threadsafe) &&
    !(s.handles h).cancelled

/-- Everything that has run or is queued, in order. -/
def State.passage (s : State T) : List ℕ :=
  s.ran ++ s.ready.toList ++ s.threadsafeReady.toList

/-- The invariant of the two queues. -/
structure Ordered (s : State T) : Prop where
  /-- What has run and what is queued is what was registered, in the same order. -/
  order : s.passage.filter s.live = s.registered.filter s.live
  /-- Nothing is registered twice. -/
  nodup : s.registered.Nodup
  /-- Registered handles exist. -/
  known : ∀ h ∈ s.registered, h < s.fresh
  /-- Handles that have run or are queued exist. -/
  queued : ∀ h ∈ s.passage, h < s.fresh
  /-- The heap holds timers. -/
  heap : ∀ e ∈ s.timers.contents, e.handle < s.fresh ∧ (s.handles e.handle).kind = .timer
  /-- Only a cancelled handle has lost its callback. -/
  callback : ∀ h < s.fresh, (s.handles h).cancelled = false → (s.handles h).callback = true
  /-- A thread-safe handle that has not run is pending, unless it was cancelled. -/
  pending : ∀ h < s.fresh, (s.handles h).kind = .threadsafe → (s.handles h).cancelled = false →
    h ∉ s.ran → (s.handles h).runState = .pending
  /-- Cancelling a pending thread-safe handle ends its pending state. -/
  settled : ∀ h < s.fresh, (s.handles h).kind = .threadsafe →
    (s.handles h).runState = .pending → (s.handles h).cancelled = false

/-- What Python code leaves in place: the handles that exist, what has run, what is cancelled. -/
structure OrderRely (s s' : State T) : Prop where
  /-- No handle goes away. -/
  fresh : s.fresh ≤ s'.fresh
  /-- What has run stays run. -/
  ran : ∀ h ∈ s.ran, h ∈ s'.ran
  /-- A handle keeps its type. -/
  kind : ∀ h < s.fresh, (s'.handles h).kind = (s.handles h).kind
  /-- What is cancelled stays cancelled. -/
  cancelled : ∀ h < s.fresh, (s.handles h).cancelled = true → (s'.handles h).cancelled = true

namespace OrderRely

theorem refl (s : State T) : OrderRely s s :=
  ⟨le_rfl, fun _ h => h, fun _ _ => rfl, fun _ _ h => h⟩

theorem trans {s₁ s₂ s₃ : State T} (h₁ : OrderRely s₁ s₂) (h₂ : OrderRely s₂ s₃) :
    OrderRely s₁ s₃ where
  fresh := h₁.fresh.trans h₂.fresh
  ran := fun h hh => h₂.ran h (h₁.ran h hh)
  kind := fun h hh => (h₂.kind h (hh.trans_le h₁.fresh)).trans (h₁.kind h hh)
  cancelled := fun h hh hc =>
    h₂.cancelled h (hh.trans_le h₁.fresh) (h₁.cancelled h hh hc)

/-- A step that leaves the history and the handles alone. -/
theorem of_eq {s s' : State T} (hhist : s'.history = s.history) (hhand : s'.handles = s.handles)
    (hfresh : s'.fresh = s.fresh) : OrderRely s s' where
  fresh := hfresh.ge
  ran := fun h hh => by rwa [State.ran, hhist]
  kind := fun h _ => by rw [hhand]
  cancelled := fun h _ hc => by rwa [hhand]

end OrderRely

/-- The specification every program of the loop meets. -/
def orderSpec : Spec (sig T) := .keeping (S := sig T) Ordered OrderRely

/-! ## What each update does to the invariant -/

section Updates

variable {s s' : State T}

/-- The invariant reads the queues, the history, the handles and the heap. -/
theorem Ordered.frame (h : Ordered s) (hready : s'.ready.toList = s.ready.toList)
    (hinbox : s'.threadsafeReady.toList = s.threadsafeReady.toList)
    (hran : s'.ran = s.ran) (hreg : s'.registered = s.registered)
    (hhand : s'.handles = s.handles) (hfresh : s'.fresh = s.fresh)
    (hheap : ∀ e ∈ s'.timers.contents, e ∈ s.timers.contents) : Ordered s' := by
  have hlive : s'.live = s.live := by
    funext h
    rw [State.live, State.live, hhand]
  have hpass : s'.passage = s.passage := by
    rw [State.passage, State.passage, hran, hready, hinbox]
  obtain ⟨h1, h2, h3, h4, h5, h6, h7, h8⟩ := h
  refine ⟨?_, ?_, ?_, ?_, fun e he => ?_, ?_, ?_, ?_⟩
  · rwa [hlive, hpass, hreg]
  · rwa [hreg]
  · rwa [hreg, hfresh]
  · rwa [hpass, hfresh]
  · rw [hhand, hfresh]
    exact h5 e (hheap e he)
  · rwa [hhand, hfresh]
  · rwa [hhand, hfresh, hran]
  · rwa [hhand, hfresh]

/-- Lists that agree up to a predicate agree up to any stronger one. -/
theorem filter_eq_filter_of_imp {α : Type} {l₁ l₂ : List α} {p q : α → Bool}
    (h : l₁.filter p = l₂.filter p) (hqp : ∀ a, q a = true → p a = true) :
    l₁.filter q = l₂.filter q := by
  have hand : ∀ a, (p a && q a) = q a := fun a => by
    cases hq : q a with
    | false => rw [Bool.and_false]
    | true => rw [hqp a hq, Bool.true_and]
  have hstep : ∀ l : List α, l.filter q = (l.filter p).filter q := fun l => by
    rw [List.filter_filter]
    exact List.filter_congr fun a _ => by rw [Bool.and_comm, hand]
  rw [hstep, hstep l₂, h]

section HandleStep

omit [LinearOrder T]

/-- A change to the handles that respects their protocols. -/
structure HandleStep (ran : List ℕ) (h : ℕ) (r r' : HandleRec T) : Prop where
  /-- The type stays. -/
  kind : r'.kind = r.kind
  /-- Cancellation is final. -/
  cancelled : r.cancelled = true → r'.cancelled = true
  /-- The callback goes only with a cancellation. -/
  callback : r'.cancelled = false → r.callback = true → r'.callback = true
  /-- A thread-safe handle that has not run stays pending, unless it is cancelled. -/
  pending : r.kind = .threadsafe → r'.cancelled = false → h ∉ ran → r.runState = .pending →
    r'.runState = .pending
  /-- A handle that is still pending has not been cancelled by this step. -/
  settled : r.kind = .threadsafe → r'.runState = .pending →
    r.runState = .pending ∧ r'.cancelled = r.cancelled

theorem HandleStep.refl (ran : List ℕ) (h : ℕ) (r : HandleRec T) : HandleStep ran h r r :=
  ⟨rfl, fun h => h, fun _ h => h, fun _ _ _ h => h, fun _ h => ⟨h, rfl⟩⟩

/-- Setting or clearing the running flag of a handle. -/
theorem HandleStep.setRunning {ran : List ℕ} {h : ℕ} (r : HandleRec T) (b : Bool) :
    HandleStep ran h r (r.setRunning b) :=
  ⟨rfl, fun h => h, fun _ h => h, fun _ _ _ h => h, fun _ h => ⟨h, rfl⟩⟩

/-- A timer leaving the scheduler. -/
theorem HandleStep.clearScheduled {ran : List ℕ} {h : ℕ} (r : HandleRec T) :
    HandleStep ran h r r.clearScheduled :=
  ⟨rfl, fun h => h, fun _ h => h, fun _ _ _ h => h, fun _ h => ⟨h, rfl⟩⟩

/-- A timer marked as ready. -/
theorem HandleStep.markReady {ran : List ℕ} {h : ℕ} (r : HandleRec T) :
    HandleStep ran h r r.markReady :=
  ⟨rfl, fun h => h, fun _ h => h, fun _ _ _ h => h, fun _ h => ⟨h, rfl⟩⟩

/-- Releasing the callback of a cancelled handle. -/
theorem HandleStep.dropCallback {ran : List ℕ} {h : ℕ} {r : HandleRec T}
    (hc : r.cancelled = true) : HandleStep ran h r r.dropCallback :=
  ⟨rfl, fun h => h, fun hf => absurd hc (by simpa [HandleRec.dropCallback] using hf),
    fun _ _ _ h => h, fun _ h => ⟨h, rfl⟩⟩

/-- A handle that has run may take any state word but the pending one. -/
theorem HandleStep.setRunState {ran : List ℕ} {h : ℕ} (r : HandleRec T) {w : RunState}
    (hw : w ≠ .pending) (hran : h ∈ ran) : HandleStep ran h r (r.setRunState w) :=
  ⟨rfl, fun h => h, fun _ h => h, fun _ _ hn => absurd hran hn, fun _ h => absurd h hw⟩

/-- Cancelling a handle that is not a thread-safe one, or no longer pending. -/
theorem HandleStep.cancel {ran : List ℕ} {h : ℕ} {r : HandleRec T}
    (hr : r.kind = .threadsafe → r.runState ≠ .pending) : HandleStep ran h r r.cancel :=
  ⟨rfl, fun _ => rfl, nofun, nofun, fun hk hp => absurd hp (hr hk)⟩

end HandleStep

theorem Ordered.of_handles (h : Ordered s) {handles : ℕ → HandleRec T}
    (hstep : ∀ k < s.fresh, HandleStep s.ran k (s.handles k) (handles k)) :
    Ordered { s with handles } := by
  obtain ⟨h1, h2, h3, h4, h5, h6, h7, h8⟩ := h
  have hlive : ∀ k < s.fresh, State.live { s with handles } k = true → s.live k = true := by
    intro k hk hl
    simp only [State.live, Bool.and_eq_true, decide_eq_true_eq, Bool.not_eq_true'] at hl ⊢
    rw [(hstep k hk).kind] at hl
    refine ⟨hl.1, ?_⟩
    cases hc : (s.handles k).cancelled with
    | false => rfl
    | true => rw [(hstep k hk).cancelled hc] at hl; exact hl.2
  refine ⟨?_, h2, h3, h4, fun e he => ?_, fun k hk hc => ?_, fun k hk hkind hc hran => ?_,
    fun k hk hkind hpend => ?_⟩
  · -- both lists hold existing handles only, and there liveness can only be lost
    have hsub : ∀ l : List ℕ, (∀ k ∈ l, k < s.fresh) →
        l.filter (State.live { s with handles }) =
          l.filter fun k => State.live { s with handles } k && s.live k := by
      intro l hl
      refine List.filter_congr fun k hk => ?_
      cases hcase : State.live { s with handles } k with
      | false => rfl
      | true => rw [hlive k (hl k hk) hcase]; rfl
    have hpass : State.passage { s with handles } = s.passage := rfl
    have hreg : State.registered { s with handles } = s.registered := rfl
    rw [hpass, hreg, hsub _ h4, hsub _ h3]
    exact filter_eq_filter_of_imp h1 fun k hk => (Bool.and_eq_true_iff.mp hk).2
  · obtain ⟨hlt, hkind⟩ := h5 e he
    exact ⟨hlt, (hstep _ hlt).kind.trans hkind⟩
  · refine (hstep k hk).callback hc (h6 k hk ?_)
    cases hc' : (s.handles k).cancelled with
    | false => rfl
    | true => rw [(hstep k hk).cancelled hc'] at hc; cases hc
  · have hkind' := (hstep k hk).kind ▸ hkind
    refine (hstep k hk).pending hkind' hc hran (h7 k hk hkind' ?_ hran)
    cases hc' : (s.handles k).cancelled with
    | false => rfl
    | true => rw [(hstep k hk).cancelled hc'] at hc; cases hc
  · have hkind' := (hstep k hk).kind ▸ hkind
    obtain ⟨hp, hc⟩ := (hstep k hk).settled hkind' hpend
    exact hc.trans (h8 k hk hkind' hp)

/-- A change to one handle that respects its protocol. -/
theorem Ordered.setHandle (h : Ordered s) (k : ℕ) (f : HandleRec T → HandleRec T)
    (hstep : HandleStep s.ran k (s.handles k) (f (s.handles k))) : Ordered (s.setHandle k f) := by
  refine h.of_handles fun j _ => ?_
  rcases eq_or_ne j k with rfl | hne
  · rw [Function.update_self]
    exact hstep
  · rw [Function.update_of_ne hne]
    exact .refl _ _ _

theorem OrderRely.setHandle (k : ℕ) (f : HandleRec T → HandleRec T)
    (hstep : HandleStep s.ran k (s.handles k) (f (s.handles k))) :
    OrderRely s (s.setHandle k f) := by
  refine ⟨le_rfl, fun _ h => h, fun j _ => ?_, fun j _ hc => ?_⟩
  · rcases eq_or_ne j k with rfl | hne
    · rw [s.handles_setHandle_self]
      exact hstep.kind
    · rw [s.handles_setHandle_of_ne f hne]
  · rcases eq_or_ne j k with rfl | hne
    · rw [s.handles_setHandle_self]
      exact hstep.cancelled hc
    · rwa [s.handles_setHandle_of_ne f hne]

/-- Creating a handle. -/
theorem Ordered.create (h : Ordered s) (kind : HandleKind) (when : T) :
    Ordered (s.create kind when) := by
  have hold : ∀ k < s.fresh, (s.create kind when).handles k = s.handles k := fun k hk =>
    s.handles_create_of_lt kind when hk
  have hnew := s.handles_create_self kind when
  have hlive : ∀ l : List ℕ, (∀ k ∈ l, k < s.fresh) →
      l.filter (s.create kind when).live = l.filter s.live := fun l hl =>
    List.filter_congr fun k hk => by rw [State.live, State.live, hold k (hl k hk)]
  obtain ⟨h1, h2, h3, h4, h5, h6, h7, h8⟩ := h
  refine ⟨?_, h2, fun k hk => (h3 k hk).trans (Nat.lt_succ_self _),
    fun k hk => (h4 k hk).trans (Nat.lt_succ_self _), fun e he => ?_, fun k hk hc => ?_,
    fun k hk hkind hc hran => ?_, fun k hk hkind hpend => ?_⟩
  · have hpass : (s.create kind when).passage = s.passage := rfl
    have hreg : (s.create kind when).registered = s.registered := rfl
    rw [hpass, hreg, hlive _ h4, hlive _ h3]
    exact h1
  · obtain ⟨hlt, hk⟩ := h5 e he
    exact ⟨hlt.trans (Nat.lt_succ_self _), by rw [hold _ hlt]; exact hk⟩
  all_goals
    rcases Nat.lt_succ_iff_lt_or_eq.mp hk with hlt | rfl
  · rw [hold k hlt] at hc ⊢
    exact h6 k hlt hc
  · rw [hnew]
    rfl
  · rw [hold k hlt] at hkind hc ⊢
    exact h7 k hlt hkind hc hran
  · rw [hnew]
    rfl
  · rw [hold k hlt] at hkind hpend ⊢
    exact h8 k hlt hkind hpend
  · rw [hnew]
    rfl

theorem OrderRely.create (s : State T) (kind : HandleKind) (when : T) :
    OrderRely s (s.create kind when) where
  fresh := Nat.le_succ _
  ran := fun _ h => h
  kind := fun k hk => by rw [s.handles_create_of_lt kind when hk]
  cancelled := fun k hk hc => by rwa [s.handles_create_of_lt kind when hk]

/-- Queueing a handle that is not one of the two schedulers'. -/
theorem Ordered.push_other (h : Ordered s) {k : ℕ} (hk : k < s.fresh)
    (hkind : (s.handles k).kind = .timer ∨ (s.handles k).kind = .native) {q : Queue ℕ}
    (hq : q.toList = s.ready.toList ++ [k]) : Ordered (s.setReady q) := by
  have hlive : s.live k = false := by
    rcases hkind with hkind | hkind <;> simp [State.live, hkind]
  have hpass : (s.setReady q).passage =
      s.ran ++ (s.ready.toList ++ [k]) ++ s.threadsafeReady.toList := by
    rw [State.passage, ← hq]
    rfl
  refine ⟨?_, h.nodup, h.known, ?_, h.heap, h.callback, h.pending, h.settled⟩
  · change List.filter s.live (s.setReady q).passage = s.registered.filter s.live
    rw [hpass, ← h.order, State.passage]
    simp [List.filter_append, hlive]
  · rw [hpass]
    intro j hj
    have hall := h.queued j
    simp only [State.passage, List.mem_append, List.mem_singleton] at hj hall
    rcases hj with (hj | hj | rfl) | hj
    · exact hall (Or.inl (Or.inl hj))
    · exact hall (Or.inl (Or.inr hj))
    · exact hk
    · exact hall (Or.inr hj)

/-- Recording an event that is neither a registration nor a run. -/
theorem Ordered.record_other (h : Ordered s) {e : Event T} (hreg : e.registered? = none)
    (hran : e.ran? = none) : Ordered (s.record e) :=
  h.frame rfl rfl (by simp [hran]) (by simp [hreg]) rfl rfl fun _ he => he

end Updates

/-! ## Programs that keep the invariant -/

section Programs

variable {quiet : Prop}

theorem Order.keeps_python (c : Callback) : (python c : P T _).Keeps (env quiet) orderSpec :=
  fun _ hs => wp_python_of_inv OrderRely.refl hs fun _ hrely hinv => ⟨hinv, hrely⟩

/-- Changing the core, but not the ready queue. -/
theorem Ordered.setCore {s : State T} (h : Ordered s) {f : Core ℕ → Core ℕ}
    (hf : (f s.toCore).ready = s.ready) : Ordered (s.setCore f) :=
  h.frame (congrArg (fun q : Queue ℕ => q.toList) hf) rfl rfl rfl rfl rfl fun _ he => he

theorem OrderRely.setReady (s : State T) (q : Queue ℕ) : OrderRely s (s.setReady q) :=
  .of_eq rfl rfl rfl

theorem OrderRely.setTimers (s : State T) (timers : TimerHeap T ℕ) :
    OrderRely s (s.setTimers timers) := .of_eq rfl rfl rfl

theorem OrderRely.setCore (s : State T) (f : Core ℕ → Core ℕ) : OrderRely s (s.setCore f) :=
  .of_eq rfl rfl rfl

theorem Ordered.startIdle {s : State T} (hs : Ordered s) :
    Ordered (s.setCore Core.startIdle) ∧ OrderRely s (s.setCore Core.startIdle) :=
  ⟨hs.setCore s.toCore.startIdle_ready, .setCore s _⟩

theorem Order.keeps_callbackFailed (o : Outcome) :
    (callbackFailed o : P T _).Keeps (env quiet) orderSpec := by
  cases o with
  | returned => exact keeps_python _
  | raised => exact keeps_python _
  | exit => exact fun s hs => ⟨hs.setCore rfl, .setCore s _⟩

/-- Releasing the callback of a cancelled handle. -/
theorem Order.wp_clearCallback {s : State T} (hs : Ordered s) {h : ℕ} (hh : h < s.fresh)
    (hc : (s.handles h).cancelled = true) :
    (clearCallback h).wp (env quiet) orderSpec (fun _ s' => Ordered s' ∧ OrderRely s s') s := by
  simp only [clearCallback, release, Prog.wp_bind, wp_update]
  refine (keeps_python _).wp hs fun _ s₁ hs₁ hrely₁ => ?_
  have hstep : HandleStep s₁.ran h (s₁.handles h) (s₁.handles h).dropCallback :=
    .dropCallback (hrely₁.cancelled h hh hc)
  refine (keeps_python _).wp (hs₁.setHandle h _ hstep) fun _ s₂ hs₂ hrely₂ => ⟨hs₂, ?_⟩
  exact hrely₁.trans ((OrderRely.setHandle h _ hstep).trans hrely₂)

/-! ### Running -/

/-- Running a handle that has been taken off the ready queue: the invariant holds once the run is
recorded. -/
theorem Order.wp_invoke {s : State T} {h : ℕ} (hs : Ordered (s.record (.ran h))) :
    (invoke h).wp (env quiet) orderSpec
      (fun _ s' => Ordered s' ∧ OrderRely (s.record (.ran h)) s') s := by
  simp only [invoke, Prog.wp_bind, wp_update, wp_enterContext, Prog.wp_ite]
  intro entered
  split
  · refine Prog.wp_foreign (OrderRely.refl _) hs fun r s₁ hrely₁ hs₁ => ?_
    cases r with
    | returned => exact ⟨hs₁, hrely₁⟩
    | raised =>
      exact (keeps_callbackFailed .raised).wp hs₁ fun _ s₂ hs₂ hrely₂ => ⟨hs₂, hrely₁.trans hrely₂⟩
    | exit =>
      exact (keeps_callbackFailed .exit).wp hs₁ fun _ s₂ hs₂ hrely₂ => ⟨hs₂, hrely₁.trans hrely₂⟩
  · exact (keeps_callbackFailed .raised).wp hs fun _ s₁ hs₁ hrely₁ => ⟨hs₁, hrely₁⟩

/-- A handle has just been taken off the ready queue. -/
structure Popped (s : State T) (h : ℕ) : Prop where
  /-- Once the run is recorded, the invariant holds. -/
  ordered : Ordered (s.record (.ran h))
  /-- A thread-safe handle that is not cancelled is pending: it has not run before. -/
  pending : (s.handles h).kind = .threadsafe → (s.handles h).cancelled = false →
    (s.handles h).runState = .pending

theorem Popped.lt {s : State T} {h : ℕ} (hp : Popped s h) : h < s.fresh := by
  refine hp.ordered.queued h ?_
  simp [State.passage, Event.ran?]

/-- A handle that does not run because it is not live is dropped. -/
theorem Popped.drop {s : State T} {h : ℕ} (hp : Popped s h) (hlive : s.live h = false) :
    Ordered s := by
  obtain ⟨h1, h2, h3, h4, h5, h6, h7, h8⟩ := hp.ordered
  have hreg : (s.record (.ran h)).registered = s.registered := by simp [Event.registered?]
  have hpass : (s.record (.ran h)).passage =
      s.ran ++ [h] ++ s.ready.toList ++ s.threadsafeReady.toList := by
    rw [State.passage, s.ran_record]
    rfl
  rw [hreg] at h1 h2 h3
  rw [hpass] at h1 h4
  refine ⟨?_, h2, h3, fun k hk => h4 k ?_, h5, h6, fun k hk hkind hc hran => ?_, h8⟩
  · change List.filter s.live _ = List.filter s.live s.registered at h1
    rw [← h1, State.passage]
    simp [List.filter_append, hlive]
  · simp only [State.passage, List.mem_append] at hk ⊢
    tauto
  · refine h7 k hk hkind hc ?_
    rw [s.ran_record]
    simp only [Event.ran?, Option.toList_some, List.mem_append, List.mem_singleton, not_or]
    refine ⟨hran, ?_⟩
    rintro rfl
    simp [State.live, hkind, hc] at hlive

/-- Changes to the handle itself before it runs. -/
theorem Popped.setHandle {s : State T} {h : ℕ} (hp : Popped s h)
    (f : HandleRec T → HandleRec T)
    (hstep : HandleStep (s.record (.ran h)).ran h (s.handles h) (f (s.handles h))) :
    Ordered ((s.setHandle h f).record (.ran h)) :=
  hp.ordered.setHandle h f hstep

theorem OrderRely.record (s : State T) (e : Event T) : OrderRely s (s.record e) where
  fresh := le_rfl
  ran := fun h hh => by rw [s.ran_record]; exact List.mem_append_left _ hh
  kind := fun _ _ => rfl
  cancelled := fun _ _ h => h

/-- The end of a run. -/
theorem Order.wp_finishRun {s : State T} (hs : Ordered s) {h : ℕ} (hh : h < s.fresh) :
    (finishRun h).wp (env quiet) orderSpec (fun _ s' => Ordered s' ∧ OrderRely s s') s := by
  simp only [finishRun, Prog.wp_bind, wp_update, wp_getState, Prog.wp_ite, Prog.wp_pure]
  have hstep : HandleStep s.ran h (s.handles h) ((s.handles h).setRunning false) :=
    .setRunning _ _
  have hrely := OrderRely.setHandle h _ hstep
  split
  · rename_i hc
    exact Prog.wp_mono (wp_clearCallback (hs.setHandle h _ hstep) hh hc)
      fun _ s' hs' => ⟨hs'.1, hrely.trans hs'.2⟩
  · exact ⟨hs.setHandle h _ hstep, hrely⟩

/-- Running a regular handle or a timer: mark it, call it, unmark it. -/
theorem Order.wp_markAndInvoke {s : State T} {h : ℕ} (hp : Popped s h) :
    (do update fun s => s.setHandle h (HandleRec.setRunning true)
        invoke h
        finishRun h : P T Unit).wp (env quiet) orderSpec
      (fun _ s' => Ordered s' ∧ OrderRely s s') s := by
  simp only [Prog.wp_bind, wp_update]
  have hstep : ∀ ran, HandleStep ran h (s.handles h) ((s.handles h).setRunning true) :=
    fun _ => .setRunning _ _
  refine Prog.wp_mono (wp_invoke (hp.setHandle _ (hstep _))) fun _ s₁ hs₁ => ?_
  have hrely :=
    ((OrderRely.setHandle h _ (hstep _)).trans (OrderRely.record _ (.ran h))).trans hs₁.2
  refine Prog.wp_mono (wp_finishRun hs₁.1 (hp.lt.trans_le hrely.fresh)) fun _ s₂ hs₂ => ?_
  exact ⟨hs₂.1, hrely.trans hs₂.2⟩

/-- A handle that is cancelled is not live, and neither is one without a callback. -/
theorem Popped.not_live {s : State T} {h : ℕ} (hp : Popped s h)
    (hskip : ((s.handles h).cancelled || !(s.handles h).callback) = true) :
    s.live h = false := by
  cases hc : (s.handles h).cancelled with
  | true => simp [State.live, hc]
  | false =>
    have hcb := hp.ordered.callback h hp.lt hc
    change (s.handles h).callback = true at hcb
    simp [hc, hcb] at hskip

theorem Order.wp_runHandle {s : State T} {h : ℕ} (hp : Popped s h) :
    (runHandle h).wp (env quiet) orderSpec (fun _ s' => Ordered s' ∧ OrderRely s s') s := by
  simp only [runHandle, Prog.wp_bind, wp_getState, Prog.wp_ite, Prog.wp_pure, wp_alloc, ↓reduceIte]
  split
  · rename_i hskip
    exact ⟨hp.drop (hp.not_live hskip), .refl s⟩
  · simpa only [Prog.wp_bind, wp_update] using wp_markAndInvoke hp

theorem Order.wp_runTimer {s : State T} {h : ℕ} (hp : Popped s h) :
    (runTimer h).wp (env quiet) orderSpec (fun _ s' => Ordered s' ∧ OrderRely s s') s := by
  simp only [runTimer, Prog.wp_bind, wp_getState, Prog.wp_ite, Prog.wp_pure]
  split
  · rename_i hskip
    exact ⟨hp.drop (hp.not_live hskip), .refl s⟩
  · simpa only [Prog.wp_bind, wp_update] using wp_markAndInvoke hp

theorem Order.wp_runThreadsafe {s : State T} {h : ℕ} (hp : Popped s h)
    (hkind : (s.handles h).kind = .threadsafe) :
    (runThreadsafe h).wp (env quiet) orderSpec (fun _ s' => Ordered s' ∧ OrderRely s s') s := by
  simp only [runThreadsafe, release, Prog.wp_bind, wp_getState, Prog.wp_ite, Prog.wp_pure,
    wp_update, wp_alloc, ↓reduceIte]
  split
  · rename_i hskip
    -- the state word is not pending: the handle was cancelled
    refine ⟨hp.drop ?_, .refl s⟩
    cases hc : (s.handles h).cancelled with
    | true => simp [State.live, hc]
    | false => exact absurd (hp.pending hkind hc) hskip
  · rename_i hpend
    have hc := hp.ordered.settled h hp.lt hkind (not_not.mp hpend)
    have hcb : (s.handles h).callback = true := hp.ordered.callback h hp.lt hc
    rw [if_neg (by simp [hcb])]
    have hmem : h ∈ (s.record (.ran h)).ran := by simp [Event.ran?]
    have hstep : HandleStep (s.record (.ran h)).ran h (s.handles h)
        ((s.handles h).setRunState .running) := .setRunState _ (by decide) hmem
    refine Prog.wp_mono (wp_invoke (hp.setHandle _ hstep)) fun _ s₁ hs₁ => ?_
    have hrely : OrderRely s s₁ :=
      (OrderRely.record s (.ran h)).trans ((OrderRely.setHandle h _ hstep).trans hs₁.2)
    have hmem₁ : h ∈ s₁.ran := hs₁.2.ran h hmem
    have hstep₁ : HandleStep s₁.ran h (s₁.handles h) ((s₁.handles h).setRunState .done) :=
      .setRunState _ (by decide) hmem₁
    have hs₂ := hs₁.1.setHandle h _ hstep₁
    have hrely₂ := hrely.trans (OrderRely.setHandle h _ hstep₁)
    split
    · rename_i hc₂
      have hstep₂ : HandleStep s₁.ran h _ (HandleRec.dropCallback _) := .dropCallback hc₂
      refine (keeps_python _).wp (hs₂.setHandle h _ hstep₂) fun _ s₃ hs₃ hrely₃ => ?_
      refine (keeps_python _).wp hs₃ fun _ s₄ hs₄ hrely₄ => ⟨hs₄, ?_⟩
      exact hrely₂.trans ((OrderRely.setHandle h _ hstep₂).trans (hrely₃.trans hrely₄))
    · exact ⟨hs₂, hrely₂⟩

theorem Order.wp_runOne {s : State T} {h : ℕ} (hp : Popped s h) :
    (runOne h).wp (env quiet) orderSpec (fun _ s' => Ordered s' ∧ OrderRely s s') s := by
  simp only [runOne, Prog.wp_bind, wp_getState]
  cases hkind : (s.handles h).kind with
  | soon => exact wp_runHandle hp
  | native => exact wp_runHandle hp
  | threadsafe => exact wp_runThreadsafe hp hkind
  | timer =>
    simp only [Prog.wp_bind, wp_update]
    have hstep : ∀ ran, HandleStep ran h (s.handles h) (s.handles h).clearScheduled :=
      fun _ => .clearScheduled _
    have hp' : Popped (s.setHandle h HandleRec.clearScheduled) h := by
      refine ⟨hp.setHandle _ (hstep _), fun hk => ?_⟩
      rw [s.handles_setHandle_self] at hk
      exact absurd (hk.symm.trans hkind) (by decide)
    refine Prog.wp_mono (wp_runTimer hp') fun _ s' hs' => ⟨hs'.1, ?_⟩
    exact (OrderRely.setHandle h _ (hstep _)).trans hs'.2

theorem Order.wp_runMonitored {s : State T} {h : ℕ} (hp : Popped s h) (duration : ℕ) :
    (runMonitored h duration).wp (env quiet) orderSpec
      (fun _ s' => Ordered s' ∧ OrderRely s s') s := by
  simp only [runMonitored, Prog.wp_bind, wp_hrtime, Prog.wp_ite, Prog.wp_pure]
  intro started
  refine Prog.wp_mono (wp_runOne hp) fun _ s₁ hs₁ ended => ?_
  split
  · exact (keeps_python _).wp hs₁.1 fun _ s₂ hs₂ hrely₂ => ⟨hs₂, hs₁.2.trans hrely₂⟩
  · exact hs₁

theorem Order.wp_runTimed {s : State T} {h : ℕ} (hp : Popped s h) :
    (runTimed h).wp (env quiet) orderSpec (fun _ s' => Ordered s' ∧ OrderRely s s') s := by
  simp only [runTimed, Prog.wp_bind, wp_getState]
  cases s.slowCallbackDuration with
  | none => exact wp_runOne hp
  | some duration =>
    simp only [Prog.wp_ite]
    split
    · exact wp_runMonitored hp duration
    · exact wp_runOne hp

/-- Taking a handle off the ready queue. -/
theorem Ordered.popped {s : State T} (hs : Ordered s) {h : ℕ} {q : Queue ℕ}
    (hq : s.ready.toList = h :: q.toList) : Popped (s.setReady q) h := by
  have hpass : ((s.setReady q).record (.ran h)).passage = s.passage := by
    rw [State.passage, State.passage, State.ran_record, hq]
    simp [Event.ran?]
    rfl
  have hreg : ((s.setReady q).record (.ran h)).registered = s.registered := by
    rw [State.registered_record]
    simp [Event.registered?]
    rfl
  have hlt : h < s.fresh := hs.queued h (by simp [State.passage, hq])
  have hran : ∀ k, k ∉ ((s.setReady q).record (.ran h)).ran → k ∉ s.ran := by
    intro k hk hmem
    rw [State.ran_record] at hk
    exact hk (List.mem_append_left _ hmem)
  refine ⟨⟨?_, ?_, ?_, ?_, hs.heap, hs.callback, ?_, hs.settled⟩, fun hkind hc => ?_⟩
  · rw [hpass, hreg]
    exact hs.order
  · rw [hreg]
    exact hs.nodup
  · rw [hreg]
    exact hs.known
  · rw [hpass]
    exact hs.queued
  · exact fun k hk hkind hc hn => hs.pending k hk hkind hc (hran k hn)
  · change (s.handles h).kind = _ at hkind
    change (s.handles h).cancelled = _ at hc
    refine hs.pending h hlt hkind hc fun hmem => ?_
    -- a live handle is registered once, so it cannot have run and be queued
    have hlive : s.live h = true := by simp [State.live, hkind, hc]
    have hnd : (s.passage.filter s.live).Nodup := hs.order ▸ hs.nodup.filter _
    rw [State.passage, hq, List.filter_append, List.filter_append,
      List.filter_cons_of_pos hlive, List.append_assoc] at hnd
    exact (List.nodup_append.mp hnd).2.2 h (List.mem_filter.mpr ⟨hmem, hlive⟩) h
      (by simp) rfl

theorem Order.keeps_runReadyLoop (remaining : ℕ) :
    (runReadyLoop remaining : P T _).Keeps (env quiet) orderSpec := by
  induction remaining with
  | zero => exact fun s hs => ⟨hs, .refl s⟩
  | succ remaining ih =>
    intro s hs
    simp only [runReadyLoop, release, Prog.wp_bind, wp_getState]
    have hfst := s.ready.pop_fst
    have hsnd := s.ready.toList_pop
    rcases hpop : s.ready.pop with ⟨h?, q⟩
    rw [hpop] at hfst hsnd
    cases h? with
    | none => exact ⟨hs, .refl s⟩
    | some h =>
      have hq : s.ready.toList = h :: q.toList := by
        rw [show q.toList = s.ready.toList.tail from hsnd]
        exact (List.cons_head?_tail hfst.symm).symm
      simp only [Prog.wp_bind, wp_setState]
      refine Prog.wp_mono (wp_runTimed (hs.popped hq)) fun _ s₁ hs₁ => ?_
      refine (keeps_python _).wp hs₁.1 fun _ s₂ hs₂ hrely₂ => ?_
      refine ih.wp hs₂ fun _ s₃ hs₃ hrely₃ => ⟨hs₃, ?_⟩
      exact (OrderRely.setReady s q).trans (hs₁.2.trans (hrely₂.trans hrely₃))

/-- A step that touches nothing the invariant reads. -/
theorem Ordered.step {s s' : State T} (hs : Ordered s)
    (hready : s'.ready.toList = s.ready.toList)
    (hinbox : s'.threadsafeReady.toList = s.threadsafeReady.toList)
    (hhist : s'.history = s.history) (hhand : s'.handles = s.handles)
    (hfresh : s'.fresh = s.fresh)
    (hheap : ∀ e ∈ s'.timers.contents, e ∈ s.timers.contents) : Ordered s' ∧ OrderRely s s' := by
  refine ⟨hs.frame hready hinbox ?_ ?_ hhand hfresh hheap, .of_eq hhist hhand hfresh⟩
  · rw [State.ran, State.ran, hhist]
  · rw [State.registered, State.registered, hhist]

theorem Order.keeps_invoke (f : Proc T) :
    (Prog.invoke (S := sig T) f).Keeps (env quiet) orderSpec :=
  fun _ hs => ⟨hs, fun _ hs' => hs'⟩

/-- Programs that keep the invariant compose. -/
theorem Order.keeps_bind {α β : Type} {p : P T α} {f : α → P T β}
    (hp : p.Keeps (env quiet) orderSpec) (hf : ∀ a, (f a).Keeps (env quiet) orderSpec) :
    (p >>= f).Keeps (env quiet) orderSpec :=
  hp.bind (fun _ _ _ => OrderRely.trans) hf

theorem Order.keeps_runReady : (runReady : P T _).Keeps (env quiet) orderSpec := by
  intro s hs
  simp only [runReady, Prog.wp_bind, wp_getState, wp_update]
  obtain ⟨hs₁, hrely₁⟩ : Ordered s.countBatch ∧ OrderRely s s.countBatch :=
    hs.step rfl rfl rfl rfl rfl fun _ he => he
  exact (keeps_runReadyLoop _).wp hs₁ fun _ s₂ hs₂ hrely₂ => ⟨hs₂, hrely₁.trans hrely₂⟩

theorem Order.keeps_onIdle : (onIdle : P T _).Keeps (env quiet) orderSpec := by
  intro s hs
  simp only [onIdle, Prog.wp_bind, wp_hrtime, wp_update]
  intro started
  refine (keeps_invoke _).wp hs fun _ s₁ hs₁ hrely₁ => ?_
  exact ⟨hs₁.setCore s₁.toCore.stopIdle_ready, hrely₁.trans (.setCore s₁ _)⟩

/-! ### Timers -/

theorem Order.keeps_now : (now : P T _).Keeps (env quiet) orderSpec := by
  intro s hs
  rw [wp_now]
  exact fun t => hs.step rfl rfl rfl rfl rfl fun _ he => he

/-- Taking an entry out of the heap, and ending its scheduled state. -/
theorem Ordered.popTimer {s : State T} (hs : Ordered s) {e : TimerEntry T ℕ}
    (he : s.timers.peek = some e) :
    Ordered (s.popTimer.setHandle e.handle HandleRec.clearScheduled) ∧
      OrderRely s (s.popTimer.setHandle e.handle HandleRec.clearScheduled) := by
  have hpop : Ordered s.popTimer := by
    refine hs.frame rfl rfl rfl rfl rfl rfl fun x hx => ?_
    rw [TimerHeap.contents_pop he]
    exact Multiset.mem_cons_of_mem hx
  refine ⟨hpop.setHandle _ _ (.clearScheduled _), ?_⟩
  exact (OrderRely.of_eq rfl rfl rfl : OrderRely s s.popTimer).trans
    (OrderRely.setHandle _ _ (.clearScheduled _))

theorem Ordered.uncountCancelled {s : State T} (hs : Ordered s) :
    Ordered s.uncountCancelled ∧ OrderRely s s.uncountCancelled := by
  unfold State.uncountCancelled
  split
  · exact hs.step rfl rfl rfl rfl rfl fun _ he => he
  · exact ⟨hs, .refl s⟩

theorem Order.keeps_dropCancelledBody :
    (dropCancelledBody : P T _).Keeps (env quiet) orderSpec := by
  intro s hs
  simp only [dropCancelledBody, release, Prog.wp_bind, wp_getState]
  cases he : s.timers.peek with
  | none => exact ⟨hs, .refl s⟩
  | some e =>
    simp only [Prog.wp_ite, Prog.wp_bind, wp_update, Prog.wp_pure]
    split
    · obtain ⟨hs₁, hrely₁⟩ := hs.popTimer he
      refine (keeps_python _).wp hs₁ fun _ s₂ hs₂ hrely₂ => ?_
      obtain ⟨hs₃, hrely₃⟩ := hs₂.uncountCancelled
      refine (keeps_invoke _).wp hs₃ fun _ s₄ hs₄ hrely₄ => ⟨hs₄, ?_⟩
      exact hrely₁.trans (hrely₂.trans (hrely₃.trans hrely₄))
    · exact ⟨hs, .refl s⟩

theorem Order.keeps_armTimer : (armTimer : P T _).Keeps (env quiet) orderSpec := by
  intro s hs
  simp only [armTimer, Prog.wp_bind, wp_getState]
  refine (keeps_invoke _).wp hs fun _ s₁ hs₁ hrely₁ => ?_
  cases s₁.timers.peek with
  | none =>
    have hstop : Ordered s₁.stopTimer ∧ OrderRely s₁ s₁.stopTimer := by
      unfold State.stopTimer
      split
      · exact hs₁.step rfl rfl rfl rfl rfl fun _ he => he
      · exact ⟨hs₁, .refl s₁⟩
    exact ⟨hstop.1, hrely₁.trans hstop.2⟩
  | some e =>
    simp only [Prog.wp_bind, wp_now, wp_update]
    intro t
    obtain ⟨hs₂, hrely₂⟩ : Ordered ((s₁.setClock t).startTimer e.when) ∧
        OrderRely s₁ ((s₁.setClock t).startTimer e.when) :=
      hs₁.step rfl rfl rfl rfl rfl fun _ he => he
    exact ⟨hs₂, hrely₁.trans hrely₂⟩

theorem Order.keeps_collectDueBody (deadline : T) :
    (collectDueBody deadline).Keeps (env quiet) orderSpec := by
  intro s hs
  simp only [collectDueBody, release, Prog.wp_bind, wp_getState]
  cases he : s.timers.peek with
  | none => exact hs.startIdle
  | some e =>
    simp only [Prog.wp_ite, Prog.wp_bind, wp_update, wp_getState, wp_alloc]
    obtain ⟨hs₁, hrely₁⟩ := hs.popTimer he
    split
    · exact hs.startIdle
    split
    · refine (keeps_python _).wp hs₁ fun _ s₂ hs₂ hrely₂ => ?_
      obtain ⟨hs₃, hrely₃⟩ := hs₂.uncountCancelled
      refine (keeps_invoke _).wp hs₃ fun _ s₄ hs₄ hrely₄ => ⟨hs₄, ?_⟩
      exact hrely₁.trans (hrely₂.trans (hrely₃.trans hrely₄))
    · obtain ⟨hlt, hkind⟩ := hs.heap e (Timers.mem_of_peek he)
      obtain ⟨q, hq, hlist⟩ :=
        (s.popTimer.setHandle e.handle HandleRec.clearScheduled).pushReady_true e.handle
      rw [hq]
      have hkind₁ : ((s.popTimer.setHandle e.handle HandleRec.clearScheduled).handles
          e.handle).kind = .timer := by
        rw [State.handles_setHandle_self]
        exact hkind
      have hpush := hs₁.push_other hlt (Or.inl hkind₁) hlist
      have hs₂ := hpush.record_other (e := .due e.handle e.when s.clock) rfl rfl
      refine (keeps_invoke _).wp hs₂ fun _ s₃ hs₃ hrely₃ => ⟨hs₃, ?_⟩
      exact hrely₁.trans
        ((OrderRely.setReady _ q).trans ((OrderRely.record _ _).trans hrely₃))

theorem Order.keeps_collectDueTimers : (collectDueTimers : P T _).Keeps (env quiet) orderSpec :=
  keeps_bind keeps_now fun _ => keeps_invoke _

theorem Order.keeps_onTimer : (onTimer : P T _).Keeps (env quiet) orderSpec := by
  intro s hs
  simp only [onTimer, Prog.wp_bind, wp_update]
  obtain ⟨hs₁, hrely₁⟩ : Ordered s.expireTimer ∧ OrderRely s s.expireTimer :=
    hs.step rfl rfl rfl rfl rfl fun _ he => he
  refine keeps_collectDueTimers.wp hs₁ fun _ s₂ hs₂ hrely₂ => ?_
  refine keeps_armTimer.wp hs₂ fun _ s₃ hs₃ hrely₃ => ⟨hs₃, ?_⟩
  exact hrely₁.trans (hrely₂.trans hrely₃)

theorem Order.keeps_releaseAll (doomed : List ℕ) :
    (releaseAll doomed : P T _).Keeps (env quiet) orderSpec := by
  induction doomed with
  | nil => exact keeps_pure OrderRely.refl ()
  | cons h doomed ih => exact keeps_bind (keeps_python _) fun _ => ih

/-- Compacting the heap. -/
theorem Ordered.compactTimers {s : State T} (hs : Ordered s) :
    Ordered (s.compactTimers true).1 ∧ OrderRely s (s.compactTimers true).1 := by
  have hheap : ∀ e ∈ (s.compactTimers true).1.timers.contents, e ∈ s.timers.contents := by
    intro e he
    have hc := (s.timers.contents_compact fun h => (s.handles h).cancelled).1
    exact Multiset.mem_of_le (hc.trans_le (Multiset.filter_le _ _)) he
  have hstep : ∀ k, HandleStep s.ran k (s.handles k) ((s.compactTimers true).1.handles k) := by
    intro k
    unfold State.compactTimers
    dsimp only
    split
    · exact .clearScheduled _
    · exact .refl _ _ _
  have hs₁ := hs.of_handles fun k _ => hstep k
  refine ⟨hs₁.frame rfl rfl rfl rfl rfl rfl hheap, ?_⟩
  exact ⟨le_rfl, fun _ h => h, fun k _ => (hstep k).kind, fun k _ => (hstep k).cancelled⟩

theorem Order.keeps_noteTimerCancelled :
    (noteTimerCancelled : P T _).Keeps (env quiet) orderSpec := by
  intro s hs
  simp only [noteTimerCancelled, Prog.wp_bind, wp_update, wp_getState, Prog.wp_ite, wp_alloc,
    wp_setState, Prog.wp_pure]
  obtain ⟨hs₁, hrely₁⟩ : Ordered s.countCancelled ∧ OrderRely s s.countCancelled :=
    hs.step rfl rfl rfl rfl rfl fun _ he => he
  split
  · obtain ⟨hs₂, hrely₂⟩ := hs₁.compactTimers
    refine (keeps_releaseAll _).wp hs₂ fun _ s₃ hs₃ hrely₃ => ?_
    refine keeps_armTimer.wp hs₃ fun _ s₄ hs₄ hrely₄ => ⟨hs₄, ?_⟩
    exact hrely₁.trans (hrely₂.trans (hrely₃.trans hrely₄))
  · exact ⟨hs₁, hrely₁⟩

theorem Order.keeps_scheduleAt (when : T) (alreadyDue : Bool) :
    (scheduleAt when alreadyDue).Keeps (env quiet) orderSpec := by
  intro s hs
  simp only [scheduleAt, create, Prog.wp_bind, wp_getState, Prog.wp_ite, Prog.wp_pure, wp_alloc,
    ↓reduceIte, wp_setState, wp_update]
  have hs₁ := hs.create .timer when
  have hrely₁ := OrderRely.create s .timer when
  have hkind₁ : ((s.create .timer when).handles s.fresh).kind = .timer := by
    rw [s.handles_create_self]
    rfl
  split
  · exact ⟨hs, .refl s⟩
  split
  · have hstep : HandleStep (s.create .timer when).ran s.fresh
        ((s.create .timer when).handles s.fresh)
        ((s.create .timer when).handles s.fresh).markReady := .markReady _
    have hs₂ := hs₁.setHandle s.fresh _ hstep
    obtain ⟨q, hq, hlist⟩ :=
      ((s.create .timer when).setHandle s.fresh HandleRec.markReady).pushReady_true s.fresh
    rw [hq]
    have hkind₂ : (((s.create .timer when).setHandle s.fresh HandleRec.markReady).handles
        s.fresh).kind = .timer := by
      rw [State.handles_setHandle_self]
      exact hkind₁
    have hpush := hs₂.push_other (Nat.lt_succ_self s.fresh) (Or.inl hkind₂) hlist
    obtain ⟨hs₃, hrely₃⟩ := (hpush.record_other (e := .due s.fresh when s.clock) rfl rfl).startIdle
    refine ⟨hs₃, hrely₁.trans ((OrderRely.setHandle _ _ hstep).trans ?_)⟩
    exact (OrderRely.setReady _ q).trans ((OrderRely.record _ _).trans hrely₃)
  · obtain ⟨timers, htimers, hcontents, -, -⟩ := s.timers.push_true when s.fresh
    erw [htimers]
    simp only [Prog.wp_bind, wp_update, Prog.wp_pure]
    have hs₂ : Ordered ((s.create .timer when).setTimers timers) := by
      refine ⟨hs₁.order, hs₁.nodup, hs₁.known, hs₁.queued, fun e he => ?_, hs₁.callback,
        hs₁.pending, hs₁.settled⟩
      rw [State.setTimers, hcontents, Multiset.mem_cons] at he
      rcases he with rfl | he
      · exact ⟨Nat.lt_succ_self _, hkind₁⟩
      · exact hs₁.heap e he
    refine keeps_armTimer.wp hs₂ fun _ s₃ hs₃ hrely₃ => ⟨hs₃, hrely₁.trans ?_⟩
    exact (OrderRely.setTimers _ timers).trans hrely₃

theorem Order.keeps_callAt (when : T) : (callAt when).Keeps (env quiet) orderSpec :=
  keeps_bind keeps_now fun _ => keeps_scheduleAt _ _

theorem Order.keeps_callLater [Add T] [Zero T] (delay : T) :
    (callLater delay).Keeps (env quiet) orderSpec :=
  keeps_bind keeps_now fun _ => keeps_scheduleAt _ _

/-! ### Scheduling -/

/-- Draining the inbox into the ready queue. -/
theorem Ordered.drain {s : State T} (hs : Ordered s) {ready inbox : Queue ℕ}
    (hready : ready.toList = s.ready.toList ++ s.threadsafeReady.toList)
    (hinbox : inbox.toList = []) : Ordered ((s.setReady ready).setInbox inbox) ∧
      OrderRely s ((s.setReady ready).setInbox inbox) := by
  have hpass : ((s.setReady ready).setInbox inbox).passage = s.passage := by
    change s.ran ++ ready.toList ++ inbox.toList = _
    rw [hready, hinbox, List.append_nil, ← List.append_assoc, State.passage]
  refine ⟨⟨?_, hs.nodup, hs.known, ?_, hs.heap, hs.callback, hs.pending, hs.settled⟩,
    .of_eq rfl rfl rfl⟩
  · rw [hpass]
    exact hs.order
  · rw [hpass]
    exact hs.queued

/-- Registering a new handle, which goes to the end of the queues. -/
theorem Ordered.register {s s' : State T} (hs : Ordered s) {h : ℕ} (hh : h < s.fresh)
    (hnew : h ∉ s.registered) (hpass : s'.passage = s.passage ++ [h])
    (hhist : s'.history = s.history ++ [.registered h]) (hhand : s'.handles = s.handles)
    (hfresh : s'.fresh = s.fresh) (htimers : s'.timers = s.timers) : Ordered s' := by
  have hreg : s'.registered = s.registered ++ [h] := by
    rw [State.registered, hhist, List.filterMap_append]
    rfl
  have hran : s'.ran = s.ran := by
    rw [State.ran, hhist, List.filterMap_append]
    exact List.append_nil _
  have hlive : s'.live = s.live := by
    funext k
    rw [State.live, State.live, hhand]
  refine ⟨?_, ?_, ?_, ?_, ?_, ?_, ?_, ?_⟩
  · rw [hlive, hpass, hreg, List.filter_append, List.filter_append, hs.order]
  · rw [hreg]
    exact List.nodup_append.mpr ⟨hs.nodup, List.nodup_singleton h, fun a ha b hb heq => by
      rw [List.mem_singleton] at hb
      exact hnew (hb ▸ heq ▸ ha)⟩
  · rw [hreg, hfresh]
    intro k hk
    rcases List.mem_append.mp hk with hk | hk
    · exact hs.known k hk
    · rwa [List.mem_singleton.mp hk]
  · rw [hpass, hfresh]
    intro k hk
    rcases List.mem_append.mp hk with hk | hk
    · exact hs.queued k hk
    · rwa [List.mem_singleton.mp hk]
  · rw [htimers, hhand, hfresh]
    exact hs.heap
  · rw [hhand, hfresh]
    exact hs.callback
  · rw [hhand, hfresh, hran]
    exact hs.pending
  · rw [hhand, hfresh]
    exact hs.settled

theorem fresh_not_registered {s : State T} (hs : Ordered s) : s.fresh ∉ s.registered :=
  fun hmem => (hs.known _ hmem).ne rfl

/-- Registering through the ready queue, once the inbox is empty. -/
theorem Ordered.register_ready {s : State T} (hs : Ordered s) {h : ℕ} (hh : h < s.fresh)
    (hnew : h ∉ s.registered) (hinbox : s.threadsafeReady.toList = []) {q : Queue ℕ}
    (hq : q.toList = s.ready.toList ++ [h]) :
    Ordered ((s.setReady q).record (.registered h)) ∧
      OrderRely s ((s.setReady q).record (.registered h)) := by
  refine ⟨hs.register hh hnew ?_ rfl rfl rfl rfl,
    (OrderRely.setReady s q).trans (OrderRely.record _ _)⟩
  have hran : ((s.setReady q).record (.registered h)).ran = s.ran := by
    rw [State.ran_record]
    exact List.append_nil _
  change State.ran _ ++ q.toList ++ s.threadsafeReady.toList = _
  rw [hran, hq, State.passage, hinbox, List.append_nil, List.append_nil, List.append_assoc]

/-- Registering through the inbox. -/
theorem Ordered.register_inbox {s : State T} (hs : Ordered s) {h : ℕ} (hh : h < s.fresh)
    (hnew : h ∉ s.registered) {q : Queue ℕ} (hq : q.toList = s.threadsafeReady.toList ++ [h]) :
    Ordered ((s.setInbox q).record (.registered h)) ∧
      OrderRely s ((s.setInbox q).record (.registered h)) := by
  have hset : OrderRely s (s.setInbox q) := .of_eq rfl rfl rfl
  refine ⟨hs.register hh hnew ?_ rfl rfl rfl rfl, hset.trans (OrderRely.record _ _)⟩
  have hran : ((s.setInbox q).record (.registered h)).ran = s.ran := by
    rw [State.ran_record]
    exact List.append_nil _
  change State.ran _ ++ s.ready.toList ++ q.toList = _
  rw [hran, hq, State.passage, ← List.append_assoc]

theorem Ordered.sendWake {s : State T} (hs : Ordered s) :
    Ordered s.sendWake ∧ OrderRely s s.sendWake := by
  unfold State.sendWake
  split
  · exact hs.step rfl rfl rfl rfl rfl fun _ he => he
  · exact ⟨hs, .refl s⟩

theorem Order.keeps_create (kind : HandleKind) (when : T) :
    (create kind when).Keeps (env quiet) orderSpec := by
  intro s hs
  simp only [create, Prog.wp_bind, wp_alloc, ↓reduceIte, wp_getState, wp_setState, Prog.wp_pure]
  exact ⟨hs.create kind when, .create s kind when⟩

variable [Inhabited T]

theorem Order.keeps_scheduleSoon : (scheduleSoon : P T _).Keeps (env quiet) orderSpec := by
  intro s hs
  simp only [scheduleSoon, create, Prog.wp_bind, wp_getState, Prog.wp_ite, Prog.wp_pure, wp_alloc,
    ↓reduceIte, wp_setState]
  have hs₁ := hs.create .soon default
  have hrely₁ := OrderRely.create s .soon default
  split
  · exact ⟨hs₁, hrely₁⟩
  obtain ⟨ready, inbox, hdrain, hready, hinbox⟩ := (s.create .soon default).drainThreadsafe_true
  rw [hdrain]
  simp only [Prog.wp_bind, wp_setState, wp_alloc]
  obtain ⟨hs₂, hrely₂⟩ := hs₁.drain hready hinbox
  obtain ⟨q, hq, hlist⟩ :=
    (((s.create .soon default).setReady ready).setInbox inbox).pushReady_true s.fresh
  rw [hq]
  simp only [Prog.wp_bind, wp_setState, Prog.wp_pure]
  obtain ⟨hs₃, hrely₃⟩ :=
    hs₂.register_ready (Nat.lt_succ_self s.fresh) (fresh_not_registered hs) hinbox hlist
  obtain ⟨hs₄, hrely₄⟩ := hs₃.startIdle
  exact ⟨hs₄, hrely₁.trans (hrely₂.trans (hrely₃.trans hrely₄))⟩

theorem Order.keeps_callSoonThreadsafe :
    (callSoonThreadsafe : P T _).Keeps (env quiet) orderSpec := by
  intro s hs
  simp only [callSoonThreadsafe, create, Prog.wp_bind, wp_getState, Prog.wp_ite, Prog.wp_pure,
    wp_alloc, ↓reduceIte, wp_setState]
  have hs₁ := hs.create .threadsafe default
  have hrely₁ := OrderRely.create s .threadsafe default
  split
  · exact ⟨hs, .refl s⟩
  obtain ⟨inbox, hinbox, hlist⟩ := (s.create .threadsafe default).threadsafeReady.push_true s.fresh
  rw [hinbox]
  simp only [Prog.wp_bind, wp_setState, Prog.wp_pure]
  obtain ⟨hs₂, hrely₂⟩ :=
    hs₁.register_inbox (Nat.lt_succ_self s.fresh) (fresh_not_registered hs) hlist
  obtain ⟨hs₃, hrely₃⟩ := hs₂.sendWake
  exact ⟨hs₃, hrely₁.trans (hrely₂.trans hrely₃)⟩

omit [Inhabited T] in
theorem Order.keeps_onWake : (onWake : P T _).Keeps (env quiet) orderSpec := by
  intro s hs
  simp only [onWake, Prog.wp_bind, wp_update, wp_getState, wp_alloc]
  obtain ⟨hs₁, hrely₁⟩ : Ordered s.consumeWake ∧ OrderRely s s.consumeWake :=
    hs.step rfl rfl rfl rfl rfl fun _ he => he
  obtain ⟨ready, inbox, hdrain, hready, hinbox⟩ := s.consumeWake.drainThreadsafe_true
  rw [hdrain]
  simp only [wp_setState]
  obtain ⟨hs₂, hrely₂⟩ := hs₁.drain hready hinbox
  obtain ⟨hs₃, hrely₃⟩ := hs₂.startIdle
  exact ⟨hs₃, hrely₁.trans (hrely₂.trans hrely₃)⟩

omit [Inhabited T] in
/-- Queueing the handles a poll event fires. -/
theorem Order.wp_scheduleFired (fired : List ℕ) {s : State T} (hs : Ordered s)
    (hfired : ∀ h ∈ fired, h < s.fresh ∧ (s.handles h).kind = .native) :
    (scheduleFired fired).wp (env quiet) orderSpec
      (fun _ s' => Ordered s' ∧ OrderRely s s') s := by
  induction fired generalizing s with
  | nil => exact ⟨hs, .refl s⟩
  | cons h fired ih =>
    simp only [scheduleFired, Prog.wp_bind, wp_getState, Prog.wp_ite, wp_alloc]
    obtain ⟨hlt, hkind⟩ := hfired h (List.mem_cons_self ..)
    have hrest := fun k hk => hfired k (List.mem_cons_of_mem h hk)
    split
    · obtain ⟨q, hq, hlist⟩ := s.pushReady_true h
      rw [hq]
      simp only [Prog.wp_bind, wp_setState]
      exact Prog.wp_mono (ih (hs.push_other hlt (Or.inr hkind) hlist) hrest) fun _ s' hs' =>
        ⟨hs'.1, (OrderRely.setReady s q).trans hs'.2⟩
    · exact ih hs hrest

theorem Order.keeps_scheduleCall : (scheduleCall : P T _).Keeps (env quiet) orderSpec := by
  intro s hs
  simp only [scheduleCall, create, Prog.wp_bind, wp_getState, Prog.wp_ite, Prog.wp_pure, wp_alloc,
    ↓reduceIte, wp_setState]
  have hs₁ := hs.create .native default
  have hrely₁ := OrderRely.create s .native default
  split
  · exact ⟨hs, .refl s⟩
  obtain ⟨q, hq, hlist⟩ := (s.create .native default).pushReady_true s.fresh
  rw [hq]
  simp only [wp_setState]
  have hkind : ((s.create .native default).handles s.fresh).kind = .native := by
    rw [s.handles_create_self]
    rfl
  obtain ⟨hs₂, hrely₂⟩ :=
    (hs₁.push_other (Nat.lt_succ_self s.fresh) (Or.inr hkind) hlist).startIdle
  exact ⟨hs₂, hrely₁.trans ((OrderRely.setReady _ q).trans hrely₂)⟩

/-! ### Cancellation -/

omit [Inhabited T] in
/-- Cancelling one handle that is not a thread-safe one, or no longer pending. -/
theorem Ordered.cancel {s : State T} (hs : Ordered s) (h : ℕ)
    (hr : (s.handles h).kind = .threadsafe → (s.handles h).runState ≠ .pending) :
    Ordered (s.setHandle h HandleRec.cancel) ∧ OrderRely s (s.setHandle h HandleRec.cancel) :=
  ⟨hs.setHandle h _ (.cancel hr), .setHandle h _ (.cancel hr)⟩

omit [Inhabited T] in
theorem Order.wp_cancelHandle {s : State T} (hs : Ordered s) {h : ℕ} (hh : h < s.fresh)
    (hkind : (s.handles h).kind ≠ .threadsafe) :
    (cancelHandle h).wp (env quiet) orderSpec (fun _ s' => Ordered s' ∧ OrderRely s s') s := by
  simp only [cancelHandle, Prog.wp_bind, wp_getState, Prog.wp_ite, wp_update, Prog.wp_pure]
  obtain ⟨hs₁, hrely₁⟩ := hs.cancel h fun hk => absurd hk hkind
  split
  · split
    · exact Prog.wp_mono (wp_clearCallback hs₁ hh (by simp [HandleRec.cancel])) fun _ s' hs' =>
        ⟨hs'.1, hrely₁.trans hs'.2⟩
    · exact ⟨hs₁, hrely₁⟩
  · exact ⟨hs, .refl s⟩

omit [Inhabited T] in
theorem Order.wp_timerCancel {s : State T} (hs : Ordered s) {h : ℕ} (hh : h < s.fresh)
    (hkind : (s.handles h).kind = .timer) :
    (timerCancel h).wp (env quiet) orderSpec (fun _ s' => Ordered s' ∧ OrderRely s s') s := by
  simp only [timerCancel, Prog.wp_bind, wp_getState, Prog.wp_ite, wp_update, Prog.wp_pure]
  obtain ⟨hs₁, hrely₁⟩ := hs.cancel h fun hk => by
    rw [hkind] at hk
    cases hk
  have hnote : ∀ s', Ordered s' → OrderRely s s' →
      if (s'.handles h).inHeap = true then
        (noteTimerCancelled : P T _).wp (env quiet) orderSpec
          (fun _ s'' => Ordered s'' ∧ OrderRely s s'') s'
      else Ordered s' ∧ OrderRely s s' := by
    intro s' hs' hrely'
    split
    · exact keeps_noteTimerCancelled.wp hs' fun _ s₂ hs₂ hrely₂ => ⟨hs₂, hrely'.trans hrely₂⟩
    · exact ⟨hs', hrely'⟩
  split
  · split
    · exact Prog.wp_mono (wp_clearCallback hs₁ hh (by simp [HandleRec.cancel])) fun _ s' hs' =>
        hnote s' hs'.1 (hrely₁.trans hs'.2)
    · exact hnote _ hs₁ hrely₁
  · exact ⟨hs, .refl s⟩

omit [Inhabited T] in
theorem Order.wp_cancelTimer {s : State T} (hs : Ordered s) {h : ℕ} (hh : h < s.fresh)
    (hkind : (s.handles h).kind = .timer) :
    (cancelTimer h).wp (env quiet) orderSpec (fun _ s' => Ordered s' ∧ OrderRely s s') s := by
  simp only [cancelTimer, Prog.wp_bind, wp_getState, wp_update]
  exact Prog.wp_mono (wp_timerCancel hs hh hkind) fun _ s' hs' =>
    ⟨hs'.1.record_other rfl rfl, hs'.2.trans (.record _ _)⟩

omit [Inhabited T] [LinearOrder T] in
/-- Settling and cancelling a thread-safe handle, which no Python code separates. -/
theorem HandleStep.settle_cancel (ran : List ℕ) (h : ℕ) (r : HandleRec T) :
    HandleStep ran h r r.settle.cancel := by
  have hkind : r.settle.kind = r.kind := by
    unfold HandleRec.settle
    split <;> rfl
  have hstate : r.settle.runState ≠ .pending := by
    unfold HandleRec.settle
    split
    · exact RunState.noConfusion
    · assumption
  exact ⟨hkind, fun _ => rfl, nofun, nofun, fun _ hp => absurd hp hstate⟩

omit [Inhabited T] in
theorem Order.wp_cancelThreadsafe {s : State T} (hs : Ordered s) {h : ℕ} (hh : h < s.fresh)
    (hkind : (s.handles h).kind = .threadsafe) :
    (cancelThreadsafe h).wp (env quiet) orderSpec (fun _ s' => Ordered s' ∧ OrderRely s s') s := by
  simp only [cancelThreadsafe, release, Prog.wp_bind, wp_getState, Prog.wp_ite, wp_update,
    Prog.wp_pure, State.handles_setHandle_self, State.setHandle_setHandle]
  have hcancelled : (s.handles h).settle.cancelled = (s.handles h).cancelled := by
    unfold HandleRec.settle
    split <;> rfl
  rw [hcancelled]
  have hstep : HandleStep s.ran h (s.handles h) ((HandleRec.cancel ∘ HandleRec.settle)
      (s.handles h)) := .settle_cancel _ _ _
  have hs₁ := hs.setHandle h (HandleRec.cancel ∘ HandleRec.settle) hstep
  have hrely₁ := OrderRely.setHandle h (HandleRec.cancel ∘ HandleRec.settle) hstep
  split
  · split
    · have hdrop : HandleStep s.ran h (s.handles h)
          ((HandleRec.dropCallback ∘ HandleRec.cancel ∘ HandleRec.settle) (s.handles h)) :=
        -- the handle is cancelled, which leaves nothing to show of its callback
        ⟨hstep.kind, fun _ => rfl, fun hc => absurd hc.symm Bool.false_ne_true,
          fun _ hc => absurd hc.symm Bool.false_ne_true, hstep.settled⟩
      refine (keeps_python _).wp (hs.setHandle h _ hdrop) fun _ s₂ hs₂ hrely₂ => ?_
      refine (keeps_python _).wp hs₂ fun _ s₃ hs₃ hrely₃ => ⟨hs₃, ?_⟩
      exact (OrderRely.setHandle h _ hdrop).trans (hrely₂.trans hrely₃)
    · exact ⟨hs₁, hrely₁⟩
  · -- a cancelled handle is settled already
    rename_i hc
    have hsettle : (s.handles h).settle = s.handles h := by
      refine if_neg fun hpend => hc ?_
      rw [hs.settled h hh hkind hpend]
      rfl
    have hid : HandleStep s.ran h (s.handles h) (s.handles h).settle := by
      rw [hsettle]
      exact .refl _ _ _
    exact ⟨hs.setHandle h _ hid, .setHandle h _ hid⟩

omit [Inhabited T] in
theorem Order.wp_cancel {s : State T} (hs : Ordered s) {h : ℕ} (hh : h < s.fresh) :
    (cancel h).wp (env quiet) orderSpec (fun _ s' => Ordered s' ∧ OrderRely s s') s := by
  simp only [cancel, Prog.wp_bind, wp_getState]
  cases hkind : (s.handles h).kind with
  | soon => exact wp_cancelHandle hs hh (by rw [hkind]; decide)
  | native => exact wp_cancelHandle hs hh (by rw [hkind]; decide)
  | timer => exact wp_cancelTimer hs hh hkind
  | threadsafe => exact wp_cancelThreadsafe hs hh hkind

/-! ## Every reachable state -/

omit [Inhabited T] in
theorem Order.keeps_runBegin : (runBegin : P T _).Keeps (env quiet) orderSpec := by
  intro s hs
  simp only [runBegin, Prog.wp_bind, wp_getState, Prog.wp_ite, wp_update, Prog.wp_pure]
  split
  · exact ⟨hs, .refl s⟩
  split
  · exact ⟨hs, .refl s⟩
  have hs₁ : Ordered (s.setCore fun c => { c with running := true, stopping := false }) :=
    hs.setCore rfl
  obtain ⟨hs₂, hrely₂⟩ := hs₁.startIdle
  refine keeps_armTimer.wp hs₂ fun _ s₃ hs₃ hrely₃ => ⟨hs₃, ?_⟩
  exact (OrderRely.setCore s _).trans (hrely₂.trans hrely₃)

theorem ordered_init (t : T) : Ordered (State.init t) where
  order := rfl
  nodup := List.nodup_nil
  known := nofun
  queued := nofun
  heap := fun e he => by
    have hempty : (State.init t).timers.contents = 0 := TimerHeap.contents_empty
    rw [hempty] at he
    exact absurd he (Multiset.notMem_zero e)
  callback := nofun
  pending := nofun
  settled := nofun

/-- Every entry point and every procedure of the loop keeps the queues in order. -/
theorem Order.verified [Add T] [Zero T] (t : T) : Verified (system t) (env quiet) orderSpec where
  rely_refl := OrderRely.refl
  rely_trans := fun _ _ _ => OrderRely.trans
  init := ordered_init t
  body := fun f s hs => by
    cases f with
    | collectDue deadline => exact keeps_collectDueBody deadline s hs
    | dropCancelled => exact keeps_dropCancelledBody s hs
    | idleLoop batches callbacks started =>
      exact keeps_idleBody OrderRely.refl (fun _ _ _ => OrderRely.trans) keeps_runReady
        (fun _ _ _ => keeps_invoke _) batches callbacks started s hs
  entry := fun stack s op hstart hs _ => by
    cases op with
    | callSoon => exact keeps_scheduleSoon.map _ s hs
    | callSoonThreadsafe => exact keeps_callSoonThreadsafe.map _ s hs
    | callLater delay => exact (keeps_callLater delay).map _ s hs
    | callAt when => exact (keeps_callAt when).map _ s hs
    | cancel h => exact wp_cancel hs hstart.1
    | stop => exact ⟨hs.setCore rfl, .setCore s _⟩
    | runBegin => exact keeps_runBegin.map _ s hs
    | runEnd => exact ⟨hs.setCore rfl, .setCore s _⟩
    | onIdle => exact keeps_onIdle s hs
    | onTimer => exact keeps_onTimer s hs
    | asyncDispatch => exact hs.step rfl rfl rfl rfl rfl fun _ he => he
    | onWake => exact keeps_onWake s hs
    | onPoll fired =>
      refine (Prog.wp_bind _ _ _ _).mpr (Prog.wp_mono (wp_scheduleFired fired hs hstart.1.2.2) ?_)
      intro _ s₁ hs₁
      obtain ⟨hs₂, hrely₂⟩ := hs₁.1.startIdle
      exact ⟨hs₂, hs₁.2.trans hrely₂⟩
    | createNative => exact (keeps_create _ _).map _ s hs
    | scheduleCall => exact keeps_scheduleCall s hs
    | surroundings e => exact hs.step rfl rfl rfl rfl rfl fun _ he => he

end Programs

end Zuvloop.Loop
