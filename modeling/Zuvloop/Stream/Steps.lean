import Mathlib.Logic.Relation
import Zuvloop.Stream.Transport

/-!
# What the transports can do, step by step

An abstract view of `Zuvloop.Stream.Transport`: a state moves by single acts on a transport and by
single changes to the loop, each under the condition the code makes it under. No program and no
call stack is left. `Zuvloop.Stream.Refine` shows that the programs only take these steps, so that
whatever holds along the steps holds of the code; the modules after it draw the consequences.

`Step true` are the steps of the methods Python code can call, `Step false` also those of the
libuv callbacks. Python code that runs inside a callback therefore takes steps of the first kind
only.

## Main definitions

* `Act.Allowed`: when an act may happen.
* `Step`, `Steps`, `Reachable`.
* `Reachable.transport`: what every act keeps holds of every transport of a reachable state.
* `Global`, `Sane`: what the loop and each transport always satisfy.
-/

namespace Zuvloop.Stream

/-! ## Acts and their conditions -/

/-- The last word on reading was a pause that no queued `_start_reading` could undo. -/
def heldBack (h : List Event) : Bool :=
  h.foldl (fun held e =>
    match e with
    | .readingPaused early => held || !early
    | .resumeReading => false
    | _ => held) false

/-- Reading was asked for, by `resume_reading()` or `_start_reading()`. -/
def Event.asksToRead : Event → Bool
  | .resumeReading | .lateStart => true
  | _ => false

/-- The protocol was told of the end-of-file, and nobody has asked to read since. A transport that
is closing cannot be asked. -/
def atEof (h : List Event) : Bool :=
  (h.foldl (fun (closing, eof) e =>
    (closing || e == .closingBegan, e.isEof || eof && (closing || !e.asksToRead)))
    (false, false)).2

/-- Nothing is to be read: after a pause, or at the end of the file. -/
def readingShut (h : List Event) : Bool := heldBack h || atEof h

/-- A method that delivers what was read. -/
def Method.delivers : Method → Bool
  | .dataReceived | .bufferUpdated => true
  | _ => false

/-- A method called from the read path. -/
def Method.reads : Method → Bool
  | .dataReceived | .bufferUpdated | .eofReceived => true
  | _ => false

/-- A method of flow control. -/
def Method.flow : Method → Bool
  | .pauseWriting | .resumeWriting => true
  | _ => false

/-- `connection_lost` was queued. -/
def Event.isLostQueued : Event → Bool
  | .connectionLostQueued _ => true
  | _ => false

/-- `forceClose` was called. -/
def Event.isForced : Event → Bool
  | .forced _ _ => true
  | _ => false

/-- A write request failed. -/
def Event.isFailed : Event → Bool
  | .writeFailed => true
  | _ => false

/-- `EOF_WRITTEN` was set over a batch that was not empty. -/
def Event.isLeftover : Event → Bool
  | .eofWritten leftover => leftover != 0
  | _ => false

/-- A close or half-close in good order, with the number of bytes accepted before it. -/
def Event.graceful? : Event → Option ℕ
  | .closeCalled accepted | .writeEofCalled accepted => some accepted
  | _ => none

/-- Unless a close by force or a torn vector came in between, what had been accepted before a
close or half-close in good order has been handed over. -/
def Kept (tr : Transport) : Prop :=
  tr.torn = false → tr.history.any Event.isForced = false →
    ∀ e ∈ tr.history, ∀ n, e.graceful? = some n → n ≤ tr.handedOver.length

/-- When an act may happen. -/
def Act.Allowed : Act → Transport → Prop
  | .releaseViews views, tr => (views : Multiset ℕ) ≤ tr.held
  | .store b, tr => {b.view} ≤ tr.held ∧ tr.pending.length < pendingMax ∧ tr.givesUp = false
  | .took _ _, tr => tr.givesUp = false
  | .submit _ bufs views queueSize, tr =>
    (views : Multiset ℕ) ≤ tr.held ∧ 0 < total bufs ∧ tr.givesUp = false ∧
      queueSize ≤ tr.stream.queueSize + total bufs
  | .pauseWriting, tr => tr.highWater < tr.bufferedBytes ∧ tr.protocolPaused = false
  | .resumeWriting, tr =>
    tr.isClosing = false ∧ tr.protocolPaused = true ∧ tr.bufferedBytes ≤ tr.lowWater
  | .setLimits high low, _ => low ≤ high
  | .writeEofCalled, tr => tr.givesUp = false
  | .closeCalled, tr => tr.closing = false
  | .uvShutdown, tr => tr.writeBufferSize = 0 ∧ Kept tr
  | .force cause exc, tr =>
    cause = .flush → exc = some writeAfterEof → tr.history.any Event.isLeftover = true
  | .clearWriteBufferSize, tr => tr.closing = true ∧ tr.history.any Event.isForced = true
  | .setReadStatePending, tr => tr.allocatingReadBuffer = true
  | .clearOpen, tr =>
    tr.opened = true ∧ tr.closing = true ∧
      (tr.history.any Event.isForced = true ∨ tr.writeBufferSize = 0 ∧ Kept tr)
  | .uvClose, tr => tr.disarming = true
  | .readStart, tr => tr.isClosing = false ∧ readingShut tr.history = false
  | .readingPaused _, tr => tr.allocatingReadBuffer = false ∧ tr.reading = false
  | .call m, tr =>
    (m.reads = true → tr.connLost = false) ∧ (m.delivers = true → heldBack tr.history = false) ∧
      m.flow = false ∧ (m.reads = true → atEof tr.history = false) ∧
      (m = .eofReceived → tr.reading = false)
  | .completed _ r rest queueSize, tr =>
    tr.stream.requests = r :: rest ∧ queueSize ≤ tr.stream.queueSize
  | .drained queueSize, tr => queueSize ≤ tr.stream.queueSize
  | .lost, tr => tr.stream.closing = true ∧ tr.stream.closed = false ∧ tr.stream.requests = []
  | .lostQueued, tr => tr.connLost = true ∧ tr.history.any Event.isLostQueued = false
  | .detach, tr => tr.connLost = true ∧ tr.server = true ∧ Event.detach ∉ tr.history
  | _, _ => True

/-- The acts of methods Python code can call. -/
def Act.python : Act → Bool
  | .clearReadStatePending | .setAllocating _ | .uvReadEnd | .call _ | .completed _ _ _ _
  | .drained _ | .lost | .lostQueued | .detach | .clearHandleRef => false
  | _ => true

/-- The acts that change nothing but the transport, and look at nothing else. -/
def Act.plain : Act → Bool
  | .uvClose | .lostQueued | .readingPaused _ => false
  | _ => true

/-! ## Steps -/

/-- The loop goes on with the same flush list, the same handles, and no new calls of a
transport. -/
structure SameFlush (c c' : Loop.Core Call) : Prop where
  /-- The flush list is the same. -/
  flushHead : c'.flushHead = c.flushHead
  /-- The flush flag is the same. -/
  flusherActive : c'.flusherActive = c.flusherActive
  /-- The prepare handle is as it was. -/
  uvPrepare : c'.uvPrepare = c.uvPrepare
  /-- The loop is as open as it was. -/
  closed : c'.closed = c.closed
  /-- As many handles are closing. -/
  closingHandles : c'.closingHandles = c.closingHandles
  /-- No call of a transport is queued. -/
  ready : ∀ call ∈ c'.ready.toList, call ∈ c.ready.toList ∨ call.transport? = none

/-- One step. -/
inductive Step (py : Bool) (s : State) : State → Prop where
  /-- An act on a transport. -/
  | act (t : ℕ) (a : Act) : (s.tr t).made = true → a.plain = true →
      (py = true → a.python = true) → a.Allowed (s.tr t) → Step py s (s.act t a)
  /-- `pause_reading()` returns. -/
  | readingPaused (t : ℕ) (early : Bool) : (s.tr t).made = true →
      (Act.readingPaused early).Allowed (s.tr t) →
      (.startReading t ∈ s.ready.toList → early = true) → Step py s (s.act t (.readingPaused early))
  /-- `uv_close` is called. -/
  | uvClose (t : ℕ) : (s.tr t).made = true → Act.uvClose.Allowed (s.tr t) →
      Step py s (s.uvClose t)
  /-- A transport is put on the flush list. -/
  | queueFlush (t : ℕ) : (s.tr t).made = true → (s.tr t).flushQueued = false →
      s.prepared = false → Step py s (s.queueFlush t)
  /-- The loop goes on. -/
  | core (c : Loop.Core Call) : SameFlush s.toCore c → (s.uvIdle = true → c.uvIdle = true) →
      c.running = s.running → Step py s { s with toCore := c }
  /-- A transport is made. -/
  | addTransport (writePipe : Bool) (p : Protocol) (server : Bool) (calls : List Call)
      (ready : Queue Call) : ready.toList = s.ready.toList ++ calls →
      (∀ call ∈ calls, ∀ t, call.transport? = some t → t = s.fresh) →
      Step py s ((s.addTransport (.create writePipe p server)).setReady ready)
  /-- A transport could not be opened. -/
  | failOpen : Step py s s.failOpen
  /-- A native call begins. -/
  | enter : Step py s s.enter
  /-- A native call ends. -/
  | leave : Step py s s.leave
  /-- The loop starts, stops or takes a callback off the ready queue. -/
  | turn (c : Loop.Core Call) : py = false → SameFlush s.toCore c → s.flushing = false →
      s.prepared = false → Step py s { s with toCore := c }
  /-- `connection_lost` is queued. -/
  | lostQueued (t : ℕ) (exc : Option Exc) (ready : Queue Call) : py = false →
      (s.tr t).made = true → Act.lostQueued.Allowed (s.tr t) →
      ready.toList = s.ready.toList ++ [.connectionLost t exc] →
      Step py s ((s.setReady ready).act t .lostQueued)
  /-- The close callback of a handle is called. -/
  | handleClosed (failedOpens : ℕ) : py = false → s.flushing = false → s.prepared = false →
      Step py s { s.externalHandleClosed with failedOpens }
  /-- The flush list is detached. -/
  | detachFlushList : py = false → s.draining = [] → Step py s s.detachFlushList
  /-- The next transport is taken off the detached list. -/
  | visit (t : ℕ) (rest : List ℕ) : py = false → s.draining = t :: rest →
      Step py s (s.visit t rest)
  /-- `onFlush` begins, by detaching the flush list. -/
  | beginFlush : py = false → s.draining = [] → s.prepared = false →
      Step py s s.beginFlush.detachFlushList
  /-- `onFlush` ends. -/
  | endFlush : py = false → Step py s s.endFlush
  /-- The prepare handles have run. -/
  | prepared : py = false → s.flushing = false →
      (s.flushHead = [] ∨ s.late = true ∨ s.mayBlock = false) →
      Step py s { s.leave with prepared := true }
  /-- libuv polls. -/
  | poll : py = false → Step py s { s with prepared := false }

/-- A step of Python code is a step. -/
theorem Step.mono {py : Bool} {s s' : State} (h : Step true s s') : Step py s s' := by
  cases h with
  | act t a hm hp hpy hok => exact .act t a hm hp (fun _ => hpy rfl) hok
  | readingPaused t early hm hok hearly => exact .readingPaused t early hm hok hearly
  | uvClose t hm hok => exact .uvClose t hm hok
  | queueFlush t hm hq hp => exact .queueFlush t hm hq hp
  | core c hc hi hr => exact .core c hc hi hr
  | addTransport w p srv calls ready hr hc => exact .addTransport w p srv calls ready hr hc
  | failOpen => exact .failOpen
  | enter => exact .enter
  | leave => exact .leave
  | turn _ h | lostQueued _ _ _ h | handleClosed _ h | detachFlushList h | visit _ _ h
  | beginFlush h | endFlush h | prepared h | poll h => cases h

/-- Any number of steps. -/
abbrev Steps (py : Bool) : State → State → Prop := Relation.ReflTransGen (Step py)

/-- A state the steps lead to. -/
def Reachable (s : State) : Prop := Steps false .init s

theorem Steps.mono {py : Bool} {s s' : State} (h : Steps true s s') : Steps py s s' :=
  Relation.ReflTransGen.mono (fun _ _ hstep => Step.mono hstep) _ _ h

theorem Reachable.steps {py : Bool} {s s' : State} (h : Reachable s) (hs : Steps py s s') :
    Reachable s' := by
  cases py with
  | false => exact h.trans hs
  | true => exact h.trans hs.mono

/-! ## What every act leaves alone -/

namespace Transport

variable (tr : Transport)

@[simp]
theorem record_made (e : Event) : (tr.record e).made = tr.made := rfl

@[simp]
theorem record_flushQueued (e : Event) : (tr.record e).flushQueued = tr.flushQueued := rfl

theorem recordCall_eq (m : Method) :
    tr.recordCall m = { tr with history := (tr.recordCall m).history } := by
  unfold recordCall
  split <;> rfl

end Transport

/-- The acts whose effect on the history depends on the transport. -/
def Act.branches : Act → Bool
  | .setClosing | .pauseWriting | .resumeWriting => true
  | _ => false

/-- They change two flags and the history, and nothing else. -/
theorem Act.run_branches {a : Act} (ha : a.branches = true) (tr : Transport) :
    ∃ closing protocolPaused history,
      a.run tr = { tr with closing, protocolPaused, history } := by
  cases a with
  | setClosing =>
    unfold Act.run
    dsimp only
    split
    · exact ⟨tr.closing, tr.protocolPaused, tr.history, rfl⟩
    · exact ⟨true, tr.protocolPaused, _, rfl⟩
  | pauseWriting => exact ⟨tr.closing, true, _, Transport.recordCall_eq _ _⟩
  | resumeWriting => exact ⟨tr.closing, false, _, Transport.recordCall_eq _ _⟩
  | _ => cases ha

/-- No act unmakes a transport, or touches its place on the flush lists. -/
theorem Act.run_frame (a : Act) (tr : Transport) :
    (a.run tr).made = tr.made ∧ (a.run tr).flushQueued = tr.flushQueued := by
  cases a with
  | setClosing =>
    unfold Act.run
    dsimp only
    split <;> exact ⟨rfl, rfl⟩
  | pauseWriting | resumeWriting =>
    unfold Act.run
    dsimp only
    rw [Transport.recordCall_eq]
    exact ⟨rfl, rfl⟩
  | _ => exact ⟨rfl, rfl⟩

/-! ## What every act records -/

/-- The call of a method, if the protocol has it. -/
def Transport.callEvent (tr : Transport) (m : Method) : Option Event :=
  if tr.protocol.bound m then some (.called m) else none

/-- The event an act records. -/
def Act.event : Act → Transport → Option Event
  | .pauseWriting, tr => tr.callEvent .pauseWriting
  | .resumeWriting, tr => tr.callEvent .resumeWriting
  | .setLimits high low, _ => some (.limits high low)
  | .limitsRaised, _ => some .limitsRaised
  | .writeEofCalled, tr => some (.writeEofCalled tr.accepted.length)
  | .setEofWritten, tr => some (.eofWritten tr.pending.length)
  | .uvShutdown, tr => some (.uvShutdown tr.written)
  | .closeCalled, tr => some (.closeCalled tr.accepted.length)
  | .force cause exc, _ => some (.forced cause exc)
  | .setClosing, tr => if tr.closing then none else some .closingBegan
  | .uvClose, tr => some (.uvClose tr.written)
  | .readingPaused early, _ => some (.readingPaused early)
  | .resumeReading, _ => some .resumeReading
  | .startReading, tr => if tr.history.any Event.isEof then some .lateStart else none
  | .call m, _ => some (.called m)
  | .completed ok _ _ _, _ => if ok then none else some .writeFailed
  | .lostQueued, tr => some (.connectionLostQueued tr.connLostExc)
  | .detach, _ => some .detach
  | _, _ => none

/-- An act adds the event it records to the history, and nothing else. -/
theorem Act.history_run (a : Act) (tr : Transport) :
    (a.run tr).history = tr.history ++ (a.event tr).toList := by
  cases a with
  | pauseWriting | resumeWriting =>
    simp only [run, event, Transport.recordCall, Transport.callEvent]
    split <;> simp [Transport.record]
  | setClosing =>
    simp only [run, event]
    split <;> simp [Transport.record]
  | completed | startReading =>
    simp only [run, event]
    split <;> simp
  | _ => simp [run, event, Transport.record]

/-- The event an act records is the last one. -/
theorem Act.history_run_of_event {a : Act} {tr : Transport} {e : Event}
    (h : a.event tr = some e) : (a.run tr).history = tr.history ++ [e] := by
  rw [a.history_run, h]
  rfl

/-- An act that records nothing leaves the history alone. -/
theorem Act.history_run_of_none {a : Act} {tr : Transport} (h : a.event tr = none) :
    (a.run tr).history = tr.history := by
  rw [a.history_run, h]
  exact List.append_nil _

theorem heldBack_append (h : List Event) (e : Event) :
    heldBack (h ++ [e]) = match e with
      | .readingPaused early => heldBack h || !early
      | .resumeReading => false
      | _ => heldBack h := by
  rw [heldBack, List.foldl_append]
  rfl

theorem atEof_append (h : List Event) (e : Event) :
    atEof (h ++ [e]) = (e.isEof || atEof h && (h.contains .closingBegan || !e.asksToRead)) := by
  have hclosing : (h.foldl (fun (closing, eof) e =>
      (closing || e == .closingBegan, e.isEof || eof && (closing || !e.asksToRead)))
      (false, false)).1 = h.contains .closingBegan := by
    induction h using List.reverseRecOn with
    | nil => rfl
    | append_singleton h e ih =>
      have hlast : [e].contains Event.closingBegan = (e == .closingBegan) := by cases e <;> rfl
      rw [List.foldl_append, List.contains_append, hlast, ← ih]
      rfl
  rw [atEof, List.foldl_append, ← hclosing]
  rfl

/-- The end of the file is remembered from `eof_received` on. -/
theorem atEof_of_not_any {h : List Event} (hh : h.any Event.isEof = false) : atEof h = false := by
  induction h using List.reverseRecOn with
  | nil => rfl
  | append_singleton h e ih =>
    rw [List.any_append, Bool.or_eq_false_iff] at hh
    have he : e.isEof = false := by simpa using hh.2
    rw [atEof_append, he, ih hh.1]
    rfl

/-- Whoever starts to read has forgotten the end of the file. -/
theorem readingShut_startReading {tr : Transport} (hclosing : Event.closingBegan ∉ tr.history) :
    readingShut (Act.startReading.run tr).history = heldBack tr.history := by
  change readingShut (if tr.history.any Event.isEof then _ else _) = _
  split
  · rw [readingShut, atEof_append, heldBack_append]
    simp [Event.isEof, Event.asksToRead, hclosing]
  · rename_i hnone
    rw [readingShut, atEof_of_not_any ((Bool.not_eq_true _).mp hnone), Bool.or_false]

/-- Only a pause and the end of the file keep the transport from reading. -/
theorem readingShut_append (h : List Event) (e : Event) :
    readingShut (h ++ [e]) = match e with
      | .readingPaused early => readingShut h || !early
      | .resumeReading => atEof h && h.contains .closingBegan
      | .lateStart => heldBack h || atEof h && h.contains .closingBegan
      | .called m => readingShut h || m == .eofReceived
      | _ => readingShut h := by
  rw [readingShut, heldBack_append, atEof_append]
  cases e with
  | called m => cases m <;> simp [Event.isEof, Event.asksToRead, readingShut]
  | readingPaused early =>
    simp [Event.isEof, Event.asksToRead, readingShut, Bool.or_right_comm]
  | _ => simp [Event.isEof, Event.asksToRead, readingShut]

/-- Only a pause holds reading back. -/
theorem Act.heldBack_run {a : Act} {tr : Transport} (hplain : a.plain = true ∨ a = .uvClose ∨
    a = .lostQueued) (h : heldBack tr.history = false) : heldBack (a.run tr).history = false := by
  rw [a.history_run]
  cases he : a.event tr with
  | none => simpa using h
  | some e =>
    change heldBack (tr.history ++ [e]) = false
    rw [heldBack_append]
    cases e with
    | readingPaused early =>
      -- the act is that of a pause
      cases a <;> simp [event, Transport.callEvent, plain] at he hplain
    | resumeReading => rfl
    | _ => exact h

theorem readingShut_eq_false {h : List Event} :
    readingShut h = false ↔ heldBack h = false ∧ atEof h = false := Bool.or_eq_false_iff

/-- Only a pause and the end of the file keep the transport from reading. -/
theorem Act.readingShut_run {a : Act} {tr : Transport} (hpause : ∀ early, a ≠ .readingPaused early)
    (hcall : a ≠ .call .eofReceived) (h : readingShut tr.history = false) :
    readingShut (a.run tr).history = false := by
  rw [a.history_run]
  cases he : a.event tr with
  | none => simpa using h
  | some e =>
    change readingShut (tr.history ++ [e]) = false
    rw [readingShut_append]
    cases e with
    | readingPaused early =>
      cases a <;> simp [event, Transport.callEvent] at he
      exact absurd rfl (hpause _)
    | called m =>
      change (readingShut tr.history || m == .eofReceived) = false
      rw [h, Bool.false_or, beq_eq_false_iff_ne]
      rintro rfl
      -- flow control calls its own methods
      cases a <;> simp [event, Transport.callEvent] at he
      exact hcall (congrArg Act.call he)
    | resumeReading =>
      exact Bool.and_eq_false_iff.mpr (.inl (readingShut_eq_false.mp h).2)
    | lateStart =>
      obtain ⟨hheld, heof⟩ := readingShut_eq_false.mp h
      exact Bool.or_eq_false_iff.mpr ⟨hheld, Bool.and_eq_false_iff.mpr (.inl heof)⟩
    | _ => exact h

/-! ## Invariants of a transport -/

/-- What a step does to the transports: it leaves a transport alone, performs an act on it, puts it
on or takes it off a flush list, or makes it. -/
theorem Step.transport {py : Bool} {s s' : State} (h : Step py s s') (u : ℕ) :
    s'.tr u = s.tr u ∨
    (∃ a : Act, (s.tr u).made = true ∧ (py = true → a.python = true) ∧ a.Allowed (s.tr u) ∧
      s'.tr u = a.run (s.tr u)) ∨
    (∃ b, (py = true → b = true) ∧ s'.tr u = (s.tr u).setFlushQueued b) ∨
    (u = s.fresh ∧ ∃ writePipe p server, s'.tr u = .create writePipe p server) := by
  have hact : ∀ (s₀ : State) (t : ℕ) (a : Act), s₀.tr = s.tr → (s.tr t).made = true →
      (py = true → a.python = true) → a.Allowed (s.tr t) →
      (s₀.act t a).tr u = s.tr u ∨ ∃ b : Act, (s.tr u).made = true ∧
        (py = true → b.python = true) ∧ b.Allowed (s.tr u) ∧
          (s₀.act t a).tr u = b.run (s.tr u) := by
    intro s₀ t a hs hm hpy hok
    by_cases hu : u = t
    · subst hu
      exact .inr ⟨a, hm, hpy, hok, by rw [State.tr_act_self, hs]⟩
    · exact .inl (by rw [State.tr_act_ne _ hu, hs])
  cases h with
  | act t a hm _ hpy hok =>
    rcases hact s t a rfl hm hpy hok with h | h
    · exact .inl h
    · exact .inr (.inl h)
  | readingPaused t early hm hok =>
    rcases hact s t _ rfl hm (fun _ => rfl) hok with h | h
    · exact .inl h
    · exact .inr (.inl h)
  | uvClose t hm hok =>
    rcases hact s t _ rfl hm (fun _ => rfl) hok with h | h
    · exact .inl h
    · exact .inr (.inl h)
  | lostQueued t exc ready hpy hm hok =>
    rcases hact (s.setReady ready) t .lostQueued rfl hm (fun h => by simp [hpy] at h) hok
      with h | h
    · exact .inl h
    · exact .inr (.inl h)
  | queueFlush t =>
    rw [State.tr_queueFlush]
    split
    · exact .inr (.inr (.inl ⟨true, fun _ => rfl, rfl⟩))
    · exact .inl rfl
  | visit t rest hpy =>
    rw [State.tr_visit]
    split
    · exact .inr (.inr (.inl ⟨false, fun h => by simp [hpy] at h, rfl⟩))
    · exact .inl rfl
  | addTransport writePipe p server =>
    by_cases hu : u = s.fresh
    · exact .inr (.inr (.inr ⟨hu, writePipe, p, server, hu ▸ Function.update_self ..⟩))
    · exact .inl (Function.update_of_ne hu ..)
  | endFlush =>
    unfold State.endFlush
    split <;> exact .inl rfl
  | core | failOpen | enter | leave | turn | handleClosed | detachFlushList | beginFlush
  | prepared | poll => exact .inl rfl

/-- A transport that every act keeps well keeps well in every reachable state. -/
theorem Reachable.transport {I : Transport → Prop} (hblank : I .blank)
    (hcreate : ∀ writePipe p server, I (.create writePipe p server))
    (hflush : ∀ tr b, I tr → I (Transport.setFlushQueued tr b))
    (hact : ∀ (tr : Transport) (a : Act), tr.made = true → a.Allowed tr → I tr → I (a.run tr))
    {s : State} (h : Reachable s) (t : ℕ) : I (s.tr t) := by
  induction h with
  | refl => exact hblank
  | tail _ hstep ih =>
    rcases hstep.transport t with h | ⟨a, hm, -, hok, h⟩ | ⟨b, -, h⟩ | ⟨-, w, p, srv, h⟩
    · rwa [h]
    · rw [h]
      exact hact _ a hm hok ih
    · rw [h]
      exact hflush _ b ih
    · rw [h]
      exact hcreate w p srv

/-! ## The loop -/

/-- What the loop always satisfies. -/
structure Global (s : State) : Prop where
  /-- A number that has not been given out stands for a blank record. -/
  blank : ∀ u, s.fresh ≤ u → s.tr u = .blank
  /-- A number that has been given out stands for a transport. -/
  made : ∀ u < s.fresh, (s.tr u).made = true
  /-- The loop is open. -/
  opened : s.closed = false
  /-- The calls of the ready queue are those of transports. -/
  queue : ∀ call ∈ s.ready.toList, ∀ t, call.transport? = some t → (s.tr t).made = true
  /-- A queued `_start_reading` finds reading not held back. -/
  start : ∀ t, .startReading t ∈ s.ready.toList → heldBack (s.tr t).history = false
  /-- A transport is on the flush list or on the detached one at most once. -/
  nodup : (s.flushHead ++ s.draining).Nodup
  /-- `FLUSH_QUEUED` says that it is on one of them. -/
  listed : ∀ u, (s.tr u).flushQueued = true ↔ u ∈ s.flushHead ++ s.draining
  /-- The prepare flag is right. -/
  flusher : s.flusherActive = s.uvPrepare
  /-- The prepare handle is active while there is something to flush. -/
  prepare : s.flushHead ≠ [] → s.uvPrepare = true
  /-- What `onFlush` finds registered again was late, or the loop will not block. -/
  late : s.flushing = true → s.flushHead = [] ∨ s.late = true ∨ s.mayBlock = false
  /-- The same after `onFlush`, before the poll. -/
  prepared : s.prepared = true → s.flushHead = [] ∨ s.late = true ∨ s.mayBlock = false

namespace Global

variable {s : State}

theorem init : Global .init where
  blank := fun _ _ => rfl
  made := fun _ hu => absurd hu (Nat.not_lt_zero _)
  opened := rfl
  queue := fun _ hc => by simp [State.init, Loop.Core.init] at hc
  start := fun _ hc => by simp [State.init, Loop.Core.init] at hc
  nodup := List.nodup_nil
  listed := fun _ => by simp [State.init, Loop.Core.init, Transport.blank]
  flusher := rfl
  prepare := fun h => absurd rfl h
  late := fun h => by cases h
  prepared := fun h => by cases h

/-- A transport exists exactly if its number has been given out. -/
theorem made_iff (h : Global s) (t : ℕ) : (s.tr t).made = true ↔ t < s.fresh := by
  refine ⟨fun hm => ?_, h.made t⟩
  by_contra hlt
  rw [h.blank t (not_lt.mp hlt)] at hm
  cases hm

/-- A change that keeps the numbers, the ready queue and the flush lists. -/
theorem congr (h : Global s) {s' : State} (hfresh : s'.fresh = s.fresh)
    (hblank : ∀ u, s.fresh ≤ u → s'.tr u = s.tr u)
    (hmade : ∀ u, (s'.tr u).made = (s.tr u).made)
    (hqueued : ∀ u, (s'.tr u).flushQueued = (s.tr u).flushQueued)
    (hheld : ∀ u, .startReading u ∈ s.ready.toList → heldBack (s'.tr u).history = false)
    (hclosed : s'.closed = s.closed)
    (hready : ∀ call ∈ s'.ready.toList, call ∈ s.ready.toList ∨ call.transport? = none)
    (hhead : s'.flushHead = s.flushHead) (hdraining : s'.draining = s.draining)
    (hactive : s'.flusherActive = s.flusherActive) (huv : s'.uvPrepare = s.uvPrepare)
    (hlate : s.flushing = true ∨ s.prepared = true → s'.late = s.late ∧
      (s.mayBlock = false → s'.mayBlock = false))
    (hflushing : s'.flushing = true → s.flushing = true)
    (hprepared : s'.prepared = true → s.prepared = true) : Global s' where
  blank := fun u hu => by rw [hblank u (hfresh ▸ hu), h.blank u (hfresh ▸ hu)]
  made := fun u hu => by rw [hmade, h.made u (hfresh ▸ hu)]
  opened := hclosed.trans h.opened
  queue := by
    intro call hcall t ht
    rcases hready call hcall with hc | hc
    · rw [hmade, h.queue call hc t ht]
    · rw [hc] at ht
      cases ht
  start := by
    intro t ht
    rcases hready _ ht with hc | hc
    · exact hheld t hc
    · cases hc
  nodup := by rw [hhead, hdraining]; exact h.nodup
  listed := fun u => by rw [hqueued, hhead, hdraining]; exact h.listed u
  flusher := by rw [hactive, huv]; exact h.flusher
  prepare := by rw [hhead, huv]; exact h.prepare
  late := by
    intro hf
    obtain ⟨hl, hb⟩ := hlate (.inl (hflushing hf))
    rw [hhead, hl]
    exact (h.late (hflushing hf)).imp_right (Or.imp_right hb)
  prepared := by
    intro hp
    obtain ⟨hl, hb⟩ := hlate (.inr (hprepared hp))
    rw [hhead, hl]
    exact (h.prepared (hprepared hp)).imp_right (Or.imp_right hb)

/-- An act on a transport. -/
theorem act (h : Global s) {t : ℕ} {a : Act} (hm : (s.tr t).made = true)
    (hheld : .startReading t ∈ s.ready.toList → heldBack (a.run (s.tr t)).history = false) :
    Global (s.act t a) := by
  have htr : ∀ u, (s.act t a).tr u = if u = t then a.run (s.tr u) else s.tr u := by
    intro u
    split
    · rename_i hu
      rw [hu, State.tr_act_self]
    · rename_i hu
      rw [State.tr_act_ne _ hu]
  refine h.congr rfl (fun u hu => ?_) (fun u => ?_) (fun u => ?_) (fun u hu => ?_) rfl
    (fun call hc => .inl hc) rfl rfl rfl rfl (fun _ => ⟨rfl, id⟩) id id
  · have hne : u ≠ t := by
      rintro rfl
      exact absurd ((h.made_iff u).mp hm) (not_lt.mpr hu)
    rw [htr, if_neg hne]
  · rw [htr]
    split
    · exact (a.run_frame _).1
    · rfl
  · rw [htr]
    split
    · exact (a.run_frame _).2
    · rfl
  · rw [htr]
    split
    · rename_i heq
      exact heq ▸ hheld (heq ▸ hu)
    · exact h.start u hu

theorem step {py : Bool} {s' : State} (h : Global s) (hstep : Step py s s') : Global s' := by
  cases hstep with
  | act t a hm hplain _ _ =>
    exact h.act hm fun hq => Act.heldBack_run (.inl hplain) (h.start t hq)
  | readingPaused t early hm _ hearly =>
    refine h.act hm fun hq => ?_
    change heldBack ((s.tr t).history ++ [.readingPaused early]) = false
    rw [heldBack_append, h.start t hq, hearly hq]
    rfl
  | uvClose t hm =>
    have hs := h.act hm fun hq => Act.heldBack_run (.inr (.inl rfl)) (h.start t hq)
    refine hs.congr rfl (fun _ _ => rfl) (fun _ => rfl) (fun _ => rfl) (fun u hu => hs.start u hu)
      rfl (fun call hc => .inl hc) rfl rfl rfl rfl (fun _ => ⟨rfl, fun _ => ?_⟩) id id
    simp [State.mayBlock, State.uvClose]
  | queueFlush t hm hq hp =>
    have hnot : t ∉ s.flushHead ++ s.draining := fun hmem => by
      rw [(h.listed t).mpr hmem] at hq
      cases hq
    have htr := s.tr_queueFlush t
    refine ⟨fun u hu => ?_, fun u hu => ?_, h.opened, fun call hc u hu => ?_, fun u hu => ?_,
      List.nodup_cons.mpr ⟨hnot, h.nodup⟩, fun u => ?_, ?_, fun _ => ?_, fun hf => ?_,
      fun hp' => ?_⟩
    · have hne : u ≠ t := by
        rintro rfl
        exact absurd ((h.made_iff u).mp hm) (not_lt.mpr hu)
      rw [htr, if_neg hne]
      exact h.blank u hu
    · rw [htr]
      split <;> exact h.made u hu
    · rw [htr]
      split <;> exact h.queue call hc u hu
    · rw [htr]
      split <;> exact h.start u hu
    · rw [htr]
      have hmem : u ∈ (s.queueFlush t).flushHead ++ (s.queueFlush t).draining ↔
          u ∈ t :: (s.flushHead ++ s.draining) := Iff.rfl
      rw [hmem]
      by_cases hu : u = t
      · simp [hu, Transport.setFlushQueued]
      · rw [if_neg hu, h.listed]
        simp [hu]
    · have := h.flusher
      cases hf : s.flusherActive <;> simp_all [State.queueFlush]
    · have := h.flusher
      cases hf : s.flusherActive <;> simp_all [State.queueFlush]
    · cases hb : s.mayBlock with
      | false => exact .inr (.inr hb)
      | true =>
        have hflush : s.flushing = true := hf
        exact .inr (.inl (by simp [State.queueFlush, hflush, hb]))
    · have : s.prepared = true := hp'
      rw [hp] at this
      cases this
  | core c hc hidle _ =>
    refine h.congr rfl (fun _ _ => rfl) (fun _ => rfl) (fun _ => rfl) (fun u hu => h.start u hu)
      hc.closed hc.ready hc.flushHead rfl hc.flusherActive hc.uvPrepare
      (fun _ => ⟨rfl, fun hb => ?_⟩) id id
    simp only [State.mayBlock, Bool.and_eq_false_iff, Bool.not_eq_false', beq_eq_false_iff_ne,
      hc.closingHandles] at hb ⊢
    exact hb.imp_left hidle
  | turn c _ hc hf hp =>
    exact h.congr rfl (fun _ _ => rfl) (fun _ => rfl) (fun _ => rfl) (fun u hu => h.start u hu)
      hc.closed hc.ready hc.flushHead rfl hc.flusherActive hc.uvPrepare
      (fun hfp => by simp [hf, hp] at hfp) id id
  | addTransport w p srv calls ready hready hcalls =>
    have htr : ∀ u, u ≠ s.fresh →
        ((s.addTransport (.create w p srv)).setReady ready).tr u = s.tr u :=
      fun u hu => Function.update_of_ne hu ..
    have hnew : ((s.addTransport (.create w p srv)).setReady ready).tr s.fresh =
        .create w p srv := Function.update_self ..
    have hmem : ∀ call ∈ ready.toList, call ∈ s.ready.toList ∨ call ∈ calls := by
      rw [hready]
      exact fun call => List.mem_append.mp
    have hold : ∀ call ∈ s.ready.toList, ∀ t, call.transport? = some t → t ≠ s.fresh := by
      rintro call hc t ht rfl
      exact absurd ((h.made_iff _).mp (h.queue call hc _ ht)) (lt_irrefl _)
    refine ⟨fun u hu => ?_, fun u hu => ?_, h.opened, fun call hc t ht => ?_, fun t ht => ?_,
      h.nodup, fun u => ?_, h.flusher, h.prepare, h.late, h.prepared⟩
    · have hu' : s.fresh + 1 ≤ u := hu
      rw [htr u (by omega), h.blank u (by omega)]
    · have hu' : u < s.fresh + 1 := hu
      rcases Nat.lt_succ_iff_lt_or_eq.mp hu' with hlt | rfl
      · rw [htr u (by omega), h.made u hlt]
      · rw [hnew]
        rfl
    · rcases hmem call hc with hc | hc
      · rw [htr t (hold call hc t ht), h.queue call hc t ht]
      · rw [hcalls call hc t ht, hnew]
        rfl
    · rcases hmem _ ht with hc | hc
      · rw [htr t (hold _ hc t rfl), h.start t hc]
      · rw [hcalls _ hc t rfl, hnew]
        rfl
    · by_cases hu : u = s.fresh
      · rw [hu, hnew]
        have := h.listed s.fresh
        rw [h.blank s.fresh le_rfl] at this
        exact this
      · rw [htr u hu]
        exact h.listed u
  | failOpen =>
    refine h.congr rfl (fun _ _ => rfl) (fun _ => rfl) (fun _ => rfl) (fun u hu => h.start u hu)
      rfl (fun call hc => .inl hc) rfl rfl rfl rfl (fun _ => ⟨rfl, fun _ => ?_⟩) id id
    simp [State.mayBlock, State.failOpen]
  | enter | leave =>
    exact h.congr rfl (fun _ _ => rfl) (fun _ => rfl) (fun _ => rfl) (fun u hu => h.start u hu)
      rfl (fun call hc => .inl hc) rfl rfl rfl rfl (fun _ => ⟨rfl, id⟩) id id
  | lostQueued t exc ready _ hm _ hready =>
    have hs : Global (s.setReady ready) := by
      have hmem : ∀ call ∈ ready.toList, call ∈ s.ready.toList ∨ call = .connectionLost t exc := by
        rw [hready]
        exact fun call hc => (List.mem_append.mp hc).imp_right List.mem_singleton.mp
      refine ⟨h.blank, h.made, h.opened, fun call hc u hu => ?_, fun u hu => ?_, h.nodup, h.listed,
        h.flusher, h.prepare, h.late, h.prepared⟩
      · rcases hmem call hc with hc | rfl
        · exact h.queue call hc u hu
        · cases hu
          exact hm
      · rcases hmem _ hu with hc | hc
        · exact h.start u hc
        · cases hc
    exact hs.act hm fun hq => Act.heldBack_run (.inr (.inr rfl)) (hs.start t hq)
  | handleClosed n _ hf hp =>
    exact h.congr rfl (fun _ _ => rfl) (fun _ => rfl) (fun _ => rfl) (fun u hu => h.start u hu)
      rfl (fun call hc => .inl hc) rfl rfl rfl rfl (fun hfp => by simp [hf, hp] at hfp) id id
  | detachFlushList _ hd =>
    have hn := h.nodup
    have hl := h.listed
    rw [hd, List.append_nil] at hn
    simp only [hd, List.append_nil] at hl
    exact ⟨h.blank, h.made, h.opened, h.queue, h.start, hn, hl, h.flusher,
      fun hne => absurd rfl hne, fun _ => .inl rfl, fun _ => .inl rfl⟩
  | beginFlush _ hd hp =>
    have hn := h.nodup
    have hl := h.listed
    rw [hd, List.append_nil] at hn
    simp only [hd, List.append_nil] at hl
    exact ⟨h.blank, h.made, h.opened, h.queue, h.start, hn, hl, h.flusher,
      fun hne => absurd rfl hne, fun _ => .inl rfl, fun _ => .inl rfl⟩
  | visit t rest _ hd =>
    have hn := h.nodup
    rw [hd, List.nodup_middle, List.nodup_cons] at hn
    have htr := s.tr_visit t rest
    have hm : (s.tr t).made = true := by
      by_contra hm
      have hblank := h.blank t (by
        by_contra hlt
        exact hm (h.made t (not_le.mp hlt)))
      have := (h.listed t).mpr (by simp [hd])
      rw [hblank] at this
      cases this
    refine ⟨fun u hu => ?_, fun u hu => ?_, h.opened, fun call hc u hu => ?_, fun u hu => ?_,
      hn.2, fun u => ?_, h.flusher, h.prepare, h.late, h.prepared⟩
    · have hne : u ≠ t := by
        rintro rfl
        exact absurd ((h.made_iff u).mp hm) (not_lt.mpr hu)
      rw [htr, if_neg hne]
      exact h.blank u hu
    · rw [htr]
      split <;> exact h.made u hu
    · rw [htr]
      split <;> exact h.queue call hc u hu
    · rw [htr]
      split <;> exact h.start u hu
    · rw [htr]
      have hmem : u ∈ (s.visit t rest).flushHead ++ (s.visit t rest).draining ↔
          u ∈ s.flushHead ++ rest := Iff.rfl
      rw [hmem]
      by_cases hu : u = t
      · subst hu
        simpa [Transport.setFlushQueued] using hn.1
      · rw [if_neg hu, h.listed, hd]
        simp [hu]
  | endFlush =>
    unfold State.endFlush
    split
    · rename_i hempty
      rw [List.isEmpty_iff] at hempty
      exact ⟨h.blank, h.made, h.opened, h.queue, h.start, h.nodup, h.listed, rfl,
        fun hne => absurd hempty hne, fun hf => (by cases hf), h.prepared⟩
    · exact ⟨h.blank, h.made, h.opened, h.queue, h.start, h.nodup, h.listed, h.flusher,
        h.prepare, fun hf => (by cases hf), h.prepared⟩
  | prepared _ hf hlate =>
    exact ⟨h.blank, h.made, h.opened, h.queue, h.start, h.nodup, h.listed, h.flusher,
      h.prepare, h.late, fun _ => hlate⟩
  | poll =>
    exact ⟨h.blank, h.made, h.opened, h.queue, h.start, h.nodup, h.listed, h.flusher,
      h.prepare, h.late, fun hp => by cases hp⟩

end Global

/-- The loop keeps in order along the steps. -/
theorem Reachable.global {s : State} (h : Reachable s) : Global s := by
  induction h with
  | refl => exact .init
  | tail _ hstep ih => exact ih.step hstep

/-! ## A transport by itself -/

/-- What a transport always satisfies, even in the middle of a native call. -/
structure Sane (tr : Transport) : Prop where
  /-- `pending_size` is the size of the batch. -/
  size : tr.pendingSize = tr.pendingBytes.length
  /-- The batch fits. -/
  room : tr.pending.length ≤ pendingMax
  /-- The water marks are in order. -/
  marks : tr.lowWater ≤ tr.highWater
  /-- Teardown begins with `CLOSING`. -/
  closing : tr.made = true → tr.opened = false → tr.closing = true
  /-- A transport that is not open has been closed, or is just about to be. -/
  closed : tr.made = true → tr.opened = false → tr.stream.closing = true ∨ tr.disarming = true
  /-- An open transport has not been closed. -/
  opened : tr.opened = true → tr.stream.closing = false ∧ tr.disarming = false
  /-- A transport about to be closed has not been. -/
  disarming : tr.disarming = true → tr.stream.closing = false
  /-- The close callback sets `CONN_LOST`. -/
  lost : tr.connLost = true ↔ tr.stream.closed = true
  /-- The close callback follows `uv_close`. -/
  uvClosed : tr.stream.closed = true → tr.stream.closing = true
  /-- `connection_lost` is queued by the close callback. -/
  lostQueued : tr.history.any Event.isLostQueued = true → tr.connLost = true
  /-- The server is told by the close callback. -/
  detached : Event.detach ∈ tr.history → tr.connLost = true
  /-- libuv is not asked to send nothing. -/
  positive : ∀ r ∈ tr.stream.requests, 0 < r.size
  /-- libuv reads only when the transport does. -/
  reading : tr.stream.reading = true → tr.reading = true
  /-- A transport that is not to read does not. -/
  shut : readingShut tr.history = true → tr.reading = false

namespace Sane

variable {tr : Transport}

theorem blank : Sane .blank where
  size := rfl
  room := Nat.zero_le _
  marks := by decide
  closing := fun h => by cases h
  closed := fun h => by cases h
  opened := fun h => by cases h
  disarming := fun h => by cases h
  lost := Iff.rfl
  uvClosed := fun h => by cases h
  lostQueued := fun h => by cases h
  detached := fun h => by cases h
  positive := fun _ h => by cases h
  reading := fun h => by cases h
  shut := fun h => by cases h

theorem create (writePipe : Bool) (p : Protocol) (server : Bool) :
    Sane (.create writePipe p server) where
  size := rfl
  room := Nat.zero_le _
  marks := (by decide : defaultHighWater / 4 ≤ defaultHighWater)
  closing := fun _ h => by cases h
  closed := fun _ h => by cases h
  opened := fun _ => ⟨rfl, rfl⟩
  disarming := fun h => by cases h
  lost := Iff.rfl
  uvClosed := fun h => by cases h
  lostQueued := fun h => by cases h
  detached := fun h => by simp [Transport.create] at h
  positive := fun _ h => by cases h
  reading := fun h => by cases h
  shut := fun h => by cases h

/-- Recording an event that says nothing about the close or about reading. -/
theorem record (h : Sane tr) {e : Event} (hlost : e.isLostQueued = true → tr.connLost = true)
    (hdetach : e = .detach → tr.connLost = true)
    (hshut : readingShut (tr.history ++ [e]) = true → tr.reading = false) :
    Sane (tr.record e) where
  size := h.size
  room := h.room
  marks := h.marks
  closing := h.closing
  closed := h.closed
  opened := h.opened
  disarming := h.disarming
  lost := h.lost
  uvClosed := h.uvClosed
  lostQueued := by
    intro hq
    rw [Transport.record, List.any_append, Bool.or_eq_true] at hq
    exact hq.elim h.lostQueued fun hq => hlost (by simpa using hq)
  detached := by
    intro hd
    rcases List.mem_append.mp hd with hd | hd
    · exact h.detached hd
    · exact hdetach (List.mem_singleton.mp hd).symm
  positive := h.positive
  reading := h.reading
  shut := hshut

/-- Recording an event that has nothing to do with the close or with reading. -/
theorem record_other (h : Sane tr) {e : Event} (hlost : e.isLostQueued = false)
    (hdetach : e ≠ .detach) (hshut : readingShut (tr.history ++ [e]) = readingShut tr.history) :
    Sane (tr.record e) :=
  h.record (fun hq => by simp [hlost] at hq) (fun hd => absurd hd hdetach)
    (fun hh => h.shut (hshut ▸ hh))

theorem recordCall (h : Sane tr) {m : Method} (hm : m ≠ .eofReceived) : Sane (tr.recordCall m) := by
  unfold Transport.recordCall
  split
  · refine h.record_other rfl (by simp) ?_
    rw [readingShut_append]
    simp [hm]
  · exact h

theorem act (h : Sane tr) (a : Act) (hok : a.Allowed tr) : Sane (a.run tr) := by
  cases a with
  | store b =>
    refine ⟨?_, ?_, h.marks, h.closing, h.closed, h.opened, h.disarming, h.lost, h.uvClosed,
      h.lostQueued, h.detached, h.positive, h.reading, h.shut⟩
    · change tr.pendingSize + b.data.length = ((tr.pending ++ [b]).map Buf.data).flatten.length
      rw [h.size, Transport.pendingBytes]
      simp
    · change (tr.pending ++ [b]).length ≤ pendingMax
      rw [List.length_append]
      exact hok.2.1
  | takePending | discardPending =>
    exact ⟨rfl, Nat.zero_le _, h.marks, h.closing, h.closed, h.opened, h.disarming, h.lost,
      h.uvClosed, h.lostQueued, h.detached, h.positive, h.reading, h.shut⟩
  | submit fresh bufs views queueSize =>
    refine ⟨h.size, h.room, h.marks, h.closing, h.closed, h.opened, h.disarming, h.lost, h.uvClosed,
      h.lostQueued, h.detached, fun r hr => ?_, h.reading, h.shut⟩
    rcases List.mem_append.mp hr with hr | hr
    · exact h.positive r hr
    · rw [List.mem_singleton.mp hr]
      exact hok.2.1
  | completed ok r rest queueSize =>
    have hshut : readingShut (if ok then tr.history else tr.history ++ [.writeFailed]) =
        readingShut tr.history := by
      split
      · rfl
      · exact readingShut_append ..
    refine ⟨h.size, h.room, h.marks, h.closing, h.closed, h.opened, h.disarming, h.lost, h.uvClosed,
      fun hq => h.lostQueued ?_, fun hd => h.detached ?_, fun r' hr => ?_, h.reading,
      fun hh => h.shut (hshut ▸ hh)⟩
    · cases ok <;> simpa [Act.run, Event.isLostQueued] using hq
    · cases ok <;> simpa [Act.run] using hd
    · exact h.positive r' (hok.1 ▸ List.mem_cons_of_mem r hr)
  | pauseWriting | resumeWriting =>
    have hs : ∀ b, Sane { tr with protocolPaused := b } := fun b => ⟨h.size, h.room, h.marks,
      h.closing, h.closed, h.opened, h.disarming, h.lost, h.uvClosed, h.lostQueued, h.detached,
      h.positive, h.reading, h.shut⟩
    exact (hs _).recordCall (by simp)
  | setLimits high low =>
    have hs : Sane { tr with highWater := high, lowWater := low } := ⟨h.size, h.room, hok,
      h.closing, h.closed, h.opened, h.disarming, h.lost, h.uvClosed, h.lostQueued, h.detached,
      h.positive, h.reading, h.shut⟩
    exact hs.record_other rfl (by simp) (readingShut_append ..)
  | call m =>
    refine h.record (fun h => by cases h) (fun h => by cases h) fun hh => ?_
    rw [readingShut_append, Bool.or_eq_true, beq_iff_eq] at hh
    exact hh.elim h.shut hok.2.2.2.2
  | limitsRaised | writeEofCalled | uvShutdown | closeCalled =>
    exact h.record_other rfl (by simp) (readingShut_append ..)
  | setEofWritten =>
    have hs : Sane { tr with eofWritten := true } := ⟨h.size, h.room, h.marks, h.closing,
      h.closed, h.opened, h.disarming, h.lost, h.uvClosed, h.lostQueued, h.detached, h.positive,
      h.reading, h.shut⟩
    exact hs.record_other rfl (by simp) (readingShut_append ..)
  | force cause exc =>
    have hs : Sane { tr with connLostExc := exc.or tr.connLostExc } := ⟨h.size, h.room, h.marks,
      h.closing, h.closed, h.opened, h.disarming, h.lost, h.uvClosed, h.lostQueued, h.detached,
      h.positive, h.reading, h.shut⟩
    exact hs.record_other rfl (by simp) (readingShut_append ..)
  | setClosing =>
    unfold Act.run
    dsimp only
    split
    · exact h
    · have hs : Sane { tr with closing := true } := ⟨h.size, h.room, h.marks, fun _ _ => rfl,
        h.closed, h.opened, h.disarming, h.lost, h.uvClosed, h.lostQueued, h.detached, h.positive,
        h.reading, h.shut⟩
      exact hs.record_other rfl (by simp) (readingShut_append ..)
  | clearOpen =>
    exact ⟨h.size, h.room, h.marks, fun _ _ => hok.2.1, fun _ _ => .inr rfl, fun h => (by cases h),
      fun _ => (h.opened hok.1).1, h.lost, h.uvClosed, h.lostQueued, h.detached, h.positive,
      h.reading, h.shut⟩
  | uvClose =>
    have hopen : tr.opened = false := by
      cases ho : tr.opened with
      | false => rfl
      | true =>
        have hd : tr.disarming = true := hok
        rw [(h.opened ho).2] at hd
        cases hd
    have hs : Sane { tr with disarming := false, stream := { tr.stream with closing := true } } :=
      ⟨h.size, h.room, h.marks, h.closing, fun _ _ => .inl rfl,
        fun ho => absurd ho (by simp [hopen]),
        fun h => (by cases h), h.lost, fun _ => rfl, h.lostQueued, h.detached, h.positive,
        h.reading, h.shut⟩
    exact hs.record_other rfl (by simp) (readingShut_append ..)
  | readStop =>
    exact ⟨h.size, h.room, h.marks, h.closing, h.closed, h.opened, h.disarming, h.lost, h.uvClosed,
      h.lostQueued, h.detached, h.positive, fun h => (by cases h), fun _ => rfl⟩
  | readStart =>
    refine ⟨h.size, h.room, h.marks, h.closing, h.closed, h.opened, h.disarming, h.lost, h.uvClosed,
      h.lostQueued, h.detached, h.positive, fun _ => rfl, fun hh => ?_⟩
    have hshut : readingShut tr.history = true := hh
    rw [hok.2] at hshut
    cases hshut
  | uvReadEnd =>
    exact ⟨h.size, h.room, h.marks, h.closing, h.closed, h.opened, h.disarming, h.lost, h.uvClosed,
      h.lostQueued, h.detached, h.positive, fun h => (by cases h), h.shut⟩
  | readingPaused early =>
    exact h.record (fun h => by cases h) (fun h => by cases h) fun _ => hok.2
  | resumeReading =>
    refine h.record (fun h => by cases h) (fun h => by cases h) fun hh => h.shut ?_
    rw [readingShut_append, Bool.and_eq_true_iff] at hh
    exact Bool.or_eq_true_iff.mpr (.inr hh.1)
  | startReading =>
    change Sane { tr with history := if tr.history.any Event.isEof then _ else _ }
    split
    · refine h.record (fun h => by cases h) (fun h => by cases h) fun hh => h.shut ?_
      rw [readingShut_append, Bool.or_eq_true_iff] at hh
      exact Bool.or_eq_true_iff.mpr (hh.imp_right fun heof => (Bool.and_eq_true_iff.mp heof).1)
    · exact h
  | lost =>
    exact ⟨h.size, h.room, h.marks, h.closing, h.closed, h.opened, h.disarming, ⟨fun _ => rfl,
      fun _ => rfl⟩, fun _ => hok.1, fun _ => rfl, fun _ => rfl, h.positive, h.reading,
      h.shut⟩
  | lostQueued =>
    refine h.record (fun _ => hok.1) (fun h => by cases h) fun hh => h.shut ?_
    rwa [readingShut_append] at hh
  | detach =>
    refine h.record (fun h => by cases h) (fun _ => hok.1) fun hh => h.shut ?_
    rwa [readingShut_append] at hh
  | acquireView | releaseViews | took | tear | setCloseRequested | clearWriteBufferSize
  | setReadStatePending | clearReadStatePending | setAllocating | takeSocketView | adopt
  | bindProtocol | drained | clearHandleRef =>
    exact ⟨h.size, h.room, h.marks, h.closing, h.closed, h.opened, h.disarming, h.lost, h.uvClosed,
      h.lostQueued, h.detached, h.positive, h.reading, h.shut⟩

/-- The flush lists do not matter. -/
theorem setFlushQueued (h : Sane tr) (b : Bool) : Sane (tr.setFlushQueued b) :=
  ⟨h.size, h.room, h.marks, h.closing, h.closed, h.opened, h.disarming, h.lost, h.uvClosed,
    h.lostQueued, h.detached, h.positive, h.reading, h.shut⟩

end Sane

/-- `CLOSING` stays, and is set when closing begins. -/
theorem Act.closing_run (a : Act) {tr : Transport}
    (h : tr.closing = true ∨ a.event tr = some .closingBegan) : (a.run tr).closing = true := by
  cases a with
  | setClosing =>
    change Transport.closing (if tr.closing = true then tr else _) = true
    split
    · assumption
    · rfl
  | pauseWriting | resumeWriting =>
    rcases h with h | h
    · exact (congrArg Transport.closing (Transport.recordCall_eq _ _)).trans h
    · simp [event, Transport.callEvent] at h
  | completed | startReading =>
    rcases h with h | h
    · exact h
    · simp [event] at h
  | _ =>
    rcases h with h | h
    · exact h
    · cases h

/-- A transport that began to close is closing. -/
theorem Reachable.closing {s : State} (h : Reachable s) (t : ℕ) :
    Event.closingBegan ∈ (s.tr t).history → (s.tr t).closing = true := by
  refine h.transport (I := fun tr => .closingBegan ∈ tr.history → tr.closing = true) nofun
    (fun _ _ _ hmem => by simp [Transport.create] at hmem) (fun _ _ hI => hI)
    (fun tr a _ _ hI hmem => a.closing_run ?_) t
  rw [a.history_run, List.mem_append, Option.mem_toList] at hmem
  exact hmem.imp_left hI

/-- Every transport of a reachable state is sane. -/
theorem Reachable.sane {s : State} (h : Reachable s) (t : ℕ) : Sane (s.tr t) :=
  h.transport Sane.blank Sane.create (fun _ b h => h.setFlushQueued b)
    (fun _ a _ hok h => h.act a hok) t

end Zuvloop.Stream
