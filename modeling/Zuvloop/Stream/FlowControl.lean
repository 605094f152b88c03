import Zuvloop.Stream.Verified

/-!
# Flow control of a transport

A transport pauses its protocol when too much is waiting and resumes it when little is left. What
waits is in libuv's queue or in the pending batch, and every call can write, close, or move the
water marks before it returns.

## Main results

* `flow_control`: pauses and resumes in turn, marks in order, and a pause exactly while there is
  something to wait for.
-/

namespace Zuvloop.Stream

open Reentrant

/-! ## What the protocol was told -/

/-- The calls of flow control in a history. -/
def flowCalls (h : List Event) : List Method :=
  h.filterMap fun e =>
    match e with
    | .called m => if m.flow then some m else none
    | _ => none

/-- A pause comes first, and from then on pauses and resumes take turns. -/
def InTurn (calls : List Method) : Prop :=
  ∀ i m, calls[i]? = some m → m = if i % 2 = 0 then .pauseWriting else .resumeWriting

/-- The water marks that the last successful `set_write_buffer_limits` of a history set, high and
low. -/
def lastMarks (h : List Event) : ℕ × ℕ :=
  h.foldl (fun marks e =>
    match e with
    | .limits high low => (high, low)
    | _ => marks) (defaultHighWater, defaultHighWater / 4)

/-- What flow control guarantees. What it says of the calls is for protocols that have the methods
of `asyncio.BaseProtocol`: a transport does not call the ones that are missing. -/
structure Transport.Controlled (tr : Transport) : Prop where
  /-- Pauses and resumes take turns, and a pause comes first. -/
  inTurn : tr.complete = true → InTurn (flowCalls tr.history)
  /-- The transport takes the protocol for paused exactly if it was told so last. -/
  paused : tr.complete = true →
    (tr.protocolPaused = true ↔ (flowCalls tr.history).getLast? = some .pauseWriting)
  /-- The water marks are in order. -/
  marks : tr.lowWater ≤ tr.highWater
  /-- They are those of the last call that did not raise. -/
  limits : (tr.highWater, tr.lowWater) = lastMarks tr.history
  /-- Too much in libuv's queue pauses the protocol. -/
  above : tr.isClosing = false → 0 < tr.writeBufferSize → tr.highWater < tr.stream.queueSize →
    tr.protocolPaused = true
  /-- A paused protocol still waits for something. -/
  stuck : tr.isClosing = false → tr.protocolPaused = true →
    0 < tr.writeBufferSize ∨ tr.pending ≠ []
  /-- Once closing has begun, the protocol is not told to go on. -/
  noResume : tr.history.Pairwise fun e e' => e = .closingBegan → e' ≠ .called .resumeWriting

theorem inTurn_nil : InTurn [] := fun _ _ h => by simp at h

theorem InTurn.concat {calls : List Method} (h : InTurn calls) {m : Method}
    (hm : m = if calls.length % 2 = 0 then .pauseWriting else .resumeWriting) :
    InTurn (calls ++ [m]) := by
  intro i m' hi
  rcases lt_trichotomy i calls.length with hlt | rfl | hlt
  · rw [List.getElem?_append_left hlt] at hi
    exact h i m' hi
  · rw [List.getElem?_concat_length] at hi
    rwa [← Option.some.inj hi]
  · rw [List.getElem?_eq_none (by simp; omega)] at hi
    cases hi

theorem lastMarks_concat (h : List Event) (e : Event) :
    lastMarks (h ++ [e]) = match e with
      | .limits high low => (high, low)
      | _ => lastMarks h := by
  rw [lastMarks, List.foldl_append]
  rfl

/-! ## What every act keeps -/

/-- The flag and the calls agree, as long as every protocol had both methods. -/
structure Told (tr : Transport) : Prop where
  /-- The protocol has both methods. -/
  protocol : tr.complete = true → tr.protocol.complete = true
  /-- Pauses and resumes take turns. -/
  inTurn : tr.complete = true → InTurn (flowCalls tr.history)
  /-- The number of calls tells who is next. -/
  parity : tr.complete = true →
    (flowCalls tr.history).length % 2 = if tr.protocolPaused then 1 else 0
  /-- The water marks are those that were set last. -/
  limits : (tr.highWater, tr.lowWater) = lastMarks tr.history
  /-- `CLOSING` was set when closing began. -/
  closing : .closingBegan ∈ tr.history → tr.closing = true

namespace Told

variable {tr : Transport}

theorem blank : Told .blank := ⟨nofun, nofun, nofun, rfl, nofun⟩

theorem create (writePipe : Bool) (p : Protocol) (server : Bool) :
    Told (.create writePipe p server) :=
  ⟨id, fun _ => inTurn_nil, fun _ => rfl, rfl, fun h => by simp [Transport.create] at h⟩

/-- Recording an event that has nothing to do with flow control. -/
theorem record (h : Told tr) {e : Event} (hflow : flowCalls [e] = [])
    (hmarks : lastMarks (tr.history ++ [e]) = lastMarks tr.history)
    (hclosing : e = .closingBegan → tr.closing = true) : Told (tr.record e) := by
  have hcalls : flowCalls (tr.record e).history = flowCalls tr.history := by
    change flowCalls (tr.history ++ [e]) = _
    rw [flowCalls, List.filterMap_append]
    change flowCalls tr.history ++ flowCalls [e] = _
    rw [hflow, List.append_nil]
  refine ⟨h.protocol, ?_, ?_, ?_, fun hmem => ?_⟩
  · rw [hcalls]
    exact h.inTurn
  · rw [hcalls]
    exact h.parity
  · exact h.limits.trans hmarks.symm
  · rcases List.mem_append.mp hmem with hmem | hmem
    · exact h.closing hmem
    · exact hclosing (List.mem_singleton.mp hmem).symm

/-- Calling the method whose turn it is. -/
theorem recordCall (h : Told tr) {m : Method} {b : Bool} (hb : tr.protocolPaused = !b)
    (hm : m = if b then .pauseWriting else .resumeWriting) :
    Told ({ tr with protocolPaused := b }.recordCall m) := by
  unfold Transport.recordCall
  split
  · have hcalls : flowCalls (tr.history ++ [.called m]) = flowCalls tr.history ++ [m] := by
      rw [flowCalls, List.filterMap_append]
      rw [hm]
      cases b <;> rfl
    refine ⟨h.protocol, fun hc => ?_, fun hc => ?_, ?_, fun hmem => ?_⟩
    · change InTurn (flowCalls (tr.history ++ [.called m]))
      rw [hcalls]
      refine (h.inTurn hc).concat ?_
      rw [h.parity hc, hb, hm]
      cases b <;> rfl
    · change (flowCalls (tr.history ++ [.called m])).length % 2 = if b then 1 else 0
      have hp := h.parity hc
      rw [hcalls, List.length_append, List.length_singleton]
      rw [hb] at hp
      cases b <;> simp at hp ⊢ <;> omega
    · exact h.limits.trans (lastMarks_concat tr.history (.called m)).symm
    · rcases List.mem_append.mp hmem with hmem | hmem
      · exact h.closing hmem
      · cases List.mem_singleton.mp hmem
  · -- a complete protocol has the method
    rename_i hbound
    have hnot : tr.complete ≠ true := by
      intro hc
      have := h.protocol hc
      rw [Protocol.complete, Bool.and_eq_true_iff, Bool.and_eq_true_iff] at this
      refine hbound ?_
      rw [hm]
      cases b
      · exact this.2
      · exact this.1.2
    exact ⟨h.protocol, fun hc => absurd hc hnot, fun hc => absurd hc hnot, h.limits, h.closing⟩

theorem act (h : Told tr) (a : Act) (hok : a.Allowed tr) : Told (a.run tr) := by
  cases a with
  | pauseWriting => exact h.recordCall (b := true) hok.2 rfl
  | resumeWriting => exact h.recordCall (b := false) hok.2.1 rfl
  | bindProtocol p =>
    refine ⟨fun hc => (Bool.and_eq_true_iff.mp hc).2, fun hc => ?_, fun hc => ?_, h.limits,
      h.closing⟩
    · exact h.inTurn (Bool.and_eq_true_iff.mp hc).1
    · exact h.parity (Bool.and_eq_true_iff.mp hc).1
  | setLimits high low =>
    have hcalls : flowCalls (tr.history ++ [.limits high low]) = flowCalls tr.history := by
      rw [flowCalls, List.filterMap_append]
      exact List.append_nil _
    have hmarks := lastMarks_concat tr.history (.limits high low)
    refine ⟨h.protocol, fun hc => ?_, fun hc => ?_, hmarks.symm, fun hmem => ?_⟩
    · exact hcalls ▸ h.inTurn hc
    · exact hcalls ▸ h.parity hc
    · rcases List.mem_append.mp hmem with hmem | hmem
      · exact h.closing hmem
      · cases List.mem_singleton.mp hmem
  | setClosing =>
    unfold Act.run
    dsimp only
    split
    · exact h
    · have hset : Told { tr with closing := true } :=
        ⟨h.protocol, h.inTurn, h.parity, h.limits, fun _ => rfl⟩
      exact hset.record rfl (lastMarks_concat _ _) fun _ => rfl
  | completed ok r rest queueSize =>
    cases ok with
    | true => exact ⟨h.protocol, h.inTurn, h.parity, h.limits, h.closing⟩
    | false =>
      have hr := h.record (e := .writeFailed) rfl (lastMarks_concat _ _) nofun
      exact ⟨hr.protocol, hr.inTurn, hr.parity, hr.limits, hr.closing⟩
  | setEofWritten =>
    have hr := h.record (e := .eofWritten tr.pending.length) rfl (lastMarks_concat _ _) nofun
    exact ⟨hr.protocol, hr.inTurn, hr.parity, hr.limits, hr.closing⟩
  | force cause exc =>
    have hr := h.record (e := .forced cause exc) rfl (lastMarks_concat _ _) nofun
    exact ⟨hr.protocol, hr.inTurn, hr.parity, hr.limits, hr.closing⟩
  | uvClose =>
    have hr := h.record (e := .uvClose tr.written) rfl (lastMarks_concat _ _) nofun
    exact ⟨hr.protocol, hr.inTurn, hr.parity, hr.limits, hr.closing⟩
  | call m =>
    refine h.record ?_ (lastMarks_concat _ _) nofun
    have hflow : m.flow = false := hok.2.2.1
    simp [flowCalls, hflow]
  | limitsRaised | writeEofCalled | uvShutdown | closeCalled | readingPaused | resumeReading
  | lostQueued | detach => exact h.record rfl (lastMarks_concat _ _) nofun
  | startReading =>
    change Told { tr with history := if tr.history.any Event.isEof then _ else _ }
    split
    · exact h.record rfl (lastMarks_concat _ _) nofun
    · exact h
  | _ => exact ⟨h.protocol, h.inTurn, h.parity, h.limits, h.closing⟩

end Told

/-- The flag and the calls agree in every reachable state. -/
theorem Reachable.told {s : State} (h : Reachable s) (t : ℕ) : Told (s.tr t) :=
  h.transport Told.blank Told.create
    (fun _ _ hI => ⟨hI.protocol, hI.inTurn, hI.parity, hI.limits, hI.closing⟩)
    (fun _ a _ hok hI => hI.act a hok) t

/-- Nobody is told to go on once closing has begun. -/
theorem Reachable.noResume {s : State} (h : Reachable s) (t : ℕ) :
    (s.tr t).history.Pairwise fun e e' => e = .closingBegan → e' ≠ .called .resumeWriting := by
  refine (h.recorded (by simp) (fun s u a e hs _ hok he e' hmem hbegan => ?_) t).pairwise
  subst hbegan
  rintro rfl
  have hclosing := (hs.told u).closing hmem
  rcases Act.records_of_event he with rfl | ⟨-, -, ⟨hm, -⟩ | ⟨-, rfl⟩⟩
  · exact absurd hok.2.2.1 (by decide)
  · cases hm
  · have hnot := hok.1
    rw [Transport.isClosing, hclosing] at hnot
    cases hnot

/-- The last of a list of calls in turn. -/
theorem InTurn.getLast {calls : List Method} (h : InTurn calls) :
    calls.length % 2 = 1 ↔ calls.getLast? = some .pauseWriting := by
  rcases calls.eq_nil_or_concat with rfl | ⟨front, m, rfl⟩
  · simp
  · rw [List.concat_eq_append] at h ⊢
    have hm := h front.length m List.getElem?_concat_length
    rw [List.getLast?_concat, List.length_append, List.length_singleton, hm]
    split
    · simp; omega
    · simp; omega

/-- Whenever Python code or libuv is in control: the protocol was paused and resumed in turn, it is
paused if libuv's queue is above the high-water mark and only while something is still to be sent,
and nobody was resumed after closing began. -/
theorem flow_control {s : State} {stack : List (Callback × (Result → P Unit))}
    (h : system.Reachable (env True) ⟨s, none, stack⟩) (t : ℕ) : (s.tr t).Controlled := by
  have hinv : Inv True s := (verified True).in_foreign (not_quiet True) h
  have hset := hinv.settled t
  have htold := hinv.reach.told t
  have hclosing : (s.tr t).isClosing = false → (s.tr t).closing = false := fun hc =>
    (Bool.or_eq_false_iff.mp hc).1
  refine ⟨htold.inTurn, fun hcomplete => ?_, (hinv.reach.sane t).marks, htold.limits,
    fun hc => hset.above (hclosing hc), fun hc => hset.stuck (hclosing hc), hinv.reach.noResume t⟩
  rw [← (htold.inTurn hcomplete).getLast, htold.parity hcomplete]
  cases (s.tr t).protocolPaused <;> simp

/-- With a high-water mark of one, two bytes of which the socket takes none pause the protocol; it
is resumed when the write completes. A call that gives a negative mark changes nothing. -/
theorem flow_control_pause_resume :
    ∃ s : State, flowCalls (s.tr 0).history = [.pauseWriting, .resumeWriting] ∧
      (s.tr 0).highWater = 1 ∧ (s.tr 0).complete = true ∧ (s.tr 0).Controlled := by
  have hplay : ∃ s, system.play (env True) 100
      (opening .plain ++
        [.start (.setWriteBufferLimits 0 true false), counted 1,
          .start (.setWriteBufferLimits 0 true false), counted (-1),
          .start (.write 0), exported [1, 2], status uvEAGAIN, yes, .answer ⟨true, 0, 2⟩, returned,
          .start .runBegin, .start (.onWritten 0 0 0), returned])
      system.initial = some ⟨s, none, []⟩ ∧
      flowCalls (s.tr 0).history = [.pauseWriting, .resumeWriting] ∧ (s.tr 0).highWater = 1 ∧
      (s.tr 0).complete = true :=
    ⟨_, rfl, rfl, rfl, rfl⟩
  obtain ⟨s, hrun, hcalls, hhigh, hcomplete⟩ := hplay
  exact ⟨s, hcalls, hhigh, hcomplete, flow_control (System.Reachable.initial.play hrun) 0⟩

end Zuvloop.Stream
