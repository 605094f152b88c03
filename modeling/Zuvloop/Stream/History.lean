import Zuvloop.Reentrant.History
import Zuvloop.Stream.Steps

/-!
# The history of a transport

Every act records at most one event. What an act may add to the history decides what histories there
are, and the modules that follow read their results off histories: no callback after
`connection_lost`, pauses and resumes in turn, the reason of the close, and so on.

## Main results

* `Act.history_run`: what an act adds to the history.
* `Reachable.recorded`: what holds of every event, given what came before it.
-/

namespace Zuvloop.Stream

open Reentrant

/-- The acts that record an event, and what the event says about the transport. -/
def Act.Records (a : Act) (tr : Transport) : Event → Prop
  | .connectionMadeQueued => False
  | .connectionLostQueued exc => a = .lostQueued ∧ exc = tr.connLostExc
  | .called m => a = .call m ∨ m.flow = true ∧ tr.protocol.bound m = true ∧
      (m = .pauseWriting ∧ a = .pauseWriting ∨ m = .resumeWriting ∧ a = .resumeWriting)
  | .closingBegan => a = .setClosing ∧ tr.closing = false
  | .forced cause exc => a = .force cause exc
  | .closeCalled n => a = .closeCalled ∧ n = tr.accepted.length
  | .writeEofCalled n => a = .writeEofCalled ∧ n = tr.accepted.length
  | .eofWritten n => a = .setEofWritten ∧ n = tr.pending.length
  | .uvShutdown n => a = .uvShutdown ∧ n = tr.written
  | .uvClose n => a = .uvClose ∧ n = tr.written
  | .writeFailed => ∃ r rest queueSize, a = .completed false r rest queueSize
  | .detach => a = .detach
  | .limits high low => a = .setLimits high low
  | .limitsRaised => a = .limitsRaised
  | .readingPaused early => a = .readingPaused early
  | .resumeReading => a = .resumeReading
  | .lateStart => a = .startReading

/-- Where an event comes from. -/
theorem Act.records_of_event {a : Act} {tr : Transport} {e : Event} (he : a.event tr = some e) :
    a.Records tr e := by
  cases a <;> simp only [event, reduceCtorEq] at he
  case pauseWriting | resumeWriting =>
    unfold Transport.callEvent at he
    split at he
    · rename_i hbound
      rw [← Option.some.inj he]
      simp [Records, Method.flow, hbound]
    · cases he
  case setClosing =>
    split at he
    · cases he
    · rename_i hc
      rw [← Option.some.inj he]
      exact ⟨rfl, (Bool.not_eq_true _).mp hc⟩
  case startReading =>
    split at he
    · rw [← Option.some.inj he]
      rfl
    · cases he
  case completed ok r rest queueSize =>
    cases ok with
    | true => cases he
    | false =>
      rw [← Option.some.inj he]
      exact ⟨r, rest, queueSize, rfl⟩
  all_goals
    rw [← Option.some.inj he]
    simp [Records]

/-! ## Events and what came before them -/

/-- What an act records has to fit what came before. -/
theorem Act.recorded_run {P : List Event → Event → Prop} {tr : Transport} (a : Act)
    (h : Recorded P tr.history) (hP : ∀ e, a.event tr = some e → P tr.history e) :
    Recorded P (a.run tr).history := by
  cases he : a.event tr with
  | none => rwa [Act.history_run_of_none he]
  | some e =>
    rw [Act.history_run_of_event he]
    exact h.concat (hP e he)

/-- What fits whenever an act records it fits in every history. -/
theorem Reachable.recorded {P : List Event → Event → Prop} (hmade : P [] .connectionMadeQueued)
    (hP : ∀ (s : State) (u : ℕ) (a : Act) (e : Event), Reachable s → (s.tr u).made = true →
      a.Allowed (s.tr u) → a.event (s.tr u) = some e → P (s.tr u).history e)
    {s : State} (h : Reachable s) (t : ℕ) : Recorded P (s.tr t).history := by
  induction h with
  | refl => exact recorded_nil P
  | @tail s₁ s₂ hreach hstep ih =>
    rcases hstep.transport t with heq | ⟨a, hm, -, hok, heq⟩ | ⟨b, -, heq⟩ | ⟨-, w, p, srv, heq⟩
    · rwa [heq]
    · rw [heq]
      exact a.recorded_run ih fun e he => hP s₁ t a e hreach hm hok he
    · rw [heq]
      exact ih
    · rw [heq]
      exact (recorded_nil P).concat hmade

end Zuvloop.Stream
