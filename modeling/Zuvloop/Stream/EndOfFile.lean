import Zuvloop.Reentrant.History
import Zuvloop.Stream.Verified

/-!
# The end of the file

The end of the file leaves no trace but a cleared `READING`, which says no more than that the
transport is paused. Whoever starts to read again is told of the end of the file once more.

## Main definitions

* `EofOnce`: `eof_received` is the last thing the read path calls.
* `NoRestart`: nobody asks to read after `eof_received`, unless the transport is closing.

## Main results

* `eof_received_once`: if nobody asks to read again, `eof_received` is called at most once.
* `eof_received_twice`: a protocol that keeps the transport open and resumes reading hears of it
  twice.
-/

namespace Zuvloop.Stream

open Reentrant

/-- A method of the read path is called. -/
def Event.reads : Event → Bool
  | .called m => m.reads
  | _ => false

/-- `eof_received` is the last method that is called from the read path. -/
def EofOnce (h : List Event) : Prop :=
  ∀ before after, h = before ++ .called .eofReceived :: after → ∀ e ∈ after, e.reads = false

/-- After `eof_received` neither `resume_reading()` nor `_start_reading()` is called, unless closing
has begun. -/
def NoRestart (h : List Event) : Prop :=
  ∀ before mid e after, h = before ++ .called .eofReceived :: (mid ++ e :: after) →
    e.asksToRead = true → .closingBegan ∈ before ++ mid

/-- The end of the file is remembered until somebody may start to read. -/
theorem atEof_append_cons {before mid : List Event}
    (hmid : ∀ front e back, mid = front ++ e :: back → e.asksToRead = true →
      .closingBegan ∈ before ++ front) :
    atEof (before ++ .called .eofReceived :: mid) = true := by
  induction mid using List.reverseRecOn with
  | nil => exact atEof_append _ _
  | append_singleton mid e ih =>
    have hmid' : ∀ front e' back, mid = front ++ e' :: back → e'.asksToRead = true →
        .closingBegan ∈ before ++ front := fun front e' back heq =>
      hmid front e' (back ++ [e]) (by rw [heq, List.append_assoc, List.cons_append])
    rw [← List.cons_append, ← List.append_assoc, atEof_append, ih hmid']
    cases hasks : e.asksToRead with
    | false => simp
    | true =>
      -- closing has begun, so that nobody can start to read
      have hbegan := hmid mid e [] rfl hasks
      have hmem : .closingBegan ∈ before ++ .called .eofReceived :: mid := by
        rw [List.mem_append] at hbegan ⊢
        exact hbegan.imp_right (List.mem_cons_of_mem _)
      simp [hmem]

/-- Nothing is read at the end of the file. -/
theorem eofOnce_of_recorded {h : List Event}
    (hh : Recorded (fun past e => e.reads = true → atEof past = false) h) (hno : NoRestart h) :
    EofOnce h := by
  intro before after heq e he
  obtain ⟨mid, rest, rfl⟩ := List.append_of_mem he
  rw [← Bool.not_eq_true]
  intro hreads
  have hopen := hh (before ++ .called .eofReceived :: mid) e rest
    (by rw [heq, List.append_assoc, List.cons_append]) hreads
  rw [atEof_append_cons fun front e' back hmid hasks => ?_] at hopen
  · cases hopen
  · exact hno before front e' (back ++ e :: rest)
      (by rw [heq, hmid, List.append_assoc, List.cons_append]) hasks

/-- The read path calls nothing at the end of the file. -/
theorem Reachable.reads {s : State} (h : Reachable s) (t : ℕ) :
    Recorded (fun past e => e.reads = true → atEof past = false) (s.tr t).history := by
  refine h.recorded nofun (fun s u a e _ _ hok he hreads => ?_) t
  cases e with
  | called m =>
    rcases Act.records_of_event he with rfl | ⟨hflow, -⟩
    · exact hok.2.2.2.1 hreads
    · -- flow control does not belong to the read path
      cases m with
      | pauseWriting | resumeWriting => cases hreads
      | _ => cases hflow
  | _ => cases hreads

/-- Unless somebody asks to read again while the transport is not closing, `eof_received` is called
at most once, and nothing is delivered after it. -/
theorem eof_received_once {s : State} {stack : List (Callback × (Result → P Unit))}
    (h : system.Reachable (env True) ⟨s, none, stack⟩) (t : ℕ) (hno : NoRestart (s.tr t).history) :
    EofOnce (s.tr t).history := by
  have hinv : Inv True s := (verified True).in_foreign (not_quiet True) h
  exact eofOnce_of_recorded (Reachable.reads hinv.reach t) hno

/-- libuv reports the end of the file, and the protocol keeps the transport open. -/
def endOfFile : List (Label sig) := [.start (.readable 0), yes, status uvEOF, returned]

/-- Five bytes are read, then the end of the file. -/
theorem eof_received_once_delivered :
    ∃ s : State, EofOnce (s.tr 0).history ∧ .called .dataReceived ∈ (s.tr 0).history ∧
      .called .eofReceived ∈ (s.tr 0).history := by
  have hplay : ∃ s, system.play (env True) 100
      (opening .plain ++
        [.start .runBegin, .start .onIdle, returned, returned, yes, returned,
          .start (.readable 0), yes, status 5, yes, yes, returned] ++ endOfFile)
      system.initial = some ⟨s, none, []⟩ ∧
      (s.tr 0).history = [.connectionMadeQueued, .called .connectionMade, .called .dataReceived,
        .called .eofReceived] := ⟨_, rfl, rfl⟩
  obtain ⟨s, hrun, hhist⟩ := hplay
  have hasks : ∀ e ∈ (s.tr 0).history, e.asksToRead = false := by
    rw [hhist]
    decide
  refine ⟨s, eof_received_once (System.Reachable.initial.play hrun) 0 ?_, ?_, ?_⟩
  · intro before mid e after heq hask
    rw [hasks e (by rw [heq]; simp)] at hask
    cases hask
  all_goals
    rw [hhist]
    decide

/-- A protocol keeps the transport open at the end of the file and resumes reading, and hears of the
end of the file once more. -/
theorem eof_received_twice :
    ∃ s, system.Reachable (env False) ⟨s, none, []⟩ ∧ ¬ EofOnce (s.tr 0).history := by
  have hplay : ∃ s, system.play (env False) 100
      (opening .plain ++
        [.start .runBegin, .start .onIdle, returned, returned, yes, returned,
          .start (.readable 0), yes, status uvEOF, .start (.resumeReading 0), yes, returned] ++
        endOfFile)
      system.initial = some ⟨s, none, []⟩ ∧
      (s.tr 0).history = [.connectionMadeQueued, .called .connectionMade] ++
        .called .eofReceived :: [.resumeReading, .called .eofReceived] := ⟨_, rfl, rfl⟩
  obtain ⟨s, hrun, hhist⟩ := hplay
  refine ⟨s, System.Reachable.initial.play hrun, fun honce => ?_⟩
  have hnot := honce _ _ hhist (.called .eofReceived) (by decide)
  cases hnot

end Zuvloop.Stream
