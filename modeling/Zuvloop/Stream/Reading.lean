import Zuvloop.Stream.Verified

/-!
# Pauses of reading

`READING` says both that the transport wants to read and that libuv is reading, so a pause before
libuv reads leaves no trace: the `_start_reading` that `makeTransport` queued goes on as if nothing
had happened. A pause after it has run lasts until `resume_reading()`.

## Main results

* `Reachable.pauses_hold`: after a pause that no queued `_start_reading` can undo, nothing is
  delivered before reading is resumed.
-/

namespace Zuvloop.Stream

open Reentrant

/-- `pause_reading()` returned. -/
def Event.pauses : Event → Bool
  | .readingPaused _ => true
  | _ => false

/-- `pause_reading()` returned, and `_start_reading` was no longer queued. -/
def Event.pausesLate : Event → Bool
  | .readingPaused early => !early
  | _ => false

/-- `resume_reading()` was called. -/
def Event.resumes : Event → Bool
  | .resumeReading => true
  | _ => false

/-- What was read is delivered. -/
def Event.delivers : Event → Bool
  | .called m => m.delivers
  | _ => false

theorem Method.flow_of_delivers {m : Method} (h : m.delivers = true) : m.flow = false := by
  cases m <;> first | rfl | cases h

theorem heldBack_eq_shut (h : List Event) : heldBack h = shut Event.pausesLate Event.resumes h := by
  induction h using List.reverseRecOn with
  | nil => rfl
  | append_singleton h e ih =>
    rw [heldBack_append, shut_concat, ← ih]
    cases e with
    | readingPaused early => cases early <;> simp [Event.pausesLate, Event.resumes]
    | _ => rfl

/-- Between a pause that no queued `_start_reading` can undo and a delivery, reading is resumed. -/
theorem Reachable.pauses_hold {s : State} (h : Reachable s) (t : ℕ) :
    Between Event.pausesLate Event.resumes Event.delivers (s.tr t).history := by
  refine Recorded.between (h.recorded nofun (fun s u a e _ _ hok he hdelivers => ?_) t)
  cases e with
  | called m =>
    rw [← heldBack_eq_shut]
    -- only the read path delivers, and it found the transport reading
    rcases Act.records_of_event he with rfl | ⟨hflow, -⟩
    · exact hok.2.1 hdelivers
    · rw [Method.flow_of_delivers hdelivers] at hflow
      cases hflow
  | _ => cases hdelivers

end Zuvloop.Stream
