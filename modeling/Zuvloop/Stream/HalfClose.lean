import Zuvloop.Stream.Verified

/-!
# Closing in good order

`close()` and `write_eof()` hand everything accepted so far to libuv and let `uv_close`, or
`uv_shutdown`, wait until libuv has written it. Both flush first and set their flag afterwards, and
the flush may run `pause_writing`, which may write again: that write stays in the batch. A batch
left over by `close()` is dropped, but one left over by `write_eof()` is refused when it is flushed,
which closes the transport by force, with all that libuv has yet to write.

## Main results

* `graceful_close`: what was accepted before is written, unless a batch was left over.
* `graceful_close_leftover`: if one was, it may not be.
-/

namespace Zuvloop.Stream

open Reentrant

/-- The stream is shut down or closed, when libuv has written this many bytes. -/
def Event.ends? : Event → Option ℕ
  | .uvShutdown written | .uvClose written => some written
  | _ => none

/-- An abort, a fatal error of the peer or of a callback, or a want of memory. The only close by
force that is none of these is that of a batch refused after `write_eof()`. -/
def Event.interrupts : Event → Bool
  | .forced cause exc => !decide (cause = .flush ∧ exc = some writeAfterEof)
  | .writeFailed => true
  | _ => false

/-- When the stream is shut down or closed, libuv has written everything that had been accepted when
`write_eof()` or `close()` was called before. -/
def Graceful (h : List Event) : Prop :=
  Recorded (fun before e => ∀ w, e.ends? = some w →
    ∀ g ∈ before, ∀ n, g.graceful? = some n → n ≤ w) h

/-- The same, as long as nothing was closed by force or failed. -/
def Transport.InOrder (tr : Transport) : Prop :=
  tr.torn = false → Recorded (fun before e => before.any Event.isForced = false →
    before.any Event.isFailed = false → ∀ w, e.ends? = some w →
      ∀ g ∈ before, ∀ n, g.graceful? = some n → n ≤ w) tr.history

/-- A stream that is shut down or closed has nothing left to write. -/
theorem Act.kept_of_ends {a : Act} {tr : Transport} (hok : a.Allowed tr) (hsane : Sane tr)
    (hledger : Ledger tr) (hmade : tr.made = true) {e : Event} {w : ℕ} (hr : a.Records tr e)
    (hw : e.ends? = some w) (hforced : tr.history.any Event.isForced = false) :
    w = tr.written ∧ tr.writeBufferSize = 0 ∧ Kept tr := by
  cases e with
  | uvShutdown written =>
    obtain ⟨rfl, rfl⟩ := hr
    exact ⟨(Option.some.inj hw).symm, hok⟩
  | uvClose written =>
    obtain ⟨rfl, rfl⟩ := hr
    have hopened : tr.opened = false := by
      rw [← Bool.not_eq_true]
      intro ho
      have hd : tr.disarming = true := hok
      rw [(hsane.opened ho).2] at hd
      cases hd
    refine ⟨(Option.some.inj hw).symm, (hledger.shut hmade hopened).resolve_left ?_⟩
    rw [hforced]
    exact Bool.false_ne_true
  | _ => cases hw

theorem Transport.InOrder.act {tr : Transport} (h : tr.InOrder) (hsane : Sane tr)
    (hledger : Ledger tr) (hmade : tr.made = true) {a : Act} (hok : a.Allowed tr) :
    (a.run tr).InOrder := by
  intro htorn
  have htorn := a.torn_run tr htorn
  refine a.recorded_run (h htorn) fun e he hforced hfailed w hw g hg n hn => ?_
  obtain ⟨rfl, hzero, hkept⟩ :=
    a.kept_of_ends hok hsane hledger hmade (Act.records_of_event he) hw hforced
  calc n ≤ tr.handedOver.length := hkept htorn hforced g hg n hn
    _ = tr.written + tr.requestSize := (hledger.written hfailed).symm
    _ = tr.written := by rw [← hledger.size hforced, hzero, Nat.add_zero]

theorem Reachable.inOrder {s : State} (h : Reachable s) (t : ℕ) : (s.tr t).InOrder := by
  refine (h.transport (I := fun tr => Sane tr ∧ Ledger tr ∧ tr.InOrder)
    ⟨Sane.blank, Ledger.blank, fun _ => recorded_nil _⟩ (fun w p srv => ?_) (fun tr b h => ?_)
    (fun tr a hmade hok h => ?_) t).2.2
  · exact ⟨Sane.create w p srv, Ledger.create w p srv,
      fun _ => (recorded_nil _).concat fun _ _ _ hw => by cases hw⟩
  · exact ⟨h.1.setFlushQueued b, h.2.1.setFlushQueued b, h.2.2⟩
  · exact ⟨h.1.act a hok, h.2.1.act h.1 hmade hok, h.2.2.act h.1 h.2.1 hmade hok⟩

/-- A batch that a flush refuses was left over by `write_eof()`. -/
theorem Reachable.refused {s : State} (h : Reachable s) (t : ℕ) :
    Recorded (fun before e => e = .forced .flush (some writeAfterEof) →
      before.any Event.isLeftover = true) (s.tr t).history := by
  refine h.recorded nofun (fun s u a e _ _ hok he heq => ?_) t
  subst heq
  obtain rfl : a = .force .flush (some writeAfterEof) := Act.records_of_event he
  exact hok rfl rfl

/-- Unless something interrupts it, no transport is closed by force as long as `write_eof()` leaves
no batch over. -/
theorem Reachable.unforced {s : State} (h : Reachable s) {t : ℕ}
    (hinterrupts : ∀ e ∈ (s.tr t).history, e.interrupts = false)
    (hleftover : ∀ e ∈ (s.tr t).history, e.isLeftover = false) :
    (s.tr t).history.any Event.isForced = false := by
  rw [List.any_eq_false]
  intro e he hforced
  cases e with
  | forced cause exc =>
    have hnot := hinterrupts _ he
    rw [Event.interrupts, Bool.not_eq_false', decide_eq_true_iff] at hnot
    obtain ⟨rfl, rfl⟩ := hnot
    obtain ⟨before, after, hsplit⟩ := List.append_of_mem he
    have hany := h.refused t before _ after hsplit rfl
    obtain ⟨e, hmem, hleft⟩ := List.any_eq_true.mp hany
    rw [hleftover e (hsplit ▸ List.mem_append_left _ hmem)] at hleft
    cases hleft
  | _ => cases hforced

/-- Everything that had been accepted when `write_eof()` or `close()` was called is written before
`uv_shutdown` or `uv_close` is called, if nothing interrupts the transport, no vector was torn, and
`write_eof()` never left a batch over. -/
theorem graceful_close {s : State} {stack : List (Callback × (Result → P Unit))}
    (h : system.Reachable (env True) ⟨s, none, stack⟩) {t : ℕ}
    (hinterrupts : ∀ e ∈ (s.tr t).history, e.interrupts = false)
    (htorn : (s.tr t).torn = false)
    (hleftover : ∀ e ∈ (s.tr t).history, e.isLeftover = false) :
    Graceful (s.tr t).history := by
  have hinv : Inv True s := (verified True).in_foreign (not_quiet True) h
  have hforced := hinv.reach.unforced hinterrupts hleftover
  rw [List.any_eq_false] at hforced
  intro before e after hsplit
  have hbefore : ∀ e ∈ before, e ∈ (s.tr t).history :=
    fun e he => hsplit ▸ List.mem_append_left _ he
  refine hinv.reach.inOrder t htorn before e after hsplit ?_ ?_ <;> rw [List.any_eq_false]
  · exact fun e he => hforced e (hbefore e he)
  · intro e he hfailed
    have hnot := hinterrupts e (hbefore e he)
    cases e with
    | writeFailed => cases hnot
    | _ => cases hfailed

/-- `write_eof()` queues a byte, which pauses the protocol. `uv_shutdown` waits for it. -/
theorem graceful_close_queued :
    ∃ s : State, Graceful (s.tr 0).history ∧
      .writeEofCalled 1 ∈ (s.tr 0).history ∧ .uvShutdown 1 ∈ (s.tr 0).history := by
  have hplay : ∃ s, system.play (env True) 100
      (opening .plain ++
        [.start .runBegin, .start .onIdle, .start (.setWriteBufferLimits 0 true false), counted 0,
          .start (.write 0), exported [1], .start (.writeEof 0), status uvEAGAIN, yes,
          .answer ⟨true, 0, 1⟩, returned, returned, returned, yes, returned,
          .start (.onWritten 0 0 0), returned, yes, yes])
      system.initial = some ⟨s, none, []⟩ ∧ (s.tr 0).torn = false ∧
      (s.tr 0).history = [.connectionMadeQueued, .called .connectionMade, .limits 0 0,
        .writeEofCalled 1, .called .pauseWriting, .eofWritten 0, .called .resumeWriting,
        .uvShutdown 1] :=
    ⟨_, rfl, rfl, rfl⟩
  obtain ⟨s, hrun, htorn, hhist⟩ := hplay
  have hreach : system.Reachable (env True) ⟨s, none, []⟩ := System.Reachable.initial.play hrun
  refine ⟨s, graceful_close hreach ?_ htorn ?_, ?_, ?_⟩ <;> rw [hhist] <;> decide

/-- `write_eof()` queues a byte, which pauses the protocol; the protocol writes once more. The end
of the iteration refuses that write and closes the transport by force, before libuv has written the
byte. Nothing else went wrong. -/
theorem graceful_close_leftover :
    ∃ s, system.Reachable (env False) ⟨s, none, []⟩ ∧ (s.tr 0).torn = false ∧
      (∀ e ∈ (s.tr 0).history, e.interrupts = false) ∧ ¬ Graceful (s.tr 0).history := by
  have hplay : ∃ s, system.play (env False) 100
      (opening .plain ++
        [.start .runBegin, .start .onIdle, .start (.setWriteBufferLimits 0 true false), counted 0,
          .start (.write 0), exported [1], .start (.writeEof 0), status uvEAGAIN, yes,
          .answer ⟨true, 0, 1⟩, .start (.write 0), exported [2], returned, returned, returned, yes,
          returned, .start .prepare, returned])
      system.initial = some ⟨s, none, []⟩ ∧ (s.tr 0).torn = false ∧
      (s.tr 0).history = [.connectionMadeQueued, .called .connectionMade, .limits 0 0,
        .writeEofCalled 1, .called .pauseWriting, .eofWritten 1,
        .forced .flush (some writeAfterEof), .closingBegan] ++ .uvClose 0 :: [] :=
    ⟨_, rfl, rfl, rfl⟩
  obtain ⟨s, hrun, htorn, hhist⟩ := hplay
  refine ⟨s, System.Reachable.initial.play hrun, htorn, ?_, fun hgraceful => ?_⟩
  · rw [hhist]
    decide
  · have hle := hgraceful _ _ _ hhist 0 rfl (.writeEofCalled 1) (by decide) 1 rfl
    exact absurd hle (by decide)

end Zuvloop.Stream
