import Zuvloop.Stream.History

/-!
# What has been written

The acts move bytes from the pending batch to libuv and from there to the peer. As long as no close
by force and no failed request interferes, `write_buffer_size` is what libuv has yet to complete,
and what it has completed and what it has yet to complete is what it was handed.

## Main definitions

* `Ledger`: the accounts of a transport.

## Main results

* `Reachable.ledger`: the accounts are in order in every reachable state.
-/

namespace Zuvloop.Stream

open Reentrant

/-! ## What acts keep -/

/-- The bytes accepted stay accepted. -/
theorem Act.accepted_run (a : Act) (tr : Transport) : tr.accepted <+: (a.run tr).accepted := by
  have hbranches := fun h => Act.run_branches (a := a) h tr
  cases a with
  | store | took | submit => exact List.prefix_append _ _
  | setClosing | pauseWriting | resumeWriting =>
    obtain ⟨c, p, hist, hrun⟩ := hbranches rfl
    exact hrun ▸ List.prefix_rfl
  | _ => exact List.prefix_rfl

/-- The bytes handed over stay handed over. -/
theorem Act.handedOver_run (a : Act) (tr : Transport) :
    tr.handedOver <+: (a.run tr).handedOver := by
  have hbranches := fun h => Act.run_branches (a := a) h tr
  cases a with
  | took | submit => exact List.prefix_append _ _
  | setClosing | pauseWriting | resumeWriting =>
    obtain ⟨c, p, hist, hrun⟩ := hbranches rfl
    exact hrun ▸ List.prefix_rfl
  | _ => exact List.prefix_rfl

/-- What is torn stays torn. -/
theorem Act.torn_run (a : Act) (tr : Transport) (h : (a.run tr).torn = false) :
    tr.torn = false := by
  have hbranches := fun h => Act.run_branches (a := a) h tr
  cases a with
  | tear => cases h
  | setClosing | pauseWriting | resumeWriting =>
    obtain ⟨c, p, hist, hrun⟩ := hbranches rfl
    rwa [hrun] at h
  | _ => exact h

/-- Nothing of a kind has happened before if it has not happened after. -/
theorem Act.any_history {a : Act} {tr : Transport} {p : Event → Bool}
    (h : (a.run tr).history.any p = false) : tr.history.any p = false := by
  rw [a.history_run, List.any_append, Bool.or_eq_false_iff] at h
  exact h.1

/-- An event of the history after an act was there before, or the act records it. -/
theorem Act.mem_history {a : Act} {tr : Transport} {e : Event}
    (h : e ∈ (a.run tr).history) : e ∈ tr.history ∨ a.Records tr e := by
  rw [a.history_run, List.mem_append, Option.mem_toList] at h
  exact h.imp_right records_of_event

/-- A close or half-close in good order counts what has been accepted. -/
theorem Act.graceful_of_records {a : Act} {tr : Transport} {e : Event} {n : ℕ}
    (h : a.Records tr e) (hn : e.graceful? = some n) :
    (a = .closeCalled ∨ a = .writeEofCalled) ∧ n = tr.accepted.length := by
  cases e with
  | closeCalled m =>
    obtain rfl : m = n := Option.some.inj hn
    exact ⟨.inl h.1, h.2⟩
  | writeEofCalled m =>
    obtain rfl : m = n := Option.some.inj hn
    exact ⟨.inr h.1, h.2⟩
  | _ => cases hn

/-- What has been handed over stays handed over. -/
theorem Kept.run {tr : Transport} (h : Kept tr) {a : Act}
    (ha : a ≠ .closeCalled ∧ a ≠ .writeEofCalled) : Kept (a.run tr) := by
  intro htorn hforced e he n hn
  have hle := (a.handedOver_run tr).length_le
  rcases Act.mem_history he with he | hr
  · exact (h (a.torn_run tr htorn) (Act.any_history hforced) e he n hn).trans hle
  · rcases (Act.graceful_of_records hr hn).1 with rfl | rfl
    · exact absurd rfl ha.1
    · exact absurd rfl ha.2

/-! ## The accounts -/

/-- The accounts of a transport. -/
structure Ledger (tr : Transport) : Prop where
  /-- A close or half-close in good order counts bytes that have been accepted. -/
  graceful : ∀ e ∈ tr.history, ∀ n, e.graceful? = some n → n ≤ tr.accepted.length
  /-- What is in the batch after `EOF_WRITTEN` was set was in it before. -/
  leftover : tr.eofWritten = true → tr.pending ≠ [] →
    tr.history.any Event.isLeftover = true
  /-- What libuv was handed it has written, or has yet to write. -/
  written : tr.history.any Event.isFailed = false →
    tr.written + tr.requestSize = tr.handedOver.length
  /-- `write_buffer_size` is what libuv has yet to complete. -/
  size : tr.history.any Event.isForced = false → tr.writeBufferSize = tr.requestSize
  /-- Teardown waits until nothing is left to complete. -/
  shut : tr.made = true → tr.opened = false →
    tr.history.any Event.isForced = true ∨ tr.writeBufferSize = 0 ∧ Kept tr

namespace Ledger

variable {tr : Transport}

theorem blank : Ledger .blank where
  graceful := nofun
  leftover := nofun
  written := fun _ => rfl
  size := fun _ => rfl
  shut := nofun

theorem create (writePipe : Bool) (p : Protocol) (server : Bool) :
    Ledger (.create writePipe p server) where
  graceful := fun e he n hn => by
    rw [List.mem_singleton.mp he] at hn
    cases hn
  leftover := nofun
  written := fun _ => rfl
  size := fun _ => rfl
  shut := nofun

theorem setFlushQueued (h : Ledger tr) (b : Bool) : Ledger (tr.setFlushQueued b) :=
  ⟨h.graceful, h.leftover, h.written, h.size, h.shut⟩

theorem graceful_act (h : Ledger tr) (a : Act) :
    ∀ e ∈ (a.run tr).history, ∀ n, e.graceful? = some n → n ≤ (a.run tr).accepted.length := by
  intro e he n hn
  have hle := (a.accepted_run tr).length_le
  rcases Act.mem_history he with he | hr
  · exact (h.graceful e he n hn).trans hle
  · rw [(Act.graceful_of_records hr hn).2]
    exact hle

theorem leftover_act (h : Ledger tr) {a : Act} (hok : a.Allowed tr) :
    (a.run tr).eofWritten = true → (a.run tr).pending ≠ [] →
      (a.run tr).history.any Event.isLeftover = true := by
  intro heof hpending
  have hkeep : tr.eofWritten = true → tr.pending ≠ [] →
      (a.run tr).history.any Event.isLeftover = true := by
    intro heof hpending
    rw [a.history_run, List.any_append, h.leftover heof hpending]
    rfl
  have hbranches := fun h => Act.run_branches (a := a) h tr
  cases a with
  | store b =>
    -- nothing is stored after `write_eof()`
    have hup := hok.2.2
    have heof : tr.eofWritten = true := heof
    rw [Transport.givesUp, heof, Bool.or_true] at hup
    cases hup
  | takePending | discardPending => exact absurd rfl hpending
  | setEofWritten =>
    rw [Act.history_run, List.any_append]
    have hne : tr.pending.length ≠ 0 := fun hnil => hpending (List.eq_nil_of_length_eq_zero hnil)
    have hlast : (Act.setEofWritten.event tr).toList.any Event.isLeftover = true := by
      simp [Act.event, Event.isLeftover, hne]
    rw [hlast, Bool.or_true]
  | setClosing | pauseWriting | resumeWriting =>
    obtain ⟨c, p, hist, hrun⟩ := hbranches rfl
    rw [hrun] at heof hpending
    exact hkeep heof hpending
  | _ => exact hkeep heof hpending

theorem written_act (h : Ledger tr) {a : Act} (hok : a.Allowed tr)
    (hfailed : (a.run tr).history.any Event.isFailed = false) :
    (a.run tr).written + (a.run tr).requestSize = (a.run tr).handedOver.length := by
  have hbefore := h.written (Act.any_history hfailed)
  have hbranches := fun h => Act.run_branches (a := a) h tr
  cases a with
  | took fresh bytes =>
    change tr.written + bytes.length + tr.requestSize = (tr.handedOver ++ bytes).length
    rw [List.length_append, ← hbefore]
    omega
  | submit fresh bufs views queueSize =>
    change tr.written + ((tr.stream.requests ++ [(⟨total bufs, views⟩ : WriteReq)]).map
      WriteReq.size).sum = (tr.handedOver ++ bufs.flatten).length
    rw [List.length_append, ← hbefore, List.map_append, List.sum_append, Transport.requestSize]
    simp [total]
    omega
  | completed ok r rest queueSize =>
    cases ok with
    | false =>
      rw [Act.history_run, List.any_append] at hfailed
      simp [Act.event, Event.isFailed] at hfailed
    | true =>
      change tr.written + r.size + (rest.map WriteReq.size).sum = tr.handedOver.length
      rw [Transport.requestSize, hok.1, List.map_cons, List.sum_cons] at hbefore
      omega
  | setClosing | pauseWriting | resumeWriting =>
    obtain ⟨c, p, hist, hrun⟩ := hbranches rfl
    rw [hrun]
    exact hbefore
  | _ => exact hbefore

theorem size_act (h : Ledger tr) {a : Act} (hok : a.Allowed tr)
    (hforced : (a.run tr).history.any Event.isForced = false) :
    (a.run tr).writeBufferSize = (a.run tr).requestSize := by
  have hbefore := h.size (Act.any_history hforced)
  have hbranches := fun h => Act.run_branches (a := a) h tr
  cases a with
  | submit fresh bufs views queueSize =>
    change tr.writeBufferSize + total bufs =
      ((tr.stream.requests ++ [(⟨total bufs, views⟩ : WriteReq)]).map WriteReq.size).sum
    rw [hbefore, Transport.requestSize, List.map_append, List.sum_append]
    rfl
  | completed ok r rest queueSize =>
    change tr.writeBufferSize - min r.size tr.writeBufferSize = (rest.map WriteReq.size).sum
    rw [Transport.requestSize, hok.1, List.map_cons, List.sum_cons] at hbefore
    omega
  | clearWriteBufferSize =>
    have hany : tr.history.any Event.isForced = true := hok.2
    rw [Act.any_history hforced] at hany
    cases hany
  | setClosing | pauseWriting | resumeWriting =>
    obtain ⟨c, p, hist, hrun⟩ := hbranches rfl
    rw [hrun]
    exact hbefore
  | _ => exact hbefore

theorem shut_act (h : Ledger tr) (hsane : Sane tr) (hmade : tr.made = true) {a : Act}
    (hok : a.Allowed tr) (hopened : (a.run tr).opened = false) :
    (a.run tr).history.any Event.isForced = true ∨
      (a.run tr).writeBufferSize = 0 ∧ Kept (a.run tr) := by
  have hkeep : a ≠ .closeCalled ∧ a ≠ .writeEofCalled →
      (a.run tr).writeBufferSize ≤ tr.writeBufferSize →
      (tr.history.any Event.isForced = true ∨ tr.writeBufferSize = 0 ∧ Kept tr) →
      (a.run tr).history.any Event.isForced = true ∨
        (a.run tr).writeBufferSize = 0 ∧ Kept (a.run tr) := by
    rintro ha hsize (hforced | ⟨hzero, hkept⟩)
    · left
      rw [a.history_run, List.any_append, hforced]
      rfl
    · exact .inr ⟨by omega, hkept.run ha⟩
  -- a transport that is not open is closing
  have hclosed : tr.closing = false → tr.opened = false → False := by
    intro hc ho
    rw [hsane.closing hmade ho] at hc
    cases hc
  have hbranches := fun h => Act.run_branches (a := a) h tr
  cases a with
  | clearOpen => exact hkeep ⟨nofun, nofun⟩ le_rfl hok.2.2
  | writeEofCalled =>
    refine (hclosed ?_ hopened).elim
    have hup : tr.givesUp = false := hok
    rw [Transport.givesUp, Bool.or_eq_false_iff, Bool.or_eq_false_iff] at hup
    exact hup.1.2
  | closeCalled => exact (hclosed hok hopened).elim
  | submit fresh bufs views queueSize =>
    refine (hclosed ?_ hopened).elim
    have hup := hok.2.2.1
    rw [Transport.givesUp, Bool.or_eq_false_iff, Bool.or_eq_false_iff] at hup
    exact hup.1.2
  | completed ok r rest queueSize =>
    exact hkeep ⟨nofun, nofun⟩ (Nat.sub_le _ _) (h.shut hmade hopened)
  | clearWriteBufferSize =>
    exact hkeep ⟨nofun, nofun⟩ (Nat.zero_le _) (h.shut hmade hopened)
  | setClosing | pauseWriting | resumeWriting =>
    obtain ⟨c, p, hist, hrun⟩ := hbranches rfl
    refine hkeep ⟨nofun, nofun⟩ (by rw [hrun]) (h.shut hmade ?_)
    rwa [hrun] at hopened
  | _ => exact hkeep ⟨nofun, nofun⟩ le_rfl (h.shut hmade hopened)

/-- Every act keeps the accounts in order. -/
theorem act (h : Ledger tr) (hsane : Sane tr) (hmade : tr.made = true) {a : Act}
    (hok : a.Allowed tr) : Ledger (a.run tr) where
  graceful := h.graceful_act a
  leftover := h.leftover_act hok
  written := h.written_act hok
  size := h.size_act hok
  shut := fun _ hopened => h.shut_act hsane hmade hok hopened

end Ledger

/-- The accounts of every transport are in order in every reachable state. -/
theorem Reachable.ledger {s : State} (h : Reachable s) (t : ℕ) : Ledger (s.tr t) :=
  (h.transport (I := fun tr => Sane tr ∧ Ledger tr) ⟨Sane.blank, Ledger.blank⟩
    (fun writePipe p server => ⟨Sane.create writePipe p server, Ledger.create writePipe p server⟩)
    (fun _ b h => ⟨h.1.setFlushQueued b, h.2.setFlushQueued b⟩)
    (fun _ a hmade hok h => ⟨h.1.act a hok, h.2.act h.1 hmade hok⟩) t).2

end Zuvloop.Stream
