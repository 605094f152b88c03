import Zuvloop.Stream.Verified

/-!
# Writes before the loop sleeps

The prepare handle flushes every transport that holds unsent writes before libuv computes how long
it may block. A flush runs Python code, though, and that code may write again: to a transport the
flush has already visited, which then waits on a new list that this flush does not look at. If
nothing else keeps the loop from blocking, the write is stranded until something wakes the loop up.

`State.late` records that this happened during the last flush.

## Main results

* `no_stranded_write`: without a late write, nothing is pending when the loop may block.
* `no_stranded_write_late`: with one, something may be.
-/

namespace Zuvloop.Stream

open Reentrant

/-- libuv is about to block in its poll as far as the loop is concerned: the prepare handles have
run, no idle handle is active and no handle is closing. -/
structure State.AboutToBlock (s : State) : Prop where
  /-- The prepare handles have run. -/
  prepared : s.prepared = true
  /-- No idle handle is active. -/
  idle : s.uvIdle = false
  /-- No handle is closing. -/
  closing : s.closingHandles = 0

/-- No open transport that is not closing holds buffers in its batch. -/
def State.NothingPending (s : State) : Prop :=
  ∀ t, (s.tr t).opened = true → (s.tr t).isClosing = false → (s.tr t).pending = []

/-- Before a poll that may block, no accepted write is left in a batch, unless one was accepted
late: by Python code that the flush itself ran, while nothing kept the loop from blocking. -/
theorem no_stranded_write {s : State} (h : system.Reachable (env True) ⟨s, none, []⟩)
    (hblock : s.AboutToBlock) (hlate : s.late = false) : s.NothingPending := by
  have hinv : Inv True s := ((verified True).top_level h).1
  have hglobal := hinv.reach.global
  -- the flush list is empty, and so is the detached one
  have hmay : s.mayBlock = true := by
    rw [State.mayBlock, hblock.idle, hblock.closing]
    rfl
  have hhead : s.flushHead = [] := by
    rcases hglobal.prepared hblock.prepared with hnil | hl | hb
    · exact hnil
    · rw [hlate] at hl
      cases hl
    · rw [hmay] at hb
      cases hb
  have hdraining : s.draining = [] := (hinv.rest (hinv.prepared hblock.prepared).2).draining
  intro t _ _
  by_contra hne
  have hmem := (hglobal.listed t).mp ((hinv.settled t).queued hne)
  rw [hhead, hdraining] at hmem
  exact absurd hmem List.not_mem_nil

/-- What `connection_made` writes is sent before the loop blocks. -/
theorem no_stranded_write_connection_made :
    ∃ s : State, s.AboutToBlock ∧ (s.tr 0).handedOver = [1] ∧ s.NothingPending := by
  have hplay : ∃ s, system.play (env True) 100
      (opening .plain ++
        [.start .runBegin, .start .onIdle, .start (.write 0), exported [1], returned, returned,
          yes, returned, .start .prepare, status 1, returned])
      system.initial = some ⟨s, none, []⟩ ∧ s.prepared = true ∧ s.uvIdle = false ∧
      s.closingHandles = 0 ∧ (s.tr 0).handedOver = [1] ∧ s.late = false :=
    ⟨_, rfl, rfl, rfl, rfl, rfl, rfl⟩
  obtain ⟨s, hrun, hprepared, hidle, hclosing, hhanded, hlate⟩ := hplay
  have hblock : s.AboutToBlock := ⟨hprepared, hidle, hclosing⟩
  exact ⟨s, hblock, hhanded, no_stranded_write (System.Reachable.initial.play hrun) hblock hlate⟩

/-- A write in `connection_made` and then a high-water mark of zero pause the protocol. The flush
sends the write and resumes the protocol, which writes again: that write is in the batch when the
loop is about to block, and no request of libuv is under way that would wake it up. -/
theorem no_stranded_write_late :
    ∃ s, system.Reachable (env False) ⟨s, none, []⟩ ∧ s.AboutToBlock ∧
      (s.tr 0).opened = true ∧ (s.tr 0).isClosing = false ∧ (s.tr 0).stream.requests = [] ∧
      (s.tr 0).pendingBytes = [2] ∧ ¬ s.NothingPending := by
  have hplay : ∃ s, system.play (env False) 100
      (opening .plain ++
        [.start .runBegin, .start .onIdle, .start (.write 0), exported [1],
          .start (.setWriteBufferLimits 0 true false), counted 0, returned, returned, returned,
          yes, returned,
          .start .prepare, status 1, .start (.write 0), exported [2], returned, returned])
      system.initial = some ⟨s, none, []⟩ ∧ s.prepared = true ∧ s.uvIdle = false ∧
      s.closingHandles = 0 ∧ (s.tr 0).opened = true ∧ (s.tr 0).isClosing = false ∧
      (s.tr 0).stream.requests = [] ∧ (s.tr 0).pending = [⟨[2], 1⟩] :=
    ⟨_, rfl, rfl, rfl, rfl, rfl, rfl, rfl, rfl⟩
  obtain ⟨s, hrun, hprepared, hidle, hclosing, hopen, hnot, hreq, hpending⟩ := hplay
  refine ⟨s, System.Reachable.initial.play hrun, ⟨hprepared, hidle, hclosing⟩, hopen, hnot, hreq,
    ?_, fun hnone => ?_⟩
  · rw [Transport.pendingBytes, hpending]
    rfl
  · have := hnone 0 hopen hnot
    rw [hpending] at this
    cases this

end Zuvloop.Stream
