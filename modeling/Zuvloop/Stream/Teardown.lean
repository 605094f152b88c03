import Zuvloop.Stream.Verified

/-!
# Teardown of a transport

However a transport comes to be closed (in good order, by force, by its peer, by a failed write, and
however often), its handle is closed once, `connection_lost` is queued once, its server is told
once, and nothing reaches the protocol between `connection_lost` and the end. A close that is not
done waits for a write request whose completion finishes it, or for `get_buffer` to return.

## Main results

* `teardown`: all of this, whenever Python code or libuv is in control.
-/

namespace Zuvloop.Stream

open Reentrant

/-- `uv_close` was called. -/
def Event.isUvClose : Event → Bool
  | .uvClose _ => true
  | _ => false

/-- The protocol was told that something was read, or to go on writing. -/
def Event.isDelivery : Event → Bool
  | .called m => m.reads || m == .resumeWriting
  | _ => false

/-- How a transport may come to be closed. -/
structure Transport.Orderly (tr : Transport) : Prop where
  /-- `connection_made` is queued before anything else happens. -/
  made : tr.history.head? = some .connectionMadeQueued
  /-- `uv_close` is called once, by the teardown that clears `OPEN`. -/
  uvClose : tr.disarming = false →
    tr.history.countP Event.isUvClose = if tr.opened then 0 else 1
  /-- While a teardown disarms the socket object, `uv_close` is still to come. -/
  disarming : tr.disarming = true → tr.history.countP Event.isUvClose = 0
  /-- `connection_lost` is queued at most once, and not before the close callback. -/
  lostOnce : tr.history.countP Event.isLostQueued ≤ if tr.connLost then 1 else 0
  /-- If the protocols had the methods of `asyncio.BaseProtocol`, the close callback queues it. -/
  lost : tr.complete = true →
    tr.history.countP Event.isLostQueued = if tr.connLost then 1 else 0
  /-- After it nothing that was read is delivered, and the protocol is not told to go on. -/
  quiet : tr.history.Pairwise fun e e' => e.isLostQueued = true → e'.isDelivery = false
  /-- The owning server is told once, by the close callback. -/
  detach : tr.history.count .detach = if tr.connLost && tr.server then 1 else 0
  /-- A close that is not done waits for a write request, or for `get_buffer`. -/
  live : tr.closing = true → tr.opened = true →
    tr.stream.requests ≠ [] ∧ 0 < tr.writeBufferSize ∧ tr.writeBufferSize = tr.requestSize ∨
      tr.allocatingReadBuffer = true

/-! ## Counting events -/

/-- Events that an act may only record while there are none happen at most once. -/
theorem countP_run_le_one {p : Event → Bool} {tr : Transport} {a : Act}
    (h : tr.history.countP p ≤ 1)
    (hfirst : ∀ e, a.event tr = some e → p e = true → tr.history.any p = false) :
    (a.run tr).history.countP p ≤ 1 := by
  cases he : a.event tr with
  | none => rwa [Act.history_run_of_none he]
  | some e =>
    rw [Act.history_run_of_event he, List.countP_append, List.countP_singleton]
    split
    · rename_i hp
      have hnone := hfirst e he hp
      rw [List.any_eq_false] at hnone
      rw [List.countP_eq_zero.mpr hnone]
    · exact h

/-- Acts that do not record an event do not change how many there are. -/
theorem countP_run_eq {p : Event → Bool} {tr : Transport} {a : Act}
    (h : ∀ e, a.event tr = some e → p e = false) :
    (a.run tr).history.countP p = tr.history.countP p := by
  cases he : a.event tr with
  | none => rw [Act.history_run_of_none he]
  | some e =>
    rw [Act.history_run_of_event he, List.countP_append, List.countP_singleton, h e he]
    rfl

/-- Only `uvClose` calls `uv_close`. -/
theorem Act.isUvClose_of_event {a : Act} {tr : Transport} {e : Event} (he : a.event tr = some e)
    (hp : e.isUvClose = true) : a = .uvClose := by
  have hr := records_of_event he
  cases e with
  | uvClose n => exact hr.1
  | _ => cases hp

/-- Only `lostQueued` queues `connection_lost`. -/
theorem Act.isLostQueued_of_event {a : Act} {tr : Transport} {e : Event}
    (he : a.event tr = some e) (hp : e.isLostQueued = true) : a = .lostQueued := by
  have hr := records_of_event he
  cases e with
  | connectionLostQueued exc => exact hr.1
  | _ => cases hp

/-! ## What every act keeps -/

/-- What the history of a transport says about its close, in any reachable state. -/
structure Counted (tr : Transport) : Prop where
  /-- Nothing happened before `connection_made` was queued. -/
  made : tr.made = true → tr.history.head? = some .connectionMadeQueued
  /-- `uv_close` was called as often as the stream says. -/
  uvClose : tr.history.countP Event.isUvClose = if tr.stream.closing then 1 else 0
  /-- `connection_lost` was queued at most once. -/
  lost : tr.history.countP Event.isLostQueued ≤ 1
  /-- The server was told at most once. -/
  detach : tr.history.count .detach ≤ 1
  /-- Only an owning server is told. -/
  server : .detach ∈ tr.history → tr.server = true

/-- The owning server stays. -/
theorem Act.server_run (a : Act) (tr : Transport) : (a.run tr).server = tr.server := by
  cases a with
  | setClosing =>
    unfold Act.run
    dsimp only
    split <;> rfl
  | pauseWriting | resumeWriting =>
    unfold Act.run
    dsimp only
    rw [Transport.recordCall_eq]
  | _ => rfl

/-- Only `uvClose` starts the close of the stream. -/
theorem Act.stream_closing_run {a : Act} (h : a ≠ .uvClose) (tr : Transport) :
    (a.run tr).stream.closing = tr.stream.closing := by
  cases a with
  | uvClose => exact absurd rfl h
  | setClosing =>
    unfold Act.run
    dsimp only
    split <;> rfl
  | pauseWriting | resumeWriting =>
    unfold Act.run
    dsimp only
    rw [Transport.recordCall_eq]
  | _ => rfl

namespace Counted

variable {tr : Transport}

theorem blank : Counted .blank := ⟨nofun, rfl, Nat.zero_le _, Nat.zero_le _, nofun⟩

theorem create (writePipe : Bool) (p : Protocol) (server : Bool) :
    Counted (.create writePipe p server) :=
  ⟨fun _ => rfl, rfl, Nat.zero_le _, Nat.zero_le _, fun h => by simp [Transport.create] at h⟩

theorem act (h : Counted tr) (hs : Sane tr) (a : Act) (hm : tr.made = true)
    (hok : a.Allowed tr) : Counted (a.run tr) where
  made := fun _ => by
    rw [a.history_run, List.head?_append, h.made hm]
    rfl
  uvClose := by
    by_cases ha : a = .uvClose
    · subst ha
      -- the teardown that clears `OPEN` comes once
      have hopen : tr.stream.closing = false := hs.disarming hok
      rw [Act.history_run_of_event rfl, List.countP_append, h.uvClose, hopen]
      rfl
    · rw [Act.stream_closing_run ha, ← h.uvClose]
      refine countP_run_eq fun e he => ?_
      by_contra hp
      exact ha (Act.isUvClose_of_event he ((Bool.not_eq_false _).mp hp))
  lost := countP_run_le_one h.lost fun e he hp => by
    obtain rfl := Act.isLostQueued_of_event he hp
    exact hok.2
  detach := countP_run_le_one h.detach fun e he hp => by
    rw [beq_iff_eq] at hp
    subst hp
    obtain rfl : a = .detach := Act.records_of_event he
    rw [List.any_eq_false]
    intro e he
    rw [beq_iff_eq]
    rintro rfl
    exact hok.2.2 he
  server := fun hmem => by
    rw [a.server_run]
    rw [a.history_run, List.mem_append, Option.mem_toList] at hmem
    rcases hmem with hmem | he
    · exact h.server hmem
    · obtain rfl : a = .detach := Act.records_of_event he
      exact hok.2.1

end Counted

/-- The counts hold in every reachable state. -/
theorem Reachable.counted {s : State} (h : Reachable s) (t : ℕ) : Counted (s.tr t) := by
  refine (h.transport (I := fun tr => Sane tr ∧ Counted tr) ⟨.blank, .blank⟩
    (fun w p srv => ⟨.create w p srv, .create w p srv⟩) (fun tr b hI => ⟨hI.1.setFlushQueued b,
      hI.2.made, hI.2.uvClose, hI.2.lost, hI.2.detach, hI.2.server⟩) (fun tr a hm hok hI => ?_) t).2
  exact ⟨hI.1.act a hok, hI.2.act hI.1 a hm hok⟩

/-- Nothing is delivered to the protocol once `connection_lost` has been queued. -/
theorem Reachable.quiet {s : State} (h : Reachable s) (t : ℕ) :
    (s.tr t).history.Pairwise fun e e' => e.isLostQueued = true → e'.isDelivery = false := by
  refine (h.recorded (by simp) (fun s u a e hs _ hok he e' hmem hlost => ?_) t).pairwise
  have hgone : (s.tr u).connLost = true :=
    (hs.sane u).lostQueued (List.any_eq_true.mpr ⟨e', hmem, hlost⟩)
  by_contra hdel
  rw [Bool.not_eq_false] at hdel
  have hr := Act.records_of_event he
  cases e with
  | called m =>
    change (m.reads || m == .resumeWriting) = true at hdel
    rcases hr with rfl | ⟨hflow, -, ⟨rfl, rfl⟩ | ⟨rfl, rfl⟩⟩
    · -- a method called from the read path, or one that is not called at all here
      rw [Bool.or_eq_true] at hdel
      rcases hdel with hreads | hresume
      · rw [hok.1 hreads] at hgone
        cases hgone
      · obtain rfl : m = .resumeWriting := by simpa using hresume
        exact absurd hok.2.2.1 (by decide)
    · cases hdel
    · have hclosing := hok.1
      rw [Transport.isClosing, hgone, Bool.or_true] at hclosing
      cases hclosing
  | _ => cases hdel

/-- Whenever Python code or libuv is in control, on a loop that can allocate, a transport has been
closed as far as it has in good order, and can always be closed further. -/
theorem teardown {s : State} {stack : List (Callback × (Result → P Unit))}
    (h : system.Reachable (env False) ⟨s, none, stack⟩) {t : ℕ} (hmade : (s.tr t).made = true) :
    (s.tr t).Orderly := by
  have hinv : Inv False s := (verified False).in_foreign (not_quiet False) h
  have hsane := hinv.reach.sane t
  have hcount := hinv.reach.counted t
  have hbase := (hinv.settled t).base
  have hlostOnce :
      (s.tr t).history.countP Event.isLostQueued ≤ if (s.tr t).connLost then 1 else 0 := by
    cases hl : (s.tr t).connLost with
    | true => exact hcount.lost
    | false =>
      rw [if_neg Bool.false_ne_true, Nat.le_zero, List.countP_eq_zero]
      intro e he hp
      rw [hsane.lostQueued (List.any_eq_true.mpr ⟨e, he, hp⟩)] at hl
      cases hl
  refine ⟨hcount.made hmade, fun hd => ?_, fun hd => ?_, hlostOnce, fun hcomplete => ?_,
    hinv.reach.quiet t, ?_, fun hc ho => ?_⟩
  · rw [hcount.uvClose]
    cases ho : (s.tr t).opened with
    | true =>
      rw [(hsane.opened ho).1]
      rfl
    | false =>
      have hclosing := (hsane.closed hmade ho).resolve_right (by rw [hd]; exact Bool.false_ne_true)
      rw [hclosing]
      rfl
  · rw [hcount.uvClose, hsane.disarming hd]
    rfl
  · refine le_antisymm hlostOnce ?_
    split
    · -- the close callback has queued it
      rename_i hl
      rw [Nat.one_le_iff_ne_zero, ← Nat.pos_iff_ne_zero, List.countP_pos_iff]
      exact List.any_eq_true.mp (hbase.lost not_false hcomplete hl)
    · exact Nat.zero_le _
  · split
    · rename_i hboth
      rw [Bool.and_eq_true_iff] at hboth
      have hpos : 0 < (s.tr t).history.count .detach :=
        List.count_pos_iff.mpr (hbase.detached hboth.1 hboth.2)
      exact le_antisymm hcount.detach hpos
    · rename_i hboth
      rw [List.count_eq_zero]
      intro hmem
      exact hboth (Bool.and_eq_true_iff.mpr ⟨hsane.detached hmem, hcount.server hmem⟩)
  · rcases hbase.live hc ho with hpos | hpending
    · rcases hbase.sum ho with hsum | ⟨-, hzero, -⟩
      · refine .inl ⟨fun hnil => ?_, hpos, hsum⟩
        rw [hsum, Transport.requestSize, hnil] at hpos
        exact absurd hpos (lt_irrefl 0)
      · rw [hzero] at hpos
        exact absurd hpos (lt_irrefl 0)
    · exact .inr (hbase.pendingRead hpending)

/-- A connection accepted by a server writes, is closed while the write is queued, and is torn down
when the write completes. -/
theorem teardown_close :
    ∃ s : State, (s.tr 0).connLost = true ∧ (s.tr 0).server = true ∧ s.ready.toList.getLast? =
      some (.connectionLost 0 none) ∧ (s.tr 0).complete = true ∧ (s.tr 0).Orderly := by
  have hplay : ∃ s, system.play (env False) 100
      [.start (.makeTransport false .plain true true false), yes, yes, yes, yes,
        .start (.write 0), exported [1, 2], status 1, yes, .answer ⟨true, 0, 1⟩,
        .start (.close 0), .start .runBegin, .start (.onWritten 0 0 0), .start (.onClosed 0),
        yes, yes, returned, returned]
      system.initial = some ⟨s, none, []⟩ ∧ (s.tr 0).connLost = true ∧ (s.tr 0).server = true ∧
      s.ready.toList.getLast? = some (.connectionLost 0 none) ∧ (s.tr 0).made = true ∧
      (s.tr 0).complete = true :=
    ⟨_, rfl, rfl, rfl, rfl, rfl, rfl⟩
  obtain ⟨s, hrun, hlost, hserver, hready, hmade, hcomplete⟩ := hplay
  exact ⟨s, hlost, hserver, hready, hcomplete,
    teardown (System.Reachable.initial.play hrun) hmade⟩

end Zuvloop.Stream
