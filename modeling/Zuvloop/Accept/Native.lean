import Zuvloop.Accept.Accounting
import Zuvloop.Stream.Teardown

/-!
# The transports of accepted connections

The accept code sees three things of a native transport: that closing began, that libuv closed the
descriptor, and that the server was told. `Face` is that view, and `Face.Move` is how it changes.
The transports of `Zuvloop.Stream`, in which every native call and every callback is a program of
its own, move no other way, and the connections of `Zuvloop.Accept` can move in all these ways. So
what holds of connections in every run holds whatever native transports do.

## Main results

* `moves_of_reachable`: how the transport of a server moves in every reachable state.
* `Face.Move.matched`: the connections follow.
-/

namespace Zuvloop.Accept

open Relation

/-- What the accept code sees of a native transport. -/
structure Face where
  /-- Closing began. -/
  closing : Bool
  /-- libuv closed the descriptor. -/
  uvClosed : Bool
  /-- The server was told. -/
  told : Bool
deriving DecidableEq, Repr

/-- How that changes. -/
inductive Face.Move : Face → Face → Prop where
  | close {f : Face} : f.closing = false → Move f { f with closing := true }
  | uvClose {f : Face} : f.closing = true → f.uvClosed = false → Move f { f with uvClosed := true }
  | tell {f : Face} : f.uvClosed = true → f.told = false → Move f { f with told := true }

/-- A transport that has just been made. -/
def Face.fresh : Face := ⟨false, false, false⟩

/-- The native transport of a connection. -/
def Native.face (n : Native) : Face := ⟨n.closing, !n.opened, n.connLost⟩

/-- A native transport. -/
def face (tr : Stream.Transport) : Face :=
  ⟨tr.closing, tr.stream.closing, decide (Stream.Event.detach ∈ tr.history)⟩

/-- An act that records no detach leaves that part of the view alone. -/
theorem detach_mem_run {a : Stream.Act} {tr : Stream.Transport} (ha : a ≠ .detach) :
    Stream.Event.detach ∈ (a.run tr).history ↔ Stream.Event.detach ∈ tr.history := by
  rw [Stream.Act.history_run]
  cases he : a.event tr with
  | none => simp
  | some e =>
    have hne : e ≠ .detach := by
      rintro rfl
      exact ha (Stream.Act.records_of_event he)
    simp [hne.symm]

/-- Only `setClosing` begins the close. -/
theorem closing_run {a : Stream.Act} (ha : a ≠ .setClosing) (tr : Stream.Transport) :
    (a.run tr).closing = tr.closing := by
  cases a with
  | setClosing => exact absurd rfl ha
  | pauseWriting | resumeWriting =>
    unfold Stream.Act.run
    dsimp only
    rw [Stream.Transport.recordCall_eq]
  | _ => rfl

theorem told_run {a : Stream.Act} (ha : a ≠ .detach) (tr : Stream.Transport) :
    (face (a.run tr)).told = (face tr).told :=
  decide_eq_decide.mpr (detach_mem_run ha)

/-- Every act of a transport of `Zuvloop.Stream` is a move, or leaves the view alone. -/
theorem act_moves {a : Stream.Act} {tr : Stream.Transport} (hsane : Stream.Sane tr)
    (hmade : tr.made = true) (hok : a.Allowed tr) :
    ReflTransGen Face.Move (face tr) (face (a.run tr)) := by
  by_cases hclosing : a = .setClosing
  · subst hclosing
    cases hc : tr.closing with
    | true =>
      have hrun : Stream.Act.setClosing.run tr = tr := if_pos hc
      rw [hrun]
    | false =>
      have hset : (Stream.Act.setClosing.run tr).closing = true := by
        unfold Stream.Act.run
        dsimp only
        rw [hc]
        rfl
      have hface : face (Stream.Act.setClosing.run tr) = { face tr with closing := true } :=
        Face.mk.injEq .. ▸ ⟨hset, Stream.Act.stream_closing_run (by simp) tr,
          told_run (by simp) tr⟩
      rw [hface]
      exact .single (.close hc)
  by_cases huv : a = .uvClose
  · subst huv
    -- `uv_close` follows `OPEN` being cleared, and that follows `CLOSING` being set
    have hnot := hsane.disarming hok
    have hopen : tr.opened = false := by
      rw [← Bool.not_eq_true]
      intro hopen
      have hdisarming := (hsane.opened hopen).2
      rw [Stream.Act.Allowed, hdisarming] at hok
      cases hok
    have hface : face (Stream.Act.uvClose.run tr) = { face tr with uvClosed := true } :=
      Face.mk.injEq .. ▸ ⟨rfl, rfl, told_run (by simp) tr⟩
    rw [hface]
    exact .single (.uvClose (hsane.closing hmade hopen) hnot)
  by_cases hdetach : a = .detach
  · subst hdetach
    obtain ⟨hlost, -, hfirst⟩ := hok
    have htold : (face (Stream.Act.detach.run tr)).told = true :=
      decide_eq_true (List.mem_append_right _ (List.mem_singleton_self _))
    have hface : face (Stream.Act.detach.run tr) = { face tr with told := true } :=
      Face.mk.injEq .. ▸ ⟨rfl, rfl, htold⟩
    rw [hface]
    exact .single (.tell (hsane.uvClosed (hsane.lost.mp hlost)) (decide_eq_false hfirst))
  have hface : face (a.run tr) = face tr :=
    Face.mk.injEq .. ▸ ⟨closing_run hclosing tr, Stream.Act.stream_closing_run huv tr,
      told_run hdetach tr⟩
  rw [hface]

/-- The transport of a server only ever moves, in every reachable state. -/
theorem moves_of_reachable {s : Stream.State} (h : Stream.Reachable s) (t : ℕ) :
    ReflTransGen Face.Move .fresh (face (s.tr t)) := by
  refine (h.transport
    (I := fun tr => Stream.Sane tr ∧ ReflTransGen Face.Move .fresh (face tr)) ?_ ?_ ?_ ?_ t).2
  · exact ⟨Stream.Sane.blank, .refl⟩
  · intro w p srv
    have hface : face (.create w p srv) = .fresh :=
      Face.mk.injEq .. ▸ ⟨rfl, rfl, decide_eq_false (by simp [Stream.Transport.create])⟩
    exact ⟨Stream.Sane.create w p srv, hface ▸ .refl⟩
  · exact fun tr b h => ⟨h.1.setFlushQueued b, h.2⟩
  · exact fun tr a hmade hok h => ⟨h.1.act a hok, h.2.trans (act_moves h.1 hmade hok)⟩

/-- Whatever a native transport does next, the connection can follow it, without the accept code
being involved. -/
theorem Face.Move.matched {s : Scope} {n : Native} {f : Face} (hn : s.conn.native = some n)
    (h : Face.Move n.face f) :
    ∃ (act : Act) (n' : Native), act.applies s = true ∧ act.sound s.conn = true ∧
      (act.effect s).conn.native = some n' ∧ n'.face = f := by
  have hsome : s.conn.native.isSome = true := by
    rw [hn]
    rfl
  cases h with
  | close hc =>
    -- `close()` with a byte left in the queue
    refine ⟨.close (.left 1), { n with closing := true, writeBufferSize := 1 }, hsome, rfl, ?_, rfl⟩
    rw [Act.effect, Py.callback_native _ hn]
    change (Conn.closeTransport s.conn n (.left 1)).native = _
    rw [Conn.closeTransport, if_neg (by rw [show n.closing = false from hc]; simp)]
  | uvClose hc hopened =>
    have hopen : n.opened = true := (Bool.not_eq_false' _).mp hopened
    refine ⟨.abort, ⟨false, true, n.connLost, false, 0⟩, hsome, rfl, ?_, ?_⟩
    · rw [Act.effect, Py.callback_native _ hn]
      change (Conn.shutdownAndClose s.conn
        { n with closing := true, writeBufferSize := 0 }).native = _
      rw [Conn.shutdownAndClose, if_pos hopen]
    · exact Face.mk.injEq .. ▸ ⟨hc.symm, rfl, rfl⟩
  | tell hclosed htold =>
    have hopen : n.opened = false := (Bool.not_eq_true' _).mp hclosed
    refine ⟨.closed, { n with connLost := true }, ?_, rfl, ?_, rfl⟩
    · rw [Act.applies, hn, Option.any_some, hopen, show n.connLost = false from htold]
      rfl
    · change (onClosed.exec s).2.conn.native = _
      rw [onClosed, Py.exec_bind, Py.native_exec _ hn]
      rfl

end Zuvloop.Accept
