import Mathlib.Algebra.BigOperators.Group.List.Basic
import Mathlib.Logic.Relation
import Mathlib.Tactic.Linarith
import Mathlib.Tactic.Ring
import Zuvloop.Accept.Connection

/-!
# The account of an accepted connection

A server counts the connections it has accepted and not given back. Whatever happens, every
decrement of the count is charged to one connection (`Reachable.ledger`). That each connection is
charged once is a matter of who owns its descriptor: the socket object up to the adoption by a
transport, libuv from then on. `Account` is that ownership on its own, and every step of the code
moves a connection along it, as long as `_accept_tls` can tell from `conn.fileno()` who the owner
is, and gets to run at all.

## Main definitions

* `Account`, `Account.Next`: who owns a connection, and how that changes.
* `Sound`: the steps in which `_accept_tls` finds out who the owner is.
* `World.Accounted`: what the server promises of its connections.

## Main results

* `accounting`: the promise holds in every run of sound steps, and a step keeps it exactly if it
  is sound.
-/

namespace Zuvloop.Accept

open Relation Transition

/-! ## The ledger -/

/-- Run Python code. -/
def Py.exec {α : Type} (p : Py α) (s : Scope) : Except Exc α × Scope := p.run.run s

theorem Py.exec_bind {α β : Type} (p : Py α) (f : α → Py β) (s : Scope) : (p >>= f).exec s =
    match p.exec s with
    | (.ok a, s') => (f a).exec s'
    | (.error e, s') => (.error e, s') := by
  simp only [Py.exec, ExceptT.run_bind, StateT.run_bind]
  rcases StateT.run (ExceptT.run p) s with ⟨_ | _, s'⟩
  · rfl
  · rfl

theorem Py.exec_tryCatch {α : Type} (p : Py α) (f : Exc → Py α) (s : Scope) :
    (tryCatch p f : Py α).exec s =
      match p.exec s with
      | (.ok a, s') => (.ok a, s')
      | (.error e, s') => (f e).exec s' := by
  simp only [Py.exec, ExceptT.run, tryCatch, tryCatchThe, MonadExceptOf.tryCatch, ExceptT.tryCatch,
    ExceptT.mk, StateT.run_bind]
  rcases StateT.run p s with ⟨_ | _, s'⟩
  · rfl
  · rfl

/-- A call of a native function. -/
theorem Py.native_exec {s : Scope} {n : Native} (f : Conn → Native → Conn)
    (hn : s.conn.native = some n) :
    (Py.native f).exec s = (.ok (), { s with conn := f s.conn n }) := by
  have hconn : ∀ g : Conn → Conn, (Py.conn g).exec s = (.ok (), { s with conn := g s.conn }) :=
    fun _ => rfl
  simp only [Py.native, hconn, hn]

theorem Py.callback_native {s : Scope} {n : Native} (f : Conn → Native → Conn)
    (hn : s.conn.native = some n) : (Py.native f).callback s = { s with conn := f s.conn n } :=
  congrArg Prod.snd (Py.native_exec f hn)

/-- What the server has counted, and what was given back for the connection. -/
def Scope.total (s : Scope) : ℤ := s.server.active + s.conn.detaches

/-- Code that charges every decrement of the count to the connection. -/
def Py.Keeps {α : Type} (p : Py α) : Prop := ∀ s, (p.exec s).2.total = s.total

namespace Py.Keeps

variable {α β : Type}

protected theorem pure (a : α) : Keeps (pure a : Py α) := fun _ => rfl

protected theorem throw (e : Exc) : Keeps (throw e : Py α) := fun _ => rfl

protected theorem bind {p : Py α} {f : α → Py β} (hp : Keeps p) (hf : ∀ a, Keeps (f a)) :
    Keeps (p >>= f) := by
  intro s
  have hs := hp s
  rw [Py.exec_bind]
  revert hs
  rcases p.exec s with ⟨e | a, s'⟩
  · exact id
  · exact (hf a s').trans

protected theorem tryCatch {p : Py α} {f : Exc → Py α} (hp : Keeps p) (hf : ∀ e, Keeps (f e)) :
    Keeps (tryCatch p f) := by
  intro s
  have hs := hp s
  rw [Py.exec_tryCatch]
  revert hs
  rcases p.exec s with ⟨e | a, s'⟩
  · exact (hf e s').trans
  · exact id

protected theorem ite {c : Prop} [Decidable c] {p q : Py α} (hp : Keeps p) (hq : Keeps q) :
    Keeps (if c then p else q) := by
  split
  · exact hp
  · exact hq

/-- Code that leaves the number of detaches alone. -/
protected theorem conn {f : Conn → Conn} (hf : ∀ c, (f c).detaches = c.detaches) :
    Keeps (Py.conn f) := by
  intro s
  change s.server.active + ((f s.conn).detaches : ℤ) = s.server.active + s.conn.detaches
  rw [hf]

protected theorem native {f : Conn → Native → Conn} (hf : ∀ c n, (f c n).detaches = c.detaches) :
    Keeps (Py.native f) := by
  refine Keeps.conn fun c => ?_
  cases c.native with
  | none => rfl
  | some n => exact hf c n

theorem raising (o : Option Exc) : Keeps (raising o) := by
  cases o with
  | none => exact Keeps.pure ()
  | some e => exact Keeps.throw e

theorem closeSocket : Keeps closeSocket := Keeps.conn fun c => by split <;> rfl

theorem detach : Keeps detach := by
  intro s
  change (if s.server.active - 1 = 0 ∧ ¬ s.server.listening then
      { s.server with active := s.server.active - 1, woken := true }
    else { s.server with active := s.server.active - 1 }).active + ((s.conn.detaches + 1 : ℕ) : ℤ) =
      s.server.active + s.conn.detaches
  split <;> push_cast <;> ring

/-- The two halves of giving up a connection that Python code owns. -/
theorem release {q : Py Unit} (hq : Keeps q) :
    Keeps (do Accept.closeSocket; Accept.detach; q) :=
  closeSocket.bind fun _ => detach.bind fun _ => hq

end Py.Keeps

namespace Conn

@[simp]
theorem shutdownAndClose_detaches (c : Conn) (n : Native) :
    (c.shutdownAndClose n).detaches = c.detaches := by
  unfold shutdownAndClose
  split <;> rfl

@[simp]
theorem forceClose_detaches (c : Conn) (n : Native) : (c.forceClose n).detaches = c.detaches :=
  c.shutdownAndClose_detaches _

@[simp]
theorem closeTransport_detaches (c : Conn) (n : Native) (flush : Flush) :
    (c.closeTransport n flush).detaches = c.detaches := by
  unfold closeTransport
  split
  · rfl
  · rcases flush with (_ | _) | _ <;> simp

@[simp]
theorem onWritten_detaches (c : Conn) (n : Native) (left : ℕ) :
    (c.onWritten n left).detaches = c.detaches := by
  unfold onWritten
  split <;> simp

end Conn

namespace Py.Keeps

theorem attachTransport (o : Setup) : Keeps (attachTransport o) := by
  refine (raising _).bind fun _ => Keeps.bind (Keeps.conn fun _ => rfl) fun _ => ?_
  refine Keeps.tryCatch ?_ fun e => ?_
  · refine (raising _).bind fun _ => Keeps.bind (Keeps.native fun _ _ => rfl) fun _ => ?_
    exact (raising _).bind fun _ => Keeps.conn fun _ => rfl
  · refine Keeps.bind (Keeps.conn fun _ => rfl) fun _ => ?_
    exact Keeps.bind (Keeps.native fun c n => c.forceClose_detaches n) fun _ => Keeps.throw e

theorem accept {p : Py Unit} (hp : Keeps p) : Keeps (accept p) := by
  refine hp.tryCatch fun e => Keeps.bind (fun _ => rfl) fun armed => ?_
  exact Keeps.ite (release (Keeps.throw e)) (Keeps.throw e)

theorem acceptTlsRaised (e : Exc) : Keeps (acceptTlsRaised e) := by
  have hend : Keeps (if e.isException then callExceptionHandler e else throw e) :=
    Keeps.ite (fun _ => rfl) (Keeps.throw e)
  refine Keeps.bind (fun _ => rfl) fun armed => Keeps.ite (release ?_) (Keeps.ite ?_ ?_)
  · exact hend
  · exact Keeps.pure ()
  · exact hend

theorem acceptTls {p : Py Unit} (hp : Keeps p) : Keeps (acceptTls p) :=
  hp.tryCatch acceptTlsRaised

/-- What is left of a run after the stage has been set. -/
theorem finish {p : Py Unit} (hp : Keeps p) (stage : Stage) (s : Scope) :
    (p.finish stage s).total = s.total := by
  have hs := hp s
  unfold Py.finish
  unfold Py.exec at hs
  revert hs
  rcases p.run.run s with ⟨e | a, s'⟩
  · exact id
  · exact id

end Py.Keeps

/-- Whatever happens to a connection, a decrement of the count is charged to it. -/
theorem Act.effect_total (a : Act) (s : Scope) : (a.effect s).total = s.total := by
  cases a with
  | connect o =>
    have hp : Py.Keeps (acceptConnection o) := (Py.Keeps.raising _).bind fun _ => .attachTransport o
    exact hp.accept.finish .over s
  | createTask raised => exact (Py.Keeps.raising raised).accept.finish .scheduled s
  | beginTask => exact (Py.Keeps.pure ()).finish .wrapping s
  | cancelUnstarted => exact (Py.Keeps.closeSocket.bind fun _ => .throw .base).finish .over s
  | wrap o =>
    have hp : Py.Keeps (wrapSocket o) := (Py.Keeps.raising _).bind fun _ => .attachTransport o
    exact hp.acceptTls.finish o.stage s
  | handshakeDone => exact (Py.Keeps.pure ()).finish .over s
  | handshakeFailed e flush =>
    have hp : Py.Keeps (waiterRaised e flush) :=
      (Py.Keeps.native fun c n => c.closeTransport_detaches n flush).bind fun _ => .throw e
    exact hp.acceptTls.finish .over s
  | write bytes => exact Py.Keeps.native (f := fun c n => c.write n bytes) (fun _ _ => rfl) s
  | written left => exact Py.Keeps.native (fun c n => c.onWritten_detaches n left) s
  | close flush => exact Py.Keeps.native (fun c n => c.closeTransport_detaches n flush) s
  | abort => exact Py.Keeps.native (fun c n => c.forceClose_detaches n) s
  | closed => exact (Py.Keeps.native (f := Conn.lose) fun _ _ => rfl).bind (fun _ => .detach) s

/-- What the server has given back, over all its connections. -/
def World.given (w : World) : ℤ := (w.conns.map fun c => (c.detaches : ℤ)).sum

theorem World.put_given {w : World} {i : ℕ} {c : Conn} (hc : w.conns[i]? = some c) (s : Scope) :
    (w.put i s).given = w.given - c.detaches + s.conn.detaches := by
  obtain ⟨hi, rfl⟩ := List.getElem?_eq_some_iff.mp hc
  unfold World.given World.put
  rw [List.map_set, List.sum_set', dif_pos (by simpa using hi), List.getElem_map]
  ring

/-- Every accepted connection has been counted, and every decrement has been charged to one. -/
theorem ledger {tls : Bool} {ok : World → Label → Prop} {w : World}
    (h : (machine tls).Reachable ok w) : w.server.active + w.given = w.conns.length := by
  refine h.invariant (I := fun w => w.server.active + w.given = (w.conns.length : ℤ)) rfl
    fun w w' l _ hw _ hstep => ?_
  cases l with
  | accept =>
    obtain ⟨-, hw'⟩ := Option.ite_none_right_eq_some.mp hstep
    obtain rfl := Option.some.inj hw'
    unfold World.given at hw ⊢
    rw [List.map_append, List.sum_append, List.length_append]
    change w.server.active + 1 + (_ + 0) = ((w.conns.length + 1 : ℕ) : ℤ)
    push_cast
    linarith
  | closeServer =>
    simp only [machine, World.step] at hstep
    split at hstep <;> obtain rfl := Option.some.inj hstep <;> exact hw
  | on i a =>
    obtain ⟨c, hc, hstep⟩ := Option.bind_eq_some_iff.mp hstep
    obtain ⟨-, hw'⟩ := Option.ite_none_right_eq_some.mp hstep
    obtain rfl := Option.some.inj hw'
    have htotal := a.effect_total (w.scope c)
    change (a.effect (w.scope c)).server.active + (w.put i (a.effect (w.scope c))).given =
      ((w.conns.set i _).length : ℤ)
    rw [World.put_given hc, List.length_set, ← hw]
    change (a.effect (w.scope c)).server.active + _ = w.server.active + c.detaches at htotal
    linarith

/-! ## Who owns the descriptor -/

/-- Who owns an accepted connection. -/
inductive Account where
  /-- The socket object. -/
  | held
  /-- Nobody: the socket object closed the descriptor. -/
  | refused
  /-- libuv. -/
  | adopted
  /-- libuv, which has closed the descriptor and will report it. -/
  | closing
  /-- Nobody: libuv reported that it closed the descriptor. -/
  | gone
deriving DecidableEq, Repr

/-- How ownership changes. -/
inductive Account.Next : Account → Account → Prop where
  | refuse : Next .held .refused
  | adopt : Next .held .adopted
  | close : Next .adopted .closing
  | report : Next .closing .gone

/-- How often the owners so far have closed the descriptor: the socket object and libuv. -/
def Account.closes : Account → ℕ × ℕ
  | .held | .adopted => (0, 0)
  | .refused => (1, 0)
  | .closing | .gone => (0, 1)

/-- How often the connection has been given back. -/
def Account.detaches : Account → ℕ
  | .refused | .gone => 1
  | _ => 0

/-- What the connection looks like while it is owned so. -/
def Account.Fits (c : Conn) : Account → Prop
  | .held => c.native = none ∧ c.sock = .armed ∧
      (c.stage = .accepting ∨ c.stage = .scheduled ∨ c.stage = .wrapping)
  | .refused => c.native = none ∧ c.sock = .closed ∧ c.stage = .over
  | .adopted => c.sock = .armed ∧ (c.stage = .handshake ∨ c.stage = .over) ∧
      ∃ n, c.native = some n ∧ n.opened = true ∧ n.view = true ∧ n.connLost = false
  | .closing => c.sock = .detached ∧ (c.stage = .handshake ∨ c.stage = .over) ∧
      ∃ n, c.native = some n ∧ n.opened = false ∧ n.closing = true ∧ n.connLost = false
  | .gone => c.sock = .detached ∧ (c.stage = .handshake ∨ c.stage = .over) ∧
      ∃ n, c.native = some n ∧ n.opened = false ∧ n.closing = true ∧ n.connLost = true

/-- A connection whose books agree with its owner. -/
structure Conn.Owned (c : Conn) (a : Account) : Prop where
  /-- It looks as it should. -/
  fits : a.Fits c
  /-- The descriptor was closed by its owners only. -/
  closes : (c.closedByPython, c.closedByLibuv) = a.closes
  /-- It was given back by its last owner only. -/
  detaches : c.detaches = a.detaches

/-- `transport.close()` would leave the descriptor open: closing has to wait for the queue. -/
def Native.closeDeferred (n : Native) : Flush → Bool
  | .left (_ + 1) => n.opened
  | _ => n.opened && n.closing

/-- `_accept_tls` gets to run, and can tell from `conn.fileno()` who owns the descriptor. -/
def Act.sound (c : Conn) : Act → Bool
  | .cancelUnstarted => false
  | .handshakeFailed _ flush => !c.native.any fun n => n.closeDeferred flush
  | _ => true

/-- The steps whose handlers know the owner. -/
def Sound (w : World) : Label → Prop
  | .on i a => w.conns[i]?.all a.sound = true
  | _ => True

instance (w : World) (l : Label) : Decidable (Sound w l) := by
  cases l <;> unfold Sound <;> infer_instance

namespace Conn.Owned

variable {c : Conn} {a : Account} {n k : Native}

/-- Nobody has closed the descriptor of an adopted connection, or else it was libuv. -/
theorem late (h : c.Owned a) (hn : c.native = some n) :
    a = .adopted ∨ a = .closing ∨ a = .gone := by
  obtain ⟨hfits, -, -⟩ := h
  cases a with
  | held | refused => rw [hfits.1] at hn; cases hn
  | adopted => exact .inl rfl
  | closing => exact .inr (.inl rfl)
  | gone => exact .inr (.inr rfl)

/-- The owner of a detached connection is libuv. -/
theorem late_of_detached (h : c.Owned a) (hsock : c.sock = .detached) :
    a = .adopted ∨ a = .closing ∨ a = .gone := by
  obtain ⟨hfits, -, -⟩ := h
  cases a with
  | held | refused => rw [hfits.2.1] at hsock; cases hsock
  | adopted => exact .inl rfl
  | closing => exact .inr (.inl rfl)
  | gone => exact .inr (.inr rfl)

/-- The owner of a connection that waits for the handshake is libuv. -/
theorem late_of_handshake (h : c.Owned a) (hstage : c.stage = .handshake) :
    a = .adopted ∨ a = .closing ∨ a = .gone := by
  obtain ⟨hfits, -, -⟩ := h
  cases a with
  | held => rcases hfits.2.2 with hs | hs | hs <;> rw [hs] at hstage <;> cases hstage
  | refused => rw [hfits.2.2] at hstage; cases hstage
  | adopted => exact .inl rfl
  | closing => exact .inr (.inl rfl)
  | gone => exact .inr (.inr rfl)

/-- libuv owns a connection through its transport. -/
theorem native_of_late (h : c.Owned a) (hlate : a = .adopted ∨ a = .closing ∨ a = .gone) :
    ∃ n, c.native = some n := by
  obtain ⟨hfits, -, -⟩ := h
  rcases hlate with rfl | rfl | rfl <;> exact ⟨_, hfits.2.2.choose_spec.1⟩

/-- A closed descriptor that was not reported yet. -/
theorem closing_of (h : c.Owned a) (hn : c.native = some n) (hopen : n.opened = false)
    (hlost : n.connLost = false) : a = .closing := by
  rcases h.late hn with rfl | rfl | rfl
  · obtain ⟨-, -, m, hm, hopek, -⟩ := h.fits
    obtain rfl := Option.some.inj (hm.symm.trans hn)
    rw [hopen] at hopek
    cases hopek
  · rfl
  · obtain ⟨-, -, m, hm, -, -, hlost'⟩ := h.fits
    obtain rfl := Option.some.inj (hm.symm.trans hn)
    rw [hlost] at hlost'
    cases hlost'

/-- Changes to the native transport that do not concern the owner. -/
theorem withNative (h : c.Owned a) (hn : c.native = some n) (hopened : k.opened = n.opened)
    (hview : k.view = n.view) (hlost : k.connLost = n.connLost)
    (hclosing : n.closing = true → k.closing = true) :
    { c with native := some k }.Owned a := by
  obtain ⟨hfits, hcloses, hdetaches⟩ := h
  refine ⟨?_, hcloses, hdetaches⟩
  cases a with
  | held | refused => rw [hfits.1] at hn; cases hn
  | adopted =>
    obtain ⟨hsock, hstage, m, hm, hopen, hv, hl⟩ := hfits
    obtain rfl := Option.some.inj (hm.symm.trans hn)
    exact ⟨hsock, hstage, k, rfl, hopened.trans hopen, hview.trans hv, hlost.trans hl⟩
  | closing | gone =>
    obtain ⟨hsock, hstage, m, hm, hopen, hc, hl⟩ := hfits
    obtain rfl := Option.some.inj (hm.symm.trans hn)
    exact ⟨hsock, hstage, k, rfl, hopened.trans hopen, hclosing hc, hlost.trans hl⟩

/-- `shutdownAndClose` takes the descriptor from the socket object, if libuv still has it open. -/
theorem shutdownAndClose (h : c.Owned a) (hn : c.native = some n)
    (hopened : k.opened = n.opened) (hview : k.view = n.view)
    (hlost : k.connLost = n.connLost) (hclosing : k.closing = true) :
    ∃ a', (c.shutdownAndClose k).Owned a' ∧ ReflTransGen Account.Next a a' ∧
      (c.shutdownAndClose k).sock = .detached := by
  unfold Conn.shutdownAndClose
  have hwith := h.withNative (k := k) hn hopened hview hlost fun _ => hclosing
  obtain ⟨hfits, hcloses, hdetaches⟩ := h
  rcases late ⟨hfits, hcloses, hdetaches⟩ hn with rfl | rfl | rfl
  · obtain ⟨hsock, hstage, m, hm, hopen, hv, hl⟩ := hfits
    obtain rfl := Option.some.inj (hm.symm.trans hn)
    have hpair := Prod.mk.inj hcloses
    have hsock' : (if k.view then c.sock.detach else c.sock) = .detached := by
      rw [hview, hv, if_pos rfl, hsock]
      rfl
    rw [if_pos (hopened.trans hopen)]
    refine ⟨.closing, ⟨⟨hsock', hstage, _, rfl, rfl, hclosing, hlost.trans hl⟩, ?_, hdetaches⟩,
      .single .close, hsock'⟩
    exact Prod.ext hpair.1 (congrArg (· + 1) hpair.2)
  all_goals
    have hopen : ¬ k.opened = true := by
      obtain ⟨-, -, m, hm, hopen, -⟩ := hfits
      obtain rfl := Option.some.inj (hm.symm.trans hn)
      rw [hopened, hopen]
      exact Bool.false_ne_true
    rw [if_neg hopen]
    exact ⟨_, hwith, .refl, hfits.1⟩

/-- `forceClose` takes the descriptor from the socket object. -/
theorem forceClose (h : c.Owned a) (hn : c.native = some n) :
    ∃ a', (c.forceClose n).Owned a' ∧ ReflTransGen Account.Next a a' ∧
      (c.forceClose n).sock = .detached :=
  h.shutdownAndClose hn rfl rfl rfl rfl

/-- `closeTransport` takes the descriptor from the socket object, unless it has to wait. -/
theorem closeTransport (h : c.Owned a) (hn : c.native = some n) (flush : Flush) :
    ∃ a', (c.closeTransport n flush).Owned a' ∧ ReflTransGen Account.Next a a' ∧
      (n.closeDeferred flush = false → (c.closeTransport n flush).sock = .detached) := by
  unfold Conn.closeTransport
  split
  · rename_i hclosing
    refine ⟨a, h, .refl, fun hnow => ?_⟩
    -- it is being closed already, so either libuv is done or closing has to wait
    have hopen : n.opened = false := by
      rcases flush with (_ | _) | _ <;> simpa [Native.closeDeferred, hclosing] using hnow
    rcases h.late hn with rfl | rfl | rfl
    · obtain ⟨-, -, m, hm, hopek, -⟩ := h.fits
      obtain rfl := Option.some.inj (hm.symm.trans hn)
      rw [hopen] at hopek
      cases hopek
    · exact h.fits.1
    · exact h.fits.1
  · rename_i hclosing
    rcases flush with (_ | bytes) | _
    · obtain ⟨a', ho, hnext, hsock⟩ := h.shutdownAndClose
        (k := { n with closing := true, writeBufferSize := 0 }) hn rfl rfl rfl rfl
      exact ⟨a', ho, hnext, fun _ => hsock⟩
    · refine ⟨a, h.withNative hn rfl rfl rfl fun _ => rfl, .refl, fun hnow => ?_⟩
      -- only a transport that is closing is not open
      rcases h.late hn with rfl | rfl | rfl
      · obtain ⟨-, -, m, hm, hopen, -⟩ := h.fits
        obtain rfl := Option.some.inj (hm.symm.trans hn)
        rw [Native.closeDeferred, hopen] at hnow
        cases hnow
      · exact h.fits.1
      · exact h.fits.1
    · obtain ⟨a', ho, hnext, hsock⟩ := h.forceClose hn
      exact ⟨a', ho, hnext, fun _ => hsock⟩

/-- `onWritten` takes the descriptor from the socket object, if that had to wait for it. -/
theorem onWritten (h : c.Owned a) (hn : c.native = some n) (left : ℕ) :
    ∃ a', (c.onWritten n left).Owned a' ∧ ReflTransGen Account.Next a a' := by
  unfold Conn.onWritten
  split
  · rename_i hdone
    obtain ⟨hclosing, -⟩ := Bool.and_eq_true_iff.mp hdone
    obtain ⟨a', ho, hnext, -⟩ := h.shutdownAndClose
      (k := { n with writeBufferSize := left }) hn rfl rfl rfl hclosing
    exact ⟨a', ho, hnext⟩
  · exact ⟨a, h.withNative hn rfl rfl rfl id, .refl⟩

end Conn.Owned

/-! ## What a step does to the owner -/

/-- The owner after a step, and how it came to own the connection. -/
def Scope.Moves (a : Account) (s : Scope) : Prop :=
  ∃ a', s.conn.Owned a' ∧ ReflTransGen Account.Next a a'

/-- The handlers close the descriptor and give the connection back if the socket object still has
the descriptor. -/
def Conn.giveUp (c : Conn) : Conn :=
  if c.sock = .armed then
    { c with
      sock := .closed, closedByPython := c.closedByPython + 1, detaches := c.detaches + 1 }
  else c

/-- A connection the socket object owns is refused. -/
theorem Conn.Owned.giveUp_held {c : Conn} (h : c.Owned .held) (raised : Option Exc) :
    { c.giveUp with stage := .over, raised := raised }.Owned .refused := by
  obtain ⟨⟨hnative, hsock, -⟩, hcloses, hdetaches⟩ := h
  obtain ⟨hpython, hlibuv⟩ := Prod.mk.inj hcloses
  unfold Conn.giveUp
  rw [if_pos hsock]
  exact ⟨⟨hnative, rfl, rfl⟩, Prod.ext (congrArg (· + 1) hpython) hlibuv,
    congrArg (· + 1) hdetaches⟩

/-- A connection whose descriptor libuv has taken is left to libuv. -/
theorem Conn.Owned.giveUp_detached {c : Conn} {a : Account}
    (h : { c with stage := .over }.Owned a) (hsock : c.sock = .detached) (raised : Option Exc) :
    { c.giveUp with stage := .over, raised := raised }.Owned a := by
  have hnot : ¬ c.sock = .armed := by
    rw [hsock]
    exact nofun
  unfold Conn.giveUp
  rw [if_neg hnot]
  obtain ⟨hfits, hcloses, hdetaches⟩ := h
  refine ⟨?_, hcloses, hdetaches⟩
  cases a <;> exact hfits

/-- Nothing of the accept code is left for an adopted connection. -/
theorem Conn.Owned.over {c : Conn} {a : Account} (h : c.Owned a)
    (hlate : a = .adopted ∨ a = .closing ∨ a = .gone) (raised : Option Exc) :
    { c with stage := .over, raised := raised }.Owned a := by
  obtain ⟨hfits, hcloses, hdetaches⟩ := h
  refine ⟨?_, hcloses, hdetaches⟩
  rcases hlate with rfl | rfl | rfl
  · exact ⟨hfits.1, .inr rfl, hfits.2.2⟩
  · exact ⟨hfits.1, .inr rfl, hfits.2.2⟩
  · exact ⟨hfits.1, .inr rfl, hfits.2.2⟩

/-- What `_accept` does when the setup raises. -/
theorem accept_finish_of_error {p : Py Unit} {s s' : Scope} {e : Exc} (stage : Stage)
    (h : p.exec s = (.error e, s')) :
    ((accept p).finish stage s).conn =
      { s'.conn.giveUp with stage := .over, raised := some e } := by
  have hexec : (accept p).exec s = (do
      if ← hasFileno then
        closeSocket
        detach
      throw e : Py Unit).exec s' := by
    rw [accept, Py.exec_tryCatch, h]
  unfold Py.finish
  unfold Py.exec at hexec
  rw [hexec]
  obtain ⟨server, ⟨_, _ | _ | _, _, _, _, _, _, _⟩, reported⟩ := s' <;> rfl

/-- What `_accept_tls` does when `_wrap_socket` raises. -/
theorem acceptTls_finish_of_error {p : Py Unit} {s s' : Scope} {e : Exc}
    (h : p.exec s = (.error e, s')) :
    ∃ raised, ((acceptTls p).finish .over s).conn =
      { s'.conn.giveUp with stage := .over, raised := raised } := by
  have hexec : (acceptTls p).exec s = (acceptTlsRaised e).exec s' := by
    rw [acceptTls, Py.exec_tryCatch, h]
  unfold Py.finish
  unfold Py.exec at hexec
  rw [hexec]
  obtain ⟨server, ⟨_, _ | _ | _, _, _, _, _, _, _⟩, reported⟩ := s' <;> cases e <;> exact ⟨_, rfl⟩

/-- Setting up a connection that the socket object owns: if nothing raises it is adopted, otherwise
it is still the socket object's, or it was adopted and closed. -/
theorem setup_exec {s : Scope} (h : s.conn.Owned .held) (o : Setup) :
    (∃ s', (acceptConnection o).exec s = (.ok (), s') ∧ o = .clean ∧
      ∀ stage, stage = .handshake ∨ stage = .over →
        { s'.conn with stage := stage }.Owned .adopted) ∨
    ∃ e s', (acceptConnection o).exec s = (.error e, s') ∧ o ≠ .clean ∧
      (s' = s ∨ { s'.conn with stage := .over }.Owned .closing ∧ s'.conn.sock = .detached) := by
  obtain ⟨server, ⟨stage, sock, native, tracked, raised, python, libuv, detaches⟩, reported⟩ := s
  obtain ⟨⟨rfl, rfl, -⟩, hcloses, rfl⟩ := h
  obtain ⟨rfl, rfl⟩ := Prod.mk.inj hcloses
  obtain ⟨factory, makeTransport, adoptSocketView, attach⟩ := o
  rcases factory with - | e
  · rcases makeTransport with - | e
    · rcases adoptSocketView with - | e
      · rcases attach with - | e
        · exact .inl ⟨_, rfl, rfl, fun stage hlate =>
            ⟨⟨rfl, hlate, _, rfl, rfl, rfl, rfl⟩, rfl, rfl⟩⟩
        -- from the adoption on, libuv closes the descriptor
        · exact .inr ⟨e, _, rfl, nofun, .inr ⟨⟨⟨rfl, .inr rfl, _, rfl, rfl, rfl, rfl⟩, rfl, rfl⟩,
            rfl⟩⟩
      · exact .inr ⟨e, _, rfl, nofun, .inr ⟨⟨⟨rfl, .inr rfl, _, rfl, rfl, rfl, rfl⟩, rfl, rfl⟩,
          rfl⟩⟩
    · exact .inr ⟨e, _, rfl, nofun, .inl rfl⟩
  · exact .inr ⟨e, _, rfl, nofun, .inl rfl⟩

/-- The result of a setup under the handlers of `_accept`. -/
theorem connect_moves {s : Scope} (h : s.conn.Owned .held) (o : Setup) :
    ((accept (acceptConnection o)).finish .over s).Moves .held := by
  rcases setup_exec h o with ⟨s', hexec, -, hadopted⟩ | ⟨e, s', hexec, -, rfl | ⟨ho, hsock⟩⟩
  · have hconn : ((accept (acceptConnection o)).finish .over s).conn =
        { s'.conn with stage := .over } := by
      have haccept : (accept (acceptConnection o)).exec s = (.ok (), s') := by
        rw [accept, Py.exec_tryCatch, hexec]
      unfold Py.exec at haccept
      rw [Py.finish, haccept]
    exact ⟨.adopted, hconn ▸ hadopted .over (.inr rfl), .single .adopt⟩
  · exact ⟨.refused, accept_finish_of_error .over hexec ▸ h.giveUp_held _, .single .refuse⟩
  · refine ⟨.closing, ?_, (ReflTransGen.single .adopt).tail .close⟩
    rw [accept_finish_of_error .over hexec]
    exact ho.giveUp_detached hsock _

/-- The result of a setup under the handlers of `_accept_tls`. -/
theorem wrap_moves {s : Scope} (h : s.conn.Owned .held) (o : Setup) :
    ((acceptTls (wrapSocket o)).finish o.stage s).Moves .held := by
  rcases setup_exec h o with ⟨s', hexec, rfl, hadopted⟩ | ⟨e, s', hexec, hne, hs'⟩
  · have hconn : ((acceptTls (wrapSocket .clean)).finish Setup.clean.stage s).conn =
        { s'.conn with stage := .handshake } := by
      have haccept : (acceptTls (wrapSocket .clean)).exec s = (.ok (), s') := by
        rw [acceptTls, Py.exec_tryCatch]
        have hwrap : (wrapSocket .clean).exec s = (.ok (), s') := hexec
        rw [hwrap]
      unfold Py.exec at haccept
      rw [Py.finish, haccept]
      rfl
    exact ⟨.adopted, hconn ▸ hadopted .handshake (.inl rfl), .single .adopt⟩
  · have hstage : o.stage = .over := if_neg hne
    obtain ⟨raised, hconn⟩ := acceptTls_finish_of_error (p := wrapSocket o) hexec
    rw [hstage]
    rcases hs' with rfl | ⟨ho, hsock⟩
    · exact ⟨.refused, hconn ▸ h.giveUp_held _, .single .refuse⟩
    · refine ⟨.closing, ?_, (ReflTransGen.single .adopt).tail .close⟩
      rw [hconn]
      exact ho.giveUp_detached hsock _

/-- Waiting for the handshake raises, and closing the transport does not have to wait. -/
theorem handshakeFailed_moves {s : Scope} {a : Account} (h : s.conn.Owned a)
    (hstage : s.conn.stage = .handshake) {flush : Flush}
    (hnow : ∀ n, s.conn.native = some n → n.closeDeferred flush = false) (e : Exc) :
    ((acceptTls (waiterRaised e flush)).finish .over s).Moves a := by
  obtain ⟨n, hn⟩ := h.native_of_late (h.late_of_handshake hstage)
  obtain ⟨a', ho, hnext, hsock⟩ := h.closeTransport hn flush
  have hexec : (waiterRaised e flush).exec s =
      (.error e, { s with conn := s.conn.closeTransport n flush }) := by
    rw [waiterRaised, Py.exec_bind, Py.native_exec _ hn]
    rfl
  obtain ⟨raised, hconn⟩ := acceptTls_finish_of_error hexec
  have hdetached := hsock (hnow n hn)
  refine ⟨a', ?_, hnext⟩
  rw [hconn]
  exact (ho.over (ho.late_of_detached hdetached) _).giveUp_detached hdetached _

/-- A connection whose setup has not come to an end is the socket object's. -/
theorem Conn.Owned.held_of_stage {c : Conn} {a : Account} (h : c.Owned a)
    (hstage : c.stage = .accepting ∨ c.stage = .scheduled ∨ c.stage = .wrapping) : a = .held := by
  obtain ⟨hfits, -, -⟩ := h
  cases a with
  | held => rfl
  | refused =>
    rw [hfits.2.2] at hstage
    rcases hstage with hs | hs | hs <;> cases hs
  | adopted | closing | gone =>
    rcases hfits.2.1 with hlate | hlate <;> rw [hlate] at hstage <;>
      rcases hstage with hs | hs | hs <;> cases hs

/-- Every step a handler can make sense of moves the connection to its next owner, if to any. -/
theorem Act.effect_moves {s : Scope} {a : Account} (h : s.conn.Owned a) {act : Act}
    (happlies : act.applies s = true) (hsound : act.sound s.conn = true) :
    (act.effect s).Moves a := by
  cases act with
  | connect o =>
    obtain ⟨hstage, -⟩ := Bool.and_eq_true_iff.mp happlies
    obtain rfl := h.held_of_stage (.inl (eq_of_beq hstage))
    exact connect_moves h o
  | createTask raised =>
    obtain ⟨hstage, -⟩ := Bool.and_eq_true_iff.mp happlies
    obtain rfl := h.held_of_stage (.inl (eq_of_beq hstage))
    cases raised with
    | none =>
      exact ⟨.held, ⟨⟨h.fits.1, h.fits.2.1, .inr (.inl rfl)⟩, h.closes, h.detaches⟩, .refl⟩
    | some e =>
      refine ⟨.refused, ?_, .single .refuse⟩
      exact accept_finish_of_error (p := raising (some e)) .scheduled rfl ▸ h.giveUp_held _
  | beginTask =>
    obtain rfl := h.held_of_stage (.inr (.inl (eq_of_beq happlies)))
    exact ⟨.held, ⟨⟨h.fits.1, h.fits.2.1, .inr (.inr rfl)⟩, h.closes, h.detaches⟩, .refl⟩
  | cancelUnstarted => cases hsound
  | wrap o =>
    obtain rfl := h.held_of_stage (.inr (.inr (eq_of_beq happlies)))
    exact wrap_moves h o
  | handshakeDone =>
    have hlate : a = .adopted ∨ a = .closing ∨ a = .gone := h.late_of_handshake (eq_of_beq happlies)
    exact ⟨a, h.over hlate _, .refl⟩
  | handshakeFailed e flush =>
    refine handshakeFailed_moves h (eq_of_beq happlies) (fun n hn => ?_) e
    rw [Act.sound, hn] at hsound
    exact (Bool.not_eq_true' _).mp hsound
  | write bytes =>
    obtain ⟨n, hn, -⟩ := (Option.any_eq_true _ _).mp happlies
    refine ⟨a, ?_, .refl⟩
    rw [Act.effect, Py.callback_native _ hn]
    exact h.withNative hn rfl rfl rfl id
  | written left =>
    obtain ⟨n, hn, -⟩ := (Option.any_eq_true _ _).mp happlies
    obtain ⟨a', ho, hnext⟩ := h.onWritten hn left
    refine ⟨a', ?_, hnext⟩
    rw [Act.effect, Py.callback_native _ hn]
    exact ho
  | close flush =>
    obtain ⟨n, hn⟩ := Option.isSome_iff_exists.mp happlies
    obtain ⟨a', ho, hnext, -⟩ := h.closeTransport hn flush
    refine ⟨a', ?_, hnext⟩
    rw [Act.effect, Py.callback_native _ hn]
    exact ho
  | abort =>
    obtain ⟨n, hn⟩ := Option.isSome_iff_exists.mp happlies
    obtain ⟨a', ho, hnext, -⟩ := h.forceClose hn
    refine ⟨a', ?_, hnext⟩
    rw [Act.effect, Py.callback_native _ hn]
    exact ho
  | closed =>
    obtain ⟨n, hn, hclosed⟩ := (Option.any_eq_true _ _).mp happlies
    rw [Bool.and_eq_true_iff, Bool.not_eq_true', Bool.not_eq_true'] at hclosed
    obtain rfl : a = .closing := h.closing_of hn hclosed.1 hclosed.2
    refine ⟨.gone, ?_, .single .report⟩
    have hconn : (Act.effect s .closed).conn =
        { s.conn.lose n with detaches := s.conn.detaches + 1 } := by
      change (StateT.run (ExceptT.run onClosed) s).2.conn = _
      have hexec : onClosed.exec s = detach.exec { s with conn := s.conn.lose n } := by
        rw [onClosed, Py.exec_bind, Py.native_exec _ hn]
      unfold Py.exec at hexec
      rw [hexec]
      rfl
    rw [hconn]
    obtain ⟨⟨hsock, hstage, m, hm, hopen, hc, hl⟩, hcloses, hdetaches⟩ := h
    obtain rfl := Option.some.inj (hm.symm.trans hn)
    exact ⟨⟨hsock, hstage, _, rfl, hopen, hc, rfl⟩, hcloses, congrArg (· + 1) hdetaches⟩

/-! ## The promise -/

/-- Nothing is left to happen to the connection: the accept code is over, and libuv has reported
the close of its transport, if it has one. -/
def Conn.finished (c : Conn) : Bool := c.stage == .over && c.native.all Native.connLost

/-- What is promised of an accepted connection. -/
structure Conn.Accounted (c : Conn) : Prop where
  /-- It is given back at most once. -/
  detaches : c.detaches ≤ 1
  /-- Its descriptor is closed at most once. -/
  closes : c.closedByPython + c.closedByLibuv ≤ 1
  /-- Before the adoption libuv does not close it. -/
  before : c.native = none → c.closedByLibuv = 0
  /-- After the adoption the socket object does not close it. -/
  after : c.native ≠ none → c.closedByPython = 0
  /-- In the end it was given back and its descriptor was closed. -/
  finished : c.finished = true → c.detaches = 1 ∧ c.closedByPython + c.closedByLibuv = 1

/-- What the server promises of its connections. -/
structure World.Accounted (w : World) : Prop where
  /-- Its count is the number of connections that were not given back. -/
  active : w.server.active = w.conns.countP fun c => c.detaches = 0
  /-- The count is not negative. -/
  nonneg : 0 ≤ w.server.active
  /-- What is promised of each connection. -/
  conns : ∀ c ∈ w.conns, c.Accounted

/-- The books of a connection with an owner are in order. -/
theorem Conn.Owned.accounted {c : Conn} {a : Account} (h : c.Owned a) : c.Accounted := by
  obtain ⟨hfits, hcloses, hdetaches⟩ := h
  obtain ⟨hpython, hlibuv⟩ := Prod.mk.inj hcloses
  refine ⟨?_, ?_, fun hn => ?_, fun hn => ?_, fun hfinished => ?_⟩
  · rw [hdetaches]
    cases a <;> decide
  · rw [hpython, hlibuv]
    cases a <;> decide
  · rw [hlibuv]
    cases a with
    | held | refused | adopted => rfl
    | closing | gone =>
      obtain ⟨-, -, n, hsome, -⟩ := hfits
      rw [hn] at hsome
      cases hsome
  · rw [hpython]
    cases a with
    | refused => exact absurd hfits.1 hn
    | held | adopted | closing | gone => rfl
  · obtain ⟨hover, hlost⟩ := Bool.and_eq_true_iff.mp hfinished
    cases a with
    | held =>
      rcases hfits.2.2 with hs | hs | hs <;> rw [hs] at hover <;> cases hover
    | adopted =>
      obtain ⟨-, -, n, hsome, -, -, hnot⟩ := hfits
      rw [hsome, Option.all_some, hnot] at hlost
      cases hlost
    | closing =>
      obtain ⟨-, -, n, hsome, -, -, hnot⟩ := hfits
      rw [hsome, Option.all_some, hnot] at hlost
      cases hlost
    | refused | gone =>
      rw [hdetaches, hpython, hlibuv]
      exact ⟨rfl, rfl⟩

/-- What a step does, as seen from the connections. -/
theorem World.step_cases {w w' : World} {l : Label} (h : w.step l = some w') :
    w'.conns = w.conns ∨ w'.conns = w.conns ++ [.fresh] ∨
      ∃ i a c, l = .on i a ∧ w.conns[i]? = some c ∧ a.applies (w.scope c) = true ∧
        w' = w.put i (a.effect (w.scope c)) := by
  cases l with
  | accept =>
    obtain ⟨-, hw'⟩ := Option.ite_none_right_eq_some.mp h
    obtain rfl := Option.some.inj hw'
    exact .inr (.inl rfl)
  | closeServer =>
    simp only [World.step] at h
    split at h <;> obtain rfl := Option.some.inj h <;> exact .inl rfl
  | on i a =>
    obtain ⟨c, hc, hrun⟩ := Option.bind_eq_some_iff.mp h
    obtain ⟨happlies, hw'⟩ := Option.ite_none_right_eq_some.mp hrun
    exact .inr (.inr ⟨i, a, c, rfl, hc, happlies, (Option.some.inj hw').symm⟩)

/-- In a run of sound steps every connection has an owner. -/
theorem owned {tls : Bool} {w : World} (h : (machine tls).Reachable Sound w) :
    ∀ c ∈ w.conns, ∃ a, c.Owned a := by
  refine h.invariant (I := fun w => ∀ c ∈ w.conns, ∃ a, c.Owned a) (by simp [machine, World.init])
    fun w w' l _ hw hsound hstep => ?_
  rcases World.step_cases hstep with heq | heq | ⟨i, act, c, rfl, hc, happlies, rfl⟩
  · rwa [heq]
  · intro c hmem
    rw [heq] at hmem
    rcases List.mem_append.mp hmem with hmem | hmem
    · exact hw c hmem
    · obtain rfl := List.mem_singleton.mp hmem
      exact ⟨.held, ⟨rfl, rfl, .inl rfl⟩, rfl, rfl⟩
  · intro c' hmem
    rcases List.mem_or_eq_of_mem_set hmem with hmem | rfl
    · exact hw c' hmem
    · obtain ⟨a, ha⟩ := hw c (List.mem_of_getElem? hc)
      have hact : act.sound c = true := by
        rw [Sound, hc] at hsound
        exact hsound
      obtain ⟨a', ha', -⟩ := act.effect_moves (s := w.scope c) ha happlies hact
      exact ⟨a', ha'⟩

/-- Connections that are given back at most once, counted. -/
theorem sum_detaches {conns : List Conn} (h : ∀ c ∈ conns, c.detaches ≤ 1) :
    (conns.map fun c => (c.detaches : ℤ)).sum + (conns.countP fun c => c.detaches = 0 : ℕ) =
      conns.length := by
  induction conns with
  | nil => rfl
  | cons c conns ih =>
    have hc := h c List.mem_cons_self
    have hrest := ih fun c' hc' => h c' (List.mem_cons_of_mem c hc')
    rw [List.map_cons, List.sum_cons, List.countP_cons, List.length_cons]
    rcases Nat.le_one_iff_eq_zero_or_eq_one.mp hc with hzero | hone
    · rw [hzero, if_pos (by decide)]
      push_cast
      linarith
    · rw [hone, if_neg (by decide)]
      push_cast
      linarith

/-- A step that is not sound breaks the promise at once: a task that never runs does not give the
connection back, and a handler that finds the descriptor still there closes it in place of
libuv. -/
theorem Act.not_accounted {s : Scope} {a : Account} (h : s.conn.Owned a) {act : Act}
    (happlies : act.applies s = true) (hsound : act.sound s.conn = false) :
    ¬ (act.effect s).conn.Accounted := by
  intro haccounted
  cases act with
  | cancelUnstarted =>
    obtain rfl := h.held_of_stage (.inr (.inl (eq_of_beq happlies)))
    have hconn : (Act.effect s .cancelUnstarted).conn = { s.conn with
        stage := .over, sock := .closed, raised := some .base
        closedByPython := s.conn.closedByPython + 1 } := by
      obtain ⟨server, ⟨_, sock, _, _, _, _, _, _⟩, reported⟩ := s
      obtain rfl : sock = .armed := h.fits.2.1
      rfl
    have hfinished := haccounted.finished
    rw [hconn] at hfinished
    have hdetaches := (hfinished (by simp [Conn.finished, h.fits.1])).1
    rw [h.detaches] at hdetaches
    cases hdetaches
  | handshakeFailed e flush =>
    rw [Act.sound, Bool.not_eq_false', Option.any_eq_true] at hsound
    obtain ⟨n, hn, hdeferred⟩ := hsound
    have hopen : n.opened = true := by
      rcases flush with (_ | _) | _ <;> simp_all [Native.closeDeferred]
    obtain rfl : a = .adopted := by
      rcases h.late hn with rfl | rfl | rfl
      · rfl
      all_goals
        obtain ⟨-, -, m, hm, hnot, -⟩ := h.fits
        obtain rfl := Option.some.inj (hm.symm.trans hn)
        rw [hopen] at hnot
        cases hnot
    -- closing has to wait, so the socket object still has the descriptor
    have hkept : (s.conn.closeTransport n flush).sock = .armed ∧
        (s.conn.closeTransport n flush).native ≠ none := by
      unfold Conn.closeTransport
      split
      · exact ⟨h.fits.1, by rw [hn]; exact nofun⟩
      · rename_i hclosing
        rcases flush with (_ | _) | _
        · simp [Native.closeDeferred, hclosing] at hdeferred
        · exact ⟨h.fits.1, nofun⟩
        · simp [Native.closeDeferred, hclosing] at hdeferred
    have hexec : (waiterRaised e flush).exec s =
        (.error e, { s with conn := s.conn.closeTransport n flush }) := by
      rw [waiterRaised, Py.exec_bind, Py.native_exec _ hn]
      rfl
    obtain ⟨raised, hconn⟩ := acceptTls_finish_of_error hexec
    have hafter := haccounted.after
    rw [Act.effect, hconn, Conn.giveUp, if_pos hkept.1] at hafter
    exact Nat.succ_ne_zero _ (hafter hkept.2)
  | _ => cases hsound

/-- In a run in which no task is cancelled before its first step, and in which no wait for a
handshake fails while closing the transport has to wait for its queue, every connection is given
back once and its descriptor is closed once, by its owner, and the count is the number of the
connections that were not given back. Any other step breaks this at once. -/
theorem accounting {tls : Bool} {w : World} (h : (machine tls).Reachable Sound w) :
    w.Accounted ∧ ∀ l w', w.step l = some w' → (w'.Accounted ↔ Sound w l) := by
  have hall : ∀ {w : World}, (machine tls).Reachable Sound w → w.Accounted := by
    intro w h
    have hconns : ∀ c ∈ w.conns, c.Accounted := fun c hc => (owned h c hc).choose_spec.accounted
    have hsum := sum_detaches fun c hc => (hconns c hc).detaches
    have hledger := ledger h
    unfold World.given at hledger
    have hactive : w.server.active = w.conns.countP fun c => c.detaches = 0 := by linarith
    exact ⟨hactive, hactive ▸ Int.natCast_nonneg _, hconns⟩
  refine ⟨hall h, fun l w' hstep => ⟨fun hw' => ?_, fun hsound => hall (h.step l hsound hstep)⟩⟩
  cases l with
  | accept | closeServer => trivial
  | on i act =>
    by_contra hnot
    obtain ⟨c, hc, hrun⟩ := Option.bind_eq_some_iff.mp hstep
    obtain ⟨happlies, hput⟩ := Option.ite_none_right_eq_some.mp hrun
    obtain rfl := Option.some.inj hput
    obtain ⟨a, ha⟩ := owned h c (List.mem_of_getElem? hc)
    have hact : act.sound c = false := by
      rw [Sound, hc] at hnot
      exact Bool.eq_false_iff.mpr hnot
    obtain ⟨hi, -⟩ := List.getElem?_eq_some_iff.mp hc
    refine Act.not_accounted (s := w.scope c) ha happlies hact (hw'.conns _ ?_)
    exact List.mem_set hi _

/-- A task that is cancelled while it waits, with nothing in the queue: the socket object is
detached, libuv closes the descriptor, and the close callback gives the connection back. -/
theorem accounting_cancelled :
    ∃ w : World, w.Accounted ∧ w.server.active = 0 ∧ w.conns.map Conn.closedByLibuv = [1] := by
  have hplay : ∃ w, (machine true).play Sound
      [.accept, .on 0 (.createTask none), .on 0 .beginTask, .on 0 (.wrap .clean), .on 0 (.write 5),
        .on 0 (.written 0), .on 0 (.handshakeFailed .base (.left 0)), .on 0 .closed]
      (machine true).init = some w ∧ w.server.active = 0 ∧ w.conns.map Conn.closedByLibuv = [1] :=
    ⟨_, rfl, rfl, rfl⟩
  obtain ⟨w, hrun, hactive, hlibuv⟩ := hplay
  exact ⟨w, (accounting (Machine.Reachable.init.play hrun)).1, hactive, hlibuv⟩

/-- A task that is cancelled while five bytes of the handshake are in the queue: closing the
transport has to wait, so `_accept_tls` takes the descriptor for its own. It closes it and gives
the connection back. Reading was paused before, so that nothing of the closed descriptor is polled
anew; when the transport is aborted, libuv closes the same number again, and the close callback
gives the connection back once more. -/
theorem accounting_cancelled_queued :
    ∃ w : World, (machine true).Reachable (fun _ _ => True) w ∧ ¬ w.Accounted ∧
      w.server.active = -1 ∧ w.conns.map Conn.detaches = [2] ∧
      w.conns.map Conn.closedByPython = [1] ∧ w.conns.map Conn.closedByLibuv = [1] := by
  have hplay : ∃ w, (machine true).play (fun _ _ => True)
      [.accept, .on 0 (.createTask none), .on 0 .beginTask, .on 0 (.wrap .clean), .on 0 (.write 5),
        .on 0 (.handshakeFailed .base (.left 5)), .on 0 .abort, .on 0 .closed]
      (machine true).init = some w ∧ w.server.active = -1 ∧ w.conns.map Conn.detaches = [2] ∧
      w.conns.map Conn.closedByPython = [1] ∧ w.conns.map Conn.closedByLibuv = [1] :=
    ⟨_, rfl, rfl, rfl, rfl, rfl⟩
  obtain ⟨w, hrun, hactive, hrest⟩ := hplay
  refine ⟨w, Machine.Reachable.init.play hrun, fun hw => ?_, hactive, hrest⟩
  have hnonneg := hw.nonneg
  rw [hactive] at hnonneg
  exact absurd hnonneg (by decide)

end Zuvloop.Accept
