import Zuvloop.Stream.Ending

/-!
# Long vectors on a socket that reports no error

A `writelines` of more buffers than the batch holds goes straight to libuv if the batch is empty,
and through the batch if it is not. libuv refuses a vector of more than 1024 * 1024 buffers, which
the batch never hands it.

Python code that runs while the vector is written, for flow control, may call the transport as it
likes, as long as it leaves it open. The items are buffers that run no Python code.

## Main definitions

* `healthy`: the socket reports no error, memory never runs out, and libuv refuses a vector only for
  its length.
* `Polite`: what Python code does meanwhile.
* `Refused`: a vector that the direct path cannot write.

## Main results

* `direct_batched_agree_iff`: the two paths put the same bytes in the stream and leave the transport
  open, unless the vector is refused.
-/

namespace Zuvloop.Stream

open Reentrant

/-! ## A socket without errors -/

/-- `UV_EINVAL`. -/
def uvEINVAL : Int := -22

/-- The largest number of buffers that libuv takes in one vector. -/
def uvMaxBufs : ℕ := 1024 * 1024

/-- libuv's answers on a socket that reports no error, as far as they are not bounded anyway. -/
def Benign : Request → Answer → Prop
  | .tryWrite _ count, a =>
    if count < 1 ∨ uvMaxBufs < count then a.status = uvEINVAL
    else a.status = uvEAGAIN ∨ 0 ≤ a.status
  | .uvWrite _ _ count, a =>
    if count < 1 ∨ uvMaxBufs < count then a.status = uvEINVAL else 0 ≤ a.status
  | _, _ => True

/-- An environment in which the socket reports no error, memory never runs out, and what is written
can be iterated over and exports its buffers. -/
def healthy : Env sig where
  answers := fun s q a => Answers False s q a ∧ Benign q a
  returns := fun _ c r => c = .iterate ∨ c = .acquire → r.raised = none
  starts := fun _ s op => Startable s op

theorem healthy_restricts : healthy.Restricts (env True) where
  answers := by
    intro s q a h
    cases q with
    | alloc => exact fun _ => trivial
    | tryWrite | uvWrite => exact h.1
    | _ => trivial
  returns := fun _ _ _ _ => trivial

/-- A vector that goes straight to libuv is refused, with this much left to write: it is too long,
and it gets as far as libuv. -/
def Refused (writeBufferSize : ℕ) (bufs : List Bytes) : Prop :=
  uvMaxBufs < bufs.length ∧ (writeBufferSize = 0 ∨ bufs.flatten ≠ [])

/-- A list of buffers goes straight to libuv, and is refused. -/
def RefusedAt (t : ℕ) (s : State) (bufs : List Bytes) : Prop :=
  (s.tr t).pending = [] ∧ pendingMax < bufs.length ∧ Refused (s.tr t).writeBufferSize bufs

/-- The transport is open for writing: it is not closing, and `write_eof()` was not called. -/
def IsOpen (t : ℕ) (s : State) : Prop := (s.tr t).givesUp = false

/-- A transport that is open, inside a native call. -/
structure Usable (t : ℕ) (s : State) : Prop where
  /-- The loop is open. -/
  loop : s.closed = false
  /-- The transport is open. -/
  going : (s.tr t).givesUp = false
  /-- A native call is in progress. -/
  depth : 0 < s.depth
  /-- The batch fits. -/
  room : (s.tr t).pending.length ≤ pendingMax

variable {t : ℕ} {s s₁ s' : State} {α β : Type} {R : Callback → State → State → Prop}

namespace Usable

theorem not_eof (h : Usable t s) : (s.tr t).eofWritten = false := by
  have hgoing := h.going
  simp only [Transport.givesUp, Bool.or_eq_false_iff] at hgoing
  exact hgoing.2

theorem not_lost (h : Usable t s) : ((s.tr t).connLost || (s.tr t).closing) = false := by
  have hgoing := h.going
  simp only [Transport.givesUp, Bool.or_eq_false_iff] at hgoing
  exact Bool.or_eq_false_iff.mpr hgoing.1

/-- An act that gives nothing up and stores nothing. -/
theorem act (h : Usable t s) {a : Act} (hgoing : (a.run (s.tr t)).givesUp = (s.tr t).givesUp)
    (hroom : (a.run (s.tr t)).pending.length ≤ (s.tr t).pending.length) :
    Usable t (s.act t a) where
  loop := h.loop
  going := by rw [State.tr_act_self, hgoing, h.going]
  depth := h.depth
  room := by
    rw [State.tr_act_self]
    exact Nat.le_trans hroom h.room

end Usable

theorem length_advance_le (n : ℕ) (bufs : List Bytes) : (advance n bufs).length ≤ bufs.length := by
  induction bufs generalizing n with
  | nil => exact Nat.le_refl _
  | cons b bufs ih =>
    rw [advance]
    split
    · exact Nat.le_succ_of_le (ih _)
    · exact Nat.le_refl _

/-- Nothing changed that the path of a vector depends on. -/
structure Alike (t : ℕ) (s s' : State) : Prop where
  closed : s'.closed = s.closed
  depth : s'.depth = s.depth
  going : (s'.tr t).givesUp = (s.tr t).givesUp
  pending : (s'.tr t).pending = (s.tr t).pending
  writeBufferSize : (s'.tr t).writeBufferSize = (s.tr t).writeBufferSize

theorem Alike.refl : Alike t s s := ⟨rfl, rfl, rfl, rfl, rfl⟩

theorem Alike.trans (h : Alike t s s₁) (h₁ : Alike t s₁ s') : Alike t s s' where
  closed := h₁.closed.trans h.closed
  depth := h₁.depth.trans h.depth
  going := h₁.going.trans h.going
  pending := h₁.pending.trans h.pending
  writeBufferSize := h₁.writeBufferSize.trans h.writeBufferSize

/-! ## Programs that keep the transport open -/

/-- What the runs of `makeRoom` are assumed to do. -/
def openContract (t : ℕ) : Proc → State → State → Log sig → Prop
  | .makeRoom u, s, s', log =>
    contract t (.makeRoom u) s s' log ∧
      (u = t → Usable t s → Usable t s' ∧ (s'.tr t).full = false)

/-- What holds of the log of every run of a program, on a socket without errors. -/
abbrev OpenLogs (t : ℕ) (R : Callback → State → State → Prop) {α : Type} (p : P α)
    (Q : α → State → Log sig → Prop) (s : State) : Prop := p.logs healthy R (openContract t) Q s

/-- What was derived for any socket holds for this one. -/
theorem OpenLogs.of_logs {p : P α} {Q : α → State → Log sig → Prop} (h : Logs t R p Q s) :
    OpenLogs t R p Q s :=
  Prog.logs_restrict healthy_restricts (by rintro ⟨u⟩ s s' log h; exact h.1) h

theorem openLogs_self (u : ℕ) (Q : Transport → State → Log sig → Prop) :
    OpenLogs t R (self u) Q s ↔ Q (s.tr u) s [] := Iff.rfl

theorem openLogs_act (u : ℕ) (a : Act) (Q : Unit → State → Log sig → Prop) :
    OpenLogs t R (act u a) Q s ↔ Q () (s.act u a) [.set s (s.act u a)] := Iff.rfl

theorem openLogs_foreign (c : Callback) (Q : Result → State → Log sig → Prop) :
    OpenLogs t R (foreign c) Q s ↔ ∀ s₁, R c s s₁ → ∀ r,
      (c = .iterate ∨ c = .acquire → r.raised = none) → Q r s₁ [.yield c s s₁ r] := Iff.rfl

/-- There is memory. -/
theorem openLogs_alloc (Q : Bool → State → Log sig → Prop) (hQ : Q true s []) :
    OpenLogs t R alloc Q s := by
  intro b hb
  have hok : b.ok = true := by
    by_contra hno
    exact hb.1 (Bool.eq_false_iff.mpr hno)
  change Q b.ok s []
  rw [hok]
  exact hQ

/-- An open transport accepts writes. -/
theorem openLogs_acceptsWrite (views : List ℕ) (Q : Except Exc Bool → State → Log sig → Prop)
    (hs : Usable t s) (hQ : Q (.ok true) s []) : OpenLogs t R (acceptsWrite t views) Q s := by
  rw [acceptsWrite]
  refine (Prog.logs_bind _ _ _ _).mpr ((openLogs_self _ _).mpr ?_)
  dsimp only
  rw [if_neg (by simp [hs.not_eof]), if_neg (by simp [hs.not_lost])]
  exact hQ

/-- A program that keeps the transport open, and whose result satisfies `Q`. -/
def Keeps (t : ℕ) (R : Callback → State → State → Prop) {α : Type} (p : P α) (Q : α → Prop) :
    Prop :=
  ∀ s, Usable t s → OpenLogs t R p (fun a s' _ => Usable t s' ∧ Q a) s

namespace Keeps

variable {Q : α → Prop} {Q' : β → Prop}

theorem bind {p : P α} {f : α → P β} (hp : Keeps t R p Q) (hf : ∀ a, Q a → Keeps t R (f a) Q') :
    Keeps t R (p >>= f) Q' := by
  intro s hs
  refine (Prog.logs_bind _ _ _ _).mpr (Prog.logs_mono (hp s hs) fun a s₁ log₁ h₁ => ?_)
  exact hf a h₁.2 s₁ h₁.1

theorem ite {c : Prop} [Decidable c] {p q : P α} (hp : c → Keeps t R p Q)
    (hq : ¬ c → Keeps t R q Q) : Keeps t R (if c then p else q) Q := by
  split
  · exact hp ‹_›
  · exact hq ‹_›

theorem pure {a : α} (ha : Q a) : Keeps t R (Pure.pure a : P α) Q := fun _ hs => ⟨hs, ha⟩

theorem self : Keeps t R (Stream.self t)
    fun tr => tr.givesUp = false ∧ tr.pending.length ≤ pendingMax :=
  fun _ hs => ⟨hs, hs.going, hs.room⟩

theorem request (q : Request) : Keeps t R (Stream.request q)
    fun a => Benign q a ∧ ∃ s, Answers False s q a :=
  fun s hs _ ha => ⟨hs, ha.2, s, ha.1⟩

theorem alloc : Keeps t R Stream.alloc (· = true) := fun _ hs => openLogs_alloc _ ⟨hs, rfl⟩

theorem act {a : Act} (hgoing : ∀ tr : Transport, (a.run tr).givesUp = tr.givesUp)
    (hroom : ∀ tr : Transport, (a.run tr).pending.length ≤ tr.pending.length) :
    Keeps t R (Stream.act t a) fun _ => True :=
  fun _ hs => ⟨hs.act (hgoing _) (hroom _), trivial⟩

theorem releaseViews (views : List ℕ) :
    Keeps t R (Stream.act t (.releaseViews views)) fun _ => True :=
  .act (fun _ => rfl) fun _ => Nat.le_refl _

theorem acceptsWrite (views : List ℕ) :
    Keeps t R (Stream.acceptsWrite t views) (· = .ok true) :=
  fun _ hs => openLogs_acceptsWrite views _ hs ⟨hs, rfl⟩

section Foreign

variable (hU : ∀ c s s', R c s s' → Usable t s → Usable t s')

include hU

theorem foreign (c : Callback) : Keeps t R (Stream.foreign c) fun _ => True :=
  fun _ hs _ hR _ _ => ⟨hU c _ _ hR hs, trivial⟩

theorem python (c : Callback) : Keeps t R (Stream.python c) fun _ => True :=
  fun s hs => (Prog.logs_map _ _ _ _).mpr (foreign hU c s hs)

theorem callProtocol (m : Method) : Keeps t R (Stream.callProtocol t m) fun _ => True :=
  .bind .self fun _ _ => .ite (fun _ => .bind (.foreign hU _) fun _ _ =>
    .ite (fun _ => .python hU _) fun _ => .pure trivial) fun _ => .pure trivial

theorem maybePauseProtocol : Keeps t R (Stream.maybePauseProtocol t) fun _ => True := by
  have hpause : Keeps t R (Stream.act t .pauseWriting) fun _ => True :=
    .act (fun tr => by rw [Act.run, Transport.recordCall_eq]; rfl) fun tr => by
      rw [Act.run, Transport.recordCall_eq]
  exact .bind .self fun _ _ => .ite (fun _ => .pure trivial) fun _ =>
    .ite (fun _ => .pure trivial) fun _ => .bind hpause fun _ _ => .callProtocol hU _

theorem maybeResumeProtocol : Keeps t R (Stream.maybeResumeProtocol t) fun _ => True := by
  have hresume : Keeps t R (Stream.act t .resumeWriting) fun _ => True :=
    .act (fun tr => by rw [Act.run, Transport.recordCall_eq]; rfl) fun tr => by
      rw [Act.run, Transport.recordCall_eq]
  exact .bind .self fun _ _ => .ite (fun _ => .pure trivial) fun _ =>
    .ite (fun _ => .pure trivial) fun _ => .ite (fun _ => .pure trivial) fun _ =>
      .bind hresume fun _ _ => .callProtocol hU _

/-- libuv takes a vector that is not too long. -/
theorem queueWrite (fresh : Bytes) {bufs : List Bytes} (hlen : bufs.length ≤ uvMaxBufs)
    (views : List ℕ) : Keeps t R (Stream.queueWrite t fresh bufs views) (· = .ok ()) := by
  refine .ite (fun _ => .bind (.releaseViews views) fun _ _ => .pure rfl) fun htotal => ?_
  refine .bind .alloc fun ok hok => .ite (fun hno => ?_) fun _ => ?_
  · rw [hok] at hno
    cases hno
  refine .bind (.request _) fun a ha => .ite (fun hneg => ?_) fun _ => ?_
  · -- a vector with bytes in it has buffers, and this one has not too many
    have hpos : ¬ bufs.length < 1 := by
      intro hnil
      exact htotal (by rw [List.length_eq_zero_iff.mp (Nat.lt_one_iff.mp hnil)]; rfl)
    have hstatus := ha.1
    rw [Benign, if_neg (by omega)] at hstatus
    omega
  · exact .bind (.act (fun _ => rfl) fun _ => Nat.le_refl _) fun _ _ =>
      .bind (.maybePauseProtocol hU) fun _ _ => .pure rfl

theorem queueRest (origin : Origin) {bufs : List Bytes} (hlen : bufs.length ≤ uvMaxBufs)
    (views : List ℕ) : Keeps t R (Stream.queueRest t origin bufs views) (· = .ok ()) := by
  refine .bind (.queueWrite hU _ hlen views) fun r hr => ?_
  subst hr
  exact .pure rfl

/-- A vector that is not too long is written, as far as the socket takes it, and queued. -/
theorem writeBufs (origin : Origin) {bufs : List Bytes} (hpos : 0 < bufs.length)
    (hlen : bufs.length ≤ uvMaxBufs) (views : List ℕ) :
    Keeps t R (Stream.writeBufs t origin bufs views) (· = .ok ()) := by
  refine .bind (.acceptsWrite views) fun r hr => ?_
  subst hr
  refine .bind .self fun tr _ => .ite (fun _ => ?_) fun _ => .queueWrite hU _ hlen views
  refine .bind (.request _) fun a ha => .ite (fun _ => ?_) fun hzero => .ite (fun herror => ?_)
    fun _ => .queueWrite hU _ hlen views
  · have hrest : (advance a.status.toNat bufs).length ≤ uvMaxBufs :=
      Nat.le_trans (length_advance_le _ bufs) hlen
    exact .bind (.act (fun _ => rfl) fun _ => Nat.le_refl _) fun _ _ =>
      .ite (fun _ => .bind (.releaseViews views) fun _ _ => .pure rfl) fun _ =>
        .queueRest hU origin hrest views
  · -- the socket reports no error
    have hstatus := ha.1
    rw [Benign, if_neg (by omega)] at hstatus
    exact absurd hstatus (by omega)

theorem flushPending : Keeps t R (Stream.flushPending t) fun _ => True := by
  refine .bind .self fun tr htr => .ite (fun _ => .pure trivial) fun hne => ?_
  refine .bind (.act (fun _ => rfl) fun _ => Nat.zero_le _) fun _ _ => ?_
  have hpos : 0 < (tr.pending.map Buf.data).length := by
    rw [List.length_map]
    exact List.length_pos_iff.mpr hne
  have hlen : (tr.pending.map Buf.data).length ≤ uvMaxBufs := by
    rw [List.length_map]
    exact Nat.le_trans htr.2 (by decide)
  refine .bind (.writeBufs hU .batch hpos hlen _) fun r hr => ?_
  subst hr
  exact .maybeResumeProtocol hU

/-- `makeRoom` makes room. -/
theorem makeRoomBody (hs : Usable t s) : OpenLogs t R (Stream.makeRoomBody t)
    (fun _ s' _ => Usable t s' ∧ (s'.tr t).full = false) s := by
  refine (Prog.logs_bind _ _ _ _).mpr (Prog.logs_mono (flushPending hU s hs) fun _ s₁ _ h₁ => ?_)
  refine (Prog.logs_bind _ _ _ _).mpr ((openLogs_self _ _).mpr ?_)
  dsimp only
  rw [if_neg (by simp [h₁.1.going])]
  refine (Prog.logs_ite _ _ _ _ _).mpr ?_
  split
  · exact fun s₂ log hcontract => hcontract.2 rfl h₁.1
  · exact ⟨h₁.1, Bool.eq_false_iff.mpr ‹_›⟩

end Foreign

theorem scheduleFlush : Keeps t R (Stream.scheduleFlush t) fun _ => True := by
  have hqueue : Keeps t R (Stream.update fun s => s.queueFlush t) fun _ => True := by
    intro s hs
    have htr : (s.queueFlush t).tr t = (s.tr t).setFlushQueued true := Function.update_self ..
    refine ⟨⟨hs.loop, ?_, hs.depth, ?_⟩, trivial⟩
    · rw [htr]
      exact hs.going
    · rw [htr]
      exact hs.room
  intro s hs
  refine (Prog.logs_bind _ _ _ _).mpr ?_
  change OpenLogs t R (if s.closed then _ else if !(s.tr t).flushQueued then _ else _) _ s
  rw [if_neg (by simp [hs.loop])]
  exact (Keeps.ite (fun _ => hqueue) fun _ => .pure trivial) s hs

end Keeps

/-! ## Both paths -/

section Paths

variable (hR : ∀ c s s', R c s s' → 0 < s.depth → Meanwhile t s s')
  (hU : ∀ c s s', R c s s' → Usable t s → Usable t s')

/-- A program that keeps the transport open and accepts nothing itself. -/
theorem Keeps.harmless {p : P α} {Q : α → Prop} (hk : Keeps t R p Q) (hp : Harmless t R False p)
    (hs : Usable t s) :
    OpenLogs t R p (fun a s' log => (Usable t s' ∧ Q a) ∧ own t log = []) s :=
  Prog.logs_mono (Prog.logs_and (hk s hs) (OpenLogs.of_logs (hp s hs.depth False.elim)))
    fun _ _ _ h => ⟨h.1, h.2.own⟩

/-- All the buffers are stored, and accepted. -/
theorem openLogs_appendPending (bufs : List Buf) (hs : Usable t s) :
    OpenLogs t R (appendPending t bufs)
      (fun _ s' log => Usable t s' ∧ own t log = (bufs.map Buf.data).flatten) s := by
  induction bufs generalizing s with
  | nil =>
    exact Prog.logs_mono (Keeps.scheduleFlush.harmless Harmless.scheduleFlush hs)
      fun _ _ _ h => ⟨h.1.1, h.2⟩
  | cons b rest ih =>
    -- a buffer is stored where there is room for it, and then the others
    have hstore : ∀ s, Usable t s → (s.tr t).full = false →
        OpenLogs t R (act t (.store b) >>= fun _ => appendPending t rest)
          (fun _ s' log => Usable t s' ∧ own t log = ((b :: rest).map Buf.data).flatten) s := by
      intro s hs hfull
      refine (Prog.logs_bind _ _ _ _).mpr ((openLogs_act _ _ _).mpr ?_)
      have hroom : (s.tr t).pending.length ≠ pendingMax := by
        simpa [Transport.full] using hfull
      have hs' : Usable t (s.act t (.store b)) := by
        refine ⟨hs.loop, ?_, hs.depth, ?_⟩
        · rw [State.tr_act_self]
          exact hs.going
        · rw [State.tr_act_self]
          change ((s.tr t).pending ++ [b]).length ≤ pendingMax
          have hle := hs.room
          rw [List.length_append, List.length_singleton]
          omega
      refine Prog.logs_mono (ih hs') fun _ s' log h => ⟨h.1, ?_⟩
      have hrun : ((Act.store b).run (s.tr t)).accepted = (s.tr t).accepted ++ b.data := rfl
      rw [List.singleton_append, own_cons, own_set, gained, State.tr_act_self, hrun,
        List.drop_left, h.2]
      rfl
    rw [appendPending]
    refine (Prog.logs_bind _ _ _ _).mpr ((openLogs_self _ _).mpr ?_)
    refine (Prog.logs_ite _ _ _ _ _).mpr ?_
    split
    swap
    · exact hstore s hs (Bool.eq_false_iff.mpr ‹_›)
    refine (Prog.logs_bind _ _ _ _).mpr fun s₁ log₁ hcontract => ?_
    obtain ⟨hs₁, hfull₁⟩ := hcontract.2 rfl hs
    have hinert := hcontract.1 rfl hs.depth
    change OpenLogs t R (self t >>= fun tr => if tr.givesUp then _ else _) _ s₁
    refine (Prog.logs_bind _ _ _ _).mpr ((openLogs_self _ _).mpr ?_)
    dsimp only
    rw [if_neg (by simp [hs₁.going])]
    refine Prog.logs_mono (hstore s₁ hs₁ hfull₁) fun _ s' log h => ⟨h.1, ?_⟩
    rw [List.append_nil, List.nil_append, own_append, hinert.own, List.nil_append]
    exact h.2

include hR hU

/-- The batched path takes every list of buffers. -/
theorem openLogs_batched (bufs : List Buf) (hs : Usable t s)
    (hbatched : ¬ ((s.tr t).pending = [] ∧ pendingMax < bufs.length)) :
    OpenLogs t R (submitWrite t bufs) (fun _ s' log =>
      Usable t s' ∧ own t log = (bufs.map Buf.data).flatten) s := by
  rw [submitWrite]
  refine (Prog.logs_bind _ _ _ _).mpr ((openLogs_self _ _).mpr ?_)
  dsimp only
  rw [if_neg hbatched]
  refine (Prog.logs_bind _ _ _ _).mpr (openLogs_acceptsWrite _ _ hs ?_)
  refine (Prog.logs_bind _ _ _ _).mpr
    (Prog.logs_mono (openLogs_appendPending bufs hs) fun _ s₂ log₂ h₂ => ?_)
  obtain ⟨hs₂, hown₂⟩ := h₂
  have hflush : Keeps t R (do
      let s ← getState
      if !s.running then flushPending t
      return (.ok () : Except Exc Unit)) fun _ => True :=
    .bind (fun _ hs => ⟨hs, trivial⟩) fun _ _ =>
      .ite (fun _ => .bind (.flushPending hU) fun _ _ => .pure trivial) fun _ => .pure trivial
  have hharmless : Harmless t R False (do
      let s ← getState
      if !s.running then flushPending t
      return (.ok () : Except Exc Unit)) :=
    .bind .getState fun _ => .ite (.bind (.flushPending hR) fun _ => .pure _) (.pure _)
  refine Prog.logs_mono (hflush.harmless hharmless hs₂) fun _ s' log₃ h₃ => ⟨h₃.1.1, ?_⟩
  rw [List.nil_append, List.nil_append, own_append, hown₂, h₃.2, List.append_nil]

/-- A vector that libuv does not refuse is accepted as it is queued. -/
theorem openLogs_queueWrite {fresh : Bytes} {bufs : List Bytes} (views : List ℕ) (hs : Usable t s)
    (hfits : bufs.length ≤ uvMaxBufs ∨ total bufs = 0) (hfresh : total bufs = 0 → fresh = []) :
    OpenLogs t R (queueWrite t fresh bufs views) (fun r s' log =>
      Usable t s' ∧ r = .ok () ∧ own t log = fresh) s := by
  have hrelease : ∀ s, Usable t s → OpenLogs t R (act t (.releaseViews views))
      (fun _ s' log => (Usable t s' ∧ True) ∧ own t log = []) s := fun s hs =>
    (Keeps.releaseViews views).harmless (.act rfl) hs
  by_cases htotal : total bufs = 0
  · rw [queueWrite, if_pos htotal, hfresh htotal]
    exact (Prog.logs_bind _ _ _ _).mpr
      (Prog.logs_mono (hrelease s hs) fun _ s' log h => ⟨h.1.1, rfl, by simpa using h.2⟩)
  rw [queueWrite, if_neg htotal]
  refine (Prog.logs_bind _ _ _ _).mpr (openLogs_alloc _ ?_)
  rw [if_neg (by simp)]
  refine (Prog.logs_bind _ _ _ _).mpr fun a ha => ?_
  have hpos : ¬ bufs.length < 1 := by
    intro hnil
    exact htotal (by rw [List.length_eq_zero_iff.mp (Nat.lt_one_iff.mp hnil)]; rfl)
  have hstatus := ha.2
  rw [Benign, if_neg (by omega)] at hstatus
  change OpenLogs t R (if a.status < 0 then _ else _) _ s
  rw [if_neg (by omega)]
  refine (Prog.logs_bind _ _ _ _).mpr ((openLogs_act _ _ _).mpr ?_)
  have hpause : Keeps t R
      (maybePauseProtocol t >>= fun _ => pure (.ok () : Except Exc Unit)) (· = .ok ()) :=
    .bind (.maybePauseProtocol hU) fun _ _ => .pure rfl
  have hharmless : Harmless t R False
      (maybePauseProtocol t >>= fun _ => pure (.ok () : Except Exc Unit)) :=
    .bind (.maybePauseProtocol hR) fun _ => .pure _
  have hs' : Usable t (s.act t (.submit fresh bufs views a.size)) := hs.act rfl (Nat.le_refl _)
  refine Prog.logs_mono (hpause.harmless hharmless hs') fun r s' log h => ⟨h.1.1, h.1.2, ?_⟩
  have hrun : ((Act.submit fresh bufs views a.size).run (s.tr t)).accepted =
      (s.tr t).accepted ++ fresh := rfl
  rw [List.nil_append, List.nil_append, List.singleton_append, own_cons, own_set, gained,
    State.tr_act_self, hrun, List.drop_left, h.2, List.append_nil]

omit hR hU in
theorem flatten_of_total {bufs : List Bytes} (h : total bufs = 0) : bufs.flatten = [] :=
  List.length_eq_zero_iff.mp h

/-- The direct path takes a vector that libuv does not refuse. -/
theorem openLogs_writeBufs {bufs : List Bytes} (views : List ℕ) (hs : Usable t s)
    (hpos : 0 < bufs.length)
    (hfits : bufs.length ≤ uvMaxBufs ∨ (s.tr t).writeBufferSize ≠ 0 ∧ total bufs = 0) :
    OpenLogs t R (writeBufs t .direct bufs views) (fun r s' log =>
      Usable t s' ∧ r = .ok () ∧ own t log = bufs.flatten) s := by
  rw [writeBufs]
  refine (Prog.logs_bind _ _ _ _).mpr (openLogs_acceptsWrite _ _ hs ?_)
  refine (Prog.logs_bind _ _ _ _).mpr ((openLogs_self _ _).mpr ?_)
  have hqueue : ∀ hfits, OpenLogs t R (queueWrite t bufs.flatten bufs views) (fun r s' log =>
      Usable t s' ∧ r = .ok () ∧ own t log = bufs.flatten) s := fun hfits =>
    openLogs_queueWrite hR hU views hs hfits flatten_of_total
  dsimp only
  by_cases hzero : (s.tr t).writeBufferSize = 0
  swap
  · rw [if_neg hzero]
    exact hqueue (hfits.imp_right And.right)
  have hlen : bufs.length ≤ uvMaxBufs := hfits.resolve_right fun h => h.1 hzero
  rw [if_pos hzero]
  refine (Prog.logs_bind _ _ _ _).mpr fun a ha => ?_
  have hstatus := ha.2
  rw [Benign, if_neg (by omega)] at hstatus
  change OpenLogs t R (if 0 < a.status then _ else if a.status < 0 ∧ a.status ≠ uvEAGAIN then _
    else _) _ s
  by_cases htaken : 0 < a.status
  swap
  · rw [if_neg htaken, if_neg (by omega)]
    exact hqueue (.inl hlen)
  rw [if_pos htaken]
  refine (Prog.logs_bind _ _ _ _).mpr ((openLogs_act _ _ _).mpr ?_)
  -- the whole vector is accepted with what the socket takes, and the rest only has to be queued
  have hrest : Keeps t R (if advance a.status.toNat bufs = [] then
        act t (.releaseViews views) >>= fun _ => pure (.ok ())
      else queueRest t .direct (advance a.status.toNat bufs) views) (· = .ok ()) :=
    .ite (fun _ => .bind (.releaseViews views) fun _ _ => .pure rfl) fun _ =>
      .queueRest hU _ (Nat.le_trans (length_advance_le _ bufs) hlen) views
  have hharmless : Harmless t R False (if advance a.status.toNat bufs = [] then
        act t (.releaseViews views) >>= fun _ => pure (.ok ())
      else queueRest t .direct (advance a.status.toNat bufs) views) :=
    .ite (.bind (.act rfl) fun _ => .pure _) (.queueRest hR _ _ _)
  have hs' : Usable t (s.act t (.took bufs.flatten (bufs.flatten.take a.status.toNat))) :=
    hs.act rfl (Nat.le_refl _)
  refine Prog.logs_mono (hrest.harmless hharmless hs') fun r s' log h => ⟨h.1.1, h.1.2, ?_⟩
  have hrun : ((Act.took (Origin.direct.fresh bufs) (bufs.flatten.take a.status.toNat)).run
      (s.tr t)).accepted = (s.tr t).accepted ++ bufs.flatten := rfl
  rw [List.nil_append, List.nil_append, List.nil_append, List.singleton_append, own_cons, own_set,
    gained, State.tr_act_self, hrun, List.drop_left, h.2, List.append_nil]

omit hU in
/-- A forced close closes the transport. -/
theorem logs_forceClose (cause : Cause) (exc : Option Exc) (hd : 0 < s.depth) :
    Logs t R (forceClose t cause exc)
      (fun _ s' log => Inert t s s' log ∧ (s'.tr t).closing = true) s := by
  refine Prog.logs_and (Harmless.forceClose hR cause exc s hd False.elim) ?_
  refine (Prog.logs_bind _ _ _ _).mpr ((logs_act _ _ _).mpr ?_)
  refine (Prog.logs_bind _ _ _ _).mpr ((logs_act _ _ _).mpr ?_)
  refine (Prog.logs_bind _ _ _ _).mpr ((logs_act _ _ _).mpr ?_)
  refine (Prog.logs_bind _ _ _ _).mpr ((logs_act _ _ _).mpr ?_)
  have hclosing : ∀ s : State, ((s.act t .setClosing).tr t).closing = true := by
    intro s
    rw [State.tr_act_self, Act.run]
    split
    · assumption
    · rfl
  refine Prog.logs_mono (Harmless.afterClosing hR _ hd fun _ => hclosing _) fun _ s' log h => ?_
  exact h.kept.closing (hclosing _)

omit hU in
/-- A vector that is too long closes the transport when libuv has nothing left to write. -/
theorem openLogs_refused_closes {bufs : List Bytes} (views : List ℕ) (hs : Usable t s)
    (hlong : uvMaxBufs < bufs.length) (hzero : (s.tr t).writeBufferSize = 0) :
    OpenLogs t R (writeBufs t .direct bufs views) (fun _ s' _ =>
      0 < s'.depth ∧ (s'.tr t).closing = true) s := by
  rw [writeBufs]
  refine (Prog.logs_bind _ _ _ _).mpr (openLogs_acceptsWrite _ _ hs ?_)
  refine (Prog.logs_bind _ _ _ _).mpr ((openLogs_self _ _).mpr ?_)
  dsimp only
  rw [if_pos hzero]
  refine (Prog.logs_bind _ _ _ _).mpr fun a ha => ?_
  have hstatus := ha.2
  rw [Benign, if_pos (by omega)] at hstatus
  have hinval : a.status = -22 := hstatus
  change OpenLogs t R (if 0 < a.status then _ else if a.status < 0 ∧ a.status ≠ uvEAGAIN then _
    else _) _ s
  rw [if_neg (by omega), if_pos (by rw [hinval]; decide)]
  refine (Prog.logs_bind _ _ _ _).mpr ((openLogs_act _ _ _).mpr ?_)
  refine (Prog.logs_bind _ _ _ _).mpr (Prog.logs_mono
    (OpenLogs.of_logs (logs_forceClose hR .peer (some (.osError a.status)) ?_)) ?_)
  · exact hs.depth
  · exact fun _ s' log h => ⟨h.1.kept.depth, h.2⟩

omit hR hU in
/-- A vector that is too long and has bytes in it is refused when libuv has something left to
write. -/
theorem openLogs_refused_raises {bufs : List Bytes} (views : List ℕ) (hs : Usable t s)
    (hlong : uvMaxBufs < bufs.length) (hzero : (s.tr t).writeBufferSize ≠ 0)
    (htotal : total bufs ≠ 0) :
    OpenLogs t R (writeBufs t .direct bufs views) (fun r s' log =>
      Usable t s' ∧ r ≠ .ok () ∧ own t log = []) s := by
  rw [writeBufs]
  refine (Prog.logs_bind _ _ _ _).mpr (openLogs_acceptsWrite _ _ hs ?_)
  refine (Prog.logs_bind _ _ _ _).mpr ((openLogs_self _ _).mpr ?_)
  dsimp only
  rw [if_neg hzero, queueWrite, if_neg htotal]
  have hrelease : ∀ exc, OpenLogs t R
      (act t (.releaseViews views) >>= fun _ => pure (.error exc : Except Exc Unit))
      (fun r s' log => (Usable t s' ∧ r = .error exc) ∧ own t log = []) s := fun exc =>
    Keeps.harmless (.bind (.releaseViews views) fun _ _ => .pure rfl)
      (.bind (.act rfl) fun _ => .pure _) hs
  refine (Prog.logs_bind _ _ _ _).mpr (openLogs_alloc _ ?_)
  rw [if_neg (by simp)]
  refine (Prog.logs_bind _ _ _ _).mpr fun a ha => ?_
  have hstatus := ha.2
  rw [Benign, if_pos (by omega)] at hstatus
  have hinval : a.status = -22 := hstatus
  change OpenLogs t R (if a.status < 0 then _ else _) _ s
  rw [if_pos (by omega)]
  exact Prog.logs_mono (hrelease (.osError a.status)) fun r s' log h =>
    ⟨h.1.1, by simp [h.1.2], h.2⟩

/-- How a vector fares that goes straight to libuv. -/
structure Fares (t : ℕ) (bufs : List Bytes) (refused : Prop) (s' : State) (log : Log sig) :
    Prop where
  /-- It is written, and the transport stays open, unless it is refused. -/
  taken : ¬ refused → Usable t s' ∧ own t log = bufs.flatten
  /-- If it is refused, the transport closes or the bytes are left out. -/
  lost : refused → (s'.tr t).closing = true ∨ own t log ≠ bufs.flatten

/-- The direct path takes every vector that is not refused. -/
theorem openLogs_direct (bufs : List Buf) (hs : Usable t s)
    (hdirect : (s.tr t).pending = [] ∧ pendingMax < bufs.length) :
    OpenLogs t R (submitWrite t bufs) (fun _ s' log => Fares t (bufs.map Buf.data)
      (Refused (s.tr t).writeBufferSize (bufs.map Buf.data)) s' log) s := by
  have hpos : 0 < (bufs.map Buf.data).length := by
    rw [List.length_map]
    exact Nat.lt_of_le_of_lt (Nat.zero_le _) hdirect.2
  rw [submitWrite]
  refine (Prog.logs_bind _ _ _ _).mpr ((openLogs_self _ _).mpr ?_)
  dsimp only
  rw [if_pos hdirect]
  have hresume : Keeps t R
      (maybeResumeProtocol t >>= fun _ => pure (.ok () : Except Exc Unit)) fun _ => True :=
    .bind (.maybeResumeProtocol hU) fun _ _ => .pure trivial
  have hharmless : Harmless t R False
      (maybeResumeProtocol t >>= fun _ => pure (.ok () : Except Exc Unit)) :=
    .bind (.maybeResumeProtocol hR) fun _ => .pure _
  by_cases hrefused : Refused (s.tr t).writeBufferSize (bufs.map Buf.data)
  · have hlost : ∀ s' log, (s'.tr t).closing = true ∨ own t log ≠ (bufs.map Buf.data).flatten →
        Fares t (bufs.map Buf.data) (Refused (s.tr t).writeBufferSize (bufs.map Buf.data)) s' log :=
      fun s' log h => ⟨fun hno => absurd hrefused hno, fun _ => h⟩
    obtain ⟨hlong, hwhy⟩ := hrefused
    by_cases hzero : (s.tr t).writeBufferSize = 0
    · refine (Prog.logs_bind _ _ _ _).mpr
        (Prog.logs_mono (openLogs_refused_closes hR _ hs hlong hzero) fun r s₁ log₁ h₁ => ?_)
      cases r with
      | error exc => exact hlost _ _ (.inl h₁.2)
      | ok u =>
        refine Prog.logs_mono (OpenLogs.of_logs (hharmless s₁ h₁.1 False.elim)) fun _ s' log h => ?_
        exact hlost _ _ (.inl (h.kept.closing h₁.2))
    · have hbytes := hwhy.resolve_left hzero
      have htotal : total (bufs.map Buf.data) ≠ 0 := fun h => hbytes (flatten_of_total h)
      refine (Prog.logs_bind _ _ _ _).mpr
        (Prog.logs_mono (openLogs_refused_raises _ hs hlong hzero htotal) fun r s₁ log₁ h₁ => ?_)
      cases r with
      | error exc =>
        refine hlost _ _ (.inr ?_)
        rw [List.nil_append, List.append_nil, h₁.2.2]
        exact hbytes.symm
      | ok u => exact absurd rfl h₁.2.1
  · have hfits : (bufs.map Buf.data).length ≤ uvMaxBufs ∨
        (s.tr t).writeBufferSize ≠ 0 ∧ total (bufs.map Buf.data) = 0 := by
      rcases Nat.lt_or_ge uvMaxBufs (bufs.map Buf.data).length with hlong | hle
      · have hno := not_or.mp (not_and.mp hrefused hlong)
        exact .inr ⟨hno.1, congrArg List.length (not_not.mp hno.2)⟩
      · exact .inl hle
    refine (Prog.logs_bind _ _ _ _).mpr
      (Prog.logs_mono (openLogs_writeBufs hR hU _ hs hpos hfits) fun r s₁ log₁ h₁ => ?_)
    obtain ⟨hs₁, rfl, hown₁⟩ := h₁
    refine Prog.logs_mono (hresume.harmless hharmless hs₁) fun _ s' log h => ?_
    refine ⟨fun _ => ⟨h.1.1, ?_⟩, fun h => absurd h hrefused⟩
    rw [List.nil_append, own_append, hown₁, h.2, List.append_nil]

/-- How a list of buffers fares, on either path. -/
theorem openLogs_submitWrite (bufs : List Buf) (hs : Usable t s) :
    OpenLogs t R (submitWrite t bufs) (fun _ s' log => Fares t (bufs.map Buf.data)
      (RefusedAt t s (bufs.map Buf.data)) s' log) s := by
  by_cases hdirect : (s.tr t).pending = [] ∧ pendingMax < bufs.length
  · refine Prog.logs_mono (openLogs_direct hR hU bufs hs hdirect) fun _ s' log h => ?_
    have hdirect' : (s.tr t).pending = [] ∧ pendingMax < (bufs.map Buf.data).length := by
      rw [List.length_map]
      exact hdirect
    exact ⟨fun hno => h.taken fun hrefused => hno ⟨hdirect'.1, hdirect'.2, hrefused⟩,
      fun hrefused => h.lost hrefused.2.2⟩
  · refine Prog.logs_mono (openLogs_batched hR hU bufs hs hdirect) fun _ s' log h =>
      ⟨fun _ => h, fun hrefused => absurd ⟨hrefused.1, ?_⟩ hdirect⟩
    rw [← List.length_map Buf.data]
    exact hrefused.2.1

/-! ## The whole of `writelines` -/

omit hR hU in
theorem Alike.usable (h : Alike t s s') (hs : Usable t s) : Usable t s' where
  loop := h.closed.trans hs.loop
  going := h.going.trans hs.going
  depth := h.depth ▸ hs.depth
  room := h.pending ▸ hs.room

variable (hQ : ∀ c s s', R c s s' → c = .iterate ∨ c = .acquire → s = s')

omit hR hU in
include hQ in
/-- Acquiring views changes nothing else. -/
theorem openLogs_acquireAll (n : ℕ) (bufs : List Buf) :
    OpenLogs t R (acquireAll t n bufs) (fun r s' _ => Alike t s s' ∧ ∃ bufs', r = .ok bufs') s := by
  induction n generalizing bufs s with
  | zero => exact ⟨.refl, bufs, rfl⟩
  | succ n ih =>
    rw [acquireAll, acquireWriteView]
    refine (Prog.logs_bind _ _ _ _).mpr ((Prog.logs_bind _ _ _ _).mpr
      ((openLogs_foreign _ _).mpr fun s₁ hs₁ r hr => ?_))
    obtain rfl := hQ _ _ _ hs₁ (.inr rfl)
    have hraised : r.raised = none := hr (.inr rfl)
    have hview : Alike t s (s.act t .acquireView) := by
      refine ⟨rfl, rfl, ?_, ?_, ?_⟩ <;> rw [State.tr_act_self] <;> rfl
    simp only [hraised]
    refine (Prog.logs_bind _ _ _ _).mpr ((openLogs_self _ _).mpr ?_)
    refine (Prog.logs_bind _ _ _ _).mpr ((openLogs_act _ _ _).mpr ((Prog.logs_pure _ _ _).mpr ?_))
    exact Prog.logs_mono (ih (s := s.act t .acquireView) (bufs ++ [⟨r.data, (s.tr t).acquired⟩]))
      fun r' s' log h => ⟨hview.trans h.1, h.2⟩

include hQ

/-- How the buffers of a `writelines` fare. -/
theorem openLogs_writelines (hs : Usable t s) :
    OpenLogs t R (writelines t) (fun _ s' log =>
      Fares t (buffers log) (RefusedAt t s (buffers log)) s' log) s := by
  rw [writelines]
  refine (Prog.logs_bind _ _ _ _).mpr ((openLogs_self _ _).mpr ?_)
  dsimp only
  rw [if_neg (by simp [hs.not_eof])]
  refine (Prog.logs_bind _ _ _ _).mpr ((openLogs_foreign _ _).mpr fun s₁ hs₁ r hr => ?_)
  obtain rfl := hQ _ _ _ hs₁ (.inl rfl)
  have hraised : r.raised = none := hr (.inl rfl)
  simp only [hraised]
  refine (Prog.logs_ite _ _ _ _ _).mpr ?_
  split
  · exact ⟨fun _ => ⟨hs, rfl⟩, fun h => absurd h.2.1 (Nat.not_lt_zero _)⟩
  refine (Prog.logs_bind _ _ _ _).mpr (openLogs_alloc _ ?_)
  rw [if_neg (by simp)]
  have hitems := Prog.logs_and (openLogs_acquireAll hQ r.value.toNat [])
    (OpenLogs.of_logs (logs_acquireAll hR r.value.toNat [] hs.depth))
  refine (Prog.logs_bind _ _ _ _).mpr (Prog.logs_mono hitems fun r' s₂ log₁ h₁ => ?_)
  obtain ⟨⟨halike, bufs, rfl⟩, hbare, hdata⟩ := h₁
  have hmap : bufs.map Buf.data = buffers log₁ := hdata bufs rfl
  have hs₂ := halike.usable hs
  refine Prog.logs_mono (Prog.logs_and (openLogs_submitWrite hR hU bufs hs₂)
    (OpenLogs.of_logs (logs_submitWrite hR bufs hs₂.depth))) fun _ s' log₂ h₂ => ?_
  obtain ⟨hfares, hstored⟩ := h₂
  have hbuffers : buffers ([.yield .iterate s s r] ++ (log₁ ++ log₂)) = bufs.map Buf.data := by
    rw [hmap, buffers_append, buffers_append, hstored.buffers, List.append_nil]
    rfl
  have hown : own t ([.yield .iterate s s r] ++ (log₁ ++ log₂)) = own t log₂ := by
    rw [own_append, own_append, hbare.own, List.nil_append]
    rfl
  have hrefused : RefusedAt t s (bufs.map Buf.data) ↔ RefusedAt t s₂ (bufs.map Buf.data) := by
    rw [RefusedAt, RefusedAt, halike.pending, halike.writeBufferSize]
  simp only [List.nil_append]
  refine ⟨?_, ?_⟩
  · rw [hbuffers, hown, hrefused]
    exact hfares.taken
  · rw [hbuffers, hown, hrefused]
    exact hfares.lost

end Paths

/-- `makeRoom` does what it is assumed to do. -/
theorem openLogs_makeRoom (hR : ∀ c s s', R c s s' → 0 < s.depth → Meanwhile t s s')
    (hU : ∀ c s s', R c s s' → Usable t s → Usable t s') (f : Proc) (s : State) :
    OpenLogs t R (system.body f) (fun _ s' log => openContract t f s s' log) s := by
  obtain ⟨u⟩ := f
  by_cases hu : u = t
  swap
  · exact Prog.logs_of_forall fun _ _ _ => ⟨fun hut => absurd hut hu, fun hut => absurd hut hu⟩
  subst hu
  refine Prog.logs_and ?_ ?_
  · by_cases hd : 0 < s.depth
    · exact OpenLogs.of_logs (Prog.logs_mono (Harmless.makeRoomBody hR s hd False.elim)
        fun _ _ _ h _ _ => h)
    · exact Prog.logs_of_forall fun _ _ _ _ hd' => absurd hd' hd
  · by_cases hs : Usable u s
    · exact Prog.logs_mono (Keeps.makeRoomBody hU hs) fun _ _ _ h _ _ => h
    · exact Prog.logs_of_forall fun _ _ _ _ hs' => absurd hs' hs

/-- What Python code does while a vector is written: iterating over the list and exporting its
buffers does nothing else, and the methods of flow control call the transport as they like, but
leave it open. -/
structure Polite (t n : ℕ) (stack : List Callback) (c : Callback) (s s' : State) : Prop where
  /-- The buffers run no Python code. -/
  quiet : c = .iterate ∨ c = .acquire → s = s'
  /-- What runs are calls of the entry points. -/
  interlude : Interlude system (env True) n (c :: stack) s s'
  /-- They leave the transport open. -/
  keeps : IsOpen t s → IsOpen t s'

/-- A run of `writelines` on an open transport whose socket reports no error. -/
structure CleanRun (t n : ℕ) (stack : List (Callback × (Result → P Unit))) (s s' : State)
    (log : Log sig) : Prop where
  reachable : system.Reachable (env True) ⟨s, none, stack⟩
  start : Startable s (.writelines t)
  isOpen : IsOpen t s
  run : Run system healthy (Polite t n (stack.map Prod.fst)) (system.entry (.writelines t)) s () s'
    log

variable {n : ℕ} {stack : List (Callback × (Result → P Unit))} {log : Log sig}

/-- The buffers are written in full and the transport stays open, unless they are refused. -/
theorem CleanRun.fares (h : CleanRun t n stack s s' log) :
    (¬ RefusedAt t s (buffers log) → IsOpen t s' ∧ own t log = (buffers log).flatten) ∧
      (RefusedAt t s (buffers log) → ¬ IsOpen t s' ∨ own t log ≠ (buffers log).flatten) := by
  have hV := verified True
  have hinv : Inv True s := hV.in_foreign (not_quiet True) h.reachable
  have hwp := hV.entry (stack.map Prod.fst) s (.writelines t) h.start hinv fun hnil => by
    obtain rfl : stack = [] := List.map_eq_nil_iff.mp hnil
    exact (hV.top_level h.reachable).2
  have hsound : Sound (env True) (spec True) (Polite t n (stack.map Prod.fst)) :=
    fun c s s' hc => hV.interlude n (stack.map Prod.fst) c s s' hc.interlude
  obtain ⟨-, hrun⟩ := hV.run_restricted healthy_restricts hsound h.run hwp
  have hR : ∀ c s s', (Polite t n (stack.map Prod.fst) c s s' ∧
      (¬ (env True).Quiet c → Inv True s ∧ Inv True s' ∧ Rely s s')) → 0 < s.depth →
        Meanwhile t s s' := fun c s s' hc hd => by
    obtain ⟨hinv, -, hrely⟩ := hc.2 (not_quiet True c)
    exact .of_rely hinv hrely hd
  have hU : ∀ c s s', (Polite t n (stack.map Prod.fst) c s s' ∧
      (¬ (env True).Quiet c → Inv True s ∧ Inv True s' ∧ Rely s s')) → Usable t s →
        Usable t s' := fun c s s' hc hs => by
    obtain ⟨-, hinv', -⟩ := hc.2 (not_quiet True c)
    exact ⟨hinv'.reach.global.opened, hc.1.keeps hs.going, (hR c s s' hc hs.depth).depth,
      (hinv'.reach.sane t).room⟩
  have hs : Usable t s.enter :=
    ⟨hinv.reach.global.opened, h.isOpen, Nat.succ_pos _, (hinv.reach.sane t).room⟩
  refine hrun.logs (openLogs_makeRoom hR hU) (C := openContract t) (Q := fun _ s' log =>
    (¬ RefusedAt t s (buffers log) → IsOpen t s' ∧ own t log = (buffers log).flatten) ∧
      (RefusedAt t s (buffers log) → ¬ IsOpen t s' ∨ own t log ≠ (buffers log).flatten)) ?_
  refine (Prog.logs_bind _ _ _ _).mpr ?_
  change OpenLogs t _ ((fun _ => ()) <$> writelines t >>= fun _ => update State.leave) _ s.enter
  refine (Prog.logs_bind _ _ _ _).mpr ((Prog.logs_map _ _ _ _).mpr ?_)
  have hquiet : ∀ c s s', (Polite t n (stack.map Prod.fst) c s s' ∧
      (¬ (env True).Quiet c → Inv True s ∧ Inv True s' ∧ Rely s s')) →
        c = .iterate ∨ c = .acquire → s = s' := fun c s s' hc => hc.1.quiet
  refine Prog.logs_mono (openLogs_writelines hR hU hquiet hs) fun _ s₁ log₁ h₁ => ?_
  -- entering and leaving the native call writes nothing
  change (¬ RefusedAt t s (buffers (.set s s.enter :: (log₁ ++ [.set s₁ s₁.leave]))) →
    IsOpen t s₁.leave ∧ own t (.set s s.enter :: (log₁ ++ [.set s₁ s₁.leave])) =
      (buffers (.set s s.enter :: (log₁ ++ [.set s₁ s₁.leave]))).flatten) ∧
    (RefusedAt t s (buffers (.set s s.enter :: (log₁ ++ [.set s₁ s₁.leave]))) →
      ¬ IsOpen t s₁.leave ∨ own t (.set s s.enter :: (log₁ ++ [.set s₁ s₁.leave])) ≠
        (buffers (.set s s.enter :: (log₁ ++ [.set s₁ s₁.leave]))).flatten)
  have henter : gained t s s.enter = [] := List.drop_length
  have hleave : gained t s₁ s₁.leave = [] := List.drop_length
  have hown : own t (.set s s.enter :: (log₁ ++ [.set s₁ s₁.leave])) = own t log₁ := by
    rw [own_cons, own_append, own_set, own_set, henter, hleave, List.append_nil]
    rfl
  have hbuffers : buffers (.set s s.enter :: (log₁ ++ [.set s₁ s₁.leave])) = buffers log₁ := by
    change buffers (log₁ ++ [.set s₁ s₁.leave]) = _
    rw [buffers_append]
    exact List.append_nil _
  rw [hbuffers, hown]
  refine ⟨fun hno => ?_, fun hrefused => ?_⟩
  · obtain ⟨hs₁, hown₁⟩ := h₁.taken hno
    exact ⟨hs₁.going, hown₁⟩
  · refine (h₁.lost hrefused).imp_left fun hclosing hopen => ?_
    have hgoing : (s₁.tr t).givesUp = false := hopen
    simp [Transport.givesUp, hclosing] at hgoing

/-- The direct path (nothing pending, and more buffers than the batch holds) and the batched path
(something pending) put the same bytes of a list in the stream and leave the transport open, unless
there are more buffers than libuv takes in one vector and the vector gets as far as libuv. -/
theorem direct_batched_agree_iff {n₁ n₂ : ℕ} {stack₁ stack₂ : List (Callback × (Result → P Unit))}
    {s₁ s₁' s₂ s₂' : State} {log₁ log₂ : Log sig} (h₁ : CleanRun t n₁ stack₁ s₁ s₁' log₁)
    (h₂ : CleanRun t n₂ stack₂ s₂ s₂' log₂) (hsame : buffers log₁ = buffers log₂)
    (hdirect : (s₁.tr t).pending = [] ∧ pendingMax < (buffers log₁).length)
    (hbatched : (s₂.tr t).pending ≠ []) :
    (own t log₁ = (buffers log₁).flatten ∧ own t log₂ = (buffers log₁).flatten ∧
        IsOpen t s₁' ∧ IsOpen t s₂') ↔
      ¬ (uvMaxBufs < (buffers log₁).length ∧
        ((s₁.tr t).writeBufferSize = 0 ∨ (buffers log₁).flatten ≠ [])) := by
  obtain ⟨hopen₂, hown₂⟩ := h₂.fares.1 fun hrefused => hbatched hrefused.1
  have hrefused : RefusedAt t s₁ (buffers log₁) ↔ uvMaxBufs < (buffers log₁).length ∧
      ((s₁.tr t).writeBufferSize = 0 ∨ (buffers log₁).flatten ≠ []) :=
    ⟨fun h => h.2.2, fun h => ⟨hdirect.1, hdirect.2, h⟩⟩
  rw [← hrefused]
  constructor
  · rintro ⟨hown₁, -, hopen₁, -⟩ hno
    exact (h₁.fares.2 hno).elim (fun h => h hopen₁) fun h => h hown₁
  · intro hno
    obtain ⟨hopen₁, hown₁⟩ := h₁.fares.1 hno
    exact ⟨hown₁, hsame ▸ hown₂, hopen₁, hopen₂⟩

/-! ## Clean runs exist -/

theorem healthy_responsive (t n : ℕ) (stack : List Callback) :
    Responsive healthy (Polite t n stack) where
  answers := by
    intro s q
    cases q with
    | tryWrite size count =>
      by_cases hlong : count < 1 ∨ uvMaxBufs < count
      · refine ⟨⟨true, uvEINVAL, 0⟩, ⟨?_, ?_⟩, rfl⟩
        · exact Int.le_trans (by decide) (Int.natCast_nonneg size)
        · rw [Benign, if_pos hlong]
      · refine ⟨⟨true, 0, 0⟩, ⟨Int.natCast_nonneg size, ?_⟩, rfl⟩
        rw [Benign, if_neg hlong]
        exact .inr (Int.le_refl 0)
    | uvWrite u size count =>
      by_cases hlong : count < 1 ∨ uvMaxBufs < count
      · refine ⟨⟨true, uvEINVAL, 0⟩, ⟨Nat.zero_le _, ?_⟩, rfl⟩
        rw [Benign, if_pos hlong]
      · refine ⟨⟨true, 0, 0⟩, ⟨Nat.zero_le _, ?_⟩, rfl⟩
        rw [Benign, if_neg hlong]
    | alloc => exact ⟨⟨true, 0, 0⟩, ⟨by rintro ⟨⟩, trivial⟩, rfl⟩
    | _ => exact ⟨⟨true, 0, 0⟩, ⟨trivial, trivial⟩, rfl⟩
  returns := fun _ _ _ hr _ => hr
  atOnce := by
    intro c s
    refine ⟨fun _ => rfl, ?_, id⟩
    cases n with
    | zero => exact rfl
    | succ n => exact .refl

/-- On every open transport every list of buffers can be written without an error of the socket. -/
theorem exists_cleanRun (n : ℕ) (hreachable : system.Reachable (env True) ⟨s, none, stack⟩)
    (hstart : Startable s (.writelines t)) (hopen : IsOpen t s) (items : List Bytes) :
    ∃ s' log, CleanRun t n stack s s' log ∧ buffers log = items := by
  have heof : (s.tr t).eofWritten = false := by
    have hgoing : (s.tr t).givesUp = false := hopen
    simp only [Transport.givesUp, Bool.or_eq_false_iff] at hgoing
    exact hgoing.2
  obtain ⟨s', log, hrun, hbuffers⟩ :=
    exists_run_writelines (healthy_responsive t n (stack.map Prod.fst)) items s heof
  exact ⟨s', log, ⟨hreachable, hstart, hopen, hrun⟩, hbuffers⟩

/-! ## Concrete runs -/

/-- Inside `connection_made`, with nothing pending. -/
def connected : List (Label sig) := opening .plain ++ [.start .runBegin, .start .onIdle]

/-- The same, with one byte pending. -/
def oneWritten : List (Label sig) := connected ++ [.start (.write 0), exported [1]]

/-- A list of buffers is written on both paths. -/
theorem exists_both_paths (items : List Bytes) :
    ∃ (stack₁ stack₂ : List (Callback × (Result → P Unit))) (s₁ s₁' s₂ s₂' : State)
      (log₁ log₂ : Log sig), CleanRun 0 1 stack₁ s₁ s₁' log₁ ∧ CleanRun 0 1 stack₂ s₂ s₂' log₂ ∧
        buffers log₁ = items ∧ buffers log₂ = items ∧ (s₁.tr 0).pending = [] ∧
        (s₁.tr 0).writeBufferSize = 0 ∧ (s₂.tr 0).pending ≠ [] := by
  have hdirect : ∃ s stack, system.play (env True) 100 connected system.initial =
      some ⟨s, none, stack⟩ ∧ Startable s (.writelines 0) ∧ (s.tr 0).givesUp = false ∧
      (s.tr 0).pending = [] ∧ (s.tr 0).writeBufferSize = 0 :=
    ⟨_, _, rfl, by decide, rfl, rfl, rfl⟩
  have hbatched : ∃ s stack, system.play (env True) 100 oneWritten system.initial =
      some ⟨s, none, stack⟩ ∧ Startable s (.writelines 0) ∧ (s.tr 0).givesUp = false ∧
      (s.tr 0).pending ≠ [] :=
    ⟨_, _, rfl, by decide, rfl, by decide⟩
  obtain ⟨s₁, stack₁, hplay₁, hstart₁, hopen₁, hpending₁, hsize₁⟩ := hdirect
  obtain ⟨s₂, stack₂, hplay₂, hstart₂, hopen₂, hpending₂⟩ := hbatched
  obtain ⟨s₁', log₁, hrun₁, hitems₁⟩ :=
    exists_cleanRun 1 (System.Reachable.initial.play hplay₁) hstart₁ hopen₁ items
  obtain ⟨s₂', log₂, hrun₂, hitems₂⟩ :=
    exists_cleanRun 1 (System.Reachable.initial.play hplay₂) hstart₂ hopen₂ items
  exact ⟨stack₁, stack₂, s₁, s₁', s₂, s₂', log₁, log₂, hrun₁, hrun₂, hitems₁, hitems₂, hpending₁,
    hsize₁, hpending₂⟩

/-- Five buffers of one byte each. -/
def fiveBuffers : List Bytes := [[1], [2], [3], [4], [5]]

/-- Five buffers arrive in full on both paths. -/
theorem direct_batched_agree_five :
    ∃ (s₁' s₂' : State) (log₁ log₂ : Log sig), buffers log₁ = fiveBuffers ∧
      buffers log₂ = fiveBuffers ∧ own 0 log₁ = [1, 2, 3, 4, 5] ∧ own 0 log₂ = [1, 2, 3, 4, 5] ∧
      IsOpen 0 s₁' ∧ IsOpen 0 s₂' := by
  obtain ⟨_, _, s₁, s₁', s₂, s₂', log₁, log₂, h₁, h₂, hitems₁, hitems₂, hpending₁, -, hpending₂⟩ :=
    exists_both_paths fiveBuffers
  have hfive : pendingMax < (buffers log₁).length := by
    rw [hitems₁]
    decide
  have hshort : ¬ (uvMaxBufs < (buffers log₁).length ∧
      ((s₁.tr 0).writeBufferSize = 0 ∨ (buffers log₁).flatten ≠ [])) := fun h => by
    rw [hitems₁] at h
    exact absurd h.1 (by decide)
  obtain ⟨hown₁, hown₂, hopen⟩ := (direct_batched_agree_iff h₁ h₂ (hitems₁.trans hitems₂.symm)
    ⟨hpending₁, hfive⟩ hpending₂).mpr hshort
  rw [hitems₁] at hown₁ hown₂
  exact ⟨s₁', s₂', log₁, log₂, hitems₁, hitems₂, hown₁, hown₂, hopen⟩

/-- One buffer more than libuv takes in a vector. -/
def tooManyBuffers : List Bytes := List.replicate (uvMaxBufs + 1) [0]

/-- The direct path loses a list of 1024 * 1024 + 1 buffers, or the connection. The batched path
writes it. -/
theorem direct_loses_long_list :
    ∃ (stack₁ stack₂ : List (Callback × (Result → P Unit))) (s₁ s₁' s₂ s₂' : State)
      (log₁ log₂ : Log sig), CleanRun 0 1 stack₁ s₁ s₁' log₁ ∧ CleanRun 0 1 stack₂ s₂ s₂' log₂ ∧
        buffers log₁ = tooManyBuffers ∧ buffers log₂ = tooManyBuffers ∧
        (s₁.tr 0).pending = [] ∧ (s₂.tr 0).pending ≠ [] ∧
        (own 0 log₂ = tooManyBuffers.flatten ∧ IsOpen 0 s₂') ∧
        ¬ (own 0 log₁ = tooManyBuffers.flatten ∧ IsOpen 0 s₁') := by
  obtain ⟨stack₁, stack₂, s₁, s₁', s₂, s₂', log₁, log₂, h₁, h₂, hitems₁, hitems₂, hpending₁, hsize₁,
    hpending₂⟩ := exists_both_paths tooManyBuffers
  have hlong : uvMaxBufs < (buffers log₁).length := by
    rw [hitems₁, tooManyBuffers, List.length_replicate]
    exact Nat.lt_succ_self _
  have hrefused : RefusedAt 0 s₁ (buffers log₁) :=
    ⟨hpending₁, Nat.lt_trans (by decide) hlong, hlong, .inl hsize₁⟩
  have hbatched := h₂.fares.1 fun h => hpending₂ h.1
  have hdirect := h₁.fares.2 hrefused
  rw [hitems₂] at hbatched
  rw [hitems₁] at hdirect
  refine ⟨stack₁, stack₂, s₁, s₁', s₂, s₂', log₁, log₂, h₁, h₂, hitems₁, hitems₂, hpending₁,
    hpending₂, hbatched.symm, ?_⟩
  rintro ⟨hown, hopen⟩
  exact hdirect.elim (fun h => h hopen) fun h => h hown

end Zuvloop.Stream
