import Zuvloop.Reentrant.Tracked
import Zuvloop.Stream.Verified

/-!
# How far the bytes of a transport have come

What a transport has accepted, handed over and sent only ever grows, change by change, until a
write fails. A failed write closes the transport before control is given away again. And whenever
`resume_writing` is called, no more than the low-water mark is waiting.

## Main definitions

* `Transport.taken`, `Transport.sent`: what the socket has taken.
* `Transport.Beyond`: what no change takes back.

## Main results

* `progress_tracks`: the transports make progress.
* `closing_of_failed`: a failed write has closed the transport.
* `resumed`: what holds when `resume_writing` is called.
-/

namespace Zuvloop.Stream

open Reentrant

/-! ## What the socket has taken -/

namespace Transport

variable (tr : Transport)

/-- The number of bytes the socket has taken: those of the writes that are done, and of the others
what has left libuv's queue. -/
def taken : ℕ := tr.written + (tr.requestSize - tr.stream.queueSize)

/-- The bytes the socket has taken. -/
def sent : Bytes := tr.handedOver.take tr.taken

/-- A write has failed. -/
def failed : Bool := tr.history.any Event.isFailed

end Transport

/-- Nothing is taken back. Once a write has failed, nobody knows what the socket has taken. -/
structure Transport.Beyond (tr tr' : Transport) : Prop where
  /-- The bytes accepted. -/
  accepted : tr.accepted <+: tr'.accepted
  /-- The bytes handed over. -/
  handedOver : tr.handedOver <+: tr'.handedOver
  /-- What is torn stays torn. -/
  torn : tr'.torn = false → tr.torn = false
  /-- Who closes goes on closing. -/
  closing : tr.closing = true → tr'.closing = true
  /-- The connection stays lost. -/
  connLost : tr.connLost = true → tr'.connLost = true
  /-- The bytes taken. -/
  taken : tr'.failed = false → tr.failed = false ∧ tr.taken ≤ tr'.taken

namespace Transport.Beyond

variable {tr₁ tr₂ tr₃ : Transport}

theorem refl (tr : Transport) : tr.Beyond tr :=
  ⟨List.prefix_rfl, List.prefix_rfl, id, id, id, fun h => ⟨h, le_rfl⟩⟩

theorem setFlushQueued (tr : Transport) (b : Bool) : tr.Beyond (tr.setFlushQueued b) :=
  ⟨List.prefix_rfl, List.prefix_rfl, id, id, id, fun h => ⟨h, le_rfl⟩⟩

theorem isClosing (h : tr₁.Beyond tr₂) (hopen : tr₂.isClosing = false) :
    tr₁.isClosing = false := by
  obtain ⟨hclosing, hlost⟩ := Bool.or_eq_false_iff.mp hopen
  refine Bool.or_eq_false_iff.mpr ⟨?_, ?_⟩
  · rw [← Bool.not_eq_true] at hclosing ⊢
    exact fun hc => hclosing (h.closing hc)
  · rw [← Bool.not_eq_true] at hlost ⊢
    exact fun hl => hlost (h.connLost hl)

/-- What has been sent stays sent. -/
theorem sent (h : tr₁.Beyond tr₂) (hf : tr₂.failed = false) : tr₁.sent <+: tr₂.sent := by
  refine List.prefix_take_iff.mpr ⟨(List.take_prefix _ _).trans h.handedOver, ?_⟩
  exact (List.length_take_le _ _).trans (h.taken hf).2

end Transport.Beyond

/-! ## What acts do -/

/-- libuv does not count bytes that it was not given. -/
def Act.Counts : Act → Transport → Prop
  | .submit _ bufs _ queueSize, tr => queueSize ≤ tr.stream.queueSize + total bufs
  | .completed _ r rest queueSize, tr =>
    tr.stream.requests = r :: rest ∧ queueSize ≤ tr.stream.queueSize
  | .drained queueSize, tr => queueSize ≤ tr.stream.queueSize
  | _, _ => True

/-- The acts that libuv and its answers have no part in. -/
def Act.inner : Act → Bool
  | .submit _ _ _ _ | .completed _ _ _ _ | .drained _ => false
  | _ => true

theorem Act.counts_of_inner {a : Act} (ha : a.inner = true) (tr : Transport) : a.Counts tr := by
  cases a with
  | submit | completed | drained => cases ha
  | _ => trivial

/-- The bytes taken stay taken. -/
theorem Act.taken_run {a : Act} {tr : Transport} (hok : a.Counts tr)
    (hf : (a.run tr).failed = false) : tr.taken ≤ (a.run tr).taken := by
  have hbranches := fun h => Act.run_branches (a := a) h tr
  cases a with
  | took fresh bytes =>
    change tr.written + _ ≤ tr.written + bytes.length + _
    exact Nat.add_le_add_right (Nat.le_add_right _ _) _
  | submit fresh bufs views queueSize =>
    have hsize : ((Act.submit fresh bufs views queueSize).run tr).requestSize =
        tr.requestSize + total bufs := by
      simp [Act.run, Transport.requestSize]
    have hq : queueSize ≤ tr.stream.queueSize + total bufs := hok
    change tr.written + (tr.requestSize - tr.stream.queueSize) ≤ tr.written + (_ - queueSize)
    rw [hsize]
    omega
  | completed ok r rest queueSize =>
    obtain ⟨hrequests, hq⟩ := hok
    cases ok with
    | false =>
      -- a write that fails is recorded
      rw [Transport.failed, Act.history_run, List.any_append, Bool.or_eq_false_iff] at hf
      cases hf.2
    | true =>
      have hsize : tr.requestSize = r.size + (rest.map WriteReq.size).sum := by
        rw [Transport.requestSize, hrequests, List.map_cons, List.sum_cons]
      change tr.written + (tr.requestSize - tr.stream.queueSize) ≤
        tr.written + r.size + ((rest.map WriteReq.size).sum - queueSize)
      omega
  | drained queueSize =>
    have hq : queueSize ≤ tr.stream.queueSize := hok
    exact Nat.add_le_add_left (Nat.sub_le_sub_left hq _) _
  | setClosing | pauseWriting | resumeWriting =>
    obtain ⟨c, p, hist, hrun⟩ := hbranches rfl
    rw [hrun]
    exact le_rfl
  | _ => exact le_rfl

/-- No act takes anything back. -/
theorem Act.beyond {a : Act} {tr : Transport} (hok : a.Counts tr) : tr.Beyond (a.run tr) where
  accepted := a.accepted_run tr
  handedOver := a.handedOver_run tr
  torn := a.torn_run tr
  closing := by
    intro hc
    cases a with
    | setClosing =>
      simp only [Act.run]
      rw [if_pos hc]
      exact hc
    | pauseWriting | resumeWriting =>
      simp only [Act.run]
      rw [Transport.recordCall_eq]
      exact hc
    | _ => exact hc
  connLost := by
    intro hl
    have hbranches := fun h => Act.run_branches (a := a) h tr
    cases a with
    | lost => rfl
    | setClosing | pauseWriting | resumeWriting =>
      obtain ⟨c, p, hist, hrun⟩ := hbranches rfl
      rw [hrun]
      exact hl
    | _ => exact hl
  taken := fun hf => ⟨Act.any_history hf, Act.taken_run hok hf⟩

/-- A write that completes without success. -/
def Act.fails : Act → Bool
  | .completed ok _ _ _ => !ok
  | _ => false

theorem Act.fails_of_inner {a : Act} (ha : a.inner = true) : a.fails = false := by
  cases a with
  | completed => cases ha
  | _ => rfl

/-- Only the completion of a write records that it failed. -/
theorem Act.failed_run {a : Act} {tr : Transport} (ha : a.fails = false)
    (hf : (a.run tr).failed = true) : tr.failed = true := by
  rw [Transport.failed, a.history_run, List.any_append, Bool.or_eq_true] at hf
  rcases hf with hf | hf
  · exact hf
  · cases he : a.event tr with
    | none =>
      rw [he] at hf
      cases hf
    | some e =>
      rw [he] at hf
      obtain rfl : e = .writeFailed := by
        cases e with
        | writeFailed => rfl
        | _ => cases hf
      obtain ⟨r, rest, q, rfl⟩ := Act.records_of_event he
      cases ha

/-! ## The track -/

/-- A write that failed has closed its transport. -/
def FailedClosed (s : State) : Prop := ∀ t, (s.tr t).failed = true → (s.tr t).closing = true

/-- The transports make progress; and `resume_writing` is called only when no more is waiting than
the low-water mark allows. -/
def progress : Track sig where
  inv := FailedClosed
  change := fun s s' => ∀ t, (s.tr t).Beyond (s'.tr t)
  calls := fun c s => ∀ t, c = .protocol t .resumeWriting →
    (s.tr t).isClosing = false ∧ (s.tr t).bufferedBytes ≤ (s.tr t).lowWater

/-! ## The programs -/

/-- A program that takes nothing back. -/
abbrev Forward (starving : Prop) {α : Type} (p : P α) : Prop := p.Tracked (env starving) progress

variable {starving : Prop} {t : ℕ} {s : State}

/-- An act that counts is a change of the track. -/
theorem change_act {a : Act} (hok : a.Counts (s.tr t)) : progress.change s (s.act t a) := by
  intro u
  by_cases hu : u = t
  · rw [hu, State.tr_act_self]
    exact Act.beyond hok
  · rw [State.tr_act_ne _ hu]
    exact .refl _

/-- What keeps the transports as they are keeps everything. -/
theorem change_of_tr {s' : State} (htr : s'.tr = s.tr) : progress.change s s' := fun u => by
  rw [htr]
  exact .refl _

theorem FailedClosed.of_tr {s' : State} (h : FailedClosed s) (htr : s'.tr = s.tr) :
    FailedClosed s' := fun u hf => by
  rw [htr] at hf ⊢
  exact h u hf

theorem FailedClosed.act (h : FailedClosed s) {a : Act} (hok : a.Counts (s.tr t))
    (ha : a.fails = false) : FailedClosed (s.act t a) := by
  intro u hf
  by_cases hu : u = t
  · rw [hu, State.tr_act_self] at hf ⊢
    exact (Act.beyond hok).closing (h t (Act.failed_run ha hf))
  · rw [State.tr_act_ne _ hu] at hf ⊢
    exact h u hf

/-- A new handle or a change of a flag of the flush list. -/
theorem FailedClosed.setFlushQueued (h : FailedClosed s) {s' : State}
    (htr : ∀ u, ∃ b, s'.tr u = (s.tr u).setFlushQueued b ∨ s'.tr u = s.tr u) :
    progress.change s s' ∧ FailedClosed s' := by
  refine ⟨fun u => ?_, fun u hf => ?_⟩
  · obtain ⟨b, hb | hb⟩ := htr u
    · rw [hb]
      exact .setFlushQueued _ _
    · rw [hb]
      exact .refl _
  · obtain ⟨b, hb | hb⟩ := htr u
    · rw [hb] at hf ⊢
      exact h u hf
    · rw [hb] at hf ⊢
      exact h u hf

/-- A new transport takes the place of a blank record. -/
theorem FailedClosed.addTransport (h : FailedClosed s) (hblank : s.tr s.fresh = .blank)
    (writePipe : Bool) (p : Protocol) (server : Bool) {s' : State}
    (htr : s'.tr = (s.addTransport (.create writePipe p server)).tr) :
    progress.change s s' ∧ FailedClosed s' := by
  have htr' (u : ℕ) : s'.tr u = if u = s.fresh then .create writePipe p server else s.tr u := by
    rw [htr]
    exact Function.update_apply ..
  refine ⟨fun u => ?_, fun u hf => ?_⟩
  · rw [htr' u]
    split
    · rename_i hu
      rw [hu, hblank]
      exact ⟨List.prefix_rfl, List.prefix_rfl, id, id, id, fun _ => ⟨rfl, le_rfl⟩⟩
    · exact .refl _
  · rw [htr' u] at hf ⊢
    split at hf
    · cases hf
    · rename_i hu
      rw [if_neg hu]
      exact h u hf

theorem tracked_self (Q : Transport → State → Prop) :
    (self t).tracked (env starving) progress Q s ↔ Q (s.tr t) s := Iff.rfl

theorem tracked_alloc {α : Type} (f : Bool → P α) (Q : α → State → Prop) :
    (alloc >>= f).tracked (env starving) progress Q s ↔
      ∀ a, Answers starving s .alloc a → (f a.ok).tracked (env starving) progress Q s := Iff.rfl

namespace Forward

variable {α β : Type}

theorem self (u : ℕ) : Forward starving (Stream.self u) := fun _ h => h

theorem getState : Forward starving Stream.getState := fun _ h => h

theorem request (q : Request) : Forward starving (Stream.request q) := fun _ h _ _ => h

theorem alloc : Forward starving Stream.alloc := fun _ h _ _ => h

theorem act {a : Act} (ha : a.inner = true) : Forward starving (Stream.act t a) :=
  fun _ h =>
    have hok := Act.counts_of_inner ha _
    ⟨change_act hok, h.act hok (Act.fails_of_inner ha)⟩

/-- A change that leaves the transports alone. -/
theorem update {f : State → State} (hf : ∀ s, (f s).tr = s.tr) :
    Forward starving (Stream.update f) :=
  fun s h => ⟨change_of_tr (hf s), h.of_tr (hf s)⟩

theorem foreign {c : Callback} (hc : ∀ t, c ≠ .protocol t .resumeWriting) :
    Forward starving (Stream.foreign c) :=
  fun _ h => ⟨h, fun t heq => absurd heq (hc t), fun _ _ h' => h'⟩

theorem python {c : Callback} (hc : ∀ t, c ≠ .protocol t .resumeWriting) :
    Forward starving (Stream.python c) := .map (foreign hc) _

/-- `uv_close` is an act that counts one more handle. -/
theorem uvClose : Forward starving (Stream.update fun s => s.uvClose t) := by
  have hact : Forward starving (Stream.act t .uvClose) := act rfl
  exact hact

theorem releaseSocketView : Forward starving (releaseSocketView t) :=
  .bind (self t) fun _ => .ite (.bind (act rfl) fun _ => python nofun) (.pure ())

theorem shutdownAndClose : Forward starving (shutdownAndClose t) := by
  have hclose : Forward starving (closeExternalHandle t) :=
    .bind (self t) fun _ => .ite uvClose (.pure ())
  have hrest := (releaseSocketView (t := t)).bind fun _ => hclose
  exact .bind (self t) fun _ => .ite (.bind (act rfl) fun _ =>
    .ite (.bind (act rfl) fun _ => hrest) hrest) (.pure ())

theorem forceClose (cause : Cause) (exc : Option Exc) :
    Forward starving (forceClose t cause exc) := by
  refine .bind (act rfl) fun _ => .bind (act rfl) fun _ => .bind (act rfl) fun _ =>
    .bind (act rfl) fun _ => .bind (act rfl) fun _ => .bind (self t) fun _ => ?_
  exact .ite (act rfl) shutdownAndClose

theorem callProtocol {m : Method} (hm : m ≠ .resumeWriting) :
    Forward starving (callProtocol t m) := by
  refine .bind (self t) fun _ => .ite (.bind (foreign fun u h => ?_) fun _ => ?_) (.pure ())
  · exact hm (Callback.protocol.inj h).2
  · exact .ite (python nofun) (.pure ())

theorem maybePauseProtocol : Forward starving (maybePauseProtocol t) :=
  .bind (self t) fun _ => .ite (.pure ()) (.ite (.pure ())
    (.bind (act rfl) fun _ => callProtocol nofun))

theorem callProtocol_resumeWriting (h : FailedClosed s) (hopen : (s.tr t).isClosing = false)
    (hlow : (s.tr t).bufferedBytes ≤ (s.tr t).lowWater) :
    (Stream.callProtocol t .resumeWriting).tracked (env starving) progress
      (fun _ s' => FailedClosed s') s := by
  rw [Stream.callProtocol, Prog.tracked_bind, tracked_self, Prog.tracked_ite]
  split
  · refine ⟨h, fun u heq => ?_, fun r s₁ h₁ => ?_⟩
    · obtain rfl : t = u := (Callback.protocol.inj heq).1
      exact ⟨hopen, hlow⟩
    · have hhandler : Forward starving (Stream.python .exceptionHandler) :=
        python fun u heq => by cases heq
      exact Prog.Tracked.ite hhandler (.pure ()) s₁ h₁
  · exact h

/-- `resume_writing` is called when little is waiting. -/
theorem maybeResumeProtocol : Forward starving (maybeResumeProtocol t) := by
  intro s h
  rw [Stream.maybeResumeProtocol, Prog.tracked_bind, tracked_self, Prog.tracked_ite]
  split
  · exact h
  rename_i hopen
  rw [Prog.tracked_ite]
  split
  · exact h
  rw [Prog.tracked_ite]
  split
  · exact h
  rename_i hlow
  -- the flag and the history are all that changes
  have hsame : ((s.act t .resumeWriting).tr t).isClosing = (s.tr t).isClosing ∧
      ((s.act t .resumeWriting).tr t).bufferedBytes = (s.tr t).bufferedBytes ∧
      ((s.act t .resumeWriting).tr t).lowWater = (s.tr t).lowWater := by
    rw [State.tr_act_self, Act.run, Transport.recordCall_eq]
    exact ⟨rfl, rfl, rfl⟩
  refine ⟨change_act trivial, callProtocol_resumeWriting (h.act trivial rfl) ?_ ?_⟩
  · exact hsame.1.trans ((Bool.not_eq_true _).mp hopen)
  · exact hsame.2.1.le.trans ((not_lt.mp hlow).trans_eq hsame.2.2.symm)

/-- libuv's queue grows by at most what it was given. -/
theorem queueWrite (fresh : Bytes) (bufs : List Bytes) (views : List ℕ) :
    Forward starving (queueWrite t fresh bufs views) := by
  refine .ite (.bind (act rfl) fun _ => .pure _) (.bind alloc fun _ => .ite
    (.bind (act rfl) fun _ => .pure _) fun s h => ?_)
  refine (Prog.tracked_bind _ _ _ _).mpr fun a ha => ?_
  have hok : (Act.submit fresh bufs views a.size).Counts (s.tr t) := ha
  refine (Prog.tracked_ite _ _ _ _ _).mpr ?_
  split
  · exact Prog.Tracked.bind (act (a := .releaseViews views) rfl) (fun _ => .pure _) s h
  · refine ⟨change_act hok, ?_⟩
    exact Prog.Tracked.bind maybePauseProtocol (fun _ => .pure _) _ (h.act hok rfl)

theorem writeBufs (origin : Origin) (bufs : List Bytes) (views : List ℕ) :
    Forward starving (writeBufs t origin bufs views) := by
  have hrefuse : ∀ r : Except Exc Bool, Forward starving
      (Stream.act t (.releaseViews views) >>= fun _ => Pure.pure r) :=
    fun r => .bind (act rfl) fun _ => .pure r
  refine .bind (.bind (self t) fun _ => .ite (hrefuse _) (.ite (hrefuse _) (.pure _)))
    fun r => ?_
  match r with
  | .error _ => exact .pure _
  | .ok false => exact .pure _
  | .ok true =>
    refine .bind (self t) fun _ => .ite (.bind (request _) fun _ => .ite (.bind (act rfl)
      fun _ => .ite (.bind (act rfl) fun _ => .pure _) ?_) (.ite ?_ (queueWrite _ _ _)))
      (queueWrite _ _ _)
    · refine .bind (queueWrite _ _ _) fun r => ?_
      match r with
      | .ok () => exact .pure _
      | .error _ => exact .ite (.bind (act rfl) fun _ => .pure _) (.pure _)
    · exact .bind (act rfl) fun _ => .bind (forceClose _ _) fun _ => .pure _

theorem flushPending : Forward starving (flushPending t) := by
  refine .bind (self t) fun tr => .ite (.pure ()) (.bind (act rfl) fun _ =>
    .bind (writeBufs _ _ _) fun r => ?_)
  match r with
  | .error _ => exact forceClose _ _
  | .ok () => exact maybeResumeProtocol

/-- A transport is put on the flush list. -/
theorem queueFlush : Forward starving (Stream.update fun s => s.queueFlush t) := by
  refine fun s h => h.setFlushQueued fun u => ⟨true, ?_⟩
  rw [State.tr_queueFlush]
  split
  · exact .inl rfl
  · exact .inr rfl

theorem scheduleFlush : Forward starving (scheduleFlush t) :=
  .bind getState fun _ => .ite (act rfl) (.ite queueFlush (.pure ()))

theorem makeRoomBody : Forward starving (makeRoomBody t) :=
  .bind flushPending fun _ => .bind (self t) fun _ => .ite (.pure ())
    (.ite (.invoke _) (.pure ()))

theorem appendPending (bufs : List Buf) : Forward starving (appendPending t bufs) := by
  induction bufs with
  | nil => exact scheduleFlush
  | cons b rest ih =>
    have hstore : Forward starving
        (Stream.act t (.store b) >>= fun _ => Stream.appendPending t rest) :=
      .bind (act rfl) fun _ => ih
    exact .bind (self t) fun _ => .ite (.bind (.invoke _) fun _ => .bind (self t) fun _ =>
      .ite (act rfl) hstore) hstore

theorem acceptsWrite (views : List ℕ) : Forward starving (acceptsWrite t views) :=
  .bind (self t) fun _ => .ite (.bind (act rfl) fun _ => .pure _)
    (.ite (.bind (act rfl) fun _ => .pure _) (.pure _))

theorem submitWrite (bufs : List Buf) : Forward starving (submitWrite t bufs) := by
  refine .bind (self t) fun tr => .ite (.bind (writeBufs _ _ _) fun r => ?_)
    (.bind (acceptsWrite _) fun r => ?_)
  · match r with
    | .error _ => exact .pure _
    | .ok () => exact .bind maybeResumeProtocol fun _ => .pure _
  · match r with
    | .error _ => exact .pure _
    | .ok false => exact .pure _
    | .ok true =>
      exact .bind (appendPending bufs) fun _ => .bind getState fun _ =>
        .ite (.bind flushPending fun _ => .pure _) (.pure _)

/-! ### Closing -/

theorem shutdownWrite : Forward starving (shutdownWrite t) :=
  .bind alloc fun _ => .ite (.bind (request _) fun _ => act rfl) (forceClose _ _)

theorem closeTransport : Forward starving (closeTransport t) := by
  have hclose : ∀ tr : Transport, Forward starving
      (if tr.writeBufferSize = 0 then Stream.shutdownAndClose t else Pure.pure ()) :=
    fun _ => .ite shutdownAndClose (.pure ())
  refine .bind (act rfl) fun _ => .bind (self t) fun _ => .ite (.pure ()) (.bind flushPending
    fun _ => .bind (act rfl) fun _ => .bind (self t) fun tr => ?_)
  exact .ite (act rfl) (.ite (.bind (act rfl) fun _ => hclose tr) (hclose tr))

/-- A write that failed closes the transport before anyone is told. -/
theorem forceClose_of_failed {exc : Option Exc}
    (h : ∀ u ≠ t, (s.tr u).failed = true → (s.tr u).closing = true) :
    (Stream.forceClose t .peer exc).tracked (env starving) progress
      (fun _ s' => FailedClosed s') s := by
  refine ⟨change_act trivial, change_act trivial, change_act trivial, change_act trivial, ?_⟩
  have hclosed : FailedClosed ((((s.act t .setCloseRequested).act t .discardPending).act t
      (.force .peer exc)).act t .setClosing) := by
    intro u hf
    by_cases hu : u = t
    · rw [hu, State.tr_act_self]
      simp only [Act.run]
      split
      · assumption
      · rfl
    · iterate 4 rw [State.tr_act_ne _ hu] at hf ⊢
      exact h u hu hf
  have hrest : Forward starving (do
      Stream.act t .clearWriteBufferSize
      let tr ← Stream.self t
      if tr.allocatingReadBuffer then Stream.act t .setReadStatePending
      else Stream.shutdownAndClose t) :=
    .bind (act rfl) fun _ => .bind (self t) fun _ => .ite (act rfl) shutdownAndClose
  exact hrest _ hclosed

/-- A write request completed. -/
theorem onWritten {status : Int} {queueSize : ℕ} (h : FailedClosed s)
    (hq : queueSize ≤ (s.tr t).stream.queueSize)
    (hopened : (s.tr t).opened = false → (s.tr t).closing = true) :
    (Stream.onWritten t status queueSize).tracked (env starving) progress
      (fun _ s' => FailedClosed s') s := by
  rw [Stream.onWritten, Prog.tracked_bind, tracked_self]
  split
  · exact h
  rename_i r rest hrequests
  have hok : (Act.completed (decide (0 ≤ status)) r rest queueSize).Counts (s.tr t) :=
    ⟨hrequests, hq⟩
  refine ⟨change_act hok, (Prog.tracked_ite _ _ _ _ _).mpr ?_⟩
  split
  · rename_i hfailed
    refine (Prog.tracked_ite _ _ _ _ _).mpr ?_
    split
    · refine forceClose_of_failed fun u hu => ?_
      rw [State.tr_act_ne _ hu]
      exact h u
    · rename_i hnot
      intro u hf
      by_cases hu : u = t
      · rw [hu, State.tr_act_self]
        exact hopened ((Bool.not_eq_true _).mp hnot)
      · rw [State.tr_act_ne _ hu] at hf ⊢
        exact h u hf
  · rename_i hstatus
    have h₁ := h.act hok (by simp [Act.fails]; omega)
    refine Prog.Tracked.bind maybeResumeProtocol (fun _ => ?_) _ h₁
    exact .bind (self t) fun _ => .ite (.ite shutdownAndClose
      (.ite shutdownWrite (.pure ()))) (.pure ())

theorem scheduleCall {m : Method} {call : Transport → Call} {queued : Act}
    (hq : queued.inner = true) : Forward starving (scheduleCall t m call queued) := by
  refine .bind getState fun s₀ => .ite (.bind alloc fun _ => .ite (.bind alloc fun ok => ?_)
    (update fun _ => rfl)) (.pure ())
  split
  · exact update fun _ => rfl
  · rename_i ready _
    -- the act works on a state with another ready queue
    intro s h
    have hok := Act.counts_of_inner hq ((s.setReady ready).tr t)
    have h₁ : FailedClosed (s.setReady ready) := h.of_tr rfl
    exact ⟨change_act (s := s.setReady ready) hok, h₁.act hok (Act.fails_of_inner hq)⟩

theorem onClosed : Forward starving (onClosed t) := by
  have hdrop : Forward starving (dropHandleRef t) := .bind (act rfl) fun _ => python nofun
  have hdetach : Forward starving (detachServer t) :=
    .bind (self t) fun _ => .ite (.bind (act rfl) fun _ => .bind (python nofun) fun _ => hdrop)
      hdrop
  exact .bind (update fun _ => rfl) fun _ => .bind (act rfl) fun _ =>
    .bind (scheduleCall rfl) fun _ => hdetach

/-! ### Reading -/

theorem callInContext {m : Method} (hm : m ≠ .resumeWriting) :
    Forward starving (callInContext t m) := by
  refine .bind (self t) fun _ => .ite (.bind (request _) fun _ => .ite (.bind (act rfl) fun _ =>
    .bind (foreign fun u h => ?_) fun r => ?_) (python nofun)) (.pure ())
  · exact hm (Callback.protocol.inj h).2
  split
  · exact .pure ()
  · exact .bind (update fun _ => rfl) fun _ => forceClose _ _
  · exact .bind (python nofun) fun _ => forceClose _ _

theorem onAlloc : Forward starving (onAlloc t) := by
  have hexport : Forward starving (do
      let a ← Stream.request .exportBuffer
      if a.ok then
        let tr ← Stream.self t
        return !tr.readStatePending && a.size != 0
      else
        Stream.python .exceptionHandler
        return false) :=
    .bind (request _) fun _ => .ite (.bind (self t) fun _ => .pure _)
      (.bind (python nofun) fun _ => .pure _)
  exact .bind (self t) fun _ => .ite (.bind (act rfl) fun _ => .bind alloc fun _ =>
    .ite (.bind (act rfl) fun _ => .bind (foreign nofun) fun _ =>
      .ite (.bind (python nofun) fun _ => .pure _) hexport) (.pure _)) alloc

theorem handleEof : Forward starving (handleEof t) :=
  .bind (act rfl) fun _ => .bind (self t) fun _ => .ite (.bind (act rfl) fun _ =>
    .bind (foreign nofun) fun _ => .ite (.bind (python nofun) fun _ => closeTransport)
      (.ite closeTransport (.pure ()))) closeTransport

theorem finishDeferred : Forward starving (finishDeferred t) := by
  have hclose : ∀ tr : Transport, Forward starving
      (if tr.closing && tr.writeBufferSize == 0 then Stream.shutdownAndClose t
        else Pure.pure ()) := fun _ => .ite shutdownAndClose (.pure ())
  exact .bind (act rfl) fun _ => .bind (self t) fun tr =>
    .ite (.bind (act rfl) fun _ => hclose tr) (hclose tr)

theorem deliver (buffered : Bool) : Forward starving (deliver t buffered) :=
  .bind alloc fun _ => .ite (forceClose _ _) (.ite (callInContext nofun) (callInContext nofun))

theorem onRead (nread : Int) : Forward starving (onRead t nread) :=
  .bind (self t) fun _ => .bind (act rfl) fun _ => .ite finishDeferred (.ite
    (.ite (.ite (forceClose _ _) closeTransport) (.pure ()))
    (.ite (deliver _) (.ite (.ite handleEof (forceClose _ _)) (.pure ()))))

theorem readable : Forward starving (readable t) :=
  .bind onAlloc fun _ => .ite (.bind (request _) fun _ =>
    .ite (.bind (act rfl) fun _ => onRead _)
      (.bind (onRead _) fun _ => .ite (act rfl) (.pure ()))) (onRead _)

theorem startReading : Forward starving (startReading t) :=
  .bind (self t) fun _ => .ite (.pure _) (.bind (request _) fun _ =>
    .ite (.pure _) (.bind (act rfl) fun _ => .pure _))

/-! ### Python methods -/

theorem acquireWriteView : Forward starving (acquireWriteView t) := by
  refine .bind (foreign nofun) fun r => ?_
  split
  · exact .pure _
  · exact .bind (self t) fun _ => .bind (act rfl) fun _ => .pure _

theorem write : Forward starving (write t) := by
  refine .bind acquireWriteView fun r => ?_
  match r with
  | .error _ => exact .pure _
  | .ok b =>
    exact .bind (self t) fun _ => .ite (.bind (act rfl) fun _ => .pure _)
      (.ite (.bind (act rfl) fun _ => .pure _) (submitWrite _))

theorem acquireAll (n : ℕ) (bufs : List Buf) : Forward starving (acquireAll t n bufs) := by
  induction n generalizing bufs with
  | zero => exact .pure _
  | succ n ih =>
    refine .bind acquireWriteView fun r => ?_
    match r with
    | .error _ => exact .bind (act rfl) fun _ => .pure _
    | .ok b => exact ih (bufs ++ [b])

theorem writelines : Forward starving (writelines t) := by
  refine .bind (self t) fun _ => .ite (.pure _) (.bind (foreign nofun) fun r => ?_)
  split
  · exact .pure _
  · refine .ite (.pure _) (.bind alloc fun _ => .ite (.pure _) (.bind (acquireAll _ _)
      fun r => ?_))
    match r with
    | .error _ => exact .pure _
    | .ok bufs => exact submitWrite bufs

theorem writeEof : Forward starving (writeEof t) :=
  .bind (self t) fun _ => .ite (.pure ()) (.bind (act rfl) fun _ => .bind flushPending fun _ =>
    .bind (act rfl) fun _ => .bind (self t) fun _ => .ite shutdownWrite (.pure ()))

theorem close : Forward starving (close t) :=
  .bind (self t) fun _ => .ite (.bind (act rfl) fun _ => closeTransport) closeTransport

theorem pauseReading : Forward starving (pauseReading t) := by
  have hpaused : ∀ (tr : Transport) (early : Bool), Forward starving
      (if !tr.allocatingReadBuffer then Stream.act t (.readingPaused early) else Pure.pure ()) :=
    fun _ _ => .ite (act rfl) (.pure ())
  exact .bind getState fun _ => .bind (self t) fun tr => .ite (.ite (.bind (act rfl) fun _ =>
    hpaused tr _) (.bind (act rfl) fun _ => hpaused tr _)) (hpaused tr _)

theorem startReadingMethod : Forward starving (startReadingMethod t) := by
  refine .bind (act rfl) fun _ => .bind startReading fun r => ?_
  match r with
  | .ok () => exact .pure ()
  | .error _ => exact forceClose _ _

theorem waterMark (given : Bool) (message : String) :
    Forward starving (waterMark given message) := by
  refine .ite (.pure _) (.bind (foreign nofun) fun r => ?_)
  split
  · exact .pure _
  · exact .ite (.pure _) (.pure _)

theorem setWriteBufferLimits (high low : Bool) :
    Forward starving (setWriteBufferLimits t high low) := by
  have hparse : Forward starving (parseLimits high low) := by
    refine .bind (waterMark _ _) fun r => ?_
    match r with
    | .error _ => exact .pure _
    | .ok high =>
      refine .bind (waterMark _ _) fun r => ?_
      match r with
      | .error _ => exact .pure _
      | .ok low => exact .pure _
  refine .bind hparse fun r => ?_
  match r with
  | .error _ => exact .bind (act rfl) fun _ => .pure _
  | .ok marks => exact .bind (act rfl) fun _ => .bind maybePauseProtocol fun _ => .pure _

/-! ### The loop -/

theorem drain (ts : List ℕ) : Forward starving (drain ts) := by
  induction ts with
  | nil => exact .pure ()
  | cons t rest ih =>
    have hvisit : Forward starving (Stream.update fun s => s.visit t rest) := by
      refine fun s h => h.setFlushQueued fun u => ⟨false, ?_⟩
      rw [State.tr_visit]
      split
      · exact .inl rfl
      · exact .inr rfl
    exact .bind hvisit fun _ => .bind flushPending fun _ => .bind (python nofun) fun _ => ih

theorem drainFlushList : Forward starving drainFlushList :=
  .bind getState fun _ => .bind (update fun _ => rfl) fun _ => drain _

theorem onFlush : Forward starving onFlush :=
  .bind (update fun _ => rfl) fun _ => .bind drainFlushList fun _ =>
    update fun s => by
      rw [State.endFlush]
      split <;> rfl

theorem runOne (call : Call) : Forward starving (runOne call) := by
  cases call with
  | connectionMade u | connectionLost u => exact .bind (act rfl) fun _ => python nofun
  | startReading u => exact startReadingMethod
  | setResult | other => exact python nofun

theorem runReadyLoop (n : ℕ) : Forward starving (runReadyLoop n) := by
  induction n with
  | zero => exact .pure ()
  | succ n ih =>
    refine .bind getState fun s₀ => ?_
    split
    · exact .pure ()
    · exact .bind (update fun _ => rfl) fun _ => .bind (runOne _) fun _ =>
        .bind (python nofun) fun _ => ih

theorem onIdle : Forward starving onIdle :=
  .bind getState fun _ => .bind (runReadyLoop _) fun _ => update fun _ => rfl

theorem callSoon : Forward starving callSoon := by
  refine .bind getState fun _ => .ite (.pure _) (.bind alloc fun _ => ?_)
  split
  · exact .pure _
  · exact .bind (update fun _ => rfl) fun _ => .pure _

theorem runBegin : Forward starving runBegin :=
  .bind getState fun _ => .ite (.pure _) (.ite (.pure _) (.bind (update fun _ => rfl)
    fun _ => .pure _))

theorem runEnd : Forward starving runEnd :=
  .bind (update fun _ => rfl) fun _ => .bind drainFlushList fun _ => update fun _ => rfl

theorem makeTransport {writePipe : Bool} {p : Protocol} {server reads waiter : Bool}
    (h : FailedClosed s) (hblank : s.tr s.fresh = .blank) :
    (Stream.makeTransport writePipe p server reads waiter).tracked (env starving) progress
      (fun _ s' => FailedClosed s') s := by
  refine (Prog.tracked_bind _ _ _ _).mpr ((Prog.tracked_ite _ _ _ _ _).mpr ?_)
  split
  · exact h
  refine (Prog.tracked_ite _ _ _ _ _).mpr ?_
  split
  · exact h
  refine (tracked_alloc _ _).mpr fun a _ => (Prog.tracked_ite _ _ _ _ _).mpr ?_
  split
  · exact h
  refine (tracked_alloc _ _).mpr fun a' _ => ?_
  split
  · exact h
  refine fun b _ => (Prog.tracked_ite _ _ _ _ _).mpr ?_
  split
  · exact h
  refine fun b' _ => (Prog.tracked_ite _ _ _ _ _).mpr ?_
  split
  · exact ⟨change_of_tr rfl, h.of_tr rfl⟩
  split
  · exact ⟨change_of_tr rfl, h.of_tr rfl⟩
  · exact h.addTransport hblank writePipe p server rfl

/-- Every entry point takes nothing back. -/
theorem run {op : Op} (h : FailedClosed s) (hready : Ready s op)
    (hmade : ∀ t, op.transport? = some t → (s.tr t).made = true)
    (hopened : ∀ t, (s.tr t).made = true → (s.tr t).opened = false → (s.tr t).closing = true)
    (hblank : s.tr s.fresh = .blank) :
    (Stream.run op).tracked (env starving) progress (fun _ s' => FailedClosed s') s := by
  cases op with
  | write t => exact Prog.Tracked.map write _ s h
  | writelines t => exact Prog.Tracked.map writelines _ s h
  | writeEof t => exact writeEof s h
  | close t => exact close s h
  | abort t | forceClose t exc => exact forceClose _ _ s h
  | pauseReading t => exact pauseReading s h
  | resumeReading t =>
    exact Prog.Tracked.map (.bind (act (a := .resumeReading) rfl) fun _ => startReading) _ s h
  | setWriteBufferLimits t high low => exact Prog.Tracked.map (setWriteBufferLimits _ _) _ s h
  | setProtocol t p => exact act (a := .bindProtocol p) rfl s h
  | adoptSocketView t =>
    exact Prog.Tracked.bind releaseSocketView (fun _ => act (a := .adopt false) rfl) s h
  | adoptPipe t => exact act (a := .adopt true) rfl s h
  | makeTransport writePipe p server reads waiter =>
    exact (Prog.tracked_map _ _ _ _).mpr (makeTransport h hblank)
  | callSoon => exact Prog.Tracked.map callSoon _ s h
  | stop | poll => exact ⟨change_of_tr rfl, h.of_tr rfl⟩
  | runBegin => exact Prog.Tracked.map runBegin _ s h
  | runEnd => exact runEnd s h
  | onIdle => exact onIdle s h
  | prepare => exact Prog.Tracked.bind getState (fun _ => .ite onFlush (.pure ())) s h
  | readable t => exact readable s h
  | drain t queueSize =>
    have hok : (Act.drained queueSize).Counts (s.tr t) := hready
    exact ⟨change_act hok, h.act hok rfl⟩
  | onWritten t status queueSize => exact onWritten h hready.2 (hopened t (hmade t rfl))
  | onClosed t => exact onClosed s h
  | onOpenFailed =>
    exact Prog.Tracked.bind (update fun _ => rfl) (fun _ => python (c := .finalizer) nofun) s h
  | onOther => exact python (c := .other) nofun s h

end Forward

/-! ## Results -/

/-- The transports make progress. -/
theorem progress_tracks : Tracks system (env starving) progress (Inv starving) where
  init := fun _ hf => by cases hf
  body := fun f => by
    cases f with
    | makeRoom t => exact Forward.makeRoomBody
  entry := fun stack s op hstart hinv h => by
    have hfinish : Forward starving (finish op) := by
      cases op <;> exact Forward.update fun _ => rfl
    have hmade (t : ℕ) (ht : op.transport? = some t) : (s.tr t).made = true := by
      have hall := hstart.1
      rw [ht] at hall
      exact hall
    refine (Prog.tracked_bind _ _ _ _).mpr ⟨change_of_tr rfl, (Prog.tracked_bind _ _ _ _).mpr ?_⟩
    have henter : FailedClosed s.enter := h.of_tr rfl
    have hrun : (Stream.run op).tracked (env starving) progress (fun _ s' => FailedClosed s')
        s.enter :=
      Forward.run henter hstart.2.1 hmade (fun t => (hinv.reach.sane t).closing)
        (hinv.reach.global.blank _ le_rfl)
    exact Prog.tracked_mono hrun fun _ s' h' => hfinish s' h'

section reachable

variable {stack : List (Callback × (Result → P Unit))}

/-- What is known of every state in which Python code or libuv is in control. -/
theorem inv_of_reachable {s : State} {stack : List (Callback × (Result → P Unit))}
    (h : system.Reachable (env starving) ⟨s, none, stack⟩) : Inv starving s :=
  (verified starving).in_foreign (not_quiet starving) h

/-- A write that failed has closed the transport. -/
theorem closing_of_failed (h : system.Reachable (env starving) ⟨s, none, stack⟩)
    (hf : (s.tr t).failed = true) : (s.tr t).closing = true :=
  progress_tracks.inv (fun _ _ => inv_of_reachable) h t hf

/-- No step of the machine takes anything back. -/
theorem beyond {c c' : Config sig} {l : Label sig} (h : system.Reachable (env starving) c)
    (hstep : system.step l c = some c') (t : ℕ) : (c.state.tr t).Beyond (c'.state.tr t) := by
  rcases progress_tracks.change (fun _ _ => inv_of_reachable) h hstep with heq | hchange
  · rw [heq]
    exact .refl _
  · exact hchange t

/-- When `resume_writing` is called, the transport is open, and no more is waiting than the
low-water mark allows. -/
theorem resumed {k : Result → P Unit}
    (h : system.Reachable (env starving) ⟨s, some (.yield (.protocol t .resumeWriting) k), stack⟩) :
    (s.tr t).isClosing = false ∧ (s.tr t).bufferedBytes ≤ (s.tr t).lowWater :=
  progress_tracks.calls (fun _ _ => inv_of_reachable) h t rfl

/-- An open transport with nothing buffered has sent everything it has accepted, unless a vector was
torn. -/
theorem sent_of_empty (h : system.Reachable (env starving) ⟨s, none, stack⟩)
    (hopen : (s.tr t).isClosing = false) (hempty : (s.tr t).bufferedBytes = 0)
    (htorn : (s.tr t).torn = false) : (s.tr t).sent = (s.tr t).accepted := by
  have hinv := inv_of_reachable h
  by_cases hmade : (s.tr t).made = true
  swap
  · have hfresh := mt (hinv.reach.global.made t) hmade
    rw [hinv.reach.global.blank t (not_lt.mp hfresh)]
    rfl
  have hsane := hinv.reach.sane t
  have hset := hinv.settled t
  have hclosing : (s.tr t).closing = false := (Bool.or_eq_false_iff.mp hopen).1
  have hnot : ¬ (s.tr t).closing = true := by simp [hclosing]
  -- nothing is pending, and nothing is with libuv
  obtain ⟨hqueued, hpending⟩ := Nat.add_eq_zero_iff.mp hempty
  have hbytes : (s.tr t).handedOver = (s.tr t).accepted := by
    have hnil : (s.tr t).pendingBytes = [] :=
      List.eq_nil_of_length_eq_zero (hsane.size.symm.trans hpending)
    have heq := (hset.bytes htorn).2 hclosing
    rwa [hnil, List.append_nil] at heq
  have hopened : (s.tr t).opened = true := by
    by_contra ho
    exact hnot (hsane.closing hmade ((Bool.not_eq_true _).mp ho))
  have hsum : (s.tr t).writeBufferSize = (s.tr t).requestSize :=
    (hset.base.sum hopened).resolve_right fun hc => hnot hc.1
  have hfailed : (s.tr t).failed = false :=
    (Bool.not_eq_true _).mp fun hf => hnot (closing_of_failed h hf)
  have hwritten := (hinv.reach.ledger t).written hfailed
  have htaken : (s.tr t).taken = (s.tr t).handedOver.length := by
    rw [Transport.taken, ← hwritten]
    split at hqueued
    · rename_i hzero
      rw [← hsum, hzero, Nat.zero_sub]
    · rw [hqueued, Nat.sub_zero]
  rw [Transport.sent, htaken, List.take_length, hbytes]

end reachable

end Zuvloop.Stream
