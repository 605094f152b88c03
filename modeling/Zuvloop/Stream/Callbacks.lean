import Zuvloop.Stream.Methods

/-!
# The callbacks of the transport

The rules for what libuv calls: a completed write, a closed stream and a readable one. A callback
starts and ends in states in which control may be given away, but its steps are not those of
Python code.
-/

namespace Zuvloop.Stream

open Reentrant

variable {starving : Prop} {t : ℕ} {s : State}

/-! ## Callbacks of libuv -/

/-- A callback of libuv that works on transport `t` goes from `s` to `s'`, where control may be
given away. -/
structure Serves (starving : Prop) (t : ℕ) (s s' : State) : Prop where
  /-- The transport and the loop are in order. -/
  mid : Mid starving t s'
  /-- The transport is settled. -/
  settled : Settled starving (s'.tr t)
  /-- The rest is as it was. -/
  frame : Frame s s'

namespace Serves

variable {s₁ s₂ s₃ : State}

theorem refl (h : Mid starving t s) (ht : Settled starving (s.tr t)) : Serves starving t s s :=
  ⟨h, ht, .refl s⟩

theorem trans (h₁ : Serves starving t s₁ s₂) (h₂ : Serves starving t s₂ s₃) :
    Serves starving t s₁ s₃ :=
  ⟨h₂.mid, h₂.settled, h₁.frame.trans h₂.frame⟩

theorem leads (h₁ : Serves starving t s₁ s₂) (h₂ : Leads starving t s₂ s₃) :
    Serves starving t s₁ s₃ :=
  ⟨h₂.mid, h₂.settled, h₁.frame.trans h₂.frame⟩

theorem ends (h : Serves starving t s₁ s₂) : Ends starving s₁ s₂ :=
  ⟨h.mid.inside h.settled, h.frame⟩

end Serves

theorem Leads.serves {s' : State} (h : Leads starving t s s') : Serves starving t s s' :=
  ⟨h.mid, h.settled, h.frame⟩

/-- An act of a libuv callback that a settled transport does not notice. -/
theorem Mid.servesAct (h : Mid starving t s) (ht : Settled starving (s.tr t)) {a : Act}
    (hplain : a.plain = true) (hok : a.Allowed (s.tr t))
    (he : (a.run (s.tr t)).essence = (s.tr t).essence)
    (hh : Grows (s.tr t).history (a.run (s.tr t)).history)
    (hd : (a.run (s.tr t)).disarming = (s.tr t).disarming)
    (hheld : (a.run (s.tr t)).held = (s.tr t).held) : Serves starving t s (s.act t a) where
  mid := h.act hplain hok
  settled := by
    rw [State.tr_act_self]
    exact ht.of_essence he hh
  frame := (FrameBut.act hd (congrArg Transport.allocatingReadBuffer he :)).frame
    (by rw [State.tr_act_self, hheld])

/-- A write request completes. -/
theorem wp_onWritten {status : Int} {queueSize : ℕ} {Q : Unit → State → Prop}
    (h : Mid starving t s) (ht : Settled starving (s.tr t))
    (hqueue : queueSize ≤ (s.tr t).stream.queueSize)
    (hQ : ∀ s', Serves starving t s s' → Q () s') :
    (onWritten t status queueSize).wp (env starving) (spec starving) Q s := by
  simp only [onWritten, Prog.wp_bind, wp_self]
  cases hreq : (s.tr t).stream.requests with
  | nil => exact hQ s (.refl h ht)
  | cons r rest =>
    simp only [Prog.wp_bind, wp_act, Prog.wp_ite, wp_self, Prog.wp_pure]
    let a : Act := .completed (decide (0 ≤ status)) r rest queueSize
    let s₁ := s.act t a
    have h₁ : Mid starving t s₁ := h.act rfl ⟨hreq, hqueue⟩
    have htr : s₁.tr t = a.run (s.tr t) := State.tr_act_self ..
    have hframe : Frame s s₁ := (FrameBut.act rfl rfl).frame (by rw [htr]; rfl)
    have hhist : (s.tr t).history ⊆ (s₁.tr t).history := by
      rw [htr]
      change (s.tr t).history ⊆ if _ then _ else _
      split
      · exact List.Subset.refl _
      · exact List.subset_append_left _ _
    have hsum : (s₁.tr t).opened = true → (s₁.tr t).writeBufferSize = (s₁.tr t).requestSize ∨
        (s₁.tr t).closing = true ∧ (s₁.tr t).writeBufferSize = 0 ∧
          (s₁.tr t).readStatePending = true := by
      rw [htr]
      change (s.tr t).opened = true → (s.tr t).writeBufferSize -
        min r.size (s.tr t).writeBufferSize = (rest.map WriteReq.size).sum ∨ (s.tr t).closing =
          true ∧ (s.tr t).writeBufferSize - min r.size (s.tr t).writeBufferSize = 0 ∧
            (s.tr t).readStatePending = true
      intro ho
      rcases ht.base.sum ho with hs | ⟨hc, hs, hp⟩
      · rw [Transport.requestSize, hreq, List.map_cons, List.sum_cons] at hs
        exact .inl (by omega)
      · exact .inr ⟨hc, by omega, hp⟩
    have hc : Closable starving (s₁.tr t) := by
      rw [htr] at hhist ⊢
      refine ⟨ht.base.pendingRead, fun hn hcomplete hl => ?_, fun hl hs => ?_, fun htorn => ?_⟩
      · have hany := ht.base.lost hn hcomplete hl
        rw [List.any_eq_true] at hany ⊢
        exact hany.imp fun e he => ⟨hhist he.1, he.2⟩
      · exact hhist (ht.base.detached hl hs)
      · exact (ht.bytes htorn).1
    have hq : Queued (s₁.tr t) := by
      rw [htr]
      exact ht.queued
    have hk : Kept (s₁.tr t) := by
      rw [htr]
      exact ht.kept.run ⟨by simp, by simp⟩
    have hclosingEq : (s₁.tr t).closing = (s.tr t).closing := by rw [htr]; rfl
    -- the close or the half-close that waited for the completion
    have hdone : ∀ s₂, Serves starving t s s₂ →
        if (s₂.tr t).writeBufferSize = 0 then
          if (s₂.tr t).closing = true then
            (shutdownAndClose t).wp (env starving) (spec starving) Q s₂
          else if (s₂.tr t).eofWritten = true then
            (shutdownWrite t).wp (env starving) (spec starving) Q s₂
          else Q () s₂
        else Q () s₂ := by
      intro s₂ hs₂
      split
      · rename_i hsize
        split
        · rename_i hclosing
          exact wp_shutdownAndClose hs₂.mid hclosing hs₂.settled.closable hs₂.settled.queued
            (.inr ⟨hsize, hs₂.settled.kept⟩) fun s' hl _ => hQ s' (hs₂.leads hl)
        split
        · exact wp_shutdownWrite hs₂.mid hs₂.settled hsize fun s' hl => hQ s' (hs₂.leads hl)
        · exact hQ s₂ hs₂
      · exact hQ s₂ hs₂
    split
    · split
      · exact wp_forceClose _ _ h₁ hc (by simp) fun s' hl _ => hQ s' ⟨hl.mid, hl.settled,
          hframe.trans hl.frame⟩
      · rename_i hopened
        rw [Bool.not_eq_true] at hopened
        have hopened₁ : (s₁.tr t).opened = false := by rw [htr]; exact hopened
        exact hQ s₁ ⟨h₁, hc.settled (h₁.sane.closing h₁.made hopened₁) hopened₁ hq hk, hframe⟩
    cases hclosing : (s.tr t).closing with
    | false =>
      have hb : Base starving (s₁.tr t) := by
        refine ⟨fun hcl => ?_, hsum, hc.pendingRead, hc.lost, hc.detached⟩
        rw [hclosingEq, hclosing] at hcl
        cases hcl
      refine wp_maybeResumeProtocol h₁ hb ?_ ?_ hq hk fun s₂ hl =>
        hdone s₂ ⟨hl.mid, hl.settled, hframe.trans hl.frame⟩
      · rw [htr]
        exact ht.bytes
      · rw [htr]
        change (s.tr t).closing = false → 0 < (s.tr t).writeBufferSize -
          min r.size (s.tr t).writeBufferSize → (s.tr t).highWater < queueSize → _
        exact fun hcl hpos hhigh => ht.above hcl (by omega) (by omega)
    | true =>
      -- a closing transport resumes nothing
      have hclosing₁ : (s₁.tr t).closing = true := hclosingEq.trans hclosing
      simp only [maybeResumeProtocol, Prog.wp_bind, wp_self, Prog.wp_ite, Prog.wp_pure]
      rw [if_pos (by rw [Transport.isClosing, hclosing₁, Bool.true_or])]
      by_cases hsize : (s₁.tr t).writeBufferSize = 0
      · rw [if_pos hsize, if_pos hclosing₁]
        exact wp_shutdownAndClose h₁ hclosing₁ hc hq (.inr ⟨hsize, hk⟩) fun s' hl _ =>
          hQ s' ⟨hl.mid, hl.settled, hframe.trans hl.frame⟩
      · rw [if_neg hsize]
        have hb : Base starving (s₁.tr t) := ⟨fun _ _ => .inl (Nat.pos_of_ne_zero hsize), hsum,
          hc.pendingRead, hc.lost, hc.detached⟩
        exact hQ s₁ ⟨h₁, hb.settled_of_closing hclosing₁ hc.bytes hq hk, hframe⟩

/-- As long as every protocol bound was complete, the one bound last is. -/
theorem Reachable.complete {s : State} (h : Reachable s) (t : ℕ)
    (hc : (s.tr t).complete = true) : (s.tr t).protocol.complete = true := by
  revert hc
  refine h.transport (I := fun tr => tr.complete = true → tr.protocol.complete = true) nofun
    (fun _ _ _ => id) (fun _ _ => id) (fun tr a _ _ hI => ?_) t
  cases a with
  | bindProtocol p => exact fun hc => (Bool.and_eq_true_iff.mp hc).2
  | setClosing =>
    unfold Act.run
    dsimp only
    split <;> exact hI
  | pauseWriting | resumeWriting =>
    unfold Act.run
    dsimp only
    rw [Transport.recordCall_eq]
    exact hI
  | _ => exact hI

/-- What is left of a transport once its connection is lost. -/
structure Gone (tr : Transport) : Prop where
  /-- Teardown has begun. -/
  closing : tr.closing = true
  /-- `OPEN` is cleared. -/
  opened : tr.opened = false
  /-- The close callback was called. -/
  lost : tr.connLost = true
  /-- Reading is left to `onRead` only while a receive buffer is being allocated. -/
  pendingRead : tr.readStatePending = true → tr.allocatingReadBuffer = true
  /-- What has been handed over has been accepted. -/
  bytes : tr.torn = false → tr.handedOver <+: tr.accepted
  /-- The flush. -/
  queued : Queued tr
  /-- The server has not been told. -/
  detach : Event.detach ∉ tr.history

/-- Dropping the reference runs finalizers. -/
theorem wp_dropHandleRef {s₀ : State} {Q : Unit → State → Prop} (h : Serves starving t s₀ s)
    (hQ : ∀ s', Serves starving t s₀ s' → Q () s') :
    (dropHandleRef t).wp (env starving) (spec starving) Q s := by
  simp only [dropHandleRef, Prog.wp_bind, wp_act, wp_python]
  have hs := h.mid.servesAct h.settled (a := .clearHandleRef) rfl trivial rfl
    (.refl _) rfl rfl
  exact wp_foreign hs.mid hs.settled fun _ s' hl => hQ s' ((h.trans hs).leads hl)

/-- The end of the close callback, once `connection_lost` has been queued or could not be. -/
theorem wp_detachServer {s₀ : State} {Q : Unit → State → Prop} (h : Mid starving t s)
    (hframe : Frame s₀ s) (hg : Gone (s.tr t))
    (hlost : ¬ starving → (s.tr t).complete = true →
      (s.tr t).history.any Event.isLostQueued = true)
    (hQ : ∀ s', Serves starving t s₀ s' → Q () s') :
    (detachServer t).wp (env starving) (spec starving) Q s := by
  simp only [detachServer, Prog.wp_bind, wp_self, Prog.wp_ite, wp_act, wp_python]
  split
  · rename_i hserver
    have hok : Act.detach.Allowed (s.tr t) := ⟨hg.lost, hserver, hg.detach⟩
    have hs₁ : Settled starving ((s.act t .detach).tr t) := by
      rw [State.tr_act_self]
      refine .of_closed hg.closing hg.opened hg.pendingRead (fun hn hc _ => ?_) (fun _ _ => ?_)
        hg.bytes hg.queued ((h.done hg.opened).kept.run ⟨by simp, by simp⟩)
      · have := hlost hn hc
        rw [List.any_eq_true] at this ⊢
        exact this.imp fun e he => ⟨List.mem_append_left _ he.1, he.2⟩
      · exact List.mem_append_right _ (List.mem_singleton_self _)
    have hframe₁ : Frame s₀ (s.act t .detach) :=
      hframe.trans ((FrameBut.act rfl rfl).frame (by rw [State.tr_act_self]; rfl))
    refine wp_foreign (h.act rfl hok) hs₁ fun _ s₂ hl => ?_
    exact wp_dropHandleRef ⟨hl.mid, hl.settled, hframe₁.trans hl.frame⟩ hQ
  · rename_i hserver
    refine wp_dropHandleRef ⟨h, ?_, hframe⟩ hQ
    exact .of_closed hg.closing hg.opened hg.pendingRead (fun hn hc _ => hlost hn hc)
      (fun _ hs => absurd hs hserver) hg.bytes hg.queued (h.done hg.opened).kept

/-- Queueing `connection_lost` fails only for want of memory, or if the protocol lacks it. -/
theorem wp_scheduleConnectionLost {s₀ : State} {Q : Unit → State → Prop} (h : Mid starving t s)
    (hframe : Frame s₀ s) (hg : Gone (s.tr t))
    (hnolost : (s.tr t).history.any Event.isLostQueued = false)
    (hQ : ∀ s', Mid starving t s' → Frame s₀ s' → Gone (s'.tr t) →
      (¬ starving → (s'.tr t).complete = true →
        (s'.tr t).history.any Event.isLostQueued = true) → Q () s') :
    (scheduleCall t .connectionLost (fun tr => .connectionLost t tr.connLostExc) .lostQueued).wp
      (env starving) (spec starving) Q s := by
  -- without memory the loop is told to stop
  have hfatal : starving → Q () (s.setCore Loop.Core.captureFatal) := by
    intro hs
    have hstep : Step true s (s.setCore Loop.Core.captureFatal) :=
      .core _ (sameFlush_captureFatal _) id rfl
    exact hQ _ ⟨h.reach.tail hstep.mono, h.others, h.depth, h.prepared, h.made⟩
      (hframe.trans ⟨rfl, rfl, rfl, fun _ => rfl, fun _ => rfl, fun _ => rfl⟩) hg
      fun hn => absurd hs hn
  simp only [scheduleCall, Prog.wp_bind, wp_getState, Prog.wp_ite, wp_alloc, wp_update,
    Prog.wp_pure]
  split
  swap
  · -- the protocol has no `connection_lost`
    rename_i hbound
    refine hQ s h hframe hg fun _ hcomplete => ?_
    have hc := h.reach.complete t hcomplete
    rw [Protocol.complete, Bool.and_eq_true_iff, Bool.and_eq_true_iff] at hc
    have hhas : (s.tr t).protocol.bound .connectionLost = true := hc.1.1
    rw [hhas, h.reach.global.opened] at hbound
    exact absurd rfl hbound
  intro ok hok
  split
  swap
  · rename_i hfalse
    exact hfatal (hok ((Bool.not_eq_true _).mp hfalse))
  intro ok' hok'
  split
  · rename_i hpush
    refine hfatal (hok' ?_)
    by_contra htrue
    obtain ⟨q, hq, -⟩ := s.ready.push_true (.connectionLost t (s.tr t).connLostExc)
    rw [(Bool.not_eq_false _).mp htrue] at hpush
    exact absurd (hq.symm.trans hpush) (by simp)
  · rename_i ready hpush
    have hstep₁ : Step false s ((s.setReady ready).act t .lostQueued) :=
      .lostQueued t _ ready rfl h.made ⟨hg.lost, hnolost⟩ (Queue.toList_of_push hpush)
    let s₁ := (s.setReady ready).act t .lostQueued
    have hstep₂ : Step true s₁ (s₁.setCore Loop.Core.startIdle) :=
      .core _ (sameFlush_startIdle _) startIdle_uvIdle (startIdle_running _)
    have htr : s₁.tr t = Act.lostQueued.run (s.tr t) := State.tr_act_self ..
    have hother : ∀ u ≠ t, s₁.tr u = s.tr u := fun u hu => State.tr_act_ne _ hu _
    refine hQ (s₁.setCore Loop.Core.startIdle) ⟨(h.reach.tail hstep₁).tail hstep₂.mono,
      fun u hu => ?_, h.depth, h.prepared, ?_⟩
      (hframe.trans ⟨rfl, rfl, rfl, fun u => ?_, fun u => ?_, fun u => ?_⟩) ?_ fun _ _ => ?_
    · change Settled starving (s₁.tr u)
      rw [hother u hu]
      exact h.others u hu
    · change (s₁.tr t).made = true
      rw [htr]
      exact h.made
    iterate 3
      by_cases hu : u = t
      · subst hu
        rw [show (s₁.setCore Loop.Core.startIdle).tr = s₁.tr from rfl, htr]
        rfl
      · exact congrArg _ (hother u hu)
    · change Gone (s₁.tr t)
      rw [htr]
      refine ⟨hg.closing, hg.opened, hg.lost, hg.pendingRead, hg.bytes, hg.queued, fun hmem => ?_⟩
      rcases List.mem_append.mp hmem with hmem | hmem
      · exact hg.detach hmem
      · cases List.mem_singleton.mp hmem
    · change (s₁.tr t).history.any Event.isLostQueued = true
      rw [htr]
      exact List.any_eq_true.mpr ⟨.connectionLostQueued (s.tr t).connLostExc,
        List.mem_append_right _ (List.mem_singleton_self _), rfl⟩

/-- The close callback. -/
theorem wp_onClosed {Q : Unit → State → Prop} (h : Mid starving t s)
    (ht : Settled starving (s.tr t)) (hf : s.flushing = false)
    (hready : Ready s (.onClosed t)) (hQ : ∀ s', Serves starving t s s' → Q () s') :
    (onClosed t).wp (env starving) (spec starving) Q s := by
  obtain ⟨huv, hnot, hreq⟩ := hready
  have hlost : (s.tr t).connLost ≠ true := by
    intro hl
    rw [h.sane.lost, hnot] at hl
    cases hl
  have hopened : (s.tr t).opened = false := by
    by_contra ho
    rw [(h.sane.opened ((Bool.not_eq_false _).mp ho)).1] at huv
    cases huv
  have hstep : Step false s s.externalHandleClosed :=
    .handleClosed s.failedOpens rfl hf h.prepared
  let s₀ := s.externalHandleClosed
  have h₀ : Mid starving t s₀ := ⟨h.reach.tail hstep, h.others, h.depth, h.prepared, h.made⟩
  let s₁ := s₀.act t .lost
  have h₁ : Mid starving t s₁ := h₀.act rfl ⟨huv, hnot, hreq⟩
  have htr : s₁.tr t = Act.lost.run (s.tr t) := State.tr_act_self ..
  have hframe : Frame s s₁ := by
    refine ⟨rfl, rfl, rfl, fun u => ?_, fun u => ?_, fun u => ?_⟩ <;>
    · by_cases hu : u = t
      · rw [hu, htr]
        rfl
      · rw [State.tr_act_ne _ hu]
        rfl
  have hg : Gone (s₁.tr t) := by
    rw [htr]
    exact ⟨h.sane.closing h.made hopened, hopened, rfl, ht.base.pendingRead,
      fun htorn => (ht.bytes htorn).1, ht.queued, fun hd => hlost (h.sane.detached hd)⟩
  have hnolost : (s₁.tr t).history.any Event.isLostQueued = false := by
    rw [htr]
    by_contra hq
    exact hlost (h.sane.lostQueued ((Bool.not_eq_false _).mp hq))
  simp only [onClosed, Prog.wp_bind, wp_update, wp_act]
  refine wp_scheduleConnectionLost h₁ hframe hg hnolost fun s₂ h₂ hframe₂ hg₂ hany => ?_
  exact wp_detachServer h₂ hframe₂ hg₂ hany hQ

/-! ## Reading -/

/-- Calling a method of the protocol from the read path. -/
theorem wp_callInContext {m : Method} {Q : Unit → State → Prop} (h : Mid starving t s)
    (ht : Settled starving (s.tr t)) (hlost : (s.tr t).connLost = false)
    (hshut : readingShut (s.tr t).history = false) (hm : m.flow = false)
    (heof : m ≠ .eofReceived) (hQ : ∀ s', Serves starving t s s' → Q () s') :
    (callInContext t m).wp (env starving) (spec starving) Q s := by
  simp only [callInContext, Prog.wp_bind, wp_self, Prog.wp_ite, wp_request, wp_python, wp_act,
    Prog.wp_pure]
  split
  swap
  · exact hQ s (.refl h ht)
  intro a _
  split
  swap
  · exact wp_foreign h ht fun _ s' hl => hQ s' hl.serves
  obtain ⟨hheld, hatEof⟩ := readingShut_eq_false.mp hshut
  have hs₁ := h.servesAct ht (a := .call m) rfl
    ⟨fun _ => hlost, fun _ => hheld, hm, fun _ => hatEof, fun hm => absurd hm heof⟩ rfl
    (.concat rfl) rfl rfl
  refine wp_foreign hs₁.mid hs₁.settled fun r s₂ hl₂ => ?_
  have hs₂ := hs₁.leads hl₂
  cases hr : r.raised with
  | none => exact hQ s₂ hs₂
  | some exc =>
    -- what the method raised is fatal to the connection
    have hraised : ∀ exc, (python .exceptionHandler).wp (env starving) (spec starving)
        (fun _ s' => (forceClose t .callback (some exc)).wp (env starving) (spec starving) Q s')
        s₂ := by
      intro exc
      rw [wp_python]
      refine wp_foreign hs₂.mid hs₂.settled fun _ s₃ hl₃ => ?_
      exact wp_forceClose _ _ hl₃.mid hl₃.settled.closable (by simp) fun s' hl _ =>
        hQ s' ((hs₂.leads hl₃).leads hl)
    cases exc with
    | exit =>
      simp only [Prog.wp_bind, wp_update]
      obtain ⟨he, -⟩ := (hs₂.mid.inside hs₂.settled).core (sameFlush_captureFatal _) id rfl
      have hm₃ : Mid starving t (s₂.setCore Loop.Core.captureFatal) := he.inside.mid hs₂.mid.made
      exact wp_forceClose _ _ hm₃ (he.inside.settled t).closable (by simp) fun s' hl _ =>
        hQ s' (Serves.leads ⟨hm₃, he.inside.settled t, hs₂.frame.trans he.frame⟩ hl)
    | _ =>
      simp only [Prog.wp_bind]
      exact hraised _

/-- A read is in progress: from `s`, where none was, it came to `s'`. -/
structure Receiving (starving : Prop) (t : ℕ) (s s' : State) : Prop where
  /-- The transport and the loop are in order. -/
  mid : Mid starving t s'
  /-- The transport is settled. -/
  settled : Settled starving (s'.tr t)
  /-- The rest is as it was. -/
  frame : ∃ b, Frame (s.act t (.setAllocating b)) s'
  /-- The connection is not lost. -/
  lost : (s'.tr t).connLost = false
  /-- Nothing keeps the transport from reading. -/
  shut : readingShut (s'.tr t).history = false

/-- Python code has run during a read that allocates a buffer. -/
theorem Receiving.leads {s₁ s₂ : State} (h : Receiving starving t s s₁)
    (halloc : (s₁.tr t).allocatingReadBuffer = true) (hl : Leads starving t s₁ s₂) :
    Receiving starving t s s₂ ∧ (s₂.tr t).allocatingReadBuffer = true := by
  have hcalm := hl.calm h.mid.reach
  obtain ⟨b, hframe⟩ := h.frame
  exact ⟨⟨hl.mid, hl.settled, ⟨b, hframe.trans hl.frame⟩, hcalm.connLost.trans h.lost,
    hcalm.shut halloc h.shut⟩, hcalm.allocating.trans halloc⟩

/-- Providing a receive buffer. -/
theorem wp_onAlloc {Q : Bool → State → Prop} (h : Mid starving t s)
    (ht : Settled starving (s.tr t)) (hlost : (s.tr t).connLost = false)
    (hshut : readingShut (s.tr t).history = false)
    (halloc : (s.tr t).allocatingReadBuffer = false)
    (hQ : ∀ b s', Receiving starving t s s' → Q b s') :
    (onAlloc t).wp (env starving) (spec starving) Q s := by
  simp only [onAlloc, Prog.wp_bind, wp_self, Prog.wp_ite, wp_act, wp_alloc, wp_request, wp_python,
    Prog.wp_pure]
  split
  swap
  · intro b _
    refine hQ b s ⟨h, ht, ⟨false, rfl, rfl, rfl, fun u => ?_, fun u => ?_, fun u => ?_⟩, hlost,
      hshut⟩ <;>
    · by_cases hu : u = t
      · rw [hu, State.tr_act_self]
        first | rfl | exact halloc
      · rw [State.tr_act_ne _ hu]
  let s₁ := s.act t (.setAllocating true)
  have h₁ : Mid starving t s₁ := h.act rfl trivial
  have htr : s₁.tr t = (Act.setAllocating true).run (s.tr t) := State.tr_act_self ..
  have hs₁ : Settled starving (s₁.tr t) := by
    rw [htr]
    exact ⟨⟨ht.base.live, ht.base.sum, fun _ => rfl, ht.base.lost, ht.base.detached⟩, ht.bytes,
      ht.above, ht.stuck, ht.queued, ht.kept.run (a := .setAllocating true) ⟨by simp, by simp⟩⟩
  have hr₁ : Receiving starving t s s₁ := by
    refine ⟨h₁, hs₁, ⟨true, .refl _⟩, ?_, ?_⟩ <;> rw [htr]
    · exact hlost
    · exact hshut
  intro ok _
  split
  swap
  · exact hQ _ s₁ hr₁
  have hs₂ := h₁.servesAct hs₁ (a := .call .getBuffer) rfl
    ⟨by rintro ⟨⟩, by rintro ⟨⟩, rfl, by rintro ⟨⟩, by rintro ⟨⟩⟩ rfl (.concat rfl) rfl rfl
  have hr₂ : Receiving starving t s (s₁.act t (.call .getBuffer)) ∧
      ((s₁.act t (.call .getBuffer)).tr t).allocatingReadBuffer = true := by
    refine ⟨⟨hs₂.mid, hs₂.settled, ⟨true, hs₂.frame⟩, ?_, ?_⟩, ?_⟩ <;> rw [State.tr_act_self s₁]
    · exact hr₁.lost
    · rw [htr]
      exact (readingShut_append _ _).trans (Bool.or_eq_false_iff.mpr ⟨hshut, rfl⟩)
    · rw [htr]
      rfl
  refine wp_foreign hs₂.mid hs₂.settled fun r s₃ hl₃ => ?_
  obtain ⟨hr₃, halloc₃⟩ := hr₂.1.leads hr₂.2 hl₃
  split
  · exact wp_foreign hr₃.mid hr₃.settled fun _ s' hl => hQ _ s' (hr₃.leads halloc₃ hl).1
  intro a _
  split
  · exact hQ _ s₃ hr₃
  · exact wp_foreign hr₃.mid hr₃.settled fun _ s' hl => hQ _ s' (hr₃.leads halloc₃ hl).1

/-- The receive buffer is no longer being allocated. -/
theorem Receiving.frame_setAllocating {s' : State} (h : Receiving starving t s s')
    (halloc : (s.tr t).allocatingReadBuffer = false) :
    Frame s (s'.act t (.setAllocating false)) := by
  obtain ⟨b, hframe⟩ := h.frame
  refine ⟨hframe.depth, hframe.draining, hframe.flushing, fun u => ?_, fun u => ?_, fun u => ?_⟩ <;>
    by_cases hu : u = t
  · rw [hu, State.tr_act_self]
    exact (hframe.disarming t).trans (by rw [State.tr_act_self]; rfl)
  · rw [State.tr_act_ne _ hu, hframe.disarming, State.tr_act_ne _ hu]
  · rw [hu, State.tr_act_self, halloc]
    rfl
  · rw [State.tr_act_ne _ hu, hframe.allocating, State.tr_act_ne _ hu]
  · rw [hu, State.tr_act_self]
    exact (hframe.held t).trans (by rw [State.tr_act_self]; rfl)
  · rw [State.tr_act_ne _ hu, hframe.held, State.tr_act_ne _ hu]

/-- Finishing a read during whose `get_buffer` the transport was paused or closed. -/
theorem wp_finishDeferred {s₀ : State} {Q : Unit → State → Prop} (h : Mid starving t s)
    (hframe : Frame s₀ s) (hc : Closable starving (Act.clearReadStatePending.run (s.tr t)))
    (ht : Settled starving { s.tr t with allocatingReadBuffer := true })
    (hQ : ∀ s', Serves starving t s₀ s' → Q () s') :
    (finishDeferred t).wp (env starving) (spec starving) Q s := by
  simp only [finishDeferred, Prog.wp_bind, wp_act, wp_self, Prog.wp_ite, Prog.wp_pure]
  let s₁ := s.act t .clearReadStatePending
  have h₁ : Mid starving t s₁ := h.act rfl trivial
  have htr : s₁.tr t = Act.clearReadStatePending.run (s.tr t) := State.tr_act_self ..
  have hframe₁ : Frame s₀ s₁ :=
    hframe.trans ((FrameBut.act rfl rfl).frame (by rw [State.tr_act_self]; rfl))
  -- the rest of the function, whether reading has just been stopped or not
  have hrest : ∀ s₂, Mid starving t s₂ → Frame s₀ s₂ →
      (s₂.tr t).essence = (s₁.tr t).essence → (s₂.tr t).history = (s₁.tr t).history →
      if ((s₁.tr t).closing && (s₁.tr t).writeBufferSize == 0) = true then
        (shutdownAndClose t).wp (env starving) (spec starving) Q s₂
      else Q () s₂ := by
    intro s₂ h₂ hframe₂ he hh
    have hclosing : (s₂.tr t).closing = (s₁.tr t).closing := (congrArg Transport.closing he :)
    have hq₁ : Queued (s₁.tr t) := by
      rw [htr]
      exact ht.queued
    have hb₁ : Base starving { s₁.tr t with opened := false } := by
      rw [htr]
      exact ⟨fun _ ho => (by cases ho), fun ho => (by cases ho), hc.pendingRead, hc.lost,
        hc.detached⟩
    have hb₂ : Base starving { s₂.tr t with opened := false } := by
      refine hb₁.of_essence ?_ (hh ▸ List.Subset.refl _)
      exact congrArg (fun tr : Transport => { tr with opened := false }) he
    have hbytes₂ : BytesOk (s₂.tr t) (s.tr t).pendingBytes := by
      have hbytes : BytesOk (s₁.tr t) (s.tr t).pendingBytes := by
        rw [htr]
        exact ht.bytes
      exact hbytes.of_essence he
    have hk₁ : Kept (s₁.tr t) := by
      rw [htr]
      exact ht.kept.of_grows rfl le_rfl (.refl _)
    split
    · rename_i hclose
      rw [Bool.and_eq_true_iff, beq_iff_eq] at hclose
      have hsize₂ : (s₂.tr t).writeBufferSize = 0 :=
        (congrArg Transport.writeBufferSize he :).trans hclose.2
      exact wp_shutdownAndClose h₂ (hclosing.trans hclose.1)
        ⟨hb₂.pendingRead, hb₂.lost, hb₂.detached, fun htorn => (hbytes₂ htorn).1⟩
        (hq₁.of_essence he) (.inr ⟨hsize₂, hk₁.of_essence he (hh ▸ .refl _)⟩)
        fun s' hl _ => hQ s' ⟨hl.mid, hl.settled, hframe₂.trans hl.frame⟩
    · rename_i hopen
      have hsize : (s₁.tr t).closing = true → 0 < (s₁.tr t).writeBufferSize := by
        intro hcl
        rw [hcl, Bool.true_and, beq_iff_eq] at hopen
        exact Nat.pos_of_ne_zero hopen
      have hs₁ : Settled starving (s₁.tr t) := by
        rw [htr] at hsize hk₁ ⊢
        refine ⟨⟨fun hcl _ => .inl (hsize hcl), fun ho => .inl ?_, (by rintro ⟨⟩), hc.lost,
          hc.detached⟩, ht.bytes, ht.above, ht.stuck, ht.queued, hk₁⟩
        rcases ht.base.sum ho with hsum | ⟨hcl, hzero, -⟩
        · exact hsum
        · exact absurd hzero (hsize hcl).ne'
      exact hQ s₂ ⟨h₂, hs₁.of_essence he (hh ▸ .refl _), hframe₂⟩
  split
  · refine hrest (s₁.act t .readStop) (h₁.act rfl trivial)
      (hframe₁.trans ((FrameBut.act rfl rfl).frame ?_)) ?_ ?_ <;> rw [State.tr_act_self s₁] <;> rfl
  · exact hrest s₁ h₁ hframe₁ rfl rfl

theorem wp_handleEof {Q : Unit → State → Prop} (h : Mid starving t s)
    (ht : Settled starving (s.tr t)) (hlost : (s.tr t).connLost = false)
    (hshut : readingShut (s.tr t).history = false) (hQ : ∀ s', Serves starving t s s' → Q () s') :
    (handleEof t).wp (env starving) (spec starving) Q s := by
  simp only [handleEof, Prog.wp_bind, wp_act, wp_self, Prog.wp_ite, wp_python, Prog.wp_pure]
  have hs₁ := h.servesAct ht (a := .readStop) rfl trivial rfl (.refl _) rfl rfl
  have hclose : ∀ s₂, Serves starving t s s₂ →
      (closeTransport t).wp (env starving) (spec starving) Q s₂ := fun s₂ hs₂ =>
    wp_closeTransport hs₂.mid hs₂.settled.flushable fun s' hl => hQ s' (hs₂.leads hl)
  split
  swap
  · exact hclose _ hs₁
  have hok : (Act.call .eofReceived).Allowed ((s.act t .readStop).tr t) := by
    rw [State.tr_act_self]
    exact ⟨fun _ => hlost, (by rintro ⟨⟩), rfl, fun _ => (readingShut_eq_false.mp hshut).2,
      fun _ => rfl⟩
  have hs₂ := hs₁.mid.servesAct hs₁.settled (a := .call .eofReceived) rfl hok rfl
    (.concat rfl) rfl rfl
  refine wp_foreign hs₂.mid hs₂.settled fun r s₃ hl₃ => ?_
  have hs₃ := (hs₁.trans hs₂).leads hl₃
  split
  · exact wp_foreign hs₃.mid hs₃.settled fun _ s₄ hl₄ => hclose s₄ (hs₃.leads hl₄)
  split
  · exact hclose s₃ hs₃
  · exact hQ s₃ hs₃

theorem wp_deliver {buffered : Bool} {Q : Unit → State → Prop} (h : Mid starving t s)
    (ht : Settled starving (s.tr t)) (hlost : (s.tr t).connLost = false)
    (hshut : readingShut (s.tr t).history = false)
    (hQ : ∀ s', Serves starving t s s' → Q () s') :
    (deliver t buffered).wp (env starving) (spec starving) Q s := by
  simp only [deliver, Prog.wp_bind, wp_alloc, Prog.wp_ite]
  intro ok _
  split
  · exact wp_forceClose _ _ h ht.closable (by simp) fun s' hl _ => hQ s' hl.serves
  split <;> exact wp_callInContext h ht hlost hshut rfl (by simp) hQ

/-- The read callback. -/
theorem wp_onRead {nread : Int} {s₀ : State} {Q : Unit → State → Prop}
    (h : Receiving starving t s₀ s) (halloc : (s₀.tr t).allocatingReadBuffer = false)
    (hQ : ∀ s', Serves starving t s₀ s' → Q () s') :
    (onRead t nread).wp (env starving) (spec starving) Q s := by
  simp only [onRead, Prog.wp_bind, wp_self, wp_act, Prog.wp_ite, Prog.wp_pure]
  let s₁ := s.act t (.setAllocating false)
  have h₁ : Mid starving t s₁ := h.mid.act rfl trivial
  have htr : s₁.tr t = (Act.setAllocating false).run (s.tr t) := State.tr_act_self ..
  have hframe : Frame s₀ s₁ := h.frame_setAllocating halloc
  have ht := h.settled
  split
  · rename_i hpending
    rw [Bool.and_eq_true_iff] at hpending
    refine wp_finishDeferred h₁ hframe ?_ ?_ hQ <;> rw [State.tr_act_self]
    · exact ⟨(by rintro ⟨⟩), ht.base.lost, ht.base.detached, fun htorn => (ht.bytes htorn).1⟩
    · exact ⟨⟨ht.base.live, ht.base.sum, fun _ => rfl, ht.base.lost, ht.base.detached⟩, ht.bytes,
        ht.above, ht.stuck, ht.queued, ht.kept.of_grows rfl le_rfl (.refl _)⟩
  rename_i hpending
  -- nothing was left to this callback
  have hnone : (s.tr t).readStatePending ≠ true := fun hp =>
    hpending (Bool.and_eq_true_iff.mpr ⟨ht.base.pendingRead hp, hp⟩)
  have hs₁ : Serves starving t s₀ s₁ := by
    refine ⟨h₁, ?_, hframe⟩
    rw [htr]
    exact ⟨⟨ht.base.live, ht.base.sum, fun hp => absurd hp hnone, ht.base.lost, ht.base.detached⟩,
      ht.bytes, ht.above, ht.stuck, ht.queued, ht.kept.run (a := .setAllocating false)
        ⟨by simp, by simp⟩⟩
  have hlost₁ : (s₁.tr t).connLost = false := by
    rw [htr]
    exact h.lost
  have hshut₁ : readingShut (s₁.tr t).history = false := by
    rw [htr]
    exact h.shut
  have hforce : ∀ exc, (forceClose t .peer exc).wp (env starving) (spec starving) Q s₁ := fun exc =>
    wp_forceClose _ _ h₁ hs₁.settled.closable (by simp) fun s' hl _ => hQ s' (hs₁.leads hl)
  split
  · split
    · split
      · exact hforce _
      · exact wp_closeTransport h₁ hs₁.settled.flushable fun s' hl => hQ s' (hs₁.leads hl)
    · exact hQ s₁ hs₁
  split
  · exact wp_deliver h₁ hs₁.settled hlost₁ hshut₁ fun s' hs => hQ s' (hs₁.trans hs)
  split
  · split
    · exact wp_handleEof h₁ hs₁.settled hlost₁ hshut₁ fun s' hs => hQ s' (hs₁.trans hs)
    · exact hforce _
  · exact hQ s₁ hs₁

/-- A readable stream. -/
theorem wp_readable {Q : Unit → State → Prop} (h : Mid starving t s)
    (ht : Settled starving (s.tr t)) (halloc : (s.tr t).allocatingReadBuffer = false)
    (hready : Ready s (.readable t)) (hQ : ∀ s', Serves starving t s s' → Q () s') :
    (readable t).wp (env starving) (spec starving) Q s := by
  have hlost : (s.tr t).connLost = false := by
    by_contra hl
    have := h.sane.uvClosed (h.sane.lost.mp ((Bool.not_eq_false _).mp hl))
    rw [hready.2] at this
    cases this
  have hshut : readingShut (s.tr t).history = false := by
    by_contra hb
    have := h.sane.shut ((Bool.not_eq_false _).mp hb)
    rw [h.sane.reading hready.1] at this
    cases this
  simp only [readable, Prog.wp_bind]
  refine wp_onAlloc h ht hlost hshut halloc fun b s₁ hr₁ => ?_
  split
  swap
  · exact wp_onRead hr₁ halloc hQ
  simp only [Prog.wp_bind, wp_request, Prog.wp_ite, wp_act, Prog.wp_pure]
  intro a _
  -- reading stops of its own accord after an error
  have hafter : ∀ s₂, Serves starving t s s₂ →
      if a.status < 0 then Q () (s₂.act t .uvReadEnd) else Q () s₂ := by
    intro s₂ hs₂
    split
    · exact hQ _ (hs₂.trans (hs₂.mid.servesAct hs₂.settled rfl trivial rfl (.refl _) rfl rfl))
    · exact hQ s₂ hs₂
  split
  · have hs₂ := hr₁.mid.servesAct hr₁.settled (a := .uvReadEnd) rfl trivial rfl
      (.refl _) rfl rfl
    refine wp_onRead (s := s₁.act t .uvReadEnd) ⟨hs₂.mid, hs₂.settled, ?_, ?_, ?_⟩ halloc hQ
    · obtain ⟨b', hframe⟩ := hr₁.frame
      exact ⟨b', hframe.trans hs₂.frame⟩
    · rw [State.tr_act_self]
      exact hr₁.lost
    · rw [State.tr_act_self]
      exact hr₁.shut
  · exact wp_onRead hr₁ halloc hafter

end Zuvloop.Stream
