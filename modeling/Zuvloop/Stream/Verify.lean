import Zuvloop.Stream.Refine

/-!
# The programs of the transport, one by one

Each function of `Zuvloop.Stream.Transport` gets one rule that says from which states it may be
called and what its callers may rely on afterwards; callers use the rule and never look into the
function again. `verified` puts the rules together.
-/

namespace Zuvloop.Stream

open Reentrant

variable {starving : Prop} {t : ℕ} {s : State}

/-- A lost connection is closing. -/
theorem Sane.closing_of_connLost {tr : Transport} (h : Sane tr) (hm : tr.made = true)
    (hl : tr.connLost = true) : tr.closing = true := by
  refine h.closing hm ?_
  by_contra ho
  rw [Bool.not_eq_false] at ho
  have hopen := (h.opened ho).1
  rw [h.uvClosed (h.lost.mp hl)] at hopen
  cases hopen

theorem Transport.givesUp_eq_false {tr : Transport} : tr.givesUp = false ↔
    tr.connLost = false ∧ tr.closing = false ∧ tr.eofWritten = false := by
  rw [Transport.givesUp, Bool.or_eq_false_iff, Bool.or_eq_false_iff, and_assoc]

/-! ## Acts that do not matter -/

/-- An act of Python code that a settled transport does not notice. -/
theorem Mid.leadsAct (h : Mid starving t s) (ht : Settled starving (s.tr t)) {a : Act}
    (hplain : a.plain = true) (hpy : a.python = true) (hok : a.Allowed (s.tr t))
    (he : (a.run (s.tr t)).essence = (s.tr t).essence)
    (hh : Grows (s.tr t).history (a.run (s.tr t)).history)
    (hd : (a.run (s.tr t)).disarming = (s.tr t).disarming)
    (hheld : (a.run (s.tr t)).held = (s.tr t).held) : Leads starving t s (s.act t a) where
  mid := h.act hplain hok
  settled := by
    rw [State.tr_act_self]
    exact ht.of_essence he hh
  steps := h.stepAct hplain hpy hok
  frame := (FrameBut.act hd (congrArg Transport.allocatingReadBuffer he :)).frame
    (by rw [State.tr_act_self, hheld])

/-! ## Teardown -/

/-- What a transport needs to be torn down. -/
structure Closable (starving : Prop) (tr : Transport) : Prop where
  /-- Reading is left to `onRead` only while a receive buffer is being allocated. -/
  pendingRead : tr.readStatePending = true → tr.allocatingReadBuffer = true
  /-- The close callback has queued `connection_lost`. -/
  lost : ¬ starving → tr.complete = true → tr.connLost = true →
    tr.history.any Event.isLostQueued = true
  /-- The close callback has told the server. -/
  detached : tr.connLost = true → tr.server = true → Event.detach ∈ tr.history
  /-- What has been handed over has been accepted. -/
  bytes : tr.torn = false → tr.handedOver <+: tr.accepted

theorem Base.closable {tr : Transport} (h : Base starving tr) {rest : Bytes}
    (hb : BytesOk tr rest) : Closable starving tr :=
  ⟨h.pendingRead, h.lost, h.detached, fun ht => (hb ht).1⟩

theorem Settled.closable {tr : Transport} (h : Settled starving tr) : Closable starving tr :=
  h.base.closable h.bytes

theorem Closable.settled {tr : Transport} (h : Closable starving tr) (hclosing : tr.closing = true)
    (hopened : tr.opened = false) (hq : Queued tr) (hk : Kept tr) : Settled starving tr :=
  .of_closed hclosing hopened h.pendingRead h.lost h.detached h.bytes hq hk

/-- What a teardown waits for: a close by force, or the end of all writes. -/
def Done (tr : Transport) : Prop :=
  tr.history.any Event.isForced = true ∨ tr.writeBufferSize = 0 ∧ Kept tr

theorem Done.kept {tr : Transport} (h : Done tr) : Kept tr := h.elim .of_forced And.right

/-- A teardown that has begun did not have to wait. -/
theorem Mid.done (h : Mid starving t s) (hopened : (s.tr t).opened = false) : Done (s.tr t) :=
  (h.reach.ledger t).shut h.made hopened

/-- The socket object is disarmed by Python code. -/
theorem wp_releaseSocketView {Q : Unit → State → Prop} (h : Mid starving t s)
    (ht : Settled starving (s.tr t)) (hQ : ∀ s', Leads starving t s s' → Q () s') :
    (releaseSocketView t).wp (env starving) (spec starving) Q s := by
  simp only [releaseSocketView, Prog.wp_bind, wp_self, Prog.wp_ite, wp_act, wp_python,
    Prog.wp_pure]
  split
  · have hl := h.leadsAct ht (a := .takeSocketView) rfl rfl trivial rfl (.refl _) rfl rfl
    exact wp_foreign hl.mid hl.settled fun _ s' hl' => hQ s' (hl.trans hl')
  · exact hQ s (.refl h ht)

/-- A handle that is about to be closed is closed. -/
theorem wp_closeExternalHandle {Q : Unit → State → Prop} (h : Mid starving t s)
    (hd : (s.tr t).disarming = true) (hQ : Q () (s.uvClose t)) :
    (closeExternalHandle t).wp (env starving) (spec starving) Q s := by
  simp only [closeExternalHandle, Prog.wp_bind, wp_self, Prog.wp_ite, wp_update, Prog.wp_pure]
  rw [h.sane.disarming hd]
  exact hQ

/-- `uv_close` ends a teardown. -/
theorem Mid.uvClose (h : Mid starving t s) (ht : Settled starving (s.tr t))
    (hd : (s.tr t).disarming = true) :
    Mid starving t (s.uvClose t) ∧ Settled starving ((s.uvClose t).tr t) ∧
      Steps true s (s.uvClose t) := by
  have htr : (s.uvClose t).tr = (s.act t .uvClose).tr := rfl
  refine ⟨⟨h.reach.tail (.uvClose t h.made hd), fun u hu => ?_, h.depth, h.prepared, ?_⟩, ?_,
    .single (.uvClose t h.made hd)⟩
  · rw [htr, State.tr_act_ne _ hu]
    exact h.others u hu
  · rw [htr, State.tr_act_self]
    exact h.made
  · rw [htr, State.tr_act_self]
    have he : (Act.uvClose.run (s.tr t)).essence = (s.tr t).essence := rfl
    exact ht.of_essence he (.concat rfl)

/-- Tearing down a closing transport. -/
theorem wp_shutdownAndClose {Q : Unit → State → Prop} (h : Mid starving t s)
    (hclosing : (s.tr t).closing = true) (hc : Closable starving (s.tr t))
    (hq : Queued (s.tr t)) (hdone : Done (s.tr t))
    (hQ : ∀ s', Leads starving t s s' → (s'.tr t).closing = true → Q () s') :
    (shutdownAndClose t).wp (env starving) (spec starving) Q s := by
  simp only [shutdownAndClose, Prog.wp_bind, wp_self, Prog.wp_ite, wp_act, Prog.wp_pure]
  split
  swap
  · rename_i hopened
    exact hQ s (.refl h (hc.settled hclosing (by simpa using hopened) hq hdone.kept))
      hclosing
  rename_i hopened
  have hdis := (h.sane.opened hopened).2
  have h₁ : Mid starving t (s.act t .clearOpen) := h.act rfl ⟨hopened, hclosing, hdone⟩
  have hsteps₁ := h.stepAct (a := .clearOpen) rfl rfl ⟨hopened, hclosing, hdone⟩
  have hs₁ : Settled starving ((s.act t .clearOpen).tr t) := by
    rw [State.tr_act_self]
    refine .of_closed hclosing rfl hc.pendingRead hc.lost hc.detached hc.bytes hq ?_
    exact hdone.kept.run ⟨by simp, by simp⟩
  -- from here on the transport is settled, and about to be closed
  have hfinish : ∀ s₂, Leads starving t (s.act t .clearOpen) s₂ →
      (releaseSocketView t).wp (env starving) (spec starving) (fun _ s₃ =>
        (closeExternalHandle t).wp (env starving) (spec starving) Q s₃) s₂ := by
    intro s₂ hl₂
    refine wp_releaseSocketView hl₂.mid hl₂.settled fun s₃ hl₃ => ?_
    have hl := hl₂.trans hl₃
    have hd₃ : (s₃.tr t).disarming = true := by
      rw [hl.frame.disarming, State.tr_act_self]
      rfl
    have hclosing₃ : (s₃.tr t).closing = true := (hl.calm h₁.reach).closing (by
      rw [State.tr_act_self]
      exact hclosing)
    obtain ⟨hm, hs, hstep⟩ := hl.mid.uvClose hl.settled hd₃
    refine wp_closeExternalHandle hl.mid hd₃ (hQ _ ⟨hm, hs, (hsteps₁.trans hl.steps).trans hstep,
      ⟨hl.frame.depth, hl.frame.draining, hl.frame.flushing, fun u => ?_,
        fun u => ?_, fun u => ?_⟩⟩ ?_)
    all_goals rw [show (s₃.uvClose t).tr = (s₃.act t .uvClose).tr from rfl]
    · by_cases hu : u = t
      · rw [hu, State.tr_act_self, hdis]
        rfl
      · rw [State.tr_act_ne _ hu, hl.frame.disarming, State.tr_act_ne _ hu]
    · by_cases hu : u = t
      · rw [hu, State.tr_act_self]
        have := hl.frame.allocating t
        rw [State.tr_act_self] at this
        exact this
      · rw [State.tr_act_ne _ hu, hl.frame.allocating, State.tr_act_ne _ hu]
    · by_cases hu : u = t
      · rw [hu, State.tr_act_self]
        have := hl.frame.held t
        rw [State.tr_act_self] at this
        exact this
      · rw [State.tr_act_ne _ hu, hl.frame.held, State.tr_act_ne _ hu]
    · rw [State.tr_act_self]
      exact hclosing₃
  split
  · have hl := h₁.leadsAct hs₁ (a := .readStop) rfl rfl trivial rfl (.refl _) rfl rfl
    exact hfinish _ hl
  · exact hfinish _ (.refl h₁ hs₁)

/-- Setting `CLOSING` changes nothing else but the history. -/
theorem run_setClosing (tr : Transport) :
    ∃ h, Grows tr.history h ∧
      Act.setClosing.run tr = { tr with closing := true, history := h } := by
  unfold Act.run
  dsimp only
  split
  · rename_i hc
    refine ⟨tr.history, .refl _, ?_⟩
    rw [← hc]
  · exact ⟨tr.history ++ [.closingBegan], .concat rfl, rfl⟩

/-- Closing by force. -/
theorem wp_forceClose {Q : Unit → State → Prop} (cause : Cause) (exc : Option Exc)
    (h : Mid starving t s) (hc : Closable starving (s.tr t))
    (hcause : cause = .flush → exc = some writeAfterEof →
      (s.tr t).history.any Event.isLeftover = true)
    (hQ : ∀ s', Leads starving t s s' → (s'.tr t).closing = true → Q () s') :
    (forceClose t cause exc).wp (env starving) (spec starving) Q s := by
  simp only [forceClose, Prog.wp_bind, wp_act, wp_self, Prog.wp_ite]
  -- the five assignments, one after the other
  let s₁ := s.act t .setCloseRequested
  let s₂ := s₁.act t .discardPending
  let s₃ := s₂.act t (.force cause exc)
  let s₄ := s₃.act t .setClosing
  let s₅ := s₄.act t .clearWriteBufferSize
  have h₁ : Mid starving t s₁ := h.act rfl trivial
  have h₂ : Mid starving t s₂ := h₁.act rfl trivial
  have htr₂ : s₂.tr t = Act.discardPending.run (Act.setCloseRequested.run (s.tr t)) := by
    rw [State.tr_act_self, State.tr_act_self]
  have hok₃ : (Act.force cause exc).Allowed (s₂.tr t) := by
    rw [htr₂]
    exact hcause
  have h₃ : Mid starving t s₃ := h₂.act rfl hok₃
  have h₄ : Mid starving t s₄ := h₃.act rfl trivial
  have htr₃ : s₃.tr t = (Act.force cause exc).run (s₂.tr t) := State.tr_act_self ..
  obtain ⟨hist, hsub, hrun⟩ := run_setClosing (s₃.tr t)
  have htr₄ : s₄.tr t = { s₃.tr t with closing := true, history := hist } := by
    rw [State.tr_act_self, hrun]
  have hok₅ : Act.clearWriteBufferSize.Allowed (s₄.tr t) := by
    refine ⟨by rw [htr₄], ?_⟩
    rw [htr₄, List.any_eq_true]
    refine ⟨.forced cause exc, hsub.subset ?_, rfl⟩
    rw [htr₃]
    exact List.mem_append_right _ (List.mem_singleton_self _)
  have h₅ : Mid starving t s₅ := h₄.act rfl hok₅
  have hsteps₁ : Steps true s s₁ := h.stepAct rfl rfl trivial
  have hsteps₂ : Steps true s₁ s₂ := h₁.stepAct rfl rfl trivial
  have hsteps₃ : Steps true s₂ s₃ := h₂.stepAct rfl rfl hok₃
  have hsteps₄ : Steps true s₃ s₄ := h₃.stepAct rfl rfl trivial
  have hsteps₅ : Steps true s₄ s₅ := h₄.stepAct rfl rfl hok₅
  have hsteps : Steps true s s₅ :=
    (((hsteps₁.trans hsteps₂).trans hsteps₃).trans hsteps₄).trans hsteps₅
  have htr₅ : s₅.tr t = { s₄.tr t with writeBufferSize := 0 } := State.tr_act_self ..
  have hhist : (s.tr t).history ⊆ hist := by
    refine List.Subset.trans ?_ hsub.subset
    rw [htr₃, htr₂]
    exact List.subset_append_left _ _
  -- what they leave of the transport
  have hfinal : s₅.tr t =
      { s.tr t with
        closeRequested := true, pending := [], pendingSize := 0
        released := (s.tr t).released + (s.tr t).pendingViews
        connLostExc := exc.or (s.tr t).connLostExc, closing := true, history := hist
        writeBufferSize := 0 } := by
    rw [htr₅, htr₄, htr₃, htr₂]
    rfl
  have hframe : Frame s s₅ := by
    have hother : ∀ u ≠ t, s₅.tr u = s.tr u := by
      intro u hu
      rw [State.tr_act_ne _ hu, State.tr_act_ne _ hu, State.tr_act_ne _ hu, State.tr_act_ne _ hu,
        State.tr_act_ne _ hu]
    refine ⟨rfl, rfl, rfl, fun u => ?_, fun u => ?_, fun u => ?_⟩ <;>
    · by_cases hu : u = t
      · rw [hu, hfinal]
      · rw [hother u hu]
  have hc₅ : Closable starving (s₅.tr t) := by
    rw [hfinal]
    refine ⟨hc.pendingRead, fun hs hcomplete hl => ?_, fun hl hs => hhist (hc.detached hl hs),
      hc.bytes⟩
    have hany := hc.lost hs hcomplete hl
    rw [List.any_eq_true] at hany ⊢
    exact hany.imp fun e he => ⟨hhist he.1, he.2⟩
  have hclosing₅ : (s₅.tr t).closing = true := by rw [hfinal]
  have hforced₅ : (s₅.tr t).history.any Event.isForced = true := by
    rw [htr₅]
    exact hok₅.2
  have hq₅ : Queued (s₅.tr t) := by
    rw [hfinal]
    exact fun hne => absurd rfl hne
  split
  · rename_i halloc
    have h₆ : Mid starving t (s₅.act t .setReadStatePending) := h₅.act rfl halloc
    refine hQ _ ⟨h₆, ?_, hsteps.trans (h₅.stepAct rfl rfl halloc),
      hframe.trans ((FrameBut.act rfl rfl).frame (by rw [State.tr_act_self]; rfl))⟩ ?_
    · rw [State.tr_act_self]
      have hlife : Base starving (Act.setReadStatePending.run (s₅.tr t)) :=
        ⟨fun _ _ => .inr rfl, fun _ => .inr ⟨hclosing₅, by rw [hfinal]; rfl, rfl⟩, fun _ => halloc,
          hc₅.lost, hc₅.detached⟩
      refine ⟨hlife, fun ht => ⟨hc₅.bytes ht, fun hcl => ?_⟩, fun hcl => ?_, fun hcl => ?_, hq₅,
        .of_forced hforced₅⟩
      all_goals
        change (s₅.tr t).closing = false at hcl
        rw [hclosing₅] at hcl
        cases hcl
    · rw [State.tr_act_self]
      exact hclosing₅
  · exact wp_shutdownAndClose h₅ hclosing₅ hc₅ hq₅ (.inl hforced₅) fun s' hl hcl =>
      hQ s' (hl.after hsteps hframe) hcl

/-! ## Flow control -/

/-- Pausing changes nothing else but the history. -/
theorem run_pauseWriting (tr : Transport) :
    ∃ h, Grows tr.history h ∧
      Act.pauseWriting.run tr = { tr with protocolPaused := true, history := h } := by
  refine ⟨(Act.pauseWriting.run tr).history, ?_, ?_⟩
  · unfold Act.run Transport.recordCall
    dsimp only
    split
    · exact .concat rfl
    · exact .refl _
  · unfold Act.run
    dsimp only
    rw [Transport.recordCall_eq]

/-- Resuming changes nothing else but the history. -/
theorem run_resumeWriting (tr : Transport) :
    ∃ h, Grows tr.history h ∧
      Act.resumeWriting.run tr = { tr with protocolPaused := false, history := h } := by
  refine ⟨(Act.resumeWriting.run tr).history, ?_, ?_⟩
  · unfold Act.run Transport.recordCall
    dsimp only
    split
    · exact .concat rfl
    · exact .refl _
  · unfold Act.run
    dsimp only
    rw [Transport.recordCall_eq]

/-- More history does not hurt. -/
theorem Base.history {tr : Transport} (h : Base starving tr) {hist : List Event}
    (hh : tr.history ⊆ hist) : Base starving { tr with history := hist } := by
  have he : ({ tr with history := hist } : Transport).essence = tr.essence := rfl
  exact h.of_essence he hh

theorem wp_callProtocol {Q : Unit → State → Prop} (m : Method) (h : Mid starving t s)
    (ht : Settled starving (s.tr t)) (hQ : ∀ s', Leads starving t s s' → Q () s') :
    (callProtocol t m).wp (env starving) (spec starving) Q s := by
  simp only [callProtocol, Prog.wp_bind, wp_self, Prog.wp_ite, wp_python, Prog.wp_pure]
  split
  · refine wp_foreign h ht fun r s₁ hl => ?_
    split
    · exact wp_foreign hl.mid hl.settled fun _ s₂ hl₂ => hQ s₂ (hl.trans hl₂)
    · exact hQ s₁ hl
  · exact hQ s (.refl h ht)

/-- Pausing puts `Above` right. -/
theorem wp_maybePauseProtocol {Q : Unit → State → Prop} (h : Mid starving t s)
    (hb : Base starving (s.tr t)) (hbytes : BytesOk (s.tr t) (s.tr t).pendingBytes)
    (hstuck : Stuck (s.tr t)) (hq : Queued (s.tr t)) (hk : Kept (s.tr t))
    (hQ : ∀ s', Leads starving t s s' → Q () s') :
    (maybePauseProtocol t).wp (env starving) (spec starving) Q s := by
  simp only [maybePauseProtocol, Prog.wp_bind, wp_self, Prog.wp_ite, wp_act, Prog.wp_pure]
  have hbuffered : 0 < (s.tr t).writeBufferSize →
      (s.tr t).bufferedBytes = (s.tr t).stream.queueSize + (s.tr t).pendingSize := by
    intro hpos
    rw [Transport.bufferedBytes, if_neg (by omega)]
  split
  · rename_i hle
    refine hQ s (.refl h ⟨hb, hbytes, fun _ hpos hhigh => ?_, hstuck, hq, hk⟩)
    rw [hbuffered hpos] at hle
    omega
  split
  · rename_i hpaused
    exact hQ s (.refl h ⟨hb, hbytes, fun _ _ _ => hpaused, hstuck, hq, hk⟩)
  rename_i hle hpaused
  have hok : Act.pauseWriting.Allowed (s.tr t) := ⟨by omega, by simpa using hpaused⟩
  have h₁ : Mid starving t (s.act t .pauseWriting) := h.act rfl hok
  obtain ⟨hist, hsub, hrun⟩ := run_pauseWriting (s.tr t)
  have hs₁ : Settled starving ((s.act t .pauseWriting).tr t) := by
    rw [State.tr_act_self, hrun]
    have hb' := hb.history hsub.subset
    refine ⟨⟨hb'.live, hb'.sum, hb'.pendingRead, hb'.lost, hb'.detached⟩, hbytes, fun _ _ _ => rfl,
      fun _ _ => ?_, hq, hk.of_grows rfl le_rfl hsub⟩
    -- what is buffered is in libuv's queue or in the batch
    by_contra hnone
    rw [not_or, not_lt, Nat.le_zero, not_not] at hnone
    have hsize := h.sane.size
    rw [Transport.pendingBytes, hnone.2] at hsize
    rw [Transport.bufferedBytes, if_pos hnone.1, hsize] at hle
    exact hle (Nat.zero_le _)
  have hl₁ : Leads starving t s (s.act t .pauseWriting) := by
    refine ⟨h₁, hs₁, h.stepAct rfl rfl hok, (FrameBut.act ?_ ?_).frame ?_⟩
    · rw [hrun]
    · rw [hrun]
    · rw [State.tr_act_self, hrun]
  exact wp_callProtocol _ h₁ hs₁ fun s' hl => hQ s' (hl₁.trans hl)

/-- Resuming puts `Stuck` right. -/
theorem wp_maybeResumeProtocol {Q : Unit → State → Prop} (h : Mid starving t s)
    (hb : Base starving (s.tr t)) (hbytes : BytesOk (s.tr t) (s.tr t).pendingBytes)
    (habove : Above (s.tr t)) (hq : Queued (s.tr t)) (hk : Kept (s.tr t))
    (hQ : ∀ s', Leads starving t s s' → Q () s') :
    (maybeResumeProtocol t).wp (env starving) (spec starving) Q s := by
  simp only [maybeResumeProtocol, Prog.wp_bind, wp_self, Prog.wp_ite, wp_act, Prog.wp_pure]
  have hdone : Stuck (s.tr t) → Q () s := fun hstuck =>
    hQ s (.refl h ⟨hb, hbytes, habove, hstuck, hq, hk⟩)
  split
  · rename_i hclosing
    refine hdone fun hc => ?_
    -- a lost connection is closing
    rw [Transport.isClosing, hc, Bool.false_or] at hclosing
    rw [h.sane.closing_of_connLost h.made hclosing] at hc
    cases hc
  rename_i hclosing
  split
  · rename_i hpaused
    refine hdone fun _ hp => ?_
    rw [hp] at hpaused
    cases hpaused
  rename_i hpaused
  split
  · rename_i hlow
    refine hdone fun _ _ => ?_
    by_contra hnone
    rw [not_or, not_lt, Nat.le_zero, not_not] at hnone
    have hsize := h.sane.size
    rw [Transport.pendingBytes, hnone.2] at hsize
    rw [Transport.bufferedBytes, if_pos hnone.1, hsize] at hlow
    exact absurd hlow (Nat.not_lt_zero _)
  rename_i hlow
  have hpaused' : (s.tr t).protocolPaused = true := by simpa using hpaused
  have hok : Act.resumeWriting.Allowed (s.tr t) :=
    ⟨by simpa using hclosing, hpaused', not_lt.mp hlow⟩
  have h₁ : Mid starving t (s.act t .resumeWriting) := h.act rfl hok
  obtain ⟨hist, hsub, hrun⟩ := run_resumeWriting (s.tr t)
  have hs₁ : Settled starving ((s.act t .resumeWriting).tr t) := by
    rw [State.tr_act_self, hrun]
    have hb' := hb.history hsub.subset
    refine ⟨⟨hb'.live, hb'.sum, hb'.pendingRead, hb'.lost, hb'.detached⟩, hbytes,
      fun _ hpos hhigh => ?_, fun _ hp => (by cases hp), hq, hk.of_grows rfl le_rfl hsub⟩
    -- the queue is below the low mark, so it is below the high one
    have hmarks := h.sane.marks
    have hpos' : 0 < (s.tr t).writeBufferSize := hpos
    have hhigh' : (s.tr t).highWater < (s.tr t).stream.queueSize := hhigh
    rw [Transport.bufferedBytes, if_neg (by omega)] at hlow
    omega
  have hl₁ : Leads starving t s (s.act t .resumeWriting) := by
    refine ⟨h₁, hs₁, h.stepAct rfl rfl hok, (FrameBut.act ?_ ?_).frame ?_⟩
    · rw [hrun]
    · rw [hrun]
    · rw [State.tr_act_self, hrun]
  exact wp_callProtocol _ h₁ hs₁ fun s' hl => hQ s' (hl₁.trans hl)

/-! ## Writing -/

/-- What is left of a vector are the bytes after those that were taken. -/
theorem flatten_advance (n : ℕ) (bufs : List Bytes) :
    (advance n bufs).flatten = bufs.flatten.drop n := by
  induction bufs generalizing n with
  | nil => simp [advance]
  | cons b bufs ih =>
    rw [advance]
    split
    · rename_i hle
      rw [ih, List.flatten_cons, List.drop_append, List.drop_eq_nil_of_le hle, List.nil_append]
    · rename_i hle
      rw [List.flatten_cons, List.flatten_cons, List.drop_append_of_le_length (by omega)]

/-- A write in progress gave up views of the transport. -/
structure Wrote (starving : Prop) (t : ℕ) (views : List ℕ) (s s' : State) : Prop where
  /-- The transport and the loop are in order. -/
  mid : Mid starving t s'
  /-- The steps are those of Python code. -/
  steps : Steps true s s'
  /-- The rest is as it was. -/
  frame : FrameBut t s s'
  /-- The views are gone. -/
  held : (s'.tr t).held = (s.tr t).held - views

/-- A transport is settled, but for a resume that may be due. -/
structure Intact (starving : Prop) (tr tr' : Transport) : Prop where
  /-- The close. -/
  base : Base starving tr'
  /-- The bytes. -/
  bytes : BytesOk tr' tr'.pendingBytes
  /-- The pause. -/
  above : Above tr'
  /-- The flush. -/
  queued : Queued tr'
  /-- The closes in good order. -/
  kept : Kept tr'
  /-- No resume has become due. -/
  stuck : Stuck tr → Stuck tr'

theorem Settled.intact {tr tr' : Transport} (h : Settled starving tr') : Intact starving tr tr' :=
  ⟨h.base, h.bytes, h.above, h.queued, h.kept, fun _ => h.stuck⟩

/-- Acts before a write that leave the views alone. -/
theorem Wrote.after {views : List ℕ} {s₁ s' : State} (h : Wrote starving t views s₁ s')
    (hsteps : Steps true s s₁) (hframe : FrameBut t s s₁)
    (hheld : (s₁.tr t).held = (s.tr t).held) : Wrote starving t views s s' :=
  ⟨h.mid, hsteps.trans h.steps, hframe.trans h.frame, by rw [h.held, hheld]⟩

/-- What a write does after it has given up its views. -/
theorem Wrote.leads {views : List ℕ} {s₁ s' : State} (h : Wrote starving t views s s₁)
    (hl : Leads starving t s₁ s') : Wrote starving t views s s' :=
  ⟨hl.mid, h.steps.trans hl.steps, h.frame.trans (hl.frame.but t), by
    rw [hl.frame.held, h.held]⟩

/-- Views are released. -/
theorem Mid.releaseViews (h : Mid starving t s) {views : List ℕ}
    (hviews : (views : Multiset ℕ) ≤ (s.tr t).held) :
    Wrote starving t views s (s.act t (.releaseViews views)) where
  mid := h.act rfl hviews
  steps := h.stepAct rfl rfl hviews
  frame := FrameBut.act rfl rfl
  held := by
    rw [State.tr_act_self]
    rfl

/-- Queueing a vector with libuv. -/
theorem wp_queueWrite {fresh : Bytes} {bufs : List Bytes} {views : List ℕ}
    {Q : Except Exc Unit → State → Prop} (h : Mid starving t s) (hup : (s.tr t).givesUp = false)
    (hb : Base starving (s.tr t)) (hviews : (views : Multiset ℕ) ≤ (s.tr t).held)
    (hpending : (s.tr t).pending = [])
    (hbytes : (s.tr t).torn = false →
      (s.tr t).handedOver ++ bufs.flatten = (s.tr t).accepted ++ fresh)
    (hzero : bufs.flatten = [] → Q (.ok ()) (s.act t (.releaseViews views)))
    (hfail : ∀ exc, exc ≠ writeAfterEof → Q (.error exc) (s.act t (.releaseViews views)))
    (hok : ∀ s', Wrote starving t views s s' → Settled starving (s'.tr t) → Q (.ok ()) s') :
    (queueWrite t fresh bufs views).wp (env starving) (spec starving) Q s := by
  simp only [queueWrite, Prog.wp_bind, Prog.wp_ite, wp_act, wp_alloc, wp_request, Prog.wp_pure]
  split
  · rename_i htotal
    exact hzero (List.eq_nil_of_length_eq_zero htotal)
  rename_i htotal
  intro ok _
  split
  · exact hfail _ (by simp [writeAfterEof])
  intro a ha
  split
  · exact hfail _ (by simp [writeAfterEof])
  have hclosing : (s.tr t).closing = false := (Transport.givesUp_eq_false.mp hup).2.1
  have hallowed : (Act.submit fresh bufs views a.size).Allowed (s.tr t) :=
    ⟨hviews, Nat.pos_of_ne_zero htotal, hup, ha⟩
  let s₁ := s.act t (.submit fresh bufs views a.size)
  have h₁ : Mid starving t s₁ := h.act rfl hallowed
  have hsteps : Steps true s s₁ := h.stepAct rfl rfl hallowed
  have htr : s₁.tr t = (Act.submit fresh bufs views a.size).run (s.tr t) := State.tr_act_self ..
  have hpending₁ : (s₁.tr t).pending = [] := by rw [htr]; exact hpending
  have hclosing₁ : (s₁.tr t).closing = false := by rw [htr]; exact hclosing
  have hb₁ : Base starving (s₁.tr t) := by
    refine ⟨fun hc => by simp [hclosing₁] at hc, fun ho => .inl ?_, ?_, ?_, ?_⟩
    · rw [htr] at ho ⊢
      rcases hb.sum ho with hsum | ⟨hc, -⟩
      · change (s.tr t).writeBufferSize + total bufs =
          (((s.tr t).stream.requests ++ [(⟨total bufs, views⟩ : WriteReq)]).map
            WriteReq.size).sum
        rw [hsum, Transport.requestSize, List.map_append, List.sum_append]
        rfl
      · rw [hclosing] at hc
        cases hc
    · rw [htr]
      exact hb.pendingRead
    · rw [htr]
      exact hb.lost
    · rw [htr]
      exact hb.detached
  have hbytes₁ : BytesOk (s₁.tr t) (s₁.tr t).pendingBytes := by
    rw [Transport.pendingBytes, hpending₁]
    intro htorn
    have heq : (s₁.tr t).handedOver = (s₁.tr t).accepted := by
      rw [htr] at htorn ⊢
      exact hbytes htorn
    exact ⟨heq ▸ List.prefix_rfl, fun _ => by rw [heq]; simp⟩
  have hstuck₁ : Stuck (s₁.tr t) := by
    intro _ _
    left
    rw [htr]
    exact Nat.add_pos_right _ (Nat.pos_of_ne_zero htotal)
  have hq₁ : Queued (s₁.tr t) := fun hne => absurd hpending₁ hne
  have hk₁ : Kept (s₁.tr t) := by
    refine .of_bytes (h₁.reach.ledger t) ?_ hclosing₁
    have hnil : (s₁.tr t).pendingBytes = [] := by rw [Transport.pendingBytes, hpending₁]; rfl
    rwa [hnil] at hbytes₁
  refine wp_maybePauseProtocol h₁ hb₁ hbytes₁ hstuck₁ hq₁ hk₁ fun s' hl => hok s' ?_ hl.settled
  refine ⟨hl.mid, hsteps.trans hl.steps, (FrameBut.act rfl rfl).trans (hl.frame.but t), ?_⟩
  rw [hl.frame.held, htr]
  rfl

/-- A write that is refused gives up its views. -/
theorem wp_acceptsWrite {views : List ℕ} {Q : Except Exc Bool → State → Prop}
    (hrefused : ∀ r, r ≠ .ok true → (r = .ok false → (s.tr t).closing = true ∨
      (s.tr t).connLost = true) → (r = .error writeAfterEof → (s.tr t).eofWritten = true) →
      Q r (s.act t (.releaseViews views)))
    (haccepted : (s.tr t).givesUp = false → Q (.ok true) s) :
    (acceptsWrite t views).wp (env starving) (spec starving) Q s := by
  simp only [acceptsWrite, Prog.wp_bind, wp_self, Prog.wp_ite, wp_act, Prog.wp_pure]
  split
  · rename_i heof
    exact hrefused _ (by simp) (by simp) fun _ => heof
  split
  · rename_i hclosing
    refine hrefused _ (by simp) (fun _ => ?_) (by simp)
    rw [Bool.or_eq_true] at hclosing
    exact hclosing.symm
  · rename_i heof hclosing
    rw [Bool.or_eq_true, not_or, Bool.not_eq_true, Bool.not_eq_true] at hclosing
    rw [Bool.not_eq_true] at heof
    exact haccepted (Transport.givesUp_eq_false.mpr ⟨hclosing.1, hclosing.2, heof⟩)

/-- What is still to be handed over of a vector, before anything of it was taken. -/
def Origin.rest : Origin → List Bytes → Bytes
  | batch, bufs => bufs.flatten
  | direct, _ => []

theorem Origin.rest_fresh (origin : Origin) (bufs : List Bytes) {handed accepted : Bytes}
    (h : handed ++ origin.rest bufs = accepted) :
    handed ++ bufs.flatten = accepted ++ origin.fresh bufs := by
  cases origin with
  | batch => simpa [rest, fresh] using h
  | direct => simpa [rest, fresh] using h

/-- Releasing views does not matter to a transport that is otherwise in order. -/
theorem Intact.releaseViews {tr : Transport} {views : List ℕ} (hb : Base starving tr)
    (hbytes : BytesOk tr tr.pendingBytes) (ha : Above tr) (hq : Queued tr) (hk : Kept tr) :
    Intact starving tr ((Act.releaseViews views).run tr) := by
  have he : ((Act.releaseViews views).run tr).essence = tr.essence := rfl
  exact ⟨hb.of_essence he (List.Subset.refl _), hbytes.of_essence he, ha.of_essence he,
    hq.of_essence he, hk.of_essence he (.refl _), fun h => h.of_essence he⟩

/-- The bytes that `uv_try_write` took. -/
theorem bytesOk_took {tr : Transport} {fresh : Bytes} {bufs : List Bytes}
    (hbytes : tr.torn = false → tr.handedOver ++ bufs.flatten = tr.accepted ++ fresh) (n : ℕ) :
    BytesOk ((Act.took fresh (bufs.flatten.take n)).run tr) (bufs.flatten.drop n) := by
  intro htorn
  change tr.handedOver ++ bufs.flatten.take n <+: tr.accepted ++ fresh ∧
    (_ → (tr.handedOver ++ bufs.flatten.take n) ++ bufs.flatten.drop n = tr.accepted ++ fresh)
  have heq : (tr.handedOver ++ bufs.flatten.take n) ++ bufs.flatten.drop n =
      tr.accepted ++ fresh := by
    rw [List.append_assoc, List.take_append_drop, hbytes htorn]
  exact ⟨⟨_, heq⟩, fun _ => heq⟩

/-- Queueing what the socket did not take. -/
theorem wp_queueRest {origin : Origin} {rest : List Bytes} {views : List ℕ}
    {Q : Except Exc Unit → State → Prop} (h : Mid starving t s) (hup : (s.tr t).givesUp = false)
    (hb : Base starving (s.tr t)) (ha : Above (s.tr t))
    (hviews : (views : Multiset ℕ) ≤ (s.tr t).held) (hpending : (s.tr t).pending = [])
    (hbytes : BytesOk (s.tr t) rest.flatten)
    (hQ : ∀ r s', Wrote starving t views s s' → Closable starving (s'.tr t) →
      (origin = .direct ∨ r = .ok () → Intact starving (s.tr t) (s'.tr t)) →
      r ≠ .error writeAfterEof → Q r s') :
    (queueRest t origin rest views).wp (env starving) (spec starving) Q s := by
  have hclosing : (s.tr t).closing = false := (Transport.givesUp_eq_false.mp hup).2.1
  have hq : Queued (s.tr t) := fun hne => absurd hpending hne
  have hnil : (s.tr t).pendingBytes = [] := by rw [Transport.pendingBytes, hpending]; rfl
  have hw := h.releaseViews hviews
  simp only [queueRest, Prog.wp_bind]
  refine wp_queueWrite h hup hb hviews hpending (fun htorn => ?_) (fun hempty => ?_)
    (fun exc hexc => ?_) fun s' hwrote hs =>
      hQ _ s' hwrote hs.closable (fun _ => hs.intact) (by simp)
  · rw [(hbytes htorn).2 hclosing, List.append_nil]
  · have hi : Intact starving (s.tr t) ((s.act t (.releaseViews views)).tr t) := by
      rw [State.tr_act_self]
      rw [hempty] at hbytes
      have hk : Kept (s.tr t) := .of_bytes (h.reach.ledger t) hbytes hclosing
      rw [← hnil] at hbytes
      exact .releaseViews hb hbytes ha hq hk
    exact hQ _ _ hw (hi.base.closable hi.bytes) (fun _ => hi) (by simp)
  · have hc : Closable starving ((s.act t (.releaseViews views)).tr t) := by
      rw [State.tr_act_self]
      exact ⟨hb.pendingRead, hb.lost, hb.detached, fun htorn => (hbytes htorn).1⟩
    simp only [Prog.wp_ite, Prog.wp_bind, wp_act, Prog.wp_pure]
    split
    · -- the transport stays open, torn
      have hok : Act.tear.Allowed ((s.act t (.releaseViews views)).tr t) := trivial
      have hm := hw.mid.act (a := .tear) rfl hok
      have hw' : Wrote starving t views s ((s.act t (.releaseViews views)).act t .tear) := by
        refine ⟨hm, hw.steps.trans (hw.mid.stepAct rfl rfl hok),
          hw.frame.trans (FrameBut.act rfl rfl), ?_⟩
        rw [State.tr_act_self, ← hw.held]
        rfl
      have htr : ((s.act t (.releaseViews views)).act t .tear).tr t =
          Act.tear.run ((Act.releaseViews views).run (s.tr t)) := by
        rw [State.tr_act_self, State.tr_act_self]
      refine hQ _ _ hw' ?_ (fun _ => ?_) fun heq => hexc (Except.error.inj heq)
      · rw [htr]
        exact ⟨hb.pendingRead, hb.lost, hb.detached, (by rintro ⟨⟩)⟩
      · rw [htr]
        exact ⟨⟨hb.live, hb.sum, hb.pendingRead, hb.lost, hb.detached⟩, by rintro ⟨⟩, ha, hq,
          by rintro ⟨⟩, id⟩
    · rename_i hdirect
      exact hQ _ _ hw hc (fun hcase => hcase.elim (fun h => absurd h hdirect) (by simp))
        fun heq => hexc (Except.error.inj heq)

/-- Writing a vector. -/
theorem wp_writeBufs {origin : Origin} {bufs : List Bytes} {views : List ℕ}
    {Q : Except Exc Unit → State → Prop} (h : Mid starving t s) (hb : Base starving (s.tr t))
    (ha : Above (s.tr t)) (hviews : (views : Multiset ℕ) ≤ (s.tr t).held)
    (hpending : (s.tr t).pending = []) (hbytes : BytesOk (s.tr t) (origin.rest bufs))
    (hk : (s.tr t).closing = false ∨ Kept (s.tr t))
    (hQ : ∀ r s', Wrote starving t views s s' → Closable starving (s'.tr t) →
      (origin = .direct ∨ r = .ok () → Intact starving (s.tr t) (s'.tr t)) →
      (r = .error writeAfterEof → (s.tr t).eofWritten = true ∧
        (s'.tr t).history = (s.tr t).history) → Q r s') :
    (writeBufs t origin bufs views).wp (env starving) (spec starving) Q s := by
  have hq : Queued (s.tr t) := fun hne => absurd hpending hne
  have hnil : (s.tr t).pendingBytes = [] := by rw [Transport.pendingBytes, hpending]; rfl
  have hw := h.releaseViews hviews
  have hc : Closable starving ((s.act t (.releaseViews views)).tr t) := by
    rw [State.tr_act_self]
    exact ⟨hb.pendingRead, hb.lost, hb.detached, fun htorn => (hbytes htorn).1⟩
  have hintact : BytesOk (s.tr t) [] →
      Intact starving (s.tr t) ((s.act t (.releaseViews views)).tr t) := by
    intro hbytes
    have hkept := hk.elim (Kept.of_bytes (h.reach.ledger t) hbytes) id
    rw [State.tr_act_self]
    rw [← hnil] at hbytes
    exact .releaseViews hb hbytes ha hq hkept
  have hdirect : origin = .direct → BytesOk (s.tr t) [] := by
    rintro rfl
    exact hbytes
  simp only [writeBufs, Prog.wp_bind]
  refine wp_acceptsWrite (fun r hr hfalse heof => ?_) fun hup => ?_
  · rcases r with exc | _ | _
    · refine hQ _ _ hw hc (fun hcase => hintact (hcase.elim hdirect (by simp))) fun heq => ?_
      refine ⟨heof (by rw [Except.error.inj heq]), ?_⟩
      rw [State.tr_act_self]
      rfl
    swap
    · exact absurd rfl hr
    · have hclosing : (s.tr t).closing = true :=
        (hfalse rfl).elim id (h.sane.closing_of_connLost h.made)
      refine hQ _ _ hw hc (fun _ => hintact fun htorn => ⟨(hbytes htorn).1, fun hcl => ?_⟩)
        (by simp)
      rw [hclosing] at hcl
      cases hcl
  have hclosing : (s.tr t).closing = false := (Transport.givesUp_eq_false.mp hup).2.1
  have hfresh : (s.tr t).torn = false →
      (s.tr t).handedOver ++ bufs.flatten = (s.tr t).accepted ++ origin.fresh bufs :=
    fun htorn => origin.rest_fresh bufs ((hbytes htorn).2 hclosing)
  -- the whole vector is queued
  have hqueue : (queueWrite t (origin.fresh bufs) bufs views).wp (env starving) (spec starving)
      Q s := by
    refine wp_queueWrite h hup hb hviews hpending hfresh (fun hempty => ?_) (fun exc hexc => ?_)
      fun s' hwrote hs => hQ _ s' hwrote hs.closable (fun _ => hs.intact) (by simp)
    · refine hQ _ _ hw hc (fun _ => hintact ?_) (by simp)
      cases origin with
      | batch =>
        have hrest : Origin.batch.rest bufs = [] := hempty
        rwa [hrest] at hbytes
      | direct => exact hbytes
    · exact hQ _ _ hw hc (fun hcase => hintact (hcase.elim hdirect (by simp)))
        fun heq => absurd (Except.error.inj heq) hexc
  simp only [Prog.wp_bind, wp_self, Prog.wp_ite, wp_request, wp_act, Prog.wp_pure]
  split
  swap
  · exact hqueue
  rename_i hsize
  intro a hanswer
  split
  · -- some of it was taken
    rename_i hpos
    let s₁ := s.act t (.took (origin.fresh bufs) (bufs.flatten.take a.status.toNat))
    have hok : (Act.took (origin.fresh bufs) (bufs.flatten.take a.status.toNat)).Allowed
        (s.tr t) := hup
    have h₁ : Mid starving t s₁ := h.act rfl hok
    have hsteps : Steps true s s₁ := h.stepAct rfl rfl hok
    have hframe : FrameBut t s s₁ := FrameBut.act rfl rfl
    have htr : s₁.tr t = (Act.took (origin.fresh bufs)
        (bufs.flatten.take a.status.toNat)).run (s.tr t) := State.tr_act_self ..
    have hheld₁ : (s₁.tr t).held = (s.tr t).held := by rw [htr]; rfl
    have hb₁ : Base starving (s₁.tr t) := by
      rw [htr]
      exact ⟨hb.live, hb.sum, hb.pendingRead, hb.lost, hb.detached⟩
    have ha₁ : Above (s₁.tr t) := by
      rw [htr]
      exact ha
    have hstuck₁ : Stuck (s.tr t) → Stuck (s₁.tr t) := by
      rw [htr]
      exact id
    have hpending₁ : (s₁.tr t).pending = [] := by
      rw [htr]
      exact hpending
    have hup₁ : (s₁.tr t).givesUp = false := by
      rw [htr]
      exact hup
    have hclosing₁ : (s₁.tr t).closing = false := (Transport.givesUp_eq_false.mp hup₁).2.1
    have hviews₁ : (views : Multiset ℕ) ≤ (s₁.tr t).held := hheld₁ ▸ hviews
    have hbytes₁ : BytesOk (s₁.tr t) (advance a.status.toNat bufs).flatten := by
      rw [htr, flatten_advance]
      exact bytesOk_took hfresh _
    split
    · rename_i hall
      have hi : Intact starving (s₁.tr t) ((s₁.act t (.releaseViews views)).tr t) := by
        rw [State.tr_act_self s₁]
        rw [hall] at hbytes₁
        have hk₁ : Kept (s₁.tr t) := .of_bytes (h₁.reach.ledger t) hbytes₁ hclosing₁
        refine .releaseViews hb₁ ?_ ha₁ (fun hne => absurd hpending₁ hne) hk₁
        rw [Transport.pendingBytes, hpending₁]
        exact hbytes₁
      refine hQ _ _ ((h₁.releaseViews hviews₁).after hsteps hframe hheld₁)
        (hi.base.closable hi.bytes)
        (fun _ => ⟨hi.base, hi.bytes, hi.above, hi.queued, hi.kept, fun h => ?_⟩) (by simp)
      exact hi.stuck (hstuck₁ h)
    · refine wp_queueRest h₁ hup₁ hb₁ ha₁ hviews₁ hpending₁ hbytes₁ fun r s' hwrote hcl hi hr => ?_
      refine hQ r s' (hwrote.after hsteps hframe hheld₁) hcl (fun hcase => ?_) (absurd · hr)
      have hi := hi hcase
      exact ⟨hi.base, hi.bytes, hi.above, hi.queued, hi.kept, fun h => hi.stuck (hstuck₁ h)⟩
  split
  · refine wp_forceClose _ _ hw.mid hc (by simp) fun s' hl _ => ?_
    exact hQ _ s' (hw.leads hl) hl.settled.closable (fun _ => hl.settled.intact) (by simp)
  · exact hqueue

/-- Flushing the pending batch. -/
theorem wp_flushPending {Q : Unit → State → Prop} (h : Mid starving t s)
    (hb : Base starving (s.tr t)) (hbytes : BytesOk (s.tr t) (s.tr t).pendingBytes)
    (ha : Above (s.tr t)) (hstuck : Stuck (s.tr t))
    (hk : (s.tr t).closing = false ∨ Kept (s.tr t))
    (hQ : ∀ s', Leads starving t s s' → Q () s') :
    (flushPending t).wp (env starving) (spec starving) Q s := by
  simp only [flushPending, Prog.wp_bind, wp_self, Prog.wp_ite, wp_act, Prog.wp_pure]
  split
  · rename_i hnil
    have hkept : Kept (s.tr t) := by
      have hempty : (s.tr t).pendingBytes = [] := by rw [Transport.pendingBytes, hnil]; rfl
      exact hk.elim (.of_bytes (h.reach.ledger t) (hempty ▸ hbytes)) id
    exact hQ s (.refl h ⟨hb, hbytes, ha, hstuck, fun hne => absurd hnil hne, hkept⟩)
  rename_i hpending
  let views := (s.tr t).pending.map Buf.view
  let s₁ := s.act t .takePending
  have h₁ : Mid starving t s₁ := h.act rfl trivial
  have hsteps : Steps true s s₁ := h.stepAct rfl rfl trivial
  have htr : s₁.tr t = Act.takePending.run (s.tr t) := State.tr_act_self ..
  have hheld₁ : (s₁.tr t).held = (s.tr t).held + (s.tr t).pendingViews := by rw [htr]; rfl
  have hb₁ : Base starving (s₁.tr t) := by
    rw [htr]
    exact ⟨hb.live, hb.sum, hb.pendingRead, hb.lost, hb.detached⟩
  have ha₁ : Above (s₁.tr t) := by
    rw [htr]
    exact ha
  have hpending₁ : (s₁.tr t).pending = [] := by rw [htr]; rfl
  have hviews : (views : Multiset ℕ) ≤ (s₁.tr t).held := by
    rw [hheld₁]
    exact Multiset.le_add_left _ _
  have hbytes₁ : BytesOk (s₁.tr t) (Origin.batch.rest ((s.tr t).pending.map Buf.data)) := by
    rw [htr]
    exact hbytes
  have hk₁ : (s₁.tr t).closing = false ∨ Kept (s₁.tr t) := by
    rw [htr]
    exact hk.imp id fun hk => hk.run ⟨by simp, by simp⟩
  refine wp_writeBufs h₁ hb₁ ha₁ hviews hpending₁ hbytes₁ hk₁ fun r s₂ hw hc hi heof => ?_
  -- the views of the batch have come and gone
  have hframe : Frame s s₂ := by
    refine ((FrameBut.act rfl rfl).trans hw.frame).frame ?_
    rw [hw.held, hheld₁]
    exact Multiset.add_sub_cancel_right
  cases r with
  | error exc =>
    refine wp_forceClose _ _ hw.mid hc (fun _ hexc => ?_) fun s' hl _ =>
      hQ s' (hl.after (hsteps.trans hw.steps) hframe)
    -- a batch that is refused after `write_eof()` was left over by it
    obtain ⟨heof, hhist⟩ := heof (by rw [Option.some.inj hexc])
    rw [htr] at heof hhist
    rw [hhist]
    exact (h.reach.ledger t).leftover heof hpending
  | ok =>
    have hi := hi (.inr rfl)
    exact wp_maybeResumeProtocol hw.mid hi.base hi.bytes hi.above hi.queued hi.kept fun s' hl =>
      hQ s' (hl.after (hsteps.trans hw.steps) hframe)

/-- Putting a transport on the flush list puts `Queued` right. -/
theorem wp_scheduleFlush {Q : Unit → State → Prop} (h : Mid starving t s)
    (hb : Base starving (s.tr t)) (hbytes : BytesOk (s.tr t) (s.tr t).pendingBytes)
    (ha : Above (s.tr t)) (hstuck : Stuck (s.tr t)) (hk : Kept (s.tr t))
    (hQ : ∀ s', Leads starving t s s' → Q () s') :
    (scheduleFlush t).wp (env starving) (spec starving) Q s := by
  simp only [scheduleFlush, Prog.wp_bind, wp_getState, Prog.wp_ite, wp_act, wp_update,
    Prog.wp_pure]
  rw [if_neg (by rw [h.reach.global.opened]; exact Bool.false_ne_true)]
  split
  swap
  · rename_i hq
    refine hQ s (.refl h ⟨hb, hbytes, ha, hstuck, fun _ => ?_, hk⟩)
    simpa using hq
  rename_i hq
  rw [Bool.not_eq_true'] at hq
  have hstep : Step true s (s.queueFlush t) := .queueFlush t h.made hq h.prepared
  have htr : ∀ u, (s.queueFlush t).tr u =
      if u = t then (s.tr u).setFlushQueued true else s.tr u := s.tr_queueFlush t
  have hself : (s.queueFlush t).tr t = (s.tr t).setFlushQueued true := by rw [htr, if_pos rfl]
  refine hQ _ ⟨⟨h.reach.tail hstep.mono, fun u hu => ?_, h.depth, h.prepared, ?_⟩, ?_,
    .single hstep, ⟨rfl, rfl, rfl, fun u => ?_, fun u => ?_, fun u => ?_⟩⟩
  · rw [htr, if_neg hu]
    exact h.others u hu
  · rw [hself]
    exact h.made
  · rw [hself]
    exact ⟨⟨hb.live, hb.sum, hb.pendingRead, hb.lost, hb.detached⟩, hbytes, ha, hstuck,
      fun _ => rfl, hk⟩
  all_goals
    rw [htr]
    split <;> rfl

/-- The loop that makes room meets its contract, given that it does when it goes round again. -/
theorem wp_makeRoomBody (h : Crowded starving t s) :
    (makeRoomBody t).wp (env starving) (spec starving) (fun _ s' =>
      Leads starving t s s' ∧ ((s'.tr t).givesUp = true ∨ (s'.tr t).full = false)) s := by
  simp only [makeRoomBody, Prog.wp_bind]
  refine wp_flushPending h.toMid h.base h.bytes h.above h.stuck (.inr h.kept) fun s₁ hl => ?_
  simp only [wp_self, Prog.wp_ite, Prog.wp_pure]
  split
  · rename_i hup
    exact ⟨hl, .inl hup⟩
  split
  · rw [Prog.wp_invoke]
    refine ⟨⟨hl.mid, hl.settled.base, hl.settled.bytes, hl.settled.above, hl.settled.stuck,
      hl.settled.kept⟩, ?_⟩
    rintro s₂ ⟨hl₂, hroom⟩
    exact ⟨hl.trans hl₂, hroom⟩
  · rename_i hfull
    exact ⟨hl, .inr (by simpa using hfull)⟩

/-- Views are taken off one after the other. -/
theorem sub_coe_cons (m : Multiset ℕ) (v : ℕ) (views : List ℕ) :
    m - ((v :: views : List ℕ) : Multiset ℕ) = m - {v} - (views : Multiset ℕ) := by
  rw [← Multiset.cons_coe, Multiset.sub_cons, Multiset.sub_singleton]

/-- A vector that is stored in the batch. The batch may not be on the flush list until the end. -/
theorem wp_appendPending {Q : Unit → State → Prop} (bufs : List Buf) (h : Crowded starving t s)
    (hup : (s.tr t).givesUp = false)
    (hviews : ((bufs.map Buf.view : List ℕ) : Multiset ℕ) ≤ (s.tr t).held)
    (hQ : ∀ s', Wrote starving t (bufs.map Buf.view) s s' → Settled starving (s'.tr t) →
      Q () s') :
    (appendPending t bufs).wp (env starving) (spec starving) Q s := by
  induction bufs generalizing s Q with
  | nil =>
    rw [appendPending]
    refine wp_scheduleFlush h.toMid h.base h.bytes h.above h.stuck h.kept fun s' hl =>
      hQ s' ⟨hl.mid, hl.steps, hl.frame.but t, ?_⟩ hl.settled
    rw [hl.frame.held]
    exact (Multiset.sub_zero _).symm
  | cons b rest ih =>
    simp only [appendPending, Prog.wp_bind, wp_self, Prog.wp_ite, wp_act]
    -- storing a buffer once there is room
    have hstore : ∀ s₁, Crowded starving t s₁ → (s₁.tr t).givesUp = false →
        (s₁.tr t).full = false → (s₁.tr t).held = (s.tr t).held → Steps true s s₁ →
        FrameBut t s s₁ →
        (appendPending t rest).wp (env starving) (spec starving) Q (s₁.act t (.store b)) := by
      intro s₁ h₁ hup₁ hfull₁ hheld₁ hsteps hframe
      have hle : ((b.view :: rest.map Buf.view : List ℕ) : Multiset ℕ) ≤ (s₁.tr t).held := by
        rw [hheld₁]
        exact hviews
      have hmem : ({b.view} : Multiset ℕ) ≤ (s₁.tr t).held := by
        rw [Multiset.singleton_le]
        exact Multiset.mem_of_le hle (by simp)
      have hroom : (s₁.tr t).pending.length < pendingMax := by
        have := h₁.sane.room
        rw [Transport.full, beq_eq_false_iff_ne] at hfull₁
        omega
      have hok : (Act.store b).Allowed (s₁.tr t) := ⟨hmem, hroom, hup₁⟩
      let s₂ := s₁.act t (.store b)
      have htr : s₂.tr t = (Act.store b).run (s₁.tr t) := State.tr_act_self ..
      have hheld₂ : (s₂.tr t).held = (s₁.tr t).held - {b.view} := by rw [htr]; rfl
      have h₂ : Crowded starving t s₂ := by
        refine ⟨h₁.toMid.act rfl hok, ?_, ?_, ?_, ?_, ?_⟩ <;> rw [htr]
        · exact ⟨h₁.base.live, h₁.base.sum, h₁.base.pendingRead, h₁.base.lost, h₁.base.detached⟩
        · intro htorn
          obtain ⟨hpre, heq⟩ := h₁.bytes htorn
          refine ⟨hpre.trans (List.prefix_append _ _), fun hcl => ?_⟩
          change (s₁.tr t).handedOver ++ (((s₁.tr t).pending ++ [b]).map Buf.data).flatten =
            (s₁.tr t).accepted ++ b.data
          rw [← heq hcl, Transport.pendingBytes, List.map_append, List.flatten_append,
            List.append_assoc]
          simp
        · exact h₁.above
        · exact fun _ _ => .inr (by simp [Act.run])
        · exact h₁.kept.run ⟨by simp, by simp⟩
      refine ih h₂ (by rw [htr]; exact hup₁) ?_ fun s' hw hs => hQ s' ?_ hs
      · rw [hheld₂, Multiset.sub_singleton]
        have := Multiset.erase_le_erase b.view hle
        rwa [← Multiset.cons_coe, Multiset.erase_cons_head] at this
      · refine ⟨hw.mid, (hsteps.trans (h₁.stepAct rfl rfl hok)).trans hw.steps,
          (hframe.trans (FrameBut.act rfl rfl)).trans hw.frame, ?_⟩
        rw [hw.held, hheld₂, hheld₁, List.map_cons, sub_coe_cons]
    split
    · rw [Prog.wp_invoke]
      refine ⟨h, ?_⟩
      rintro s₁ ⟨hl, hroom⟩
      have h₁ : Crowded starving t s₁ :=
        ⟨hl.mid, hl.settled.base, hl.settled.bytes, hl.settled.above, hl.settled.stuck,
      hl.settled.kept⟩
      split
      · -- the flush closed the transport, so what is left of the vector is dropped
        have hle : (((b :: rest).map Buf.view : List ℕ) : Multiset ℕ) ≤ (s₁.tr t).held := by
          rw [hl.frame.held]
          exact hviews
        have hw := hl.mid.releaseViews hle
        refine hQ _ (hw.after hl.steps (hl.frame.but t) (hl.frame.held t)) ?_
        rw [State.tr_act_self]
        have he : ((Act.releaseViews ((b :: rest).map Buf.view)).run (s₁.tr t)).essence =
            (s₁.tr t).essence := rfl
        exact hl.settled.of_essence he (.refl _)
      · rename_i hup₁
        rw [Bool.not_eq_true] at hup₁
        refine hstore s₁ h₁ hup₁ (hroom.resolve_left ?_) (hl.frame.held t) hl.steps
          (hl.frame.but t)
        rw [hup₁]
        exact Bool.false_ne_true
    · rename_i hfull
      rw [Bool.not_eq_true] at hfull
      exact hstore s h hup hfull rfl .refl (.refl t s)

/-- A settled transport is fit for `appendPending`. -/
theorem Settled.crowded (ht : Settled starving (s.tr t)) (h : Mid starving t s) :
    Crowded starving t s :=
  ⟨h, ht.base, ht.bytes, ht.above, ht.stuck, ht.kept⟩

/-- Accepting a write. -/
theorem wp_submitWrite (bufs : List Buf) {Q : Except Exc Unit → State → Prop}
    (h : Mid starving t s) (ht : Settled starving (s.tr t))
    (hviews : ((bufs.map Buf.view : List ℕ) : Multiset ℕ) ≤ (s.tr t).held)
    (hQ : ∀ r s', Wrote starving t (bufs.map Buf.view) s s' → Settled starving (s'.tr t) →
      Q r s') :
    (submitWrite t bufs).wp (env starving) (spec starving) Q s := by
  simp only [submitWrite, Prog.wp_bind, wp_self, Prog.wp_ite]
  split
  · rename_i hdirect
    have hbytes : BytesOk (s.tr t) (Origin.direct.rest (bufs.map Buf.data)) := by
      have := ht.bytes
      rwa [Transport.pendingBytes, hdirect.1] at this
    refine wp_writeBufs h ht.base ht.above hviews hdirect.1 hbytes (.inr ht.kept)
      fun r s₁ hw _ hi _ => ?_
    have hintact := hi (.inl rfl)
    cases r with
    | error exc =>
      exact hQ _ s₁ hw ⟨hintact.base, hintact.bytes, hintact.above, hintact.stuck ht.stuck,
        hintact.queued, hintact.kept⟩
    | ok =>
      simp only [Prog.wp_bind]
      exact wp_maybeResumeProtocol hw.mid hintact.base hintact.bytes hintact.above hintact.queued
        hintact.kept fun s' hl => hQ _ s' (hw.leads hl) hl.settled
  · refine wp_acceptsWrite (fun r hr _ _ => ?_) fun hup => ?_
    · have hw := h.releaseViews hviews
      have hs : Settled starving ((s.act t (.releaseViews (bufs.map Buf.view))).tr t) := by
        rw [State.tr_act_self]
        have he : ((Act.releaseViews (bufs.map Buf.view)).run (s.tr t)).essence =
            (s.tr t).essence := rfl
        exact ht.of_essence he (.refl _)
      rcases r with exc | _ | _
      · exact hQ _ _ hw hs
      · exact hQ _ _ hw hs
      · exact absurd rfl hr
    · simp only [Prog.wp_bind]
      refine wp_appendPending bufs (ht.crowded h) hup hviews fun s₁ hw hs => ?_
      simp only [wp_getState, Prog.wp_ite, Prog.wp_bind, Prog.wp_pure]
      split
      · exact wp_flushPending hw.mid hs.base hs.bytes hs.above hs.stuck (.inr hs.kept) fun s' hl =>
          hQ _ s' (hw.leads hl) hl.settled
      · exact hQ _ s₁ hw hs

/-! ## Closing -/

/-- Half-closing a stream that has nothing left to send. -/
theorem wp_shutdownWrite {Q : Unit → State → Prop} (h : Mid starving t s)
    (ht : Settled starving (s.tr t)) (hsize : (s.tr t).writeBufferSize = 0)
    (hQ : ∀ s', Leads starving t s s' → Q () s') :
    (shutdownWrite t).wp (env starving) (spec starving) Q s := by
  simp only [shutdownWrite, Prog.wp_bind, wp_alloc, Prog.wp_ite, wp_request, wp_act]
  intro ok _
  split
  · intro _ _
    exact hQ _ (h.leadsAct ht rfl rfl ⟨hsize, ht.kept⟩ rfl (.concat rfl) rfl rfl)
  · exact wp_forceClose _ _ h ht.closable (by simp) fun s' hl _ => hQ s' hl

/-- A closing transport is settled if its close is under way. -/
theorem Base.settled_of_closing {tr : Transport} (h : Base starving tr)
    (hclosing : tr.closing = true) (hbytes : tr.torn = false → tr.handedOver <+: tr.accepted)
    (hq : Queued tr) (hk : Kept tr) : Settled starving tr where
  base := h
  bytes := fun ht => ⟨hbytes ht, fun hc => by simp [hclosing] at hc⟩
  above := fun hc => by simp [hclosing] at hc
  stuck := fun hc => by simp [hclosing] at hc
  queued := hq
  kept := hk

/-- A transport is settled, but for a flush that a close in good order has yet to make. -/
structure Flushable (starving : Prop) (tr : Transport) : Prop where
  /-- The close. -/
  base : Base starving tr
  /-- The bytes. -/
  bytes : BytesOk tr tr.pendingBytes
  /-- The pause. -/
  above : Above tr
  /-- The resume. -/
  stuck : Stuck tr
  /-- The flush. -/
  queued : Queued tr
  /-- A flush hands over what was accepted. -/
  kept : tr.closing = false ∨ Kept tr

theorem Settled.flushable {tr : Transport} (h : Settled starving tr) : Flushable starving tr :=
  ⟨h.base, h.bytes, h.above, h.stuck, h.queued, .inr h.kept⟩

theorem Flushable.settled {tr : Transport} (h : Flushable starving tr) (hc : tr.closing = true) :
    Settled starving tr :=
  ⟨h.base, h.bytes, h.above, h.stuck, h.queued, h.kept.resolve_left (by simp [hc])⟩

/-- A close or half-close in good order begins. -/
theorem Settled.begin {tr : Transport} (h : Settled starving tr) (e : Event)
    (hclosing : tr.closing = false) : Flushable starving (tr.record e) := by
  have he : (tr.record e).essence = tr.essence := rfl
  exact ⟨h.base.of_essence he (List.subset_append_left _ _), h.bytes.of_essence he,
    h.above.of_essence he, h.stuck.of_essence he, h.queued.of_essence he, .inl hclosing⟩

/-- The flush of a close or half-close in good order. -/
theorem wp_flushPending_of_flushable {Q : Unit → State → Prop} (h : Mid starving t s)
    (hf : Flushable starving (s.tr t)) (hQ : ∀ s', Leads starving t s s' → Q () s') :
    (flushPending t).wp (env starving) (spec starving) Q s :=
  wp_flushPending h hf.base hf.bytes hf.above hf.stuck hf.kept hQ

/-- Closing in good order. -/
theorem wp_closeTransport {Q : Unit → State → Prop} (h : Mid starving t s)
    (hf : Flushable starving (s.tr t)) (hQ : ∀ s', Leads starving t s s' → Q () s') :
    (closeTransport t).wp (env starving) (spec starving) Q s := by
  simp only [closeTransport, Prog.wp_bind, wp_act, wp_self, Prog.wp_ite, Prog.wp_pure]
  have hrun : (s.act t .setCloseRequested).tr t = Act.setCloseRequested.run (s.tr t) :=
    State.tr_act_self ..
  have hsteps₁ := h.stepAct (a := .setCloseRequested) rfl rfl trivial
  split
  · rename_i hclosing
    rw [hrun] at hclosing
    exact hQ _ (h.leadsAct (hf.settled hclosing) rfl rfl trivial rfl (.refl _) rfl rfl)
  have h₁ : Mid starving t (s.act t .setCloseRequested) := h.act rfl trivial
  have hf₁ : Flushable starving ((s.act t .setCloseRequested).tr t) := by
    rw [hrun]
    have he : (Act.setCloseRequested.run (s.tr t)).essence = (s.tr t).essence := rfl
    exact ⟨hf.base.of_essence he (List.Subset.refl _), hf.bytes.of_essence he,
      hf.above.of_essence he, hf.stuck.of_essence he, hf.queued.of_essence he,
      hf.kept.imp id fun hk => hk.of_essence he (.refl _)⟩
  refine wp_flushPending_of_flushable h₁ hf₁ fun s₂ hl₂ => ?_
  have hl : Leads starving t s s₂ :=
    hl₂.after hsteps₁ ((FrameBut.act rfl rfl).frame (by rw [hrun]; rfl))
  have ht₂ := hl.settled
  obtain ⟨hist, hsub, hrun⟩ := run_setClosing (s₂.tr t)
  let s₃ := s₂.act t .setClosing
  have h₃ : Mid starving t s₃ := hl.mid.act rfl trivial
  have htr : s₃.tr t = { s₂.tr t with closing := true, history := hist } := by
    rw [State.tr_act_self, hrun]
  have hsteps : Steps true s s₃ := hl.steps.trans (hl.mid.stepAct rfl rfl trivial)
  have hframe : Frame s s₃ := by
    refine hl.frame.trans ((FrameBut.act ?_ ?_).frame ?_)
    · rw [hrun]
    · rw [hrun]
    · rw [htr]
  have hc₃ : Closable starving (s₃.tr t) := by
    have hbytes : BytesOk { s₂.tr t with history := hist } (s₂.tr t).pendingBytes := ht₂.bytes
    have hc := (ht₂.base.history hsub.subset).closable hbytes
    rw [htr]
    exact ⟨hc.pendingRead, hc.lost, hc.detached, hc.bytes⟩
  have hclosing₃ : (s₃.tr t).closing = true := by rw [htr]
  have hq₃ : Queued (s₃.tr t) := by
    rw [htr]
    exact ht₂.queued
  have hk₃ : Kept (s₃.tr t) := by
    rw [htr]
    exact ht₂.kept.of_grows rfl le_rfl hsub
  have hsum₃ : (s₃.tr t).opened = true → (s₃.tr t).writeBufferSize = (s₃.tr t).requestSize ∨
      (s₃.tr t).closing = true ∧ (s₃.tr t).writeBufferSize = 0 ∧
        (s₃.tr t).readStatePending = true := by
    rw [htr]
    exact fun ho => (ht₂.base.sum ho).imp_right fun hs => ⟨rfl, hs.2⟩
  split
  · -- the close is left to `onRead`
    rename_i halloc
    have h₄ : Mid starving t (s₃.act t .setReadStatePending) := h₃.act rfl halloc
    refine hQ _ ⟨h₄, ?_, hsteps.trans (h₃.stepAct rfl rfl halloc),
      hframe.trans ((FrameBut.act rfl rfl).frame (by rw [State.tr_act_self s₃]; rfl))⟩
    rw [State.tr_act_self s₃]
    refine Base.settled_of_closing ⟨fun _ _ => .inr rfl, fun ho => ?_, fun _ => halloc, hc₃.lost,
      hc₃.detached⟩ hclosing₃ hc₃.bytes hq₃ (hk₃.run (a := .setReadStatePending) ⟨by simp, by simp⟩)
    exact (hsum₃ ho).imp_right fun hs => ⟨hs.1, hs.2.1, rfl⟩
  -- what is left once reading has stopped
  have hrest : ∀ s₄, Mid starving t s₄ → Steps true s s₄ → Frame s s₄ →
      (s₄.tr t).essence = (s₃.tr t).essence → Grows (s₃.tr t).history (s₄.tr t).history →
      if (s₃.tr t).writeBufferSize = 0 then
        (shutdownAndClose t).wp (env starving) (spec starving) Q s₄
      else Q () s₄ := by
    intro s₄ h₄ hsteps₄ hframe₄ he hh
    have hclosing₄ : (s₄.tr t).closing = true :=
      (congrArg Transport.closing he :).trans hclosing₃
    have hq₄ : Queued (s₄.tr t) := hq₃.of_essence he
    have hc₄ : Closable starving (s₄.tr t) := by
      have hb : Base starving { s₃.tr t with opened := false } :=
        ⟨fun _ ho => (by cases ho), fun ho => (by cases ho), hc₃.pendingRead, hc₃.lost,
          hc₃.detached⟩
      have hb₄ : Base starving { s₄.tr t with opened := false } := by
        refine hb.of_essence ?_ hh.subset
        exact congrArg (fun tr : Transport => { tr with opened := false }) he
      have hbytes₄ : BytesOk (s₄.tr t) [] :=
        (show BytesOk (s₃.tr t) [] from fun htorn => ⟨hc₃.bytes htorn, fun hcl => by
          simp [hclosing₃] at hcl⟩).of_essence he
      exact ⟨hb₄.pendingRead, hb₄.lost, hb₄.detached, fun htorn => (hbytes₄ htorn).1⟩
    have hk₄ : Kept (s₄.tr t) := hk₃.of_essence he hh
    split
    · rename_i hsize
      have hsize₄ : (s₄.tr t).writeBufferSize = 0 :=
        (congrArg Transport.writeBufferSize he :).trans hsize
      exact wp_shutdownAndClose h₄ hclosing₄ hc₄ hq₄ (.inr ⟨hsize₄, hk₄⟩) fun s' hl' _ =>
        hQ s' (hl'.after hsteps₄ hframe₄)
    · rename_i hsize
      have hb₃ : Base starving (s₃.tr t) :=
        ⟨fun _ _ => .inl (Nat.pos_of_ne_zero hsize), hsum₃, hc₃.pendingRead, hc₃.lost,
          hc₃.detached⟩
      exact hQ s₄ ⟨h₄, (hb₃.of_essence he hh.subset).settled_of_closing hclosing₄ hc₄.bytes hq₄ hk₄,
        hsteps₄, hframe₄⟩
  split
  · refine hrest (s₃.act t .readStop) (h₃.act rfl trivial)
      (hsteps.trans (h₃.stepAct rfl rfl trivial))
      (hframe.trans ((FrameBut.act rfl rfl).frame ?_)) ?_ ?_ <;> rw [State.tr_act_self s₃]
    · rfl
    · rfl
    · exact .refl _
  · exact hrest s₃ h₃ hsteps hframe rfl (.refl _)

end Zuvloop.Stream
