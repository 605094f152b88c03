import Zuvloop.Stream.Verify

/-!
# The methods of the transport

The rules for the methods Python code calls, on top of those of `Zuvloop.Stream.Verify`. A method
leads from one state in which control may be given away to another, by steps of Python code.
-/

namespace Zuvloop.Stream

open Reentrant

variable {starving : Prop} {t : ℕ} {s : State}

/-! ## States in which control may be given away -/

/-- What a native call knows while every transport is settled. -/
structure Inside (starving : Prop) (s : State) : Prop where
  /-- The state is reachable by steps. -/
  reach : Reachable s
  /-- Every transport is settled. -/
  settled : ∀ u, Settled starving (s.tr u)
  /-- A native call is in progress. -/
  depth : 0 < s.depth
  /-- libuv is not about to poll. -/
  prepared : s.prepared = false

/-- A native call goes from `s` to `s'`. -/
structure Ends (starving : Prop) (s s' : State) : Prop where
  /-- Control may be given away. -/
  inside : Inside starving s'
  /-- The rest is as it was. -/
  frame : Frame s s'

theorem Inside.mid (h : Inside starving s) (hm : (s.tr t).made = true) : Mid starving t s :=
  ⟨h.reach, fun u _ => h.settled u, h.depth, h.prepared, hm⟩

theorem Inside.inv (h : Inside starving s) : Inv starving s where
  reach := h.reach
  settled := h.settled
  rest := fun hd => absurd h.depth (by omega)
  prepared := fun hp => by simp [h.prepared] at hp

theorem Mid.inside (h : Mid starving t s) (ht : Settled starving (s.tr t)) : Inside starving s :=
  ⟨h.reach, fun u => if hu : u = t then hu ▸ ht else h.others u hu, h.depth, h.prepared⟩

theorem Leads.ends {s' : State} (h : Leads starving t s s') : Ends starving s s' :=
  ⟨h.mid.inside h.settled, h.frame⟩

theorem Ends.refl (h : Inside starving s) : Ends starving s s := ⟨h, .refl s⟩

theorem Ends.trans {s₁ s₂ s₃ : State} (h₁ : Ends starving s₁ s₂) (h₂ : Ends starving s₂ s₃) :
    Ends starving s₁ s₃ :=
  ⟨h₂.inside, h₁.frame.trans h₂.frame⟩

/-- Python code runs while no transport is worked on. -/
theorem wp_foreign_inside {c : Callback} {Q : Result → State → Prop} (h : Inside starving s)
    (hQ : ∀ r s', Ends starving s s' → Steps true s s' → Q r s') :
    (foreign c).wp (env starving) (spec starving) Q s := by
  refine Prog.wp_foreign (A := spec starving) (Rely.refl s) h.inv fun r s' hrely hinv => ?_
  have hd : 0 < s'.depth := hrely.frame.depth ▸ h.depth
  refine hQ r s' ⟨⟨hinv.reach, hinv.settled, hd, ?_⟩, hrely.frame⟩ (hrely.steps h.depth)
  by_contra hp
  have := (hinv.prepared ((Bool.not_eq_false _).mp hp)).2
  omega

/-- A change of the loop that touches neither transports nor calls in progress. -/
theorem Inside.core (h : Inside starving s) {c : Loop.Core Call} (hc : SameFlush s.toCore c)
    (hi : s.uvIdle = true → c.uvIdle = true) (hr : c.running = s.running) :
    Ends starving s { s with toCore := c } ∧ Steps true s { s with toCore := c } := by
  have hstep : Step true s { s with toCore := c } := .core c hc hi hr
  refine ⟨⟨⟨h.reach.tail hstep.mono, h.settled, h.depth, h.prepared⟩, ?_⟩, .single hstep⟩
  exact ⟨rfl, rfl, rfl, fun _ => rfl, fun _ => rfl, fun _ => rfl⟩

/-- The loop starts, stops or takes a callback off the ready queue. -/
theorem Inside.turn (h : Inside starving s) {c : Loop.Core Call} (hc : SameFlush s.toCore c)
    (hf : s.flushing = false) : Ends starving s { s with toCore := c } := by
  have hstep : Step false s { s with toCore := c } := .turn c rfl hc hf h.prepared
  refine ⟨⟨h.reach.tail hstep, h.settled, h.depth, h.prepared⟩, ?_⟩
  exact ⟨rfl, rfl, rfl, fun _ => rfl, fun _ => rfl, fun _ => rfl⟩

/-! ## Changes of the loop -/

/-- Nothing of the flush changes as long as these fields stay. -/
theorem SameFlush.of_eq {c c' : Loop.Core Call} (h : c'.flushHead = c.flushHead)
    (ha : c'.flusherActive = c.flusherActive) (hp : c'.uvPrepare = c.uvPrepare)
    (hc : c'.closed = c.closed) (hh : c'.closingHandles = c.closingHandles)
    (hr : c'.ready = c.ready) : SameFlush c c' :=
  ⟨h, ha, hp, hc, hh, fun _ hcall => .inl (hr ▸ hcall)⟩

theorem sameFlush_captureFatal (c : Loop.Core Call) : SameFlush c c.captureFatal :=
  .of_eq rfl rfl rfl rfl rfl rfl

theorem sameFlush_startIdle (c : Loop.Core Call) : SameFlush c c.startIdle := by
  unfold Loop.Core.startIdle
  split <;> exact .of_eq rfl rfl rfl rfl rfl rfl

theorem sameFlush_stopIdle (c : Loop.Core Call) : SameFlush c c.stopIdle := by
  unfold Loop.Core.stopIdle
  split <;> exact .of_eq rfl rfl rfl rfl rfl rfl

theorem startIdle_uvIdle {c : Loop.Core Call} (h : c.uvIdle = true) :
    c.startIdle.uvIdle = true := by
  unfold Loop.Core.startIdle
  split
  · rfl
  · exact h

theorem startIdle_running (c : Loop.Core Call) : c.startIdle.running = c.running := by
  unfold Loop.Core.startIdle
  split <;> rfl

/-! ## Methods -/

/-- A write in progress acquired views. -/
structure Acquired (starving : Prop) (t : ℕ) (views : List ℕ) (s s' : State) : Prop where
  /-- The transport and the loop are in order. -/
  mid : Mid starving t s'
  /-- The transport is settled. -/
  settled : Settled starving (s'.tr t)
  /-- The steps are those of Python code. -/
  steps : Steps true s s'
  /-- The rest is as it was. -/
  frame : FrameBut t s s'
  /-- The views are held. -/
  held : (s'.tr t).held = (s.tr t).held + views

/-- A write that acquired its views and gave them all up leaves none behind. -/
theorem Acquired.leads {views : List ℕ} {s₁ s' : State} (h : Acquired starving t views s s₁)
    (hw : Wrote starving t views s₁ s') (hs : Settled starving (s'.tr t)) :
    Leads starving t s s' := by
  refine ⟨hw.mid, hs, h.steps.trans hw.steps, (h.frame.trans hw.frame).frame ?_⟩
  rw [hw.held, h.held, Multiset.add_sub_cancel_right]

/-- The views a write acquired can be given up. -/
theorem Acquired.le {views : List ℕ} {s' : State} (h : Acquired starving t views s s') :
    (views : Multiset ℕ) ≤ (s'.tr t).held := by
  rw [h.held]
  exact Multiset.le_add_left _ _

/-- Giving up the views without writing. -/
theorem Acquired.release {views : List ℕ} {s' : State} (h : Acquired starving t views s s') :
    Leads starving t s (s'.act t (.releaseViews views)) := by
  refine h.leads (h.mid.releaseViews h.le) ?_
  rw [State.tr_act_self]
  have he : ((Act.releaseViews views).run (s'.tr t)).essence = (s'.tr t).essence := rfl
  exact h.settled.of_essence he (.refl _)

/-- Acquiring one more view. -/
theorem wp_acquireWriteView {views : List ℕ} {s₀ : State} {Q : Except Exc Buf → State → Prop}
    (h : Acquired starving t views s₀ s)
    (herror : ∀ exc s', Acquired starving t views s₀ s' → Q (.error exc) s')
    (hok : ∀ b s', Acquired starving t (views ++ [b.view]) s₀ s' → Q (.ok b) s') :
    (acquireWriteView t).wp (env starving) (spec starving) Q s := by
  simp only [acquireWriteView, Prog.wp_bind]
  refine wp_foreign h.mid h.settled fun r s₁ hl => ?_
  have h₁ : Acquired starving t views s₀ s₁ := by
    refine ⟨hl.mid, hl.settled, h.steps.trans hl.steps, h.frame.trans (hl.frame.but t), ?_⟩
    rw [hl.frame.held, h.held]
  cases hr : r.raised with
  | some exc => exact herror exc s₁ h₁
  | none =>
    simp only [wp_self, wp_act, Prog.wp_bind, Prog.wp_pure]
    refine hok _ _ ⟨hl.mid.act rfl trivial, ?_, h₁.steps.trans (hl.mid.stepAct rfl rfl trivial),
      h₁.frame.trans (FrameBut.act rfl rfl), ?_⟩
    · rw [State.tr_act_self]
      have he : (Act.acquireView.run (s₁.tr t)).essence = (s₁.tr t).essence := rfl
      exact hl.settled.of_essence he (.refl _)
    · rw [State.tr_act_self]
      change (s₁.tr t).acquired ::ₘ (s₁.tr t).held = _
      rw [h₁.held, ← Multiset.coe_add, ← add_assoc, Multiset.coe_singleton,
        Multiset.add_comm _ {_}, Multiset.singleton_add]

theorem wp_acquireAll {n : ℕ} (bufs : List Buf) {s₀ : State}
    {Q : Except Exc (List Buf) → State → Prop}
    (h : Acquired starving t (bufs.map Buf.view) s₀ s)
    (herror : ∀ exc s', Leads starving t s₀ s' → Q (.error exc) s')
    (hok : ∀ bufs' s', Acquired starving t (bufs'.map Buf.view) s₀ s' → Q (.ok bufs') s') :
    (acquireAll t n bufs).wp (env starving) (spec starving) Q s := by
  induction n generalizing s bufs with
  | zero => exact hok bufs s h
  | succ n ih =>
    simp only [acquireAll, Prog.wp_bind]
    refine wp_acquireWriteView h (fun exc s₁ h₁ => ?_) fun b s₁ h₁ => ?_
    · simp only [Prog.wp_bind, wp_act, Prog.wp_pure]
      exact herror exc _ h₁.release
    · refine ih (bufs ++ [b]) ?_
      rw [List.map_append]
      exact h₁

theorem Acquired.refl (h : Mid starving t s) (ht : Settled starving (s.tr t)) :
    Acquired starving t [] s s :=
  ⟨h, ht, .refl, .refl t s, (add_zero _).symm⟩

theorem wp_write {Q : Except Exc Unit → State → Prop} (h : Mid starving t s)
    (ht : Settled starving (s.tr t)) (hQ : ∀ r s', Leads starving t s s' → Q r s') :
    (write t).wp (env starving) (spec starving) Q s := by
  simp only [write, Prog.wp_bind]
  refine wp_acquireWriteView (.refl h ht) (fun exc s₁ h₁ => ?_) fun b s₁ h₁ => ?_
  · refine hQ _ s₁ ⟨h₁.mid, h₁.settled, h₁.steps, h₁.frame.frame ?_⟩
    rw [h₁.held]
    exact add_zero _
  · simp only [wp_self, Prog.wp_ite, Prog.wp_bind, wp_act, Prog.wp_pure]
    split
    · exact hQ _ _ h₁.release
    split
    · exact hQ _ _ h₁.release
    · exact wp_submitWrite [b] h₁.mid h₁.settled h₁.le fun r s' hw hs =>
        hQ r s' (h₁.leads hw hs)

theorem wp_writelines {Q : Except Exc Unit → State → Prop} (h : Mid starving t s)
    (ht : Settled starving (s.tr t)) (hQ : ∀ r s', Leads starving t s s' → Q r s') :
    (writelines t).wp (env starving) (spec starving) Q s := by
  simp only [writelines, Prog.wp_bind, wp_self, Prog.wp_ite, Prog.wp_pure]
  split
  · exact hQ _ s (.refl h ht)
  refine wp_foreign h ht fun r s₁ hl => ?_
  cases hr : r.raised with
  | some exc => exact hQ _ s₁ hl
  | none =>
    simp only [Prog.wp_ite, Prog.wp_bind, wp_alloc, Prog.wp_pure]
    split
    · exact hQ _ s₁ hl
    intro ok _
    split
    · exact hQ _ s₁ hl
    refine wp_acquireAll [] (.refl hl.mid hl.settled)
      (fun exc s₂ hl₂ => hQ _ s₂ (hl.trans hl₂)) fun bufs s₂ h₂ => ?_
    exact wp_submitWrite bufs h₂.mid h₂.settled h₂.le fun r s' hw hs =>
      hQ r s' (hl.trans (h₂.leads hw hs))

/-- A close or half-close in good order is recorded. -/
theorem Mid.begin (h : Mid starving t s) (ht : Settled starving (s.tr t)) {a : Act} {e : Event}
    (hrun : a.run (s.tr t) = (s.tr t).record e)
    (hplain : a.plain = true) (hpy : a.python = true) (hok : a.Allowed (s.tr t))
    (hclosing : (s.tr t).closing = false) :
    Mid starving t (s.act t a) ∧ Flushable starving ((s.act t a).tr t) ∧
      Steps true s (s.act t a) ∧ Frame s (s.act t a) := by
  have htr : (s.act t a).tr t = (s.tr t).record e := by rw [State.tr_act_self, hrun]
  refine ⟨h.act hplain hok, ?_, h.stepAct hplain hpy hok, (FrameBut.act ?_ ?_).frame ?_⟩
  · rw [htr]
    exact ht.begin e hclosing
  · rw [hrun]
    rfl
  · rw [hrun]
    rfl
  · rw [htr]
    rfl

theorem wp_writeEof {Q : Unit → State → Prop} (h : Mid starving t s)
    (ht : Settled starving (s.tr t)) (hQ : ∀ s', Leads starving t s s' → Q () s') :
    (writeEof t).wp (env starving) (spec starving) Q s := by
  simp only [writeEof, Prog.wp_bind, wp_self, Prog.wp_ite, wp_act, Prog.wp_pure]
  split
  · exact hQ s (.refl h ht)
  rename_i hup
  rw [Bool.not_eq_true, Bool.or_eq_false_iff, Bool.or_eq_false_iff] at hup
  have hok : Act.writeEofCalled.Allowed (s.tr t) :=
    Transport.givesUp_eq_false.mpr ⟨hup.1.1, hup.2, hup.1.2⟩
  obtain ⟨h₁, hf₁, hsteps₁, hframe₁⟩ := h.begin ht (a := .writeEofCalled) rfl rfl rfl hok hup.2
  refine wp_flushPending_of_flushable h₁ hf₁ fun s₂ hl₂ => ?_
  have hl₃ := hl₂.mid.leadsAct hl₂.settled (a := .setEofWritten) rfl rfl trivial rfl
    (.concat rfl) rfl rfl
  have hl := (hl₂.after hsteps₁ hframe₁).trans hl₃
  split
  · rename_i hsize
    exact wp_shutdownWrite hl₃.mid hl₃.settled hsize fun s' hl' => hQ s' (hl.trans hl')
  · exact hQ _ hl

theorem wp_close {Q : Unit → State → Prop} (h : Mid starving t s)
    (ht : Settled starving (s.tr t)) (hQ : ∀ s', Leads starving t s s' → Q () s') :
    (close t).wp (env starving) (spec starving) Q s := by
  simp only [close, Prog.wp_bind, wp_self, Prog.wp_ite, wp_act]
  split
  · rename_i hclosing
    rw [Bool.not_eq_true'] at hclosing
    obtain ⟨h₁, hf₁, hsteps₁, hframe₁⟩ := h.begin ht (a := .closeCalled) rfl rfl rfl hclosing
      hclosing
    exact wp_closeTransport h₁ hf₁ fun s' hl' => hQ s' (hl'.after hsteps₁ hframe₁)
  · exact wp_closeTransport h ht.flushable hQ

/-- The pause is recorded. -/
theorem Mid.readingPaused (h : Mid starving t s) (ht : Settled starving (s.tr t)) {early : Bool}
    (hok : (Act.readingPaused early).Allowed (s.tr t))
    (hearly : .startReading t ∈ s.ready.toList → early = true) :
    Leads starving t s (s.act t (.readingPaused early)) := by
  have hstep : Step true s (s.act t (.readingPaused early)) :=
    .readingPaused t early h.made hok hearly
  refine ⟨⟨h.reach.tail hstep.mono, fun u hu => ?_, h.depth, h.prepared, ?_⟩, ?_, .single hstep,
    (FrameBut.act rfl rfl).frame ?_⟩
  · rw [State.tr_act_ne _ hu]
    exact h.others u hu
  · rw [State.tr_act_self]
    exact h.made
  · rw [State.tr_act_self]
    have he : ((Act.readingPaused early).run (s.tr t)).essence = (s.tr t).essence := rfl
    exact ht.of_essence he (.concat rfl)
  · rw [State.tr_act_self]
    rfl

/-- Leaving reading to `onRead`. -/
theorem Mid.setReadStatePending (h : Mid starving t s) (ht : Settled starving (s.tr t))
    (halloc : (s.tr t).allocatingReadBuffer = true) :
    Leads starving t s (s.act t .setReadStatePending) := by
  refine ⟨h.act rfl halloc, ?_, h.stepAct rfl rfl halloc, (FrameBut.act rfl rfl).frame ?_⟩
  · rw [State.tr_act_self]
    refine ⟨⟨fun _ _ => .inr rfl, fun ho => ?_, fun _ => halloc, ht.base.lost, ht.base.detached⟩,
      ht.bytes, ht.above, ht.stuck, ht.queued, ht.kept.run (a := .setReadStatePending)
        ⟨nofun, nofun⟩⟩
    exact (ht.base.sum ho).imp_right fun hs => ⟨hs.1, hs.2.1, rfl⟩
  · rw [State.tr_act_self]
    rfl

theorem wp_pauseReading {Q : Unit → State → Prop} (h : Mid starving t s)
    (ht : Settled starving (s.tr t)) (hQ : ∀ s', Leads starving t s s' → Q () s') :
    (pauseReading t).wp (env starving) (spec starving) Q s := by
  simp only [pauseReading, Prog.wp_bind, wp_getState, wp_self, Prog.wp_ite, wp_act, Prog.wp_pure]
  cases halloc : (s.tr t).allocatingReadBuffer with
  | true =>
    simp only [Bool.not_true, Bool.false_eq_true, ↓reduceIte]
    split
    · exact hQ _ (h.setReadStatePending ht halloc)
    · exact hQ s (.refl h ht)
  | false =>
    simp only [Bool.not_false, Bool.false_eq_true, ↓reduceIte]
    split
    · have hl := h.leadsAct ht (a := .readStop) rfl rfl trivial rfl (.refl _) rfl rfl
      refine hQ _ (hl.trans (hl.mid.readingPaused hl.settled ?_ fun hmem => decide_eq_true hmem))
      rw [State.tr_act_self]
      exact ⟨halloc, rfl⟩
    · rename_i hreading
      rw [Bool.not_eq_true] at hreading
      exact hQ _ (h.readingPaused ht ⟨halloc, hreading⟩ fun hmem => decide_eq_true hmem)

/-- Reading starts unless it is held back. -/
theorem wp_startReading {Q : Except Exc Unit → State → Prop} (h : Mid starving t s)
    (ht : Settled starving (s.tr t))
    (hshut : Event.closingBegan ∉ (s.tr t).history → readingShut (s.tr t).history = false)
    (hQ : ∀ r s', Leads starving t s s' → Q r s') :
    (startReading t).wp (env starving) (spec starving) Q s := by
  simp only [startReading, Prog.wp_bind, wp_self, Prog.wp_ite, wp_request, wp_act, Prog.wp_pure]
  split
  · exact hQ _ s (.refl h ht)
  rename_i hclosing
  intro a _
  split
  · exact hQ _ s (.refl h ht)
  have hok : Act.readStart.Allowed (s.tr t) := by
    rw [Bool.not_eq_true, Bool.or_eq_false_iff, Bool.or_eq_false_iff] at hclosing
    refine ⟨Bool.or_eq_false_iff.mpr ⟨hclosing.1.2, hclosing.2⟩, hshut fun hbegan => ?_⟩
    have := Reachable.closing h.reach t hbegan
    rw [hclosing.1.2] at this
    cases this
  exact hQ _ _ (h.leadsAct ht rfl rfl hok rfl (.refl _) rfl rfl)

theorem wp_resumeReading {Q : Except Exc Unit → State → Prop} (h : Mid starving t s)
    (ht : Settled starving (s.tr t)) (hQ : ∀ r s', Leads starving t s s' → Q r s') :
    (resumeReading t).wp (env starving) (spec starving) Q s := by
  simp only [resumeReading, Prog.wp_bind, wp_act]
  have hl := h.leadsAct ht (a := .resumeReading) rfl rfl trivial rfl (.concat rfl)
    rfl rfl
  refine wp_startReading hl.mid hl.settled (fun hbegan => ?_) fun r s' hl' => hQ r s' (hl.trans hl')
  rw [State.tr_act_self] at hbegan ⊢
  have hbefore : Event.closingBegan ∉ (s.tr t).history := fun hmem =>
    hbegan (List.mem_append_left _ hmem)
  rw [show (Act.resumeReading.run (s.tr t)).history = (s.tr t).history ++ [.resumeReading] from rfl,
    readingShut_append]
  simp [hbefore]

theorem wp_startReadingMethod {Q : Unit → State → Prop} (h : Mid starving t s)
    (ht : Settled starving (s.tr t)) (hheld : heldBack (s.tr t).history = false)
    (hQ : ∀ s', Leads starving t s s' → Q () s') :
    (startReadingMethod t).wp (env starving) (spec starving) Q s := by
  simp only [startReadingMethod, Prog.wp_bind, wp_act]
  have hl := h.leadsAct ht (a := .startReading) rfl rfl trivial rfl (.startReading _) rfl rfl
  have hshut : Event.closingBegan ∉ ((s.act t .startReading).tr t).history →
      readingShut ((s.act t .startReading).tr t).history = false := by
    rw [State.tr_act_self]
    intro hbegan
    rw [readingShut_startReading fun hmem => hbegan ((Grows.startReading _).subset hmem)]
    exact hheld
  refine wp_startReading hl.mid hl.settled hshut fun r s₁ hl₁ => ?_
  cases r with
  | ok => exact hQ s₁ (hl.trans hl₁)
  | error exc =>
    exact wp_forceClose _ _ hl₁.mid hl₁.settled.closable (by simp) fun s' hl' _ =>
      hQ s' ((hl.trans hl₁).trans hl')

/-- The water marks that are accepted are in order. -/
theorem waterMarks_le {high low : Option ℕ} {marks : ℕ × ℕ}
    (h : waterMarks high low = .ok marks) : marks.2 ≤ marks.1 := by
  unfold waterMarks at h
  dsimp only at h
  split at h
  · cases h
  -- the high mark is given, or four times the low one
  split at h
  all_goals
    split at h
    · cases h
    · rename_i hle
      cases h
      exact not_lt.mp hle

theorem wp_waterMark {given : Bool} {message : String} {Q : Except Exc (Option ℕ) → State → Prop}
    (h : Mid starving t s) (ht : Settled starving (s.tr t))
    (hQ : ∀ r s', Leads starving t s s' → Q r s') :
    (waterMark given message).wp (env starving) (spec starving) Q s := by
  simp only [waterMark, Prog.wp_ite, Prog.wp_bind, Prog.wp_pure]
  split
  · exact hQ _ s (.refl h ht)
  refine wp_foreign h ht fun r s₁ hl => ?_
  cases hr : r.raised with
  | some exc => exact hQ _ s₁ hl
  | none =>
    simp only [Prog.wp_ite, Prog.wp_pure]
    split <;> exact hQ _ s₁ hl

theorem wp_parseLimits {high low : Bool} {Q : Except Exc (ℕ × ℕ) → State → Prop}
    (h : Mid starving t s) (ht : Settled starving (s.tr t))
    (hQ : ∀ r s', Leads starving t s s' → (∀ marks, r = .ok marks → marks.2 ≤ marks.1) → Q r s') :
    (parseLimits high low).wp (env starving) (spec starving) Q s := by
  simp only [parseLimits, Prog.wp_bind]
  refine wp_waterMark h ht fun r s₁ hl₁ => ?_
  cases r with
  | error exc => exact hQ _ s₁ hl₁ (by simp)
  | ok high =>
    simp only [Prog.wp_bind]
    refine wp_waterMark hl₁.mid hl₁.settled fun r s₂ hl₂ => ?_
    cases r with
    | error exc => exact hQ _ s₂ (hl₁.trans hl₂) (by simp)
    | ok low => exact hQ _ s₂ (hl₁.trans hl₂) fun marks hm => waterMarks_le hm

theorem wp_setWriteBufferLimits {high low : Bool} {Q : Except Exc Unit → State → Prop}
    (h : Mid starving t s) (ht : Settled starving (s.tr t))
    (hQ : ∀ r s', Leads starving t s s' → Q r s') :
    (setWriteBufferLimits t high low).wp (env starving) (spec starving) Q s := by
  simp only [setWriteBufferLimits, Prog.wp_bind]
  refine wp_parseLimits h ht fun r s₁ hl₁ hmarks => ?_
  cases r with
  | error exc =>
    have hl := hl₁.mid.leadsAct hl₁.settled (a := .limitsRaised) rfl rfl trivial rfl
      (.concat rfl) rfl rfl
    exact hQ _ _ (hl₁.trans hl)
  | ok marks =>
    simp only [Prog.wp_bind, wp_act]
    have hok : (Act.setLimits marks.1 marks.2).Allowed (s₁.tr t) := hmarks marks rfl
    let s₂ := s₁.act t (.setLimits marks.1 marks.2)
    have hs := hl₁.settled
    have htr : s₂.tr t = (Act.setLimits marks.1 marks.2).run (s₁.tr t) := State.tr_act_self ..
    have hb : Base starving (s₂.tr t) := by
      have hb := hs.base.history (List.subset_append_left _ [.limits marks.1 marks.2])
      rw [htr]
      exact ⟨hb.live, hb.sum, hb.pendingRead, hb.lost, hb.detached⟩
    have hframe : Frame s₁ s₂ := (FrameBut.act rfl rfl).frame (by rw [htr]; rfl)
    refine wp_maybePauseProtocol (hl₁.mid.act rfl hok) hb ?_ ?_ ?_ ?_ fun s' hl => ?_
    · rw [State.tr_act_self]
      exact hs.bytes
    · rw [State.tr_act_self]
      exact hs.stuck
    · rw [State.tr_act_self]
      exact hs.queued
    · rw [State.tr_act_self]
      exact hs.kept.run ⟨by simp, by simp⟩
    · exact hQ _ s' (hl.after (hl₁.steps.trans (hl₁.mid.stepAct rfl rfl hok))
        (hl₁.frame.trans hframe))

/-- Binding a protocol that is not complete only loosens what is asked of the close. -/
theorem Mid.bindProtocol (h : Mid starving t s) (ht : Settled starving (s.tr t)) (p : Protocol) :
    Leads starving t s (s.act t (.bindProtocol p)) := by
  refine ⟨h.act rfl trivial, ?_, h.stepAct rfl rfl trivial, (FrameBut.act rfl rfl).frame ?_⟩
  · rw [State.tr_act_self]
    refine ⟨⟨ht.base.live, ht.base.sum, ht.base.pendingRead, fun hs hc => ?_, ht.base.detached⟩,
      ht.bytes, ht.above, ht.stuck, ht.queued, ht.kept.run (a := .bindProtocol p)
        ⟨nofun, nofun⟩⟩
    exact ht.base.lost hs (Bool.and_eq_true_iff.mp hc).1
  · rw [State.tr_act_self]
    rfl

theorem wp_adoptSocketView {Q : Unit → State → Prop} (h : Mid starving t s)
    (ht : Settled starving (s.tr t)) (hQ : ∀ s', Leads starving t s s' → Q () s') :
    (adoptSocketView t).wp (env starving) (spec starving) Q s := by
  simp only [adoptSocketView, Prog.wp_bind, wp_act]
  refine wp_releaseSocketView h ht fun s₁ hl => ?_
  have hl₁ := hl.mid.leadsAct hl.settled (a := .adopt false) rfl rfl trivial rfl
    (.refl _) rfl rfl
  exact hQ _ (hl.trans hl₁)

/-! ## Making a transport, and the methods of the loop -/

theorem toList_of_pushAll {calls : List Call} {q q' : Queue Call}
    (h : pushAll q calls = some q') : q'.toList = q.toList ++ calls := by
  induction calls generalizing q with
  | nil =>
    cases h
    exact (List.append_nil _).symm
  | cons call calls ih =>
    obtain ⟨r, hr, hq⟩ := Option.bind_eq_some_iff.mp h
    rw [ih hq, Queue.toList_of_pushAssumeCapacity hr, List.append_assoc, List.singleton_append]

theorem initialCalls_transport {reads waiter : Bool} {call : Call}
    (h : call ∈ initialCalls t reads waiter) {u : ℕ} (hu : call.transport? = some u) : u = t := by
  unfold initialCalls at h
  cases reads <;> cases waiter <;> simp at h
  all_goals
    rcases h with rfl | rfl | rfl <;>
    · simp [Call.transport?] at hu
      try exact hu.symm

/-- A new transport joins the others. -/
theorem Inside.addTransport (h : Inside starving s) (writePipe : Bool) (p : Protocol)
    (server : Bool) {calls : List Call} {ready : Queue Call}
    (hready : ready.toList = s.ready.toList ++ calls)
    (hcalls : ∀ call ∈ calls, ∀ u, call.transport? = some u → u = s.fresh) :
    Ends starving s ((s.addTransport (.create writePipe p server)).setReady ready) ∧
      Steps true s ((s.addTransport (.create writePipe p server)).setReady ready) := by
  have hstep : Step true s ((s.addTransport (.create writePipe p server)).setReady ready) :=
    .addTransport writePipe p server calls ready hready hcalls
  have hblank := h.reach.global.blank s.fresh le_rfl
  have htr : ∀ u, ((s.addTransport (.create writePipe p server)).setReady ready).tr u =
      if u = s.fresh then .create writePipe p server else s.tr u :=
    fun u => Function.update_apply ..
  refine ⟨⟨⟨h.reach.tail hstep.mono, fun u => ?_, h.depth, h.prepared⟩, ⟨rfl, rfl, rfl, fun u => ?_,
    fun u => ?_, fun u => ?_⟩⟩, .single hstep⟩
  · rw [htr]
    split
    · exact .create writePipe p server
    · exact h.settled u
  all_goals
    rw [htr]
    split
    · rename_i hu
      rw [hu, hblank]
      rfl
    · rfl

theorem wp_makeTransport {writePipe server reads waiter : Bool} {p : Protocol}
    {Q : Except Exc ℕ → State → Prop} (h : Inside starving s)
    (hQ : ∀ r s', Ends starving s s' → Steps true s s' → Q r s') :
    (makeTransport writePipe p server reads waiter).wp (env starving) (spec starving) Q s := by
  have hdone : ∀ r, Q r s := fun r => hQ r s (.refl h) .refl
  simp only [makeTransport, Prog.wp_bind, wp_getState, Prog.wp_ite, wp_alloc, Prog.wp_pure]
  split
  · exact hdone _
  split
  · exact hdone _
  intro ok _
  split
  · exact hdone _
  intro ok _
  split
  · exact hdone _
  rename_i ready hready
  simp only [Prog.wp_bind, wp_request, Prog.wp_ite, wp_update, Prog.wp_pure]
  intro a _
  split
  · exact hdone _
  intro a _
  split
  · have hstep : Step true s s.failOpen := .failOpen
    refine hQ _ _ ⟨⟨h.reach.tail hstep.mono, h.settled, h.depth, h.prepared⟩, ?_⟩ (.single hstep)
    exact ⟨rfl, rfl, rfl, fun _ => rfl, fun _ => rfl, fun _ => rfl⟩
  split
  · have hc : SameFlush s.toCore s.toCore.panic := .of_eq rfl rfl rfl rfl rfl rfl
    obtain ⟨he, hs⟩ := h.core hc id rfl
    exact hQ _ _ he hs
  rename_i ready' hready'
  have hlist : ready'.toList = s.ready.toList ++ initialCalls s.fresh reads waiter := by
    rw [toList_of_pushAll hready', Queue.toList_of_ensureUnusedCapacity hready]
  obtain ⟨he₁, hs₁⟩ := h.addTransport writePipe p server hlist
    fun call hc u hu => initialCalls_transport hc hu
  obtain ⟨he₂, hs₂⟩ := he₁.inside.core (sameFlush_startIdle _) startIdle_uvIdle
    (startIdle_running _)
  exact hQ _ _ (he₁.trans he₂) (hs₁.trans hs₂)

theorem wp_callSoon {Q : Except Exc Unit → State → Prop} (h : Inside starving s)
    (hQ : ∀ r s', Ends starving s s' → Steps true s s' → Q r s') :
    callSoon.wp (env starving) (spec starving) Q s := by
  simp only [callSoon, Prog.wp_bind, wp_getState, Prog.wp_ite, wp_alloc, Prog.wp_pure]
  split
  · exact hQ _ s (.refl h) .refl
  intro ok _
  split
  · exact hQ _ s (.refl h) .refl
  rename_i ready hready
  simp only [Prog.wp_bind, wp_update, Prog.wp_pure]
  have hc : SameFlush s.toCore { s.toCore with ready } := by
    refine ⟨rfl, rfl, rfl, rfl, rfl, fun call hcall => ?_⟩
    rw [Queue.toList_of_push hready, List.mem_append, List.mem_singleton] at hcall
    exact hcall.imp_right fun heq => by rw [heq]; rfl
  obtain ⟨he₁, hs₁⟩ := h.core hc id rfl
  obtain ⟨he₂, hs₂⟩ := he₁.inside.core (sameFlush_startIdle _) startIdle_uvIdle
    (startIdle_running _)
  exact hQ _ _ (he₁.trans he₂) (hs₁.trans hs₂)

end Zuvloop.Stream
