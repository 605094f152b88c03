import Zuvloop.Signals.Interference

/-!
# The deferred cleanup

The rules for a step and for the two calls into the interpreter, and the proof that a cleanup, with
everything that runs between its own steps, does no more to the rest than `Interferes` says. Each
part of it gives up what the closed loop owns and nothing else, since between its check of the owner
and its call the owner can only have given it up.

## Main definitions

* `spec`: what the entry points are proved to keep.

## Main results

* `wp_step`, `wp_setWakeupFd`, `wp_setSignal`: the rules.
* `wp_finishDeferredSignalCleanup`: the cleanup.
-/

namespace Zuvloop.Signals

open Reentrant

variable {strict atomic : Prop} {s : State} {l : ℕ}

/-! ## The specification -/

/-- What holds whenever other code runs. -/
structure Inv (strict : Prop) (s : State) : Prop where
  /-- Every loop is in order. -/
  wf : Wf s
  /-- An operation in progress is a function in progress. -/
  rest : s.depth = 0 → s.busy = none
  /-- At rest the wakeup descriptor is in order. -/
  idle : strict → s.depth = 0 → Idle s

/-- What other code does. -/
structure Rely (strict atomic : Prop) (s s' : State) : Prop where
  /-- It returns. -/
  depth : s'.depth = s.depth
  /-- The operation is still in progress. -/
  busy : s'.busy = s.busy
  /-- What runs between two steps only interferes. -/
  interferes : 0 < s.depth → Interferes strict atomic s s'

/-- What the entry points are proved to keep. -/
def spec (strict atomic : Prop) : Spec sig where
  inv := Inv strict
  rely := Rely strict atomic
  pre := fun _ _ => True
  post := fun _ _ _ => True

/-- Another thread may close a loop at any time. -/
theorem not_quiet (strict atomic : Prop) (c : Callback) : ¬ (env strict atomic).Quiet c :=
  fun hquiet => hquiet [] .init (.finalize 0) ⟨rfl, rfl, by simp [State.init]⟩

/-! ## Rules -/

/-- A function is in progress, and every loop is in order. -/
structure Active (s : State) : Prop where
  /-- Every loop is in order. -/
  wf : Wf s
  /-- A function is in progress. -/
  depth : 0 < s.depth

/-- What a step leads to. -/
structure Next (strict atomic : Prop) (s s' : State) : Prop where
  /-- The function is still in progress. -/
  active : Active s'
  /-- No other function is. -/
  depth : s'.depth = s.depth
  /-- Something may have run in between. -/
  interferes : Interferes strict atomic s s'

theorem wp_foreign {c : Callback} {Q : Outcome → State → Prop} (h : Active s)
    (hQ : ∀ r s', Next strict atomic s s' → Returns strict atomic s' c r → Q r s') :
    (Prog.foreign (S := sig) c).wp (env strict atomic) (spec strict atomic) Q s := by
  have hne : s.depth ≠ 0 := Nat.pos_iff_ne_zero.mp h.depth
  refine ⟨fun hquiet => absurd hquiet (not_quiet strict atomic c), fun _ => ?_⟩
  refine ⟨⟨h.wf, fun hd => absurd hd hne, fun _ hd => absurd hd hne⟩, fun r s' hrely hinv hr => ?_⟩
  exact hQ r s' ⟨⟨hinv.wf, hrely.depth ▸ h.depth⟩, hrely.depth, hrely.interferes h.depth⟩ hr

theorem wp_step {Q : Unit → State → Prop} (h : Active s)
    (hQ : ∀ s', Next strict atomic s s' → Q () s') :
    step.wp (env strict atomic) (spec strict atomic) Q s :=
  (Prog.wp_map _ _ _ _).mpr (wp_foreign h fun _ s' hn _ => hQ s' hn)

@[simp]
theorem wp_getState (Q : State → State → Prop) (s : State) :
    getState.wp (env strict atomic) (spec strict atomic) Q s ↔ Q s s := Iff.rfl

@[simp]
theorem wp_update (f : State → State) (Q : Unit → State → Prop) (s : State) :
    (update f).wp (env strict atomic) (spec strict atomic) Q s ↔ Q () (f s) := Iff.rfl

@[simp]
theorem wp_setLoop (l : ℕ) (f : Loop → Loop) (Q : Unit → State → Prop) (s : State) :
    (setLoop l f).wp (env strict atomic) (spec strict atomic) Q s ↔ Q () (s.setLoop l f) := Iff.rfl

@[simp]
theorem wp_setWakeupOwner (owner : Option ℕ) (Q : Unit → State → Prop) (s : State) :
    (setWakeupOwner owner).wp (env strict atomic) (spec strict atomic) Q s ↔
      Q () { s with wakeupOwner := owner } := Iff.rfl

theorem wp_validSignal {n : ℕ} {Q : Bool → State → Prop} (hQ : ∀ b, Q b s) :
    (validSignal n).wp (env strict atomic) (spec strict atomic) Q s := fun b _ => hQ b

/-- `signal.set_wakeup_fd` fails, or installs the descriptor. -/
theorem wp_setWakeupFd {fd : Option ℕ} {rollback : Bool}
    {Q : Except Exc (Option ℕ) → State → Prop} (h : Active s)
    (hok : ∀ s', Next strict atomic s s' → Q (.ok s'.wakeupFd) { s' with wakeupFd := fd })
    (herr : ∀ exc s', Next strict atomic s s' → (strict → fd ≠ none ∧ exc = .osError) →
      (atomic → rollback = false) → Q (.error exc) s') :
    (setWakeupFd fd rollback).wp (env strict atomic) (spec strict atomic) Q s := by
  rw [setWakeupFd, Prog.wp_bind]
  refine wp_foreign h fun r s' hn hr => ?_
  cases r with
  | none => exact hok s' hn
  | some exc =>
    refine herr exc s' hn (fun hstrict => ?_) fun hatomic => ?_
    · rcases hr.1 hstrict with hr | ⟨hfd, hr⟩
      · cases hr
      · exact ⟨hfd, Option.some.inj hr⟩
    · cases rollback with
      | false => rfl
      | true => cases hr.2 hatomic rfl

/-- `signal.signal` fails, or sets the signal. -/
theorem wp_setSignal {n : ℕ} {hd : Handler} {Q : Except Exc Unit → State → Prop} (h : Active s)
    (hok : ∀ s', Next strict atomic s s' → Q (.ok ()) (s'.setDisposition n hd))
    (herr : ∀ exc s', Next strict atomic s s' → (strict → exc = .osError) →
      (atomic → hd = .noop) → Q (.error exc) s') :
    (setSignal n hd).wp (env strict atomic) (spec strict atomic) Q s := by
  rw [setSignal, Prog.wp_bind]
  refine wp_foreign h fun r s' hn hr => ?_
  cases r with
  | none => exact hok s' hn
  | some exc =>
    refine herr exc s' hn (fun hstrict => ?_) fun hatomic => ?_
    · rcases hr.1 hstrict with hr | hr
      · cases hr
      · exact Option.some.inj hr
    · by_contra hne
      cases hr.2 hatomic hne

/-! ## Parts of the cleanup -/

variable {s₁ s₂ s' : State}

theorem Next.refl (h : Active s) : Next strict atomic s s := ⟨h, rfl, .refl s⟩

theorem Next.trans (h : Next strict atomic s s₁) (h' : Next strict atomic s₁ s₂) :
    Next strict atomic s s₂ :=
  ⟨h'.active, h'.depth.trans h.depth, h.interferes.trans h'.interferes⟩

/-- What does not touch loops keeps the function in progress. -/
theorem Active.of_eq (h : Active s) (hloops : s'.loops = s.loops) (hbusy : s'.busy = s.busy)
    (hdepth : s'.depth = s.depth) : Active s' :=
  ⟨h.wf.setLoop (l := 0) (f := id) (by rw [hloops, State.setLoop]; simp) hbusy id,
    hdepth ▸ h.depth⟩

/-- Of what follows a part of the wakeup descriptor's release, the loops. -/
structure Loops (strict atomic : Prop) (s s' : State) : Prop where
  /-- The function is still in progress. -/
  active : Active s'
  /-- No other function is. -/
  depth : s'.depth = s.depth
  /-- Loops have been left alone. -/
  loops : LoopsLeft strict s s'
  /-- So have signals. -/
  signal : ∀ n, SignalLeft s s' n
  /-- Their owners have still to reset them. -/
  owes : strict → atomic → ∀ n o, s'.owners n = some o → Owes s o n → Owes s' o n

theorem Next.loops (h : Next strict atomic s s') : Loops strict atomic s s' :=
  ⟨h.active, h.depth, h.interferes.toLoopsLeft, h.interferes.signal, h.interferes.owes⟩

/-- The wakeup descriptor may change. -/
theorem Loops.of_eq (h : Loops strict atomic s s₁) (hloops : s'.loops = s₁.loops)
    (hbusy : s'.busy = s₁.busy) (hdepth : s'.depth = s₁.depth) (howners : s'.owners = s₁.owners)
    (hdisp : s'.disposition = s₁.disposition) : Loops strict atomic s s' := by
  have hon : LoopsLeft strict s₁ s' := .of_eq hloops hbusy
  refine ⟨h.active.of_eq hloops hbusy hdepth, hdepth.trans h.depth, h.loops.trans hon, fun n => ?_,
    fun hstrict hatomic n o ho hn => ?_⟩
  · exact (h.signal n).trans (.inl ⟨by rw [howners], by rw [hdisp]⟩) hon.finalized
  · rw [Owes, hloops]
    exact h.owes hstrict hatomic n o (howners ▸ ho) hn

theorem Loops.trans (h : Loops strict atomic s s₁) (h' : Loops strict atomic s₁ s₂) :
    Loops strict atomic s s₂ :=
  ⟨h'.active, h'.depth.trans h.depth, h.loops.trans h'.loops,
    fun n => (h.signal n).trans (h'.signal n) h'.loops.finalized, fun hstrict hatomic n o ho hn =>
      h'.owes hstrict hatomic n o ho (h.owes hstrict hatomic n o ((h'.signal n).owner ho) hn)⟩

/-- Giving up the wakeup descriptor: the loop has not owned it, or it is not installed any more. -/
theorem wp_releaseWakeupFd {Q : Except Exc Unit → State → Prop} (h : Active s)
    (hother : ∀ s', Next strict atomic s s' → s'.wakeupOwner ≠ some l → Q (.ok ()) s')
    (hreleased : ∀ s', s.wakeupOwner = some l → Loops strict atomic s s' → s'.wakeupOwner = none →
      s'.wakeupFd = none → Q (.ok ()) s')
    (herr : ∀ exc s', ¬ strict → Next strict atomic s s' → Q (.error exc) s') :
    (releaseWakeupFd l).wp (env strict atomic) (spec strict atomic) Q s := by
  rw [releaseWakeupFd, Prog.wp_bind, wp_getState, Prog.wp_ite]
  split
  · rename_i howner
    rw [Prog.wp_bind]
    refine wp_step h fun s₁ h₁ => ?_
    rw [Prog.wp_bind]
    refine wp_setWakeupFd h₁.active (fun s₂ h₂ => ?_) fun exc s₂ h₂ hfail _ => ?_
    · -- the descriptor is out before the token is
      simp only [Prog.wp_bind]
      have hl : Loops strict atomic s { s₂ with wakeupFd := none } :=
        ((h₁.trans h₂).loops).of_eq rfl rfl rfl rfl rfl
      refine wp_step hl.active fun s₃ h₃ => ?_
      rw [wp_setWakeupOwner]
      have hfd : s₃.wakeupFd = none := by
        rcases h₃.interferes.wakeup with ⟨-, hfd⟩ | ⟨-, hfd, -⟩
        · exact hfd
        · exact hfd
      exact hreleased _ howner ((hl.trans h₃.loops).of_eq rfl rfl rfl rfl rfl) rfl hfd
    · refine herr exc s₂ (fun hstrict => ?_) (h₁.trans h₂)
      exact (hfail hstrict).1 rfl
  · exact hother s (.refl h) ‹_›

/-- Giving up the wakeup descriptor of a closed loop only interferes with the rest. -/
theorem wp_releaseWakeupFd_of_finalized {Q : Except Exc Unit → State → Prop} (h : Active s)
    (hfin : (s.loops l).finalized = true)
    (hok : ∀ s', Next strict atomic s s' → s'.wakeupOwner ≠ some l → Q (.ok ()) s')
    (herr : ∀ exc s', ¬ strict → Next strict atomic s s' → Q (.error exc) s') :
    (releaseWakeupFd l).wp (env strict atomic) (spec strict atomic) Q s := by
  refine wp_releaseWakeupFd h hok (fun s' howner hl hnone hfd => hok s' ?_ ?_) herr
  · have hleft : WakeupLeft s s' := .inr ⟨hnone, hfd, l, howner, hl.loops.finalized l hfin⟩
    refine ⟨hl.active, hl.depth, ⟨⟨hl.loops, hleft, fun _ o ho => ?_⟩, hl.signal, hl.owes⟩⟩
    rw [hnone] at ho
    cases ho
  · rw [hnone]
    exact fun h => by cases h

/-- A signal that the closed loop owned, while it is given up. -/
theorem SignalLeft.of_released {n : ℕ} (howner : s.owners n = some l)
    (hfin : (s'.loops l).finalized = true) (hnone : s'.owners n = none)
    (hdisp : s'.disposition n = defaultHandler n) : SignalLeft s s' n :=
  .inr ⟨hnone, hdisp, l, howner, hfin⟩

theorem defaultHandler_ne_noop (n : ℕ) : defaultHandler n ≠ .noop := by
  rw [defaultHandler]
  split <;> exact fun h => by cases h

/-- Resetting a signal of a closed loop only interferes with the rest. -/
theorem wp_resetOwned {n : ℕ} {Q : Option Exc → State → Prop} (h : Active s)
    (hfin : (s.loops l).finalized = true)
    (hQ : ∀ r s', Next strict atomic s s' → (atomic → s'.owners n ≠ some l) → Q r s') :
    (resetOwned l n).wp (env strict atomic) (spec strict atomic) Q s := by
  rw [resetOwned, Prog.wp_bind, wp_getState, Prog.wp_ite]
  split
  · rename_i howner
    rw [Prog.wp_bind]
    refine wp_step h fun s₁ h₁ => ?_
    rw [Prog.wp_bind]
    refine wp_setSignal h₁.active (fun s₂ h₂ => ?_) fun exc s₂ h₂ _ hreset =>
      hQ _ _ (h₁.trans h₂) fun hatomic => absurd (hreset hatomic) (defaultHandler_ne_noop n)
    -- by now the loop still owns the signal, or has given it up
    have h₀₂ := h₁.trans h₂
    have hsame : Around strict s₂ (s₂.setDisposition n (defaultHandler n)) :=
      .of_eq rfl rfl rfl rfl
    have hact : Active (s₂.setDisposition n (defaultHandler n)) := h₀₂.active.of_eq rfl rfl rfl
    simp only [Prog.wp_bind]
    refine wp_step hact fun s₃ h₃ => ?_
    have haround := h₀₂.interferes.toAround.trans (hsame.trans h₃.interferes.toAround)
    have hdisp : s₃.disposition n = defaultHandler n := by
      rcases h₃.interferes.signal n with ⟨-, hd⟩ | ⟨-, hd, -⟩
      · rw [hd, State.disposition_setDisposition_self]
      · exact hd
    have hothers (m : ℕ) (hm : m ≠ n) : SignalLeft s s₃ m := by
      have hmid : SignalLeft s₂ (s₂.setDisposition n (defaultHandler n)) m :=
        .inl ⟨rfl, State.disposition_setDisposition_ne s₂ hm _⟩
      exact ((h₀₂.interferes.signal m).trans hmid fun _ => id).trans (h₃.interferes.signal m)
        h₃.interferes.finalized
    have howes (hstrict : strict) (hatomic : atomic) (m o : ℕ) (ho : s₃.owners m = some o)
        (hm : Owes s o m) : Owes s₃ o m :=
      h₃.interferes.owes hstrict hatomic m o ho
        (h₀₂.interferes.owes hstrict hatomic m o ((h₃.interferes.signal m).owner ho) hm)
    rw [disown, Prog.wp_bind, wp_getState, Prog.wp_ite]
    split
    · -- deleted after one more step, in which the cleanup of another loop may run
      rw [Prog.wp_bind]
      refine wp_step h₃.active fun s₄ h₄ => hQ _ _ ?_ fun _ ho => ?_
      swap
      · rw [State.owners_setOwner_self] at ho
        cases ho
      have hgone : Around strict s (s₄.setOwner n none) :=
        (haround.trans h₄.interferes.toAround).trans (.of_eq rfl rfl rfl rfl)
      refine ⟨h₄.active.of_eq rfl rfl rfl, h₄.depth.trans (h₃.depth.trans h₀₂.depth), hgone,
        fun m => ?_, fun hstrict hatomic m o ho hm => ?_⟩
      · by_cases hm : m = n
        · subst hm
          refine .of_released howner (hgone.finalized l hfin) (s₄.owners_setOwner_self m none) ?_
          rcases h₄.interferes.signal m with ⟨-, hd⟩ | ⟨-, hd, -⟩
          · exact hd.trans hdisp
          · exact hd
        · have hlast : SignalLeft s₄ (s₄.setOwner n none) m :=
            .inl ⟨State.owners_setOwner_ne s₄ hm none, rfl⟩
          exact ((hothers m hm).trans (h₄.interferes.signal m) h₄.interferes.finalized).trans hlast
            fun _ => id
      · have hne : m ≠ n := by
          rintro rfl
          rw [State.owners_setOwner_self] at ho
          cases ho
        rw [State.owners_setOwner_ne s₄ hne] at ho
        exact h₄.interferes.owes hstrict hatomic m o ho
          (howes hstrict hatomic m o ((h₄.interferes.signal m).owner ho) hm)
    · -- another cleanup of the loop has given the signal up
      rename_i hnot
      refine hQ _ _ ⟨h₃.active, h₃.depth.trans h₀₂.depth, haround, fun m => ?_, howes⟩ fun _ => hnot
      by_cases hm : m = n
      · subst hm
        refine .of_released howner (haround.finalized l hfin) ?_ hdisp
        rw [Option.eq_none_iff_forall_ne_some]
        rintro o ho
        have hback := (h₀₂.interferes.signal m).owner ((h₃.interferes.signal m).owner ho)
        rw [howner] at hback
        cases hback
        exact hnot ho
      · exact hothers m hm
  · exact hQ _ s (.refl h) fun _ => ‹_›

/-- So does resetting several, one after the other. -/
theorem wp_resetSignals {signals : List ℕ} {failure : Option Exc} {Q : Option Exc → State → Prop}
    (h : Active s) (hfin : (s.loops l).finalized = true)
    (hQ : ∀ r s', Next strict atomic s s' → (atomic → ∀ n ∈ signals, s'.owners n ≠ some l) →
      Q r s') :
    (resetSignals l signals failure).wp (env strict atomic) (spec strict atomic) Q s := by
  induction signals generalizing failure s with
  | nil => exact hQ failure s (.refl h) fun _ n hn => by cases hn
  | cons n rest ih =>
    rw [resetSignals, Prog.wp_bind]
    refine wp_resetOwned h hfin fun exc s₁ h₁ hreset => ?_
    rw [Prog.wp_bind]
    refine wp_step h₁.active fun s₂ h₂ => ?_
    have h₀₂ := h₁.trans h₂
    refine ih h₀₂.active (h₀₂.interferes.finalized l hfin) fun r s' hn hrest =>
      hQ r s' (h₀₂.trans hn) fun hatomic m hm => ?_
    rcases List.mem_cons.mp hm with rfl | hm
    · -- a signal that has been given up does not come back
      exact fun ho => hreset hatomic
        ((h₂.interferes.signal m).owner ((hn.interferes.signal m).owner ho))
    · exact hrest hatomic m hm

/-- Marking a finalized token changes nothing. -/
theorem setLoop_finalized (hfin : (s.loops l).finalized = true) :
    s.setLoop l (fun L => { L with finalized := true }) = s := by
  have hsame : { s.loops l with finalized := true } = s.loops l := by rw [← hfin]
  rw [State.setLoop, hsame, Function.update_eq_self]

/-- The cleanup of a closed loop, up to its descriptor, only interferes with the rest. -/
theorem wp_finishDeferredSignalCleanup {signals : List ℕ} {Q : Except Exc Unit → State → Prop}
    (h : Active s) (hfin : (s.loops l).finalized = true)
    (hok : ∀ r s', Next strict atomic s s' → s'.wakeupOwner ≠ some l →
      (atomic → ∀ n ∈ signals, s'.owners n ≠ some l) →
      Q r (s'.setLoop l fun L => { L with fdOpen := false }))
    (herr : ∀ exc s', ¬ strict → Next strict atomic s s' → Q (.error exc) s') :
    (finishDeferredSignalCleanup l signals).wp (env strict atomic) (spec strict atomic) Q s := by
  rw [finishDeferredSignalCleanup, Prog.wp_bind, wp_setLoop, setLoop_finalized hfin, Prog.wp_bind]
  refine wp_step h fun s₁ h₁ => ?_
  rw [Prog.wp_bind]
  refine wp_releaseWakeupFd_of_finalized h₁.active (h₁.interferes.finalized l hfin)
    (fun s₂ h₂ howner => ?_) fun exc s₂ hstrict h₂ => herr exc s₂ hstrict (h₁.trans h₂)
  have h₀₂ := h₁.trans h₂
  simp only [Prog.wp_bind]
  refine wp_step h₀₂.active fun s₃ h₃ => ?_
  have h₀₃ := h₀₂.trans h₃
  refine wp_resetSignals h₀₃.active (h₀₃.interferes.finalized l hfin) fun failure s₄ h₄ hreset => ?_
  -- a loop that has given the descriptor up does not get it back
  have hlast : s₄.wakeupOwner ≠ some l := fun ho =>
    howner (h₃.interferes.wakeup.owner (h₄.interferes.wakeup.owner ho))
  rw [wp_setLoop]
  cases failure with
  | none => exact hok _ s₄ (h₀₃.trans h₄) hlast hreset
  | some exc => exact hok _ s₄ (h₀₃.trans h₄) hlast hreset

/-! ## The cleanup -/

/-- What happens to the rest while the cleanup of a loop runs. -/
theorem Interferes.of_cleanup {f g : Loop → Loop} (hwait : ¬ Free s l)
    (hf : (f (s.loops l)).finalized = true)
    (hg : ∀ L, (g L).finalized = L.finalized)
    (hgfd : ∀ L, (g L).fdOpen = true → L.fdOpen = true)
    (hffd : (f (s.loops l)).fdOpen = true → (s.loops l).fdOpen = true)
    (h : Interferes strict atomic (s.setLoop l f) s₁)
    (hgone : strict → (∀ L, (g L).fdOpen = false) ∧ s₁.wakeupOwner ≠ some l)
    (hreset : strict → atomic → ∀ n, Owes s l n → s₁.owners n ≠ some l) :
    Interferes strict atomic s (s₁.setLoop l g) := by
  have hfself := s.loops_setLoop_self l f
  have hgself := s₁.loops_setLoop_self l g
  have hfne (o : ℕ) (ho : o ≠ l) : (s.setLoop l f).loops o = s.loops o := s.loops_setLoop_ne ho f
  have hgne (o : ℕ) (ho : o ≠ l) : (s₁.setLoop l g).loops o = s₁.loops o := s₁.loops_setLoop_ne ho g
  have hfin₁ : (s₁.loops l).finalized = true := h.finalized l (by rw [hfself, hf])
  have hfinal (o : ℕ) : ((s₁.setLoop l g).loops o).finalized = (s₁.loops o).finalized := by
    by_cases ho : o = l
    · subst ho
      rw [hgself, hg]
    · rw [hgne o ho]
  have hbacked (o : ℕ) (ho : o ≠ l) (hb : Backed s o) : Backed (s.setLoop l f) o := by
    rwa [Backed, hfne o ho]
  refine ⟨⟨⟨h.busy, fun m hm hfree => ?_, fun o ho => ?_, fun o ho hfree => ?_, fun o ho => ?_,
    fun o ho => ?_, fun hstrict o hb ho => ?_⟩, ?_, fun hstrict o ho hb => ?_⟩, fun n => ?_,
    fun hstrict hatomic n o ho hn => ?_⟩
  · -- the loop of the operation in progress is not this one
    have hne : m ≠ l := fun heq => hwait (heq ▸ hfree)
    rw [hgne m hne, h.mine m hm (by rwa [Free, hfne m hne]), hfne m hne]
  · rw [hfinal]
    by_cases heq : o = l
    · rwa [heq]
    · exact h.finalized o (by rwa [hfne o heq])
  · have hne : o ≠ l := fun heq => hwait (heq ▸ hfree)
    rw [Free, hgne o hne]
    exact h.done o (by rwa [hfne o hne]) (by rwa [Free, hfne o hne])
  · rw [hfinal] at ho
    have hne : o ≠ l := by
      rintro rfl
      rw [hfin₁] at ho
      cases ho
    rw [hgne o hne, h.live o ho, hfne o hne]
  · by_cases heq : o = l
    · subst heq
      rw [hgself] at ho
      have hopen := h.fd o (hgfd _ ho)
      rw [hfself] at hopen
      exact hffd hopen
    · rw [hgne o heq] at ho
      have hopen := h.fd o ho
      rwa [hfne o heq] at hopen
  · have hne : o ≠ l := by
      rintro rfl
      rw [hgself, (hgone hstrict).1] at ho
      cases ho
    rw [hgne o hne] at ho
    rw [Backed, hgne o hne]
    exact h.kept hstrict o (hbacked o hne hb) ho
  · rcases h.wakeup with hsame | ⟨hnone, hfd, o, howner, hfin⟩
    · exact .inl hsame
    · exact .inr ⟨hnone, hfd, o, howner, (hfinal o).trans hfin⟩
  · have hne : o ≠ l := fun heq => (hgone hstrict).2 (heq ▸ ho)
    rw [Backed, hgne o hne]
    exact h.owned hstrict o ho (hbacked o hne hb)
  · rcases h.signal n with hsame | ⟨hnone, hd, o, howner, hfin⟩
    · exact .inl hsame
    · exact .inr ⟨hnone, hd, o, howner, (hfinal o).trans hfin⟩
  · have hne : o ≠ l := by
      rintro rfl
      exact hreset hstrict hatomic n hn ho
    rw [Owes, hgne o hne]
    exact h.owes hstrict hatomic n o ho (by rwa [Owes, hfne o hne])

/-- The descriptor of a loop with nothing to come may be closed. -/
theorem Loop.Ok.closeFd {busy : Prop} {L : Loop} (h : L.Ok busy) (hfin : L.finalized = true)
    (hretiring : L.retiring = false) (hnone : L.deferred = none) :
    Loop.Ok busy { L with fdOpen := false } where
  live hlive := by
    have hlive' : L.finalized = false := hlive
    rw [hfin] at hlive'
    cases hlive'
  closed := h.closed
  retiring hret := by
    have hret' : L.retiring = true := hret
    rw [hretiring] at hret'
    cases hret'
  deferred hdef := absurd hnone hdef
  gone := h.gone
  running := h.running

/-- The deferred cleanup of a loop only interferes. -/
theorem wp_cleanup {Q : Unit → State → Prop} (h : Active s) (hwait : (s.loops l).deferred ≠ none)
    (hQ : ∀ s', Next strict atomic s s' → Q () s') :
    (cleanup l).wp (env strict atomic) (spec strict atomic) Q s := by
  obtain ⟨hfin, hfd, hretiring, hhandlers, hattached⟩ := (h.wf l).deferred hwait
  have hfree : ¬ Free s l := fun hfree => hwait hfree.2
  obtain ⟨signals, hdef⟩ := Option.ne_none_iff_exists'.mp hwait
  -- from here on nobody else has the cleanup to run
  generalize hs₁ : s.setLoop l (fun L => { L with deferred := none }) = s₁
  have hself : s₁.loops l = { s.loops l with deferred := none } := by
    rw [← hs₁, State.loops_setLoop_self]
  have hfin₁ : (s₁.loops l).finalized = true := by rw [hself, hfin]
  have hfree₁ : Free s₁ l := by rw [Free, hself]; exact ⟨hretiring, rfl⟩
  have hwf₁ : Wf s₁ := by
    subst hs₁
    refine h.wf.setLoop rfl rfl fun hok => ⟨hok.live, hok.closed, fun hret => ?_,
      fun hd => absurd rfl hd, fun _ => .inr (.inr ⟨hhandlers, hattached⟩), hok.running⟩
    have hret' : (s.loops l).retiring = true := hret
    rw [hretiring] at hret'
    cases hret'
  have hact : Active s₁ := ⟨hwf₁, by rw [← hs₁]; exact h.depth⟩
  rw [cleanup, Prog.wp_bind, wp_getState, hdef]
  simp only [Prog.wp_bind]
  rw [wp_setLoop, hs₁]
  refine wp_finishDeferredSignalCleanup hact hfin₁ (fun r s₂ h₂ howner hreset => ?_)
    fun exc s₂ hstrict h₂ => ?_
  · have hfree₂ := h₂.interferes.done l hfin₁ hfree₁
    refine hQ _ ⟨⟨?_, ?_⟩, ?_, ?_⟩
    · exact h₂.active.wf.setLoop rfl rfl fun hok =>
        hok.closeFd (h₂.interferes.finalized l hfin₁) hfree₂.1 hfree₂.2
    · exact h₂.active.depth
    · exact h₂.depth.trans (by rw [← hs₁]; rfl)
    · rw [← hs₁] at h₂
      refine h₂.interferes.of_cleanup hfree hfin (fun _ => rfl) (fun _ hopen => by cases hopen) id
        (fun _ => ⟨fun _ => rfl, howner⟩) fun _ hatomic n hn => hreset hatomic n ?_
      -- what it still owed was left to the cleanup
      rcases hn with hn | ⟨signals', hdef', hn⟩
      · rw [hhandlers] at hn
        cases hn
      · rw [hdef] at hdef'
        cases hdef'
        exact hn
  · -- a wakeup descriptor that cannot be taken out is left to the owner
    refine hQ _ ⟨h₂.active, h₂.depth.trans (by rw [← hs₁]; rfl), ?_⟩
    rw [← hs₁] at h₂
    have hgone := h₂.interferes.of_cleanup (g := id) hfree hfin (fun _ => rfl)
      (fun _ hopen => hopen) id (fun hs => absurd hs hstrict) fun hs => absurd hs hstrict
    rwa [State.setLoop, id, Function.update_eq_self] at hgone

/-! ## Entry points that other threads start -/

/-- A function that only interferes keeps the specification. -/
theorem wp_entry_of_next {op : Op} (hop : op.loop? = none) (h : Inv strict s)
    (hrun : (run op).wp (env strict atomic) (spec strict atomic)
      (fun _ s' => Next strict atomic (s.enter op) s')      (s.enter op)) :
    (entry op).wp (env strict atomic) (spec strict atomic)
      (fun _ s' => Inv strict s' ∧ Rely strict atomic s s') s := by
  simp only [entry, Prog.wp_bind]
  rw [wp_update]
  refine Prog.wp_mono hrun fun _ s' hn => ?_
  rw [wp_update]
  have hdepth : (s'.leave op).depth = s.depth := by
    rw [State.leave]
    simp only [hn.depth, State.enter, Nat.add_sub_cancel]
  have hbusy : (s'.leave op).busy = s.busy := by
    rw [State.leave, hop]
    have hsame := hn.interferes.busy
    rw [State.enter, hop] at hsame
    exact hsame
  have hinterferes : Interferes strict atomic s (s'.leave op) := by
    have hin : Around strict s (s.enter op) := .of_eq rfl (by rw [State.enter, hop]; rfl) rfl rfl
    have hout : Around strict s' (s'.leave op) :=
      .of_eq rfl (by rw [State.leave, hop]; rfl) rfl rfl
    exact ⟨(hin.trans hn.interferes.toAround).trans hout, hn.interferes.signal, hn.interferes.owes⟩
  refine ⟨⟨?_, fun hd => ?_, fun hstrict hd => ?_⟩, hdepth, hbusy, fun _ => hinterferes⟩
  · exact hn.active.wf.setLoop (l := 0) (f := id) (by simp [State.leave, State.setLoop])
      (by rw [State.leave, hop]; rfl) id
  · rw [hbusy]
    exact h.rest (hdepth ▸ hd)
  · have haround := hinterferes.toAround
    rw [eq_true hstrict] at haround
    exact haround.idle (h.idle hstrict (hdepth ▸ hd))

end Zuvloop.Signals
