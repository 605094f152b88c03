import Zuvloop.Signals.Cleanup

/-!
# The wakeup descriptor

An operation on the main thread is at a point of its own, `At`: what the operation has done to its
loop stays, since nothing that runs in between touches that loop, and of the wakeup descriptor it
may assume what is `Stable`. From there on follow the proofs that the descriptor is in order
whenever an operation is done with it: attached, put back, or given up.

The token of the previous owner may be finalized at any point, and its cleanup may run at any point
after that. What is `Recoverable` of the previous owner is that it has still to give the descriptor
up, unless its cleanup has run.

## Main definitions

* `At`: where an operation is.
* `Recoverable`, `Leaving`, `Taking`, `Held`, `Doubtful`: what holds of the wakeup descriptor.

## Main results

* `wp_attachWakeupFd`, `wp_restoreWakeupFd`, `wp_detachWakeupFd`: the three functions.
-/

namespace Zuvloop.Signals

open Reentrant

variable {strict atomic : Prop} {s s' : State} {l : ℕ} {L : Loop}

/-! ## Where an operation is -/

theorem Around.of_strict (hstrict : strict) (h : Around strict s s') : Around True s s' := by
  rwa [eq_true hstrict] at h

/-- What other code leaves as it is, while an operation on a loop is in progress. -/
def Stable (l : ℕ) (W : State → Prop) : Prop :=
  ∀ s s', Around True s s' → s'.loops l = s.loops l → W s → W s'

/-- An operation on a loop is in progress. The loop is `L`, and `W` holds of the wakeup
descriptor. -/
structure At (strict : Prop) (l : ℕ) (L : Loop) (W : State → Prop) (s : State) : Prop where
  /-- Every loop is in order. -/
  wf : Wf s
  /-- No other function is in progress. -/
  depth : s.depth = 1
  /-- The operation is in progress. -/
  busy : s.busy = some l
  /-- The loop. -/
  loop : s.loops l = L
  /-- No other thread is closing it, and no cleanup of it is to come. -/
  free : L.retiring = false ∧ L.deferred = none
  /-- The wakeup descriptor. -/
  wakeup : strict → W s

namespace At

variable {W W' : State → Prop}

theorem active (h : At strict l L W s) : Active s := ⟨h.wf, h.depth ▸ Nat.one_pos⟩

theorem ok (h : At strict l L W s) : L.Ok True := by
  have hok := h.wf l
  rwa [h.loop, eq_true h.busy] at hok

/-- Something else has run. -/
theorem after (h : At strict l L W s) (hn : Next strict atomic s s')
    (hW : strict → s'.loops l = s.loops l → W s → W' s') : At strict l L W' s' := by
  have hfree : Free s l := by
    rw [Free, h.loop]
    exact h.free
  have hloop := hn.interferes.mine l h.busy hfree
  exact ⟨hn.active.wf, hn.depth.trans h.depth, hn.interferes.busy.trans h.busy,
    hloop.trans h.loop, h.free, fun hstrict => hW hstrict hloop (h.wakeup hstrict)⟩

theorem next (h : At strict l L W s) (hW : Stable l W) (hn : Next strict atomic s s') :
    At strict l L W s' :=
  h.after hn fun hstrict => hW s s' (hn.interferes.toAround.of_strict hstrict)

theorem mono (h : At strict l L W s) (hW : W s → W' s) : At strict l L W' s :=
  { h with wakeup := fun hstrict => hW (h.wakeup hstrict) }

/-- A change to something else. -/
theorem of_eq (h : At strict l L W s) (hloops : s'.loops = s.loops) (hbusy : s'.busy = s.busy)
    (hdepth : s'.depth = s.depth) (hW : strict → W s → W' s') : At strict l L W' s' :=
  ⟨(h.active.of_eq hloops hbusy hdepth).wf, hdepth.trans h.depth, hbusy.trans h.busy,
    (congrFun hloops l).trans h.loop, h.free, fun hstrict => hW hstrict (h.wakeup hstrict)⟩

/-- A change to the loop. -/
theorem setLoop {f : Loop → Loop} (h : At strict l L W s) (hok : (f L).Ok True)
    (hfree : (f L).retiring = false ∧ (f L).deferred = none) (hW : W s → W' (s.setLoop l f)) :
    At strict l (f L) W' (s.setLoop l f) := by
  refine ⟨h.wf.setLoop rfl rfl fun _ => ?_, h.depth, h.busy, ?_, hfree,
    fun hstrict => hW (h.wakeup hstrict)⟩
  · rwa [h.loop, eq_true h.busy]
  · rw [State.loops_setLoop_self, h.loop]

end At

/-- What signal handlers do not change of a loop. -/
structure Loop.Kept (L L' : Loop) : Prop where
  /-- Whether it is closed. -/
  closed : L'.closed = L.closed
  /-- Whether it runs. -/
  running : L'.running = L.running
  /-- Its token. -/
  finalized : L'.finalized = L.finalized
  /-- Its descriptor. -/
  fdOpen : L'.fdOpen = L.fdOpen
  /-- Whether another thread closes it. -/
  retiring : L'.retiring = L.retiring
  /-- Its cleanup. -/
  deferred : L'.deferred = L.deferred

theorem Loop.Kept.refl (L : Loop) : L.Kept L := ⟨rfl, rfl, rfl, rfl, rfl, rfl⟩

theorem Loop.Kept.trans {L L₁ L' : Loop} (h : L.Kept L₁) (h' : L₁.Kept L') : L.Kept L' :=
  ⟨h'.closed.trans h.closed, h'.running.trans h.running, h'.finalized.trans h.finalized,
    h'.fdOpen.trans h.fdOpen, h'.retiring.trans h.retiring, h'.deferred.trans h.deferred⟩

/-- While an operation on the loop is in progress, handlers come and go. -/
theorem Loop.Ok.kept {L L' : Loop} (h : L.Ok True) (hk : L.Kept L')
    (hfree : L.retiring = false ∧ L.deferred = none) : L'.Ok True where
  live hlive := by
    rw [hk.fdOpen]
    exact ⟨(h.live (hk.finalized ▸ hlive)).1, .inr trivial⟩
  closed hfin := hk.closed ▸ h.closed (hk.finalized ▸ hfin)
  retiring hret := by
    rw [hk.retiring, hfree.1] at hret
    cases hret
  deferred hdef := absurd (hk.deferred.trans hfree.2) hdef
  gone _ := .inr (.inl trivial)
  running hrun := hk.closed ▸ h.running (hk.running ▸ hrun)

theorem At.kept {f : Loop → Loop} {W W' : State → Prop} (h : At strict l L W s)
    (hk : L.Kept (f L)) (hW : W s → W' (s.setLoop l f)) :
    At strict l (f L) W' (s.setLoop l f) :=
  h.setLoop (h.ok.kept hk h.free) ⟨hk.retiring.trans h.free.1, hk.deferred.trans h.free.2⟩ hW

/-! ## What holds of the wakeup descriptor -/

/-- A previous owner has still to give the descriptor up, unless its cleanup has run. -/
def Recoverable (s : State) (owner : Option ℕ) : Prop :=
  ∀ o, owner = some o → (s.loops o).fdOpen = true → Backed s o

theorem Recoverable.around {owner : Option ℕ} (h : Recoverable s owner) (ha : Around True s s') :
    Recoverable s' owner :=
  fun o ho hopen => ha.kept trivial o (h o ho (ha.fd o hopen)) hopen

/-- A change to a loop that does not detach it. -/
theorem Recoverable.setLoop {owner : Option ℕ} {f : Loop → Loop} (h : Recoverable s owner)
    (hl : owner = some l → Backed (s.setLoop l f) l) : Recoverable (s.setLoop l f) owner := by
  intro o ho hopen
  by_cases heq : o = l
  · subst heq
    exact hl ho
  · rw [State.loops_setLoop_ne _ heq] at hopen
    rw [Backed, State.loops_setLoop_ne _ heq]
    exact h o ho hopen

/-- The descriptor is its owner's, who has still to give it up unless its cleanup has run. -/
structure Doubtful (s : State) : Prop where
  /-- The descriptor is its owner's. -/
  aligned : s.wakeupFd = none ∨ s.wakeupFd = s.wakeupOwner
  /-- The owner. -/
  owner : Recoverable s s.wakeupOwner

theorem Idle.doubtful (h : Idle s) : Doubtful s := ⟨h.aligned, fun o ho _ => h.backed o ho⟩

/-- An owner with an open descriptor leaves no doubt. -/
theorem Doubtful.idle (h : Doubtful s)
    (hopen : ∀ o, s.wakeupOwner = some o → (s.loops o).fdOpen = true) : Idle s :=
  ⟨h.aligned, fun o ho => h.owner o ho (hopen o ho)⟩

/-- Without an owner nothing is installed. -/
theorem Idle.of_none (howner : s.wakeupOwner = none) (hfd : s.wakeupFd = none) : Idle s := by
  refine ⟨.inl hfd, fun o ho => ?_⟩
  rw [howner] at ho
  cases ho

theorem Stable.and {W W' : State → Prop} (h : Stable l W) (h' : Stable l W') :
    Stable l fun s => W s ∧ W' s :=
  fun s₁ s₂ ha hloop hw => ⟨h s₁ s₂ ha hloop hw.1, h' s₁ s₂ ha hloop hw.2⟩

theorem stable_idle : Stable l Idle := fun _ _ ha _ h => ha.idle h

theorem stable_recoverable (owner : Option ℕ) : Stable l fun s => Recoverable s owner :=
  fun _ _ ha _ h => h.around ha

/-- Nobody else makes the loop the owner. -/
theorem stable_owner {p : Prop} : Stable l fun s => s.wakeupOwner = some l → p :=
  fun _ _ ha _ h ho => h (ha.wakeup.owner ho)

/-- Nobody else installs a descriptor. -/
theorem stable_out {p : Prop} : Stable l fun s => p → s.wakeupFd = none := by
  intro s s' ha _ hnone hp
  rcases ha.wakeup with ⟨-, hfd⟩ | ⟨-, hfd, -⟩
  · exact hfd.trans (hnone hp)
  · exact hfd

/-- The previous owner has the descriptor, or has just given it up. -/
structure Leaving (previousOwner : Option ℕ) (s : State) : Prop extends Doubtful s where
  /-- The owner. -/
  previous : s.wakeupOwner = previousOwner ∨ s.wakeupOwner = none

theorem Doubtful.around (h : Doubtful s) (ha : Around True s s') : Doubtful s' := by
  rcases ha.wakeup with ⟨ho, hfd⟩ | ⟨ho, hfd, -⟩
  · refine ⟨?_, ?_⟩
    · rw [ho, hfd]
      exact h.aligned
    · rw [ho]
      exact h.owner.around ha
  · refine ⟨.inl hfd, fun o howner => ?_⟩
    rw [ho] at howner
    cases howner

theorem stable_leaving (previousOwner : Option ℕ) : Stable l (Leaving previousOwner) := by
  intro s s' ha _ h
  refine ⟨h.toDoubtful.around ha, ?_⟩
  rcases ha.wakeup with ⟨ho, -⟩ | ⟨ho, -⟩
  · rw [ho]
    exact h.previous
  · exact .inr ho

/-- The loop is the owner, and the descriptor of the previous one may still be installed. -/
structure Taking (l : ℕ) (previousOwner : Option ℕ) (s : State) : Prop where
  /-- The owner. -/
  owner : s.wakeupOwner = some l
  /-- The owner is not closed. -/
  live : (s.loops l).finalized = false
  /-- The descriptor. -/
  fd : s.wakeupFd = none ∨ s.wakeupFd = previousOwner
  /-- The previous owner. -/
  recoverable : Recoverable s previousOwner

theorem stable_taking (previousOwner : Option ℕ) : Stable l (Taking l previousOwner) := by
  intro s s' ha hloop h
  have hlive : (s'.loops l).finalized = false := hloop ▸ h.live
  obtain ⟨ho, hfd⟩ := ha.wakeup.of_live h.owner hlive
  exact ⟨ho, hlive, hfd ▸ h.fd, h.recoverable.around ha⟩

/-- The descriptor of the loop is installed, over a previous one. -/
structure Held (l : ℕ) (previous : WakeupState) (s : State) : Prop where
  /-- The owner. -/
  owner : s.wakeupOwner = some l
  /-- The owner is not closed. -/
  live : (s.loops l).finalized = false
  /-- The descriptor. -/
  fd : s.wakeupFd = some l
  /-- The previous descriptor was that of the previous owner. -/
  aligned : previous.fd = none ∨ previous.fd = previous.owner
  /-- The previous owner. -/
  recoverable : Recoverable s previous.owner
  /-- A previous owner was attached. -/
  attached : previous.owner = some l → previous.wasAttached = true

theorem stable_held (previous : WakeupState) : Stable l (Held l previous) := by
  intro s s' ha hloop h
  have hlive : (s'.loops l).finalized = false := hloop ▸ h.live
  obtain ⟨ho, hfd⟩ := ha.wakeup.of_live h.owner hlive
  exact ⟨ho, hlive, hfd.trans h.fd, h.aligned, h.recoverable.around ha, h.attached⟩

/-- An attached loop that holds the descriptor may keep it. -/
theorem Held.idle {previous : WakeupState} (h : Held l previous s)
    (hattached : (s.loops l).attached = true) : Idle s := by
  refine ⟨.inr (h.fd.trans h.owner.symm), fun o ho => ?_⟩
  rw [h.owner] at ho
  cases ho
  exact .inl hattached

/-! ## Attaching -/

/-- The previous owner gets the descriptor back, unless its token is finalized. -/
theorem wp_attachFailed {previousOwner : Option ℕ} {Q : Exc → State → Prop}
    (h : At strict l L (Taking l previousOwner) s)
    (hQ : ∀ exc s', At strict l L Idle s' → Q exc s') :
    (attachFailed previousOwner).wp (env strict atomic) (spec strict atomic) Q s := by
  simp only [attachFailed, Prog.wp_bind, wp_getState, Prog.wp_ite]
  split
  · -- the descriptor may be closed by now
    refine wp_setWakeupFd h.active (fun s₁ h₁ => ?_) fun exc s₁ h₁ hfail _ => ?_
    · simp only [Prog.wp_bind]
      have hat : At strict l L (fun s => True → s.wakeupFd = none) { s₁ with wakeupFd := none } :=
        (h.next (stable_taking _) h₁).of_eq rfl rfl rfl fun _ _ _ => rfl
      refine wp_step hat.active fun s₂ h₂ => ?_
      refine hQ .osError _ ((hat.next stable_out h₂).of_eq rfl rfl rfl fun _ hfd => ?_)
      exact .of_none rfl (hfd trivial)
    · refine hQ exc s₁ ?_
      have hat := h.next (stable_taking _) h₁
      exact { hat with wakeup := fun hstrict => absurd rfl (hfail hstrict).1 }
  · refine wp_foreign h.active fun r s₁ h₁ hr => ?_
    refine hQ .osError _ ((h.next (stable_taking _) h₁).of_eq rfl rfl rfl fun hstrict htaking => ?_)
    -- its cleanup has not run in between
    exact ⟨htaking.fd, fun o ho => htaking.recoverable o ho (hr hstrict o ho)⟩

/-- Reading the previous owner. -/
theorem Idle.leaving (h : Idle s) : Leaving s.wakeupOwner s :=
  ⟨h.doubtful, .inl rfl⟩

/-- Taking the place of the previous owner. -/
theorem Leaving.taking {previousOwner : Option ℕ} (h : Leaving previousOwner s)
    (hrec : Recoverable s previousOwner) (hlive : (s.loops l).finalized = false) :
    Taking l previousOwner { s with wakeupOwner := some l } := by
  refine ⟨rfl, hlive, ?_, hrec⟩
  rcases h.aligned with hfd | hfd
  · exact .inl hfd
  · rcases h.previous with ho | ho
    · exact .inr (hfd.trans ho)
    · exact .inl (hfd.trans ho)

/-- Attaching a loop leaves it attached, or leaves the descriptor to its previous owner. -/
theorem wp_attachWakeupFd {Q : Except Exc (Option WakeupState) → State → Prop}
    (h : At strict l L Idle s) (hlive : L.finalized = false)
    (hskip : L.handlers = [] → Q (.ok none) s)
    (hok : ∀ previous s', L.handlers ≠ [] →
      At strict l { L with attached := true } (Held l previous) s' → Q (.ok (some previous)) s')
    (herr : ∀ exc s', At strict l L Idle s' → Q (.error exc) s') :
    (attachWakeupFd l).wp (env strict atomic) (spec strict atomic) Q s := by
  simp only [attachWakeupFd, Prog.wp_bind, wp_getState, Prog.wp_ite]
  split
  · rename_i hnil
    exact hskip (h.loop ▸ hnil)
  · rename_i hne
    refine wp_step h.active fun s₁ h₁ => ?_
    have hat₁ := h.next stable_idle h₁
    -- the previous owner may give the descriptor up from here on
    generalize hprevious : s₁.wakeupOwner = previousOwner
    have hleaving : At strict l L
        (fun s => Leaving previousOwner s ∧ Recoverable s previousOwner) s₁ :=
      hat₁.mono fun hidle => hprevious ▸ ⟨hidle.leaving, hidle.doubtful.owner⟩
    have hstable := (stable_leaving (l := l) previousOwner).and (stable_recoverable previousOwner)
    have hself (hstrict : strict) (ho : previousOwner = some l) : L.attached = true := by
      rcases (hat₁.wakeup hstrict).backed l (hprevious.trans ho) with hatt | hdef
      · rwa [hat₁.loop] at hatt
      · rw [hat₁.loop] at hdef
        exact absurd h.free.2 hdef
    refine wp_step hat₁.active fun s₂ h₂ => ?_
    have hat₂ := hleaving.next hstable h₂
    rw [hat₂.loop]
    refine wp_step hat₂.active fun s₃ h₃ => ?_
    have hat₃ := hat₂.next hstable h₃
    rw [wp_setWakeupOwner]
    have htaking : At strict l L (Taking l previousOwner) { s₃ with wakeupOwner := some l } :=
      hat₃.of_eq rfl rfl rfl fun _ hleft => hleft.1.taking hleft.2 (by rw [hat₃.loop, hlive])
    refine wp_step htaking.active fun s₄ h₄ => ?_
    have hat₄ := htaking.next (stable_taking _) h₄
    refine wp_setWakeupFd hat₄.active (fun s₅ h₅ => ?_) fun exc s₅ h₅ hfail _ => ?_
    · simp only [Prog.wp_bind]
      have hat₅ := hat₄.next (stable_taking _) h₅
      have hheld : At strict l L (Held l ⟨s₅.wakeupFd, previousOwner, L.attached⟩)
          { s₅ with wakeupFd := some l } := by
        refine hat₅.of_eq rfl rfl rfl fun hstrict ht => ?_
        exact ⟨ht.owner, ht.live, rfl, ht.fd, ht.recoverable, hself hstrict⟩
      refine wp_step hheld.active fun s₆ h₆ => ?_
      have hat₆ := hheld.next (stable_held _) h₆
      rw [wp_setLoop]
      have hat₇ : At strict l { L with attached := true }
          (Held l ⟨s₅.wakeupFd, previousOwner, L.attached⟩)
          (s₆.setLoop l fun L => { L with attached := true }) := by
        refine hat₆.kept (f := fun L => { L with attached := true }) ⟨rfl, rfl, rfl, rfl, rfl, rfl⟩
          fun ht => ⟨ht.owner, ?_, ht.fd, ht.aligned, ?_, ht.attached⟩
        · rw [State.loops_setLoop_self]
          exact ht.live
        · refine ht.recoverable.setLoop fun _ => .inl ?_
          rw [State.loops_setLoop_self]
      refine wp_step hat₇.active fun s₈ h₈ => ?_
      exact hok _ s₈ (h.loop ▸ hne) (hat₇.next (stable_held _) h₈)
    · have hat₅ := hat₄.next (stable_taking _) h₅
      cases exc with
      | osError =>
        simp only [Prog.wp_bind]
        refine wp_step hat₅.active fun s₆ h₆ => ?_
        exact wp_attachFailed (hat₅.next (stable_taking _) h₆) fun exc s' hat => herr exc s' hat
      | _ =>
        refine herr _ s₅ { hat₅ with wakeup := fun hstrict => ?_ }
        have hos := (hfail hstrict).2
        cases hos

/-! ## Detaching -/

/-- Something has happened to the wakeup descriptor. -/
theorem At.loops {W W' : State → Prop} (h : At strict l L W s) (hl : Loops strict atomic s s')
    (hW : strict → W' s') : At strict l L W' s' := by
  have hfree : Free s l := by
    rw [Free, h.loop]
    exact h.free
  exact ⟨hl.active.wf, hl.depth.trans h.depth, hl.loops.busy.trans h.busy,
    (hl.loops.mine l h.busy hfree).trans h.loop, h.free, hW⟩

/-- Only other loops own the descriptor, and it is in order. -/
structure Released (l : ℕ) (s : State) : Prop extends Idle s where
  /-- The owner. -/
  owner : s.wakeupOwner ≠ some l

theorem stable_released : Stable l (Released l) :=
  fun _ _ ha _ h => ⟨ha.idle h.toIdle, fun ho => h.owner (ha.wakeup.owner ho)⟩

/-- A change to a loop that does not own the descriptor. -/
theorem Released.setLoop {f : Loop → Loop} (h : Released l s) : Released l (s.setLoop l f) := by
  refine ⟨⟨h.aligned, fun o ho => ?_⟩, h.owner⟩
  have hne : o ≠ l := fun heq => h.owner (heq ▸ ho)
  rw [Backed, State.loops_setLoop_ne _ hne]
  exact h.backed o ho

/-- A loop that does not own the descriptor is detached. -/
theorem wp_detachWakeupFd {Q : Except Exc Unit → State → Prop} (h : At strict l L Idle s)
    (hok : ∀ a s', At strict l { L with attached := a } Idle s' → Q (.ok ()) s')
    (herr : ∀ exc s', At strict l L Idle s' → Q (.error exc) s') :
    (detachWakeupFd l).wp (env strict atomic) (spec strict atomic) Q s := by
  simp only [detachWakeupFd, Prog.wp_bind, wp_getState, Prog.wp_ite]
  split
  · refine wp_step h.active fun s₁ h₁ => ?_
    have hat₁ := h.next stable_idle h₁
    have hrest (s₂ : State) (hat₂ : At strict l L (Released l) s₂) :
        step.wp (env strict atomic) (spec strict atomic) (fun _ s₃ =>
          (setLoop l fun L => { L with attached := false }).wp (env strict atomic)
            (spec strict atomic) (fun _ s₄ => Q (.ok ()) s₄) s₃) s₂ := by
      refine wp_step hat₂.active fun s₃ h₃ => hok false _ ?_
      exact (hat₂.next stable_released h₃).kept (f := fun L => { L with attached := false })
        ⟨rfl, rfl, rfl, rfl, rfl, rfl⟩ fun hr => hr.setLoop.toIdle
    refine wp_releaseWakeupFd hat₁.active (fun s₂ h₂ howner => ?_)
      (fun s₂ _ hl hnone hfd => ?_) fun exc s₂ _ h₂ => herr exc s₂ (hat₁.next stable_idle h₂)
    · simp only [Prog.wp_bind]
      exact hrest s₂ ((hat₁.next stable_idle h₂).mono fun hidle => ⟨hidle, howner⟩)
    · simp only [Prog.wp_bind]
      refine hrest s₂ (hat₁.loops hl fun _ => ⟨.of_none hnone hfd, ?_⟩)
      rw [hnone]
      exact fun ho => by cases ho
  · have hsame : { L with attached := L.attached } = L := rfl
    exact hok L.attached s (hsame ▸ h)

/-! ## Putting back -/

/-- The `try` of `_restore_wakeup_fd` leaves the previous descriptor, or none. -/
theorem wp_reinstall {previous : WakeupState} {abandon : Bool}
    {Q : Except Exc Bool → State → Prop} (h : At strict l L (Held l previous) s)
    (hok : ∀ abandon s', At strict l L (fun s => Taking l previous.owner s ∧
      (abandon = true → s.wakeupFd = none)) s' → Q (.ok abandon) s')
    (herr : ∀ exc s', ¬ strict → At strict l L (fun _ => True) s' → Q (.error exc) s') :
    (reinstall previous abandon).wp (env strict atomic) (spec strict atomic) Q s := by
  simp only [reinstall, Prog.wp_bind]
  refine wp_setWakeupFd h.active (fun s₁ h₁ => ?_) fun exc s₁ h₁ hfail _ => ?_
  · refine hok abandon _ ((h.next (stable_held _) h₁).of_eq rfl rfl rfl fun _ hheld => ?_)
    refine ⟨⟨hheld.owner, hheld.live, ?_, hheld.recoverable⟩, fun habandon => ?_⟩
    · cases abandon with
      | true => exact .inl rfl
      | false => exact hheld.aligned
    · rw [habandon]
      rfl
  · have hat₁ := h.next (stable_held _) h₁
    cases exc with
    | osError =>
      simp only [Prog.wp_bind]
      refine wp_step hat₁.active fun s₂ h₂ => ?_
      have hat₂ := hat₁.next (stable_held _) h₂
      refine wp_setWakeupFd hat₂.active (fun s₃ h₃ => ?_) fun exc s₃ h₃ hfail₃ _ => ?_
      · refine hok true _ ((hat₂.next (stable_held _) h₃).of_eq rfl rfl rfl fun _ hheld => ?_)
        exact ⟨⟨hheld.owner, hheld.live, .inl rfl, hheld.recoverable⟩, fun _ => rfl⟩
      · refine herr exc s₃ (fun hstrict => (hfail₃ hstrict).1 rfl) ?_
        exact (hat₂.next (stable_held _) h₃).mono fun _ => trivial
    | _ =>
      refine herr _ s₁ (fun hstrict => ?_) (hat₁.mono fun _ => trivial)
      have hos := (hfail hstrict).2
      cases hos

/-- An owner whose token is not finalized has not been cleaned up. -/
theorem Leaving.idle {previousOwner : Option ℕ} (h : Leaving previousOwner s) (hwf : Wf s)
    (hfin : s.finalizedOwner previousOwner = false) : Idle s := by
  refine h.toDoubtful.idle fun o ho => ?_
  have hprevious : previousOwner = some o := by
    rcases h.previous with hsame | hnone
    · exact hsame.symm.trans ho
    · rw [hnone] at ho
      cases ho
  rw [hprevious] at hfin
  exact ((hwf o).live hfin).1

/-- Without an owner there is nothing left to do. -/
theorem Leaving.idle_of_ne {previousOwner : Option ℕ} (h : Leaving previousOwner s)
    (hne : s.wakeupOwner ≠ previousOwner) : Idle s := by
  have hnone : s.wakeupOwner = none := h.previous.resolve_left hne
  refine .of_none hnone ?_
  rcases h.aligned with hfd | hfd
  · exact hfd
  · exact hfd.trans hnone

/-- The end of `_restore_wakeup_fd` leaves the descriptor in order. -/
theorem wp_revalidate {previous : WakeupState} {Q : Except Exc Unit → State → Prop}
    (h : At strict l L (Leaving previous.owner) s)
    (hok : ∀ a s', At strict l { L with attached := a } Idle s' → Q (.ok ()) s')
    (herr : ∀ exc s', ¬ strict → At strict l L (fun _ => True) s' → Q (.error exc) s') :
    (revalidate l previous).wp (env strict atomic) (spec strict atomic) Q s := by
  have hsame (s' : State) (hat : At strict l L Idle s') : Q (.ok ()) s' := hok L.attached s' hat
  simp only [revalidate, Prog.wp_bind, wp_getState, Prog.wp_ite]
  refine wp_foreign h.active fun _ s₀ h₀ _ => ?_
  have hat₀ := h.next (stable_leaving _) h₀
  split
  · refine wp_step hat₀.active fun s₁ h₁ => ?_
    have hat₁ := hat₀.next (stable_leaving _) h₁
    split
    · refine wp_step hat₁.active fun s₂ h₂ => ?_
      have hat₂ := hat₁.next (stable_leaving _) h₂
      refine wp_setWakeupFd hat₂.active (fun s₃ h₃ => ?_) fun exc s₃ h₃ hfail _ => ?_
      · -- the descriptor is out; the owner and the attachment follow
        simp only [Prog.wp_bind]
        have hat₃ : At strict l L (fun s => True → s.wakeupFd = none)
            { s₃ with wakeupFd := none } :=
          (hat₂.next (stable_leaving _) h₃).of_eq rfl rfl rfl fun _ _ _ => rfl
        refine wp_step hat₃.active fun s₄ h₄ => ?_
        rw [wp_setWakeupOwner]
        have hat₄ : At strict l L (Released l) { s₄ with wakeupOwner := none } :=
          (hat₃.next stable_out h₄).of_eq rfl rfl rfl fun _ hfd =>
            ⟨.of_none rfl (hfd trivial), fun ho => by cases ho⟩
        refine wp_step hat₄.active fun s₅ h₅ => hok false _ ?_
        exact (hat₄.next stable_released h₅).kept (f := fun L => { L with attached := false })
          ⟨rfl, rfl, rfl, rfl, rfl, rfl⟩ fun hr => hr.setLoop.toIdle
      · exact herr exc s₃ (fun hstrict => (hfail hstrict).1 rfl)
          ((hat₂.next (stable_leaving _) h₃).mono fun _ => trivial)
    · rename_i hne
      exact hsame s₁ (hat₁.mono fun hleft => hleft.idle_of_ne hne)
  · rename_i hfin
    exact hsame s₀ (hat₀.mono fun hleft => hleft.idle hat₀.wf (Bool.not_eq_true _ ▸ hfin))

/-- Putting back the previous descriptor leaves it in order. -/
theorem wp_restoreWakeupFd {previous : WakeupState} {Q : Except Exc Unit → State → Prop}
    (h : At strict l L (Held l previous) s)
    (hok : ∀ a s', At strict l { L with attached := a } Idle s' → Q (.ok ()) s')
    (herr : ∀ exc a s', ¬ strict → At strict l { L with attached := a } (fun _ => True) s' →
      Q (.error exc) s') :
    (restoreWakeupFd l (some previous)).wp (env strict atomic) (spec strict atomic) Q s := by
  have hself (hstrict : strict) : previous.owner = some l → previous.wasAttached = true :=
    (h.wakeup hstrict).attached
  simp only [restoreWakeupFd, Prog.wp_bind, wp_getState, Prog.wp_ite]
  split
  · rename_i hne
    exact herr _ L.attached s (fun hstrict => hne (h.wakeup hstrict).owner)
      (h.mono fun _ => trivial)
  · refine wp_foreign h.active fun _ s₁ h₁ _ => ?_
    have hat₁ := h.next (stable_held _) h₁
    refine wp_step hat₁.active fun s₂ h₂ => ?_
    refine wp_reinstall (hat₁.next (stable_held _) h₂) (fun abandon s₃ hat₃ => ?_)
      fun exc s₃ hstrict hat₃ => herr exc L.attached s₃ hstrict hat₃
    simp only [Prog.wp_bind]
    have hstable := (stable_taking (l := l) previous.owner).and
      (stable_out (p := abandon = true))
    refine wp_step hat₃.active fun s₄ h₄ => ?_
    rw [wp_setWakeupOwner]
    generalize hvalue : (if abandon then false else previous.wasAttached) = value
    have hat₄ : At strict l L
        (fun s => Leaving previous.owner s ∧ (s.wakeupOwner = some l → value = true))
        { s₄ with wakeupOwner := if abandon then none else previous.owner } := by
      refine (hat₃.next hstable h₄).of_eq rfl rfl rfl fun hstrict ht => ?_
      cases abandon with
      | true =>
        exact ⟨⟨⟨.inl (ht.2 rfl), fun o ho => by cases ho⟩, .inr rfl⟩, fun ho => by cases ho⟩
      | false =>
        refine ⟨⟨⟨ht.1.fd, ht.1.recoverable⟩, .inl rfl⟩, fun ho => ?_⟩
        rw [← hvalue]
        exact hself hstrict ho
    refine wp_step hat₄.active fun s₅ h₅ => ?_
    rw [wp_setLoop]
    have hat₅ : At strict l { L with attached := value } (Leaving previous.owner)
        (s₅.setLoop l fun L => { L with attached := value }) := by
      refine (hat₄.next ((stable_leaving _).and stable_owner) h₅).kept
        (f := fun L => { L with attached := value }) ⟨rfl, rfl, rfl, rfl, rfl, rfl⟩ fun ht => ?_
      refine ⟨⟨ht.1.aligned, ht.1.owner.setLoop fun ho => .inl ?_⟩, ht.1.previous⟩
      rw [State.loops_setLoop_self]
      exact ht.2 ho
    exact wp_revalidate hat₅ hok fun exc s₇ hstrict hat₇ => herr exc value s₇ hstrict hat₇

end Zuvloop.Signals
