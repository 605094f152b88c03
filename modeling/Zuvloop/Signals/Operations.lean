import Zuvloop.Signals.Wakeup

/-!
# The wakeup descriptor is safe

Every operation of the main thread leaves the wakeup descriptor in order, whatever runs between its
steps, as long as the environment is strict: taking the descriptor out does not fail, and the
cleanup of the previous owner does not run between the check and the assignment of
`_attach_wakeup_fd`. With a cleanup at that place the descriptor of a closed loop stays installed.

## Main results

* `verified`: what every entry point keeps.
* `wakeup_fd_safe`: the wakeup descriptor is out, or that of a loop that is not closed.
* `not_wakeup_fd_safe`: a cleanup between the check and the assignment.
-/

namespace Zuvloop.Signals

open Reentrant

variable {strict atomic : Prop} {s s' : State} {l n : ℕ} {L L' : Loop}

/-! ## Changes that do not concern the wakeup descriptor -/

/-- Signals may change. -/
theorem At.signals {W : State → Prop} (h : At strict l L W s) (hW : Stable l W)
    (hloops : s'.loops = s.loops) (hbusy : s'.busy = s.busy) (hdepth : s'.depth = s.depth)
    (howner : s'.wakeupOwner = s.wakeupOwner) (hfd : s'.wakeupFd = s.wakeupFd) :
    At strict l L W s' :=
  h.of_eq hloops hbusy hdepth fun _ =>
    hW s s' (.of_eq hloops hbusy howner hfd) (congrFun hloops l)

/-- Handlers may come and go. -/
theorem Backed.setHandlers {o : ℕ} {f : Loop → Loop} (h : Backed s o)
    (hattached : ∀ L, (f L).attached = L.attached) (hdeferred : ∀ L, (f L).deferred = L.deferred) :
    Backed (s.setLoop l f) o := by
  by_cases ho : o = l
  · subst ho
    rwa [Backed, State.loops_setLoop_self, hattached, hdeferred]
  · rwa [Backed, State.loops_setLoop_ne _ ho]

theorem Idle.setHandlers {f : Loop → Loop} (h : Idle s)
    (hattached : ∀ L, (f L).attached = L.attached) (hdeferred : ∀ L, (f L).deferred = L.deferred) :
    Idle (s.setLoop l f) :=
  ⟨h.aligned, fun o ho => (h.backed o ho).setHandlers hattached hdeferred⟩

theorem Held.setHandlers {previous : WakeupState} {f : Loop → Loop} (h : Held l previous s)
    (hattached : ∀ L, (f L).attached = L.attached) (hdeferred : ∀ L, (f L).deferred = L.deferred)
    (hk : (s.loops l).Kept (f (s.loops l))) : Held l previous (s.setLoop l f) := by
  refine ⟨h.owner, ?_, h.fd, h.aligned, fun o ho hopen => ?_, h.attached⟩
  · rw [State.loops_setLoop_self, hk.finalized]
    exact h.live
  · refine (h.recoverable o ho ?_).setHandlers hattached hdeferred
    by_cases heq : o = l
    · subst heq
      rwa [State.loops_setLoop_self, hk.fdOpen] at hopen
    · rwa [State.loops_setLoop_ne _ heq] at hopen

@[simp]
theorem Loop.attached_restoreEntry (L : Loop) (n : ℕ) (previousEntry : Option ℕ) :
    (L.restoreEntry n previousEntry).attached = L.attached := by cases previousEntry <;> rfl

@[simp]
theorem Loop.deferred_restoreEntry (L : Loop) (n : ℕ) (previousEntry : Option ℕ) :
    (L.restoreEntry n previousEntry).deferred = L.deferred := by cases previousEntry <;> rfl

theorem Loop.Kept.restoreEntry (L : Loop) (n : ℕ) (previousEntry : Option ℕ) :
    L.Kept (L.restoreEntry n previousEntry) := by
  cases previousEntry <;> exact ⟨rfl, rfl, rfl, rfl, rfl, rfl⟩

theorem Handlers.insert_ne_nil (h : Handlers) (n entry : ℕ) : h.insert n entry ≠ [] := by
  rw [Handlers.insert]
  split
  · rename_i hsome
    intro hnil
    -- an entry that is there does not vanish
    rw [List.map_eq_nil_iff.mp hnil] at hsome
    cases hsome
  · simp

/-- A signal is set, or is not. -/
theorem At.wp_setSignal {W : State → Prop} {hd : Handler}
    {Q : Except Exc Unit → State → Prop} (h : At strict l L W s) (hW : Stable l W)
    (hQ : ∀ r s', At strict l L W s' → Q r s') :
    (setSignal n hd).wp (env strict atomic) (spec strict atomic) Q s :=
  Signals.wp_setSignal h.active (fun _ hn => hQ _ _ ((h.next hW hn).signals hW rfl rfl rfl rfl rfl))
    fun _ _ hn _ _ => hQ _ _ (h.next hW hn)

/-! ## Adding -/

/-- What an attempt to register a signal finds of the wakeup descriptor when it fails. -/
def Entered (l : ℕ) : Option WakeupState → State → Prop
  | none => Idle
  | some previous => Held l previous

theorem stable_entered (wakeup : Option WakeupState) : Stable l (Entered l wakeup) := by
  cases wakeup with
  | none => exact stable_idle
  | some previous => exact stable_held previous

/-- An attempt that is given up half way leaves the loop attached, or as it was. -/
theorem Entered.idle {wakeup : Option WakeupState} (h : Entered l wakeup s)
    (hattached : wakeup.isSome = true → (s.loops l).attached = true) : Idle s := by
  cases wakeup with
  | none => exact h
  | some previous => exact Held.idle h (hattached rfl)

theorem Entered.setHandlers {wakeup : Option WakeupState} {f : Loop → Loop}
    (h : Entered l wakeup s) (hattached : ∀ L, (f L).attached = L.attached)
    (hdeferred : ∀ L, (f L).deferred = L.deferred) (hk : (s.loops l).Kept (f (s.loops l))) :
    Entered l wakeup (s.setLoop l f) := by
  cases wakeup with
  | none => exact Idle.setHandlers h hattached hdeferred
  | some previous => exact Held.setHandlers h hattached hdeferred hk

/-- Putting the owner of a signal back does not concern the wakeup descriptor. -/
theorem wp_restoreOwner {previousOwner : Option ℕ} {finalized : Bool} {W : State → Prop}
    {Q : Except Exc Unit → State → Prop} (h : At strict l L W s) (hW : Stable l W)
    (hQ : ∀ r s', At strict l L W s' → Q r s') :
    (restoreOwner n previousOwner finalized).wp (env strict atomic) (spec strict atomic) Q s := by
  have hset {s : State} {owner : Option ℕ} (h : At strict l L W s) :
      At strict l L W (s.setOwner n owner) := h.signals hW rfl rfl rfl rfl rfl
  simp only [restoreOwner, Prog.wp_bind, wp_getState, wp_update, Prog.wp_ite]
  split
  · refine wp_step (hset h).active fun s₁ h₁ => ?_
    have hat₁ := (hset h).next hW h₁
    split
    · refine wp_step hat₁.active fun s₂ h₂ => ?_
      have hat₂ := hat₁.next hW h₂
      split
      · refine wp_step hat₂.active fun s₃ h₃ => ?_
        have hat₃ : At strict l L W (s₃.setOwner n none) := hset (hat₂.next hW h₃)
        exact wp_step hat₃.active fun s₄ h₄ => (hat₃.next hW h₄).wp_setSignal hW hQ
      · exact hQ _ s₂ hat₂
    · exact hQ _ s₁ hat₁
  · exact hQ _ _ (hset h)

/-- Putting everything back leaves the wakeup descriptor in order. -/
theorem wp_unpublish {previousEntry previousOwner : Option ℕ} {finalized : Bool}
    {wakeup : Option WakeupState} {Q : Exc → State → Prop}
    (h : At strict l L (Entered l wakeup) s)
    (hattached : wakeup.isSome = true → L.attached = true)
    (hQ : ∀ exc L' s', L.Kept L' → At strict l L' Idle s' → Q exc s') :
    (unpublish l n previousEntry previousOwner finalized wakeup).wp (env strict atomic)
      (spec strict atomic) Q s := by
  have hW := stable_entered (l := l) wakeup
  have hkept := Loop.Kept.restoreEntry L n previousEntry
  have hsame := L.attached_restoreEntry n previousEntry
  simp only [unpublish, Prog.wp_bind, wp_setLoop]
  refine wp_step h.active fun s₁ h₁ => ?_
  have hat₁ : At strict l (L.restoreEntry n previousEntry) (Entered l wakeup)
      (s₁.setLoop l (Loop.restoreEntry n previousEntry)) :=
    (h.next hW h₁).kept (.restoreEntry L n previousEntry)
      fun hent => hent.setHandlers (fun L => L.attached_restoreEntry n _)
        (fun L => L.deferred_restoreEntry n _) (.restoreEntry _ n previousEntry)
  refine wp_step hat₁.active fun s₂ h₂ => ?_
  refine wp_restoreOwner (hat₁.next hW h₂) hW fun r s₃ hat₃ => ?_
  cases r with
  | error exc =>
    refine hQ exc _ s₃ hkept (hat₃.mono fun hent => hent.idle fun hsome => ?_)
    rw [hat₃.loop, hsame, hattached hsome]
  | ok =>
    simp only [Prog.wp_bind]
    refine wp_step hat₃.active fun s₄ h₄ => ?_
    have hat₄ := hat₃.next hW h₄
    cases wakeup with
    | none => exact hQ _ _ s₄ hkept hat₄
    | some previous =>
      refine wp_restoreWakeupFd hat₄ (fun a s₅ hat₅ => ?_) fun exc a s₅ hstrict hat₅ => ?_
      · exact hQ _ { L.restoreEntry n previousEntry with attached := a } s₅
          (hkept.trans ⟨rfl, rfl, rfl, rfl, rfl, rfl⟩) hat₅
      · refine hQ exc { L.restoreEntry n previousEntry with attached := a } s₅
          (hkept.trans ⟨rfl, rfl, rfl, rfl, rfl, rfl⟩) ?_
        exact { hat₅ with wakeup := fun hs => absurd hs hstrict }

/-- A failed registration leaves the wakeup descriptor in order. -/
theorem wp_rollback {previousEntry previousOwner : Option ℕ} {wakeup : Option WakeupState}
    {Q : Exc → State → Prop} (h : At strict l L (Entered l wakeup) s)
    (hattached : wakeup.isSome = true → L.attached = true)
    (hQ : ∀ exc L' s', L.Kept L' → At strict l L' Idle s' → Q exc s') :
    (rollback l n previousEntry previousOwner wakeup).wp (env strict atomic) (spec strict atomic)
      Q s := by
  have hW := stable_entered (l := l) wakeup
  simp only [rollback, Prog.wp_bind, wp_getState, Prog.wp_ite]
  refine wp_step h.active fun s₁ h₁ => ?_
  have hat₁ := h.next hW h₁
  refine wp_step hat₁.active fun s₂ h₂ => ?_
  have hat₂ := hat₁.next hW h₂
  split
  · refine hat₂.wp_setSignal hW fun r s₃ hat₃ => ?_
    cases r with
    | error exc =>
      refine hQ exc L s₃ (.refl L) (hat₃.mono fun hent => hent.idle fun hsome => ?_)
      rw [hat₃.loop, hattached hsome]
    | ok => exact wp_unpublish hat₃ hattached hQ
  · exact wp_unpublish hat₂ hattached hQ

/-- The signal is installed once the loop is attached. -/
theorem wp_installed {previousEntry previousOwner : Option ℕ} {wakeup : Option WakeupState}
    {Q : Except Exc Unit → State → Prop} (h : At strict l L (Entered l wakeup) s)
    (hattached : wakeup.isSome = true → L.attached = true)
    (hQ : ∀ r L' s', L.Kept L' → At strict l L' Idle s' → Q r s') :
    (installed l n previousEntry previousOwner wakeup).wp (env strict atomic) (spec strict atomic)
      Q s := by
  have hW := stable_entered (l := l) wakeup
  have hidle {s' : State} (hat : At strict l L (Entered l wakeup) s') : At strict l L Idle s' :=
    hat.mono fun hent => hent.idle fun hsome => by rw [hat.loop, hattached hsome]
  simp only [installed, Prog.wp_bind]
  refine wp_step h.active fun s₁ h₁ => (h.next hW h₁).wp_setSignal hW fun r s₂ hat₂ => ?_
  rcases r with (- | - | - | -) | -
  case error.osError =>
    simp only [Prog.wp_bind]
    exact wp_rollback hat₂ hattached fun exc L' s' hk hat => hQ (.error exc) L' s' hk hat
  all_goals exact hQ _ L s₂ (.refl L) (hidle hat₂)

/-- Registering a signal attaches the loop, or leaves it as it was. -/
theorem wp_install {previousEntry previousOwner : Option ℕ} {Q : Except Exc Unit → State → Prop}
    (h : At strict l L Idle s) (hlive : L.finalized = false)
    (hQ : ∀ r L' s', L.Kept L' → At strict l L' Idle s' → Q r s') :
    (install l n previousEntry previousOwner).wp (env strict atomic) (spec strict atomic) Q s := by
  simp only [install, Prog.wp_bind]
  refine wp_attachWakeupFd h hlive (fun _ => ?_) (fun previous s₁ _ hat₁ => ?_)
    fun exc s₁ hat₁ => ?_
  · have hent : At strict l L (Entered l none) s := h
    exact wp_installed hent (fun hsome => by cases hsome) hQ
  · have hk : L.Kept { L with attached := true } := ⟨rfl, rfl, rfl, rfl, rfl, rfl⟩
    have hent : At strict l { L with attached := true } (Entered l (some previous)) s₁ := hat₁
    exact wp_installed hent (fun _ => rfl)
      fun r L' s' hk' hat => hQ r L' s' (hk.trans hk') hat
  · cases exc with
    | osError =>
      simp only [Prog.wp_bind]
      have hent : At strict l L (Entered l none) s₁ := hat₁
      exact wp_rollback hent (fun hsome => by cases hsome)
        fun exc L' s' hk hat => hQ (.error exc) L' s' hk hat
    | _ => exact hQ _ L s₁ (.refl L) hat₁

/-- Registering a signal leaves the wakeup descriptor in order. -/
theorem wp_addSignalHandler {e : ℕ} {Q : Except Exc Unit → State → Prop}
    (h : At strict l L Idle s) (hQ : ∀ r L' s', L.Kept L' → At strict l L' Idle s' → Q r s') :
    (addSignalHandler l n e).wp (env strict atomic) (spec strict atomic) Q s := by
  simp only [addSignalHandler, Prog.wp_bind, wp_getState, Prog.wp_ite, h.loop]
  split
  · exact hQ _ L s (.refl L) h
  rename_i hopen
  have hlive : L.finalized = false := by
    rw [← Bool.not_eq_true]
    exact fun hfin => hopen (h.ok.closed hfin)
  refine wp_validSignal fun valid => ?_
  split
  · exact hQ _ L s (.refl L) h
  refine wp_step h.active fun s₁ h₁ => ?_
  have hat₁ := h.next stable_idle h₁
  refine wp_step hat₁.active fun s₂ h₂ => ?_
  have hat₂ := hat₁.next stable_idle h₂
  refine wp_step hat₂.active fun s₃ h₃ => ?_
  have hk : L.Kept { L with handlers := L.handlers.insert n e } := ⟨rfl, rfl, rfl, rfl, rfl, rfl⟩
  have hat₃ := (hat₂.next stable_idle h₃).kept
    (f := fun L => { L with handlers := L.handlers.insert n e }) hk
    fun hidle => hidle.setHandlers (l := l) (fun _ => rfl) fun _ => rfl
  refine wp_step hat₃.active fun s₄ h₄ => ?_
  have hat₄ : At strict l _ Idle (s₄.setOwner n (some l)) :=
    (hat₃.next stable_idle h₄).signals stable_idle rfl rfl rfl rfl rfl
  refine wp_step hat₄.active fun s₅ h₅ => ?_
  exact wp_install (hat₄.next stable_idle h₅) hlive
    fun r L' s' hk' hat => hQ r L' s' (hk.trans hk') hat

/-! ## Removing -/

/-- Giving a signal up leaves the wakeup descriptor alone. -/
theorem wp_resetSignal {Q : Except Exc Unit → State → Prop} (h : At strict l L Idle s)
    (hQ : ∀ r s', At strict l L Idle s' → Q r s') :
    (resetSignal l n).wp (env strict atomic) (spec strict atomic) Q s := by
  simp only [resetSignal, Prog.wp_bind, wp_getState, Prog.wp_ite]
  split
  · exact wp_step h.active fun s₁ h₁ => (h.next stable_idle h₁).wp_setSignal stable_idle hQ
  · exact hQ _ s h

theorem wp_disown {Q : Unit → State → Prop} (h : At strict l L Idle s)
    (hQ : ∀ s', At strict l L Idle s' → Q () s') :
    (disown l n).wp (env strict atomic) (spec strict atomic) Q s := by
  simp only [disown, Prog.wp_bind, wp_getState, Prog.wp_ite]
  split
  · refine wp_step h.active fun s₁ h₁ => ?_
    exact hQ _ ((h.next stable_idle h₁).signals stable_idle rfl rfl rfl rfl rfl)
  · exact hQ s h

theorem wp_unregister {e : ℕ} {Q : Unit → State → Prop} (h : At strict l L Idle s)
    (hQ : ∀ L' s', L.Kept L' → At strict l L' Idle s' → Q () s') :
    (unregister l n e).wp (env strict atomic) (spec strict atomic) Q s := by
  simp only [unregister, Prog.wp_bind, wp_getState, Prog.wp_ite]
  split
  · have hk : L.Kept { L with handlers := L.handlers.erase n } := ⟨rfl, rfl, rfl, rfl, rfl, rfl⟩
    have hat := h.kept (f := fun L => { L with handlers := L.handlers.erase n }) hk
      fun hidle => hidle.setHandlers (l := l) (fun _ => rfl) fun _ => rfl
    refine wp_step hat.active fun s₁ h₁ => ?_
    exact wp_disown (hat.next stable_idle h₁) fun s' hat' => hQ _ s' hk hat'
  · exact hQ L s (.refl L) h

/-- Removing a signal leaves the wakeup descriptor in order. Where there is none, nothing
changes. -/
theorem wp_removeSignalHandler {Q : Except Exc Bool → State → Prop} (h : At strict l L Idle s)
    (hQ : ∀ r L' s', L.Kept L' → (L.handlers = [] → L' = L) → At strict l L' Idle s' → Q r s') :
    (removeSignalHandler l n).wp (env strict atomic) (spec strict atomic) Q s := by
  simp only [removeSignalHandler, Prog.wp_bind, Prog.wp_ite]
  refine wp_validSignal fun valid => ?_
  split
  · exact hQ _ L s (.refl L) (fun _ => rfl) h
  simp only [wp_getState, h.loop]
  cases hentry : L.handlers.entry n with
  | none => exact hQ _ L s (.refl L) (fun _ => rfl) h
  | some e =>
    have hne (L' : Loop) : L.handlers = [] → L' = L := fun hnil => by
      rw [hnil] at hentry
      cases hentry
    simp only [Prog.wp_bind]
    refine wp_step h.active fun s₁ h₁ => ?_
    refine wp_resetSignal (h.next stable_idle h₁) fun r s₂ hat₂ => ?_
    cases r with
    | error exc => exact hQ _ L s₂ (.refl L) (hne L) hat₂
    | ok =>
      simp only [Prog.wp_bind]
      refine wp_step hat₂.active fun s₃ h₃ => ?_
      refine wp_unregister (hat₂.next stable_idle h₃) fun L' s₄ hk hat₄ => ?_
      refine wp_step hat₄.active fun s₅ h₅ => ?_
      refine wp_detachWakeupFd (hat₄.next stable_idle h₅) (fun a s₆ hat₆ => ?_)
        fun exc s₆ hat₆ => hQ _ L' s₆ hk (hne L') hat₆
      have hk' : L.Kept { L' with attached := a } := hk.trans ⟨rfl, rfl, rfl, rfl, rfl, rfl⟩
      exact hQ _ _ s₆ hk' (hne _) hat₆

/-- Removing several. -/
theorem wp_removeAll {signals : List ℕ} {Q : Except Exc Unit → State → Prop}
    (h : At strict l L Idle s) (hQ : ∀ r L' s', L.Kept L' → At strict l L' Idle s' → Q r s') :
    (removeAll l signals).wp (env strict atomic) (spec strict atomic) Q s := by
  induction signals generalizing s L with
  | nil => exact hQ _ L s (.refl L) h
  | cons n rest ih =>
    simp only [removeAll, Prog.wp_bind]
    refine wp_removeSignalHandler h fun r L₁ s₁ hk _ hat₁ => ?_
    cases r with
    | error exc => exact hQ _ L₁ s₁ hk hat₁
    | ok =>
      simp only [Prog.wp_bind]
      refine wp_step hat₁.active fun s₂ h₂ => ?_
      exact ih (hat₁.next stable_idle h₂) fun r L' s' hk' hat => hQ r L' s' (hk.trans hk') hat

/-! ## Closing -/

/-- The descriptor is its owner's, and the loop that is being closed still gives it up. -/
structure Yielding (l : ℕ) (s : State) : Prop where
  /-- The descriptor is its owner's. -/
  aligned : s.wakeupFd = none ∨ s.wakeupFd = s.wakeupOwner
  /-- Every other owner has still to give it up. -/
  backed : ∀ o, s.wakeupOwner = some o → o = l ∨ Backed s o

theorem stable_yielding : Stable l (Yielding l) := by
  intro s s' ha _ h
  refine ⟨?_, fun o ho => ?_⟩
  · rcases ha.wakeup with ⟨ho, hfd⟩ | ⟨-, hfd, -⟩
    · rw [ho, hfd]
      exact h.aligned
    · exact .inl hfd
  · exact (h.backed o (ha.wakeup.owner ho)).imp_right (ha.owned trivial o ho)

/-- The loop that is being closed may be detached. -/
theorem Yielding.setLoop {f : Loop → Loop} (h : Yielding l s) : Yielding l (s.setLoop l f) := by
  refine ⟨h.aligned, fun o ho => ?_⟩
  by_cases heq : o = l
  · exact .inl heq
  · rw [Backed, State.loops_setLoop_ne _ heq]
    exact h.backed o ho

/-- A closed loop that is done with has nothing left. -/
theorem Loop.Ok.settled {L : Loop} (h : L.Ok True) (hfin : L.finalized = true)
    (hfree : L.retiring = false ∧ L.deferred = none) (hhandlers : L.handlers = [])
    (hattached : L.attached = false) : L.Ok False where
  live hlive := by
    rw [hfin] at hlive
    cases hlive
  closed := h.closed
  retiring hret := by
    rw [hfree.1] at hret
    cases hret
  deferred hdef := absurd hfree.2 hdef
  gone _ := .inr (.inr ⟨hhandlers, hattached⟩)
  running := h.running

/-- An operation that is done with leaves everything in order. -/
structure Settled (strict : Prop) (s : State) : Prop where
  /-- No other function is in progress. -/
  depth : s.depth = 1
  /-- Every loop is in order. -/
  wf : ∀ o, (s.loops o).Ok False
  /-- So is the wakeup descriptor. -/
  idle : strict → Idle s

theorem At.settled (h : At strict l L Idle s) (hok : L.Ok False) : Settled strict s := by
  refine ⟨h.depth, fun o => ?_, h.wakeup⟩
  by_cases ho : o = l
  · subst ho
    rwa [h.loop]
  · have hwf := h.wf o
    -- another loop is not the one of the operation
    have hbusy : (s.busy = some o) = False := by
      rw [h.busy]
      simpa using Ne.symm ho
    rwa [hbusy] at hwf

/-- An open loop that is done with is in order. -/
theorem At.settled_kept (h : At strict l L' Idle s) (hk : L.Kept L') (hfin : L.finalized = false)
    (hopen : L.closed = false) : Settled strict s := by
  have hlive := (h.ok.live (hk.finalized.trans hfin)).1
  refine h.settled ⟨fun _ => ⟨hlive, .inl (hk.closed.trans hopen)⟩, h.ok.closed, h.ok.retiring,
    h.ok.deferred, fun hf => ?_, h.ok.running⟩
  rw [hk.finalized, hfin] at hf
  cases hf

/-- Closing the descriptor. -/
theorem At.closeFd {W : State → Prop} (h : At strict l L W s) (hfin : L.finalized = true)
    (hhandlers : L.handlers = []) (hattached : L.attached = false) (hW : W s → Idle s) :
    Settled strict (s.setLoop l fun L => { L with fdOpen := false }) := by
  have hat : At strict l { L with fdOpen := false } Idle
      (s.setLoop l fun L => { L with fdOpen := false }) :=
    h.setLoop (f := fun L => { L with fdOpen := false }) (h.ok.closeFd hfin h.free.1 h.free.2)
      h.free fun hw => (hW hw).setHandlers (fun _ => rfl) fun _ => rfl
  exact hat.settled (hat.ok.settled hfin h.free hhandlers hattached)

/-- The rest of `close` gives up whatever the loop has left. -/
theorem wp_closeSignals {Q : Except Exc Unit → State → Prop} (h : At strict l L Idle s)
    (hfin : L.finalized = true) (hQ : ∀ r s', Settled strict s' → Q r s') :
    (closeSignals l).wp (env strict atomic) (spec strict atomic) Q s := by
  simp only [closeSignals, Prog.wp_bind, wp_getState, Prog.wp_ite, h.loop]
  split
  · refine wp_step h.active fun s₁ h₁ => ?_
    have hat₁ := h.next stable_idle h₁
    have hat₁' := hat₁.kept (f := fun L => { L with handlers := [] }) ⟨rfl, rfl, rfl, rfl, rfl, rfl⟩
      fun hidle => hidle.setHandlers (l := l) (fun _ => rfl) fun _ => rfl
    refine wp_step hat₁'.active fun s₂ h₂ => ?_
    -- from here on the loop may own the descriptor without being attached
    have hyield (s : State) (hidle : Idle s) :
        Yielding l (s.setLoop l fun L => { L with attached := false }) :=
      Yielding.setLoop ⟨hidle.aligned, fun o ho => .inr (hidle.backed o ho)⟩
    have hat₂ := (hat₁'.next stable_idle h₂).kept (f := fun L => { L with attached := false })
      ⟨rfl, rfl, rfl, rfl, rfl, rfl⟩ (hyield s₂)
    refine wp_step hat₂.active fun s₃ h₃ => ?_
    have hat₃ := hat₂.next stable_yielding h₃
    refine wp_finishDeferredSignalCleanup hat₃.active (by rw [hat₃.loop]; exact hfin)
      (fun r s₄ h₄ howner _ => ?_) fun exc s₄ hstrict h₄ => ?_
    · have hat₄ := hat₃.next stable_yielding h₄
      refine hQ r _ (hat₄.closeFd hfin rfl rfl fun hy => ⟨hy.aligned, fun o ho => ?_⟩)
      exact (hy.backed o ho).resolve_left fun heq => howner (heq ▸ ho)
    · have hat₄ := hat₃.next stable_yielding h₄
      refine hQ _ s₄ (At.settled { hat₄ with wakeup := fun hs => absurd hs hstrict } ?_)
      exact hat₄.ok.settled hfin hat₄.free rfl rfl
  · rename_i hnone
    simp only [not_or, Decidable.not_not, Bool.not_eq_true] at hnone
    refine wp_step h.active fun s₁ h₁ => ?_
    exact hQ _ _ ((h.next stable_idle h₁).closeFd hfin hnone.1 hnone.2 id)

/-- While the operation that closes a loop is in progress, the loop is marked. -/
theorem Loop.Ok.close {L : Loop} (h : L.Ok True) (hfree : L.retiring = false ∧ L.deferred = none)
    (hrunning : L.running = false) (finalized : Bool)
    (hlive : finalized = false → L.finalized = false) :
    Loop.Ok True { L with closed := true, finalized := finalized } where
  live hf := ⟨(h.live (hlive hf)).1, .inr trivial⟩
  closed _ := rfl
  retiring hret := by
    have hret' : L.retiring = true := hret
    rw [hfree.1] at hret'
    cases hret'
  deferred hdef := absurd hfree.2 hdef
  gone _ := .inr (.inl trivial)
  running hrun := by
    have hrun' : L.running = true := hrun
    rw [hrunning] at hrun'
    cases hrun'

/-- Closing a loop leaves the wakeup descriptor in order. -/
theorem wp_close {Q : Except Exc Unit → State → Prop} (h : At strict l L Idle s)
    (hopen : L.closed = false) (hsame : ∀ r, Q r s) (hQ : ∀ r s', Settled strict s' → Q r s') :
    (close l).wp (env strict atomic) (spec strict atomic) Q s := by
  simp only [close, Prog.wp_bind, wp_getState, Prog.wp_ite, h.loop]
  split
  · exact hsame _
  rename_i hrunning
  rw [Bool.not_eq_true] at hrunning
  rw [hopen, if_neg Bool.false_ne_true]
  have hmark {L' : Loop} {s₁ : State} (hat : At strict l L' Idle s₁) (f : Loop → Loop)
      (hok : (f L').Ok True) (hfree : (f L').retiring = false ∧ (f L').deferred = none)
      (hattached : ∀ L, (f L).attached = L.attached)
      (hdeferred : ∀ L, (f L).deferred = L.deferred) :
      At strict l (f L') Idle (s₁.setLoop l f) :=
    hat.setLoop hok hfree fun hidle => hidle.setHandlers hattached hdeferred
  have hat₀ := hmark h (fun L => { L with closed := true })
    (h.ok.close h.free hrunning L.finalized id) h.free (fun _ => rfl) fun _ => rfl
  refine wp_step hat₀.active fun s₁ h₁ => ?_
  have hat₁ := hmark (hat₀.next stable_idle h₁) (fun L => { L with finalized := true })
    (h.ok.close h.free hrunning true fun hf => by cases hf) h.free (fun _ => rfl) fun _ => rfl
  refine wp_step hat₁.active fun s₂ h₂ => ?_
  have hat₂ := hat₁.next stable_idle h₂
  refine wp_removeAll hat₂ fun removed L₃ s₃ hk hat₃ => ?_
  refine wp_step hat₃.active fun s₄ h₄ => ?_
  refine wp_closeSignals (hat₃.next stable_idle h₄) hk.finalized fun r s' hsettled => ?_
  cases r with
  | error exc => exact hQ _ s' hsettled
  | ok => exact hQ removed s' hsettled

/-! ## Running -/

/-- Beginning to run a loop leaves the wakeup descriptor in order. -/
theorem wp_runBegin {Q : Except Exc Unit → State → Prop} (h : At strict l L Idle s)
    (hopen : L.closed = false) (hsame : ∀ r, Q r s) (hQ : ∀ r s', Settled strict s' → Q r s') :
    (runBegin l).wp (env strict atomic) (spec strict atomic) Q s := by
  have hlive : L.finalized = false := by
    rw [← Bool.not_eq_true]
    intro hfin
    rw [h.ok.closed hfin] at hopen
    cases hopen
  simp only [runBegin, Prog.wp_bind, wp_getState, Prog.wp_ite, h.loop]
  split
  · exact hsame _
  -- the loop runs once it is attached, or has nothing to attach for
  have hrest {L' : Loop} {s₁ : State} (hat : At strict l L' Idle s₁) (hk : L.Kept L') :
      step.wp (env strict atomic) (spec strict atomic) (fun _ s₂ =>
        Q (.ok ()) (s₂.setLoop l fun L => { L with running := true })) s₁ := by
    refine wp_step hat.active fun s₂ h₂ => hQ _ _ ?_
    have hat₂ := hat.next stable_idle h₂
    have hclosed : L'.closed = false := hk.closed.trans hopen
    have hfin : L'.finalized = false := hk.finalized.trans hlive
    have hat₃ : At strict l { L' with running := true } Idle
        (s₂.setLoop l fun L => { L with running := true }) :=
      hat₂.setLoop (f := fun L => { L with running := true })
        ⟨hat₂.ok.live, hat₂.ok.closed, hat₂.ok.retiring, hat₂.ok.deferred, hat₂.ok.gone,
          fun _ => hclosed⟩ hat₂.free fun hidle => hidle.setHandlers (fun _ => rfl) fun _ => rfl
    exact hat₃.settled_kept (.refl _) hfin hclosed
  refine wp_attachWakeupFd h hlive (fun _ => ?_) (fun previous s₁ _ hat₁ => ?_)
    fun exc s₁ hat₁ => ?_
  · simp only [Prog.wp_bind]
    exact hrest h (.refl L)
  · simp only [Prog.wp_bind]
    refine hrest (hat₁.mono fun hheld => hheld.idle ?_) ⟨rfl, rfl, rfl, rfl, rfl, rfl⟩
    rw [hat₁.loop]
  · exact hQ _ s₁ (hat₁.settled_kept (.refl L) hlive hopen)

/-- So does the end of a run. -/
theorem wp_runEnd {Q : Except Exc Unit → State → Prop} (h : At strict l L Idle s)
    (hrunning : L.running = true) (hQ : ∀ r s', Settled strict s' → Q r s') :
    (runEnd l).wp (env strict atomic) (spec strict atomic) Q s := by
  have hopen : L.closed = false := h.ok.running hrunning
  have hlive : L.finalized = false := by
    rw [← Bool.not_eq_true]
    intro hfin
    rw [h.ok.closed hfin] at hopen
    cases hopen
  simp only [runEnd, Prog.wp_bind, wp_setLoop]
  have hat : At strict l { L with running := false } Idle
      (s.setLoop l fun L => { L with running := false }) :=
    h.setLoop (f := fun L => { L with running := false })
      ⟨h.ok.live, h.ok.closed, h.ok.retiring, h.ok.deferred, h.ok.gone, fun hr => by cases hr⟩
      h.free
      fun hidle => hidle.setHandlers (fun _ => rfl) fun _ => rfl
  refine wp_step hat.active fun s₁ h₁ => ?_
  refine wp_detachWakeupFd (hat.next stable_idle h₁) (fun a s₂ hat₂ => ?_) fun exc s₂ hat₂ => ?_
  · exact hQ _ s₂ (hat₂.settled_kept (.refl _) hlive hopen)
  · exact hQ _ s₂ (hat₂.settled_kept (.refl _) hlive hopen)

/-! ## Every run -/

/-- An operation of the main thread that leaves everything in order keeps the specification. -/
theorem wp_entry_of_settled {op : Op} (hop : op.loop? = some l) (hdepth : s.depth = 0)
    (hbusy : s.busy = none)
    (hrun : (run op).wp (env strict atomic) (spec strict atomic) (fun _ => Settled strict)
      (s.enter op)) :
    (entry op).wp (env strict atomic) (spec strict atomic)
      (fun _ s' => Inv strict s' ∧ Rely strict atomic s s') s := by
  simp only [entry, Prog.wp_bind]
  rw [wp_update]
  refine Prog.wp_mono hrun fun _ s' hsettled => ?_
  rw [wp_update]
  have hdepth' : (s'.leave op).depth = 0 := by
    rw [State.leave]
    simp only [hsettled.depth, Nat.sub_self]
  have hbusy' : (s'.leave op).busy = none := by
    rw [State.leave, hop]
    rfl
  refine ⟨⟨fun o => ?_, fun _ => hbusy', fun hstrict _ => ?_⟩, hdepth'.trans hdepth.symm,
    hbusy'.trans hbusy.symm, fun hd => absurd hdepth (Nat.pos_iff_ne_zero.mp hd)⟩
  · have hnone : ((s'.leave op).busy = some o) = False := by simp [hbusy']
    rw [hnone]
    exact hsettled.wf o
  · exact ⟨(hsettled.idle hstrict).aligned, (hsettled.idle hstrict).backed⟩

theorem Loop.Ok.mono {busy busy' : Prop} {L : Loop} (h : L.Ok busy) (hb : busy → busy') :
    L.Ok busy' where
  live hlive := ⟨(h.live hlive).1, (h.live hlive).2.imp_right hb⟩
  closed := h.closed
  retiring := h.retiring
  deferred := h.deferred
  gone hfin := (h.gone hfin).imp_right fun hg => hg.imp_left hb
  running := h.running

/-- An operation of the main thread begins. -/
theorem wf_enter {op : Op} (h : Inv strict s) (hdepth : s.depth = 0) : Wf (s.enter op) :=
  fun o => (h.wf o).mono fun hb => by
    rw [h.rest hdepth] at hb
    cases hb

theorem at_enter {op : Op} (hop : op.loop? = some l) (h : Inv strict s) (hdepth : s.depth = 0)
    (hfree : Free s l) : At strict l (s.loops l) Idle (s.enter op) := by
  refine ⟨wf_enter h hdepth, ?_, ?_, rfl, hfree, fun hstrict => ?_⟩
  · rw [State.enter, hdepth]
  · rw [State.enter, hop]
    rfl
  · exact ⟨(h.idle hstrict hdepth).aligned, (h.idle hstrict hdepth).backed⟩

/-- An operation that does nothing leaves everything in order. -/
theorem settled_enter (op : Op) (h : Inv strict s) (hdepth : s.depth = 0) :
    Settled strict (s.enter op) := by
  refine ⟨?_, fun o => (h.wf o).mono fun hb => ?_, fun hstrict => ?_⟩
  · rw [State.enter, hdepth]
  · rw [h.rest hdepth] at hb
    cases hb
  · exact ⟨(h.idle hstrict hdepth).aligned, (h.idle hstrict hdepth).backed⟩

/-- A loop that is not closed is free. -/
theorem Inv.free (h : Inv strict s) (hopen : (s.loops l).closed = false) :
    Free s l ∧ (s.loops l).finalized = false := by
  have hfin : (s.loops l).finalized = false := by
    rw [← Bool.not_eq_true]
    intro hfin
    rw [(h.wf l).closed hfin] at hopen
    cases hopen
  refine ⟨⟨?_, ?_⟩, hfin⟩
  · rw [← Bool.not_eq_true]
    intro hret
    rw [((h.wf l).retiring hret).1] at hfin
    cases hfin
  · by_contra hdef
    rw [((h.wf l).deferred hdef).1] at hfin
    cases hfin

/-- A closed loop has no handlers left, unless another thread is closing it. -/
theorem Inv.handlers (h : Inv strict s) (hdepth : s.depth = 0)
    (hclosed : (s.loops l).closed = true) (hret : (s.loops l).retiring = false) :
    (s.loops l).handlers = [] := by
  have hbusy := h.rest hdepth
  have hfin : (s.loops l).finalized = true := by
    by_contra hfin
    rcases ((h.wf l).live (Bool.not_eq_true _ ▸ hfin)).2 with hopen | hb
    · rw [hclosed] at hopen
      cases hopen
    · rw [hbusy] at hb
      cases hb
  rcases (h.wf l).gone hfin with hr | hb | ⟨hnil, -⟩
  · rw [hret] at hr
    cases hr
  · rw [hbusy] at hb
    cases hb
  · exact hnil

/-- Every operation on a closed loop ends at once. -/
theorem wp_run_closed {op : Op} (hop : op.loop? = some l) (h : Inv strict s) (hdepth : s.depth = 0)
    (hstart : Startable [] s op) (hclosed : (s.loops l).closed = true) :
    (run op).wp (env strict atomic) (spec strict atomic) (fun _ => Settled strict)
      (s.enter op) := by
  have hsame := settled_enter op h hdepth
  have henter : ((s.enter op).loops l).closed = true := hclosed
  cases op <;> cases hop
  case addSignalHandler.refl sig e =>
    simp only [run, Prog.wp_map, addSignalHandler, Prog.wp_bind, wp_getState, Prog.wp_ite]
    rw [if_pos henter]
    exact hsame
  case removeSignalHandler.refl sig =>
    have hnil : ((s.enter (.removeSignalHandler l sig)).loops l).handlers = [] :=
      h.handlers hdepth hclosed hstart.2
    simp only [run, Prog.wp_map, removeSignalHandler, Prog.wp_bind, Prog.wp_ite]
    refine wp_validSignal fun valid => ?_
    split
    · exact hsame
    · rw [wp_getState, hnil]
      exact hsame
  case runBegin.refl =>
    simp only [run, Prog.wp_map, runBegin, Prog.wp_bind, wp_getState, Prog.wp_ite]
    rw [if_pos (by rw [henter, Bool.true_or])]
    exact hsame
  case runEnd.refl =>
    rw [(h.wf l).running hstart.2] at hclosed
    cases hclosed
  case close.refl =>
    simp only [run, Prog.wp_map, close, Prog.wp_bind, wp_getState, Prog.wp_ite]
    rw [if_pos henter]
    split <;> exact hsame

/-- What an operation of the main thread leaves behind. -/
theorem wp_run {op : Op} (hop : op.loop? = some l) (h : Inv strict s) (hdepth : s.depth = 0)
    (hstart : Startable [] s op) :
    (run op).wp (env strict atomic) (spec strict atomic) (fun _ => Settled strict)
      (s.enter op) := by
  cases hclosed : (s.loops l).closed with
  | true => exact wp_run_closed hop h hdepth hstart hclosed
  | false =>
    have hsame := settled_enter op h hdepth
    obtain ⟨hfree, hlive⟩ := h.free hclosed
    have hat := at_enter hop h hdepth hfree
    have hkept {L' : Loop} {s' : State} (hk : (s.loops l).Kept L') (hat' : At strict l L' Idle s') :
        Settled strict s' := hat'.settled_kept hk hlive hclosed
    cases op <;> cases hop
    case addSignalHandler.refl sig e =>
      exact (Prog.wp_map _ _ _ _).mpr (wp_addSignalHandler hat fun _ _ _ hk hat' => hkept hk hat')
    case removeSignalHandler.refl sig =>
      exact (Prog.wp_map _ _ _ _).mpr
        (wp_removeSignalHandler hat fun _ _ _ hk _ hat' => hkept hk hat')
    case runBegin.refl =>
      exact (Prog.wp_map _ _ _ _).mpr (wp_runBegin hat hclosed (fun _ => hsame) fun _ _ hs => hs)
    case runEnd.refl =>
      exact (Prog.wp_map _ _ _ _).mpr (wp_runEnd hat hstart.2 fun _ _ hs => hs)
    case close.refl =>
      exact (Prog.wp_map _ _ _ _).mpr (wp_close hat hclosed (fun _ => hsame) fun _ _ hs => hs)

/-- Every entry point keeps the specification. -/
theorem verified (strict atomic : Prop) :
    Verified system (env strict atomic) (spec strict atomic) where
  rely_refl s := ⟨rfl, rfl, fun _ => .refl s⟩
  rely_trans s₁ s₂ s₃ h h' :=
    ⟨h'.depth.trans h.depth, h'.busy.trans h.busy,
      fun hd => (h.interferes hd).trans (h'.interferes (h.depth ▸ hd))⟩
  init := ⟨wf_init, fun _ => rfl, fun _ _ => idle_init⟩
  body := nofun
  entry stack s op hstart hinv hrely := by
    have hmain (l : ℕ) (hop : op.loop? = some l) (hnil : stack = []) :
        (entry op).wp (env strict atomic) (spec strict atomic)
          (fun _ s' => Inv strict s' ∧ Rely strict atomic s s') s := by
      have hdepth : s.depth = 0 := (hrely hnil).depth
      subst hnil
      exact wp_entry_of_settled hop hdepth (hinv.rest hdepth) (wp_run hop hinv hdepth hstart)
    have hother (hop : op.loop? = none) : Wf (s.enter op) := fun o => by
      have hbusy : (s.enter op).busy = s.busy := by
        rw [State.enter, hop]
        rfl
      rw [hbusy]
      exact hinv.wf o
    cases op with
    | addSignalHandler l n e => exact hmain l rfl hstart.1
    | removeSignalHandler l n => exact hmain l rfl hstart.1
    | runBegin l => exact hmain l rfl hstart.1
    | runEnd l => exact hmain l rfl hstart.1
    | close l => exact hmain l rfl hstart.1
    | finalize l =>
      obtain ⟨hint, hwf⟩ := interferes_finalize (hother rfl) hstart.1 hstart.2.1
        hstart.2.2
      exact wp_entry_of_next rfl hinv ⟨⟨hwf, Nat.succ_pos _⟩, rfl, hint⟩
    | retire l =>
      obtain ⟨hint, hwf⟩ := interferes_retire (hother rfl) hstart
      have hdepth := (s.enter (.retire l)).depth_retire l
      exact wp_entry_of_next rfl hinv
        ⟨⟨hwf, lt_of_lt_of_eq (Nat.succ_pos _) hdepth.symm⟩, hdepth, hint⟩
    | cleanup l =>
      exact wp_entry_of_next rfl hinv
        (wp_cleanup ⟨hother rfl, Nat.succ_pos _⟩ hstart fun s' hn => hn)

/-- A loop is being closed: another thread is at it, or its cleanup is still to come. -/
def Closing (s : State) (l : ℕ) : Prop :=
  (s.loops l).retiring = true ∨ (s.loops l).deferred ≠ none

/-- With nothing in progress on the main thread the wakeup descriptor is out, or it is the open
descriptor of its owner, and the owner is not closed unless its close is still in progress. -/
theorem wakeup_fd_safe (h : system.Reachable (env True False) ⟨s, none, []⟩) :
    s.wakeupFd = none ∨ ∃ l, s.wakeupFd = some l ∧ s.wakeupOwner = some l ∧
      (s.loops l).fdOpen = true ∧ (¬ Closing s l → (s.loops l).finalized = false) := by
  obtain ⟨hinv, hrely⟩ := (verified True False).top_level h
  have hdepth : s.depth = 0 := hrely.depth
  have hidle := hinv.idle trivial hdepth
  rcases hidle.aligned with hnone | hsame
  · exact .inl hnone
  cases howner : s.wakeupOwner with
  | none => exact .inl (hsame.trans howner)
  | some l =>
    refine .inr ⟨l, hsame.trans howner, rfl, ?_, fun hclosing => ?_⟩
    · -- the descriptor is closed only after it has been given up
      cases hfin : (s.loops l).finalized with
      | false => exact ((hinv.wf l).live hfin).1
      | true =>
        rcases hidle.backed l howner with hattached | hdef
        · rcases (hinv.wf l).gone hfin with hret | hbusy | ⟨-, hdetached⟩
          · exact ((hinv.wf l).retiring hret).2.1
          · rw [hinv.rest hdepth] at hbusy
            cases hbusy
          · rw [hdetached] at hattached
            cases hattached
        · exact ((hinv.wf l).deferred hdef).2.1
    · rw [Closing, not_or, Bool.not_eq_true, Decidable.not_not] at hclosing
      rw [← Bool.not_eq_true]
      intro hfin
      rcases hidle.backed l howner with hattached | hdef
      · rcases (hinv.wf l).gone hfin with hret | hbusy | ⟨-, hdetached⟩
        · rw [hclosing.1] at hret
          cases hret
        · rw [hinv.rest hdepth] at hbusy
          cases hbusy
        · rw [hdetached] at hattached
          cases hattached
      · exact hdef hclosing.2

/-! ## Concrete runs -/

instance (stack : List Callback) (s : State) (op : Op) : Decidable (Startable stack s op) :=
  match op with
  | .addSignalHandler .. | .removeSignalHandler .. | .runBegin _ | .close _ | .runEnd _ =>
    inferInstanceAs (Decidable (_ ∧ _))
  | .finalize _ => inferInstanceAs (Decidable (_ ∧ _ ∧ _))
  | .retire _ => inferInstanceAs (Decidable (_ = _))
  | .cleanup _ => inferInstanceAs (Decidable (_ ≠ _))

instance (strict atomic : Prop) [Decidable strict] [Decidable atomic] (s : State) (c : Callback)
    (r : Outcome) : Decidable (Returns strict atomic s c r) :=
  match c with
  | .step => .isTrue trivial
  | .commit none => .isTrue fun _ _ ho => by cases ho
  | .commit (some o) => decidable_of_iff (strict → (s.loops o).fdOpen = true) (by simp [Returns])
  | .recheck .. => inferInstanceAs (Decidable (atomic → _ → _))
  | .setWakeupFd .. | .signal .. => inferInstanceAs (Decidable ((strict → _) ∧ (atomic → _ → _)))

/-- Calls raise nothing but `OSError`, and taking the wakeup descriptor out does not fail. -/
def osErrors : Env sig :=
  { env False False with
    returns := fun _ c r => r = none ∨ r = some .osError ∧ ∀ b, c ≠ .setWakeupFd none b }

instance (strict atomic : Prop) (s : State) (q : ℕ) (a : Bool) :
    Decidable ((env strict atomic).answers s q a) := .isTrue trivial

instance (strict atomic : Prop) [Decidable strict] [Decidable atomic] (s : State) (c : Callback)
    (r : Outcome) : Decidable ((env strict atomic).returns s c r) :=
  inferInstanceAs (Decidable (Returns strict atomic s c r))

instance (strict atomic : Prop) (stack : List Callback) (s : State) (op : Op) :
    Decidable ((env strict atomic).starts stack s op) :=
  inferInstanceAs (Decidable (Startable stack s op))

instance (s : State) (q : ℕ) (a : Bool) : Decidable (osErrors.answers s q a) := .isTrue trivial

instance (s : State) (c : Callback) (r : Outcome) : Decidable (osErrors.returns s c r) :=
  inferInstanceAs (Decidable (_ ∨ _ ∧ _))

instance (stack : List Callback) (s : State) (op : Op) : Decidable (osErrors.starts stack s op) :=
  inferInstanceAs (Decidable (Startable stack s op))

instance (E : Env sig) [∀ s q a, Decidable (E.answers s q a)]
    [∀ s c r, Decidable (E.returns s c r)] [∀ stack s op, Decidable (E.starts stack s op)]
    (c : Config sig) (l : Label sig) : Decidable (E.Allows c l) :=
  match l with
  | .tau => .isTrue trivial
  | .answer a =>
    match h : c.running with
    | some (.ask q _) => decidable_of_iff (E.answers c.state q a) (by simp [Env.Allows, h])
    | some (.ret _) | some (.get _) | some (.set _ _) | some (.yield _ _) | some (.call _ _)
    | none => .isFalse (by simp [Env.Allows, h])
  | .start op => inferInstanceAs (Decidable (E.starts (c.stack.map Prod.fst) c.state op))
  | .resume r =>
    match h : c.stack with
    | (cb, _) :: _ => decidable_of_iff (E.returns c.state cb r) (by simp [Env.Allows, h])
    | [] => .isFalse (by simp [Env.Allows, h])

/-- A handler is registered, and nothing else happens. -/
def registered (l n e : ℕ) : List (Label sig) :=
  [.start (.addSignalHandler l n e), .answer true] ++ List.replicate 14 (.resume none)

theorem wakeup_fd_safe_registered : ∃ s, system.Reachable (env True False) ⟨s, none, []⟩ ∧
    s.wakeupFd = some 0 ∧ s.wakeupOwner = some 0 ∧ (s.loops 0).fdOpen = true := by
  obtain ⟨s, hplay, hfd⟩ : ∃ s, system.play (env True False) 40 (registered 0 15 7)
      system.initial = some ⟨s, none, []⟩ ∧ s.wakeupFd = some 0 := ⟨_, rfl, rfl⟩
  have hreach := System.Reachable.initial.play hplay
  obtain hnone | ⟨l, hl, howner, hopen, -⟩ := wakeup_fd_safe hreach
  · rw [hfd] at hnone
    cases hnone
  · rw [hfd] at hl
    cases hl
    exact ⟨s, hreach, hfd, howner, hopen⟩

/-- The first loop owns the wakeup descriptor. The second fails to attach, and between its check of
the previous owner and the assignment another thread closes the first, whose cleanup runs. -/
def resurrected : List (Label sig) :=
  registered 0 15 7 ++ [.start (.addSignalHandler 1 10 8), .answer true] ++
    List.replicate 9 (.resume none) ++ [.resume (some .osError), .resume none] ++
    [.start (.finalize 0), .start (.retire 0), .start (.cleanup 0)] ++
    List.replicate 13 (.resume none)

/-- The descriptor that is installed then is that of a closed loop, and closed itself. -/
theorem not_wakeup_fd_safe : ¬ ∀ s, system.Reachable osErrors ⟨s, none, []⟩ →
    (∀ l, ¬ Closing s l) → s.wakeupFd = none ∨ ∃ l, s.wakeupFd = some l ∧
      s.wakeupOwner = some l ∧ (s.loops l).fdOpen = true ∧ (s.loops l).finalized = false := by
  obtain ⟨s, hplay, hfd, hopen, hclosing⟩ : ∃ s, system.play osErrors 40 resurrected
      system.initial = some ⟨s, none, []⟩ ∧ s.wakeupFd = some 0 ∧ (s.loops 0).fdOpen = false ∧
        ∀ l, (s.loops l).retiring = false ∧ (s.loops l).deferred = none := by
    refine ⟨_, rfl, rfl, rfl, fun l => ?_⟩
    match l with
    | 0 | 1 | l + 2 => exact ⟨rfl, rfl⟩
  intro h
  have hsettled (l : ℕ) : ¬ Closing s l := by simp [Closing, hclosing l]
  rcases h s (System.Reachable.initial.play hplay) hsettled with hnone | ⟨l, hl, -, hl', -⟩
  · rw [hfd] at hnone
    cases hnone
  · rw [hfd] at hl
    cases hl
    rw [hopen] at hl'
    cases hl'

end Zuvloop.Signals
