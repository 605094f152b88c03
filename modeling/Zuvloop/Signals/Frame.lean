import Zuvloop.Reentrant.Guarantee
import Zuvloop.Signals.Operations

/-!
# What belongs to other loops is left alone

Closing a loop, removing a handler from it and its deferred cleanup act on signals and on the wakeup
descriptor only where the loop is the owner. Between the check of the owner and the act, the owner
can have given up what it owned, but no other loop can have become the owner: what runs in between
only ever gives something up. So the check still holds when it matters.

## Main definitions

* `LeavesAlone`: a step leaves alone what belongs to other loops.
* `guarantee`: what every entry point guarantees at each of its steps.

## Main results

* `signal_frame`: every step of every run is in the guarantee of the entry point that makes it.
-/

namespace Zuvloop.Signals

open Reentrant

variable {strict atomic : Prop} {s s' : State} {l n : ℕ} {α β : Type}

/-! ## The guarantee -/

/-- A step leaves alone what belongs to other loops than `l`. -/
structure LeavesAlone (l : ℕ) (s s' : State) : Prop where
  /-- A signal of another loop keeps its owner and what it is set to. -/
  signal : ∀ n o, o ≠ l → s.owners n = some o →
    s'.owners n = some o ∧ s'.disposition n = s.disposition n
  /-- Another loop keeps its handlers. -/
  handlers : ∀ o, o ≠ l → (s'.loops o).handlers = (s.loops o).handlers
  /-- The wakeup descriptor stays installed as long as another loop owns it. -/
  wakeup : ∀ o, o ≠ l → s.wakeupOwner = some o →
    s'.wakeupOwner = some o ∧ s'.wakeupFd = s.wakeupFd

theorem LeavesAlone.refl (l : ℕ) (s : State) : LeavesAlone l s s :=
  ⟨fun _ _ _ h => ⟨h, rfl⟩, fun _ _ => rfl, fun _ _ h => ⟨h, rfl⟩⟩

/-- What every entry point guarantees at each of its steps. -/
def guarantee : Op → State → State → Prop
  | .addSignalHandler .. | .runBegin _ => fun _ _ => True
  | .removeSignalHandler l _ | .runEnd l | .close l | .finalize l | .retire l | .cleanup l =>
    LeavesAlone l

/-- The program leaves alone what belongs to other loops, while a function is in progress. -/
def Discreet (strict atomic : Prop) (l : ℕ) (p : P α) : Prop :=
  ∀ s, 0 < s.depth → p.guaranteed (env strict atomic) (spec strict atomic) (LeavesAlone l)
    (fun _ => True) (fun _ s' => 0 < s'.depth) s

/-! ## Rules -/

/-- Only the loop itself owns the signal, if any loop does. -/
def Mine (l n : ℕ) (s : State) : Prop := ∀ o, s.owners n = some o → o = l

/-- Only the loop itself owns the wakeup descriptor, if any loop does. -/
def MineFd (l : ℕ) (s : State) : Prop := ∀ o, s.wakeupOwner = some o → o = l

theorem Mine.of_eq (h : s.owners n = some l) : Mine l n s := fun o ho => by
  rw [h] at ho
  exact (Option.some.inj ho).symm

theorem MineFd.of_eq (h : s.wakeupOwner = some l) : MineFd l s := fun o ho => by
  rw [h] at ho
  exact (Option.some.inj ho).symm

/-- No other loop becomes the owner in between. -/
theorem Mine.next (h : Mine l n s) (hi : Interferes strict atomic s s') : Mine l n s' :=
  fun o ho => h o ((hi.signal n).owner ho)

theorem MineFd.next (h : MineFd l s) (hi : Interferes strict atomic s s') : MineFd l s' :=
  fun o ho => h o (hi.wakeup.owner ho)

/-- The loop gives up a signal. -/
theorem Mine.leavesAlone (h : Mine l n s) (hloops : s'.loops = s.loops)
    (howner : s'.wakeupOwner = s.wakeupOwner) (hfd : s'.wakeupFd = s.wakeupFd)
    (hsame : ∀ m, m ≠ n → s'.owners m = s.owners m ∧ s'.disposition m = s.disposition m) :
    LeavesAlone l s s' := by
  refine ⟨fun m o ho hm => ?_, fun o _ => by rw [hloops], fun o _ hw => ?_⟩
  · have hne : m ≠ n := by
      rintro rfl
      exact ho (h o hm)
    exact ⟨(hsame m hne).1.trans hm, (hsame m hne).2⟩
  · exact ⟨howner.trans hw, hfd⟩

/-- The loop gives up the wakeup descriptor. -/
theorem MineFd.leavesAlone (h : MineFd l s) (hloops : s'.loops = s.loops)
    (howners : s'.owners = s.owners) (hdisp : s'.disposition = s.disposition) :
    LeavesAlone l s s' := by
  refine ⟨fun m o _ hm => ?_, fun o _ => by rw [hloops], fun o ho hw => absurd (h o hw) ho⟩
  rw [howners, hdisp]
  exact ⟨hm, rfl⟩

/-- A change of the loop itself. -/
theorem leavesAlone_setLoop (s : State) (l : ℕ) (f : Loop → Loop) :
    LeavesAlone l s (s.setLoop l f) :=
  ⟨fun _ _ _ h => ⟨h, rfl⟩, fun o ho => by rw [s.loops_setLoop_ne ho], fun _ _ h => ⟨h, rfl⟩⟩

theorem guaranteed_foreign {c : Callback} {Q : Outcome → State → Prop} (hd : 0 < s.depth)
    (hQ : ∀ r s', 0 < s'.depth → Interferes strict atomic s s' → Q r s') :
    (Prog.foreign (S := sig) c).guaranteed (env strict atomic) (spec strict atomic) (LeavesAlone l)
      (fun _ => True) Q s :=
  ⟨fun hquiet => absurd hquiet (not_quiet strict atomic c), fun _ r s' hrely _ _ =>
    hQ r s' (hrely.depth.symm ▸ hd) (hrely.interferes hd)⟩

theorem guaranteed_step {Q : Unit → State → Prop} (hd : 0 < s.depth)
    (hQ : ∀ s', 0 < s'.depth → Interferes strict atomic s s' → Q () s') :
    step.guaranteed (env strict atomic) (spec strict atomic) (LeavesAlone l) (fun _ => True) Q s :=
  (Prog.guaranteed_map _ _ _ _).mpr (guaranteed_foreign hd fun _ s' hd' hi => hQ s' hd' hi)

namespace Discreet

theorem pure (a : α) : Discreet strict atomic l (Pure.pure a : P α) := fun _ hd => hd

theorem bind {p : P α} {f : α → P β} (hp : Discreet strict atomic l p)
    (hf : ∀ a, Discreet strict atomic l (f a)) : Discreet strict atomic l (p >>= f) :=
  fun s hd => (Prog.guaranteed_bind _ _ _ _).mpr
    (Prog.guaranteed_mono (hp s hd) fun a s' hd' => hf a s' hd')

theorem map {p : P α} (hp : Discreet strict atomic l p) (f : α → β) :
    Discreet strict atomic l (f <$> p) :=
  fun s hd => (Prog.guaranteed_map _ _ _ _).mpr (hp s hd)

theorem ite {c : Prop} [Decidable c] {p q : P α} (hp : Discreet strict atomic l p)
    (hq : Discreet strict atomic l q) : Discreet strict atomic l (if c then p else q) := by
  split
  · exact hp
  · exact hq

theorem step : Discreet strict atomic l Signals.step :=
  fun _ hd => guaranteed_step hd fun _ hd' _ => hd'

/-- What a program does may depend on the state. -/
theorem read {f : State → P α} (hf : ∀ s, Discreet strict atomic l (f s)) :
    Discreet strict atomic l (getState >>= f) := fun s hd => hf s s hd

theorem validSignal (n : ℕ) : Discreet strict atomic l (Signals.validSignal n) :=
  fun _ hd _ _ => hd

theorem setLoop (f : Loop → Loop) : Discreet strict atomic l (Signals.setLoop l f) :=
  fun s hd => ⟨leavesAlone_setLoop s l f, hd⟩

end Discreet

/-- A signal that no other loop owns is reset. -/
theorem guaranteed_setSignal {hd : Handler} {Q : Except Exc Unit → State → Prop}
    (hdepth : 0 < s.depth) (hmine : Mine l n s)
    (hQ : ∀ r s', 0 < s'.depth → Mine l n s' → Q r s') :
    (setSignal n hd).guaranteed (env strict atomic) (spec strict atomic) (LeavesAlone l)
      (fun _ => True) Q s := by
  rw [setSignal, Prog.guaranteed_bind]
  refine guaranteed_foreign hdepth fun r s₁ hd₁ hi => ?_
  have hmine₁ := hmine.next hi
  cases r with
  | some exc => exact hQ _ s₁ hd₁ hmine₁
  | none =>
    refine ⟨hmine₁.leavesAlone rfl rfl rfl fun m hm => ⟨rfl, ?_⟩, hQ _ _ hd₁ hmine₁⟩
    exact State.disposition_setDisposition_ne s₁ hm hd

/-- A wakeup descriptor that no other loop owns is taken out. -/
theorem guaranteed_setWakeupFd {fd : Option ℕ} {rollback : Bool}
    {Q : Except Exc (Option ℕ) → State → Prop} (hdepth : 0 < s.depth) (hmine : MineFd l s)
    (hQ : ∀ r s', 0 < s'.depth → MineFd l s' → Q r s') :
    (setWakeupFd fd rollback).guaranteed (env strict atomic) (spec strict atomic) (LeavesAlone l)
      (fun _ => True) Q s := by
  rw [setWakeupFd, Prog.guaranteed_bind]
  refine guaranteed_foreign hdepth fun r s₁ hd₁ hi => ?_
  have hmine₁ := hmine.next hi
  cases r with
  | some exc => exact hQ _ s₁ hd₁ hmine₁
  | none => exact ⟨hmine₁.leavesAlone rfl rfl rfl, hQ _ _ hd₁ hmine₁⟩

/-! ## The functions -/

namespace Discreet

theorem releaseWakeupFd : Discreet strict atomic l (Signals.releaseWakeupFd l) := by
  intro s hd
  simp only [Signals.releaseWakeupFd, Prog.guaranteed_bind]
  change (if s.wakeupOwner = some l then _ else _ : P _).guaranteed _ _ _ _ _ _
  rw [Prog.guaranteed_ite]
  split
  · rename_i howner
    simp only [Prog.guaranteed_bind]
    refine guaranteed_step hd fun s₁ hd₁ h₁ => ?_
    have hmine : MineFd l s₁ := MineFd.next (.of_eq howner) h₁
    refine guaranteed_setWakeupFd hd₁ hmine fun r s₂ hd₂ hmine₂ => ?_
    cases r with
    | error exc => exact hd₂
    | ok fd =>
      simp only [Prog.guaranteed_bind]
      refine guaranteed_step hd₂ fun s₃ hd₃ h₃ => ?_
      exact ⟨(hmine₂.next h₃).leavesAlone rfl rfl rfl, hd₃⟩
  · exact hd

theorem detachWakeupFd : Discreet strict atomic l (Signals.detachWakeupFd l) := by
  refine read fun s => ite (bind step fun _ => bind releaseWakeupFd fun r => ?_) (pure _)
  cases r with
  | error exc => exact pure _
  | ok => exact bind step fun _ => bind (setLoop _) fun _ => pure _

theorem resetSignal (n : ℕ) : Discreet strict atomic l (Signals.resetSignal l n) := by
  intro s hd
  simp only [Signals.resetSignal, Prog.guaranteed_bind]
  change (if s.owners n = some l then _ else _ : P _).guaranteed _ _ _ _ _ _
  rw [Prog.guaranteed_ite]
  split
  · rename_i howner
    rw [Prog.guaranteed_bind]
    refine guaranteed_step hd fun s₁ hd₁ h₁ => ?_
    exact guaranteed_setSignal hd₁ (Mine.next (.of_eq howner) h₁) fun _ _ hd₂ _ => hd₂
  · exact hd

theorem disown (n : ℕ) : Discreet strict atomic l (Signals.disown l n) := by
  intro s hd
  simp only [Signals.disown, Prog.guaranteed_bind]
  change (if s.owners n = some l then _ else _ : P _).guaranteed _ _ _ _ _ _
  rw [Prog.guaranteed_ite]
  split
  · rename_i howner
    rw [Prog.guaranteed_bind]
    refine guaranteed_step hd fun s₁ hd₁ h₁ => ⟨?_, hd₁⟩
    have hmine : Mine l n s₁ := Mine.next (.of_eq howner) h₁
    exact hmine.leavesAlone rfl rfl rfl fun m hm => ⟨s₁.owners_setOwner_ne hm none, rfl⟩
  · exact hd

theorem unregister (n e : ℕ) : Discreet strict atomic l (Signals.unregister l n e) :=
  read fun _ => ite (bind (setLoop _) fun _ => bind step fun _ => disown n) (pure _)

theorem removeSignalHandler (n : ℕ) :
    Discreet strict atomic l (Signals.removeSignalHandler l n) := by
  refine bind (validSignal n) fun _ => ite (pure _) (read fun s => ?_)
  cases (s.loops l).handlers.entry n with
  | none => exact pure _
  | some e =>
    refine bind step fun _ => bind (resetSignal n) fun r => ?_
    cases r with
    | error exc => exact pure _
    | ok =>
      refine bind step fun _ => bind (unregister n e) fun _ => bind step fun _ =>
        bind detachWakeupFd fun r => ?_
      cases r <;> exact pure _

theorem removeAll (signals : List ℕ) : Discreet strict atomic l (Signals.removeAll l signals) := by
  induction signals with
  | nil => exact pure _
  | cons n rest ih =>
    refine bind (removeSignalHandler n) fun r => ?_
    cases r with
    | error exc => exact pure _
    | ok => exact bind step fun _ => ih

theorem resetOwned (n : ℕ) : Discreet strict atomic l (Signals.resetOwned l n) := by
  intro s hd
  simp only [Signals.resetOwned, Prog.guaranteed_bind]
  change (if s.owners n = some l then _ else _ : P _).guaranteed _ _ _ _ _ _
  rw [Prog.guaranteed_ite]
  split
  · rename_i howner
    simp only [Prog.guaranteed_bind]
    refine guaranteed_step hd fun s₁ hd₁ h₁ => ?_
    refine guaranteed_setSignal hd₁ (Mine.next (.of_eq howner) h₁) fun r s₂ hd₂ _ => ?_
    cases r with
    | error exc => exact hd₂
    | ok => exact bind step (fun _ => bind (disown n) fun _ => pure none) s₂ hd₂
  · exact hd

theorem resetSignals (signals : List ℕ) (failure : Option Exc) :
    Discreet strict atomic l (Signals.resetSignals l signals failure) := by
  induction signals generalizing failure with
  | nil => exact pure _
  | cons n rest ih => exact bind (resetOwned n) fun _ => bind step fun _ => ih _

theorem finishDeferredSignalCleanup (signals : List ℕ) :
    Discreet strict atomic l (Signals.finishDeferredSignalCleanup l signals) := by
  refine bind (setLoop _) fun _ => bind step fun _ => bind releaseWakeupFd fun r => ?_
  cases r with
  | error exc => exact pure _
  | ok =>
    refine bind step fun _ => bind (resetSignals signals none) fun failure =>
      bind (setLoop _) fun _ => ?_
    cases failure <;> exact pure _

theorem closeSignals : Discreet strict atomic l (Signals.closeSignals l) :=
  read fun _ => ite
    (bind step fun _ => read fun _ => bind (setLoop _) fun _ => bind step fun _ =>
      bind (setLoop _) fun _ => bind step fun _ => finishDeferredSignalCleanup _)
    (bind step fun _ => bind (setLoop _) fun _ => pure _)

theorem close : Discreet strict atomic l (Signals.close l) := by
  refine read fun s => ite (pure _) (ite (pure _) ?_)
  refine bind (setLoop _) fun _ => bind step fun _ => bind (setLoop _) fun _ => bind step fun _ =>
    read fun s => bind (removeAll _) fun removed => bind step fun _ => bind closeSignals fun r => ?_
  cases r <;> exact pure _

theorem runEnd : Discreet strict atomic l (Signals.runEnd l) :=
  bind (setLoop _) fun _ => bind step fun _ => detachWakeupFd

theorem cleanup : Discreet strict atomic l (Signals.cleanup l) := by
  refine read fun s => ?_
  cases (s.loops l).deferred with
  | none => exact pure _
  | some signals =>
    exact bind (setLoop _) fun _ => bind (finishDeferredSignalCleanup signals) fun _ => pure _

end Discreet

/-! ## Every run -/

/-- What is discreet while the function runs is so from beginning to end. -/
theorem Discreet.entry {op : Op} (h : Discreet strict atomic l (run op)) :
    (entry op).guaranteed (env strict atomic) (spec strict atomic) (LeavesAlone l) (fun _ => True)
      (fun _ _ => True) s := by
  have hsame (s s' : State) (howners : s'.owners = s.owners)
      (hdisp : s'.disposition = s.disposition) (hloops : s'.loops = s.loops)
      (howner : s'.wakeupOwner = s.wakeupOwner)
      (hfd : s'.wakeupFd = s.wakeupFd) : LeavesAlone l s s' :=
    ⟨fun _ _ _ h => ⟨by rw [howners, h], by rw [hdisp]⟩, fun _ _ => by rw [hloops],
      fun _ _ h => ⟨howner.trans h, hfd⟩⟩
  simp only [Signals.entry, Prog.guaranteed_bind]
  refine (Prog.guaranteed_modify _ _ _).mpr ⟨hsame _ _ rfl rfl rfl rfl rfl, ?_⟩
  refine Prog.guaranteed_mono (h _ (Nat.succ_pos _)) fun _ s' _ => ?_
  exact (Prog.guaranteed_modify _ _ _).mpr ⟨hsame _ _ rfl rfl rfl rfl rfl, trivial⟩

/-- Another thread that comes to the cleanup changes only the loop it closes. -/
theorem leavesAlone_retire (s : State) (l : ℕ) : LeavesAlone l s (s.retire l) := by
  rw [State.retire]
  split <;> exact leavesAlone_setLoop s l _

/-- Every entry point keeps its guarantee. -/
theorem guarantees (strict atomic : Prop) :
    Guarantees system (env strict atomic) (spec strict atomic) guarantee fun _ _ => True where
  body _ f := nomatch f
  entry _ s op _ _ _ := by
    cases op with
    | addSignalHandler l n e =>
      exact Prog.guaranteed_of_forall (fun _ _ => trivial) (fun _ => trivial) fun _ _ => trivial
    | runBegin l =>
      exact Prog.guaranteed_of_forall (fun _ _ => trivial) (fun _ => trivial) fun _ _ => trivial
    | removeSignalHandler l n => exact Discreet.entry ((Discreet.removeSignalHandler n).map _)
    | runEnd l => exact Discreet.entry (Discreet.runEnd.map _)
    | close l => exact Discreet.entry (Discreet.close.map _)
    | finalize l => exact Discreet.entry (Discreet.setLoop _)
    | retire l =>
      refine Discreet.entry fun s hd => (Prog.guaranteed_modify _ _ _).mpr ⟨?_, ?_⟩
      · exact leavesAlone_retire s l
      · exact lt_of_lt_of_eq hd (s.depth_retire l).symm
    | cleanup l => exact Discreet.entry Discreet.cleanup

/-- The entry points that close a loop, or remove a handler from it. -/
def Op.closes (l : ℕ) : Op → Prop
  | .removeSignalHandler o _ | .runEnd o | .close o | .finalize o | .retire o | .cleanup o => o = l
  | .addSignalHandler .. | .runBegin _ => False

/-- Whatever runs in between, no step of closing a loop, of removing a handler from it and of its
cleanup changes a signal that another loop owns, removes such a loop's handlers, or changes the
wakeup descriptor while another loop owns it. -/
theorem signal_frame {op : Op} {ops : List Op} {c c' : Config sig}
    (h : system.Acting (env False False) (op :: ops) c) (hop : op.closes l)
    (hstep : system.step .tau c = some c') : LeavesAlone l c.state c'.state := by
  have hrefl (s : State) : guarantee op s s := by
    cases op with
    | addSignalHandler | runBegin => trivial
    | _ => exact LeavesAlone.refl _ s
  have hguar := (guarantees False False).step (verified False False) hrefl h hstep
  cases op with
  | addSignalHandler | runBegin => exact hop.elim
  | _ =>
    obtain rfl := hop
    exact hguar

/-- The second loop has taken over the signal of the first, which is being closed. In the step at
hand `remove_signal_handler` deletes the entry of the first. -/
theorem signal_frame_taken_over : ∃ ops c c', system.Acting (env False False) (.close 0 :: ops) c ∧
    system.step .tau c = some c' ∧ (c.state.loops 0).handlers = [(15, 7)] ∧
    (c'.state.loops 0).handlers = [] ∧ (c'.state.loops 1).handlers = [(15, 8)] ∧
    c'.state.owners 15 = some 1 ∧ c'.state.disposition 15 = .noop ∧
    c'.state.wakeupFd = some 1 := by
  obtain ⟨ops₀, c₀, hplay, ops, c, c', hadvance, hstep, hbefore, hafter, hhandlers, howner, hdisp,
      hwakeup, hfd⟩ : ∃ ops₀ c₀, system.playActing (env False False) 40
        (registered 0 15 7 ++ registered 1 15 8 ++ [.start (.close 0), .resume none, .resume none,
          .answer true, .resume none, .resume none]) ([], system.initial) = some (ops₀, c₀) ∧
      ∃ ops c c', system.advanceActing 2 (ops₀, c₀) = (Op.close 0 :: ops, c) ∧
        system.step .tau c = some c' ∧ (c.state.loops 0).handlers = [(15, 7)] ∧
        (c'.state.loops 0).handlers = [] ∧ (c.state.loops 1).handlers = [(15, 8)] ∧
        c.state.owners 15 = some 1 ∧ c.state.disposition 15 = .noop ∧
        c.state.wakeupOwner = some 1 ∧ c.state.wakeupFd = some 1 :=
    ⟨_, _, rfl, _, _, _, rfl, rfl, rfl, rfl, rfl, rfl, rfl, rfl, rfl⟩
  have hacting := (System.Acting.initial.play hplay).advance 2
  rw [hadvance] at hacting
  have hleft := signal_frame hacting rfl hstep
  obtain ⟨howner', hdisp'⟩ := hleft.signal 15 1 (by decide) howner
  exact ⟨ops, c, c', hacting, hstep, hbefore, hafter,
    (hleft.handlers 1 (by decide)).trans hhandlers, howner', hdisp'.trans hdisp,
    (hleft.wakeup 1 (by decide) hwakeup).2.trans hfd⟩

end Zuvloop.Signals
