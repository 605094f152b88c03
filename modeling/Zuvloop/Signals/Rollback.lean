import Zuvloop.Signals.Operations

/-!
# A failed registration leaves nothing behind

`add_signal_handler` publishes what it is about to do before it calls into the operating system, and
takes it back when a call fails. Meanwhile loops may be closed and cleaned up. What is put back is
what was there before, unless its owner has been closed: `Replaceable` says so of the wakeup
descriptor, and `Registrable` of the signal, for as long as the attempt holds them itself.

The rollback covers `OSError` only, so that a `ValueError` leaves everything as the attempt has
left it.

## Main definitions

* `Restored`: what holds after a failed attempt, compared with the state before.

## Main results

* `add_signal_handler_atomic`: a failed attempt leaves nothing behind, if calls raise nothing but
  `OSError` and none fails while the attempt is taken back.
* `not_add_signal_handler_atomic`: after a `ValueError` the handler stays registered.
-/

namespace Zuvloop.Signals

open Reentrant

variable {s₀ s s' : State} {l n : ℕ} {L : Loop}

/-! ## Handlers -/

namespace Handlers

variable (h : Handlers) (n e : ℕ)

theorem entry_cons (p : ℕ × ℕ) (m : ℕ) :
    entry (p :: h) m = if m = p.1 then some p.2 else h.entry m := by
  rw [entry, entry, List.lookup_cons]
  by_cases hm : m = p.1
  · simp [hm]
  · simp [hm, beq_false_of_ne hm]

theorem entry_append (h' : Handlers) (m : ℕ) : entry (h ++ h') m = (h.entry m).or (h'.entry m) := by
  rw [entry, List.lookup_append]
  rfl

theorem entry_map_self (hsome : (h.entry n).isSome = true) :
    entry (h.map fun p => if p.1 = n then (n, e) else p) n = some e := by
  induction h with
  | nil => cases hsome
  | cons p rest ih =>
    rw [List.map_cons, entry_cons]
    by_cases hp : p.1 = n
    · simp [hp]
    · rw [entry_cons, if_neg (Ne.symm hp)] at hsome
      rw [if_neg hp, if_neg (Ne.symm hp), ih hsome]

theorem entry_map_ne {m : ℕ} (hm : m ≠ n) :
    entry (h.map fun p => if p.1 = n then (n, e) else p) m = h.entry m := by
  induction h with
  | nil => rfl
  | cons p rest ih =>
    rw [List.map_cons, entry_cons, entry_cons, ih]
    by_cases hp : p.1 = n
    · subst hp
      simp [hm]
    · rw [if_neg hp]

theorem entry_insert_self : (h.insert n e).entry n = some e := by
  rw [insert]
  split
  · exact entry_map_self h n e ‹_›
  · rename_i hnone
    rw [Option.not_isSome_iff_eq_none] at hnone
    rw [entry_append, hnone, entry_cons]
    simp

theorem entry_insert_ne {m : ℕ} (hm : m ≠ n) : (h.insert n e).entry m = h.entry m := by
  rw [insert]
  split
  · exact entry_map_ne h n e hm
  · rw [entry_append, entry_cons, if_neg hm]
    exact Option.or_none

theorem erase_cons (p : ℕ × ℕ) :
    erase (p :: h) n = if p.1 = n then h.erase n else p :: h.erase n := by
  rw [erase, List.filter_cons]
  by_cases hp : p.1 = n
  · rw [if_pos hp, hp, bne_self_eq_false, if_neg Bool.false_ne_true]
    rfl
  · rw [if_neg hp, if_pos (bne_iff_ne.mpr hp)]
    rfl

theorem entry_erase_self : (h.erase n).entry n = none := by
  induction h with
  | nil => rfl
  | cons p rest ih =>
    rw [erase_cons]
    split
    · exact ih
    · rename_i hp
      rw [entry_cons, if_neg (Ne.symm hp), ih]

theorem entry_erase_ne {m : ℕ} (hm : m ≠ n) : (h.erase n).entry m = h.entry m := by
  induction h with
  | nil => rfl
  | cons p rest ih =>
    rw [erase_cons, entry_cons]
    split
    · rename_i hp
      rw [ih, if_neg (fun heq => hm (heq.trans hp))]
    · rw [entry_cons, ih]

/-- A signal is registered if it has an entry. -/
theorem mem_signals_iff (m : ℕ) : m ∈ h.signals ↔ (h.entry m).isSome = true := by
  induction h with
  | nil => simp [signals, entry]
  | cons p rest ih =>
    rw [entry_cons, signals, List.map_cons, List.mem_cons, ← signals, ih]
    split
    · simp [*]
    · simp [*]

end Handlers

/-- Taking an entry back leaves every entry as it was. -/
theorem entry_restoreEntry {h : Handlers} {n e : ℕ} (hL : L.handlers = h.insert n e) (m : ℕ) :
    (L.restoreEntry n (h.entry n)).handlers.entry m = h.entry m := by
  cases hentry : h.entry n with
  | none =>
    rw [Loop.restoreEntry, hL]
    by_cases hm : m = n
    · subst hm
      exact (Handlers.entry_erase_self _ m).trans hentry.symm
    · exact (Handlers.entry_erase_ne _ n hm).trans (Handlers.entry_insert_ne h n e hm)
  | some entry =>
    rw [Loop.restoreEntry, hL]
    by_cases hm : m = n
    · subst hm
      exact (Handlers.entry_insert_self _ m entry).trans hentry.symm
    · exact (Handlers.entry_insert_ne _ n entry hm).trans (Handlers.entry_insert_ne h n e hm)

/-! ## What is put back -/

/-- What holds after a failed attempt to register a signal for a loop, compared with the state
before. -/
structure Restored (s₀ : State) (l : ℕ) (s : State) : Prop where
  /-- The handlers of the loop are registered as before. -/
  entry : ∀ m, (s.loops l).handlers.entry m = (s₀.loops l).handlers.entry m
  /-- The loop is attached if it was before. -/
  attached : (s.loops l).attached = (s₀.loops l).attached
  /-- A signal is as it was, or its owner was closed and has no signal any more. -/
  signal : ∀ m, SignalLeft s₀ s m
  /-- The wakeup descriptor is as it was, or its owner was closed and it is out. -/
  wakeup : WakeupLeft s₀ s
  /-- An owner of a signal that is left in place has not been cleaned up. -/
  owes : ∀ m o, s.owners m = some o → Owes s₀ o m → Owes s o m
  /-- Nor has an owner of the wakeup descriptor. -/
  owned : ∀ o, s.wakeupOwner = some o → Backed s₀ o → Backed s o

/-- What other code leaves as it is, while an operation on a loop is in progress. -/
def Stays (l : ℕ) (W : State → Prop) : Prop :=
  ∀ s s', Interferes True True s s' → s'.loops l = s.loops l → W s → W s'

theorem Stays.and {W W' : State → Prop} (h : Stays l W) (h' : Stays l W') :
    Stays l fun s => W s ∧ W' s :=
  fun s s' hi hloop hw => ⟨h s s' hi hloop hw.1, h' s s' hi hloop hw.2⟩

theorem At.stays {W : State → Prop} (h : At True l L W s) (hW : Stays l W)
    (hn : Next True True s s') :
    At True l L W s' := h.after hn fun _ => hW s s' hn.interferes

/-- What the attempt leaves alone whatever it does: the other signals, and the other loops that have
not been cleaned up. -/
structure Elsewhere (s₀ : State) (l n : ℕ) (s : State) : Prop where
  /-- The other signals. -/
  signal : ∀ m, m ≠ n → SignalLeft s₀ s m
  /-- Another owner of them has still to reset them. -/
  owes : ∀ m, m ≠ n → ∀ o, o ≠ l → s.owners m = some o → Owes s₀ o m → Owes s o m
  /-- Another loop that is not closed. -/
  live : ∀ o, o ≠ l → (s.loops o).finalized = false → s.loops o = s₀.loops o
  /-- Another loop has still to give up the wakeup descriptor. -/
  kept : ∀ o, o ≠ l → Backed s₀ o → (s.loops o).fdOpen = true → Backed s o

theorem elsewhere_refl (s₀ : State) (l n : ℕ) : Elsewhere s₀ l n s₀ :=
  ⟨fun m _ => .refl s₀ m, fun _ _ _ _ _ h => h, fun _ _ _ => rfl, fun _ _ h _ => h⟩

variable (s₀ l n) in
theorem stays_elsewhere : Stays l (Elsewhere s₀ l n) := fun _ _ hi _ h =>
  ⟨fun m hm => (h.signal m hm).trans (hi.signal m) hi.finalized,
    fun m hm o ho howner hn => hi.owes trivial trivial m o howner
      (h.owes m hm o ho ((hi.signal m).owner howner) hn),
    fun o ho hf => (hi.live o hf).trans (h.live o ho (hi.live o hf ▸ hf)),
    fun o ho hb hopen => hi.kept trivial o (h.kept o ho hb (hi.fd o hopen)) hopen⟩

/-- Nothing but the state of the loop and of the signal has changed. -/
theorem Elsewhere.of_eq (h : Elsewhere s₀ l n s)
    (hloops : ∀ o, o ≠ l → s'.loops o = s.loops o)
    (hfin : ∀ o, (s'.loops o).finalized = (s.loops o).finalized)
    (howners : ∀ m, m ≠ n → s'.owners m = s.owners m)
    (hdisp : ∀ m, m ≠ n → s'.disposition m = s.disposition m) : Elsewhere s₀ l n s' := by
  refine ⟨fun m hm => ?_, fun m hm o ho howner hn => ?_, fun o ho hf => ?_, fun o ho hb hopen => ?_⟩
  · exact (h.signal m hm).trans (.inl ⟨howners m hm, hdisp m hm⟩) fun o ho => (hfin o).trans ho
  · rw [Owes, hloops o ho]
    exact h.owes m hm o ho ((howners m hm).symm.trans howner) hn
  · rw [hloops o ho]
    exact h.live o ho ((hfin o).symm.trans hf)
  · rw [Backed, hloops o ho]
    exact h.kept o ho hb (hloops o ho ▸ hopen)

/-! ## The signal -/

/-- The previous owner of a signal that the attempt has taken is that of before, as is what the
signal is set to; or the owner has been closed, and the signal is set to its default. -/
def Registrable (s₀ s : State) (n : ℕ) (previousOwner : Option ℕ) : Prop :=
  previousOwner = s₀.owners n ∧ s.disposition n = s₀.disposition n ∨
    s.disposition n = defaultHandler n ∧ ∃ o, s₀.owners n = some o ∧
      (s.loops o).finalized = true ∧ (previousOwner = some o ∨ previousOwner = none)

theorem Registrable.of_eq {previousOwner : Option ℕ} (h : Registrable s₀ s n previousOwner)
    (hfin : ∀ o, (s.loops o).finalized = true → (s'.loops o).finalized = true)
    (hdisp : s'.disposition n = s.disposition n) : Registrable s₀ s' n previousOwner := by
  rcases h with ⟨howner, hd⟩ | ⟨hd, o, ho, hf, hprevious⟩
  · exact .inl ⟨howner, hdisp.trans hd⟩
  · exact .inr ⟨hdisp.trans hd, o, ho, hfin o hf, hprevious⟩

/-- The attempt has read the owner of the signal. -/
structure SignalRead (s₀ : State) (n : ℕ) (previousOwner : Option ℕ) (s : State) : Prop where
  /-- The signal has been left alone so far. -/
  left : SignalLeft s₀ s n
  /-- What has been read can be put back. -/
  registrable : Registrable s₀ s n previousOwner

theorem SignalLeft.read (h : SignalLeft s₀ s n) : SignalRead s₀ n (s.owners n) s := by
  refine ⟨h, ?_⟩
  rcases h with ⟨howner, hd⟩ | ⟨howner, hd, o, ho, hf⟩
  · exact .inl ⟨howner, hd⟩
  · exact .inr ⟨hd, o, ho, hf, .inr howner⟩

variable (s₀ l n) in
theorem stays_signalRead (previousOwner : Option ℕ) : Stays l (SignalRead s₀ n previousOwner) := by
  intro s s' hi _ h
  refine ⟨h.left.trans (hi.signal n) hi.finalized, ?_⟩
  rcases hi.signal n with ⟨-, hd⟩ | ⟨-, hd, o, ho, hf⟩
  · exact h.registrable.of_eq hi.finalized hd
  · -- the owner that gives the signal up is that of before
    have hbefore : s₀.owners n = some o := h.left.owner ho
    refine .inr ⟨hd, o, hbefore, hf, ?_⟩
    rcases h.registrable with ⟨hprevious, -⟩ | ⟨-, o', ho', -, hprevious⟩
    · exact .inl (hprevious.trans hbefore)
    · rw [hbefore] at ho'
      cases ho'
      exact hprevious

/-- The attempt has made the loop the owner of the signal. -/
structure SignalTaken (s₀ : State) (l n : ℕ) (previousOwner : Option ℕ) (s : State) : Prop where
  /-- The owner. -/
  owner : s.owners n = some l
  /-- The owner is not closed. -/
  live : (s.loops l).finalized = false
  /-- What has been read can be put back. -/
  registrable : Registrable s₀ s n previousOwner

variable (s₀ l n) in
theorem stays_signalTaken (previousOwner : Option ℕ) :
    Stays l (SignalTaken s₀ l n previousOwner) := by
  intro s s' hi hloop h
  have hlive : (s'.loops l).finalized = false := hloop ▸ h.live
  rcases hi.signal n with ⟨ho, hd⟩ | ⟨-, -, o, ho, hf⟩
  · exact ⟨ho.trans h.owner, hlive, h.registrable.of_eq hi.finalized hd⟩
  · rw [h.owner] at ho
    cases ho
    rw [hlive] at hf
    cases hf

/-- The signal is put back as it was, or set to its default without an owner. -/
theorem Registrable.left {previousOwner : Option ℕ} (h : Registrable s₀ s n previousOwner)
    (hfin : s.finalizedOwner previousOwner = false) (howner : s'.owners n = previousOwner)
    (hdisp : s'.disposition n = s.disposition n)
    (hmono : ∀ o, (s.loops o).finalized = true → (s'.loops o).finalized = true) :
    SignalLeft s₀ s' n := by
  rcases h with ⟨hprevious, hd⟩ | ⟨hd, o, ho, hf, hprevious | hprevious⟩
  · exact .inl ⟨howner.trans hprevious, hdisp.trans hd⟩
  · -- a closed owner would have been noticed
    rw [hprevious, State.finalizedOwner, Option.any_some, hf] at hfin
    cases hfin
  · exact .inr ⟨howner.trans hprevious, hdisp.trans hd, o, ho, hmono o hf⟩

/-- A previous owner that has been closed is the owner of before. -/
theorem Registrable.owner {previousOwner : Option ℕ} (h : Registrable s₀ s n previousOwner)
    (hfin : s.finalizedOwner previousOwner = true) :
    ∃ o, s₀.owners n = some o ∧ (s.loops o).finalized = true := by
  rcases h with ⟨hprevious, -⟩ | ⟨-, o, ho, hf, -⟩
  · rw [State.finalizedOwner, Option.any_eq_true] at hfin
    obtain ⟨o, ho, hf⟩ := hfin
    exact ⟨o, hprevious.symm.trans ho, hf⟩
  · exact ⟨o, ho, hf⟩

/-- The loop is still the owner of the signal, and putting `previous` back leaves it as it was. -/
structure SignalHeld (s₀ : State) (l n : ℕ) (previous : Option ℕ) (s : State) : Prop where
  /-- The owner. -/
  owner : s.owners n = some l
  /-- The owner is not closed. -/
  live : (s.loops l).finalized = false
  /-- What is about to be put back. -/
  left : SignalLeft s₀ (s.setOwner n previous) n

variable (s₀ l n) in
theorem stays_signalHeld (previous : Option ℕ) : Stays l (SignalHeld s₀ l n previous) := by
  intro s s' hi hloop h
  have hlive : (s'.loops l).finalized = false := hloop ▸ h.live
  rcases hi.signal n with ⟨ho, hd⟩ | ⟨-, -, o, ho, hf⟩
  · have hsame : SignalLeft (s.setOwner n previous) (s'.setOwner n previous) n := by
      refine .inl ⟨?_, hd⟩
      rw [State.owners_setOwner_self, State.owners_setOwner_self]
    exact ⟨ho.trans h.owner, hlive, h.left.trans hsame hi.finalized⟩
  · rw [h.owner] at ho
    cases ho
    rw [hlive] at hf
    cases hf

/-- A previous owner that is not closed may have the signal back. -/
theorem SignalTaken.held {previousOwner : Option ℕ} (h : SignalTaken s₀ l n previousOwner s)
    (hfin : s.finalizedOwner previousOwner = false) : SignalHeld s₀ l n previousOwner s :=
  ⟨h.owner, h.live, h.registrable.left hfin (s.owners_setOwner_self n _) rfl fun _ => id⟩

/-- The previous owner has the signal again, but may have been closed before. -/
structure SignalReturned (s₀ : State) (n : ℕ) (previousOwner : Option ℕ) (s : State) : Prop where
  /-- It is as it was, or reset. -/
  left : SignalLeft s₀ s n
  /-- The owner. -/
  owner : ∀ o, s.owners n = some o → previousOwner = some o

variable (s₀ l n) in
theorem stays_signalReturned (previousOwner : Option ℕ) :
    Stays l (SignalReturned s₀ n previousOwner) := fun _ _ hi _ h =>
  ⟨h.left.trans (hi.signal n) hi.finalized, fun o ho => h.owner o ((hi.signal n).owner ho)⟩

/-- The signal has been put back. -/
structure SignalBack (s₀ : State) (l n : ℕ) (s : State) : Prop where
  /-- It is as it was, or reset. -/
  left : SignalLeft s₀ s n
  /-- Its owner has still to reset it. -/
  owes : ∀ o, o ≠ l → s.owners n = some o → Owes s₀ o n → Owes s o n

variable (s₀ l n) in
theorem stays_signalBack : Stays l (SignalBack s₀ l n) := fun _ _ hi _ h =>
  ⟨h.left.trans (hi.signal n) hi.finalized, fun o ho howner hn =>
    hi.owes trivial trivial n o howner (h.owes o ho ((hi.signal n).owner howner) hn)⟩

/-- Without an owner there is nothing to reset. -/
theorem SignalLeft.back_of_none (h : SignalLeft s₀ s n) (hnone : s.owners n = none) :
    SignalBack s₀ l n s :=
  ⟨h, fun o _ ho => by
    rw [hnone] at ho
    cases ho⟩

/-- The signal has no owner any more, and is about to be reset. -/
structure Orphaned (s₀ : State) (n : ℕ) (s : State) : Prop where
  /-- It has no owner. -/
  owner : s.owners n = none
  /-- The owner of before has been closed. -/
  before : ∃ o, s₀.owners n = some o ∧ (s.loops o).finalized = true

variable (s₀ l n) in
theorem stays_orphaned : Stays l (Orphaned s₀ n) := by
  intro s s' hi _ h
  refine ⟨?_, h.before.imp fun o ho => ⟨ho.1, hi.finalized o ho.2⟩⟩
  rcases hi.signal n with ⟨ho, -⟩ | ⟨ho, -⟩
  · exact ho.trans h.owner
  · exact ho

/-! ## The wakeup descriptor -/

/-- The previous owner and the previous wakeup descriptor are those of before; or the owner has been
closed, and the descriptor is out. -/
def Replaceable (s₀ s : State) (previousOwner previousFd : Option ℕ) : Prop :=
  previousOwner = s₀.wakeupOwner ∧ previousFd = s₀.wakeupFd ∨
    previousFd = none ∧ ∃ o, s₀.wakeupOwner = some o ∧
      (s.loops o).finalized = true ∧ (previousOwner = some o ∨ previousOwner = none)

theorem Replaceable.of_finalized {previousOwner previousFd : Option ℕ}
    (h : Replaceable s₀ s previousOwner previousFd)
    (hfin : ∀ o, (s.loops o).finalized = true → (s'.loops o).finalized = true) :
    Replaceable s₀ s' previousOwner previousFd :=
  h.imp_right fun ⟨hfd, o, ho, hf, hprevious⟩ => ⟨hfd, o, ho, hfin o hf, hprevious⟩

/-- The descriptor is put back as it was, or out without an owner. -/
theorem Replaceable.left {previousOwner previousFd : Option ℕ}
    (h : Replaceable s₀ s previousOwner previousFd)
    (hfin : s.finalizedOwner previousOwner = false) (howner : s'.wakeupOwner = previousOwner)
    (hfd : s'.wakeupFd = previousFd)
    (hmono : ∀ o, (s.loops o).finalized = true → (s'.loops o).finalized = true) :
    WakeupLeft s₀ s' := by
  rcases h with ⟨hprevious, hf⟩ | ⟨hnone, o, ho, hf, hprevious | hprevious⟩
  · exact .inl ⟨howner.trans hprevious, hfd.trans hf⟩
  · rw [hprevious, State.finalizedOwner, Option.any_some, hf] at hfin
    cases hfin
  · exact .inr ⟨howner.trans hprevious, hfd.trans hnone, o, ho, hmono o hf⟩

theorem Replaceable.owner {previousOwner previousFd : Option ℕ}
    (h : Replaceable s₀ s previousOwner previousFd)
    (hfin : s.finalizedOwner previousOwner = true) :
    ∃ o, s₀.wakeupOwner = some o ∧ (s.loops o).finalized = true := by
  rcases h with ⟨hprevious, -⟩ | ⟨-, o, ho, hf, -⟩
  · rw [State.finalizedOwner, Option.any_eq_true] at hfin
    obtain ⟨o, ho, hf⟩ := hfin
    exact ⟨o, hprevious.symm.trans ho, hf⟩
  · exact ⟨o, ho, hf⟩

/-- The attempt has read the owner of the wakeup descriptor. -/
structure WakeupRead (s₀ : State) (previousOwner : Option ℕ) (s : State) : Prop where
  /-- The descriptor has been left alone so far. -/
  left : WakeupLeft s₀ s
  /-- What has been read can be put back. -/
  replaceable : Replaceable s₀ s previousOwner s.wakeupFd

theorem WakeupLeft.read (h : WakeupLeft s₀ s) : WakeupRead s₀ s.wakeupOwner s := by
  refine ⟨h, ?_⟩
  rcases h with ⟨howner, hfd⟩ | ⟨howner, hfd, o, ho, hf⟩
  · exact .inl ⟨howner, hfd⟩
  · exact .inr ⟨hfd, o, ho, hf, .inr howner⟩

variable (s₀ l) in
theorem stays_wakeupLeft : Stays l (WakeupLeft s₀) :=
  fun _ _ hi _ h => h.trans hi.wakeup hi.finalized

variable (s₀ l) in
theorem stays_wakeupRead (previousOwner : Option ℕ) : Stays l (WakeupRead s₀ previousOwner) := by
  intro s s' hi _ h
  refine ⟨h.left.trans hi.wakeup hi.finalized, ?_⟩
  rcases hi.wakeup with ⟨-, hfd⟩ | ⟨-, hfd, o, ho, hf⟩
  · rw [hfd]
    exact h.replaceable.of_finalized hi.finalized
  · have hbefore : s₀.wakeupOwner = some o := h.left.owner ho
    refine .inr ⟨hfd, o, hbefore, hf, ?_⟩
    rcases h.replaceable with ⟨hprevious, -⟩ | ⟨-, o', ho', -, hprevious⟩
    · exact .inl (hprevious.trans hbefore)
    · rw [hbefore] at ho'
      cases ho'
      exact hprevious

/-- The attempt has made the loop the owner of the wakeup descriptor; `fd` says which one is
installed. -/
structure WakeupTaken (s₀ : State) (l : ℕ) (previousOwner : Option ℕ) (s : State) : Prop where
  /-- The owner. -/
  owner : s.wakeupOwner = some l
  /-- The owner is not closed. -/
  live : (s.loops l).finalized = false
  /-- What has been read can be put back. -/
  replaceable : Replaceable s₀ s previousOwner s.wakeupFd

variable (s₀ l) in
theorem stays_wakeupTaken (previousOwner : Option ℕ) :
    Stays l (WakeupTaken s₀ l previousOwner) := by
  intro s s' hi hloop h
  have hlive : (s'.loops l).finalized = false := hloop ▸ h.live
  obtain ⟨ho, hfd⟩ := hi.wakeup.of_live h.owner hlive
  refine ⟨ho, hlive, ?_⟩
  rw [hfd]
  exact h.replaceable.of_finalized hi.finalized

/-- The attempt has installed the descriptor of the loop. -/
structure WakeupHeld (s₀ : State) (l : ℕ) (previous : WakeupState) (s : State) : Prop where
  /-- The owner. -/
  owner : s.wakeupOwner = some l
  /-- The owner is not closed. -/
  live : (s.loops l).finalized = false
  /-- What has been read can be put back. -/
  replaceable : Replaceable s₀ s previous.owner previous.fd

variable (s₀ l) in
theorem stays_wakeupHeld (previous : WakeupState) : Stays l (WakeupHeld s₀ l previous) := by
  intro s s' hi hloop h
  have hlive : (s'.loops l).finalized = false := hloop ▸ h.live
  exact ⟨(hi.wakeup.of_live h.owner hlive).1, hlive, h.replaceable.of_finalized hi.finalized⟩

/-- The loop owns the wakeup descriptor, and a given one is installed. -/
structure Installed (l : ℕ) (fd : Option ℕ) (s : State) : Prop where
  /-- The owner. -/
  owner : s.wakeupOwner = some l
  /-- The owner is not closed. -/
  live : (s.loops l).finalized = false
  /-- The descriptor. -/
  fd : s.wakeupFd = fd

variable (l) in
theorem stays_installed (fd : Option ℕ) : Stays l (Installed l fd) := by
  intro s s' hi hloop h
  have hlive : (s'.loops l).finalized = false := hloop ▸ h.live
  obtain ⟨ho, hfd⟩ := hi.wakeup.of_live h.owner hlive
  exact ⟨ho, hlive, hfd.trans h.fd⟩

/-- What is put back a little later. -/
theorem WakeupLeft.of_eq (h : WakeupLeft s₀ s) (howner : s'.wakeupOwner = s.wakeupOwner)
    (hfd : s'.wakeupFd = s.wakeupFd)
    (hmono : ∀ o, (s.loops o).finalized = true → (s'.loops o).finalized = true) :
    WakeupLeft s₀ s' :=
  h.trans (.inl ⟨howner, hfd⟩) hmono

/-- Attaching a loop does not concern any token. -/
theorem finalized_setAttached (s : State) (l : ℕ) (a : Bool) (o : ℕ) :
    ((s.setLoop l fun L => { L with attached := a }).loops o).finalized =
      (s.loops o).finalized := by
  by_cases ho : o = l
  · rw [ho, State.loops_setLoop_self]
  · rw [State.loops_setLoop_ne _ ho]

theorem WakeupHeld.setAttached {previous : WakeupState} (h : WakeupHeld s₀ l previous s)
    (a : Bool) : WakeupHeld s₀ l previous (s.setLoop l fun L => { L with attached := a }) :=
  ⟨h.owner, (finalized_setAttached s l a l).trans h.live,
    h.replaceable.of_finalized fun o ho => (finalized_setAttached s l a o).trans ho⟩

/-- An owner of the wakeup descriptor other than the loop has not been cleaned up. -/
def Owned (s₀ : State) (l : ℕ) (s : State) : Prop :=
  ∀ o, o ≠ l → s.wakeupOwner = some o → Backed s₀ o → Backed s o

variable (s₀ l) in
theorem stays_owned : Stays l (Owned s₀ l) := fun _ _ hi _ h o ho howner hb =>
  hi.owned trivial o howner (h o ho (hi.wakeup.owner howner) hb)

/-- The previous owner has the wakeup descriptor again, but may have been closed before. -/
structure WakeupReturned (s₀ : State) (previousOwner : Option ℕ) (s : State) : Prop where
  /-- It is as it was, or out. -/
  left : WakeupLeft s₀ s
  /-- The owner. -/
  owner : ∀ o, s.wakeupOwner = some o → previousOwner = some o

variable (s₀ l) in
theorem stays_wakeupReturned (previousOwner : Option ℕ) :
    Stays l (WakeupReturned s₀ previousOwner) := fun s s' hi hloop h =>
  ⟨stays_wakeupLeft s₀ l s s' hi hloop h.left, fun o ho => h.owner o (hi.wakeup.owner ho)⟩

/-- The wakeup descriptor has been put back. -/
structure WakeupBack (s₀ : State) (l : ℕ) (s : State) : Prop where
  /-- It is as it was, or out. -/
  left : WakeupLeft s₀ s
  /-- Its owner has not been cleaned up. -/
  owned : Owned s₀ l s

variable (s₀ l) in
theorem stays_wakeupBack : Stays l (WakeupBack s₀ l) := fun s s' hi hloop h =>
  ⟨stays_wakeupLeft s₀ l s s' hi hloop h.left, stays_owned s₀ l s s' hi hloop h.owned⟩

theorem WakeupLeft.setAttached (h : WakeupLeft s₀ s) (a : Bool) :
    WakeupLeft s₀ (s.setLoop l fun L => { L with attached := a }) :=
  h.imp_right fun ⟨howner, hfd, o, ho, hf⟩ =>
    ⟨howner, hfd, o, ho, (finalized_setAttached s l a o).trans hf⟩

theorem WakeupBack.setAttached (h : WakeupBack s₀ l s) (a : Bool) :
    WakeupBack s₀ l (s.setLoop l fun L => { L with attached := a }) := by
  refine ⟨h.left.setAttached a, fun o ho howner hb => ?_⟩
  rw [Backed, State.loops_setLoop_ne _ ho]
  exact h.owned o ho howner hb

/-- Without an owner there is nothing to clean up. -/
theorem WakeupBack.of_none (howner : s.wakeupOwner = none) (hfd : s.wakeupFd = none)
    (hbefore : ∃ o, s₀.wakeupOwner = some o ∧ (s.loops o).finalized = true) :
    WakeupBack s₀ l s :=
  ⟨.inr ⟨howner, hfd, hbefore⟩, fun _ _ ho => by
    rw [howner] at ho
    cases ho⟩

/-! ## The functions -/

/-- What has nothing to do with the wakeup descriptor, nor with whether the loop is attached. -/
structure Apart (s₀ : State) (l : ℕ) (V : State → Prop) : Prop where
  /-- Other code leaves it as it is. -/
  stays : Stays l V
  /-- The wakeup descriptor may change. -/
  wakeup : ∀ s owner fd, V s → V { s with wakeupOwner := owner, wakeupFd := fd }
  /-- The loop may be attached or detached. -/
  attach : ∀ s a, V s → V (s.setLoop l fun L => { L with attached := a })
  /-- Another loop that has not been cleaned up has still to give up the wakeup descriptor. -/
  kept : ∀ s o, V s → o ≠ l → Backed s₀ o → (s.loops o).fdOpen = true → Backed s o

section Wakeup

variable {V : State → Prop} (hV : Apart s₀ l V)

include hV

/-- Attaching or detaching the loop leaves the descriptor to its owner. -/
theorem Apart.setAttached {W W' : State → Prop} (h : At True l L (fun s => V s ∧ W s) s) (a : Bool)
    (hW : W s → W' (s.setLoop l fun L => { L with attached := a })) :
    At True l { L with attached := a } (fun s => V s ∧ W' s)
      (s.setLoop l fun L => { L with attached := a }) :=
  h.kept (f := fun L => { L with attached := a }) ⟨rfl, rfl, rfl, rfl, rfl, rfl⟩
    fun hw => ⟨hV.attach s a hw.1, hW hw.2⟩

/-- The wakeup descriptor is out for good, since its owner was closed. -/
theorem Apart.out {Q : Unit → State → Prop}
    (h : At True l L (fun s => V s ∧ s.wakeupFd = none ∧
      ∃ o, s₀.wakeupOwner = some o ∧ (s.loops o).finalized = true) s)
    (hQ : ∀ s', At True l L (fun s => V s ∧ WakeupBack s₀ l s) s' → Q () s') :
    step.wp (env True True) (spec True True) (fun _ s₁ =>
      (setWakeupOwner none).wp (env True True) (spec True True) Q s₁) s := by
  refine wp_step h.active fun s₁ h₁ => ?_
  rw [wp_setWakeupOwner]
  have hat : At True l L (fun s => V s ∧ s.wakeupFd = none ∧
      ∃ o, s₀.wakeupOwner = some o ∧ (s.loops o).finalized = true) s₁ :=
    h.after h₁ fun _ hloop ⟨hv, hfd, o, ho, hf⟩ => ⟨hV.stays s s₁ h₁.interferes hloop hv,
      stable_out (p := True) (l := l) s s₁ h₁.interferes.toAround hloop (fun _ => hfd) trivial,
      o, ho, h₁.interferes.finalized o hf⟩
  refine hQ _ (hat.of_eq rfl rfl rfl fun _ ⟨hv, hfd, hbefore⟩ => ⟨?_, .of_none rfl hfd hbefore⟩)
  exact hV.wakeup s₁ none s₁.wakeupFd hv

/-- A failed attempt to attach leaves the wakeup descriptor to its previous owner. -/
theorem Apart.wp_attachFailed {previousOwner : Option ℕ} {Q : Exc → State → Prop}
    (h : At True l L (fun s => V s ∧ WakeupTaken s₀ l previousOwner s) s)
    (hQ : ∀ s', At True l L (fun s => V s ∧ WakeupBack s₀ l s) s' → Q .osError s') :
    (attachFailed previousOwner).wp (env True True) (spec True True) Q s := by
  obtain ⟨-, htaken⟩ := h.wakeup trivial
  simp only [attachFailed, Prog.wp_bind, wp_getState, Prog.wp_ite]
  split
  · -- the previous owner has been closed
    rename_i hfin
    have hbefore := htaken.replaceable.owner hfin
    refine wp_setWakeupFd h.active (fun s₁ h₁ => ?_) fun exc s₁ _ hfail _ =>
      absurd rfl (hfail trivial).1
    have hat := h.stays (hV.stays.and (stays_wakeupTaken s₀ l _)) h₁
    simp only [Prog.wp_bind]
    refine hV.out (hat.of_eq rfl rfl rfl fun _ hw => ⟨hV.wakeup s₁ _ none hw.1, rfl, ?_⟩) hQ
    exact hbefore.imp fun o ho => ⟨ho.1, h₁.interferes.finalized o ho.2⟩
  · rename_i hfin
    rw [Bool.not_eq_true] at hfin
    refine wp_foreign h.active fun r s₁ h₁ hr => ?_
    have hat := h.stays (hV.stays.and (stays_wakeupTaken s₀ l _)) h₁
    refine hQ _ (hat.of_eq rfl rfl rfl fun _ hw => ?_)
    obtain ⟨hv, htaken₁⟩ := hw
    -- in between, nobody but the loop has owned the descriptor
    have hfd := (h₁.interferes.wakeup.of_live htaken.owner htaken₁.live).2
    refine ⟨hV.wakeup s₁ _ s₁.wakeupFd hv, ?_, fun o ho howner hb => ?_⟩
    · exact htaken.replaceable.left hfin rfl hfd h₁.interferes.finalized
    · exact hV.kept s₁ o hv ho hb (hr trivial o howner)

/-- Attaching the loop installs its descriptor, or leaves the wakeup descriptor to its previous
owner. -/
theorem Apart.wp_attachWakeupFd {Q : Except Exc (Option WakeupState) → State → Prop}
    (h : At True l L (fun s => V s ∧ WakeupLeft s₀ s) s) (hlive : L.finalized = false)
    (hne : L.handlers ≠ [])
    (hok : ∀ previous s', previous.wasAttached = L.attached →
      At True l { L with attached := true } (fun s => V s ∧ WakeupHeld s₀ l previous s) s' →
      Q (.ok (some previous)) s')
    (herr : ∀ s', At True l L (fun s => V s ∧ WakeupBack s₀ l s) s' → Q (.error .osError) s') :
    (attachWakeupFd l).wp (env True True) (spec True True) Q s := by
  simp only [attachWakeupFd, Prog.wp_bind, wp_getState, Prog.wp_ite, h.loop]
  rw [if_neg hne]
  refine wp_step h.active fun s₁ h₁ => ?_
  have hat₁ := h.stays (hV.stays.and (stays_wakeupLeft s₀ l)) h₁
  generalize hprevious : s₁.wakeupOwner = previousOwner
  have hread : At True l L (fun s => V s ∧ WakeupRead s₀ previousOwner s) s₁ :=
    hat₁.mono fun hw => ⟨hw.1, hprevious ▸ hw.2.read⟩
  have hstays := hV.stays.and (stays_wakeupRead s₀ l previousOwner)
  refine wp_step hread.active fun s₂ h₂ => ?_
  have hat₂ := hread.stays hstays h₂
  rw [hat₂.loop]
  refine wp_step hat₂.active fun s₃ h₃ => ?_
  have hat₃ := hat₂.stays hstays h₃
  rw [wp_setWakeupOwner]
  have htaken : At True l L (fun s => V s ∧ WakeupTaken s₀ l previousOwner s)
      { s₃ with wakeupOwner := some l } :=
    hat₃.of_eq rfl rfl rfl fun _ hw => ⟨hV.wakeup s₃ _ s₃.wakeupFd hw.1, rfl, by
      rw [hat₃.loop, hlive], hw.2.replaceable⟩
  have hstays' := hV.stays.and (stays_wakeupTaken s₀ l previousOwner)
  refine wp_step htaken.active fun s₄ h₄ => ?_
  have hat₄ := htaken.stays hstays' h₄
  refine wp_setWakeupFd hat₄.active (fun s₅ h₅ => ?_) fun exc s₅ h₅ hfail _ => ?_
  · have hat₅ := hat₄.stays hstays' h₅
    simp only [Prog.wp_bind]
    generalize hstate : WakeupState.mk s₅.wakeupFd previousOwner L.attached = previous
    have hheld : At True l L (fun s => V s ∧ WakeupHeld s₀ l previous s)
        { s₅ with wakeupFd := some l } :=
      hat₅.of_eq rfl rfl rfl fun _ hw => ⟨hV.wakeup s₅ s₅.wakeupOwner _ hw.1, hw.2.owner, hw.2.live,
        hstate ▸ hw.2.replaceable⟩
    have hstays'' := hV.stays.and (stays_wakeupHeld s₀ l previous)
    refine wp_step hheld.active fun s₆ h₆ => ?_
    have hat₆ := hV.setAttached (hheld.stays hstays'' h₆) true fun hw => hw.setAttached true
    refine wp_step hat₆.active fun s₇ h₇ => ?_
    exact hok previous s₇ (hstate ▸ rfl) (hat₆.stays hstays'' h₇)
  · obtain rfl := (hfail trivial).2
    simp only [Prog.wp_bind]
    refine wp_step (hat₄.stays hstays' h₅).active fun s₆ h₆ => ?_
    exact hV.wp_attachFailed ((hat₄.stays hstays' h₅).stays hstays' h₆) fun s' hat => herr s' hat

/-- The end of `_restore_wakeup_fd` does not leave the descriptor to an owner that was closed. -/
theorem Apart.wp_revalidate {previous : WakeupState} {Q : Except Exc Unit → State → Prop}
    (h : At True l L (fun s => V s ∧ WakeupReturned s₀ previous.owner s) s)
    (hattached : L.attached = previous.wasAttached)
    (hQ : ∀ s', At True l L (fun s => V s ∧ WakeupBack s₀ l s) s' → Q (.ok ()) s') :
    (revalidate l previous).wp (env True True) (spec True True) Q s := by
  have hstays := hV.stays.and (stays_wakeupReturned s₀ l previous.owner)
  simp only [revalidate, Prog.wp_bind, wp_getState, Prog.wp_ite]
  refine wp_foreign h.active fun r s₁ h₁ hr => ?_
  have hat₁ := h.stays hstays h₁
  split
  · rename_i hfin
    -- a loop that was attached would not have lost its previous owner
    have hdetached : L.attached = false := by
      rw [hattached, ← Bool.not_eq_true]
      intro hwas
      rw [hr trivial hwas] at hfin
      cases hfin
    refine wp_step hat₁.active fun s₂ h₂ => ?_
    have hat₂ := hat₁.stays hstays h₂
    split
    · rename_i howner
      rw [State.finalizedOwner, Option.any_eq_true] at hfin
      obtain ⟨o, hprevious, hf⟩ := hfin
      have hbefore : s₀.wakeupOwner = some o :=
        (hat₂.wakeup trivial).2.left.owner (howner.trans hprevious)
      have hf₂ := h₂.interferes.finalized o hf
      refine wp_step hat₂.active fun s₃ h₃ => ?_
      have hat₃ := hat₂.stays hstays h₃
      refine wp_setWakeupFd hat₃.active (fun s₄ h₄ => ?_) fun exc s₄ _ hfail _ =>
        absurd rfl (hfail trivial).1
      have hat₄ := hat₃.stays hstays h₄
      have hf₄ := h₄.interferes.finalized o (h₃.interferes.finalized o hf₂)
      simp only [Prog.wp_bind]
      refine hV.out (hat₄.of_eq rfl rfl rfl fun _ hw =>
        ⟨hV.wakeup s₄ _ none hw.1, rfl, o, hbefore, hf₄⟩) fun s₅ hat₅ => ?_
      have hstays' := hV.stays.and (stays_wakeupBack s₀ l)
      refine wp_step hat₅.active fun s₆ h₆ => hQ _ ?_
      have hat₆ := hV.setAttached (hat₅.stays hstays' h₆) false fun hw => hw.setAttached false
      have hsame : { L with attached := false } = L := by rw [← hdetached]
      exact hsame ▸ hat₆
    · rename_i hne
      refine hQ s₂ (hat₂.mono fun hw => ⟨hw.1, hw.2.left, fun o _ howner => ?_⟩)
      exact absurd (howner.trans (hw.2.owner o howner).symm) hne
  · rename_i hfin
    refine hQ s₁ (hat₁.mono fun hw => ⟨hw.1, hw.2.left, fun o ho howner hb => ?_⟩)
    refine hV.kept s₁ o hw.1 ho hb ?_
    -- an owner that is not closed has its descriptor
    have hlive : (s₁.loops o).finalized = false := by
      rw [State.finalizedOwner, hw.2.owner o howner, Option.any_some, Bool.not_eq_true] at hfin
      exact hfin
    exact ((hat₁.wf o).live hlive).1

/-- Putting the previous descriptor back leaves it to its previous owner. -/
theorem Apart.wp_restoreWakeupFd {previous : WakeupState} {Q : Except Exc Unit → State → Prop}
    (h : At True l L (fun s => V s ∧ WakeupHeld s₀ l previous s) s)
    (hQ : ∀ s', At True l { L with attached := previous.wasAttached }
      (fun s => V s ∧ WakeupBack s₀ l s) s' → Q (.ok ()) s') :
    (restoreWakeupFd l (some previous)).wp (env True True) (spec True True) Q s := by
  have hstays := hV.stays.and (stays_wakeupHeld s₀ l previous)
  simp only [restoreWakeupFd, Prog.wp_bind, wp_getState, Prog.wp_ite]
  rw [if_neg (fun hne => hne (h.wakeup trivial).2.owner)]
  refine wp_foreign h.active fun r s₁ h₁ hr => ?_
  have hat₁ := h.stays hstays h₁
  generalize habandon : s₁.finalizedOwner previous.owner = abandon
  have hvalue : (if abandon then false else previous.wasAttached) = previous.wasAttached := by
    cases abandon with
    | false => rfl
    | true =>
      cases hwas : previous.wasAttached with
      | false => rfl
      | true =>
        rw [hr trivial hwas] at habandon
        cases habandon
  generalize hfd : (if abandon then none else previous.fd) = fd
  generalize howner : (if abandon then none else previous.owner) = owner
  -- what is about to be put back
  have hleft : WakeupLeft s₀ { s₁ with wakeupOwner := owner, wakeupFd := fd } := by
    have hreplaceable := (hat₁.wakeup trivial).2.replaceable
    subst hfd howner
    cases abandon with
    | true => exact .inr ⟨rfl, rfl, hreplaceable.owner habandon⟩
    | false => exact hreplaceable.left habandon rfl rfl fun _ => id
  refine wp_step hat₁.active fun s₂ h₂ => ?_
  have hat₂ := hat₁.stays hstays h₂
  simp only [reinstall, hfd, Prog.wp_bind]
  refine wp_setWakeupFd hat₂.active (fun s₃ h₃ => ?_) fun exc s₃ _ _ hfail => by
    cases hfail trivial
  have hat₃ : At True l L (fun s => V s ∧ Installed l fd s) { s₃ with wakeupFd := fd } :=
    (hat₂.stays hstays h₃).of_eq rfl rfl rfl fun _ hw =>
      ⟨hV.wakeup s₃ s₃.wakeupOwner fd hw.1, hw.2.owner, hw.2.live, rfl⟩
  simp only [Prog.wp_pure, Prog.wp_bind, howner, hvalue]
  refine wp_step hat₃.active fun s₄ h₄ => ?_
  have hat₄ := hat₃.stays (hV.stays.and (stays_installed l fd)) h₄
  rw [wp_setWakeupOwner]
  have hat₄' : At True l L (fun s => V s ∧ WakeupReturned s₀ previous.owner s)
      { s₄ with wakeupOwner := owner } := by
    refine hat₄.of_eq rfl rfl rfl fun _ hw => ⟨hV.wakeup s₄ owner s₄.wakeupFd hw.1, ?_, ?_⟩
    · have hmono (o : ℕ) (ho : (s₁.loops o).finalized = true) : (s₄.loops o).finalized = true :=
        h₄.interferes.finalized o (h₃.interferes.finalized o (h₂.interferes.finalized o ho))
      exact hleft.of_eq rfl hw.2.fd hmono
    · subst howner
      cases abandon with
      | true => exact fun o ho => by cases ho
      | false => exact fun o ho => ho
  refine wp_step hat₄'.active fun s₅ h₅ => ?_
  rw [wp_setLoop]
  have hat₅ := hV.setAttached (hat₄'.stays (hV.stays.and (stays_wakeupReturned s₀ l _)) h₅)
    previous.wasAttached fun hw => (⟨hw.left.setAttached _, hw.owner⟩ :
      WakeupReturned s₀ previous.owner _)
  exact hV.wp_revalidate hat₅ rfl hQ

end Wakeup

/-- The signal, as far as the wakeup descriptor is concerned. -/
theorem apart {S : State → Prop} (hS : Stays l S)
    (hS' : ∀ s s', s'.owners = s.owners → s'.disposition = s.disposition →
      (∀ o, o ≠ l → s'.loops o = s.loops o) →
      (∀ o, (s'.loops o).finalized = (s.loops o).finalized) → S s → S s') :
    Apart s₀ l fun s => Elsewhere s₀ l n s ∧ S s where
  stays := (stays_elsewhere s₀ l n).and hS
  wakeup s _ _ h :=
    ⟨h.1.of_eq (fun _ _ => rfl) (fun _ => rfl) (fun _ _ => rfl) fun _ _ => rfl,
      hS' s _ rfl rfl (fun _ _ => rfl) (fun _ => rfl) h.2⟩
  attach s a h :=
    ⟨h.1.of_eq (fun _ ho => s.loops_setLoop_ne ho _) (finalized_setAttached s l a) (fun _ _ => rfl)
      fun _ _ => rfl,
      hS' s _ rfl rfl (fun _ ho => s.loops_setLoop_ne ho _) (finalized_setAttached s l a) h.2⟩
  kept _ o h := h.1.kept o

theorem apart_signalTaken (previousOwner : Option ℕ) :
    Apart s₀ l fun s => Elsewhere s₀ l n s ∧ SignalTaken s₀ l n previousOwner s :=
  apart (stays_signalTaken s₀ l n previousOwner) fun _ _ howners hdisp _ hfin h =>
    ⟨howners ▸ h.owner, (hfin l).trans h.live,
      h.registrable.of_eq (fun o ho => (hfin o).trans ho) (by rw [hdisp])⟩

theorem apart_signalBack : Apart s₀ l fun s => Elsewhere s₀ l n s ∧ SignalBack s₀ l n s := by
  refine apart (stays_signalBack s₀ l n) fun s s' howners hdisp hloops hfin h =>
    ⟨?_, fun o ho howner hn => ?_⟩
  · exact h.left.trans (.inl ⟨by rw [howners], by rw [hdisp]⟩) fun o ho => (hfin o).trans ho
  · rw [Owes, hloops o ho]
    exact h.owes o ho (howners ▸ howner) hn

/-! ## Taking the attempt back -/

/-- What has still to be put back of the wakeup descriptor. -/
def Pending (s₀ : State) (l : ℕ) : Option WakeupState → State → Prop
  | none => WakeupBack s₀ l
  | some previous => WakeupHeld s₀ l previous

variable (s₀ l) in
theorem stays_pending (wakeup : Option WakeupState) : Stays l (Pending s₀ l wakeup) := by
  cases wakeup with
  | none => exact stays_wakeupBack s₀ l
  | some previous => exact stays_wakeupHeld s₀ l previous

/-- Neither the wakeup descriptor nor another loop has changed. -/
theorem Pending.of_eq {wakeup : Option WakeupState} (h : Pending s₀ l wakeup s)
    (hloops : ∀ o, o ≠ l → s'.loops o = s.loops o)
    (hfin : ∀ o, (s'.loops o).finalized = (s.loops o).finalized)
    (howner : s'.wakeupOwner = s.wakeupOwner) (hfd : s'.wakeupFd = s.wakeupFd) :
    Pending s₀ l wakeup s' := by
  have hmono (o : ℕ) (ho : (s.loops o).finalized = true) : (s'.loops o).finalized = true :=
    (hfin o).trans ho
  cases wakeup with
  | none =>
    have hback : WakeupBack s₀ l s := h
    refine ⟨hback.left.of_eq howner hfd hmono, fun o ho ho' hb => ?_⟩
    rw [Backed, hloops o ho]
    exact hback.owned o ho (howner ▸ ho') hb
  | some previous =>
    have hheld : WakeupHeld s₀ l previous s := h
    exact ⟨howner.trans hheld.owner, (hfin l).trans hheld.live,
      hheld.replaceable.of_finalized hmono⟩

/-- The attempt is being taken back, and `S` holds of the signal. -/
structure Undoing (s₀ : State) (l n : ℕ) (S : State → Prop) (wakeup : Option WakeupState)
    (s : State) : Prop where
  /-- Everything else. -/
  elsewhere : Elsewhere s₀ l n s
  /-- The signal. -/
  signal : S s
  /-- The wakeup descriptor. -/
  wakeup : Pending s₀ l wakeup s

section Undoing

variable {S S' : State → Prop} {p : Option ℕ} {wakeup : Option WakeupState}

variable (s₀ n wakeup) in
theorem stays_undoing (hS : Stays l S) : Stays l (Undoing s₀ l n S wakeup) :=
  fun s s' hi hloop h => ⟨stays_elsewhere s₀ l n s s' hi hloop h.elsewhere,
    hS s s' hi hloop h.signal, stays_pending s₀ l wakeup s s' hi hloop h.wakeup⟩

/-- The signal gets another owner. -/
theorem At.setOwner (h : At True l L (Undoing s₀ l n S wakeup) s) (owner : Option ℕ)
    (hS : S s → S' (s.setOwner n owner)) :
    At True l L (Undoing s₀ l n S' wakeup) (s.setOwner n owner) := by
  refine h.of_eq rfl rfl rfl fun _ hu => ⟨?_, hS hu.signal, ?_⟩
  · exact hu.elsewhere.of_eq (fun _ _ => rfl) (fun _ => rfl)
      (fun m hm => s.owners_setOwner_ne hm owner) fun _ _ => rfl
  · exact hu.wakeup.of_eq (fun _ _ => rfl) (fun _ => rfl) rfl rfl

/-- The signal is set. -/
theorem At.setDisposition (h : At True l L (Undoing s₀ l n S wakeup) s) (hd : Handler)
    (hS : S s → S' (s.setDisposition n hd)) :
    At True l L (Undoing s₀ l n S' wakeup) (s.setDisposition n hd) := by
  refine h.of_eq rfl rfl rfl fun _ hu => ⟨?_, hS hu.signal, ?_⟩
  · exact hu.elsewhere.of_eq (fun _ _ => rfl) (fun _ => rfl) (fun _ _ => rfl)
      fun m hm => s.disposition_setDisposition_ne hm hd
  · exact hu.wakeup.of_eq (fun _ _ => rfl) (fun _ => rfl) rfl rfl

/-- The previous owner gets the signal back, unless it has been closed. -/
theorem wp_restoreOwner_undo {previousOwner : Option ℕ} {finalized : Bool}
    {Q : Except Exc Unit → State → Prop}
    (h : At True l L (Undoing s₀ l n
      (SignalHeld s₀ l n (if finalized then none else previousOwner)) wakeup) s)
    (hQ : ∀ s', At True l L (Undoing s₀ l n (SignalBack s₀ l n) wakeup) s' → Q (.ok ()) s') :
    (restoreOwner n previousOwner finalized).wp (env True True) (spec True True) Q s := by
  simp only [restoreOwner, Prog.wp_bind, wp_getState, wp_update, Prog.wp_ite]
  split
  · rename_i hput
    rw [Bool.and_eq_true, Bool.not_eq_true'] at hput
    rw [hput.2, if_neg Bool.false_ne_true] at h
    have hat : At True l L (Undoing s₀ l n (SignalReturned s₀ n previousOwner) wakeup)
        (s.setOwner n previousOwner) :=
      h.setOwner previousOwner fun hheld =>
        ⟨hheld.left, fun o ho => by rwa [State.owners_setOwner_self] at ho⟩
    have hstays := stays_undoing s₀ n wakeup (stays_signalReturned s₀ l n previousOwner)
    refine wp_step hat.active fun s₁ h₁ => ?_
    have hat₁ := hat.stays hstays h₁
    split
    · -- closed before it got the signal back
      rename_i hfin
      refine wp_step hat₁.active fun s₂ h₂ => ?_
      have hat₂ := hat₁.stays hstays h₂
      have hsignal := (hat₂.wakeup trivial).signal
      split
      · rename_i howner
        rw [State.finalizedOwner, Option.any_eq_true] at hfin
        obtain ⟨o, ho, hf⟩ := hfin
        have hbefore : s₀.owners n = some o := hsignal.left.owner (howner.trans ho)
        refine wp_step hat₂.active fun s₃ h₃ => ?_
        have hf₃ := h₃.interferes.finalized o (h₂.interferes.finalized o hf)
        have hat₃ : At True l L (Undoing s₀ l n (Orphaned s₀ n) wakeup) (s₃.setOwner n none) :=
          (hat₂.stays hstays h₃).setOwner none fun _ =>
            ⟨s₃.owners_setOwner_self n none, o, hbefore, hf₃⟩
        refine wp_step hat₃.active fun s₄ h₄ => ?_
        have hat₄ := hat₃.stays (stays_undoing s₀ n wakeup (stays_orphaned s₀ l n)) h₄
        refine Signals.wp_setSignal hat₄.active (fun s₅ h₅ => hQ _ ?_) fun exc s₅ _ _ hfail =>
          absurd (hfail trivial) (defaultHandler_ne_noop n)
        have hat₅ := hat₄.stays (stays_undoing s₀ n wakeup (stays_orphaned s₀ l n)) h₅
        refine hat₅.setDisposition _ fun horphaned => SignalLeft.back_of_none ?_ horphaned.owner
        exact .inr ⟨horphaned.owner, s₅.disposition_setDisposition_self n _, horphaned.before⟩
      · -- its cleanup has come first
        rename_i hne
        refine hQ s₂ (hat₂.mono fun hu => { hu with signal := ⟨hu.signal.left, fun o _ ho => ?_⟩ })
        exact absurd (ho.trans (hu.signal.owner o ho).symm) hne
    · rename_i hfin
      refine hQ s₁ (hat₁.mono fun hu =>
        { hu with signal := ⟨hu.signal.left, fun o ho howner hn => ?_⟩ })
      -- an owner that is not closed is as it was
      rw [State.finalizedOwner, hu.signal.owner o howner, Option.any_some, Bool.not_eq_true] at hfin
      rw [Owes, hu.elsewhere.live o ho hfin]
      exact hn
  · rename_i hput
    have hnone : (if finalized then none else previousOwner) = none := by
      cases finalized with
      | true => rfl
      | false =>
        rw [Bool.not_false, Bool.and_true, Option.not_isSome_iff_eq_none] at hput
        exact hput
    rw [hnone] at h
    refine hQ _ (h.setOwner none fun hheld => ?_)
    exact hheld.left.back_of_none (s.owners_setOwner_self n none)

/-- An entry of the loop is put back. -/
theorem At.restoreEntry (h : At True l L (Undoing s₀ l n (SignalHeld s₀ l n p) wakeup) s)
    (previousEntry : Option ℕ) :
    At True l (L.restoreEntry n previousEntry) (Undoing s₀ l n (SignalHeld s₀ l n p) wakeup)
      (s.setLoop l (Loop.restoreEntry n previousEntry)) := by
  have hfin (o : ℕ) : ((s.setLoop l (Loop.restoreEntry n previousEntry)).loops o).finalized =
      (s.loops o).finalized := by
    by_cases ho : o = l
    · rw [ho, State.loops_setLoop_self]
      exact (Loop.Kept.restoreEntry _ n previousEntry).finalized
    · rw [State.loops_setLoop_ne _ ho]
  refine h.kept (.restoreEntry L n previousEntry) fun hu => ⟨?_, ?_, ?_⟩
  · exact hu.elsewhere.of_eq (fun o ho => s.loops_setLoop_ne ho _) hfin (fun _ _ => rfl)
      fun _ _ => rfl
  · refine ⟨hu.signal.owner, (hfin l).trans hu.signal.live, ?_⟩
    have hsame : SignalLeft (s.setOwner n p)
        ((s.setLoop l (Loop.restoreEntry n previousEntry)).setOwner n p) n := by
      refine .inl ⟨?_, rfl⟩
      rw [State.owners_setOwner_self, State.owners_setOwner_self]
    exact hu.signal.left.trans hsame fun o ho => (hfin o).trans ho
  · exact hu.wakeup.of_eq (fun o ho => s.loops_setLoop_ne ho _) hfin rfl rfl

/-- Once everything is back, nothing is left of the attempt. -/
theorem At.restored (h : At True l L (Undoing s₀ l n (SignalBack s₀ l n) none) s)
    (hentry : ∀ m, L.handlers.entry m = (s₀.loops l).handlers.entry m)
    (hattached : L.attached = (s₀.loops l).attached) (hfree : (s₀.loops l).deferred = none) :
    Restored s₀ l s := by
  have hu := h.wakeup trivial
  have hback : WakeupBack s₀ l s := hu.wakeup
  rw [← h.loop] at hentry hattached
  refine ⟨hentry, hattached, fun m => ?_, hback.left, fun m o ho hn => ?_, fun o ho hb => ?_⟩
  · by_cases hm : m = n
    · exact hm ▸ hu.signal.left
    · exact hu.elsewhere.signal m hm
  · by_cases hl : o = l
    · subst hl
      rcases hn with hn | ⟨signals, hdef, -⟩
      · rw [Handlers.mem_signals_iff, ← hentry, ← Handlers.mem_signals_iff] at hn
        exact .inl hn
      · rw [hfree] at hdef
        cases hdef
    · by_cases hm : m = n
      · subst hm
        exact hu.signal.owes o hl ho hn
      · exact hu.elsewhere.owes m hm o hl ho hn
  · by_cases hl : o = l
    · subst hl
      rcases hb with hb | hb
      · exact .inl (hattached.trans hb)
      · exact absurd hfree hb
    · exact hback.owned o hl ho hb

/-- Putting everything back leaves nothing of the attempt. -/
theorem wp_unpublish_undo {e : ℕ} {previousOwner : Option ℕ} {finalized : Bool}
    {Q : Exc → State → Prop}
    (h : At True l L (Undoing s₀ l n
      (SignalHeld s₀ l n (if finalized then none else previousOwner)) wakeup) s)
    (hhandlers : L.handlers = (s₀.loops l).handlers.insert n e)
    (hattached : wakeup.elim L.attached WakeupState.wasAttached = (s₀.loops l).attached)
    (hfree : (s₀.loops l).deferred = none) (hQ : ∀ s', Restored s₀ l s' → Q .runtimeError s') :
    (unpublish l n ((s₀.loops l).handlers.entry n) previousOwner finalized wakeup).wp
      (env True True) (spec True True) Q s := by
  have hstays := stays_undoing s₀ n wakeup
    (stays_signalHeld s₀ l n (if finalized then none else previousOwner))
  have hentry := entry_restoreEntry hhandlers
  have hkept := L.attached_restoreEntry n ((s₀.loops l).handlers.entry n)
  simp only [unpublish, Prog.wp_bind]
  refine wp_step h.active fun s₁ h₁ => ?_
  have hat₁ := (h.stays hstays h₁).restoreEntry ((s₀.loops l).handlers.entry n)
  rw [wp_setLoop]
  refine wp_step hat₁.active fun s₂ h₂ => ?_
  refine wp_restoreOwner_undo (hat₁.stays hstays h₂) fun s₃ hat₃ => ?_
  simp only [Prog.wp_bind]
  refine wp_step hat₃.active fun s₄ h₄ => ?_
  have hat₄ := hat₃.stays (stays_undoing s₀ n wakeup (stays_signalBack s₀ l n)) h₄
  cases wakeup with
  | none => exact hQ s₄ (hat₄.restored hentry (hkept.trans hattached) hfree)
  | some previous =>
    refine apart_signalBack.wp_restoreWakeupFd
      (hat₄.mono fun hu => ⟨⟨hu.elsewhere, hu.signal⟩, hu.wakeup⟩) fun s₅ hat₅ => hQ s₅ ?_
    exact At.restored (hat₅.mono fun hw => ⟨hw.1.1, hw.1.2, hw.2⟩) hentry hattached hfree

/-- Taking the attempt back leaves nothing of it. -/
theorem wp_rollback_undo {e : ℕ} {previousOwner : Option ℕ} {Q : Exc → State → Prop}
    (h : At True l L (Undoing s₀ l n (SignalTaken s₀ l n previousOwner) wakeup) s)
    (hhandlers : L.handlers = (s₀.loops l).handlers.insert n e)
    (hattached : wakeup.elim L.attached WakeupState.wasAttached = (s₀.loops l).attached)
    (hfree : (s₀.loops l).deferred = none) (hQ : ∀ s', Restored s₀ l s' → Q .runtimeError s') :
    (rollback l n ((s₀.loops l).handlers.entry n) previousOwner wakeup).wp
      (env True True) (spec True True) Q s := by
  have hstays := stays_undoing s₀ n wakeup (stays_signalTaken s₀ l n previousOwner)
  simp only [rollback, Prog.wp_bind, wp_getState, Prog.wp_ite]
  refine wp_step h.active fun s₁ h₁ => ?_
  have hat₁ := h.stays hstays h₁
  generalize hfinalized : s₁.finalizedOwner previousOwner = finalized
  refine wp_step hat₁.active fun s₂ h₂ => ?_
  cases finalized with
  | true =>
    have hat₂ := hat₁.stays hstays h₂
    obtain ⟨o, hbefore, hf⟩ := (hat₁.wakeup trivial).signal.registrable.owner hfinalized
    rw [if_pos rfl]
    refine Signals.wp_setSignal hat₂.active (fun s₃ h₃ => ?_) fun exc s₃ _ _ hfail =>
      absurd (hfail trivial) (defaultHandler_ne_noop n)
    have hf₃ := h₃.interferes.finalized o (h₂.interferes.finalized o hf)
    refine wp_unpublish_undo ?_ hhandlers hattached hfree hQ
    refine (hat₂.stays hstays h₃).setDisposition _ fun htaken => ⟨htaken.owner, htaken.live, ?_⟩
    exact .inr ⟨State.owners_setOwner_self _ n none, s₃.disposition_setDisposition_self n _, o,
      hbefore, hf₃⟩
  | false =>
    have hheld : At True l L (Undoing s₀ l n (SignalHeld s₀ l n previousOwner) wakeup) s₁ :=
      hat₁.mono fun hu => { hu with signal := hu.signal.held hfinalized }
    rw [if_neg Bool.false_ne_true]
    refine wp_unpublish_undo ?_ hhandlers hattached hfree hQ
    exact hheld.stays (stays_undoing s₀ n wakeup (stays_signalHeld s₀ l n previousOwner)) h₂

end Undoing

/-! ## The attempt -/

/-- Once the loop is attached, the signal is installed, or nothing is left of the attempt. -/
theorem wp_installed_undo {e : ℕ} {previousOwner : Option ℕ} {previous : WakeupState}
    {Q : Except Exc Unit → State → Prop}
    (h : At True l L (Undoing s₀ l n (SignalTaken s₀ l n previousOwner) (some previous)) s)
    (hhandlers : L.handlers = (s₀.loops l).handlers.insert n e)
    (hattached : previous.wasAttached = (s₀.loops l).attached)
    (hfree : (s₀.loops l).deferred = none) (hok : ∀ s', Q (.ok ()) s')
    (herr : ∀ s', Restored s₀ l s' → Q (.error .runtimeError) s') :
    (installed l n ((s₀.loops l).handlers.entry n) previousOwner (some previous)).wp
      (env True True) (spec True True) Q s := by
  have hstays := stays_undoing s₀ n (some previous) (stays_signalTaken s₀ l n previousOwner)
  simp only [installed, Prog.wp_bind]
  refine wp_step h.active fun s₁ h₁ => ?_
  have hat₁ := h.stays hstays h₁
  refine Signals.wp_setSignal hat₁.active (fun s₂ _ => hok _) fun exc s₂ h₂ hfail _ => ?_
  obtain rfl := hfail trivial
  simp only [Prog.wp_bind]
  exact wp_rollback_undo (hat₁.stays hstays h₂) hhandlers hattached hfree herr

/-- Attaching the loop and installing the signal leaves nothing behind when it fails. -/
theorem wp_install_undo {e : ℕ} {previousOwner : Option ℕ} {Q : Except Exc Unit → State → Prop}
    (h : At True l L (fun s => (Elsewhere s₀ l n s ∧ SignalTaken s₀ l n previousOwner s) ∧
      WakeupLeft s₀ s) s)
    (hlive : L.finalized = false) (hhandlers : L.handlers = (s₀.loops l).handlers.insert n e)
    (hattached : L.attached = (s₀.loops l).attached) (hfree : (s₀.loops l).deferred = none)
    (hok : ∀ s', Q (.ok ()) s') (herr : ∀ s', Restored s₀ l s' → Q (.error .runtimeError) s') :
    (install l n ((s₀.loops l).handlers.entry n) previousOwner).wp (env True True) (spec True True)
      Q s := by
  simp only [install, Prog.wp_bind]
  refine (apart_signalTaken previousOwner).wp_attachWakeupFd h hlive
    (hhandlers ▸ Handlers.insert_ne_nil _ n e) (fun previous s₁ hwas hat₁ => ?_) fun s₁ hat₁ => ?_
  · exact wp_installed_undo (hat₁.mono fun hw => ⟨hw.1.1, hw.1.2, hw.2⟩) hhandlers
      (hwas.trans hattached) hfree hok herr
  · simp only [Prog.wp_bind]
    have hundo : At True l L (Undoing s₀ l n (SignalTaken s₀ l n previousOwner) none) s₁ :=
      hat₁.mono fun hw => ⟨hw.1.1, hw.1.2, hw.2⟩
    exact wp_rollback_undo hundo hhandlers hattached hfree herr

/-- The handler is published. -/
theorem At.publishEntry {previousOwner : Option ℕ}
    (h : At True l L (fun s => (Elsewhere s₀ l n s ∧ SignalRead s₀ n previousOwner s) ∧
      WakeupLeft s₀ s) s) (e : ℕ) :
    At True l { L with handlers := L.handlers.insert n e }
      (fun s => (Elsewhere s₀ l n s ∧ SignalRead s₀ n previousOwner s) ∧ WakeupLeft s₀ s)
      (s.setLoop l fun L => { L with handlers := L.handlers.insert n e }) := by
  have hfin (o : ℕ) : ((s.setLoop l fun L => { L with
      handlers := L.handlers.insert n e }).loops o).finalized = (s.loops o).finalized := by
    by_cases ho : o = l
    · rw [ho, State.loops_setLoop_self]
    · rw [State.loops_setLoop_ne _ ho]
  have hmono (o : ℕ) (ho : (s.loops o).finalized = true) := (hfin o).trans ho
  refine h.kept (f := fun L => { L with handlers := L.handlers.insert n e })
    ⟨rfl, rfl, rfl, rfl, rfl, rfl⟩ fun hw => ?_
  obtain ⟨⟨helse, hsig⟩, hwakeup⟩ := hw
  refine ⟨⟨?_, ?_, hsig.registrable.of_eq hmono rfl⟩, hwakeup.of_eq rfl rfl hmono⟩
  · exact helse.of_eq (fun o ho => s.loops_setLoop_ne ho _) hfin (fun _ _ => rfl) fun _ _ => rfl
  · exact hsig.left.trans (.inl ⟨rfl, rfl⟩) hmono

/-- The owner is published. -/
theorem At.publishOwner {previousOwner : Option ℕ}
    (h : At True l L (fun s => (Elsewhere s₀ l n s ∧ SignalRead s₀ n previousOwner s) ∧
      WakeupLeft s₀ s) s) (hlive : L.finalized = false) :
    At True l L (fun s => (Elsewhere s₀ l n s ∧ SignalTaken s₀ l n previousOwner s) ∧
      WakeupLeft s₀ s) (s.setOwner n (some l)) := by
  refine h.of_eq rfl rfl rfl fun _ hw => ?_
  obtain ⟨⟨helse, hsig⟩, hwakeup⟩ := hw
  refine ⟨⟨?_, s.owners_setOwner_self n (some l), ?_, hsig.registrable⟩, hwakeup⟩
  · exact helse.of_eq (fun _ _ => rfl) (fun _ => rfl)
      (fun m hm => s.owners_setOwner_ne hm (some l)) fun _ _ => rfl
  · exact (congrArg Loop.finalized h.loop).trans hlive

/-- A failed attempt on a loop that is not closed leaves nothing behind. -/
theorem wp_addSignalHandler_undo {e : ℕ} {Q : Except Exc Unit → State → Prop}
    (h : At True l (s₀.loops l) (fun s => (Elsewhere s₀ l n s ∧ SignalLeft s₀ s n) ∧
      WakeupLeft s₀ s) s)
    (hopen : (s₀.loops l).closed = false) (hlive : (s₀.loops l).finalized = false)
    (hsame : Restored s₀ l s) (hok : ∀ s', Q (.ok ()) s')
    (herr : ∀ exc s', Restored s₀ l s' → Q (.error exc) s') :
    (addSignalHandler l n e).wp (env True True) (spec True True) Q s := by
  simp only [addSignalHandler, Prog.wp_bind, wp_getState, Prog.wp_ite, h.loop]
  rw [if_neg (by rw [hopen]; exact Bool.false_ne_true)]
  refine wp_validSignal fun valid => ?_
  split
  · exact herr _ s hsame
  have hleft : Stays l (SignalLeft s₀ · n) := fun _ _ hi _ h => h.trans (hi.signal n) hi.finalized
  have hstays := ((stays_elsewhere s₀ l n).and hleft).and (stays_wakeupLeft s₀ l)
  refine wp_step h.active fun s₁ h₁ => ?_
  have hat₁ := h.stays hstays h₁
  rw [hat₁.loop]
  refine wp_step hat₁.active fun s₂ h₂ => ?_
  have hat₂ := hat₁.stays hstays h₂
  generalize hprevious : s₂.owners n = previousOwner
  have hread : At True l (s₀.loops l) (fun s => (Elsewhere s₀ l n s ∧
      SignalRead s₀ n previousOwner s) ∧ WakeupLeft s₀ s) s₂ :=
    hat₂.mono fun hw => ⟨⟨hw.1.1, hprevious ▸ hw.1.2.read⟩, hw.2⟩
  have hstays₂ := ((stays_elsewhere s₀ l n).and (stays_signalRead s₀ l n previousOwner)).and
    (stays_wakeupLeft s₀ l)
  refine wp_step hread.active fun s₃ h₃ => ?_
  have hat₃ := (hread.stays hstays₂ h₃).publishEntry e
  refine wp_step hat₃.active fun s₄ h₄ => ?_
  have hat₄ := (hat₃.stays hstays₂ h₄).publishOwner hlive
  rw [wp_update]
  refine wp_step hat₄.active fun s₅ h₅ => ?_
  have hstays₅ := ((stays_elsewhere s₀ l n).and (stays_signalTaken s₀ l n previousOwner)).and
    (stays_wakeupLeft s₀ l)
  exact wp_install_undo (hat₄.stays hstays₅ h₅) hlive rfl rfl h.free.2 hok
    fun s' hres => herr _ s' hres

/-- An attempt to register a signal that raises leaves nothing behind, whatever runs in between and
whatever was there before, as long as calls raise nothing but `OSError` and none fails while the
attempt is taken back. -/
theorem add_signal_handler_atomic {e k : ℕ} {exc : Exc} {log : Log sig} (hwf : Wf s)
    (hdepth : s.depth = 0) (hbusy : s.busy = none)
    (hrun : Run system (env True True) (fun c => Interlude system (env True True) k [c])
      (addSignalHandler l n e) (s.enter (.addSignalHandler l n e)) (.error exc) s' log) :
    Restored s l s' := by
  have hV := verified True True
  generalize hop : Op.addSignalHandler l n e = op at hrun
  have hwp : (addSignalHandler l n e).wp (env True True) (spec True True)
      (fun r s' => ∀ exc, r = .error exc → Restored s l s') (s.enter op) := by
    have hsame : Restored s l (s.enter op) :=
      ⟨fun _ => rfl, rfl, fun _ => .inl ⟨rfl, rfl⟩, .inl ⟨rfl, rfl⟩, fun _ _ _ h => h,
        fun _ _ h => h⟩
    cases hclosed : (s.loops l).closed with
    | true =>
      simp only [addSignalHandler, Prog.wp_bind, wp_getState, Prog.wp_ite]
      rw [if_pos (show ((s.enter op).loops l).closed = true from hclosed)]
      exact fun _ _ => hsame
    | false =>
      have hlive : (s.loops l).finalized = false := by
        rw [← Bool.not_eq_true]
        intro hfin
        rw [(hwf l).closed hfin] at hclosed
        cases hclosed
      have hfree : (s.loops l).retiring = false ∧ (s.loops l).deferred = none := by
        refine ⟨?_, by_contra fun hdef => ?_⟩
        · rw [← Bool.not_eq_true]
          intro hret
          rw [((hwf l).retiring hret).1] at hlive
          cases hlive
        · rw [((hwf l).deferred hdef).1] at hlive
          cases hlive
      have hat : At True l (s.loops l) (fun s' => (Elsewhere s l n s' ∧ SignalLeft s s' n) ∧
          WakeupLeft s s') (s.enter op) := by
        refine ⟨fun o => ?_, ?_, ?_, rfl, hfree, fun _ => ?_⟩
        · refine (hwf o).mono fun hb => ?_
          rw [hbusy] at hb
          cases hb
        · rw [State.enter, hdepth]
        · rw [State.enter, ← hop]
          rfl
        · have helse : Elsewhere s l n (s.enter op) := (elsewhere_refl s l n).of_eq
            (fun _ _ => rfl) (fun _ => rfl) (fun _ _ => rfl) fun _ _ => rfl
          exact ⟨⟨helse, .inl ⟨rfl, rfl⟩⟩, .inl ⟨rfl, rfl⟩⟩
      exact wp_addSignalHandler_undo hat hclosed hlive hsame (fun _ _ hok => by cases hok)
        fun _ _ hres _ _ => hres
  exact (hV.run (hV.interlude k []) hrun hwp).1 exc rfl

/-- The first loop owns the signal and the wakeup descriptor. The second takes both over, and gives
them back since installing the signal fails. -/
theorem add_signal_handler_atomic_failed : ∃ s s' log, Wf s ∧ s.owners 15 = some 0 ∧
    s.wakeupFd = some 0 ∧
    Run system (env True True) (fun c => Interlude system (env True True) 1 [c])
      (addSignalHandler 1 15 8) (s.enter (.addSignalHandler 1 15 8)) (.error .runtimeError) s' log ∧
    Restored s 1 s' ∧ s'.owners 15 = some 0 ∧ s'.wakeupFd = some 0 := by
  obtain ⟨s, hplay, ⟨s', log, ls, hreplay, howner', hfd'⟩, howner, hfd, hdepth, hbusy⟩ :
      ∃ s, system.play (env True True) 40 (registered 0 15 7) system.initial =
        some ⟨s, none, []⟩ ∧
      (∃ s' log ls, (addSignalHandler 1 15 8).replay (env True True) (fun _ s ls => some (s, ls))
        (fun _ _ _ => none) (s.enter (.addSignalHandler 1 15 8))
        ([.answer true] ++ List.replicate 13 (.resume none) ++ [.resume (some .osError)] ++
          List.replicate 13 (.resume none)) = some (.error .runtimeError, s', log, ls) ∧
        s'.owners 15 = some 0 ∧ s'.wakeupFd = some 0) ∧
      s.owners 15 = some 0 ∧ s.wakeupFd = some 0 ∧ s.depth = 0 ∧ s.busy = none :=
    ⟨_, rfl, ⟨_, _, _, rfl, rfl, rfl⟩, rfl, rfl, rfl, rfl⟩
  obtain ⟨hinv, -⟩ := (verified True True).top_level (System.Reachable.initial.play hplay)
  have hrun : Run system (env True True) (fun c => Interlude system (env True True) 1 [c])
      (addSignalHandler 1 15 8) (s.enter (.addSignalHandler 1 15 8)) (.error .runtimeError) s'
      log := by
    refine Prog.run_of_replay (fun c s ls s₁ ls₁ h => ?_) (fun f => ?_) hreplay
    · cases h
      exact .refl
    · cases f
  exact ⟨s, s', log, hinv.wf, howner, hfd, hrun,
    add_signal_handler_atomic hinv.wf hdepth hbusy hrun, howner', hfd'⟩

/-- After a `ValueError` the handler stays registered. -/
theorem not_add_signal_handler_atomic :
    ¬ ∀ (k l n e : ℕ) (s s' : State) (exc : Exc) (log : Log sig),
    Wf s → s.depth = 0 → s.busy = none →
    Run system (env False False) (fun c => Interlude system (env False False) k [c])
      (addSignalHandler l n e) (s.enter (.addSignalHandler l n e)) (.error exc) s' log →
    Restored s l s' := by
  intro h
  obtain ⟨s', log, ls, hreplay, hentry⟩ : ∃ s' log ls,
      (addSignalHandler 0 15 7).replay (env False False) (fun _ s ls => some (s, ls))
        (fun _ _ _ => none) (State.init.enter (.addSignalHandler 0 15 7))
        ([.answer true] ++ List.replicate 13 (.resume none) ++ [.resume (some .valueError)]) =
          some (.error .valueError, s', log, ls) ∧
      (s'.loops 0).handlers.entry 15 = some 7 := ⟨_, _, _, rfl, rfl⟩
  have hrun : Run system (env False False) (fun c => Interlude system (env False False) 0 [c])
      (addSignalHandler 0 15 7) (State.init.enter (.addSignalHandler 0 15 7)) (.error .valueError)
      s' log := by
    refine Prog.run_of_replay (fun c s ls s₁ ls₁ h => ?_) (fun f => ?_) hreplay
    · cases h
      rfl
    · cases f
  have hres := h 0 0 15 7 .init s' .valueError log wf_init rfl rfl hrun
  rw [hres.entry] at hentry
  cases hentry

end Zuvloop.Signals
