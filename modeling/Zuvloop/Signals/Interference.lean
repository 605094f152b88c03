import Zuvloop.Signals.Model

/-!
# What runs between two steps

Between two steps of an operation on the main thread, other loops may be closed by other threads and
cleaned up on the main thread. `Interferes` says all that this can change: it leaves alone every
loop that is not closed, what such a loop owns, and the loop of the operation. What a closed loop
owned is either still its own or has been given up.

## Main definitions

* `Wf`: what holds of every loop at all times.
* `Idle`: what holds of the wakeup descriptor when no operation is in progress.
* `Owes`: a loop has still to reset a signal.
* `Interferes`: what may happen between two steps.

## Main results

* `Interferes.trans`: several things may happen between two steps.
* `Interferes.idle`: an idle state stays idle.
* `interferes_finalize`, `interferes_retire`: what other threads do is that much and no more.
-/

namespace Zuvloop.Signals

open Reentrant

/-! ## Loops -/

/-- What holds of a loop, whether an operation on it is in progress or not. -/
structure Loop.Ok (busy : Prop) (L : Loop) : Prop where
  /-- The descriptor of a loop that is not closed is open. -/
  live : L.finalized = false → L.fdOpen = true ∧ (L.closed = false ∨ busy)
  /-- A loop is closed before its token is finalized. -/
  closed : L.finalized = true → L.closed = true
  /-- Another thread closes the loop; it keeps the descriptor. -/
  retiring : L.retiring = true → L.finalized = true ∧ L.fdOpen = true ∧ L.deferred = none
  /-- Everything is left to the cleanup, the descriptor included. -/
  deferred : L.deferred ≠ none → L.finalized = true ∧ L.fdOpen = true ∧ L.retiring = false ∧
    L.handlers = [] ∧ L.attached = false
  /-- A closed loop has nothing left, but for what is left to the cleanup. -/
  gone : L.finalized = true → L.retiring = true ∨ busy ∨ L.handlers = [] ∧ L.attached = false
  /-- A loop that runs is not closed. -/
  running : L.running = true → L.closed = false

theorem Loop.ok_new {busy : Prop} : Loop.new.Ok busy where
  live _ := ⟨rfl, .inl rfl⟩
  closed h := by cases h
  retiring h := by cases h
  deferred h := absurd rfl h
  gone h := by cases h
  running h := by cases h

/-- Every loop is in order. -/
def Wf (s : State) : Prop := ∀ o, (s.loops o).Ok (s.busy = some o)

theorem wf_init : Wf .init := fun _ => Loop.ok_new

/-- The loop is attached, or its cleanup is still to come. -/
def Backed (s : State) (o : ℕ) : Prop :=
  (s.loops o).attached = true ∨ (s.loops o).deferred ≠ none

/-- The signal is registered with the loop, or the loop's cleanup has still to reset it. -/
def Owes (s : State) (o n : ℕ) : Prop :=
  n ∈ (s.loops o).handlers.signals ∨ ∃ signals, (s.loops o).deferred = some signals ∧ n ∈ signals

/-- No operation is in progress: the wakeup descriptor is its owner's, and the owner has still to
give it up. -/
structure Idle (s : State) : Prop where
  /-- The descriptor is its owner's. -/
  aligned : s.wakeupFd = none ∨ s.wakeupFd = s.wakeupOwner
  /-- The owner is attached, or its cleanup is still to come. -/
  backed : ∀ o, s.wakeupOwner = some o → Backed s o

theorem idle_init : Idle .init := ⟨.inl rfl, fun _ h => by cases h⟩

/-- The loop is neither being closed by another thread nor waiting for its cleanup. -/
def Free (s : State) (l : ℕ) : Prop :=
  (s.loops l).retiring = false ∧ (s.loops l).deferred = none

/-- A change of one loop. -/
theorem Wf.setLoop {s s' : State} {l : ℕ} {f : Loop → Loop} (h : Wf s)
    (hloops : s'.loops = (s.setLoop l f).loops) (hbusy : s'.busy = s.busy)
    (hl : (s.loops l).Ok (s.busy = some l) → (f (s.loops l)).Ok (s.busy = some l)) : Wf s' := by
  intro o
  rw [hloops, hbusy]
  by_cases ho : o = l
  · subst ho
    rw [State.loops_setLoop_self]
    exact hl (h o)
  · rw [State.loops_setLoop_ne _ ho]
    exact h o

/-! ## Interference -/

variable {strict atomic : Prop} {s s₁ s' s'' : State} {l : ℕ}

/-- What may happen to loops between two steps of an operation. -/
structure LoopsLeft (strict : Prop) (s s' : State) : Prop where
  /-- The operation is still in progress. -/
  busy : s'.busy = s.busy
  /-- Its loop is left alone. -/
  mine : ∀ l, s.busy = some l → Free s l → s'.loops l = s.loops l
  /-- A closed loop stays closed. -/
  finalized : ∀ o, (s.loops o).finalized = true → (s'.loops o).finalized = true
  /-- Nothing comes after the cleanup. -/
  done : ∀ o, (s.loops o).finalized = true → Free s o → Free s' o
  /-- A loop that is not closed is left alone. -/
  live : ∀ o, (s'.loops o).finalized = false → s'.loops o = s.loops o
  /-- Descriptors are not opened. -/
  fd : ∀ o, (s'.loops o).fdOpen = true → (s.loops o).fdOpen = true
  /-- A loop with an open descriptor has not been cleaned up. -/
  kept : strict → ∀ o, Backed s o → (s'.loops o).fdOpen = true → Backed s' o

/-- The wakeup descriptor is as it was, or its owner was closed and has given it up. -/
def WakeupLeft (s s' : State) : Prop :=
  s'.wakeupOwner = s.wakeupOwner ∧ s'.wakeupFd = s.wakeupFd ∨
    s'.wakeupOwner = none ∧ s'.wakeupFd = none ∧
      ∃ o, s.wakeupOwner = some o ∧ (s'.loops o).finalized = true

/-- A signal is as it was, or its owner was closed and has given it up. -/
def SignalLeft (s s' : State) (n : ℕ) : Prop :=
  s'.owners n = s.owners n ∧ s'.disposition n = s.disposition n ∨
    s'.owners n = none ∧ s'.disposition n = defaultHandler n ∧
      ∃ o, s.owners n = some o ∧ (s'.loops o).finalized = true

/-- What may happen to loops and to the wakeup descriptor. -/
structure Around (strict : Prop) (s s' : State) : Prop extends LoopsLeft strict s s' where
  /-- The wakeup descriptor changes only with its owner. -/
  wakeup : WakeupLeft s s'
  /-- The owner of the wakeup descriptor has not been cleaned up. -/
  owned : strict → ∀ o, s'.wakeupOwner = some o → Backed s o → Backed s' o

/-- What may happen between two steps of an operation. -/
structure Interferes (strict atomic : Prop) (s s' : State) : Prop extends Around strict s s' where
  /-- A signal changes only with its owner. -/
  signal : ∀ n, SignalLeft s s' n
  /-- The owner of a signal has still to reset it. -/
  owes : strict → atomic → ∀ n o, s'.owners n = some o → Owes s o n → Owes s' o n

namespace LoopsLeft

theorem refl (s : State) : LoopsLeft strict s s :=
  ⟨rfl, fun _ _ _ => rfl, fun _ => id, fun _ _ => id, fun _ _ => rfl, fun _ => id,
    fun _ _ h _ => h⟩

/-- Only the loops matter, and which operation is in progress. -/
theorem of_eq (hloops : s'.loops = s.loops) (hbusy : s'.busy = s.busy) : LoopsLeft strict s s' where
  busy := hbusy
  mine _ _ _ := by rw [hloops]
  finalized _ h := by rwa [hloops]
  done _ _ h := by rwa [Free, hloops]
  live _ _ := by rw [hloops]
  fd _ h := by rwa [← hloops]
  kept _ _ h _ := by rwa [Backed, hloops]

/-- The operation in progress is still free to go on. -/
theorem free (h : LoopsLeft strict s s') (hbusy : s.busy = some l) (hfree : Free s l) :
    Free s' l := by
  rw [Free, h.mine l hbusy hfree]
  exact hfree

theorem trans (h : LoopsLeft strict s s') (h' : LoopsLeft strict s' s'') :
    LoopsLeft strict s s'' where
  busy := h'.busy.trans h.busy
  mine l hbusy hfree :=
    (h'.mine l (h.busy.trans hbusy) (h.free hbusy hfree)).trans (h.mine l hbusy hfree)
  finalized o ho := h'.finalized o (h.finalized o ho)
  done o ho hfree := h'.done o (h.finalized o ho) (h.done o ho hfree)
  live o ho := by
    have heq := h'.live o ho
    exact heq.trans (h.live o (heq ▸ ho))
  fd o ho := h.fd o (h'.fd o ho)
  kept hstrict o hb ho := h'.kept hstrict o (h.kept hstrict o hb (h'.fd o ho)) ho

end LoopsLeft

theorem WakeupLeft.refl (s : State) : WakeupLeft s s := .inl ⟨rfl, rfl⟩

theorem WakeupLeft.trans (h : WakeupLeft s s') (h' : WakeupLeft s' s'')
    (hfin : ∀ o, (s'.loops o).finalized = true → (s''.loops o).finalized = true) :
    WakeupLeft s s'' := by
  rcases h' with ⟨ho', hfd'⟩ | ⟨ho', hfd', o, ho, hfinal⟩
  · rcases h with ⟨ho, hfd⟩ | ⟨ho, hfd, o, howner, hfinal⟩
    · exact .inl ⟨ho'.trans ho, hfd'.trans hfd⟩
    · exact .inr ⟨ho'.trans ho, hfd'.trans hfd, o, howner, hfin o hfinal⟩
  · rcases h with ⟨howner, -⟩ | ⟨howner, -⟩
    · exact .inr ⟨ho', hfd', o, howner ▸ ho, hfinal⟩
    · rw [howner] at ho
      cases ho

/-- What owns the wakeup descriptor did before. -/
theorem WakeupLeft.owner (h : WakeupLeft s s') {o : ℕ} (ho : s'.wakeupOwner = some o) :
    s.wakeupOwner = some o := by
  rcases h with ⟨hsame, -⟩ | ⟨hnone, -⟩
  · rwa [← hsame]
  · rw [hnone] at ho
    cases ho

/-- A loop that is not closed keeps the wakeup descriptor. -/
theorem WakeupLeft.of_live (h : WakeupLeft s s') (howner : s.wakeupOwner = some l)
    (hlive : (s'.loops l).finalized = false) :
    s'.wakeupOwner = some l ∧ s'.wakeupFd = s.wakeupFd := by
  rcases h with ⟨ho, hfd⟩ | ⟨-, -, o, ho, hfin⟩
  · exact ⟨ho.trans howner, hfd⟩
  · rw [howner] at ho
    cases ho
    rw [hlive] at hfin
    cases hfin

theorem SignalLeft.refl (s : State) (n : ℕ) : SignalLeft s s n := .inl ⟨rfl, rfl⟩

theorem SignalLeft.trans {n : ℕ} (h : SignalLeft s s' n) (h' : SignalLeft s' s'' n)
    (hfin : ∀ o, (s'.loops o).finalized = true → (s''.loops o).finalized = true) :
    SignalLeft s s'' n := by
  rcases h' with ⟨ho', hd'⟩ | ⟨ho', hd', o, ho, hfinal⟩
  · rcases h with ⟨ho, hd⟩ | ⟨ho, hd, o, howner, hfinal⟩
    · exact .inl ⟨ho'.trans ho, hd'.trans hd⟩
    · exact .inr ⟨ho'.trans ho, hd'.trans hd, o, howner, hfin o hfinal⟩
  · rcases h with ⟨howner, -⟩ | ⟨howner, -⟩
    · exact .inr ⟨ho', hd', o, howner ▸ ho, hfinal⟩
    · rw [howner] at ho
      cases ho

/-- What owns a signal did before. -/
theorem SignalLeft.owner {n o : ℕ} (h : SignalLeft s s' n) (ho : s'.owners n = some o) :
    s.owners n = some o := by
  rcases h with ⟨hsame, -⟩ | ⟨hnone, -⟩
  · rwa [← hsame]
  · rw [hnone] at ho
    cases ho

namespace Around

theorem refl (s : State) : Around strict s s := ⟨.refl s, .refl s, fun _ _ _ h => h⟩

theorem trans (h : Around strict s s') (h' : Around strict s' s'') : Around strict s s'' where
  toLoopsLeft := h.toLoopsLeft.trans h'.toLoopsLeft
  wakeup := h.wakeup.trans h'.wakeup h'.finalized
  owned hstrict o ho hb := h'.owned hstrict o ho (h.owned hstrict o (h'.wakeup.owner ho) hb)

/-- What touches neither loops nor the wakeup descriptor. -/
theorem of_eq (hloops : s'.loops = s.loops) (hbusy : s'.busy = s.busy)
    (howner : s'.wakeupOwner = s.wakeupOwner) (hfd : s'.wakeupFd = s.wakeupFd) :
    Around strict s s' :=
  ⟨.of_eq hloops hbusy, .inl ⟨howner, hfd⟩, fun _ _ _ h => by rwa [Backed, hloops]⟩

/-- An idle state stays idle. -/
theorem idle (h : Around True s s') (hidle : Idle s) : Idle s' where
  aligned := by
    rcases h.wakeup with ⟨ho, hfd⟩ | ⟨-, hfd, -⟩
    · rw [hfd, ho]
      exact hidle.aligned
    · exact .inl hfd
  backed o ho := h.owned trivial o ho (hidle.backed o (h.wakeup.owner ho))

end Around

namespace Interferes

theorem refl (s : State) : Interferes strict atomic s s :=
  ⟨.refl s, fun _ => .refl s _, fun _ _ _ _ _ h => h⟩

theorem trans (h : Interferes strict atomic s s') (h' : Interferes strict atomic s' s'') :
    Interferes strict atomic s s'' where
  toAround := h.toAround.trans h'.toAround
  signal n := (h.signal n).trans (h'.signal n) h'.finalized
  owes hstrict hatomic n o ho howes :=
    h'.owes hstrict hatomic n o ho (h.owes hstrict hatomic n o ((h'.signal n).owner ho) howes)

end Interferes

/-! ## Other threads -/

/-- What happens to a loop that is closed already, or by another thread, and to nothing else. -/
theorem Interferes.of_loop {f : Loop → Loop} (hmine : s.busy = some l → ¬ Free s l)
    (hfin : (f (s.loops l)).finalized = true)
    (hdone : (s.loops l).finalized = true → ¬ Free s l)
    (hfd : (f (s.loops l)).fdOpen = true → (s.loops l).fdOpen = true)
    (hkept : Backed s l → (f (s.loops l)).fdOpen = false ∧ s.wakeupOwner ≠ some l ∨
      Backed (s.setLoop l f) l)
    (howes : ∀ n, s.owners n = some l → Owes s l n → Owes (s.setLoop l f) l n) :
    Interferes strict atomic s (s.setLoop l f) := by
  have hself := s.loops_setLoop_self l f
  have hne (o : ℕ) (ho : o ≠ l) : (s.setLoop l f).loops o = s.loops o := s.loops_setLoop_ne ho f
  have hother (o : ℕ) (ho : o ≠ l) (h : Backed s o) : Backed (s.setLoop l f) o := by
    rwa [Backed, hne o ho]
  refine ⟨⟨⟨rfl, fun m hm hfree => hne m ?_, fun o ho => ?_, fun o ho hfree => ?_,
    fun o ho => hne o ?_, fun o ho => ?_, fun _ o hb ho => ?_⟩, .inl ⟨rfl, rfl⟩,
    fun _ o ho hb => ?_⟩, fun n => .inl ⟨rfl, rfl⟩, fun _ _ n o ho hn => ?_⟩
  · rintro rfl
    exact hmine hm hfree
  · by_cases heq : o = l
    · rw [heq, hself, hfin]
    · rwa [hne o heq]
  · by_cases heq : o = l
    · subst heq
      exact absurd hfree (hdone ho)
    · rwa [Free, hne o heq]
  · rintro rfl
    rw [hself, hfin] at ho
    cases ho
  · by_cases heq : o = l
    · subst heq
      rw [hself] at ho
      exact hfd ho
    · rwa [hne o heq] at ho
  · by_cases heq : o = l
    · subst heq
      rw [hself] at ho
      rcases hkept hb with ⟨hclosed, -⟩ | hbacked
      · rw [hclosed] at ho
        cases ho
      · exact hbacked
    · exact hother o heq hb
  · by_cases heq : o = l
    · subst heq
      rcases hkept hb with ⟨-, howner⟩ | hbacked
      · exact absurd ho howner
      · exact hbacked
    · exact hother o heq hb
  · by_cases heq : o = l
    · subst heq
      exact howes n ho hn
    · rwa [Owes, hne o heq]

/-- Another thread begins to close a loop of which no operation is in progress. -/
theorem interferes_finalize (h : Wf s) (hopen : (s.loops l).closed = false)
    (hidle : (s.loops l).running = false) (hbusy : s.busy ≠ some l) :
    Interferes strict atomic s (s.finalize l) ∧ Wf (s.finalize l) := by
  have hlive : (s.loops l).finalized = false := by
    by_contra hfin
    rw [Bool.not_eq_false] at hfin
    rw [(h l).closed hfin] at hopen
    cases hopen
  have hnone : (s.loops l).deferred = none := by
    by_contra hdef
    rw [((h l).deferred hdef).1] at hlive
    cases hlive
  refine ⟨.of_loop (fun hb => absurd hb hbusy) rfl (fun hfin => ?_) id (fun hb => .inr ?_)
    fun n _ hn => ?_, ?_⟩
  · rw [hlive] at hfin
    cases hfin
  · rw [Backed, State.loops_setLoop_self]
    exact hb
  · rwa [Owes, State.loops_setLoop_self]
  · refine h.setLoop rfl rfl fun hok => ?_
    refine ⟨fun hf => (by cases hf), fun _ => rfl, fun _ => ⟨rfl, (hok.live hlive).1, hnone⟩,
      fun hdef => absurd hnone hdef, fun _ => .inl rfl, fun hrun => ?_⟩
    rw [hidle] at hrun
    cases hrun

/-- A signal that a retiring loop still owns is left to its cleanup. -/
theorem mem_remaining {n : ℕ} (howner : s.owners n = some l)
    (hn : n ∈ (s.loops l).handlers.signals) : n ∈ (s.remaining l).signals := by
  obtain ⟨p, hp, rfl⟩ := List.mem_map.mp hn
  refine List.mem_map_of_mem ?_
  rw [State.remaining]
  rw [← List.takeWhile_append_dropWhile (p := fun h => s.owners h.1 != some l)
    (l := (s.loops l).handlers), List.mem_append] at hp
  rcases hp with hp | hp
  · have hother := List.all_eq_true.mp List.all_takeWhile p hp
    rw [howner, bne_self_eq_false] at hother
    cases hother
  · exact hp

/-- Another thread hands over the cleanup of the loop it closes. -/
theorem interferes_retire (h : Wf s) (hretiring : (s.loops l).retiring = true) :
    Interferes strict atomic s (s.retire l) ∧ Wf (s.retire l) := by
  obtain ⟨hfin, hfd, hnone⟩ := (h l).retiring hretiring
  have hfree : ¬ Free s l := fun hfree => by
    rw [hfree.1] at hretiring
    cases hretiring
  -- a signal that it owns is still registered with it
  have hregistered (n : ℕ) (ho : s.owners n = some l) (hn : Owes s l n) :
      n ∈ (s.remaining l).signals := by
    rcases hn with hn | ⟨signals, hdef, -⟩
    · exact mem_remaining ho hn
    · rw [hnone] at hdef
      cases hdef
  rw [State.retire]
  split
  · rename_i hnothing
    refine ⟨.of_loop (fun _ => hfree) hfin (fun _ => hfree) (fun _ => hfd) (fun hb => ?_)
      fun n ho hn => ?_, h.setLoop rfl rfl fun hok => ?_⟩
    · rcases hb with hb | hb
      · rw [hnothing.2] at hb
        cases hb
      · exact absurd hnone hb
    · have hmem := hregistered n ho hn
      rw [hnothing.1] at hmem
      cases hmem
    · refine ⟨fun hf => ?_, hok.closed, fun hf => (by cases hf), fun hdef => absurd hnone hdef,
        fun _ => .inr (.inr ⟨rfl, hnothing.2⟩), hok.running⟩
      have hf' : (s.loops l).finalized = false := hf
      rw [hfin] at hf'
      cases hf'
  · refine ⟨.of_loop (fun _ => hfree) hfin (fun _ => hfree) (fun _ => hfd) (fun hb => .inr ?_)
      fun n ho hn => ?_, h.setLoop rfl rfl fun hok => ?_⟩
    · rw [Backed, State.loops_setLoop_self]
      exact .inr (by simp)
    · rw [Owes, State.loops_setLoop_self]
      exact .inr ⟨_, rfl, hregistered n ho hn⟩
    · refine ⟨fun hf => ?_, hok.closed, fun hf => (by cases hf),
        fun _ => ⟨hfin, hfd, rfl, rfl, rfl⟩, fun _ => .inr (.inr ⟨rfl, rfl⟩), hok.running⟩
      have hf' : (s.loops l).finalized = false := hf
      rw [hfin] at hf'
      cases hf'

end Zuvloop.Signals
