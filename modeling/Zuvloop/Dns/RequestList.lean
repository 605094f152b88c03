import Zuvloop.Dns.Requests

/-!
# The list of resolver requests

Whatever order submissions, completions, the closing of the loop, the reaper and the cancellation of
futures come in, the list `dns_requests` holds the requests that were linked and not yet freed, and
nobody uses the memory of any other.

## Main definitions

* `Next`: what a step can do.
* `Nested`, `Control`: how functions on the stack lie within each other.
* `Owned`: who has a request, and what its links and its future are.

## Main results

* `next_of_step`: the steps of the machine.
* `control_of_next`, `owned_of_next`: what every step keeps.
-/

namespace Zuvloop.Dns.Requests

open Transition Linked

variable {s s' : State} {l : List ℕ} {r f : ℕ} {k : Kind} {rest : List Frame} {c : Closing}

/-! ## Steps -/

/-- A function on the stack that will free a request, and in which capacity. -/
def Frame.caller : Frame → Option (ℕ × Caller)
  | .complete r _ => some (r, .completion)
  | .fail r => some (r, .submission)
  | _ => none

/-- What a step can do. -/
inductive Next (s : State) : State → Prop where
  | request (k : Kind) : s.inPython = true → s.closed = false → Next s (s.push (.alloc k))
  | unmade (k : Kind) (rest : List Frame) :
      s.stack = .alloc k :: rest → Next s { s with stack := rest }
  | closedMeanwhile (k : Kind) (rest : List Frame) (f : ℕ) :
      s.stack = .alloc k :: rest → s.closed = true →
      Next s (({ s with stack := rest }.link f).freeRequest s.next .submission)
  | accepted (k : Kind) (rest : List Frame) (f : ℕ) :
      s.stack = .alloc k :: rest → s.closed = false →
      Next s { { s with stack := rest }.link f with
        submitted := Function.update (State.link { s with stack := rest } f).submitted s.next true
        flight := s.flight ++ [s.next] }
  | refused (k : Kind) (rest : List Frame) (f : ℕ) :
      s.stack = .alloc k :: rest → s.closed = false →
      Next s (({ s with stack := rest }.link f).push (.fail s.next))
  | python (f : ℕ) (o : Outcome) : s.outcome f = .pending → o ≠ .pending →
      Next s { s with outcome := Function.update s.outcome f o }
  | run : s.inPython = true → s.closed = false → s.running = false →
      Next s { s.push .run with running := true }
  | stopped (rest : List Frame) :
      s.stack = .run :: rest → Next s { s with stack := rest, running := false }
  | reaped (r : ℕ) : r ∈ s.flight → s.isReaping = true →
      Next s (({ s with flight := s.flight.erase r }.unlink r .completion).release r)
  | completedLate (r : ℕ) (fr : Frame) (rest : List Frame) : r ∈ s.flight →
      s.stack = fr :: rest → fr.runsCallbacks = true → s.isReaping = false → s.closed = true →
      Next s ({ s with flight := s.flight.erase r }.freeRequest r .completion)
  | completed (r : ℕ) (fr : Frame) (rest : List Frame) : r ∈ s.flight →
      s.stack = fr :: rest → fr.runsCallbacks = true → s.isReaping = false → s.closed = false →
      Next s ({ s with flight := s.flight.erase r }.push (.complete r .building))
  | built (r f : ℕ) (rest : List Frame) :
      s.stack = .complete r .building :: rest → s.future r = some f →
      Next s (({ s with stack := rest }.touch r).push (.complete r (.asking f)))
  | missing (r : ℕ) (rest : List Frame) :
      s.stack = .complete r .building :: rest → s.future r = none →
      Next s { ({ s with stack := rest } : State).push (.complete r .building) with fault := true }
  | settled (r f : ℕ) (rest : List Frame) :
      s.stack = .complete r (.asking f) :: rest → s.outcome f = .pending →
      Next s (((({ s with stack := rest, outcome := Function.update s.outcome f .finished } :
        State).touch r).record (.settled r f s.closed)).push (.complete r .setting))
  | freed (r : ℕ) (by' : Caller) (fr : Frame) (rest : List Frame) :
      s.stack = fr :: rest → fr.caller = some (r, by') →
      Next s ({ s with stack := rest }.freeRequest r by')
  | released (r : ℕ) (rest : List Frame) :
      s.stack = .free r :: rest → Next s ({ s with stack := rest }.release r)
  | close : s.inPython = true → s.closed = false → s.running = false →
      Next s { s.push (.close .dropping) with closed := true }
  | cancelAll (rest : List Frame) : s.stack = .close .dropping :: rest →
      Next s (({ s with stack := rest } : State).push (.close (.cancelling s.links.head)))
  | cancel (r : ℕ) (rest : List Frame) : s.stack = .close (.cancelling (some r)) :: rest →
      Next s (({ s with stack := rest }.access [r]).push
        (.close (.cancelling (s.links.next r))))
  | drain (rest : List Frame) : s.stack = .close (.cancelling none) :: rest →
      Next s (({ s with stack := rest } : State).push (.close .draining))
  | closedAll (c : Closing) (rest : List Frame) : s.stack = .close c :: rest →
      s.flight = [] → Next s { s with stack := rest }
  | releaseFutures (rest : List Frame) : s.stack = .close .draining :: rest →
      Next s (({ s with stack := rest } : State).push (.close (.releasing s.links.head)))
  | clear (r : ℕ) (rest : List Frame) : s.stack = .close (.releasing (some r)) :: rest →
      Next s (({ ({ s with stack := rest }.access [r]).touch r with
        future := Function.update s.future r none } : State).push (.close (.clearing r)))
  | cleared (r : ℕ) (rest : List Frame) : s.stack = .close (.clearing r) :: rest →
      Next s (({ s with stack := rest }.access [r]).push
        (.close (.releasing (s.links.next r))))
  | drainAll (c : Closing) (rest : List Frame) : s.stack = .close c :: rest →
      Next s (({ s with stack := rest } : State).push (.close .drainingAll))
  | spawn (rest : List Frame) : s.stack = .close (.releasing none) :: rest →
      Next s { s with stack := rest, reap := .running }
  | reaper (reap : Reap) : s.isReaping = true → reap ≠ .synchronous → Next s { s with reap }

section Inversion

theorem next_of_submit (hstack : s.stack = .alloc k :: rest) {ok : Bool}
    (hopen : k = .getnameinfo → s.closed = false) :
    Next s ({ s with stack := rest }.submit k f ok) := by
  rw [State.submit]
  split
  · rename_i hclosed
    exact .closedMeanwhile k rest f hstack hclosed.2
  · rename_i hnot
    have hclosed : s.closed = false := by
      cases k with
      | getaddrinfo => simpa [State.link, State.record, State.access] using hnot
      | getnameinfo => exact hopen rfl
    split
    · exact .accepted k rest f hstack hclosed
    · exact .refused k rest f hstack hclosed

theorem next_of_onInfo (hr : r ∈ s.flight)
    (hthread : s.isReaping = true ∨ s.stack.head?.any Frame.runsCallbacks = true) :
    Next s (s.onInfo r) := by
  rw [State.onInfo]
  split
  · rename_i hreap
    exact .reaped r hr hreap
  · rename_i hreap
    have hreap : s.isReaping = false := Bool.eq_false_iff.mpr hreap
    rw [hreap] at hthread
    obtain ⟨fr, rest, hstack, hruns⟩ : ∃ fr rest, s.stack = fr :: rest ∧
        fr.runsCallbacks = true := by
      cases hs : s.stack with
      | nil => simp [hs] at hthread
      | cons fr rest => exact ⟨fr, rest, rfl, by simpa [hs] using hthread⟩
    split
    · rename_i hclosed
      exact .completedLate r fr rest hr hstack hruns hreap hclosed
    · rename_i hclosed
      exact .completed r fr rest hr hstack hruns hreap (Bool.eq_false_iff.mpr hclosed)

theorem next_of_returned {fr : Frame} (hstack : s.stack = fr :: rest)
    (h : State.returned { s with stack := rest } fr = some s') : Next s s' := by
  cases fr with
  | alloc k => cases h
  | run => cases h
  | complete r stage =>
    cases stage with
    | building => cases h
    | asking f => cases h
    | setting =>
      obtain rfl := Option.some.inj h
      exact .freed r .completion _ rest hstack rfl
  | fail r =>
    obtain rfl := Option.some.inj h
    exact .freed r .submission _ rest hstack rfl
  | free r =>
    obtain rfl := Option.some.inj h
    exact .released r rest hstack
  | close c =>
    cases c with
    | dropping =>
      obtain rfl := Option.some.inj h
      exact .cancelAll rest hstack
    | clearing r =>
      obtain rfl := Option.some.inj h
      exact .cleared r rest hstack
    | cancelling node => cases h
    | draining => cases h
    | releasing node => cases h
    | drainingAll => cases h

theorem next_of_walk (hstack : s.stack = .close c :: rest)
    (h : State.walk { s with stack := rest } c = some s') : Next s s' := by
  cases c with
  | cancelling node =>
    cases node with
    | none =>
      obtain rfl := Option.some.inj h
      exact .drain rest hstack
    | some r =>
      obtain rfl := Option.some.inj h
      exact .cancel r rest hstack
  | releasing node =>
    cases node with
    | none => cases h
    | some r =>
      obtain rfl := Option.some.inj h
      exact .clear r rest hstack
  | dropping => cases h
  | clearing r => cases h
  | draining => cases h
  | drainingAll => cases h

/-- Steps of the machine. -/
theorem next_of_step {lab : Label} (hopen : Open s lab) (h : machine.step s lab = some s') :
    Next s s' := by
  change step s lab = some s' at h
  cases lab with
  | request k =>
    rw [step] at h
    split at h
    · rename_i hif
      obtain rfl := Option.some.inj h
      exact .request k hif.1 hif.2
    · cases h
  | created f ok =>
    rw [step] at h
    split at h
    · rename_i k rest hstack
      cases f with
      | none =>
        obtain rfl := Option.some.inj h
        exact .unmade k rest hstack
      | some f =>
        obtain rfl := Option.some.inj h
        refine next_of_submit hstack fun hk => hopen ?_
        rw [hstack, hk]
        rfl
    · cases h
  | cancel f =>
    rw [step] at h
    split at h
    · rename_i hif
      obtain rfl := Option.some.inj h
      exact .python f _ hif (by simp)
    · cases h
  | finish f =>
    rw [step] at h
    split at h
    · rename_i hif
      obtain rfl := Option.some.inj h
      exact .python f _ hif (by simp)
    · cases h
  | run =>
    rw [step] at h
    split at h
    · rename_i hif
      obtain rfl := Option.some.inj h
      exact .run hif.1 hif.2.1 hif.2.2
    · cases h
  | stopped =>
    rw [step] at h
    split at h
    · rename_i rest hstack
      obtain rfl := Option.some.inj h
      exact .stopped rest hstack
    · cases h
  | complete r =>
    rw [step] at h
    split at h
    · rename_i hif
      obtain rfl := Option.some.inj h
      exact next_of_onInfo hif.1 (.inr hif.2)
    · cases h
  | built ok =>
    rw [step] at h
    split at h
    · rename_i r rest hstack
      simp only at h
      split at h
      · split at h
        · rename_i f hf
          obtain rfl := Option.some.inj h
          exact .built r f rest hstack hf
        · rename_i hf
          obtain rfl := Option.some.inj h
          exact .missing r rest hstack hf
      · obtain rfl := Option.some.inj h
        exact .freed r .completion _ rest hstack rfl
    · cases h
  | answered raised =>
    rw [step] at h
    split at h
    · rename_i r f rest hstack
      obtain rfl := Option.some.inj h
      rw [State.settle]
      split
      · exact .freed r .completion _ rest hstack rfl
      · rename_i hnot
        rw [not_or, not_not] at hnot
        exact .settled r f rest hstack hnot.2
    · cases h
  | returned =>
    rw [step] at h
    split at h
    · rename_i fr rest hstack
      exact next_of_returned hstack h
    · cases h
  | close =>
    rw [step] at h
    split at h
    · rename_i hif
      obtain rfl := Option.some.inj h
      exact .close hif.1 hif.2.1 hif.2.2
    · cases h
  | walk =>
    rw [step] at h
    split at h
    · rename_i c rest hstack
      exact next_of_walk hstack h
    · cases h
  | drained busy =>
    rw [step] at h
    split at h
    · rename_i rest hstack
      simp only at h
      split at h
      · split at h
        · obtain rfl := Option.some.inj h
          exact .releaseFutures rest hstack
        · obtain rfl := Option.some.inj h
          exact .drainAll _ rest hstack
      · split at h
        · rename_i hflight
          obtain rfl := Option.some.inj h
          exact .closedAll _ rest hstack hflight
        · cases h
    · cases h
  | spawn ok =>
    rw [step] at h
    split at h
    · rename_i rest hstack
      simp only at h
      split at h
      · obtain rfl := Option.some.inj h
        exact .spawn rest hstack
      · obtain rfl := Option.some.inj h
        exact .drainAll _ rest hstack
    · cases h
  | drainedAll =>
    rw [step] at h
    split at h
    · rename_i rest hstack
      split at h
      · rename_i hflight
        obtain rfl := Option.some.inj h
        exact .closedAll _ rest hstack hflight
      · cases h
    · cases h
  | reaped r =>
    rw [step] at h
    split at h
    · rename_i hif
      obtain rfl := Option.some.inj h
      refine next_of_onInfo hif.1 (.inl ?_)
      rcases hif.2 with hreap | hreap <;> simp [State.isReaping, hreap]
    · cases h
  | reaperDone =>
    rw [step] at h
    split at h
    · rename_i hif
      obtain rfl := Option.some.inj h
      refine .reaper _ ?_ (by simp)
      rcases hif.2 with hreap | hreap <;> simp [State.isReaping, hreap]
    · cases h
  | dealloc =>
    rw [step] at h
    split at h
    · rename_i hif
      obtain rfl := Option.some.inj h
      exact .reaper _ (by simp [State.isReaping, hif.2]) (by simp)
    · cases h

end Inversion

/-! ## Functions within each other -/

/-- `closeLoop` is at a place where other functions can run. -/
def Closing.waits : Closing → Bool
  | .dropping | .draining | .drainingAll => true
  | .cancelling _ | .releasing _ | .clearing _ => false

/-- How functions can lie within each other, given what `running` and `closed` are for the innermost
of them. -/
def Nested (running closed : Bool) : List Frame → Prop
  | [] => running = false
  | .run :: fs => running = true ∧ closed = false ∧ Nested false closed fs
  | .complete _ _ :: fs => running = true ∧ Nested running closed fs
  | .close _ :: fs =>
    running = false ∧ closed = true ∧ (∀ c, Frame.close c ∉ fs) ∧ Nested running closed fs
  | .alloc _ :: fs | .fail _ :: fs | .free _ :: fs => Nested running closed fs

section Nested

variable {running closed : Bool} {fs : List Frame}

/-- A running loop is open. -/
theorem Nested.open_of_running (h : Nested true closed fs) : closed = false := by
  induction fs with
  | nil => cases h
  | cons fr fs ih =>
    cases fr with
    | run => exact h.2.1
    | complete r stage => exact ih h.2
    | close c => cases h.1
    | alloc k => exact ih h
    | fail r => exact ih h
    | free r => exact ih h

/-- An open loop has no `closeLoop` under way. -/
theorem Nested.notMem_close (h : Nested running false fs) : ∀ c, Frame.close c ∉ fs := by
  induction fs generalizing running with
  | nil => simp
  | cons fr fs ih =>
    have hrest : ∀ c, Frame.close c ∉ fs := by
      cases fr with
      | run => exact ih h.2.2
      | complete r stage => exact ih h.2
      | close c => cases h.2.1
      | alloc k => exact ih h
      | fail r => exact ih h
      | free r => exact ih h
    intro c hmem
    rcases List.mem_cons.mp hmem with rfl | hmem
    · cases h.2.1
    · exact hrest c hmem

/-- An open loop that does not run can be closed. -/
theorem Nested.close (h : Nested false false fs) : Nested false true fs := by
  induction fs with
  | nil => rfl
  | cons fr fs ih =>
    cases fr with
    | run => cases h.1
    | complete r stage => cases h.1
    | close c => cases h.2.1
    | alloc k => exact ih h
    | fail r => exact ih h
    | free r => exact ih h

/-- A function that is not one of libuv's returns to the one below it. -/
theorem Nested.of_caller {fr : Frame} {by' : Caller} (hfr : fr.caller = some (r, by'))
    (h : Nested running closed (fr :: fs)) :
    Nested running closed fs ∧ (by' = .completion → running = true) := by
  cases fr with
  | complete r stage => exact ⟨h.2, fun _ => h.1⟩
  | fail r =>
    obtain ⟨rfl, rfl⟩ := Prod.mk.inj (Option.some.inj hfr)
    exact ⟨h, fun hby => by cases hby⟩
  | run => cases hfr
  | close c => cases hfr
  | alloc k => cases hfr
  | free r => cases hfr

end Nested

/-- The flags of the loop, and the stack. -/
structure Control (running closed : Bool) (reap : Reap) (stack : List Frame) : Prop where
  nested : Nested running closed stack
  /-- What runs on top of `closeLoop` was called where it can be. -/
  waits : ∀ c, Frame.close c ∈ stack.tail → c.waits = true
  /-- The reaper is started at the end of `closeLoop`. -/
  reap : reap ≠ .synchronous → closed = true ∧ ∀ c, Frame.close c ∉ stack

/-- The flags of the loop, and the stack. -/
def State.Control (s : State) : Prop := Requests.Control s.running s.closed s.reap s.stack

section Control

variable {running running' closed : Bool} {reap : Reap} {fr : Frame} {fs : List Frame}

/-- A function on top is over. -/
theorem Control.pop (h : Control running closed reap (fr :: fs))
    (hn : Nested running' closed fs) : Control running' closed reap fs where
  nested := hn
  waits := fun c hc => h.waits c (List.mem_of_mem_tail hc)
  reap := fun hreap =>
    ⟨(h.reap hreap).1, fun c hc => (h.reap hreap).2 c (List.mem_cons_of_mem fr hc)⟩

/-- A function is called that is not `closeLoop`. -/
theorem Control.push (h : Control running closed reap fs) (hfr : ∀ c, fr ≠ .close c)
    (hn : Nested running' closed (fr :: fs))
    (htop : ∀ c, fs.head? = some (.close c) → c.waits = true) :
    Control running' closed reap (fr :: fs) where
  nested := hn
  waits := by
    intro c hc
    cases fs with
    | nil => cases hc
    | cons top fs =>
      rcases List.mem_cons.mp hc with rfl | hc
      · exact htop c rfl
      · exact h.waits c hc
  reap := by
    refine fun hreap => ⟨(h.reap hreap).1, fun c hc => ?_⟩
    rcases List.mem_cons.mp hc with hc | hc
    · exact hfr c hc.symm
    · exact (h.reap hreap).2 c hc

/-- A function on top goes on. -/
theorem Control.replace {fr' : Frame} (h : Control running closed reap (fr :: fs))
    (hfr : ∀ c, fr' = .close c → ∃ c', fr = .close c')
    (hn : Nested running closed (fr' :: fs)) : Control running closed reap (fr' :: fs) where
  nested := hn
  waits := h.waits
  reap := by
    refine fun hreap => ⟨(h.reap hreap).1, fun c hc => ?_⟩
    rcases List.mem_cons.mp hc with hc | hc
    · obtain ⟨c', rfl⟩ := hfr c hc.symm
      exact (h.reap hreap).2 c' List.mem_cons_self
    · exact (h.reap hreap).2 c (List.mem_cons_of_mem fr hc)

/-- `closeLoop` goes on. -/
theorem Control.proceed {c c' : Closing} (h : Control running closed reap (.close c :: fs)) :
    Control running closed reap (.close c' :: fs) :=
  h.replace (fun _ _ => ⟨c, rfl⟩) h.nested

/-- On an open loop a function can be called anywhere. -/
theorem Control.push_of_open (h : Control running false reap fs) (hfr : ∀ c, fr ≠ .close c)
    (hn : Nested running' false (fr :: fs)) : Control running' false reap (fr :: fs) :=
  h.push hfr hn fun c hc => absurd (List.mem_of_mem_head? hc) (h.nested.notMem_close c)

/-- While the reaper is there, the loop's thread is not in `closeLoop`, nor in a completion. -/
theorem State.Control.not_reaping (h : s.Control)
    (hs : s.closed = false ∨ s.running = true ∨ ∃ c, Frame.close c ∈ s.stack) :
    s.isReaping = false := by
  rw [State.isReaping, decide_eq_false_iff_not, not_not]
  by_contra hreap
  obtain ⟨hclosed, hno⟩ := h.reap hreap
  rcases hs with hopen | hrun | ⟨c, hc⟩
  · rw [hclosed] at hopen
    cases hopen
  · have hn := h.nested
    rw [hrun] at hn
    rw [hn.open_of_running] at hclosed
    cases hclosed
  · exact hno c hc

theorem control_of_next (hnext : Next s s') (h : s.Control) : s'.Control := by
  have hc := h
  unfold State.Control at hc ⊢
  cases hnext with
  | request k _ hopen =>
    rw [hopen] at hc
    change Control s.running s.closed _ _
    rw [hopen]
    exact hc.push_of_open (by simp) hc.nested
  | unmade k rest hstack =>
    rw [hstack] at hc
    exact hc.pop hc.nested
  | closedMeanwhile k rest f hstack _ =>
    rw [hstack] at hc
    exact hc.replace (by simp) hc.nested
  | accepted k rest f hstack _ =>
    rw [hstack] at hc
    exact hc.pop hc.nested
  | refused k rest f hstack _ =>
    rw [hstack] at hc
    exact hc.replace (by simp) hc.nested
  | python f o _ _ => exact hc
  | run _ hopen hrun =>
    rw [hopen, hrun] at hc
    change Control true s.closed _ _
    rw [hopen]
    exact hc.push_of_open (by simp) ⟨rfl, rfl, hc.nested⟩
  | stopped rest hstack =>
    rw [hstack] at hc
    exact hc.pop hc.nested.2.2
  | reaped r _ _ => exact hc
  | completedLate r fr rest _ hstack hruns _ hclosed =>
    refine hc.push (by simp) hc.nested fun c hhead => ?_
    rw [hstack] at hhead
    obtain rfl := Option.some.inj hhead
    cases c <;> first | rfl | cases hruns
  | completed r fr rest _ hstack hruns _ hopen =>
    -- on an open loop, libuv was called by `runLoop`
    have hrun : fr = .run := by
      cases fr with
      | run => rfl
      | close c =>
        rw [hopen] at hc
        exact absurd (hstack ▸ List.mem_cons_self) (hc.nested.notMem_close c)
      | complete r stage => cases hruns
      | alloc k => cases hruns
      | fail r => cases hruns
      | free r => cases hruns
    rw [hopen] at hc
    change Control s.running s.closed _ _
    rw [hopen]
    refine hc.push_of_open (by simp) ⟨?_, hc.nested⟩
    have hn := hc.nested
    rw [hstack, hrun] at hn
    exact hn.1
  | built r f rest hstack _ =>
    rw [hstack] at hc
    exact hc.replace (by simp) hc.nested
  | missing r rest hstack _ =>
    rw [hstack] at hc
    exact hc
  | settled r f rest hstack _ =>
    rw [hstack] at hc
    exact hc.replace (by simp) hc.nested
  | freed r by' fr rest hstack hcaller =>
    rw [hstack] at hc
    exact hc.replace (by simp) (hc.nested.of_caller hcaller).1
  | released r rest hstack =>
    rw [hstack] at hc
    exact hc.pop hc.nested
  | close _ hopen hrun =>
    rw [hopen, hrun] at hc
    have hno := hc.nested.notMem_close
    change Control s.running true _ _
    rw [hrun]
    refine ⟨⟨rfl, rfl, hno, hc.nested.close⟩, fun c hmem => absurd hmem (hno c), fun hreap => ?_⟩
    cases (hc.reap hreap).1
  | cancelAll rest hstack =>
    rw [hstack] at hc
    exact hc.proceed
  | cancel r rest hstack =>
    rw [hstack] at hc
    exact hc.proceed
  | drain rest hstack =>
    rw [hstack] at hc
    exact hc.proceed
  | closedAll c rest hstack _ =>
    rw [hstack] at hc
    exact hc.pop hc.nested.2.2.2
  | releaseFutures rest hstack =>
    rw [hstack] at hc
    exact hc.proceed
  | clear r rest hstack =>
    rw [hstack] at hc
    exact hc.proceed
  | cleared r rest hstack =>
    rw [hstack] at hc
    exact hc.proceed
  | drainAll c rest hstack =>
    rw [hstack] at hc
    exact hc.proceed
  | spawn rest hstack =>
    rw [hstack] at hc
    obtain ⟨_, hclosed, hno, hn⟩ := hc.nested
    exact ⟨hn, fun c hmem => hc.waits c (List.mem_of_mem_tail hmem), fun _ => ⟨hclosed, hno⟩⟩
  | reaper reap hreap _ =>
    exact ⟨hc.nested, hc.waits, fun _ => hc.reap (by simpa [State.isReaping] using hreap)⟩

end Control

/-! ## Who has a request -/

/-- The list, and the memory of the requests: those on the list, and those that are about to be
given back. -/
structure Heap (links : Links ℕ) (next : ℕ) (live : ℕ → Bool) (fault : Bool)
    (l free : List ℕ) : Prop where
  isList : links.IsList l
  nodup : free.Nodup
  disjoint : ∀ r ∈ free, r ∉ l
  alive : ∀ r, live r = true ↔ r ∈ l ∨ r ∈ free
  lt : ∀ r, live r = true → r < next
  sound : fault = false

/-- The list, and the memory of the requests. -/
def State.Heap (s : State) (l free : List ℕ) : Prop :=
  Requests.Heap s.links s.next s.live s.fault l free

section Heap

variable {free rs : List ℕ}

theorem State.Heap.lt_next (h : s.Heap l free) (hr : r ∈ l) : r < s.next :=
  h.lt r ((h.alive r).mpr (.inl hr))

theorem State.Heap.next_notMem (h : s.Heap l free) : s.next ∉ l ∧ s.next ∉ free := by
  refine ⟨fun hmem => ?_, fun hmem => ?_⟩
  · exact absurd (h.lt_next hmem) (Nat.lt_irrefl _)
  · exact absurd (h.lt _ ((h.alive _).mpr (.inr hmem))) (Nat.lt_irrefl _)

/-- Requests on the list can be accessed. -/
theorem State.Heap.access (h : s.Heap l free) (hrs : ∀ r ∈ rs, r ∈ l) :
    (s.access rs).Heap l free where
  isList := h.isList
  nodup := h.nodup
  disjoint := h.disjoint
  alive := h.alive
  lt := h.lt
  sound := by
    have hany : (rs.any fun r => !s.live r) = false := by
      rw [List.any_eq_false]
      intro r hr
      rw [(h.alive r).mpr (.inl (hrs r hr))]
      decide
    rw [State.access, h.sound, hany]
    rfl

/-- `allocRequest` puts a request in front. -/
theorem State.Heap.link (h : s.Heap l free) : (s.link f).Heap (s.next :: l) free := by
  obtain ⟨hl, hfree⟩ := h.next_notMem
  have haccess : (s.access s.links.head.toList).Heap l free := by
    refine h.access fun r hr => ?_
    rw [h.isList.head_eq, Option.mem_toList] at hr
    exact List.mem_of_mem_head? hr
  refine ⟨h.isList.push hl, h.nodup, fun r hr hmem => ?_, fun r => ?_, fun r hr => ?_,
    haccess.sound⟩
  · rcases List.mem_cons.mp hmem with rfl | hmem
    · exact hfree hr
    · exact h.disjoint r hr hmem
  · change Function.update s.live s.next true r = true ↔ _
    by_cases hrn : r = s.next
    · simp [hrn]
    · rw [Function.update_of_ne hrn, h.alive r, List.mem_cons]
      simp [hrn]
  · change Function.update s.live s.next true r = true at hr
    change r < s.next + 1
    by_cases hrn : r = s.next
    · omega
    · rw [Function.update_of_ne hrn] at hr
      exact Nat.lt_succ_of_lt (h.lt r hr)

/-- `freeRequest` takes a request off the list. -/
theorem State.Heap.unlink {b : Caller} (h : s.Heap l free) (hr : r ∈ l) :
    (s.unlink r b).Heap (l.erase r) (r :: free) := by
  have haccess : (s.access (r :: ((s.links.prev r).toList ++ (s.links.next r).toList))).Heap
      l free := by
    refine h.access fun x hx => ?_
    rcases List.mem_cons.mp hx with rfl | hx
    · exact hr
    rcases List.mem_append.mp hx with hx | hx
    · exact h.isList.prev_mem hr (Option.mem_toList.mp hx)
    · exact h.isList.next_mem hr (Option.mem_toList.mp hx)
  have hnot : r ∉ l.erase r := h.isList.nodup.not_mem_erase
  refine ⟨h.isList.unlink hr, List.nodup_cons.mpr ⟨fun hmem => h.disjoint r hmem hr, h.nodup⟩,
    fun x hx hmem => ?_, fun x => ?_, h.lt, haccess.sound⟩
  · rcases List.mem_cons.mp hx with rfl | hx
    · exact hnot hmem
    · exact h.disjoint x hx (List.mem_of_mem_erase hmem)
  · change s.live x = true ↔ _
    rw [h.alive x, List.mem_cons]
    by_cases hxr : x = r
    · simp [hxr, hr]
    · simp [hxr, List.mem_erase_of_ne hxr]

/-- `freeRequest` gives the memory back. -/
theorem State.Heap.release (h : s.Heap l (r :: free)) : (s.release r).Heap l free := by
  obtain ⟨hnot, hnodup⟩ := List.nodup_cons.mp h.nodup
  have hrl : r ∉ l := h.disjoint r List.mem_cons_self
  refine ⟨h.isList, hnodup, fun x hx => h.disjoint x (List.mem_cons_of_mem r hx), fun x => ?_,
    fun x hx => ?_, h.sound⟩
  · change Function.update s.live r false x = true ↔ _
    by_cases hxr : x = r
    · simp [hxr, hnot, hrl]
    · rw [Function.update_of_ne hxr, h.alive x, List.mem_cons]
      simp [hxr]
  · change Function.update s.live r false x = true at hx
    by_cases hxr : x = r
    · simp [hxr] at hx
    · rw [Function.update_of_ne hxr] at hx
      exact h.lt x hx

end Heap

/-- What `cancelAll` and `releaseFutures` have left behind and still have before them. -/
def Closing.Walks (l : List ℕ) (future : ℕ → Option ℕ) : Closing → Prop
  | .cancelling node => ∃ l₁ l₂, l = l₁ ++ l₂ ∧ node = l₂.head?
  | .releasing node =>
    ∃ l₁ l₂, l = l₁ ++ l₂ ∧ node = l₂.head? ∧ ∀ r ∈ l₁, future r = none
  | .clearing r =>
    ∃ l₁ l₂, l = l₁ ++ r :: l₂ ∧ ∀ x ∈ l₁ ++ [r], future x = none
  | .dropping | .draining | .drainingAll => True

theorem Closing.walks_of_waits {future : ℕ → Option ℕ} (hc : c.waits = true) :
    c.Walks l future := by
  cases c with
  | dropping => trivial
  | draining => trivial
  | drainingAll => trivial
  | cancelling node => cases hc
  | releasing node => cases hc
  | clearing r => cases hc

/-- Who has a request: libuv, or a function on the stack. -/
structure Owned (s : State) (l : List ℕ) : Prop where
  heap : s.Heap l s.freeing
  held : l.Perm (s.flight ++ s.holding)
  submitted : ∀ r ∈ s.flight, s.submitted r = true
  caller : ∀ fr ∈ s.stack, ∀ r by', fr.caller = some (r, by') →
    (by' = .completion ↔ s.submitted r = true)
  future : s.closed = false → ∀ r ∈ l, s.future r ≠ none
  walks : ∀ c, s.stack.head? = some (.close c) → c.Walks l s.future
  reaped : s.isReaping = true → ∀ r ∈ s.flight, s.future r = none

section Owned

/-- A function that will free a request holds it until then. -/
theorem Frame.holds_of_caller {fr : Frame} {by' : Caller} (h : fr.caller = some (r, by')) :
    fr.holds = some r ∧ fr.frees = none := by
  cases fr with
  | complete r' stage =>
    obtain ⟨rfl, -⟩ := Prod.mk.inj (Option.some.inj h)
    exact ⟨rfl, rfl⟩
  | fail r' =>
    obtain ⟨rfl, -⟩ := Prod.mk.inj (Option.some.inj h)
    exact ⟨rfl, rfl⟩
  | run => cases h
  | close c => cases h
  | alloc k => cases h
  | free r' => cases h

theorem Owned.mem_of_flight (h : Owned s l) (hr : r ∈ s.flight) : r ∈ l :=
  h.held.mem_iff.mpr (List.mem_append_left _ hr)

theorem Owned.mem_of_caller (h : Owned s l) {fr : Frame} {by' : Caller} (hfr : fr ∈ s.stack)
    (hr : fr.caller = some (r, by')) : r ∈ l :=
  h.held.mem_iff.mpr (List.mem_append_right _
    (List.mem_filterMap.mpr ⟨fr, hfr, (Frame.holds_of_caller hr).1⟩))

/-- What is underneath a function that is over. -/
theorem State.Control.walks_pop {fr : Frame} {future : ℕ → Option ℕ} (hc : s.Control)
    (hstack : s.stack = fr :: rest) : ∀ c, rest.head? = some (.close c) → c.Walks l future := by
  intro c hhead
  refine Closing.walks_of_waits (hc.waits c ?_)
  rw [hstack]
  exact List.mem_of_mem_head? hhead

/-- Nothing changes but the flags, the functions that hold no request, and the log. -/
structure Kept (s s' : State) : Prop where
  links : s'.links = s.links
  next : s'.next = s.next
  live : s'.live = s.live
  future : s'.future = s.future
  submitted : s'.submitted = s.submitted
  flight : s'.flight = s.flight
  fault : s'.fault = s.fault
  closed : s'.closed = false → s.closed = false
  stack : s'.stack.filterMap Frame.caller = s.stack.filterMap Frame.caller ∧
    s'.stack.filterMap Frame.frees = s.stack.filterMap Frame.frees

/-- A function on top of the stack goes on, with the same request. -/
theorem stack_replace {fr fr' : Frame} (hstack : s.stack = fr :: rest)
    (hcaller : fr'.caller = fr.caller) (hfrees : fr'.frees = fr.frees) :
    (fr' :: rest).filterMap Frame.caller = s.stack.filterMap Frame.caller ∧
      (fr' :: rest).filterMap Frame.frees = s.stack.filterMap Frame.frees := by
  simp only [hstack, List.filterMap_cons, hcaller, hfrees, and_self]

/-- A function on top of the stack is over that has no request. -/
theorem stack_pop {fr : Frame} (hstack : s.stack = fr :: rest) (hcaller : fr.caller = none)
    (hfrees : fr.frees = none) :
    rest.filterMap Frame.caller = s.stack.filterMap Frame.caller ∧
      rest.filterMap Frame.frees = s.stack.filterMap Frame.frees := by
  simp only [hstack, List.filterMap_cons, hcaller, hfrees, and_self]

theorem filterMap_holds (fs : List Frame) :
    fs.filterMap Frame.holds = (fs.filterMap Frame.caller).map Prod.fst := by
  rw [List.map_filterMap]
  refine List.filterMap_congr fun fr _ => ?_
  cases fr <;> rfl

theorem Owned.kept (h : Owned s l) (hk : Kept s s')
    (hwalks : ∀ c, s'.stack.head? = some (.close c) → c.Walks l s.future)
    (hreap : s'.isReaping = true → ∀ r ∈ s.flight, s.future r = none) : Owned s' l := by
  have hholding : s'.holding = s.holding := by
    rw [State.holding, State.holding, filterMap_holds, filterMap_holds, hk.stack.1]
  refine ⟨?_, ?_, ?_, fun fr hfr r by' hcaller => ?_, ?_, ?_, ?_⟩
  · unfold State.Heap
    rw [hk.links, hk.next, hk.live, hk.fault, State.freeing, hk.stack.2]
    exact h.heap
  · rw [hk.flight, hholding]
    exact h.held
  · rw [hk.flight, hk.submitted]
    exact h.submitted
  · have hmem : (r, by') ∈ s.stack.filterMap Frame.caller :=
      hk.stack.1 ▸ List.mem_filterMap.mpr ⟨fr, hfr, hcaller⟩
    obtain ⟨fr', hfr', hcaller'⟩ := List.mem_filterMap.mp hmem
    rw [hk.submitted]
    exact h.caller fr' hfr' r by' hcaller'
  · rw [hk.future]
    exact fun hclosed => h.future (hk.closed hclosed)
  · rw [hk.future]
    exact hwalks
  · rw [hk.future, hk.flight]
    exact hreap

/-- A completion callback on the loop's thread that has not found the loop closed. -/
theorem State.Control.of_complete {stage : Stage} (hc : s.Control)
    (hstack : s.stack = .complete r stage :: rest) : s.closed = false ∧ s.running = true := by
  have hn := hc.nested
  rw [hstack] at hn
  have hrun : s.running = true := hn.1
  have hn := hn.2
  rw [hrun] at hn
  exact ⟨hn.open_of_running, hrun⟩

/-- The state after a function on top of the stack is over. -/
theorem Owned.holding_eq {fr : Frame} (hstack : s.stack = fr :: rest) :
    s.holding = fr.holds.toList ++ rest.filterMap Frame.holds ∧
      s.freeing = fr.frees.toList ++ rest.filterMap Frame.frees := by
  rw [State.holding, State.freeing, hstack, List.filterMap_cons, List.filterMap_cons]
  cases fr.holds <;> cases fr.frees <;> exact ⟨rfl, rfl⟩

/-- `allocRequest` has linked a request that nobody else has seen. -/
theorem Owned.link (h : Owned s l) (hstack : s.stack = .alloc k :: rest) :
    (({ s with stack := rest } : State).link f).Heap (s.next :: l) (rest.filterMap Frame.frees) ∧
      (s.next :: l).Perm (s.next :: (s.flight ++ rest.filterMap Frame.holds)) ∧
      (∀ r ∈ l, r ≠ s.next) ∧ ∀ fr ∈ rest, ∀ r by', fr.caller = some (r, by') →
        (by' = .completion ↔ Function.update s.submitted s.next false r = true) := by
  obtain ⟨hholding, hfreeing⟩ := Owned.holding_eq hstack
  have hne : ∀ r ∈ l, r ≠ s.next := fun r hr => Nat.ne_of_lt (h.heap.lt_next hr)
  have hheap : ({ s with stack := rest } : State).Heap l (rest.filterMap Frame.frees) := by
    have hheap := h.heap
    rw [hfreeing] at hheap
    exact hheap
  have hheld := h.held
  rw [hholding] at hheld
  refine ⟨hheap.link, hheld.cons _, hne, fun fr hfr r by' hcaller => ?_⟩
  have hmem : fr ∈ s.stack := hstack ▸ List.mem_cons_of_mem _ hfr
  rw [Function.update_of_ne (hne r (h.mem_of_caller hmem hcaller))]
  exact h.caller fr hmem r by' hcaller

theorem owned_of_next (hnext : Next s s') (hc : s.Control) (h : Owned s l) :
    ∃ l', Owned s' l' := by
  cases hnext with
  | request k _ hopen =>
    exact ⟨l, h.kept ⟨rfl, rfl, rfl, rfl, rfl, rfl, rfl, id, rfl, rfl⟩ (by simp [State.push])
      h.reaped⟩
  | unmade k rest hstack =>
    exact ⟨l, h.kept ⟨rfl, rfl, rfl, rfl, rfl, rfl, rfl, id, stack_pop hstack rfl rfl⟩
      (hc.walks_pop hstack) h.reaped⟩
  | closedMeanwhile k rest f hstack hclosed =>
    obtain ⟨hheap, hheld, hne, hcaller⟩ := h.link (f := f) hstack
    have herase : (s.next :: l).erase s.next = l := List.erase_cons_head ..
    have hheap' := hheap.unlink (b := .submission) List.mem_cons_self
    rw [herase] at hheap'
    refine ⟨l, hheap', hheld.cons_inv, fun r hr => ?_, fun fr hfr r by' hfr' => ?_,
      fun hopen => ?_, fun c hhead => ?_, fun hreap r hr => ?_⟩
    · change Function.update s.submitted s.next false r = true
      rw [Function.update_of_ne (hne r (h.mem_of_flight hr))]
      exact h.submitted r hr
    · rcases List.mem_cons.mp hfr with rfl | hfr
      · cases hfr'
      · exact hcaller fr hfr r by' hfr'
    · exact absurd (hclosed.symm.trans hopen) (by decide)
    · cases hhead
    · change Function.update s.future s.next (some f) r = none
      rw [Function.update_of_ne (hne r (h.mem_of_flight hr))]
      exact h.reaped hreap r hr
  | accepted k rest f hstack hopen =>
    obtain ⟨hheap, hheld, hne, hcaller⟩ := h.link (f := f) hstack
    refine ⟨s.next :: l, hheap, ?_, fun r hr => ?_, fun fr hfr r by' hfr' => ?_, fun _ r hr => ?_,
      fun c hhead => ?_, fun hreap => ?_⟩
    · refine hheld.trans ?_
      change List.Perm _ ((s.flight ++ [s.next]) ++ rest.filterMap Frame.holds)
      rw [List.append_assoc]
      exact List.perm_middle.symm
    · change Function.update (Function.update s.submitted s.next false) s.next true r = true
      rcases List.mem_append.mp hr with hr | hr
      · have hrn := hne r (h.mem_of_flight hr)
        rw [Function.update_of_ne hrn, Function.update_of_ne hrn]
        exact h.submitted r hr
      · rw [List.mem_singleton.mp hr, Function.update_self]
    · change _ ↔ Function.update (Function.update s.submitted s.next false) s.next true r = true
      have hmem : fr ∈ s.stack := hstack ▸ List.mem_cons_of_mem _ hfr
      rw [Function.update_of_ne (hne r (h.mem_of_caller hmem hfr'))]
      exact hcaller fr hfr r by' hfr'
    · change Function.update s.future s.next (some f) r ≠ none
      rcases List.mem_cons.mp hr with rfl | hr
      · rw [Function.update_self]
        exact Option.some_ne_none f
      · rw [Function.update_of_ne (hne r hr)]
        exact h.future hopen r hr
    · exact hc.walks_pop hstack c hhead
    · exact absurd hreap (by simp [State.link, State.record, State.access, State.isReaping,
        of_decide_eq_false (hc.not_reaping (.inl hopen))])
  | refused k rest f hstack hopen =>
    obtain ⟨hheap, hheld, hne, hcaller⟩ := h.link (f := f) hstack
    refine ⟨s.next :: l, hheap, ?_, fun r hr => ?_, fun fr hfr r by' hfr' => ?_, fun _ r hr => ?_,
      fun c hhead => ?_, fun hreap r hr => ?_⟩
    · refine hheld.trans ?_
      change List.Perm _ (s.flight ++ s.next :: rest.filterMap Frame.holds)
      exact List.perm_middle.symm
    · change Function.update s.submitted s.next false r = true
      rw [Function.update_of_ne (hne r (h.mem_of_flight hr))]
      exact h.submitted r hr
    · change _ ↔ Function.update s.submitted s.next false r = true
      rcases List.mem_cons.mp hfr with rfl | hfr
      · obtain ⟨rfl, rfl⟩ := Prod.mk.inj (Option.some.inj hfr')
        simp
      · exact hcaller fr hfr r by' hfr'
    · change Function.update s.future s.next (some f) r ≠ none
      rcases List.mem_cons.mp hr with rfl | hr
      · rw [Function.update_self]
        exact Option.some_ne_none f
      · rw [Function.update_of_ne (hne r hr)]
        exact h.future hopen r hr
    · cases hhead
    · change Function.update s.future s.next (some f) r = none
      rw [Function.update_of_ne (hne r (h.mem_of_flight hr))]
      exact h.reaped hreap r hr
  | python f o _ _ =>
    exact ⟨l, h.kept ⟨rfl, rfl, rfl, rfl, rfl, rfl, rfl, id, rfl, rfl⟩ h.walks h.reaped⟩
  | run _ hopen _ =>
    exact ⟨l, h.kept ⟨rfl, rfl, rfl, rfl, rfl, rfl, rfl, id, rfl, rfl⟩ (by simp [State.push])
      h.reaped⟩
  | stopped rest hstack =>
    exact ⟨l, h.kept ⟨rfl, rfl, rfl, rfl, rfl, rfl, rfl, id, stack_pop hstack rfl rfl⟩
      (hc.walks_pop hstack) h.reaped⟩
  | reaped r hr hreap =>
    have hmem := h.mem_of_flight hr
    refine ⟨l.erase r, (h.heap.unlink (b := .completion) hmem).release, ?_, fun x hx => ?_,
      h.caller, fun hopen x hx => h.future hopen x (List.mem_of_mem_erase hx), fun c hhead => ?_,
      fun hreap x hx => h.reaped hreap x (List.mem_of_mem_erase hx)⟩
    · have herase := h.held.erase r
      rw [List.erase_append_left _ hr] at herase
      exact herase
    · exact h.submitted x (List.mem_of_mem_erase hx)
    · have hno := (hc.reap (of_decide_eq_true hreap)).2 c
      exact absurd (List.mem_of_mem_head? hhead) hno
  | completedLate r fr rest hr hstack hruns hreap hclosed =>
    have hmem := h.mem_of_flight hr
    refine ⟨l.erase r, h.heap.unlink (b := .completion) hmem, ?_, fun x hx => ?_,
      fun fr' hfr' x by' hcaller => ?_,
      fun hopen x hx => h.future hopen x (List.mem_of_mem_erase hx), fun c hhead => ?_,
      fun hreap x hx => h.reaped hreap x (List.mem_of_mem_erase hx)⟩
    · have herase := h.held.erase r
      rw [List.erase_append_left _ hr] at herase
      exact herase
    · exact h.submitted x (List.mem_of_mem_erase hx)
    · rcases List.mem_cons.mp hfr' with rfl | hfr'
      · cases hcaller
      · exact h.caller fr' hfr' x by' hcaller
    · cases hhead
  | completed r fr rest hr hstack hruns hreap hopen =>
    refine ⟨l, h.heap, ?_, fun x hx => ?_, fun fr' hfr' x by' hcaller => ?_, h.future,
      fun c hhead => ?_, fun hreap x hx => h.reaped hreap x (List.mem_of_mem_erase hx)⟩
    · refine h.held.trans ?_
      change List.Perm _ (s.flight.erase r ++ r :: s.holding)
      exact ((List.perm_cons_erase hr).append_right _).trans List.perm_middle.symm
    · exact h.submitted x (List.mem_of_mem_erase hx)
    · rcases List.mem_cons.mp hfr' with rfl | hfr'
      · obtain ⟨rfl, rfl⟩ := Prod.mk.inj (Option.some.inj hcaller)
        exact iff_of_true rfl (h.submitted r hr)
      · exact h.caller fr' hfr' x by' hcaller
    · cases hhead
  | built r f rest hstack hf =>
    exact ⟨l, h.kept ⟨rfl, rfl, rfl, rfl, rfl, rfl, rfl, id, stack_replace hstack rfl rfl⟩
      (by simp [State.push]) h.reaped⟩
  | missing r rest hstack hf =>
    -- futures are only given up by a loop that is closed
    have hmem : r ∈ l := h.mem_of_caller (hstack ▸ List.mem_cons_self) rfl
    exact absurd hf (h.future (hc.of_complete hstack).1 r hmem)
  | settled r f rest hstack _ =>
    exact ⟨l, h.kept ⟨rfl, rfl, rfl, rfl, rfl, rfl, rfl, id, stack_replace hstack rfl rfl⟩
      (by simp [State.push]) h.reaped⟩
  | freed r by' fr rest hstack hcaller =>
    obtain ⟨hholding, hfreeing⟩ := Owned.holding_eq hstack
    obtain ⟨hholds, hfrees⟩ := Frame.holds_of_caller hcaller
    have hmem : r ∈ l := h.mem_of_caller (hstack ▸ List.mem_cons_self) hcaller
    have hheap : ({ s with stack := rest } : State).Heap l (rest.filterMap Frame.frees) := by
      have hheap := h.heap
      rw [hfreeing, hfrees] at hheap
      exact hheap
    refine ⟨l.erase r, hheap.unlink (b := by') hmem, ?_, h.submitted,
      fun fr' hfr' x by'' hcaller' => ?_,
      fun hopen x hx => h.future hopen x (List.mem_of_mem_erase hx), fun c hhead => ?_, h.reaped⟩
    · have hheld := h.held
      rw [hholding, hholds] at hheld
      have herase := (hheld.trans List.perm_middle).erase r
      rw [List.erase_cons_head] at herase
      exact herase
    · rcases List.mem_cons.mp hfr' with rfl | hfr'
      · cases hcaller'
      · exact h.caller fr' (hstack ▸ List.mem_cons_of_mem fr hfr') x by'' hcaller'
    · cases hhead
  | released r rest hstack =>
    obtain ⟨hholding, hfreeing⟩ := Owned.holding_eq hstack
    have hheap := h.heap
    rw [hfreeing] at hheap
    refine ⟨l, State.Heap.release hheap, ?_, h.submitted, fun fr hfr => ?_, h.future,
      hc.walks_pop hstack, h.reaped⟩
    · have hheld := h.held
      rw [hholding] at hheld
      exact hheld
    · exact h.caller fr (hstack ▸ List.mem_cons_of_mem _ hfr)
  | close _ hopen _ =>
    refine ⟨l, h.kept ⟨rfl, rfl, rfl, rfl, rfl, rfl, rfl, fun _ => hopen, rfl, rfl⟩
      (fun c hhead => ?_) h.reaped⟩
    obtain rfl := Frame.close.inj (Option.some.inj hhead)
    trivial
  | cancelAll rest hstack =>
    refine ⟨l, h.kept ⟨rfl, rfl, rfl, rfl, rfl, rfl, rfl, id, stack_replace hstack rfl rfl⟩
      (fun c hhead => ?_) h.reaped⟩
    · obtain rfl := Frame.close.inj (Option.some.inj hhead)
      exact ⟨[], l, rfl, h.heap.isList.head_eq⟩
  | cancel r rest hstack =>
    obtain ⟨l₁, l₂, rfl, hnode⟩ := h.walks _ (by rw [hstack]; rfl)
    obtain ⟨l₂, rfl⟩ := List.head?_eq_some_iff.mp hnode.symm
    refine ⟨_, h.kept ⟨rfl, rfl, rfl, rfl, rfl, rfl, ?_, id, stack_replace hstack rfl rfl⟩
      (fun c hhead => ?_) h.reaped⟩
    · exact (h.heap.access (by simp)).sound.trans h.heap.sound.symm
    · obtain rfl := Frame.close.inj (Option.some.inj hhead)
      exact ⟨l₁ ++ [r], l₂, by simp, h.heap.isList.next_eq⟩
  | drain rest hstack =>
    refine ⟨l, h.kept ⟨rfl, rfl, rfl, rfl, rfl, rfl, rfl, id, stack_replace hstack rfl rfl⟩
      (fun c hhead => ?_) h.reaped⟩
    · obtain rfl := Frame.close.inj (Option.some.inj hhead)
      trivial
  | closedAll c rest hstack _ =>
    exact ⟨l, h.kept ⟨rfl, rfl, rfl, rfl, rfl, rfl, rfl, id, stack_pop hstack rfl rfl⟩
      (hc.walks_pop hstack) h.reaped⟩
  | releaseFutures rest hstack =>
    refine ⟨l, h.kept ⟨rfl, rfl, rfl, rfl, rfl, rfl, rfl, id, stack_replace hstack rfl rfl⟩
      (fun c hhead => ?_) h.reaped⟩
    · obtain rfl := Frame.close.inj (Option.some.inj hhead)
      exact ⟨[], l, rfl, h.heap.isList.head_eq, by simp⟩
  | clear r rest hstack =>
    obtain ⟨hholding, hfreeing⟩ := Owned.holding_eq hstack
    obtain ⟨l₁, l₂, rfl, hnode, hnone⟩ := h.walks _ (by rw [hstack]; rfl)
    obtain ⟨l₂, rfl⟩ := List.head?_eq_some_iff.mp hnode.symm
    have hclosed : s.closed = true := by
      have hn := hc.nested
      rw [hstack] at hn
      exact hn.2.1
    have hheap := h.heap
    rw [hfreeing] at hheap
    have hheld := h.held
    rw [hholding] at hheld
    refine ⟨_, hheap.access (by simp), hheld, h.submitted, fun fr hfr x by' hcaller => ?_,
      fun hopen => ?_, fun c hhead => ?_, fun hreap x hx => ?_⟩
    · rcases List.mem_cons.mp hfr with rfl | hfr
      · cases hcaller
      · exact h.caller fr (hstack ▸ List.mem_cons_of_mem _ hfr) x by' hcaller
    · exact absurd (hclosed.symm.trans hopen) (by decide)
    · obtain rfl := Frame.close.inj (Option.some.inj hhead)
      refine ⟨l₁, l₂, rfl, fun x hx => ?_⟩
      change Function.update s.future r none x = none
      by_cases hxr : x = r
      · rw [hxr, Function.update_self]
      · rw [Function.update_of_ne hxr]
        exact hnone x ((List.mem_append.mp hx).resolve_right (by simpa using hxr))
    · change Function.update s.future r none x = none
      by_cases hxr : x = r
      · rw [hxr, Function.update_self]
      · rw [Function.update_of_ne hxr]
        exact h.reaped hreap x hx
  | cleared r rest hstack =>
    obtain ⟨l₁, l₂, rfl, hnone⟩ := h.walks _ (by rw [hstack]; rfl)
    refine ⟨_, h.kept ⟨rfl, rfl, rfl, rfl, rfl, rfl, ?_, id, stack_replace hstack rfl rfl⟩
      (fun c hhead => ?_) h.reaped⟩
    · exact (h.heap.access (by simp)).sound.trans h.heap.sound.symm
    · obtain rfl := Frame.close.inj (Option.some.inj hhead)
      exact ⟨l₁ ++ [r], l₂, by simp, h.heap.isList.next_eq, hnone⟩
  | drainAll c rest hstack =>
    refine ⟨l, h.kept ⟨rfl, rfl, rfl, rfl, rfl, rfl, rfl, id, stack_replace hstack rfl rfl⟩
      (fun c hhead => ?_) h.reaped⟩
    · obtain rfl := Frame.close.inj (Option.some.inj hhead)
      trivial
  | spawn rest hstack =>
    -- the walk is at its end: every future has been given up
    obtain ⟨l₁, l₂, rfl, hnode, hnone⟩ := h.walks _ (by rw [hstack]; rfl)
    obtain rfl := List.head?_eq_none_iff.mp hnode.symm
    refine ⟨_, h.kept ⟨rfl, rfl, rfl, rfl, rfl, rfl, rfl, id, stack_pop hstack rfl rfl⟩
      (hc.walks_pop hstack) fun _ r hr => ?_⟩
    · have hmem := h.mem_of_flight hr
      rw [List.append_nil] at hmem
      exact hnone r hmem
  | reaper reap hreap _ =>
    exact ⟨l, h.kept ⟨rfl, rfl, rfl, rfl, rfl, rfl, rfl, id, rfl, rfl⟩ h.walks
      fun _ => h.reaped hreap⟩

end Owned

end Zuvloop.Dns.Requests
