import Mathlib.Algebra.Order.Group.Nat
import Mathlib.Data.Multiset.Sort
import Zuvloop.Loop.Order
import Zuvloop.Loop.TimerLife
import Zuvloop.Reentrant.Runs

/-!
# Timers that are already due

`scheduleAt` puts a timer that is already due, and due before every timer of the heap, straight into
the ready queue. The heap orders its timers by deadline, the ready queue keeps the order of the
calls. So timers that bypass the heap run by deadline only if they were scheduled that way.

`bypass_agrees_iff` compares the two for the timer calls a callback makes. The clock is read once by
each call and once by `onTimer`; its readings are given by a function of the number of handles
created so far, since every call creates one.

## Main definitions

* `TimerCall`: a call of `call_later` or `call_at`.
* `episode`: a callback makes its calls, the libuv timer expires, and the ready callbacks run.
* `dueOrder`: the timers that are due, by deadline and then by registration.
* `InOrder`: the calls that bypass the heap are made in the order of their deadlines.
-/

namespace Zuvloop.Loop

open Reentrant

variable {T : Type} [LinearOrder T]

/-! ## Timer calls -/

/-- A call that schedules a timer. -/
inductive TimerCall (T : Type) where
  /-- `call_later`. -/
  | later (delay : T)
  /-- `call_at`. -/
  | atTime (when : T)
deriving DecidableEq

namespace TimerCall

/-- The deadline of a call made at time `t`. -/
def deadline [Add T] [Zero T] (t : T) : TimerCall T → T
  | later delay => t + max delay 0
  | atTime when => when

/-- The timer of a call made at time `t` is due at once. -/
def alreadyDue [Zero T] (t : T) : TimerCall T → Bool
  | later delay => decide (delay ≤ 0)
  | atTime when => decide (when ≤ t)

/-- The call, as the loop has it. -/
def program [Add T] [Zero T] : TimerCall T → P T (Except Error ℕ)
  | later delay => callLater delay
  | atTime when => callAt when

/-- The call, if the heap were never bypassed. -/
def pushing [Add T] [Zero T] (c : TimerCall T) : P T (Except Error ℕ) := do
  let t ← now
  scheduleAt (c.deadline t) false

theorem program_eq [Add T] [Zero T] (c : TimerCall T) :
    c.program = (now >>= fun t => scheduleAt (c.deadline t) (c.alreadyDue t)) := by
  cases c <;> rfl

variable [AddZeroClass T] [AddLeftMono T]

omit [AddLeftMono T] in
/-- What is due at once has a deadline that has passed. -/
theorem deadline_le {t : T} {c : TimerCall T} (h : c.alreadyDue t = true) : c.deadline t ≤ t := by
  cases c with
  | later delay =>
    have hle : delay ≤ 0 := of_decide_eq_true h
    rw [deadline, max_eq_right hle, add_zero]
  | atTime when => exact of_decide_eq_true h

/-- What is not due at once has a deadline that has not passed. -/
theorem le_deadline {t : T} {c : TimerCall T} (h : c.alreadyDue t = false) : t ≤ c.deadline t := by
  cases c with
  | later delay => exact le_add_of_nonneg_right (le_max_right delay 0)
  | atTime when => exact (not_le.mp (of_decide_eq_false h)).le

end TimerCall

/-! ## Which calls bypass the heap -/

section Calls

variable [Add T] [Zero T] (clock : ℕ → T)

/-- The timers of the calls, as deadlines and handles; the first handle is `n`. -/
def callTimers : ℕ → List (TimerCall T) → List (T ×ₗ ℕ)
  | _, [] => []
  | n, c :: calls => toLex (c.deadline (clock n), n) :: callTimers (n + 1) calls

/-- A timer goes straight to the ready queue, given the deadlines in the heap. -/
def Bypasses (heap : Multiset T) (n : ℕ) (c : TimerCall T) : Prop :=
  c.alreadyDue (clock n) = true ∧ ∀ d ∈ heap, c.deadline (clock n) < d

instance (heap : Multiset T) (n : ℕ) (c : TimerCall T) : Decidable (Bypasses clock heap n c) :=
  inferInstanceAs (Decidable (_ ∧ _))

/-- The timers that go to the ready queue, and those that go into the heap. -/
def splitCalls : Multiset T → ℕ → List (TimerCall T) → List (T ×ₗ ℕ) × List (T ×ₗ ℕ)
  | _, _, [] => ([], [])
  | heap, n, c :: calls =>
    let timer := toLex (c.deadline (clock n), n)
    if Bypasses clock heap n c then
      let (ready, heap') := splitCalls heap (n + 1) calls
      (timer :: ready, heap')
    else
      let (ready, heap') := splitCalls (c.deadline (clock n) ::ₘ heap) (n + 1) calls
      (ready, timer :: heap')

/-- The calls that are already due, before every deadline of the heap, and before every call made
earlier that is not already due, are made in the order of their deadlines. -/
def InOrder (heap : Multiset T) (n : ℕ) (calls : List (TimerCall T)) : Prop :=
  ∀ i j, i < j → ∀ a b : TimerCall T, calls[i]? = some a → calls[j]? = some b →
    a.alreadyDue (clock (n + i)) = true → b.alreadyDue (clock (n + j)) = true →
    (∀ d ∈ heap, a.deadline (clock (n + i)) < d) →
    (∀ k < i, ∀ c : TimerCall T, calls[k]? = some c → c.alreadyDue (clock (n + k)) = false →
      a.deadline (clock (n + i)) < c.deadline (clock (n + k))) →
    a.deadline (clock (n + i)) ≤ b.deadline (clock (n + j))

end Calls

section Order

variable [AddZeroClass T] [AddLeftMono T] {clock : ℕ → T}

omit [AddLeftMono T] in
/-- Adding the timers of the calls that stay behind to a heap bounds nothing more from below than
the heap and the calls that are not already due. -/
theorem lt_all_cons_iff {heap : Multiset T} {n : ℕ} {c : TimerCall T}
    (hc : ¬ Bypasses clock heap n c) (v : T) :
    (∀ d ∈ c.deadline (clock n) ::ₘ heap, v < d) ↔ (∀ d ∈ heap, v < d) ∧
      (c.alreadyDue (clock n) = false → v < c.deadline (clock n)) := by
  rw [Multiset.forall_mem_cons, and_comm]
  refine and_congr_right fun hheap => ⟨fun hlt _ => hlt, fun hlate => ?_⟩
  cases hdue : c.alreadyDue (clock n) with
  | false => exact hlate hdue
  | true =>
    -- a call that is already due stays behind some timer of the heap
    simp only [Bypasses, hdue, true_and, not_forall, not_lt] at hc
    obtain ⟨d, hd, hle⟩ := hc
    exact (hheap d hd).trans_le hle

/-- A call that does not bypass the heap is not due before everything in it and before now. -/
theorem le_deadline_of_not_bypasses {heap : Multiset T} {n : ℕ} {c : TimerCall T} {v : T}
    (hc : ¬ Bypasses clock heap n c) (hheap : ∀ d ∈ heap, v ≤ d) (hv : v ≤ clock n) :
    v ≤ c.deadline (clock n) := by
  cases hdue : c.alreadyDue (clock n) with
  | false => exact hv.trans (TimerCall.le_deadline hdue)
  | true =>
    simp only [Bypasses, hdue, true_and, not_forall, not_lt] at hc
    obtain ⟨d, hd, hle⟩ := hc
    exact (hheap d hd).trans hle

/-- A call that is already due, and due before everything in the heap and in the calls that are not,
bypasses the heap. -/
theorem mem_splitCalls (hclock : Monotone clock) {calls : List (TimerCall T)} {heap : Multiset T}
    {n j : ℕ} {v : T} {b : TimerCall T} (hheap : ∀ d ∈ heap, v ≤ d) (hv : v ≤ clock n)
    (hb : calls[j]? = some b) (hdue : b.alreadyDue (clock (n + j)) = true)
    (hlt : b.deadline (clock (n + j)) < v) :
    toLex (b.deadline (clock (n + j)), n + j) ∈ (splitCalls clock heap n calls).1 := by
  induction calls generalizing heap n j with
  | nil => cases hb
  | cons c calls ih =>
    rw [splitCalls]
    have hv' : v ≤ clock (n + 1) := hv.trans (hclock (Nat.le_succ n))
    cases j with
    | zero =>
      obtain rfl := Option.some.inj hb
      rw [if_pos ⟨hdue, fun d hd => hlt.trans_le (hheap d hd)⟩]
      exact List.mem_cons_self ..
    | succ j =>
      have hnext : n + (j + 1) = n + 1 + j := by omega
      rw [hnext] at hdue hlt ⊢
      split
      · exact List.mem_cons_of_mem _ (ih hheap hv' hb hdue hlt)
      · rename_i hc
        refine ih ?_ hv' hb hdue hlt
        exact Multiset.forall_mem_cons.mpr ⟨le_deadline_of_not_bypasses hc hheap hv, hheap⟩

omit [AddLeftMono T] in
/-- What bypasses the heap is a call that is already due, made with one of the next handles. -/
theorem of_mem_splitCalls {calls : List (TimerCall T)} {heap : Multiset T} {n : ℕ} {p : T ×ₗ ℕ}
    (hp : p ∈ (splitCalls clock heap n calls).1) :
    ∃ (j : ℕ) (b : TimerCall T), calls[j]? = some b ∧ b.alreadyDue (clock (n + j)) = true ∧
      p = toLex (b.deadline (clock (n + j)), n + j) ∧ ∀ d ∈ heap, (ofLex p).1 < d := by
  induction calls generalizing heap n with
  | nil => cases hp
  | cons c calls ih =>
    rw [splitCalls] at hp
    split at hp
    · rename_i hc
      rcases List.mem_cons.mp hp with rfl | hp
      · exact ⟨0, c, rfl, hc.1, rfl, hc.2⟩
      · obtain ⟨j, b, hb, hdue, rfl, hlow⟩ := ih hp
        have hnext : n + 1 + j = n + (j + 1) := by omega
        rw [hnext] at hdue hlow ⊢
        exact ⟨j + 1, b, hb, hdue, rfl, hlow⟩
    · obtain ⟨j, b, hb, hdue, rfl, hlow⟩ := ih hp
      have hnext : n + 1 + j = n + (j + 1) := by omega
      rw [hnext] at hdue hlow ⊢
      exact ⟨j + 1, b, hb, hdue, rfl, fun d hd => hlow d (Multiset.mem_cons_of_mem hd)⟩

omit [AddLeftMono T] in
/-- The condition on the first call and the condition on the others. -/
theorem inOrder_cons_iff {heap : Multiset T} {n : ℕ} {c : TimerCall T}
    {calls : List (TimerCall T)} :
    InOrder clock heap n (c :: calls) ↔
      (Bypasses clock heap n c → ∀ (j : ℕ) (b : TimerCall T), calls[j]? = some b →
        b.alreadyDue (clock (n + 1 + j)) = true →
        c.deadline (clock n) ≤ b.deadline (clock (n + 1 + j))) ∧
      InOrder clock (if Bypasses clock heap n c then heap else c.deadline (clock n) ::ₘ heap)
        (n + 1) calls := by
  have hnext : ∀ j, n + (j + 1) = n + 1 + j := fun j => by omega
  have hheap : ∀ v, (∀ d ∈ if Bypasses clock heap n c then heap else
      c.deadline (clock n) ::ₘ heap, v < d) ↔ (∀ d ∈ heap, v < d) ∧
      (c.alreadyDue (clock n) = false → v < c.deadline (clock n)) := by
    intro v
    split
    · rename_i hc
      exact ⟨fun h => ⟨h, fun hdue => absurd (hc.1.symm.trans hdue) Bool.noConfusion⟩, And.left⟩
    · rename_i hc
      exact lt_all_cons_iff hc v
  constructor
  · refine fun h => ⟨fun hc j b hb hdue => ?_, fun i j hij a b ha hb hda hdb hlow hlate => ?_⟩
    · rw [← hnext] at hdue ⊢
      exact h 0 (j + 1) (Nat.succ_pos j) c b rfl hb hc.1 hdue hc.2 fun k hk => absurd hk (by omega)
    · obtain ⟨hlow, hhead⟩ := (hheap _).mp hlow
      rw [← hnext] at hda hlow hhead ⊢
      rw [← hnext] at hdb ⊢
      refine h (i + 1) (j + 1) (by omega) a b ha hb hda hdb hlow fun k hk x hx hdx => ?_
      cases k with
      | zero =>
        obtain rfl := Option.some.inj hx
        exact hhead hdx
      | succ k =>
        rw [hnext k] at hdx
        rw [hnext i, hnext k]
        exact hlate k (by omega) x hx hdx
  · rintro ⟨hfirst, hrest⟩ i j hij a b ha hb hda hdb hlow hlate
    cases j with
    | zero => omega
    | succ j =>
      rw [hnext] at hdb ⊢
      cases i with
      | zero =>
        obtain rfl := Option.some.inj ha
        exact hfirst ⟨hda, hlow⟩ j b hb hdb
      | succ i =>
        rw [hnext] at hda hlow ⊢
        refine hrest i j (by omega) a b ha hb hda hdb ((hheap _).mpr ⟨hlow, fun hdue => ?_⟩)
          fun k hk x hx hdx => ?_
        · have := hlate 0 (by omega) c rfl hdue
          rwa [hnext] at this
        · have := hlate (k + 1) (by omega) x hx (by rwa [hnext k])
          rwa [hnext i, hnext k] at this

/-- The calls are in order exactly if those that bypass the heap are made by deadline. -/
theorem inOrder_iff (hclock : Monotone clock) {calls : List (TimerCall T)} {heap : Multiset T}
    {n : ℕ} : InOrder clock heap n calls ↔
      (splitCalls clock heap n calls).1.Pairwise fun p q => (ofLex p).1 ≤ (ofLex q).1 := by
  induction calls generalizing heap n with
  | nil => exact ⟨fun _ => .nil, fun _ i j _ a b ha => nomatch ha⟩
  | cons c calls ih =>
    rw [inOrder_cons_iff, ih, splitCalls]
    by_cases hc : Bypasses clock heap n c
    · rw [if_pos hc, if_pos hc, List.pairwise_cons]
      refine and_congr_left fun _ => ⟨fun h p hp => ?_, fun h _ j b hb hdue => ?_⟩
      · obtain ⟨j, b, hb, hdue, rfl, -⟩ := of_mem_splitCalls hp
        exact h hc j b hb hdue
      · by_contra hlt
        have hmem := mem_splitCalls hclock (fun d hd => (hc.2 d hd).le)
          ((TimerCall.deadline_le hc.1).trans (hclock (Nat.le_succ n))) hb hdue (not_le.mp hlt)
        exact hlt (h _ hmem)
    · rw [if_neg hc, if_neg hc]
      exact and_iff_right fun hbypass => absurd hbypass hc

omit [AddLeftMono T] in
/-- Every call's timer is on one of the two sides. -/
theorem splitCalls_perm (calls : List (TimerCall T)) (heap : Multiset T) (n : ℕ) :
    ((splitCalls clock heap n calls).1 ++ (splitCalls clock heap n calls).2).Perm
      (callTimers clock n calls) := by
  induction calls generalizing heap n with
  | nil => exact .nil
  | cons c calls ih =>
    rw [splitCalls, callTimers]
    split
    · exact (ih heap (n + 1)).cons _
    · exact List.perm_middle.trans ((ih _ (n + 1)).cons _)

omit [AddLeftMono T] in
/-- The timers of the calls take the next handles. -/
theorem le_of_mem_callTimers {calls : List (TimerCall T)} {n : ℕ} {p : T ×ₗ ℕ}
    (hp : p ∈ callTimers clock n calls) : n ≤ (ofLex p).2 ∧ (ofLex p).2 < n + calls.length := by
  induction calls generalizing n with
  | nil => cases hp
  | cons c calls ih =>
    rw [List.length_cons]
    rcases List.mem_cons.mp hp with rfl | hp
    · exact ⟨le_rfl, by simp⟩
    · have := ih hp
      omega

omit [AddLeftMono T] in
theorem callTimers_nodup (calls : List (TimerCall T)) (n : ℕ) :
    ((callTimers clock n calls).map fun p => (ofLex p).2).Nodup := by
  induction calls generalizing n with
  | nil => exact .nil
  | cons c calls ih =>
    rw [callTimers, List.map_cons, List.nodup_cons]
    refine ⟨fun hmem => ?_, ih (n + 1)⟩
    obtain ⟨p, hp, heq⟩ := List.mem_map.mp hmem
    have := (le_of_mem_callTimers hp).1
    rw [heq] at this
    exact absurd this (Nat.not_succ_le_self n)

omit [AddLeftMono T] in
/-- The timers that bypass the heap do so in the order of their handles. -/
theorem splitCalls_handles (calls : List (TimerCall T)) (heap : Multiset T) (n : ℕ) :
    (splitCalls clock heap n calls).1.Pairwise fun p q => (ofLex p).2 < (ofLex q).2 := by
  induction calls generalizing heap n with
  | nil => exact .nil
  | cons c calls ih =>
    rw [splitCalls]
    split
    · refine List.pairwise_cons.mpr ⟨fun p hp => ?_, ih heap (n + 1)⟩
      have hmem := (splitCalls_perm calls heap (n + 1)).subset (List.mem_append_left _ hp)
      exact (le_of_mem_callTimers hmem).1
    · exact ih _ (n + 1)

/-- Timers that go into the heap later than time `v` are not due before `v`, if nothing in the heap
was. -/
theorem le_of_mem_splitCalls (hclock : Monotone clock) {calls : List (TimerCall T)}
    {heap : Multiset T} {n : ℕ} {v : T} (hheap : ∀ d ∈ heap, v ≤ d) (hv : v ≤ clock n)
    {p : T ×ₗ ℕ} (hp : p ∈ (splitCalls clock heap n calls).2) : v ≤ (ofLex p).1 := by
  induction calls generalizing heap n with
  | nil => cases hp
  | cons c calls ih =>
    have hv' : v ≤ clock (n + 1) := hv.trans (hclock (Nat.le_succ n))
    rw [splitCalls] at hp
    split at hp
    · exact ih hheap hv' hp
    · rename_i hc
      have hlow : v ≤ c.deadline (clock n) := le_deadline_of_not_bypasses hc hheap hv
      rcases List.mem_cons.mp hp with rfl | hp
      · exact hlow
      · exact ih (Multiset.forall_mem_cons.mpr ⟨hlow, hheap⟩) hv' hp

/-- What bypasses the heap comes before what goes into it. -/
theorem splitCalls_lt (hclock : Monotone clock) {calls : List (TimerCall T)} {heap : Multiset T}
    {n : ℕ} {p q : T ×ₗ ℕ} (hp : p ∈ (splitCalls clock heap n calls).1)
    (hq : q ∈ (splitCalls clock heap n calls).2) : p < q := by
  induction calls generalizing heap n with
  | nil => cases hp
  | cons c calls ih =>
    rw [splitCalls] at hp hq
    split at hp
    · rename_i hc
      rw [if_pos hc] at hq
      rcases List.mem_cons.mp hp with rfl | hp
      · have hle := le_of_mem_splitCalls hclock (fun d hd => (hc.2 d hd).le)
          ((TimerCall.deadline_le hc.1).trans (hclock (Nat.le_succ n))) hq
        have hmem := (splitCalls_perm calls heap (n + 1)).subset (List.mem_append_right _ hq)
        refine (Prod.Lex.lt_iff' ..).mpr ⟨hle, fun _ => ?_⟩
        exact (le_of_mem_callTimers hmem).1
      · exact ih hp hq
    · rename_i hc
      rw [if_neg hc] at hq
      rcases List.mem_cons.mp hq with rfl | hq
      · obtain ⟨-, -, -, -, -, hlow⟩ := of_mem_splitCalls hp
        exact (Prod.Lex.lt_iff ..).mpr (Or.inl (hlow _ (Multiset.mem_cons_self _ _)))
      · exact ih hp hq

end Order

/-! ## Runs -/

/-- Python code makes its calls, one after the other. -/
def makeCalls (make : TimerCall T → P T (Except Error ℕ)) : List (TimerCall T) → P T Unit
  | [] => return
  | c :: calls => do
    let _ ← make c
    makeCalls make calls

/-- A callback makes its calls, the libuv timer expires, and the ready callbacks run. -/
def episode (make : TimerCall T → P T (Except Error ℕ)) (calls : List (TimerCall T)) :
    P T Unit := do
  makeCalls make calls
  onTimer
  runReady

/-- An environment whose clock shows `clock n` while `n` handles have been created. -/
def clockEnv (clock : ℕ → T) : Env (sig T) :=
  { env True with
    answers := fun s q a => (q = Request.alloc → a.ok = true) ∧
      (q = Request.now → a.time = clock s.fresh) }

section Must

variable {M : System (sig T)} {clock : ℕ → T} {s : State T}

theorem must_getState {Q : State T → State T → Prop} (h : Q s s) :
    Must M (clockEnv clock) (getState : P T _) Q s := Must.read h

theorem must_update {f : State T → State T} {Q : Unit → State T → Prop} (h : Q () (f s)) :
    Must M (clockEnv clock) (update f) Q s := Must.modify h

theorem must_alloc {Q : Bool → State T → Prop} (h : Q true s) :
    Must M (clockEnv clock) (alloc : P T _) Q s := by
  refine Must.map (Must.request (E := clockEnv clock) ⟨⟨true, clock s.fresh, 0⟩, fun _ => rfl,
    fun _ => rfl⟩ fun b hb => ?_)
  rw [hb.1 rfl]
  exact h

theorem must_enterContext {Q : Bool → State T → Prop} (h : ∀ b, Q b s) :
    Must M (clockEnv clock) (enterContext : P T _) Q s :=
  Must.map (Must.request (E := clockEnv clock) ⟨⟨true, clock s.fresh, 0⟩, fun _ => rfl,
    fun _ => rfl⟩ fun b _ => h b.ok)

theorem must_hrtime {Q : ℕ → State T → Prop} (h : ∀ n, Q n s) :
    Must M (clockEnv clock) (hrtime : P T _) Q s :=
  Must.map (Must.request (E := clockEnv clock) ⟨⟨true, clock s.fresh, 0⟩, fun _ => rfl,
    fun _ => rfl⟩ fun b _ => h b.nanoseconds)

theorem must_now {Q : T → State T → Prop} (h : Q (clock s.fresh) (s.setClock (clock s.fresh))) :
    Must M (clockEnv clock) (now : P T _) Q s := by
  refine Must.bind (Must.request (E := clockEnv clock) ⟨⟨true, clock s.fresh, 0⟩, fun _ => rfl,
    fun _ => rfl⟩ fun b hb => Must.bind (must_update (Must.pure ?_)))
  rw [hb.2 rfl]
  exact h

theorem must_python {c : Callback} {Q : Unit → State T → Prop} (h : Q () s) :
    Must M (clockEnv clock) (python c : P T _) Q s :=
  Must.map (Must.foreign (E := clockEnv clock) ⟨Outcome.returned, trivial⟩ fun _ => h)

end Must

/-! ### What the runs keep -/

/-- A timer that will run when its turn comes. -/
def State.Awaits (s : State T) (h : ℕ) : Prop :=
  h < s.fresh ∧ (s.handles h).kind = .timer ∧ (s.handles h).cancelled = false ∧
    (s.handles h).callback = true

/-- The timers of the heap, as deadlines and handles. -/
def State.waiting (s : State T) : Multiset (T ×ₗ ℕ) :=
  s.timers.contents.map fun e => toLex (e.when, e.handle)

/-- The deadlines in the heap. -/
def State.deadlines (s : State T) : Multiset T := s.waiting.map fun p => (ofLex p).1

/-- An open loop whose heap holds live timers, numbered in the order of their registration. -/
structure Calm (s : State T) : Prop where
  /-- The loop is open. -/
  isOpen : s.closed = false
  /-- No timer of the heap has been cancelled. -/
  awaits : ∀ e ∈ s.timers.contents, s.Awaits e.handle
  /-- Handles and insertion numbers agree. -/
  registration : ∀ e ∈ s.timers.contents, ∀ e' ∈ s.timers.contents, e.seq < e'.seq →
    e.handle < e'.handle

/-- Nothing ran, and no timer was lost. -/
structure Still (s s' : State T) : Prop where
  /-- Handles stay. -/
  fresh : s.fresh ≤ s'.fresh
  /-- Nothing ran. -/
  ran : s'.ran = s.ran
  /-- Timers keep waiting. -/
  awaits : ∀ h, s.Awaits h → s'.Awaits h

theorem Still.refl (s : State T) : Still s s := ⟨le_rfl, rfl, fun _ h => h⟩

theorem Still.trans {s₁ s₂ s₃ : State T} (h₁ : Still s₁ s₂) (h₂ : Still s₂ s₃) : Still s₁ s₃ :=
  ⟨h₁.fresh.trans h₂.fresh, h₂.ran.trans h₁.ran, fun h hh => h₂.awaits h (h₁.awaits h hh)⟩

/-- An update that changes neither the handles nor what ran. -/
theorem Still.of_eq {s s' : State T} (hhandles : s'.handles = s.handles)
    (hfresh : s'.fresh = s.fresh) (hran : s'.ran = s.ran) : Still s s' :=
  ⟨hfresh.ge, hran, fun h hh => by rwa [State.Awaits, hhandles, hfresh]⟩

/-- A calm loop stays calm while its timers do, and its heap. -/
theorem Calm.of_still {s s' : State T} (h : Calm s) (hstill : Still s s')
    (hopen : s'.closed = s.closed) (htimers : s'.timers = s.timers) : Calm s' :=
  ⟨hopen.trans h.isOpen, fun e he => hstill.awaits _ (h.awaits e (htimers ▸ he)),
    htimers ▸ h.registration⟩

theorem mem_deadlines {s : State T} {e : TimerEntry T ℕ} (he : e ∈ s.timers.contents) :
    e.when ∈ s.deadlines :=
  Multiset.mem_map.mpr ⟨toLex (e.when, e.handle), Multiset.mem_map.mpr ⟨e, he, rfl⟩, rfl⟩

theorem of_mem_deadlines {s : State T} {d : T} (hd : d ∈ s.deadlines) :
    ∃ e ∈ s.timers.contents, e.when = d := by
  obtain ⟨p, hp, rfl⟩ := Multiset.mem_map.mp hd
  obtain ⟨e, he, rfl⟩ := Multiset.mem_map.mp hp
  exact ⟨e, he, rfl⟩

/-- The heap can be bypassed if every deadline in it is later. -/
theorem canBypassHeap_iff (s : State T) (when : T) :
    s.canBypassHeap when = true ↔ ∀ d ∈ s.deadlines, when < d := by
  unfold State.canBypassHeap
  cases he : s.timers.peek with
  | none =>
    refine ⟨fun _ d hd => ?_, fun _ => rfl⟩
    obtain ⟨e, hmem, -⟩ := of_mem_deadlines hd
    rw [(Timers.peek_eq_none_iff _).mp he] at hmem
    exact absurd hmem (Multiset.notMem_zero e)
  | some e =>
    refine decide_eq_true_iff.trans ⟨fun hlt d hd => ?_, fun h => ?_⟩
    · obtain ⟨x, hx, rfl⟩ := of_mem_deadlines hd
      exact hlt.trans_le (TimerEntry.when_le_of_key_le (TimerHeap.peek_le he hx))
    · exact h _ (mem_deadlines (Timers.mem_of_peek he))

/-- Creating a timer leaves the others alone. -/
theorem Still.create (s : State T) (when : T) :
    Still s (s.create .timer when) ∧ (s.create .timer when).Awaits s.fresh := by
  refine ⟨⟨Nat.le_succ _, rfl, fun h hh => ?_⟩, Nat.lt_succ_self _, ?_⟩
  · rw [State.Awaits, s.handles_create_of_lt .timer when hh.1]
    exact ⟨hh.1.trans (Nat.lt_succ_self _), hh.2⟩
  · rw [s.handles_create_self]
    exact ⟨rfl, rfl, rfl⟩

/-- A change of one handle that keeps its type, its cancellation and its callback. -/
theorem Still.setHandle (s : State T) (k : ℕ) {f : HandleRec T → HandleRec T}
    (hf : ∀ r, (f r).kind = r.kind ∧ (f r).cancelled = r.cancelled ∧
      (f r).callback = r.callback) : Still s (s.setHandle k f) := by
  refine ⟨le_rfl, rfl, fun h hh => ?_⟩
  rw [State.Awaits, s.handles_setHandle]
  split
  · rename_i hk
    rw [(hf _).1, (hf _).2.1, (hf _).2.2, ← hk]
    exact hh
  · exact hh

section Must

variable [Add T] [Zero T] [Inhabited T] {t₀ : T} {clock : ℕ → T} {s : State T}

/-- Arming the libuv timer over a heap of live timers. -/
theorem must_armTimer (hs : Calm s) {Q : Unit → State T → Prop}
    (h : ∀ s', Still s s' → Calm s' → s'.ready = s.ready → s'.waiting = s.waiting →
      s'.fresh = s.fresh → Q () s') :
    Must (system t₀) (clockEnv clock) (armTimer : P T _) Q s := by
  have hdrop : Must (system t₀) (clockEnv clock) (Prog.invoke (S := sig T) .dropCancelled)
      (fun _ s' => s' = s) s := by
    refine Must.invoke (Must.bind (must_getState ?_))
    cases he : s.timers.peek with
    | none => exact Must.pure rfl
    | some e =>
      have hlive := (hs.awaits e (Timers.mem_of_peek he)).2.2.1
      simp only [hlive, Bool.false_eq_true, ↓reduceIte]
      exact Must.pure rfl
  refine Must.bind (hdrop.mono fun _ s₁ hs₁ => ?_)
  obtain rfl : s = s₁ := hs₁.symm
  refine Must.bind (must_getState ?_)
  cases he : s.timers.peek with
  | none =>
    refine must_update ?_
    unfold State.stopTimer
    split
    · have hstill : Still s { s with uvTimer := none, timerActive := false } := .of_eq rfl rfl rfl
      exact h _ hstill (hs.of_still hstill rfl rfl) rfl rfl rfl
    · exact h s (.refl s) hs rfl rfl rfl
  | some e =>
    refine Must.bind (must_now (must_update ?_))
    have hstill : Still s ((s.setClock (clock s.fresh)).startTimer e.when) := .of_eq rfl rfl rfl
    exact h _ hstill (hs.of_still hstill rfl rfl) rfl rfl rfl

/-- What one call does. -/
structure Called (s : State T) (when : T) (bypass : Prop) (s' : State T) : Prop where
  /-- Nothing ran, and no timer was lost. -/
  still : Still s s'
  /-- The loop stays calm. -/
  calm : Calm s'
  /-- The call created one handle. -/
  fresh : s'.fresh = s.fresh + 1
  /-- It is a timer that will run. -/
  awaits : s'.Awaits s.fresh
  /-- If it bypasses the heap, it is queued. -/
  ready : bypass → s'.ready.toList = s.ready.toList ++ [s.fresh] ∧ s'.waiting = s.waiting
  /-- If not, it goes into the heap. -/
  heap : ¬ bypass → s'.ready.toList = s.ready.toList ∧
    s'.waiting = toLex (when, s.fresh) ::ₘ s.waiting

/-- A call puts a timer that is already due, and due before the whole heap, into the ready queue,
and any other into the heap. -/
theorem must_scheduleAt (hs : Calm s) (when : T) (due : Bool) :
    Must (system t₀) (clockEnv clock) (scheduleAt when due)
      (fun _ s' => Called s when (due = true ∧ ∀ d ∈ s.deadlines, when < d) s') s := by
  obtain ⟨hcreate, hnew⟩ := Still.create s when
  refine Must.bind (must_getState ?_)
  rw [if_neg (by simp [hs.isOpen])]
  refine Must.bind (Must.bind (must_alloc ?_))
  refine Must.bind (must_getState (Must.bind (must_update (Must.pure ?_))))
  refine Must.bind (must_getState ?_)
  have hbypass : (due && (s.create .timer when).canBypassHeap when) = true ↔
      due = true ∧ ∀ d ∈ s.deadlines, when < d := by
    rw [Bool.and_eq_true, canBypassHeap_iff]
    rfl
  split
  · rename_i hb
    refine Must.bind (must_update (Must.bind (must_getState (Must.bind (must_alloc ?_)))))
    obtain ⟨q, hq, hlist⟩ :=
      ((s.create .timer when).setHandle s.fresh HandleRec.markReady).pushReady_true s.fresh
    rw [hq]
    refine Must.bind (must_update (Must.pure ?_))
    have hmark : Still (s.create .timer when)
        ((s.create .timer when).setHandle s.fresh HandleRec.markReady) :=
      .setHandle _ _ fun _ => ⟨rfl, rfl, rfl⟩
    have hlast : Still ((s.create .timer when).setHandle s.fresh HandleRec.markReady)
        (((((s.create .timer when).setHandle s.fresh HandleRec.markReady).setReady q).record
          (.due s.fresh when s.clock)).setCore Core.startIdle) := by
      refine .of_eq rfl rfl ?_
      change State.ran (State.record _ _) = _
      rw [State.ran_record]
      exact List.append_nil _
    have hstill := hmark.trans hlast
    refine ⟨hcreate.trans hstill, hs.of_still (hcreate.trans hstill) ?_ rfl, rfl,
      hstill.awaits _ hnew, fun _ => ⟨?_, rfl⟩, fun hn => absurd (hbypass.mp hb) hn⟩
    · change (Core.startIdle _).closed = _
      unfold Core.startIdle
      split <;> rfl
    · change (Core.startIdle _).ready.toList = _
      rw [Core.startIdle_ready]
      exact hlist
  · rename_i hb
    refine Must.bind (must_alloc ?_)
    obtain ⟨timers, htimers, hcontents, -, -⟩ :=
      (s.create .timer when).timers.push_true when s.fresh
    rw [htimers]
    refine Must.bind (must_update (Must.bind ?_))
    have hstill : Still (s.create .timer when) ((s.create .timer when).setTimers timers) :=
      .of_eq rfl rfl rfl
    have hcalm : Calm ((s.create .timer when).setTimers timers) := by
      refine ⟨hs.isOpen, fun e he => ?_, fun e he e' he' hlt => ?_⟩
      · rw [State.setTimers, hcontents, Multiset.mem_cons] at he
        rcases he with rfl | he
        · exact hstill.awaits _ hnew
        · exact hstill.awaits _ (hcreate.awaits _ (hs.awaits e he))
      · rw [State.setTimers, hcontents, Multiset.mem_cons] at he he'
        rcases he with rfl | he <;> rcases he' with rfl | he'
        · exact absurd hlt (lt_irrefl _)
        · exact absurd hlt (Nat.lt_succ_of_le (s.timers.valid.fresh e' he')).not_gt
        · exact (hs.awaits e he).1
        · exact hs.registration e he e' he' hlt
    refine must_armTimer hcalm fun s' hstill' hcalm' hready' hwaiting' hfresh' => Must.pure ?_
    refine ⟨(hcreate.trans hstill).trans hstill', hcalm', hfresh', ?_, fun hn => ?_, fun _ => ?_⟩
    · exact hstill'.awaits _ (hstill.awaits _ hnew)
    · exact absurd (hbypass.mpr hn) hb
    · refine ⟨by rw [hready']; rfl, hwaiting'.trans ?_⟩
      change timers.contents.map _ = _
      rw [hcontents, Multiset.map_cons]
      rfl

/-- What a sequence of calls does: it queues some timers and puts the others into the heap. -/
structure CallsMade (s : State T) (count : ℕ) (queued pushed : List (T ×ₗ ℕ)) (s' : State T) :
    Prop where
  /-- Nothing ran, and no timer was lost. -/
  still : Still s s'
  /-- The loop stays calm. -/
  calm : Calm s'
  /-- Every call created one handle. -/
  fresh : s'.fresh = s.fresh + count
  /-- The timers that are queued, in order. -/
  ready : s'.ready.toList = s.ready.toList ++ queued.map fun p => (ofLex p).2
  /-- They will run. -/
  awaits : ∀ p ∈ queued, s'.Awaits (ofLex p).2
  /-- The timers in the heap. -/
  heap : s'.waiting = pushed + s.waiting

omit [Add T] [Zero T] [Inhabited T] in
/-- A call, followed by others. -/
theorem CallsMade.cons {when : T} {bypass : Prop} [Decidable bypass] {s₁ s' : State T} {count : ℕ}
    {ready heap : List (T ×ₗ ℕ)} (h₁ : Called s when bypass s₁)
    (h : CallsMade s₁ count ready heap s') :
    CallsMade s (count + 1) (if bypass then toLex (when, s.fresh) :: ready else ready)
      (if bypass then heap else toLex (when, s.fresh) :: heap) s' := by
  refine ⟨h₁.still.trans h.still, h.calm, by rw [h.fresh, h₁.fresh]; omega, ?_, ?_, ?_⟩
  · rw [h.ready]
    split
    · rename_i hb
      rw [(h₁.ready hb).1, List.map_cons, List.append_assoc]
      rfl
    · rename_i hb
      rw [(h₁.heap hb).1]
  · split
    · intro p hp
      rcases List.mem_cons.mp hp with rfl | hp
      · exact h.still.awaits _ h₁.awaits
      · exact h.awaits p hp
    · exact h.awaits
  · rw [h.heap]
    split
    · rename_i hb
      rw [(h₁.ready hb).2]
    · rename_i hb
      rw [(h₁.heap hb).2, ← Multiset.cons_coe, Multiset.cons_add, Multiset.add_cons]

/-- The calls queue the timers that bypass the heap. -/
theorem must_makeCalls (calls : List (TimerCall T)) {s : State T} (hs : Calm s) :
    Must (system t₀) (clockEnv clock) (makeCalls TimerCall.program calls)
      (fun _ s' => CallsMade s calls.length (splitCalls clock s.deadlines s.fresh calls).1
        (splitCalls clock s.deadlines s.fresh calls).2 s') s := by
  induction calls generalizing s with
  | nil =>
    refine Must.pure ⟨.refl s, hs, rfl, (List.append_nil _).symm, nofun, ?_⟩
    exact (zero_add _).symm
  | cons c calls ih =>
    have hclock : Still s (s.setClock (clock s.fresh)) := .of_eq rfl rfl rfl
    rw [makeCalls, TimerCall.program_eq]
    refine Must.bind (Must.bind (must_now ?_))
    refine (must_scheduleAt (hs.of_still hclock rfl rfl) _ _).mono fun _ s₁ hs₁ => ?_
    have hcalled : Called s (c.deadline (clock s.fresh)) (Bypasses clock s.deadlines s.fresh c)
        s₁ := ⟨hclock.trans hs₁.still, hs₁.calm, hs₁.fresh, hs₁.awaits, hs₁.ready, hs₁.heap⟩
    refine (ih hcalled.calm).mono fun _ s' hs' => ?_
    have hmade := hs'.cons hcalled
    rw [hcalled.fresh] at hmade
    have hdead : s₁.deadlines = if Bypasses clock s.deadlines s.fresh c then s.deadlines else
        c.deadline (clock s.fresh) ::ₘ s.deadlines := by
      rw [State.deadlines]
      split
      · rename_i hb
        rw [(hcalled.ready hb).2]
        rfl
      · rename_i hb
        rw [(hcalled.heap hb).2, Multiset.map_cons]
        rfl
    rw [hdead] at hmade
    rw [splitCalls]
    split
    · rename_i hb
      rwa [if_pos hb, if_pos hb, if_pos hb] at hmade
    · rename_i hb
      rwa [if_neg hb, if_neg hb, if_neg hb] at hmade

/-- If the heap is never bypassed, all timers go into it. -/
theorem must_makeCalls_pushing (calls : List (TimerCall T)) {s : State T} (hs : Calm s) :
    Must (system t₀) (clockEnv clock) (makeCalls TimerCall.pushing calls)
      (fun _ s' => CallsMade s calls.length [] (callTimers clock s.fresh calls) s') s := by
  induction calls generalizing s with
  | nil =>
    refine Must.pure ⟨.refl s, hs, rfl, (List.append_nil _).symm, nofun, ?_⟩
    exact (zero_add _).symm
  | cons c calls ih =>
    have hclock : Still s (s.setClock (clock s.fresh)) := .of_eq rfl rfl rfl
    rw [makeCalls]
    refine Must.bind (Must.bind (must_now ?_))
    refine (must_scheduleAt (hs.of_still hclock rfl rfl) _ _).mono fun _ s₁ hs₁ => ?_
    have hcalled : Called s (c.deadline (clock s.fresh)) False s₁ :=
      ⟨hclock.trans hs₁.still, hs₁.calm, hs₁.fresh, hs₁.awaits, False.elim,
        fun _ => hs₁.heap fun hb => Bool.noConfusion hb.1⟩
    refine (ih hcalled.calm).mono fun _ s' hs' => ?_
    have hmade := hs'.cons hcalled
    rw [hcalled.fresh, if_neg not_false, if_neg not_false] at hmade
    exact hmade

/-! ### Collecting -/

/-- The timers of the heap that are due at `deadline`, in order. -/
def State.dueTimers (s : State T) (deadline : T) : List (T ×ₗ ℕ) :=
  (s.waiting.filter fun p => (ofLex p).1 ≤ deadline).sort

omit [Add T] [Zero T] [Inhabited T] in
/-- The first entry comes before every other, by deadline and handle. -/
theorem Calm.peek_le (hs : Calm s) {e : TimerEntry T ℕ} (he : s.timers.peek = some e)
    {p : T ×ₗ ℕ} (hp : p ∈ s.waiting) : toLex (e.when, e.handle) ≤ p := by
  obtain ⟨x, hx, rfl⟩ := Multiset.mem_map.mp hp
  have hkey := TimerHeap.peek_le he hx
  rw [TimerEntry.key, TimerEntry.key, Prod.Lex.toLex_le_toLex] at hkey
  rw [Prod.Lex.toLex_le_toLex]
  refine hkey.imp_right fun h => ⟨h.1, ?_⟩
  rcases h.2.lt_or_eq with hlt | heq
  · exact (hs.registration e (Timers.mem_of_peek he) x hx hlt).le
  · -- two entries of a valid heap never share an insertion number
    have hsame : e = x := Multiset.inj_on_of_nodup_map s.timers.valid.distinct e
      (Timers.mem_of_peek he) x hx heq
    rw [hsame]

/-- The state after a due timer is taken. -/
def State.takeDue (s : State T) (e : TimerEntry T ℕ) : State T :=
  s.popTimer.setHandle e.handle HandleRec.clearScheduled

omit [Add T] [Zero T] [Inhabited T] in
theorem Calm.takeDue (hs : Calm s) {e : TimerEntry T ℕ} (he : s.timers.peek = some e) :
    Still s (s.takeDue e) ∧ Calm (s.takeDue e) ∧
      s.waiting = toLex (e.when, e.handle) ::ₘ (s.takeDue e).waiting := by
  have hstill : Still s (s.takeDue e) :=
    Still.trans (Still.of_eq rfl rfl rfl : Still s s.popTimer)
      (.setHandle _ _ fun _ => ⟨rfl, rfl, rfl⟩)
  have hcontents := TimerHeap.contents_pop he
  have hsub : ∀ x ∈ s.timers.pop.2.contents, x ∈ s.timers.contents := fun x hx =>
    hcontents ▸ Multiset.mem_cons_of_mem hx
  refine ⟨hstill, ⟨hs.isOpen, fun x hx => hstill.awaits _ (hs.awaits x (hsub x hx)),
    fun x hx y hy => hs.registration x (hsub x hx) y (hsub y hy)⟩, ?_⟩
  rw [State.waiting, hcontents, Multiset.map_cons]
  rfl

omit [Add T] [Zero T] [Inhabited T] in
theorem Calm.dueTimers_cons (hs : Calm s) {deadline : T} {e : TimerEntry T ℕ}
    (he : s.timers.peek = some e) (hdue : e.when ≤ deadline) :
    s.dueTimers deadline = toLex (e.when, e.handle) :: (s.takeDue e).dueTimers deadline := by
  obtain ⟨-, -, hwaiting⟩ := hs.takeDue he
  rw [State.dueTimers, hwaiting, Multiset.filter_cons_of_pos]
  · refine Multiset.sort_cons _ _ _ fun p hp => hs.peek_le he ?_
    rw [hwaiting]
    exact Multiset.mem_cons_of_mem (Multiset.mem_of_mem_filter hp)
  · exact hdue

omit [Add T] [Zero T] [Inhabited T] in
/-- Nothing is due once the first entry is not. -/
theorem Calm.dueTimers_nil (hs : Calm s) {deadline : T}
    (hlate : ∀ e, s.timers.peek = some e → deadline < e.when) : s.dueTimers deadline = [] := by
  have hnone : (s.waiting.filter fun p => (ofLex p).1 ≤ deadline) = 0 := by
    refine Multiset.filter_eq_nil.mpr fun p hp => not_le.mpr ?_
    cases he : s.timers.peek with
    | none =>
      rw [State.waiting, (Timers.peek_eq_none_iff _).mp he] at hp
      exact absurd hp (Multiset.notMem_zero p)
    | some e => exact (hlate e he).trans_le (Prod.Lex.monotone_fst _ _ (hs.peek_le he hp))
  rw [State.dueTimers, hnone]
  exact Multiset.sort_zero _

omit [Add T] [Zero T] [Inhabited T] in
/-- Starting the idle handle touches no timer. -/
theorem Calm.startIdle (hs : Calm s) :
    Still s (s.setCore Core.startIdle) ∧ Calm (s.setCore Core.startIdle) := by
  have hstill : Still s (s.setCore Core.startIdle) := .of_eq rfl rfl rfl
  refine ⟨hstill, hs.of_still hstill ?_ rfl⟩
  change (Core.startIdle _).closed = _
  unfold Core.startIdle
  split <;> rfl

/-- What collecting does. -/
structure Collected (s : State T) (deadline : T) (s' : State T) : Prop where
  /-- Nothing ran, and no timer was lost. -/
  still : Still s s'
  /-- The loop stays calm. -/
  calm : Calm s'
  /-- No handle is created. -/
  fresh : s'.fresh = s.fresh
  /-- The due timers of the heap are queued by deadline and handle. -/
  ready : s'.ready.toList = s.ready.toList ++ (s.dueTimers deadline).map fun p => (ofLex p).2

omit [Add T] [Zero T] [Inhabited T] in
/-- Collecting ends at the first timer that is not due. -/
theorem Calm.collected_nil (hs : Calm s) {deadline : T}
    (hlate : ∀ e, s.timers.peek = some e → deadline < e.when) :
    Collected s deadline (s.setCore Core.startIdle) := by
  refine ⟨hs.startIdle.1, hs.startIdle.2, rfl, ?_⟩
  change (Core.startIdle _).ready.toList = _
  rw [Core.startIdle_ready, hs.dueTimers_nil hlate]
  exact (List.append_nil _).symm

theorem must_collectDueBody (deadline : T) {s : State T} (hs : Calm s) :
    Must (system t₀) (clockEnv clock) (collectDueBody deadline)
      (fun _ s' => Collected s deadline s') s := by
  -- every round of the loop takes one timer out of the heap
  induction hlen : s.timers.len generalizing s with
  | zero =>
    have hnone : s.timers.peek = none := by
      rw [Timers.peek_eq_none_iff, ← Multiset.card_eq_zero, Timers.card_contents]
      exact hlen
    refine Must.bind (must_getState ?_)
    simp only [hnone]
    exact must_update (hs.collected_nil fun e he => by rw [hnone] at he; cases he)
  | succ n ih =>
    refine Must.bind (must_getState ?_)
    cases he : s.timers.peek with
    | none => exact must_update (hs.collected_nil fun e he' => by rw [he] at he'; cases he')
    | some e =>
      have hlive := (hs.awaits e (Timers.mem_of_peek he)).2.2.1
      dsimp only
      split
      · rename_i hlate
        refine must_update (hs.collected_nil fun e' he' => ?_)
        obtain rfl := Option.some.inj (he.symm.trans he')
        exact hlate
      · rename_i hdue
        simp only [hlive, Bool.false_eq_true, ↓reduceIte]
        refine Must.bind (must_update (Must.bind (must_getState (Must.bind (must_alloc ?_)))))
        obtain ⟨hstill, hcalm, -⟩ := hs.takeDue he
        obtain ⟨q, hq, hlist⟩ := (s.takeDue e).pushReady_true e.handle
        erw [hq]
        have hrecord : Still (s.takeDue e) (((s.takeDue e).setReady q).record
            (.due e.handle e.when (s.takeDue e).clock)) := by
          refine .of_eq rfl rfl ?_
          rw [State.ran_record]
          exact List.append_nil _
        have hcalm' := hcalm.of_still hrecord rfl rfl
        have hlen' : (((s.takeDue e).setReady q).record
            (.due e.handle e.when (s.takeDue e).clock)).timers.len = n := by
          have hcard := congrArg Multiset.card (TimerHeap.contents_pop he)
          rw [Multiset.card_cons, Timers.card_contents, hlen] at hcard
          change s.timers.pop.2.len = n
          rw [← Timers.card_contents]
          omega
        refine Must.bind (must_update (Must.invoke ((ih hcalm' hlen').mono fun _ s' hs' => ?_)))
        refine ⟨(hstill.trans hrecord).trans hs'.still, hs'.calm, hs'.fresh, ?_⟩
        rw [hs'.ready, hs.dueTimers_cons he (not_lt.mp hdue)]
        change q.toList ++ _ = _
        rw [hlist, List.append_assoc]
        rfl

/-- The libuv timer expires at the time the clock shows. -/
theorem must_onTimer (hs : Calm s) :
    Must (system t₀) (clockEnv clock) (onTimer : P T _)
      (fun _ s' => Collected s (clock s.fresh) s') s := by
  have hstill : Still s (s.expireTimer.setClock (clock s.fresh)) := .of_eq rfl rfl rfl
  refine Must.bind (must_update (Must.bind (Must.bind (must_now (Must.invoke ?_)))))
  refine (must_collectDueBody _ (hs.of_still hstill rfl rfl)).mono fun _ s₁ hs₁ => ?_
  refine must_armTimer hs₁.calm fun s₂ hstill₂ hcalm₂ hready₂ _ hfresh₂ => ?_
  exact ⟨(hstill.trans hs₁.still).trans hstill₂, hcalm₂, hfresh₂.trans hs₁.fresh,
    by rw [hready₂]; exact hs₁.ready⟩

/-! ### Running -/

/-- A step that concerns no timer but `h`, and runs nothing. -/
structure Aside (h : ℕ) (s s' : State T) : Prop where
  /-- The ready queue stays. -/
  ready : s'.ready = s.ready
  /-- Nothing ran. -/
  ran : s'.ran = s.ran
  /-- The other timers keep waiting. -/
  awaits : ∀ k ≠ h, s.Awaits k → s'.Awaits k

omit [Add T] [Zero T] [Inhabited T] in
theorem Aside.refl (h : ℕ) (s : State T) : Aside h s s := ⟨rfl, rfl, fun _ _ hk => hk⟩

omit [Add T] [Zero T] [Inhabited T] in
theorem Aside.trans {h : ℕ} {s₁ s₂ s₃ : State T} (h₁ : Aside h s₁ s₂) (h₂ : Aside h s₂ s₃) :
    Aside h s₁ s₃ :=
  ⟨h₂.ready.trans h₁.ready, h₂.ran.trans h₁.ran,
    fun k hk hw => h₂.awaits k hk (h₁.awaits k hk hw)⟩

omit [Add T] [Zero T] [Inhabited T] in
theorem Aside.setHandle (h : ℕ) (s : State T) (f : HandleRec T → HandleRec T) :
    Aside h s (s.setHandle h f) := by
  refine ⟨rfl, rfl, fun k hk hw => ?_⟩
  rw [State.Awaits, s.handles_setHandle_of_ne f hk]
  exact hw

omit [Add T] [Zero T] [Inhabited T] in
theorem Aside.setCore (h : ℕ) (s : State T) {f : Core ℕ → Core ℕ}
    (hready : (f s.toCore).ready = s.ready) : Aside h s (s.setCore f) :=
  ⟨hready, rfl, fun _ _ hw => hw⟩

theorem must_clearCallback (h : ℕ) :
    Must (system t₀) (clockEnv clock) (clearCallback h) (fun _ s' => Aside h s s') s :=
  Must.bind (must_python (Must.bind (must_update (must_python (.setHandle h s _)))))

theorem must_finishRun (h : ℕ) :
    Must (system t₀) (clockEnv clock) (finishRun h) (fun _ s' => Aside h s s') s := by
  have hmark := Aside.setHandle h s (HandleRec.setRunning false)
  refine Must.bind (must_update (Must.bind (must_getState ?_)))
  split
  · exact (must_clearCallback h).mono fun _ s' hs' => hmark.trans hs'
  · exact Must.pure hmark

theorem must_callbackFailed (h : ℕ) (o : Outcome) :
    Must (system t₀) (clockEnv clock) (callbackFailed o) (fun _ s' => Aside h s s') s := by
  cases o with
  | returned => exact must_python (.refl h s)
  | raised => exact must_python (.refl h s)
  | exit => exact must_update (.setCore h s rfl)

/-- Running a callback records it. -/
theorem must_invoke (h : ℕ) :
    Must (system t₀) (clockEnv clock) (invoke h)
      (fun _ s' => Aside h (s.record (.ran h)) s') s := by
  refine Must.bind (must_update (Must.bind (must_enterContext fun entered => ?_)))
  split
  · refine Must.bind (Must.foreign (E := clockEnv clock) ⟨Outcome.returned, trivial⟩ fun r => ?_)
    cases r with
    | returned => exact Must.pure (.refl h _)
    | raised => exact must_callbackFailed h .raised
    | exit => exact must_callbackFailed h .exit
  · exact must_callbackFailed h .raised

/-- A handle that is taken off the ready queue runs at most once, and a timer that waits for its
turn does run. -/
structure RanOnce (h : ℕ) (s s' : State T) : Prop where
  /-- It ran once or not at all. -/
  once : Aside h s s' ∨ Aside h (s.record (.ran h)) s'
  /-- It ran if it was waiting. -/
  runs : s.Awaits h → Aside h (s.record (.ran h)) s'

omit [Add T] [Zero T] [Inhabited T] in
theorem RanOnce.of_ran {h : ℕ} {s' : State T} (hran : Aside h (s.record (.ran h)) s') :
    RanOnce h s s' := ⟨Or.inr hran, fun _ => hran⟩

theorem must_runHandle (h : ℕ) (hkind : (s.handles h).kind ≠ .timer) :
    Must (system t₀) (clockEnv clock) (runHandle h) (fun _ s' => RanOnce h s s') s := by
  have hmark := Aside.setHandle h (s.record (.ran h)) (HandleRec.setRunning true)
  refine Must.bind (must_getState ?_)
  split
  · exact Must.pure ⟨Or.inl (.refl h s), fun hw => absurd hw.2.1 hkind⟩
  · refine Must.bind (must_update (Must.bind (must_alloc ?_)))
    refine Must.bind ((must_invoke h).mono fun _ s₁ hs₁ => ?_)
    exact (must_finishRun h).mono fun _ s₂ hs₂ => .of_ran ((hmark.trans hs₁).trans hs₂)

theorem must_runTimer (h : ℕ) :
    Must (system t₀) (clockEnv clock) (runTimer h) (fun _ s' => RanOnce h s s') s := by
  have hmark := Aside.setHandle h (s.record (.ran h)) (HandleRec.setRunning true)
  refine Must.bind (must_getState ?_)
  split
  · rename_i hskip
    refine Must.pure ⟨Or.inl (.refl h s), fun hw => ?_⟩
    rw [hw.2.2.1, hw.2.2.2] at hskip
    cases hskip
  · refine Must.bind (must_update ?_)
    refine Must.bind ((must_invoke h).mono fun _ s₁ hs₁ => ?_)
    exact (must_finishRun h).mono fun _ s₂ hs₂ => .of_ran ((hmark.trans hs₁).trans hs₂)

theorem must_runThreadsafe (h : ℕ) (hkind : (s.handles h).kind ≠ .timer) :
    Must (system t₀) (clockEnv clock) (runThreadsafe h) (fun _ s' => RanOnce h s s') s := by
  have hskip : ∀ {s'}, Aside h s s' → RanOnce h s s' := fun haside =>
    ⟨Or.inl haside, fun hw => absurd hw.2.1 hkind⟩
  have hmark := Aside.setHandle h (s.record (.ran h)) (HandleRec.setRunState .running)
  refine Must.bind (must_getState ?_)
  split
  · exact Must.pure (hskip (.refl h s))
  refine Must.bind (must_update ?_)
  split
  · exact Must.bind (must_update (Must.pure
      (hskip ((Aside.setHandle h s _).trans (.setCore h _ rfl)))))
  refine Must.bind (must_alloc (Must.bind ((must_invoke h).mono fun _ s₁ hs₁ => ?_)))
  have hdone := (hmark.trans hs₁).trans (.setHandle h s₁ (HandleRec.setRunState .done))
  refine Must.bind (must_update (Must.bind (must_getState ?_)))
  split
  · exact Must.bind (must_update (Must.bind (must_python (must_python
      (.of_ran (hdone.trans (.setHandle h _ _)))))))
  · exact Must.pure (.of_ran hdone)

theorem must_runOne (h : ℕ) :
    Must (system t₀) (clockEnv clock) (runOne h) (fun _ s' => RanOnce h s s') s := by
  refine Must.bind (must_getState ?_)
  cases hkind : (s.handles h).kind with
  | soon => exact must_runHandle h (by rw [hkind]; decide)
  | native => exact must_runHandle h (by rw [hkind]; decide)
  | threadsafe => exact must_runThreadsafe h (by rw [hkind]; decide)
  | timer =>
    refine Must.bind (must_update ((must_runTimer h).mono fun _ s' hs' => ?_))
    have hclear := Aside.setHandle h s HandleRec.clearScheduled
    have hclear' := Aside.setHandle h (s.record (.ran h)) HandleRec.clearScheduled
    refine ⟨hs'.once.imp hclear.trans hclear'.trans, fun hw => hclear'.trans (hs'.runs ?_)⟩
    have hstill : Still s (s.setHandle h HandleRec.clearScheduled) :=
      .setHandle s h fun _ => ⟨rfl, rfl, rfl⟩
    exact hstill.awaits h hw

theorem must_runTimed (h : ℕ) :
    Must (system t₀) (clockEnv clock) (runTimed h) (fun _ s' => RanOnce h s s') s := by
  refine Must.bind (must_getState ?_)
  cases s.slowCallbackDuration with
  | none => exact must_runOne h
  | some duration =>
    dsimp only
    split
    · refine Must.bind (must_hrtime fun started => ?_)
      refine Must.bind ((must_runOne h).mono fun _ s' hs' => ?_)
      refine Must.bind (must_hrtime fun ended => ?_)
      split
      · exact must_python hs'
      · exact Must.pure hs'
    · exact must_runOne h

omit [Add T] [Zero T] [Inhabited T] in
/-- What one run adds to the handles that ran, among those in `due`. -/
theorem RanOnce.ran {h : ℕ} {s' : State T} (hr : RanOnce h s s') (due : List ℕ)
    (hw : h ∈ due → s.Awaits h) :
    ∃ l, s'.ran = s.ran ++ l ∧ l.filter (· ∈ due) = [h].filter (· ∈ due) := by
  have hrecord : (s.record (.ran h)).ran = s.ran ++ [h] := s.ran_record _
  by_cases hmem : h ∈ due
  · exact ⟨[h], (hr.runs (hw hmem)).ran.trans hrecord, rfl⟩
  · rcases hr.once with hskip | hran
    · exact ⟨[], by rw [hskip.ran, List.append_nil], by simp [hmem]⟩
    · exact ⟨[h], hran.ran.trans hrecord, rfl⟩

/-- The ready queue runs in order, as far as waiting timers are concerned. -/
theorem must_runReadyLoop (due : List ℕ) (remaining : ℕ) {s : State T}
    (hlen : s.ready.toList.length ≤ remaining)
    (hw : ∀ h ∈ due, h ∈ s.ready.toList → s.Awaits h)
    (hnodup : (s.ready.toList.filter (· ∈ due)).Nodup) :
    Must (system t₀) (clockEnv clock) (runReadyLoop remaining) (fun _ s' => ∃ l,
      s'.ran = s.ran ++ l ∧ l.filter (· ∈ due) = s.ready.toList.filter (· ∈ due)) s := by
  induction remaining generalizing s with
  | zero =>
    rw [List.length_eq_zero_iff.mp (Nat.le_zero.mp hlen)]
    exact Must.pure ⟨[], (List.append_nil _).symm, rfl⟩
  | succ remaining ih =>
    refine Must.bind (must_getState ?_)
    have hfst := s.ready.pop_fst
    have hsnd := s.ready.toList_pop
    rcases hpop : s.ready.pop with ⟨h?, q⟩
    rw [hpop] at hfst hsnd
    cases h? with
    | none =>
      rw [List.head?_eq_none_iff.mp hfst.symm]
      exact Must.pure ⟨[], (List.append_nil _).symm, rfl⟩
    | some h =>
      have hq : s.ready.toList = h :: q.toList := by
        rw [show q.toList = s.ready.toList.tail from hsnd]
        exact (List.cons_head?_tail hfst.symm).symm
      rw [hq] at hlen hw hnodup ⊢
      dsimp only
      refine Must.bind (must_update (Must.bind ((must_runTimed h).mono fun _ s₁ hs₁ => ?_)))
      refine Must.bind (must_python ?_)
      obtain ⟨l₁, hran₁, hl₁⟩ := hs₁.ran due fun hmem => hw h hmem (List.mem_cons_self ..)
      have hready₁ : s₁.ready = q := by
        rcases hs₁.once with haside | haside
        · exact haside.ready
        · exact haside.ready
      have hawaits₁ : ∀ k ≠ h, s.Awaits k → s₁.Awaits k := by
        rcases hs₁.once with haside | haside
        · exact haside.awaits
        · exact haside.awaits
      refine (ih ?_ ?_ ?_).mono fun _ s' hs' => ?_
      · rw [hready₁]
        exact Nat.le_of_succ_le_succ hlen
      · intro k hk hmem
        rw [hready₁] at hmem
        refine hawaits₁ k (fun heq => ?_) (hw k hk (List.mem_cons_of_mem h hmem))
        -- a due timer is in the queue once
        subst heq
        rw [List.filter_cons_of_pos (by simpa using hk), List.nodup_cons] at hnodup
        exact hnodup.1 (List.mem_filter.mpr ⟨hmem, by simpa using hk⟩)
      · rw [hready₁]
        exact hnodup.sublist ((List.sublist_cons_self h _).filter _)
      · obtain ⟨l, hran, hl⟩ := hs'
        refine ⟨l₁ ++ l, ?_, ?_⟩
        · rw [hran, hran₁, List.append_assoc]
          rfl
        · rw [List.filter_append, hl₁, hl, hready₁, ← List.filter_append]
          rfl

end Must

/-! ## The order of the due timers -/

omit [LinearOrder T] in
/-- Lists of timers with the same handles in the same order are the same, if they have the same
timers and no handle occurs twice. -/
theorem eq_of_map_handle_eq {l₁ l₂ : List (T ×ₗ ℕ)} (hperm : l₁.Perm l₂)
    (hnodup : (l₁.map fun p => (ofLex p).2).Nodup)
    (heq : (l₁.map fun p => (ofLex p).2) = l₂.map fun p => (ofLex p).2) : l₁ = l₂ := by
  refine List.ext_getElem hperm.length_eq fun i h₁ h₂ => ?_
  have hsame : (ofLex l₁[i]).2 = (ofLex l₂[i]).2 := by
    have := List.getElem_of_eq heq (by simpa using h₁)
    simpa using this
  exact List.inj_on_of_nodup_map hnodup (List.getElem_mem h₁)
    (hperm.symm.subset (List.getElem_mem h₂)) hsame

section Order

variable [AddZeroClass T]

/-- The timers of the heap and of the calls that are due when the libuv timer expires. -/
def allDue (clock : ℕ → T) (s : State T) (calls : List (TimerCall T)) : Multiset (T ×ₗ ℕ) :=
  (s.waiting + callTimers clock s.fresh calls).filter fun p =>
    (ofLex p).1 ≤ clock (s.fresh + calls.length)

/-- Their handles, by deadline and then by registration. -/
def dueOrder (clock : ℕ → T) (s : State T) (calls : List (TimerCall T)) : List ℕ :=
  (allDue clock s calls).sort.map fun p => (ofLex p).2

/-- The due timers that ran since `s`, in the order they did. -/
def dueRan (clock : ℕ → T) (s : State T) (calls : List (TimerCall T)) (s' : State T) : List ℕ :=
  (s'.ran.drop s.ran.length).filter (· ∈ dueOrder clock s calls)

theorem mem_dueOrder {clock : ℕ → T} {s : State T} {calls : List (TimerCall T)} {h : ℕ} :
    h ∈ dueOrder clock s calls ↔ ∃ p ∈ allDue clock s calls, (ofLex p).2 = h := by
  rw [dueOrder, List.mem_map]
  simp only [Multiset.mem_sort]

/-- A calm loop whose ready queue holds none of the timers of the heap, and no handle twice in the
heap. -/
structure Settled (s : State T) : Prop extends Calm s where
  /-- No timer is in the heap twice. -/
  nodup : (s.waiting.map fun p => (ofLex p).2).Nodup
  /-- The ready queue holds existing handles, and none of the heap. -/
  apart : ∀ h ∈ s.ready.toList, h < s.fresh ∧ ∀ p ∈ s.waiting, (ofLex p).2 ≠ h

variable {clock : ℕ → T} {s : State T} {calls : List (TimerCall T)}

/-- No handle is due twice. -/
theorem Settled.allDue_nodup (hs : Settled s) :
    ((allDue clock s calls).map fun p => (ofLex p).2).Nodup := by
  refine Multiset.nodup_of_le (Multiset.map_le_map (Multiset.filter_le _ _)) ?_
  rw [Multiset.map_add, Multiset.nodup_add]
  refine ⟨hs.nodup, callTimers_nodup calls s.fresh, ?_⟩
  rw [Multiset.disjoint_left]
  intro h hheap hcall
  obtain ⟨p, hp, rfl⟩ := Multiset.mem_map.mp hheap
  obtain ⟨q, hq, heq⟩ := Multiset.mem_map.mp hcall
  obtain ⟨e, he, rfl⟩ := Multiset.mem_map.mp hp
  have hlt := (hs.awaits e he).1
  have hge := (le_of_mem_callTimers (Multiset.mem_coe.mp hq)).1
  rw [heq] at hge
  exact absurd hlt hge.not_gt

/-- None of the due timers is in the ready queue yet. -/
theorem Settled.ready_filter (hs : Settled s) :
    s.ready.toList.filter (· ∈ dueOrder clock s calls) = [] := by
  refine List.filter_eq_nil_iff.mpr fun h hh hmem => ?_
  obtain ⟨p, hp, rfl⟩ := mem_dueOrder.mp (of_decide_eq_true hmem)
  obtain ⟨hlt, hnot⟩ := hs.apart _ hh
  rcases Multiset.mem_add.mp (Multiset.mem_of_mem_filter hp) with hp | hp
  · exact hnot p hp rfl
  · exact absurd hlt (le_of_mem_callTimers (Multiset.mem_coe.mp hp)).1.not_gt

/-- Once the calls are made, the timer expires and the ready queue runs, the due timers have run:
first those that were queued, then those of the heap. -/
theorem must_episode [Inhabited T] {t₀ : T} (hs : Settled s)
    {make : TimerCall T → P T (Except Error ℕ)} {queued pushed : List (T ×ₗ ℕ)}
    (hperm : (queued ++ pushed).Perm (callTimers clock s.fresh calls))
    (hdue : ∀ p ∈ queued, (ofLex p).1 ≤ clock (s.fresh + calls.length))
    (hmake : Must (system t₀) (clockEnv clock) (makeCalls make calls)
      (fun _ s' => CallsMade s calls.length queued pushed s') s) :
    Must (system t₀) (clockEnv clock) (episode make calls) (fun _ s' => ∃ heap : List (T ×ₗ ℕ),
      ((queued ++ heap : List (T ×ₗ ℕ)) : Multiset (T ×ₗ ℕ)) = allDue clock s calls ∧
        heap = (((pushed : Multiset (T ×ₗ ℕ)) + s.waiting).filter fun p =>
          (ofLex p).1 ≤ clock (s.fresh + calls.length)).sort ∧
        dueRan clock s calls s' = (queued ++ heap).map fun p => (ofLex p).2) s := by
  refine Must.bind (hmake.mono fun _ s₁ hs₁ => Must.bind ((must_onTimer hs₁.calm).mono
    fun _ s₂ hs₂ => ?_))
  have hheap : s₁.dueTimers (clock s₁.fresh) = (((pushed : Multiset (T ×ₗ ℕ)) +
      s.waiting).filter fun p => (ofLex p).1 ≤ clock (s.fresh + calls.length)).sort := by
    rw [State.dueTimers, hs₁.heap, hs₁.fresh]
  have hall : ((queued ++ s₁.dueTimers (clock s₁.fresh) : List (T ×ₗ ℕ)) : Multiset (T ×ₗ ℕ)) =
      allDue clock s calls := by
    have hqueued : ((queued : Multiset (T ×ₗ ℕ)).filter fun p =>
        (ofLex p).1 ≤ clock (s.fresh + calls.length)) = queued := Multiset.filter_eq_self.mpr hdue
    rw [hheap, ← Multiset.coe_add, Multiset.sort_eq, allDue, ← Multiset.coe_eq_coe.mpr hperm,
      ← Multiset.coe_add, add_comm s.waiting, add_assoc,
      Multiset.filter_add _ (queued : Multiset (T ×ₗ ℕ)), hqueued]
  have hmem : ∀ h, h ∈ dueOrder clock s calls ↔
      h ∈ (queued ++ s₁.dueTimers (clock s₁.fresh)).map fun p => (ofLex p).2 := by
    intro h
    rw [mem_dueOrder, List.mem_map, ← hall]
    simp only [Multiset.mem_coe]
  have hready : s₂.ready.toList.filter (· ∈ dueOrder clock s calls) =
      (queued ++ s₁.dueTimers (clock s₁.fresh)).map fun p => (ofLex p).2 := by
    rw [hs₂.ready, hs₁.ready, List.append_assoc, ← List.map_append, List.filter_append,
      hs.ready_filter, List.nil_append]
    exact List.filter_eq_self.mpr fun h hh => decide_eq_true ((hmem h).mpr hh)
  have hawaits : ∀ h ∈ dueOrder clock s calls, s₂.Awaits h := by
    intro h hh
    obtain ⟨p, hp, rfl⟩ := List.mem_map.mp ((hmem h).mp hh)
    rcases List.mem_append.mp hp with hp | hp
    · exact hs₂.still.awaits _ (hs₁.awaits p hp)
    · rw [State.dueTimers, Multiset.mem_sort] at hp
      obtain ⟨e, he, rfl⟩ := Multiset.mem_map.mp (Multiset.mem_of_mem_filter hp)
      exact hs₂.still.awaits _ (hs₁.calm.awaits e he)
  have hnodup : (s₂.ready.toList.filter (· ∈ dueOrder clock s calls)).Nodup := by
    rw [hready, ← Multiset.coe_nodup, ← Multiset.map_coe, hall]
    exact hs.allDue_nodup
  refine Must.bind (must_getState (Must.bind (must_update ?_)))
  refine (must_runReadyLoop (dueOrder clock s calls) s₂.ready.len (s := s₂.countBatch)
    (le_of_eq (Queue.length_toList _)) (fun h hh _ => hawaits h hh) hnodup).mono fun _ s' hs' => ?_
  obtain ⟨l, hran, hl⟩ := hs'
  refine ⟨s₁.dueTimers (clock s₁.fresh), hall, hheap, ?_⟩
  have hold : s₂.countBatch.ran = s.ran := hs₂.still.ran.trans hs₁.still.ran
  rw [dueRan, hran, hold, List.drop_left]
  exact hl.trans hready

/-- Without the bypass, the due timers run by deadline and then by registration. -/
theorem must_episode_pushing [Inhabited T] (t₀ : T) (hs : Settled s) (clock : ℕ → T)
    (calls : List (TimerCall T)) :
    Must (system t₀) (clockEnv clock) (episode TimerCall.pushing calls)
      (fun _ s' => dueRan clock s calls s' = dueOrder clock s calls) s := by
  refine (must_episode hs (.refl _) (by simp) (must_makeCalls_pushing calls hs.toCalm)).mono
    fun _ s' hs' => ?_
  obtain ⟨heap, -, rfl, hran⟩ := hs'
  rw [hran, dueOrder, allDue, add_comm s.waiting]
  rfl

/-- What bypasses the heap is due. -/
theorem due_of_mem_splitCalls (hclock : Monotone clock) {heap : Multiset T} {n : ℕ} {p : T ×ₗ ℕ}
    (hp : p ∈ (splitCalls clock heap n calls).1) : (ofLex p).1 ≤ clock (n + calls.length) := by
  obtain ⟨j, b, hb, hdue, rfl, -⟩ := of_mem_splitCalls hp
  have hj : j < calls.length := (List.getElem?_eq_some_iff.mp hb).1
  exact (TimerCall.deadline_le hdue).trans (hclock (by omega))

/-- With the bypass, they do so exactly if the calls that bypass the heap are made by deadline. -/
theorem must_episode_program [AddLeftMono T] [Inhabited T] (t₀ : T) (hs : Settled s)
    {clock : ℕ → T} (hclock : Monotone clock) (calls : List (TimerCall T)) :
    Must (system t₀) (clockEnv clock) (episode TimerCall.program calls) (fun _ s' =>
      dueRan clock s calls s' = dueOrder clock s calls ↔ InOrder clock s.deadlines s.fresh calls)
      s := by
  refine (must_episode hs (splitCalls_perm calls s.deadlines s.fresh)
    (fun p hp => due_of_mem_splitCalls hclock hp) (must_makeCalls calls hs.toCalm)).mono
    fun _ s' hs' => ?_
  obtain ⟨heap, hall, hheap, hran⟩ := hs'
  rw [hran, inOrder_iff hclock, dueOrder]
  have hperm := Multiset.coe_eq_coe.mp
    (hall.trans (Multiset.sort_eq (allDue clock s calls) (· ≤ ·)).symm)
  have hsorted : (allDue clock s calls).sort.Pairwise (· ≤ ·) := Multiset.pairwise_sort _ _
  constructor
  · intro heq
    have hnodup : (((splitCalls clock s.deadlines s.fresh calls).1 ++ heap).map
        fun p => (ofLex p).2).Nodup := by
      rw [← Multiset.coe_nodup, ← Multiset.map_coe, hall]
      exact hs.allDue_nodup
    rw [← eq_of_map_handle_eq hperm hnodup heq, List.pairwise_append] at hsorted
    exact hsorted.1.imp fun hle => Prod.Lex.monotone_fst _ _ hle
  · intro hfst
    -- both lists are sorted, so they are the same
    refine congrArg _ (hperm.eq_of_pairwise' ?_ hsorted)
    refine List.pairwise_append.mpr ⟨?_, hheap ▸ Multiset.pairwise_sort _ _, fun p hp q hq => ?_⟩
    · refine (hfst.and (splitCalls_handles calls s.deadlines s.fresh)).imp fun hpq => ?_
      exact (Prod.Lex.le_iff' ..).mpr ⟨hpq.1, fun _ => hpq.2.le⟩
    · rw [hheap, Multiset.mem_sort] at hq
      rcases Multiset.mem_add.mp (Multiset.mem_of_mem_filter hq) with hq | hq
      · exact (splitCalls_lt hclock hp hq).le
      · obtain ⟨-, -, -, -, -, hlow⟩ := of_mem_splitCalls hp
        exact ((Prod.Lex.lt_iff ..).mpr (Or.inl (hlow _ (Multiset.mem_map_of_mem _ hq)))).le

/-- Whenever Python code that may call the loop is in control, and no timer of the heap is
cancelled, the loop is settled. -/
theorem settled_of_reachable [Inhabited T] (t₀ : T)
    {stack : List (Callback × (Outcome → P T Unit))}
    (h : (system t₀).Reachable (env True) ⟨s, none, stack⟩)
    (hpython : stack.head?.map Prod.fst ≠ some .finalizer) (hopen : s.closed = false)
    (hlive : ∀ e ∈ s.timers.contents, (s.handles e.handle).cancelled = false) : Settled s := by
  have hloud : ¬ QuietTop (env True) stack := by
    cases stack with
    | nil => exact id
    | cons top rest =>
      exact fun hq => hq [] (State.init t₀) .callSoon ⟨trivial, fun _ htop => hpython htop⟩
  have hlife : TimerLife s := ((TimerLife.verified t₀).sound h).1 hloud
  have horder : Ordered s := ((Order.verified t₀).sound h).1 hloud
  have hwaiting : (s.waiting.map fun p => (ofLex p).2) =
      s.timers.contents.map TimerEntry.handle := Multiset.map_map _ _ _
  refine ⟨⟨hopen, fun e he => ?_, hlife.heap.registration⟩, hwaiting ▸ hlife.heap.nodup,
    fun k hk => ⟨hlife.places.ready k hk, ?_⟩⟩
  · obtain ⟨hlt, hkind, -⟩ := hlife.heap.entries e he
    exact ⟨hlt, hkind, hlive e he, horder.callback _ hlt (hlive e he)⟩
  · rintro p hp rfl
    obtain ⟨e, he, rfl⟩ := Multiset.mem_map.mp hp
    obtain ⟨hlt, hkind, -⟩ := hlife.heap.entries e he
    have hin := (hlife.heap.flag e.handle hlt hkind).mpr (Multiset.mem_map_of_mem _ he)
    have honce := hlife.places.once e.handle hlt hkind
    have hpos : 0 < s.ready.toList.count e.handle := List.count_pos_iff.mpr hk
    rw [hin, Bool.toNat_true] at honce
    omega

end Order

/-- A callback makes timer calls while the heap holds live timers. If the heap were never bypassed,
the timers of the heap and of the calls that are due would run by deadline and then by
registration. They do so exactly if the calls that are already due, before every deadline of the
heap and before every earlier call that is not yet due, are made in the order of their deadlines. -/
theorem bypass_agrees_iff [AddZeroClass T] [AddLeftMono T] [Inhabited T] (t₀ : T) {s : State T}
    {stack : List (Callback × (Outcome → P T Unit))}
    (h : (system t₀).Reachable (env True) ⟨s, none, stack⟩)
    (hpython : stack.head?.map Prod.fst ≠ some .finalizer) (hopen : s.closed = false)
    (hlive : ∀ e ∈ s.timers.contents, (s.handles e.handle).cancelled = false)
    (clock : ℕ → T) (hclock : Monotone clock) (calls : List (TimerCall T)) :
    (∃ s', Exec (system t₀) (clockEnv clock) (episode TimerCall.pushing calls) s () s') ∧
      (∀ s', Exec (system t₀) (clockEnv clock) (episode TimerCall.pushing calls) s () s' →
        dueRan clock s calls s' = dueOrder clock s calls) ∧
      (∃ s', Exec (system t₀) (clockEnv clock) (episode TimerCall.program calls) s () s') ∧
      ∀ s', Exec (system t₀) (clockEnv clock) (episode TimerCall.program calls) s () s' →
        (dueRan clock s calls s' = dueOrder clock s calls ↔
          InOrder clock s.deadlines s.fresh calls) := by
  have hs := settled_of_reachable t₀ h hpython hopen hlive
  have hpushing := must_episode_pushing t₀ hs clock calls
  have hprogram := must_episode_program t₀ hs hclock calls
  refine ⟨?_, fun s' => hpushing.exec, ?_, fun s' => hprogram.exec⟩
  · obtain ⟨_, s', hexec, -⟩ := hpushing.can
    exact ⟨s', hexec⟩
  · obtain ⟨_, s', hexec, -⟩ := hprogram.can
    exact ⟨s', hexec⟩

/-- On a new loop at time 10, timers for 3 and 5 that are scheduled in this order run so. -/
theorem bypass_agrees_iff_ascending :
    ∃ s' : State ℕ, Exec (system 10) (clockEnv fun _ => 10)
        (episode TimerCall.program [.atTime 3, .atTime 5]) (State.init 10) () s' ∧
      dueRan (fun _ => 10) (State.init 10) [.atTime 3, .atTime 5] s' =
        dueOrder (fun _ => 10) (State.init 10) [.atTime 3, .atTime 5] := by
  have hempty : (State.init 10 : State ℕ).timers.contents = 0 := TimerHeap.contents_empty
  obtain ⟨-, -, ⟨s', hexec⟩, hiff⟩ := bypass_agrees_iff 10 System.Reachable.initial nofun rfl
    (fun e he => absurd (hempty ▸ he) (Multiset.notMem_zero e)) (fun _ => 10) monotone_const
    [.atTime 3, .atTime 5]
  exact ⟨s', hexec, (hiff s' hexec).mpr ((inOrder_iff monotone_const).mpr (by decide))⟩

/-- Timers for 5 and 3 that are scheduled in this order run so as well, though the second one is due
first. -/
theorem bypass_ignores_deadline :
    ∃ s' : State ℕ, Exec (system 10) (clockEnv fun _ => 10)
        (episode TimerCall.program [.atTime 5, .atTime 3]) (State.init 10) () s' ∧
      dueRan (fun _ => 10) (State.init 10) [.atTime 5, .atTime 3] s' ≠
        dueOrder (fun _ => 10) (State.init 10) [.atTime 5, .atTime 3] := by
  have hempty : (State.init 10 : State ℕ).timers.contents = 0 := TimerHeap.contents_empty
  have hs : Settled (State.init 10 : State ℕ) := settled_of_reachable 10
    System.Reachable.initial nofun rfl fun e he => absurd (hempty ▸ he) (Multiset.notMem_zero e)
  obtain ⟨_, s', hexec, hiff⟩ := (must_episode_program 10 hs (monotone_const : Monotone fun _ => 10)
    [.atTime 5, .atTime 3]).can
  refine ⟨s', hexec, fun heq => ?_⟩
  have hsorted := (inOrder_iff monotone_const).mp (hiff.mp heq)
  exact absurd hsorted (by decide)

end Zuvloop.Loop
