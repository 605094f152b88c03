import Zuvloop.Reentrant.Prog

/-!
# The machine that runs reentrant programs

A configuration is the state, the native program that is running, if any, and the stack of native
programs suspended in a call into foreign code. When no native program runs, foreign code is in
control: it may start an entry point, which runs on top of the stack, or return to the innermost
suspended program. An empty stack is the top level, where nothing native is in progress.

`System.Reachable` is every configuration an environment can drive a system to. `Verified` collects
what has to be proved of a system, one weakest precondition for each entry point and each
procedure, and `Verified.sound` turns it into a statement about every reachable configuration:
whenever foreign code is in control the invariant holds, and at the top level the state is also
related to the initial one, since every entry point that has returned respected the rely relation.
-/

namespace Reentrant

variable {S : Signature}

/-- A configuration of the machine. -/
structure Config (S : Signature) where
  /-- The state of the native code. -/
  state : S.State
  /-- The native program that is running; `none` while foreign code is in control. -/
  running : Option (Prog S Unit)
  /-- The native programs suspended in a call into foreign code, innermost first. -/
  stack : List (S.Callback × (S.Result → Prog S Unit))

/-- What happens next. -/
inductive Label (S : Signature) where
  /-- The running program takes a step of its own. -/
  | tau
  /-- The question of the running program is answered. -/
  | answer (a : S.Answer)
  /-- An entry point is started. -/
  | start (op : S.Op)
  /-- Foreign code returns. -/
  | resume (r : S.Result)

/-- A family of programs: the procedures, the entry points and the initial state. -/
structure System (S : Signature) where
  /-- The body of a procedure. -/
  body : S.Proc → Prog S Unit
  /-- The program of an entry point. -/
  entry : S.Op → Prog S Unit
  /-- The initial state. -/
  init : S.State

namespace System

variable (M : System S)

/-- The initial configuration: nothing native is in progress. -/
def initial : Config S := ⟨M.init, none, []⟩

/-- One step of the machine; `none` when the label does not apply. -/
def step : Label S → Config S → Option (Config S)
  | .tau, ⟨s, some (.ret ()), stack⟩ => some ⟨s, none, stack⟩
  | .tau, ⟨s, some (.get k), stack⟩ => some ⟨s, some (k s), stack⟩
  | .tau, ⟨_, some (.set s p), stack⟩ => some ⟨s, some p, stack⟩
  | .tau, ⟨s, some (.yield c k), stack⟩ => some ⟨s, none, (c, k) :: stack⟩
  | .tau, ⟨s, some (.call f p), stack⟩ => some ⟨s, some ((M.body f).bind fun _ => p), stack⟩
  | .answer a, ⟨s, some (.ask _ k), stack⟩ => some ⟨s, some (k a), stack⟩
  | .start op, ⟨s, none, stack⟩ => some ⟨s, some (M.entry op), stack⟩
  | .resume r, ⟨s, none, (_, k) :: stack⟩ => some ⟨s, some (k r), stack⟩
  | _, _ => none

end System

/-- Whether the environment may take a step with this label. -/
def Env.Allows (E : Env S) (c : Config S) : Label S → Prop
  | .tau => True
  | .answer a =>
    match c.running with
    | some (.ask q _) => E.answers c.state q a
    | _ => False
  | .start op => E.starts (c.stack.map Prod.fst) c.state op
  | .resume r =>
    match c.stack with
    | (cb, _) :: _ => E.returns c.state cb r
    | [] => False

/-- The configurations the environment can drive the system to. -/
inductive System.Reachable (M : System S) (E : Env S) : Config S → Prop where
  | initial : Reachable M E M.initial
  | step {c c' : Config S} {l : Label S} :
      Reachable M E c → E.Allows c l → M.step l c = some c' → Reachable M E c'

/-- What an environment can drive a system to, a more liberal one can as well. -/
theorem System.Reachable.mono {M : System S} {E E' : Env S} {c : Config S}
    (hanswers : ∀ s q a, E.answers s q a → E'.answers s q a)
    (hreturns : ∀ s cb r, E.returns s cb r → E'.returns s cb r)
    (hstarts : ∀ stack s op, E.starts stack s op → E'.starts stack s op)
    (h : M.Reachable E c) : M.Reachable E' c := by
  induction h with
  | initial => exact .initial
  | @step c c' l _ hl hstep ih =>
    refine ih.step (l := l) ?_ hstep
    cases l with
    | tau => trivial
    | start op => exact hstarts _ _ _ hl
    | answer a =>
      obtain ⟨s, running, stack⟩ := c
      rcases running with - | (_ | _ | _ | _ | _ | _)
      case some.ask => exact hanswers _ _ _ hl
      all_goals exact hl
    | resume r =>
      obtain ⟨s, running, stack⟩ := c
      cases stack with
      | nil => exact hl
      | cons top rest => exact hreturns _ _ _ hl

/-! ## Soundness -/

/-- What has to be proved of a system: the entry points keep the invariant and the rely relation,
the procedures meet their contracts. An entry point started at the top level may also assume
that the state is related to the initial one. -/
structure Verified (M : System S) (E : Env S) (A : Spec S) : Prop where
  /-- The rely relation holds when nothing happened. -/
  rely_refl : ∀ s, A.rely s s
  /-- The rely relation composes. -/
  rely_trans : ∀ s₁ s₂ s₃, A.rely s₁ s₂ → A.rely s₂ s₃ → A.rely s₁ s₃
  /-- The invariant holds initially. -/
  init : A.inv M.init
  /-- Every procedure meets its contract. -/
  body : ∀ f s, A.pre f s → (M.body f).wp E A (fun _ s' => A.post f s s') s
  /-- Every entry point keeps the specification. -/
  entry : ∀ stack s op, E.starts stack s op → A.inv s → (stack = [] → A.rely M.init s) →
    (M.entry op).wp E A (fun _ s' => A.inv s' ∧ A.rely s s') s

/-- The innermost suspended program is in a call to foreign code that starts nothing. -/
def QuietTop (E : Env S) : List (S.Callback × (S.Result → Prog S Unit)) → Prop
  | [] => False
  | (c, _) :: _ => E.Quiet c

/-- The suspended programs are ready to be resumed, given that foreign code is in control in
state `s`: from any state foreign code may return in, each ends as the entry point it belongs
to has to. -/
inductive StackOk (E : Env S) (A : Spec S) (init : S.State) :
    S.State → List (S.Callback × (S.Result → Prog S Unit)) → Prop where
  /-- At the top level the state is related to the initial one. -/
  | nil {s : S.State} : A.rely init s → StackOk E A init s []
  /-- A program suspended in state `suspended`, of an entry point started in `entered`. -/
  | frame {s : S.State} {c : S.Callback} {k : S.Result → Prog S Unit}
      {rest : List (S.Callback × (S.Result → Prog S Unit))} (suspended entered : S.State) :
      ¬ E.Quiet c → A.rely suspended s →
      (∀ r s', A.rely suspended s' → A.inv s' → E.returns s' c r →
        (k r).wp E A (fun _ s'' => A.inv s'' ∧ A.rely entered s'') s') →
      ¬ QuietTop E rest → StackOk E A init entered rest → StackOk E A init s ((c, k) :: rest)
  /-- The same for a call to foreign code that starts nothing: the state is the suspended one. -/
  | quiet {s : S.State} {c : S.Callback} {k : S.Result → Prog S Unit}
      {rest : List (S.Callback × (S.Result → Prog S Unit))} (entered : S.State) :
      E.Quiet c →
      (∀ r, E.returns s c r → (k r).wp E A (fun _ s' => A.inv s' ∧ A.rely entered s') s) →
      ¬ QuietTop E rest → StackOk E A init entered rest → StackOk E A init s ((c, k) :: rest)

/-- What holds of every reachable configuration of a verified system. -/
def ConfigOk (E : Env S) (A : Spec S) (init : S.State) (c : Config S) : Prop :=
  match c.running with
  | none => (¬ QuietTop E c.stack → A.inv c.state) ∧ StackOk E A init c.state c.stack
  | some p => ∃ entered,
      p.wp E A (fun _ s' => A.inv s' ∧ A.rely entered s') c.state ∧
        ¬ QuietTop E c.stack ∧ StackOk E A init entered c.stack

namespace Verified

variable {M : System S} {E : Env S} {A : Spec S} (hV : Verified M E A)

include hV

/-- Foreign code may go on from a related state. -/
theorem stackOk_rely {s s' : S.State} {stack : List (S.Callback × (S.Result → Prog S Unit))}
    (hquiet : ¬ QuietTop E stack) (h : StackOk E A M.init s stack) (hrely : A.rely s s') :
    StackOk E A M.init s' stack := by
  cases h with
  | nil h => exact .nil (hV.rely_trans _ _ _ h hrely)
  | frame suspended entered hn hrel hk hq hrest =>
    exact .frame suspended entered hn (hV.rely_trans _ _ _ hrel hrely) hk hq hrest
  | quiet entered hq => exact absurd hq hquiet

theorem step_ok {c c' : Config S} {l : Label S} (h : ConfigOk E A M.init c)
    (hl : E.Allows c l) (hstep : M.step l c = some c') : ConfigOk E A M.init c' := by
  obtain ⟨s, running, stack⟩ := c
  cases l with
  | tau =>
    rcases running with - | p
    · cases hstep
    obtain ⟨entered, hwp, hquiet, hstack⟩ := h
    cases p with
    | ret a =>
      cases hstep
      exact ⟨fun _ => hwp.1, hV.stackOk_rely hquiet hstack hwp.2⟩
    | get k =>
      cases hstep
      exact ⟨entered, hwp, hquiet, hstack⟩
    | set s' p =>
      cases hstep
      exact ⟨entered, hwp, hquiet, hstack⟩
    | ask q k => cases hstep
    | yield cb k =>
      cases hstep
      refine ⟨fun hn => (hwp.2 hn).1, ?_⟩
      by_cases hc : E.Quiet cb
      · exact .quiet entered hc (fun r hr => hwp.1 hc r hr) hquiet hstack
      · exact .frame s entered hc (hV.rely_refl s) (hwp.2 hc).2 hquiet hstack
    | call f p =>
      cases hstep
      refine ⟨entered, ?_, hquiet, hstack⟩
      exact (Prog.wp_bind_iff _ _ _ _).mpr
        (Prog.wp_mono (hV.body f s hwp.1) fun _ s' hpost => hwp.2 s' hpost)
  | answer a =>
    rcases running with - | p
    · cases hstep
    obtain ⟨entered, hwp, hquiet, hstack⟩ := h
    cases p with
    | ask q k =>
      cases hstep
      exact ⟨entered, hwp a hl, hquiet, hstack⟩
    | _ => cases hstep
  | start op =>
    rcases running with - | p
    · cases hstep
      obtain ⟨hinv, hstack⟩ := h
      -- nothing is started from foreign code that starts nothing
      have hquiet : ¬ QuietTop E stack := by
        cases stack with
        | nil => exact id
        | cons top rest => exact fun hq => hq _ _ _ hl
      refine ⟨s, hV.entry _ s op hl (hinv hquiet) fun hnil => ?_, hquiet, hstack⟩
      obtain rfl : stack = [] := List.map_eq_nil_iff.mp hnil
      cases hstack
      assumption
    · cases hstep
  | resume r =>
    rcases running with - | p
    · cases stack with
      | nil => cases hstep
      | cons top rest =>
        obtain ⟨cb, k⟩ := top
        cases hstep
        obtain ⟨hinv, hstack⟩ := h
        cases hstack with
        | frame suspended entered hn hrel hk hq hrest =>
          exact ⟨entered, hk r s hrel (hinv hn) hl, hq, hrest⟩
        | quiet entered hc hk hq hrest => exact ⟨entered, hk r hl, hq, hrest⟩
    · cases hstep

/-- Whenever foreign code that may start something is in control, the invariant holds, and at the
top level the state is related to the initial one. -/
theorem sound {c : Config S} (h : M.Reachable E c) : ConfigOk E A M.init c := by
  induction h with
  | initial => exact ⟨fun _ => hV.init, .nil (hV.rely_refl _)⟩
  | step _ hl hstep ih => exact hV.step_ok ih hl hstep

/-- The invariant holds at the top level, and the state is related to the initial one. -/
theorem top_level {s : S.State} (h : M.Reachable E ⟨s, none, []⟩) :
    A.inv s ∧ A.rely M.init s := by
  obtain ⟨hinv, hstack⟩ := hV.sound h
  cases hstack with
  | nil hrely => exact ⟨hinv id, hrely⟩

/-- The invariant holds whenever foreign code is in control, if all foreign code may start
something. -/
theorem in_foreign (hloud : ∀ cb, ¬ E.Quiet cb) {s : S.State}
    {stack : List (S.Callback × (S.Result → Prog S Unit))}
    (h : M.Reachable E ⟨s, none, stack⟩) : A.inv s := by
  refine (hV.sound h).1 ?_
  cases stack with
  | nil => exact id
  | cons top rest => exact hloud top.1

end Verified

/-! ## Concrete runs -/

namespace System

variable (M : System S) (E : Env S) [∀ c l, Decidable (E.Allows c l)]

/-- Let the running program take up to `fuel` steps of its own. -/
def advance : ℕ → Config S → Config S
  | 0, c => c
  | fuel + 1, c =>
    match M.step .tau c with
    | some c' => advance fuel c'
    | none => c

/-- Take the given labels in turn, letting the running program take up to `fuel` steps of its own
before each and at the end; `none` when a label does not apply or the environment forbids it. -/
def play (fuel : ℕ) : List (Label S) → Config S → Option (Config S)
  | [], c => some (M.advance fuel c)
  | l :: ls, c =>
    if E.Allows (M.advance fuel c) l then (M.step l (M.advance fuel c)).bind (play fuel ls)
    else none

variable {M E}

omit [∀ c l, Decidable (E.Allows c l)] in
theorem Reachable.advance {fuel : ℕ} {c : Config S} (h : M.Reachable E c) :
    M.Reachable E (M.advance fuel c) := by
  induction fuel generalizing c with
  | zero => exact h
  | succ fuel ih =>
    rw [System.advance]
    split
    · rename_i c' hstep
      exact ih (h.step (l := .tau) trivial hstep)
    · exact h

/-- A run that goes through ends in a reachable configuration. -/
theorem Reachable.play {fuel : ℕ} {ls : List (Label S)} {c c' : Config S}
    (h : M.Reachable E c) (hplay : M.play E fuel ls c = some c') : M.Reachable E c' := by
  induction ls generalizing c with
  | nil =>
    obtain rfl := Option.some.inj hplay
    exact h.advance
  | cons l ls ih =>
    rw [System.play] at hplay
    split at hplay
    · rename_i hallowed
      obtain ⟨c₁, hstep, hrest⟩ := Option.bind_eq_some_iff.mp hplay
      exact ih (h.advance.step hallowed hstep) hrest
    · cases hplay

end System

end Reentrant
