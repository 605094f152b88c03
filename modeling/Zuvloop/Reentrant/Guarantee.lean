import Zuvloop.Reentrant.Machine

/-!
# What an entry point guarantees at every step

`Verified` says what holds whenever foreign code is in control. Here it is what each entry point
does by itself that counts: `Acting` is a reachable configuration together with the entry points in
progress, innermost first, and a guarantee is a relation that every change of state made by an entry
point has to be in, for as long as foreign code keeps the specification. The two together are the
rely and the guarantee of a concurrent program, with the entry points as its threads.

## Main definitions

* `System.Acting`: the entry points in progress.
* `Prog.guaranteed`: every change that a program makes itself is in a relation.
* `Guarantees`: what has to be proved of the entry points.

## Main results

* `Guarantees.step`: every change of state is in the guarantee of the entry point that makes it.
-/

namespace Reentrant

variable {S : Signature} {α β : Type}

/-! ## Entry points in progress -/

/-- What a step does to the entry points in progress, innermost first. -/
def acting : Label S → Config S → List S.Op → List S.Op
  | .start op, _, ops => op :: ops
  | .tau, ⟨_, some (.ret _), _⟩, ops => ops.tail
  | _, _, ops => ops

/-- The configurations the environment can drive the system to, with the entry points in
progress, innermost first. -/
inductive System.Acting (M : System S) (E : Env S) : List S.Op → Config S → Prop where
  | initial : Acting M E [] M.initial
  | step {ops : List S.Op} {c c' : Config S} {l : Label S} :
      Acting M E ops c → E.Allows c l → M.step l c = some c' → Acting M E (acting l c ops) c'

theorem System.Acting.reachable {M : System S} {E : Env S} {ops : List S.Op} {c : Config S}
    (h : M.Acting E ops c) : M.Reachable E c := by
  induction h with
  | initial => exact .initial
  | step _ hl hstep ih => exact ih.step hl hstep

/-- Whatever is reachable has its entry points in progress. -/
theorem System.Reachable.acting {M : System S} {E : Env S} {c : Config S}
    (h : M.Reachable E c) : ∃ ops, M.Acting E ops c := by
  induction h with
  | initial => exact ⟨[], .initial⟩
  | step _ hl hstep ih =>
    obtain ⟨ops, hops⟩ := ih
    exact ⟨_, hops.step hl hstep⟩

/-! ## Guarantees of a program -/

namespace Prog

variable (E : Env S) (A : Spec S) (G : S.State → S.State → Prop) (C : S.Proc → Prop)

/-- From `s`, every change that the program makes itself is in `G`, and it calls only procedures of
`C`; `Q` holds of its result and its last state. Foreign code keeps the specification, and
procedures meet their contracts. -/
def guaranteed : Prog S α → (α → S.State → Prop) → S.State → Prop
  | .ret a, Q, s => Q a s
  | .get k, Q, s => guaranteed (k s) Q s
  | .set s' p, Q, s => G s s' ∧ guaranteed p Q s'
  | .ask q k, Q, s => ∀ a, E.answers s q a → guaranteed (k a) Q s
  | .yield c k, Q, s =>
    (E.Quiet c → ∀ r, E.returns s c r → guaranteed (k r) Q s) ∧
      (¬ E.Quiet c → ∀ r s', A.rely s s' → A.inv s' → E.returns s' c r → guaranteed (k r) Q s')
  | .call f p, Q, s => C f ∧ ∀ s', A.post f s s' → guaranteed p Q s'

variable {E A G C}

theorem guaranteed_mono {p : Prog S α} {Q Q' : α → S.State → Prop} {s : S.State}
    (h : p.guaranteed E A G C Q s) (hQ : ∀ a s', Q a s' → Q' a s') :
    p.guaranteed E A G C Q' s := by
  induction p generalizing s with
  | ret a => exact hQ a s h
  | get k ih => exact ih s h
  | set s' p ih => exact ⟨h.1, ih h.2⟩
  | ask q k ih => exact fun a ha => ih a (h a ha)
  | yield c k ih =>
    refine ⟨fun hq r hr => ih r (h.1 hq r hr), fun hq r s' hrely hinv hr => ?_⟩
    exact ih r (h.2 hq r s' hrely hinv hr)
  | call f p ih => exact ⟨h.1, fun s' hpost => ih (h.2 s' hpost)⟩

theorem guaranteed_bind_iff (p : Prog S α) (f : α → Prog S β) (Q : β → S.State → Prop)
    (s : S.State) : (p.bind f).guaranteed E A G C Q s ↔
      p.guaranteed E A G C (fun a s' => (f a).guaranteed E A G C Q s') s := by
  induction p generalizing s with
  | ret a => rfl
  | get k ih => exact ih s s
  | set s' p ih => exact and_congr_right fun _ => ih s'
  | ask q k ih => exact forall_congr' fun a => imp_congr_right fun _ => ih a s
  | yield c k ih => simp only [Prog.bind, guaranteed, ih]
  | call g p ih => simp only [Prog.bind, guaranteed, ih]

@[simp]
theorem guaranteed_bind (p : Prog S α) (f : α → Prog S β) (Q : β → S.State → Prop)
    (s : S.State) : (p >>= f).guaranteed E A G C Q s ↔
      p.guaranteed E A G C (fun a s' => (f a).guaranteed E A G C Q s') s :=
  guaranteed_bind_iff p f Q s

@[simp]
theorem guaranteed_map (p : Prog S α) (f : α → β) (Q : β → S.State → Prop) (s : S.State) :
    (f <$> p).guaranteed E A G C Q s ↔ p.guaranteed E A G C (fun a s' => Q (f a) s') s :=
  guaranteed_bind_iff p (fun a => ret (f a)) Q s

@[simp]
theorem guaranteed_pure (a : α) (Q : α → S.State → Prop) (s : S.State) :
    (pure a : Prog S α).guaranteed E A G C Q s ↔ Q a s := Iff.rfl

@[simp]
theorem guaranteed_modify (f : S.State → S.State) (Q : Unit → S.State → Prop) (s : S.State) :
    (modify f : Prog S Unit).guaranteed E A G C Q s ↔ G s (f s) ∧ Q () (f s) := Iff.rfl

@[simp]
theorem guaranteed_ite (c : Prop) [Decidable c] (p q : Prog S α) (Q : α → S.State → Prop)
    (s : S.State) : (if c then p else q).guaranteed E A G C Q s ↔
      if c then p.guaranteed E A G C Q s else q.guaranteed E A G C Q s := by
  split <;> rfl

/-- Without a guarantee there is nothing to prove. -/
theorem guaranteed_of_forall (hG : ∀ s s', G s s') (hC : ∀ f, C f) {p : Prog S α}
    {Q : α → S.State → Prop} {s : S.State} (hQ : ∀ a s', Q a s') :
    p.guaranteed E A G C Q s := by
  induction p generalizing s with
  | ret a => exact hQ a s
  | get k ih => exact ih s
  | set s' p ih => exact ⟨hG s s', ih⟩
  | ask q k ih => exact fun a _ => ih a
  | yield c k ih => exact ⟨fun _ r _ => ih r, fun _ r s' _ _ _ => ih r⟩
  | call f p ih => exact ⟨hC f, fun s' _ => ih⟩

/-- What follows from the weakest precondition holds beside the guarantee. -/
theorem guaranteed_of_wp {p : Prog S α} {Q Q' : α → S.State → Prop} {s : S.State}
    (h : p.guaranteed E A G C Q s) (hwp : p.wp E A Q' s) :
    p.guaranteed E A G C (fun a s' => Q a s' ∧ Q' a s') s := by
  induction p generalizing s with
  | ret a => exact ⟨h, hwp⟩
  | get k ih => exact ih s h hwp
  | set s' p ih => exact ⟨h.1, ih h.2 hwp⟩
  | ask q k ih => exact fun a ha => ih a (h a ha) (hwp a ha)
  | yield c k ih =>
    refine ⟨fun hq r hr => ih r (h.1 hq r hr) (hwp.1 hq r hr), fun hq r s' hrely hinv hr => ?_⟩
    exact ih r (h.2 hq r s' hrely hinv hr) ((hwp.2 hq).2 r s' hrely hinv hr)
  | call f p ih => exact ⟨h.1, fun s' hpost => ih (h.2 s' hpost) (hwp.2 s' hpost)⟩

end Prog

/-! ## Soundness -/

/-- What has to be proved of a system: every entry point keeps its guarantee, and so do the
procedures it calls. -/
structure Guarantees (M : System S) (E : Env S) (A : Spec S) (G : S.Op → S.State → S.State → Prop)
    (C : S.Op → S.Proc → Prop) : Prop where
  /-- Every procedure keeps the guarantees of the entry points that call it. -/
  body : ∀ op f s, C op f → A.pre f s →
    (M.body f).guaranteed E A (G op) (C op) (fun _ _ => True) s
  /-- Every entry point keeps its guarantee. -/
  entry : ∀ stack s op, E.starts stack s op → A.inv s → (stack = [] → A.rely M.init s) →
    (M.entry op).guaranteed E A (G op) (C op) (fun _ _ => True) s

variable {M : System S} {E : Env S} {A : Spec S} {G : S.Op → S.State → S.State → Prop}
  {C : S.Op → S.Proc → Prop}

/-- The suspended programs keep their guarantees when they are resumed, given that foreign code is
in control in state `s`. -/
inductive StackKeeps (E : Env S) (A : Spec S) (G : S.Op → S.State → S.State → Prop)
    (C : S.Op → S.Proc → Prop) :
    S.State → List (S.Callback × (S.Result → Prog S Unit)) → List S.Op → Prop where
  /-- Nothing is in progress. -/
  | nil {s : S.State} : StackKeeps E A G C s [] []
  /-- A program suspended in state `suspended`, of an entry point started in `entered`. -/
  | frame {s : S.State} {c : S.Callback} {k : S.Result → Prog S Unit}
      {rest : List (S.Callback × (S.Result → Prog S Unit))} {op : S.Op} {ops : List S.Op}
      (suspended entered : S.State) :
      ¬ E.Quiet c → A.rely suspended s →
      (∀ r s', A.rely suspended s' → A.inv s' → E.returns s' c r →
        (k r).wp E A (fun _ s'' => A.inv s'' ∧ A.rely entered s'') s' ∧
          (k r).guaranteed E A (G op) (C op) (fun _ _ => True) s') →
      ¬ QuietTop E rest → StackKeeps E A G C entered rest ops →
      StackKeeps E A G C s ((c, k) :: rest) (op :: ops)
  /-- The same for a call to foreign code that starts nothing: the state is the suspended one. -/
  | quiet {s : S.State} {c : S.Callback} {k : S.Result → Prog S Unit}
      {rest : List (S.Callback × (S.Result → Prog S Unit))} {op : S.Op} {ops : List S.Op}
      (entered : S.State) : E.Quiet c →
      (∀ r, E.returns s c r → (k r).wp E A (fun _ s' => A.inv s' ∧ A.rely entered s') s ∧
        (k r).guaranteed E A (G op) (C op) (fun _ _ => True) s) →
      ¬ QuietTop E rest → StackKeeps E A G C entered rest ops →
      StackKeeps E A G C s ((c, k) :: rest) (op :: ops)

/-- What holds of every configuration of a system whose entry points keep their guarantees. -/
def ConfigKeeps (E : Env S) (A : Spec S) (G : S.Op → S.State → S.State → Prop)
    (C : S.Op → S.Proc → Prop) (c : Config S) (ops : List S.Op) : Prop :=
  match c.running with
  | none => StackKeeps E A G C c.state c.stack ops
  | some p => ∃ entered op rest, ops = op :: rest ∧
      p.wp E A (fun _ s' => A.inv s' ∧ A.rely entered s') c.state ∧
      p.guaranteed E A (G op) (C op) (fun _ _ => True) c.state ∧
      ¬ QuietTop E c.stack ∧ StackKeeps E A G C entered c.stack rest

/-- Foreign code may go on from a related state. -/
theorem StackKeeps.rely (hV : Verified M E A) {s s' : S.State}
    {stack : List (S.Callback × (S.Result → Prog S Unit))} {ops : List S.Op}
    (hquiet : ¬ QuietTop E stack) (h : StackKeeps E A G C s stack ops) (hrely : A.rely s s') :
    StackKeeps E A G C s' stack ops := by
  cases h with
  | nil => exact .nil
  | frame suspended entered hn hrel hk hq hrest =>
    exact .frame suspended entered hn (hV.rely_trans _ _ _ hrel hrely) hk hq hrest
  | quiet entered hq => exact absurd hq hquiet

namespace Guarantees

variable (hV : Verified M E A) (hG : Guarantees M E A G C)

include hV hG

theorem step_keeps {ops : List S.Op} {c c' : Config S} {l : Label S}
    (hok : ConfigOk E A M.init c) (h : ConfigKeeps E A G C c ops) (hl : E.Allows c l)
    (hstep : M.step l c = some c') : ConfigKeeps E A G C c' (acting l c ops) := by
  obtain ⟨s, running, stack⟩ := c
  cases l with
  | tau =>
    rcases running with - | p
    · cases hstep
    obtain ⟨entered, op, rest, rfl, hwp, hguar, hquiet, hstack⟩ := h
    cases p with
    | ret a =>
      -- the entry point has come to its end
      cases hstep
      exact hstack.rely hV hquiet hwp.2
    | get k =>
      cases hstep
      exact ⟨entered, op, rest, rfl, hwp, hguar, hquiet, hstack⟩
    | set s' p =>
      cases hstep
      exact ⟨entered, op, rest, rfl, hwp, hguar.2, hquiet, hstack⟩
    | ask q k => cases hstep
    | yield cb k =>
      cases hstep
      by_cases hc : E.Quiet cb
      · exact .quiet entered hc (fun r hr => ⟨hwp.1 hc r hr, hguar.1 hc r hr⟩) hquiet hstack
      · refine .frame s entered hc (hV.rely_refl s) (fun r s' hrely hinv hr => ?_) hquiet hstack
        exact ⟨(hwp.2 hc).2 r s' hrely hinv hr, hguar.2 hc r s' hrely hinv hr⟩
    | call f p =>
      cases hstep
      have hbody := hV.body f s hwp.1
      refine ⟨entered, op, rest, rfl, ?_, ?_, hquiet, hstack⟩
      · exact (Prog.wp_bind_iff _ _ _ _).mpr
          (Prog.wp_mono hbody fun _ s' hpost => hwp.2 s' hpost)
      · have hkeeps := Prog.guaranteed_of_wp (hG.body op f s hguar.1 hwp.1) hbody
        exact (Prog.guaranteed_bind_iff _ _ _ _).mpr
          (Prog.guaranteed_mono hkeeps fun _ s' hpost => hguar.2 s' hpost.2)
  | answer a =>
    rcases running with - | p
    · cases hstep
    obtain ⟨entered, op, rest, rfl, hwp, hguar, hquiet, hstack⟩ := h
    cases p with
    | ask q k =>
      cases hstep
      exact ⟨entered, op, rest, rfl, hwp a hl, hguar a hl, hquiet, hstack⟩
    | _ => cases hstep
  | start op =>
    rcases running with - | p
    · cases hstep
      obtain ⟨hinv, hstackOk⟩ := hok
      -- nothing is started from foreign code that starts nothing
      have hquiet : ¬ QuietTop E stack := by
        cases stack with
        | nil => exact id
        | cons top rest => exact fun hq => hq _ _ _ hl
      have hinit : stack.map Prod.fst = [] → A.rely M.init s := fun hnil => by
        obtain rfl : stack = [] := List.map_eq_nil_iff.mp hnil
        cases hstackOk
        assumption
      exact ⟨s, op, ops, rfl, hV.entry _ s op hl (hinv hquiet) hinit,
        hG.entry _ s op hl (hinv hquiet) hinit, hquiet, h⟩
    · cases hstep
  | resume r =>
    rcases running with - | p
    · cases stack with
      | nil => cases hstep
      | cons top rest =>
        obtain ⟨cb, k⟩ := top
        cases hstep
        cases h with
        | frame suspended entered hn hrel hk hq hrest =>
          -- the invariant holds, since this foreign code may start something
          obtain ⟨hwp, hguar⟩ := hk r s hrel (hok.1 hn) hl
          exact ⟨entered, _, _, rfl, hwp, hguar, hq, hrest⟩
        | quiet entered hc hk hq hrest =>
          obtain ⟨hwp, hguar⟩ := hk r hl
          exact ⟨entered, _, _, rfl, hwp, hguar, hq, hrest⟩
    · cases hstep

theorem keeps {ops : List S.Op} {c : Config S} (h : M.Acting E ops c) :
    ConfigKeeps E A G C c ops := by
  induction h with
  | initial => exact .nil
  | step hacting hl hstep ih =>
    exact hG.step_keeps hV (hV.sound hacting.reachable) ih hl hstep

/-- Every change of state is in the guarantee of the entry point that makes it. -/
theorem step {op : S.Op} {ops : List S.Op} {c c' : Config S} (hrefl : ∀ s, G op s s)
    (h : M.Acting E (op :: ops) c) (hstep : M.step .tau c = some c') :
    G op c.state c'.state := by
  have hkeeps := hG.keeps hV h
  obtain ⟨s, running, stack⟩ := c
  rcases running with - | p
  · cases hstep
  obtain ⟨entered, op', rest, heq, -, hguar, -, -⟩ := hkeeps
  obtain ⟨rfl, rfl⟩ := List.cons.inj heq
  cases p with
  | set s' p =>
    cases hstep
    exact hguar.1
  | ask q k => cases hstep
  | _ =>
    cases hstep
    exact hrefl s

end Guarantees

/-! ## Concrete runs -/

namespace System

variable (M : System S) (E : Env S) [∀ c l, Decidable (E.Allows c l)]

/-- Let the running program take up to `fuel` steps of its own. -/
def advanceActing : ℕ → List S.Op × Config S → List S.Op × Config S
  | 0, p => p
  | fuel + 1, (ops, c) =>
    match M.step .tau c with
    | some c' => advanceActing fuel (acting .tau c ops, c')
    | none => (ops, c)

/-- Take the given labels in turn, letting the running program take up to `fuel` steps of its own
before each; `none` when a label does not apply or the environment forbids it. -/
def playActing (fuel : ℕ) : List (Label S) → List S.Op × Config S → Option (List S.Op × Config S)
  | [], p => some p
  | l :: ls, p =>
    if E.Allows (M.advanceActing fuel p).2 l then
      (M.step l (M.advanceActing fuel p).2).bind fun c' =>
        playActing fuel ls (acting l (M.advanceActing fuel p).2 (M.advanceActing fuel p).1, c')
    else none

variable {M E}

omit [∀ c l, Decidable (E.Allows c l)] in
theorem Acting.advance {ops : List S.Op} {c : Config S} (h : M.Acting E ops c) (fuel : ℕ) :
    M.Acting E (M.advanceActing fuel (ops, c)).1 (M.advanceActing fuel (ops, c)).2 := by
  induction fuel generalizing ops c with
  | zero => exact h
  | succ fuel ih =>
    rw [advanceActing]
    split
    · rename_i c' hstep
      exact ih (h.step (l := .tau) trivial hstep)
    · exact h

/-- A run that goes through ends with the entry points in progress that it says. -/
theorem Acting.play {fuel : ℕ} {ls : List (Label S)} {ops ops' : List S.Op} {c c' : Config S}
    (h : M.Acting E ops c) (hplay : M.playActing E fuel ls (ops, c) = some (ops', c')) :
    M.Acting E ops' c' := by
  induction ls generalizing ops c with
  | nil =>
    cases hplay
    exact h
  | cons l ls ih =>
    rw [playActing] at hplay
    split at hplay
    · rename_i hallowed
      obtain ⟨c₁, hstep, hrest⟩ := Option.bind_eq_some_iff.mp hplay
      exact ih ((h.advance fuel).step hallowed hstep) hrest
    · cases hplay

end System

end Reentrant
