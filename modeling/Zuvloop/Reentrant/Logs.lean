import Mathlib.Logic.Relation
import Zuvloop.Reentrant.Machine

/-!
# Runs of one program, with what it did

`Run` relates a program and the state it starts in to what it returns, the state it ends in and a
log: the changes the program made itself and the foreign code it ran, in the order they came about.
What foreign code may do is a parameter. `Interlude` is the one that matters: foreign code starts
any entry points it may, the foreign code these run does the same, and so on to a given depth.

## Main definitions

* `Entry`: an entry of a log.
* `Run`: a run of a program, with its log.
* `Interlude`: what foreign code can do while programs are suspended.
* `Prog.logs`: what has to hold before a run for something to hold after it.
* `replay`: a run, from the labels of the machine.

## Main results

* `Run.reachable`: the machine can follow a run.
* `Verified.run`: a run in a verified system meets its weakest preconditions, and foreign code keeps
  the invariant and the rely relation.
* `Run.logs`: what is derived with contracts for the procedures holds of every run.
-/

namespace Reentrant

/-- An entry of a log. -/
inductive Entry (S : Signature) where
  /-- The program changed the state. -/
  | set (s s' : S.State)
  /-- Foreign code ran. -/
  | yield (c : S.Callback) (s s' : S.State) (r : S.Result)

/-- What a program did, and what foreign code did meanwhile. -/
abbrev Log (S : Signature) : Type := List (Entry S)

variable {S : Signature}

/-- `Run M E R p s a s' log`: from `s`, the program can return `a` in `s'`, with foreign code that
does what `R` allows; `log` is what happened. -/
inductive Run (M : System S) (E : Env S) (R : S.Callback → S.State → S.State → Prop) :
    {α : Type} → Prog S α → S.State → α → S.State → Log S → Prop where
  | ret {α : Type} (a : α) (s : S.State) : Run M E R (.ret a) s a s []
  | get {α : Type} {k : S.State → Prog S α} {s s' : S.State} {a : α} {log : Log S} :
      Run M E R (k s) s a s' log → Run M E R (.get k) s a s' log
  | set {α : Type} {p : Prog S α} {s s₁ s' : S.State} {a : α} {log : Log S} :
      Run M E R p s₁ a s' log → Run M E R (.set s₁ p) s a s' (.set s s₁ :: log)
  | ask {α : Type} {q : S.Request} {k : S.Answer → Prog S α} {s s' : S.State} {a : α}
      {log : Log S} (b : S.Answer) : E.answers s q b → Run M E R (k b) s a s' log →
      Run M E R (.ask q k) s a s' log
  | yield {α : Type} {c : S.Callback} {k : S.Result → Prog S α} {s s₁ s' : S.State} {a : α}
      {log : Log S} (r : S.Result) : R c s s₁ → E.returns s₁ c r → Run M E R (k r) s₁ a s' log →
      Run M E R (.yield c k) s a s' (.yield c s s₁ r :: log)
  | call {α : Type} {f : S.Proc} {p : Prog S α} {s s₁ s' : S.State} {a : α} {log₁ log₂ : Log S} :
      Run M E R (M.body f) s () s₁ log₁ → Run M E R p s₁ a s' log₂ →
      Run M E R (.call f p) s a s' (log₁ ++ log₂)

/-- What foreign code can do while the given calls into foreign code, innermost first, have not
returned: it starts entry points, one after the other, which run to their end. Calls into foreign
code nest at most to the given depth. -/
def Interlude (M : System S) (E : Env S) : ℕ → List S.Callback → S.State → S.State → Prop
  | 0, _, s, s' => s = s'
  | n + 1, stack, s, s' =>
    Relation.ReflTransGen (fun s₁ s₂ => ∃ op log, E.starts stack s₁ op ∧
      Run M E (fun c => Interlude M E n (c :: stack)) (M.entry op) s₁ () s₂ log) s s'

variable {M : System S} {E : Env S} {R R' : S.Callback → S.State → S.State → Prop} {α β : Type}

theorem Run.mono {p : Prog S α} {s s' : S.State} {a : α} {log : Log S}
    (h : Run M E R p s a s' log) (hR : ∀ c s s', R c s s' → R' c s s') :
    Run M E R' p s a s' log := by
  induction h with
  | ret a s => exact .ret a s
  | get _ ih => exact .get ih
  | set _ ih => exact .set ih
  | ask b hb _ ih => exact .ask b hb ih
  | yield r hs hr _ ih => exact .yield r (hR _ _ _ hs) hr ih
  | call _ _ ihf ih => exact .call ihf ih

/-- A run of one program, and then of the next. -/
theorem Run.bind {p : Prog S α} {f : α → Prog S β} {s s₁ s' : S.State} {a : α} {b : β}
    {log₁ log₂ : Log S} (h : Run M E R p s a s₁ log₁) (hf : Run M E R (f a) s₁ b s' log₂) :
    Run M E R (p.bind f) s b s' (log₁ ++ log₂) := by
  induction h with
  | ret a s => exact hf
  | get _ ih => exact .get (ih hf)
  | set _ ih => exact .set (ih hf)
  | ask c hc _ ih => exact .ask c hc (ih hf)
  | yield r hs hr _ ih => exact .yield r hs hr (ih hf)
  | call hg _ _ ih =>
    rw [List.append_assoc]
    exact .call hg (ih hf)

theorem Run.map {p : Prog S α} {s s' : S.State} {a : α} {log : Log S}
    (h : Run M E R p s a s' log) (f : α → β) : Run M E R (f <$> p) s (f a) s' log := by
  have hbind := h.bind (f := fun a => .ret (f a)) (.ret (f a) s')
  rw [List.append_nil] at hbind
  exact hbind

/-- Calls may always nest deeper. -/
theorem Interlude.succ {n : ℕ} {stack : List S.Callback} {s s' : S.State}
    (h : Interlude M E n stack s s') : Interlude M E (n + 1) stack s s' := by
  induction n generalizing stack s s' with
  | zero =>
    cases h
    exact .refl
  | succ n ih =>
    induction h with
    | refl => exact .refl
    | tail _ hstep ih' =>
      obtain ⟨op, log, hstart, hrun⟩ := hstep
      exact .tail ih' ⟨op, log, hstart, hrun.mono fun c _ _ hc => ih hc⟩

section Environment

variable {E' : Env S} (hanswers : ∀ s q a, E.answers s q a → E'.answers s q a)
  (hreturns : ∀ s c r, E.returns s c r → E'.returns s c r)
  (hstarts : ∀ stack s op, E.starts stack s op → E'.starts stack s op)

include hanswers hreturns

/-- A run in an environment that allows less is a run in one that allows more. -/
theorem Run.env_mono {p : Prog S α} {s s' : S.State} {a : α} {log : Log S}
    (h : Run M E R p s a s' log) : Run M E' R p s a s' log := by
  induction h with
  | ret a s => exact .ret a s
  | get _ ih => exact .get ih
  | set _ ih => exact .set ih
  | ask b hb _ ih => exact .ask b (hanswers _ _ _ hb) ih
  | yield r hs hr _ ih => exact .yield r hs (hreturns _ _ _ hr) ih
  | call _ _ ihf ih => exact .call ihf ih

include hstarts

theorem Interlude.env_mono {n : ℕ} {stack : List S.Callback} {s s' : S.State}
    (h : Interlude M E n stack s s') : Interlude M E' n stack s s' := by
  induction n generalizing stack s s' with
  | zero => exact h
  | succ n ih =>
    induction h with
    | refl => exact .refl
    | tail _ hstep ih' =>
      obtain ⟨op, log, hstart, hrun⟩ := hstep
      refine .tail ih' ⟨op, log, hstarts _ _ _ hstart, ?_⟩
      exact (hrun.env_mono hanswers hreturns).mono fun c _ _ hc => ih hc

end Environment

/-! ## Runs of the machine -/

/-- The machine can follow what foreign code does, and a run, if it can follow the foreign code of
the run. -/
theorem Run.reachable_of {p : Prog S α} {s s' : S.State} {a : α} {log : Log S}
    (h : Run M E R p s a s' log) {k : α → Prog S Unit}
    {stack : List (S.Callback × (S.Result → Prog S Unit))}
    (hR : ∀ c s s₁, R c s s₁ → ∀ kc : S.Result → Prog S Unit,
      M.Reachable E ⟨s, none, (c, kc) :: stack⟩ → M.Reachable E ⟨s₁, none, (c, kc) :: stack⟩)
    (hr : M.Reachable E ⟨s, some (p.bind k), stack⟩) :
    M.Reachable E ⟨s', some (k a), stack⟩ := by
  induction h with
  | ret a s => exact hr
  | get _ ih => exact ih (hr.step (l := .tau) trivial rfl)
  | set _ ih => exact ih (hr.step (l := .tau) trivial rfl)
  | ask b hb _ ih => exact ih (hr.step (l := .answer b) hb rfl)
  | yield r hs hret _ ih =>
    exact ih ((hR _ _ _ hs _ (hr.step (l := .tau) trivial rfl)).step (l := .resume r) hret rfl)
  | call _ _ ihf ih => exact ih (ihf (hr.step (l := .tau) trivial rfl))

/-- An entry point that runs to its end takes the machine to where it ends. -/
theorem Run.entry_reachable_of {op : S.Op} {s s' : S.State} {log : Log S}
    (h : Run M E R (M.entry op) s () s' log)
    {stack : List (S.Callback × (S.Result → Prog S Unit))}
    (hR : ∀ c s s₁, R c s s₁ → ∀ kc : S.Result → Prog S Unit,
      M.Reachable E ⟨s, none, (c, kc) :: stack⟩ → M.Reachable E ⟨s₁, none, (c, kc) :: stack⟩)
    (hr : M.Reachable E ⟨s, none, stack⟩) (hstart : E.starts (stack.map Prod.fst) s op) :
    M.Reachable E ⟨s', none, stack⟩ := by
  have hentry := hr.step (l := .start op) hstart rfl
  rw [← Prog.bind_ret (M.entry op)] at hentry
  exact (h.reachable_of hR hentry).step (l := .tau) trivial rfl

theorem Interlude.reachable {n : ℕ} {stack : List (S.Callback × (S.Result → Prog S Unit))}
    {s s' : S.State} (h : Interlude M E n (stack.map Prod.fst) s s')
    (hr : M.Reachable E ⟨s, none, stack⟩) : M.Reachable E ⟨s', none, stack⟩ := by
  induction n generalizing stack s s' with
  | zero =>
    cases h
    exact hr
  | succ n ih =>
    induction h with
    | refl => exact hr
    | tail _ hstep ih' =>
      obtain ⟨op, log, hstart, hrun⟩ := hstep
      refine hrun.entry_reachable_of (fun c _ _ hc kc hk => ?_) ih' hstart
      exact @ih ((c, kc) :: stack) _ _ hc hk

/-- The machine can follow the run of an entry point. -/
theorem Run.reachable {n : ℕ} {op : S.Op} {s s' : S.State} {log : Log S}
    {stack : List (S.Callback × (S.Result → Prog S Unit))}
    (h : Run M E (fun c => Interlude M E n (c :: stack.map Prod.fst)) (M.entry op) s () s' log)
    (hr : M.Reachable E ⟨s, none, stack⟩) (hstart : E.starts (stack.map Prod.fst) s op) :
    M.Reachable E ⟨s', none, stack⟩ :=
  h.entry_reachable_of
    (fun c _ _ hc kc hk => @Interlude.reachable S M E n ((c, kc) :: stack) _ _ hc hk) hr hstart

/-! ## Verified systems -/

variable {A : Spec S}

/-- Foreign code that keeps the invariant and the rely relation, as far as it may start anything. -/
def Sound (E : Env S) (A : Spec S) (R : S.Callback → S.State → S.State → Prop) : Prop :=
  ∀ c s s', R c s s' → (E.Quiet c → s = s') ∧ (¬ E.Quiet c → A.inv s → A.inv s' ∧ A.rely s s')

/-- An environment in which what is answered and returned is answered and returned in another one
too. -/
structure Env.Restricts (E' E : Env S) : Prop where
  /-- The answers are allowed. -/
  answers : ∀ s q b, E'.answers s q b → E.answers s q b
  /-- So are the results. -/
  returns : ∀ s c r, E'.returns s c r → E.returns s c r

theorem Env.Restricts.refl (E : Env S) : E.Restricts E := ⟨fun _ _ _ h => h, fun _ _ _ h => h⟩

namespace Verified

variable (hV : Verified M E A)

include hV

/-- A run meets the weakest precondition of its program, in every environment that restricts the
one it was derived in. Foreign code that may start something runs where the invariant holds. -/
theorem run_restricted {E' : Env S} (hE : E'.Restricts E) (hR : Sound E A R) {p : Prog S α}
    {s s' : S.State} {a : α} {log : Log S} (h : Run M E' R p s a s' log)
    {Q : α → S.State → Prop} (hwp : p.wp E A Q s) :
    Q a s' ∧ Run M E' (fun c s s' => R c s s' ∧ (¬ E.Quiet c → A.inv s ∧ A.inv s' ∧ A.rely s s'))
      p s a s' log := by
  induction h with
  | ret a s => exact ⟨hwp, .ret a s⟩
  | get _ ih =>
    obtain ⟨hq, hrun⟩ := ih hwp
    exact ⟨hq, .get hrun⟩
  | set _ ih =>
    obtain ⟨hq, hrun⟩ := ih hwp
    exact ⟨hq, .set hrun⟩
  | ask b hb _ ih =>
    obtain ⟨hq, hrun⟩ := ih (hwp b (hE.answers _ _ b hb))
    exact ⟨hq, .ask b hb hrun⟩
  | @yield _ c k s s₁ s' a log r hs hr _ ih =>
    by_cases hquiet : E.Quiet c
    · obtain rfl := (hR c s s₁ hs).1 hquiet
      obtain ⟨hq, hrun⟩ := ih (hwp.1 hquiet r (hE.returns _ _ r hr))
      exact ⟨hq, .yield r ⟨hs, fun hn => absurd hquiet hn⟩ hr hrun⟩
    · obtain ⟨hinv, hk⟩ := hwp.2 hquiet
      obtain ⟨hinv', hrely⟩ := (hR c s s₁ hs).2 hquiet hinv
      obtain ⟨hq, hrun⟩ := ih (hk r s₁ hrely hinv' (hE.returns _ _ r hr))
      exact ⟨hq, .yield r ⟨hs, fun _ => ⟨hinv, hinv', hrely⟩⟩ hr hrun⟩
  | call _ _ ihf ih =>
    obtain ⟨hpost, hf⟩ := ihf (hV.body _ _ hwp.1)
    obtain ⟨hq, hrun⟩ := ih (hwp.2 _ hpost)
    exact ⟨hq, .call hf hrun⟩

theorem run (hR : Sound E A R) {p : Prog S α} {s s' : S.State} {a : α} {log : Log S}
    (h : Run M E R p s a s' log) {Q : α → S.State → Prop} (hwp : p.wp E A Q s) :
    Q a s' ∧ Run M E (fun c s s' => R c s s' ∧ (¬ E.Quiet c → A.inv s ∧ A.inv s' ∧ A.rely s s'))
      p s a s' log := hV.run_restricted (.refl E) hR h hwp

/-- Foreign code keeps the invariant and the rely relation, to any depth. -/
theorem interlude (n : ℕ) (stack : List S.Callback) :
    Sound E A fun c => Interlude M E n (c :: stack) := by
  induction n generalizing stack with
  | zero =>
    rintro c s s' ⟨⟩
    exact ⟨fun _ => rfl, fun _ hinv => ⟨hinv, hV.rely_refl s⟩⟩
  | succ n ih =>
    refine fun c s s' h => ⟨fun hquiet => ?_, fun _ hinv => ?_⟩
    · induction h with
      | refl => rfl
      | tail _ hstep _ =>
        obtain ⟨op, -, hstart, -⟩ := hstep
        exact absurd hstart (hquiet _ _ _)
    · induction h with
      | refl => exact ⟨hinv, hV.rely_refl s⟩
      | tail _ hstep ih' =>
        obtain ⟨hinv₁, hrely₁⟩ := ih'
        obtain ⟨op, log, hstart, hrun⟩ := hstep
        obtain ⟨⟨hinv₂, hrely₂⟩, -⟩ := hV.run (ih (c :: stack)) hrun
          (hV.entry _ _ op hstart hinv₁ nofun)
        exact ⟨hinv₂, hV.rely_trans _ _ _ hrely₁ hrely₂⟩

end Verified

/-! ## What follows for the log -/

namespace Prog

variable (E R) in
/-- `Q` holds of the result, the state and the log of every run, if those of the procedures meet
their contracts. -/
def logs (C : S.Proc → S.State → S.State → Log S → Prop) :
    Prog S α → (α → S.State → Log S → Prop) → S.State → Prop
  | .ret a, Q, s => Q a s []
  | .get k, Q, s => logs C (k s) Q s
  | .set s₁ p, Q, s => logs C p (fun a s' log => Q a s' (.set s s₁ :: log)) s₁
  | .ask q k, Q, s => ∀ b, E.answers s q b → logs C (k b) Q s
  | .yield c k, Q, s => ∀ s₁, R c s s₁ → ∀ r, E.returns s₁ c r →
      logs C (k r) (fun a s' log => Q a s' (.yield c s s₁ r :: log)) s₁
  | .call f p, Q, s => ∀ s₁ log₁, C f s s₁ log₁ →
      logs C p (fun a s' log => Q a s' (log₁ ++ log)) s₁

variable {C : S.Proc → S.State → S.State → Log S → Prop}

theorem logs_mono {p : Prog S α} {Q Q' : α → S.State → Log S → Prop} {s : S.State}
    (h : p.logs E R C Q s) (hQ : ∀ a s' log, Q a s' log → Q' a s' log) : p.logs E R C Q' s := by
  induction p generalizing s Q Q' with
  | ret a => exact hQ a s [] h
  | get k ih => exact ih s h hQ
  | set s' p ih => exact ih h fun a s' log => hQ a s' _
  | ask q k ih => exact fun b hb => ih b (h b hb) hQ
  | yield c k ih => exact fun s₁ hs r hr => ih r (h s₁ hs r hr) fun a s' log => hQ a s' _
  | call f p ih => exact fun s₁ log₁ hf => ih (h s₁ log₁ hf) fun a s' log => hQ a s' _

/-- What always holds holds of every run. -/
theorem logs_of_forall {p : Prog S α} {Q : α → S.State → Log S → Prop} {s : S.State}
    (h : ∀ a s' log, Q a s' log) : p.logs E R C Q s := by
  induction p generalizing s Q with
  | ret a => exact h a s []
  | get k ih => exact ih s h
  | set s' p ih => exact ih fun a s' log => h a s' _
  | ask q k ih => exact fun b _ => ih b h
  | yield c k ih => exact fun s₁ _ r _ => ih r fun a s' log => h a s' _
  | call f p ih => exact fun s₁ log₁ _ => ih fun a s' log => h a s' _

/-- What follows from two derivations follows from both. -/
theorem logs_and {p : Prog S α} {Q Q' : α → S.State → Log S → Prop} {s : S.State}
    (h : p.logs E R C Q s) (h' : p.logs E R C Q' s) :
    p.logs E R C (fun a s' log => Q a s' log ∧ Q' a s' log) s := by
  induction p generalizing s Q Q' with
  | ret a => exact ⟨h, h'⟩
  | get k ih => exact ih s h h'
  | set s' p ih => exact ih h h'
  | ask q k ih => exact fun b hb => ih b (h b hb) (h' b hb)
  | yield c k ih => exact fun s₁ hs r hr => ih r (h s₁ hs r hr) (h' s₁ hs r hr)
  | call f p ih => exact fun s₁ log₁ hf => ih (h s₁ log₁ hf) (h' s₁ log₁ hf)

/-- A derivation holds in every environment that restricts its own, and with stronger contracts. -/
theorem logs_restrict {E' : Env S} {C' : S.Proc → S.State → S.State → Log S → Prop}
    (hE : E'.Restricts E) (hC : ∀ f s s' log, C' f s s' log → C f s s' log) {p : Prog S α}
    {Q : α → S.State → Log S → Prop} {s : S.State} (h : p.logs E R C Q s) :
    p.logs E' R C' Q s := by
  induction p generalizing s Q with
  | ret a => exact h
  | get k ih => exact ih s h
  | set s' p ih => exact ih h
  | ask q k ih => exact fun b hb => ih b (h b (hE.answers _ _ b hb))
  | yield c k ih => exact fun s₁ hs r hr => ih r (h s₁ hs r (hE.returns _ _ r hr))
  | call f p ih => exact fun s₁ log₁ hf => ih (h s₁ log₁ (hC f s s₁ log₁ hf))

theorem logs_bind_iff (p : Prog S α) (f : α → Prog S β) (Q : β → S.State → Log S → Prop)
    (s : S.State) :
    (p.bind f).logs E R C Q s ↔ p.logs E R C (fun a s₁ log₁ =>
      (f a).logs E R C (fun b s' log₂ => Q b s' (log₁ ++ log₂)) s₁) s := by
  induction p generalizing s Q with
  | ret a => rfl
  | get k ih => exact ih s Q s
  | set s' p ih => exact ih _ s'
  | ask q k ih => exact forall_congr' fun b => imp_congr_right fun _ => ih b Q s
  | yield c k ih =>
    exact forall_congr' fun s₁ => imp_congr_right fun _ => forall_congr' fun r =>
      imp_congr_right fun _ => ih r _ s₁
  | call g p ih =>
    refine forall_congr' fun s₁ => forall_congr' fun log₁ => imp_congr_right fun _ => ?_
    refine (ih _ s₁).trans ?_
    simp only [List.append_assoc]

@[simp]
theorem logs_bind (p : Prog S α) (f : α → Prog S β) (Q : β → S.State → Log S → Prop)
    (s : S.State) :
    (p >>= f).logs E R C Q s ↔ p.logs E R C (fun a s₁ log₁ =>
      (f a).logs E R C (fun b s' log₂ => Q b s' (log₁ ++ log₂)) s₁) s := logs_bind_iff p f Q s

@[simp]
theorem logs_map (p : Prog S α) (f : α → β) (Q : β → S.State → Log S → Prop) (s : S.State) :
    (f <$> p).logs E R C Q s ↔ p.logs E R C (fun a s' log => Q (f a) s' log) s := by
  refine (logs_bind_iff p (fun a => ret (f a)) Q s).trans ?_
  simp only [logs, List.append_nil]

@[simp]
theorem logs_pure (a : α) (Q : α → S.State → Log S → Prop) (s : S.State) :
    (pure a : Prog S α).logs E R C Q s ↔ Q a s [] := Iff.rfl

@[simp]
theorem logs_ite (c : Prop) [Decidable c] (p q : Prog S α) (Q : α → S.State → Log S → Prop)
    (s : S.State) :
    (if c then p else q).logs E R C Q s ↔
      if c then p.logs E R C Q s else q.logs E R C Q s := by
  split <;> rfl

end Prog

/-- What is derived from contracts that the procedures meet holds of every run. -/
theorem Run.logs {C : S.Proc → S.State → S.State → Log S → Prop}
    (hC : ∀ f s, (M.body f).logs E R C (fun _ s' log => C f s s' log) s) {p : Prog S α}
    {s s' : S.State} {a : α} {log : Log S} (h : Run M E R p s a s' log)
    {Q : α → S.State → Log S → Prop} (hQ : p.logs E R C Q s) : Q a s' log := by
  induction h with
  | ret a s => exact hQ
  | get _ ih => exact ih hQ
  | @set _ _ s s₁ _ _ _ _ ih => exact ih (Q := fun a s' log => Q a s' (.set s s₁ :: log)) hQ
  | ask b hb _ ih => exact ih (hQ b hb)
  | @yield _ c _ s s₁ _ _ _ r hs hr _ ih =>
    exact ih (Q := fun a s' log => Q a s' (.yield c s s₁ r :: log)) (hQ _ hs r hr)
  | @call _ _ _ _ _ _ _ log₁ _ _ _ ihf ih =>
    exact ih (Q := fun a s' log => Q a s' (log₁ ++ log)) (hQ _ _ (ihf (hC _ _)))

/-! ## Evaluation -/

/-- Start entry points as long as the labels say so. -/
def startAll (start : S.Op → S.State → List (Label S) → Option (S.State × List (Label S))) :
    ℕ → S.State → List (Label S) → Option (S.State × List (Label S))
  | n + 1, s, .start op :: ls => (start op s ls).bind fun (s₁, ls) => startAll start n s₁ ls
  | _, s, ls => some (s, ls)

theorem interlude_of_startAll {stack : List S.Callback} {n : ℕ}
    {start : S.Op → S.State → List (Label S) → Option (S.State × List (Label S))}
    (hstart : ∀ op s ls s₁ ls₁, start op s ls = some (s₁, ls₁) → E.starts stack s op ∧
      ∃ log, Run M E (fun c => Interlude M E n (c :: stack)) (M.entry op) s () s₁ log)
    {m : ℕ} {s s' : S.State} {ls ls' : List (Label S)}
    (h : startAll start m s ls = some (s', ls')) : Interlude M E (n + 1) stack s s' := by
  induction m generalizing s ls with
  | zero =>
    cases h
    exact .refl
  | succ m ih =>
    rcases ls with _ | ⟨_ | _ | op | _, ls⟩
    case cons.start =>
      obtain ⟨⟨s₁, ls₁⟩, hop, hrest⟩ := Option.bind_eq_some_iff.mp h
      obtain ⟨hstarts, log, hrun⟩ := hstart _ _ _ _ _ hop
      exact Relation.ReflTransGen.head ⟨op, log, hstarts, hrun⟩ (ih hrest)
    all_goals
      cases h
      exact .refl

section Replay

variable [∀ s q a, Decidable (E.answers s q a)] [∀ s c r, Decidable (E.returns s c r)]

variable (E) in
/-- Follow labels through a program, with what foreign code and the procedures do. -/
def Prog.replay (enter : S.Callback → S.State → List (Label S) → Option (S.State × List (Label S)))
    (invoke : S.Proc → S.State → List (Label S) → Option (S.State × Log S × List (Label S))) :
    Prog S α → S.State → List (Label S) → Option (α × S.State × Log S × List (Label S))
  | .ret a, s, ls => some (a, s, [], ls)
  | .get k, s, ls => replay enter invoke (k s) s ls
  | .set s₁ p, s, ls =>
    (replay enter invoke p s₁ ls).map fun (a, s', log, ls) => (a, s', .set s s₁ :: log, ls)
  | .ask q k, s, .answer b :: ls =>
    if E.answers s q b then replay enter invoke (k b) s ls else none
  | .yield c k, s, ls =>
    match enter c s ls with
    | some (s₁, .resume r :: ls) =>
      if E.returns s₁ c r then
        (replay enter invoke (k r) s₁ ls).map fun (a, s', log, ls) =>
          (a, s', .yield c s s₁ r :: log, ls)
      else none
    | _ => none
  | .call f p, s, ls =>
    (invoke f s ls).bind fun (s₁, log₁, ls) =>
      (replay enter invoke p s₁ ls).map fun (a, s', log₂, ls) => (a, s', log₁ ++ log₂, ls)
  | _, _, _ => none

theorem Prog.run_of_replay
    {enter : S.Callback → S.State → List (Label S) → Option (S.State × List (Label S))}
    {invoke : S.Proc → S.State → List (Label S) → Option (S.State × Log S × List (Label S))}
    (henter : ∀ c s ls s₁ ls₁, enter c s ls = some (s₁, ls₁) → R c s s₁)
    (hinvoke : ∀ f s ls s₁ log ls₁, invoke f s ls = some (s₁, log, ls₁) →
      Run M E R (M.body f) s () s₁ log) {p : Prog S α} {s s' : S.State} {a : α} {log : Log S}
    {ls ls' : List (Label S)} (h : p.replay E enter invoke s ls = some (a, s', log, ls')) :
    Run M E R p s a s' log := by
  induction p generalizing s ls log with
  | ret b =>
    cases h
    exact .ret _ _
  | get k ih => exact .get (ih s h)
  | set s₁ p ih =>
    obtain ⟨⟨b, s₂, log₁, ls₁⟩, hp, heq⟩ := Option.map_eq_some_iff.mp h
    cases heq
    exact .set (ih hp)
  | ask q k ih =>
    rcases ls with _ | ⟨_ | b | _ | _, ls⟩
    case cons.answer =>
      rw [Prog.replay] at h
      split at h
      · rename_i hb
        exact .ask b hb (ih b h)
      · cases h
    all_goals cases h
  | yield c k ih =>
    rw [Prog.replay] at h
    split at h
    · rename_i heq
      split at h
      · rename_i hr
        obtain ⟨⟨b, s₂, log₁, ls₁⟩, hp, heq'⟩ := Option.map_eq_some_iff.mp h
        cases heq'
        exact .yield _ (henter _ _ _ _ _ heq) hr (ih _ hp)
      · cases h
    · cases h
  | call f p ih =>
    obtain ⟨⟨s₁, log₁, ls₁⟩, hf, hrest⟩ := Option.bind_eq_some_iff.mp h
    obtain ⟨⟨b, s₂, log₂, ls₂⟩, hp, heq⟩ := Option.map_eq_some_iff.mp hrest
    cases heq
    exact .call (hinvoke _ _ _ _ _ _ hf) (ih hp)

variable [∀ stack s op, Decidable (E.starts stack s op)]

variable (M E) in
/-- Follow labels through a program, to a given depth. -/
def replay : ℕ → List S.Callback → Prog S Unit → S.State → List (Label S) →
    Option (S.State × Log S × List (Label S))
  | 0, _, _, _, _ => none
  | n + 1, stack, p, s, ls =>
    (p.replay E
      (fun c => startAll (fun op s ls =>
        if E.starts (c :: stack) s op then
          (replay n (c :: stack) (M.entry op) s ls).map fun (s₁, _, ls) => (s₁, ls)
        else none) n)
      (fun f => replay n stack (M.body f)) s ls).map Prod.snd

/-- The labels make up a run. -/
theorem run_of_replay {n : ℕ} {stack : List S.Callback} {p : Prog S Unit} {s s' : S.State}
    {log : Log S} {ls ls' : List (Label S)} (h : replay M E n stack p s ls = some (s', log, ls')) :
    Run M E (fun c => Interlude M E n (c :: stack)) p s () s' log := by
  induction n generalizing stack p s s' log ls ls' with
  | zero => cases h
  | succ n ih =>
    obtain ⟨⟨⟨⟩, s₁, log₁, ls₁⟩, hp, heq⟩ := Option.map_eq_some_iff.mp h
    cases heq
    refine Prog.run_of_replay (fun c s ls s₁ ls₁ hc => ?_) (fun f s ls s₁ log ls₁ hf => ?_) hp
    · refine interlude_of_startAll (fun op s ls s₁ ls₁ hop => ?_) hc
      split at hop
      · rename_i hstarts
        obtain ⟨⟨s₂, log₂, ls₂⟩, hrun, heq⟩ := Option.map_eq_some_iff.mp hop
        cases heq
        exact ⟨hstarts, log₂, ih hrun⟩
      · cases hop
    · exact (ih hf).mono fun c _ _ hc => hc.succ

end Replay

end Reentrant
