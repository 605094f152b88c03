import Zuvloop.Reentrant.Runs

/-!
# Runs in which foreign code makes given calls

`Exec` runs a program with foreign code that returns at once. Here foreign code starts given entry
points before it returns, one after the other, each of which runs to its end with foreign code that
returns at once.

## Main definitions

* `Calls`: entry points that run one after the other.
* `ExecCalling`: a run of a program in which foreign code makes given calls.
* `Prog.after`: what has to hold before such a run for something to hold after it.
* `Prog.follow`: such a run, from a script of what the environment answers.

## Main results

* `ExecCalling.after`: what holds after every run holds after a given one.
* `Prog.execCalling_of_follow`: a script is a run.
-/

namespace Reentrant

variable {S : Signature}

/-- The entry points run one after the other, with foreign code that returns at once. -/
inductive Calls (M : System S) (E : Env S) : List S.Op → S.State → S.State → Prop where
  | nil (s : S.State) : Calls M E [] s s
  | cons {op : S.Op} {ops : List S.Op} {s s₁ s' : S.State} :
      Exec M E (M.entry op) s () s₁ → Calls M E ops s₁ s' → Calls M E (op :: ops) s s'

/-- `ExecCalling M E calls p s a s'`: from `s`, the program can return `a` in `s'`, with foreign
code that makes the calls `calls c` before it returns from `c`. -/
inductive ExecCalling (M : System S) (E : Env S) (calls : S.Callback → List S.Op) :
    {α : Type} → Prog S α → S.State → α → S.State → Prop where
  | ret {α : Type} (a : α) (s : S.State) : ExecCalling M E calls (.ret a) s a s
  | get {α : Type} {k : S.State → Prog S α} {s s' : S.State} {a : α} :
      ExecCalling M E calls (k s) s a s' → ExecCalling M E calls (.get k) s a s'
  | set {α : Type} {p : Prog S α} {s s₁ s' : S.State} {a : α} :
      ExecCalling M E calls p s₁ a s' → ExecCalling M E calls (.set s₁ p) s a s'
  | ask {α : Type} {q : S.Request} {k : S.Answer → Prog S α} {s s' : S.State} {a : α}
      (b : S.Answer) : E.answers s q b → ExecCalling M E calls (k b) s a s' →
      ExecCalling M E calls (.ask q k) s a s'
  | yield {α : Type} {c : S.Callback} {k : S.Result → Prog S α} {s s₁ s' : S.State} {a : α}
      (r : S.Result) : Calls M E (calls c) s s₁ → E.returns s₁ c r →
      ExecCalling M E calls (k r) s₁ a s' → ExecCalling M E calls (.yield c k) s a s'
  | call {α : Type} {f : S.Proc} {p : Prog S α} {s s₁ s' : S.State} {a : α} :
      ExecCalling M E calls (M.body f) s () s₁ → ExecCalling M E calls p s₁ a s' →
      ExecCalling M E calls (.call f p) s a s'

variable {M : System S} {E : Env S} {calls : S.Callback → List S.Op} {α β : Type}

/-- Foreign code that returns at once makes no calls. -/
theorem Exec.calling {p : Prog S α} {s s' : S.State} {a : α} (h : Exec M E p s a s') :
    ExecCalling M E (fun _ => []) p s a s' := by
  induction h with
  | ret a s => exact .ret a s
  | get _ ih => exact .get ih
  | set _ ih => exact .set ih
  | ask b hb _ ih => exact .ask b hb ih
  | yield r hr _ ih => exact .yield r (.nil _) hr ih
  | call _ _ ihf ih => exact .call ihf ih

namespace Prog

variable (M E calls) in
/-- `Q` holds whenever the program has returned, with foreign code that makes the given calls. -/
def after : Prog S α → (α → S.State → Prop) → S.State → Prop
  | .ret a, Q, s => Q a s
  | .get k, Q, s => after (k s) Q s
  | .set s' p, Q, _ => after p Q s'
  | .ask q k, Q, s => ∀ b, E.answers s q b → after (k b) Q s
  | .yield c k, Q, s => ∀ s₁, Calls M E (calls c) s s₁ → ∀ r, E.returns s₁ c r → after (k r) Q s₁
  | .call f p, Q, s => ∀ s₁, ExecCalling M E calls (M.body f) s () s₁ → after p Q s₁

theorem after_bind_iff (p : Prog S α) (f : α → Prog S β) (Q : β → S.State → Prop) (s : S.State) :
    after M E calls (p.bind f) Q s ↔
      after M E calls p (fun a s' => after M E calls (f a) Q s') s := by
  induction p generalizing s with
  | ret a => rfl
  | get k ih => exact ih s s
  | set s' p ih => exact ih s'
  | ask q k ih => exact forall_congr' fun b => imp_congr_right fun _ => ih b s
  | yield c k ih =>
    exact forall_congr' fun s₁ => imp_congr_right fun _ => forall_congr' fun r =>
      imp_congr_right fun _ => ih r s₁
  | call g p ih => exact forall_congr' fun s₁ => imp_congr_right fun _ => ih s₁

@[simp]
theorem after_bind (p : Prog S α) (f : α → Prog S β) (Q : β → S.State → Prop) (s : S.State) :
    after M E calls (p >>= f) Q s ↔
      after M E calls p (fun a s' => after M E calls (f a) Q s') s := after_bind_iff p f Q s

@[simp]
theorem after_map (p : Prog S α) (f : α → β) (Q : β → S.State → Prop) (s : S.State) :
    after M E calls (f <$> p) Q s ↔ after M E calls p (fun a s' => Q (f a) s') s :=
  after_bind_iff p (fun a => ret (f a)) Q s

@[simp]
theorem after_pure (a : α) (Q : α → S.State → Prop) (s : S.State) :
    after M E calls (pure a : Prog S α) Q s ↔ Q a s := Iff.rfl

@[simp]
theorem after_ite (c : Prop) [Decidable c] (p q : Prog S α) (Q : α → S.State → Prop)
    (s : S.State) :
    after M E calls (if c then p else q) Q s ↔
      if c then after M E calls p Q s else after M E calls q Q s := by
  split <;> rfl

/-- What follows from what holds after a program holds after it. -/
theorem after_mono {p : Prog S α} {Q Q' : α → S.State → Prop} {s : S.State}
    (h : p.after M E calls Q s) (hQ : ∀ a s', Q a s' → Q' a s') : p.after M E calls Q' s := by
  induction p generalizing s with
  | ret a => exact hQ a s h
  | get k ih => exact ih s h
  | set s' p ih => exact ih h
  | ask q k ih => exact fun b hb => ih b (h b hb)
  | yield c k ih => exact fun s₁ hcalls r hr => ih r (h s₁ hcalls r hr)
  | call f p ih => exact fun s₁ hf => ih (h s₁ hf)

/-- What always holds holds after a program. -/
theorem after_of_forall {p : Prog S α} {Q : α → S.State → Prop} {s : S.State}
    (h : ∀ a s', Q a s') : after M E calls p Q s := by
  induction p generalizing s with
  | ret a => exact h a s
  | get k ih => exact ih s
  | set s' p ih => exact ih
  | ask q k ih => exact fun b _ => ih b
  | yield c k ih => exact fun _ _ r _ => ih r
  | call f p ih => exact fun _ _ => ih

variable (M E calls) in
/-- The program ends in a state that is related to the one it started in. -/
def Follows (R : S.State → S.State → Prop) (p : Prog S α) : Prop :=
  ∀ s, p.after M E calls (fun _ s' => R s s') s

/-- Programs compose along a transitive relation. -/
theorem Follows.bind {R : S.State → S.State → Prop}
    (htrans : ∀ s₁ s₂ s₃, R s₁ s₂ → R s₂ s₃ → R s₁ s₃) {p : Prog S α} {f : α → Prog S β}
    (hp : Follows M E calls R p) (hf : ∀ a, Follows M E calls R (f a)) :
    Follows M E calls R (p >>= f) := by
  intro s
  rw [after_bind]
  refine after_mono (hp s) fun a s₁ h₁ => after_mono (hf a s₁) fun _ s₂ h₂ => ?_
  exact htrans s s₁ s₂ h₁ h₂

theorem Follows.ite {R : S.State → S.State → Prop} {c : Prop} [Decidable c] {p q : Prog S α}
    (hp : Follows M E calls R p) (hq : Follows M E calls R q) :
    Follows M E calls R (if c then p else q) := by
  split
  · exact hp
  · exact hq

end Prog

/-- What holds after every run holds after this one. -/
theorem ExecCalling.after {p : Prog S α} {Q : α → S.State → Prop} {s s' : S.State} {a : α}
    (h : ExecCalling M E calls p s a s') (hQ : p.after M E calls Q s) : Q a s' := by
  induction h with
  | ret a s => exact hQ
  | get _ ih => exact ih hQ
  | set _ ih => exact ih hQ
  | ask b hb _ ih => exact ih (hQ b hb)
  | yield r hcalls hr _ ih => exact ih (hQ _ hcalls r hr)
  | call hf _ _ ih => exact ih (hQ _ hf)

/-- What holds after a program that foreign code does not reenter. -/
theorem Exec.after {p : Prog S α} {Q : α → S.State → Prop} {s s' : S.State} {a : α}
    (h : Exec M E p s a s') (hQ : p.after M E (fun _ => []) Q s) : Q a s' := h.calling.after hQ

/-- Foreign code that makes no calls returns at once. -/
theorem ExecCalling.exec {p : Prog S α} {s s' : S.State} {a : α}
    (h : ExecCalling M E (fun _ => []) p s a s') : Exec M E p s a s' := by
  induction h with
  | ret a s => exact .ret a s
  | get _ ih => exact .get ih
  | set _ ih => exact .set ih
  | ask b hb _ ih => exact .ask b hb ih
  | yield r hnone hr _ ih =>
    cases hnone
    exact .yield r hr ih
  | call _ _ ihf ih => exact .call ihf ih

theorem Calls.of_cons {op : S.Op} {ops : List S.Op} {s s' : S.State}
    (h : Calls M E (op :: ops) s s') :
    ∃ s₁, Exec M E (M.entry op) s () s₁ ∧ Calls M E ops s₁ s' := by
  cases h with
  | cons hop hrest => exact ⟨_, hop, hrest⟩

/-! ## Evaluation -/

/-- What the environment answers and what foreign code returns, in turn. -/
abbrev Script (S : Signature) : Type := List S.Answer × List S.Result

namespace Prog

variable (E) [∀ s q a, Decidable (E.answers s q a)] [∀ s c r, Decidable (E.returns s c r)]

/-- Follow a script through a program without procedures, with foreign code that does `enter` before
it returns. -/
def follow (enter : S.Callback → S.State → Script S → Option (S.State × Script S)) :
    Prog S α → S.State → Script S → Option (α × S.State × Script S)
  | .ret a, s, w => some (a, s, w)
  | .get k, s, w => follow enter (k s) s w
  | .set s' p, _, w => follow enter p s' w
  | .ask _ _, _, ([], _) => none
  | .ask q k, s, (b :: answers, results) =>
    if E.answers s q b then follow enter (k b) s (answers, results) else none
  | .yield c k, s, w =>
    match enter c s w with
    | none | some (_, _, []) => none
    | some (s₁, answers, r :: results) =>
      if E.returns s₁ c r then follow enter (k r) s₁ (answers, results) else none
  | .call _ _, _, _ => none

variable (M) in
/-- Follow a script through entry points. -/
def followAll : List S.Op → S.State → Script S → Option (S.State × Script S)
  | [], s, w => some (s, w)
  | op :: ops, s, w =>
    match follow E (fun _ s w => some (s, w)) (M.entry op) s w with
    | none => none
    | some (_, s₁, w₁) => followAll ops s₁ w₁

variable {E}

/-- A script is a run. -/
theorem execCalling_of_follow
    {enter : S.Callback → S.State → Script S → Option (S.State × Script S)}
    (henter : ∀ c s w s₁ w₁, enter c s w = some (s₁, w₁) → Calls M E (calls c) s s₁)
    {p : Prog S α} {s s' : S.State} {w w' : Script S} {a : α}
    (h : follow E enter p s w = some (a, s', w')) : ExecCalling M E calls p s a s' := by
  induction p generalizing s w with
  | ret b =>
    cases h
    exact .ret _ _
  | get k ih => exact .get (ih s h)
  | set s₁ p ih => exact .set (ih h)
  | ask q k ih =>
    obtain ⟨_ | ⟨b, answers⟩, results⟩ := w
    · cases h
    · rw [follow] at h
      split at h
      · rename_i hb
        exact .ask b hb (ih b h)
      · cases h
  | yield c k ih =>
    rw [follow] at h
    split at h
    · cases h
    · cases h
    · rename_i heq
      split at h
      · rename_i hr
        exact .yield _ (henter _ _ _ _ _ heq) hr (ih _ h)
      · cases h
  | call f p ih => cases h

theorem calls_of_followAll {ops : List S.Op} {s s' : S.State} {w w' : Script S}
    (h : followAll M E ops s w = some (s', w')) : Calls M E ops s s' := by
  induction ops generalizing s w with
  | nil =>
    cases h
    exact .nil _
  | cons op ops ih =>
    rw [followAll] at h
    split at h
    · cases h
    · rename_i heq
      have hquiet : ExecCalling M E (fun _ => []) _ _ _ _ :=
        execCalling_of_follow (fun c s w s₁ w₁ hsome => by cases hsome; exact .nil s) heq
      exact .cons hquiet.exec (ih h)

end Prog

/-- No calls leave the state alone. -/
theorem Calls.eq_of_nil {s s' : S.State} (h : Calls M E [] s s') : s' = s := by
  cases h
  rfl

end Reentrant
