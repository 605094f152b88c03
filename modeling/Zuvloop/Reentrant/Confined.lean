import Mathlib.Data.List.Basic
import Zuvloop.Reentrant.Inversion

/-!
# Programs confined to given changes

A program is confined to a relation if every change it makes itself, from the state it finds itself
in, is in the relation. That is a matter of the program alone: no environment and no specification
comes into it. A specification that admits the changes is kept by the program, and every run of it
stays within any preorder that contains the changes and what foreign code does.

## Main definitions

* `Prog.confined`: what has to hold of a state for a program to make only the given changes.
* `Spec.Admits`: a specification that is kept by the changes.

## Main results

* `Prog.confined_keeps`: a confined program keeps what admits its changes.
* `Run.confined`: where the run of a confined program goes, and what its log consists of.
* `Prog.ends_of_confined`: confined programs without procedures end.
-/

namespace Reentrant

variable {S : Signature} {α β : Type}

namespace Prog

/-- From `s`, the program makes only changes of `step` and calls only procedures of `procs`, and
`Q` holds of its result and its last state. Foreign code and procedures may leave any state. -/
def confined (step : S.State → S.State → Prop) (procs : S.Proc → Prop) :
    Prog S α → (α → S.State → Prop) → S.State → Prop
  | .ret a, Q, s => Q a s
  | .get k, Q, s => confined step procs (k s) Q s
  | .set s₁ p, Q, s => step s s₁ ∧ confined step procs p Q s₁
  | .ask _ k, Q, s => ∀ a, confined step procs (k a) Q s
  | .yield _ k, Q, _ => ∀ r s₁, confined step procs (k r) Q s₁
  | .call f p, Q, _ => procs f ∧ ∀ s₁, confined step procs p Q s₁

variable {step step' : S.State → S.State → Prop} {procs procs' : S.Proc → Prop} {s : S.State}

theorem confined_mono {p : Prog S α} {Q Q' : α → S.State → Prop}
    (h : p.confined step procs Q s) (hstep : ∀ s s', step s s' → step' s s')
    (hprocs : ∀ f, procs f → procs' f) (hQ : ∀ a s', Q a s' → Q' a s') :
    p.confined step' procs' Q' s := by
  induction p generalizing s with
  | ret a => exact hQ a s h
  | get k ih => exact ih s h
  | set s₁ p ih => exact ⟨hstep _ _ h.1, ih h.2⟩
  | ask q k ih => exact fun a => ih a (h a)
  | yield c k ih => exact fun r s₁ => ih r (h r s₁)
  | call f p ih => exact ⟨hprocs f h.1, fun s₁ => ih (h.2 s₁)⟩

theorem confined_bind_iff (p : Prog S α) (f : α → Prog S β) (Q : β → S.State → Prop)
    (s : S.State) : (p.bind f).confined step procs Q s ↔
      p.confined step procs (fun a s' => (f a).confined step procs Q s') s := by
  induction p generalizing s with
  | ret a => rfl
  | get k ih => exact ih s s
  | set s₁ p ih => exact and_congr_right fun _ => ih s₁
  | ask q k ih => exact forall_congr' fun a => ih a s
  | yield c k ih => exact forall_congr' fun r => forall_congr' fun s₁ => ih r s₁
  | call g p ih => exact and_congr_right fun _ => forall_congr' fun s₁ => ih s₁

@[simp]
theorem confined_bind (p : Prog S α) (f : α → Prog S β) (Q : β → S.State → Prop) (s : S.State) :
    (p >>= f).confined step procs Q s ↔
      p.confined step procs (fun a s' => (f a).confined step procs Q s') s :=
  confined_bind_iff p f Q s

@[simp]
theorem confined_map (p : Prog S α) (f : α → β) (Q : β → S.State → Prop) (s : S.State) :
    (f <$> p).confined step procs Q s ↔ p.confined step procs (fun a s' => Q (f a) s') s :=
  confined_bind_iff p (fun a => ret (f a)) Q s

@[simp]
theorem confined_pure (a : α) (Q : α → S.State → Prop) (s : S.State) :
    (pure a : Prog S α).confined step procs Q s ↔ Q a s := Iff.rfl

@[simp]
theorem confined_read (Q : S.State → S.State → Prop) (s : S.State) :
    (read : Prog S S.State).confined step procs Q s ↔ Q s s := Iff.rfl

@[simp]
theorem confined_modify (f : S.State → S.State) (Q : Unit → S.State → Prop) (s : S.State) :
    (modify f : Prog S Unit).confined step procs Q s ↔ step s (f s) ∧ Q () (f s) := Iff.rfl

@[simp]
theorem confined_request (q : S.Request) (Q : S.Answer → S.State → Prop) (s : S.State) :
    (request q : Prog S S.Answer).confined step procs Q s ↔ ∀ a, Q a s := Iff.rfl

@[simp]
theorem confined_foreign (c : S.Callback) (Q : S.Result → S.State → Prop) (s : S.State) :
    (foreign c : Prog S S.Result).confined step procs Q s ↔ ∀ r s₁, Q r s₁ := Iff.rfl

@[simp]
theorem confined_invoke (f : S.Proc) (Q : Unit → S.State → Prop) (s : S.State) :
    (invoke f : Prog S Unit).confined step procs Q s ↔ procs f ∧ ∀ s₁, Q () s₁ := Iff.rfl

@[simp]
theorem confined_ite (c : Prop) [Decidable c] (p q : Prog S α) (Q : α → S.State → Prop)
    (s : S.State) : (if c then p else q).confined step procs Q s ↔
      if c then p.confined step procs Q s else q.confined step procs Q s := by
  split <;> rfl

end Prog

/-! ## Specifications -/

/-- The specification is kept by the changes, and by the procedures if they meet their contracts. -/
structure Spec.Admits (A : Spec S) (step : S.State → S.State → Prop) (procs : S.Proc → Prop) :
    Prop where
  /-- The rely relation holds when nothing happened. -/
  refl : ∀ s, A.rely s s
  /-- The rely relation composes. -/
  trans : ∀ s₁ s₂ s₃, A.rely s₁ s₂ → A.rely s₂ s₃ → A.rely s₁ s₃
  /-- Every change keeps the invariant and is in the rely relation. -/
  step : ∀ s s', A.inv s → step s s' → A.inv s' ∧ A.rely s s'
  /-- The procedures may be called wherever the invariant holds. -/
  pre : ∀ f s, procs f → A.inv s → A.pre f s
  /-- They keep the specification. -/
  post : ∀ f s s', procs f → A.post f s s' → A.inv s' ∧ A.rely s s'

namespace Prog

variable {step : S.State → S.State → Prop} {procs : S.Proc → Prop} {A : Spec S} {E : Env S}

theorem wp_of_confined (hA : A.Admits step procs) {p : Prog S α} {Q : α → S.State → Prop}
    {s₀ s : S.State} (h : p.confined step procs Q s) (hinv : A.inv s) (hrely : A.rely s₀ s) :
    p.wp E A (fun a s' => (A.inv s' ∧ A.rely s₀ s') ∧ Q a s') s := by
  induction p generalizing s with
  | ret a => exact ⟨⟨hinv, hrely⟩, h⟩
  | get k ih => exact ih s h hinv hrely
  | set s₁ p ih =>
    obtain ⟨hinv₁, hrely₁⟩ := hA.step s s₁ hinv h.1
    exact ih h.2 hinv₁ (hA.trans _ _ _ hrely hrely₁)
  | ask q k ih => exact fun a _ => ih a (h a) hinv hrely
  | yield c k ih =>
    refine ⟨fun _ r _ => ih r (h r s) hinv hrely, fun _ => ⟨hinv, fun r s₁ hrely₁ hinv₁ _ => ?_⟩⟩
    exact ih r (h r s₁) hinv₁ (hA.trans _ _ _ hrely hrely₁)
  | call f p ih =>
    refine ⟨hA.pre f s h.1 hinv, fun s₁ hpost => ?_⟩
    obtain ⟨hinv₁, hrely₁⟩ := hA.post f s s₁ h.1 hpost
    exact ih (h.2 s₁) hinv₁ (hA.trans _ _ _ hrely hrely₁)

/-- A confined program keeps what admits its changes. -/
theorem confined_keeps (hA : A.Admits step procs) {p : Prog S α} {Q : α → S.State → Prop}
    (h : ∀ s, p.confined step procs Q s) : p.Keeps E A :=
  fun s hinv => wp_mono (wp_of_confined hA (h s) hinv (hA.refl s)) fun _ _ hs' => hs'.1

end Prog

/-! ## Runs -/

/-- A run of a confined program without procedures stays within every preorder that contains its
changes and what foreign code does, and its own changes are in its log. -/
theorem Run.confined {M : System S} {E : Env S} {R : S.Callback → S.State → S.State → Prop}
    {step G : S.State → S.State → Prop} (hrefl : ∀ s, G s s)
    (htrans : ∀ s₁ s₂ s₃, G s₁ s₂ → G s₂ s₃ → G s₁ s₃) (hstep : ∀ s s', step s s' → G s s')
    (hR : ∀ c s s', R c s s' → G s s') {p : Prog S α} {Q : α → S.State → Prop} {s s' : S.State}
    {a : α} {log : Log S} (hrun : Run M E R p s a s' log)
    (h : p.confined step (fun _ => False) Q s) :
    Q a s' ∧ G s s' ∧ (∀ s₁ s₂, .set s₁ s₂ ∈ log → step s₁ s₂) ∧
      ∀ e ∈ log, ∀ σ ∈ e.states, G s σ ∧ G σ s' := by
  induction hrun with
  | ret a s => exact ⟨h, hrefl s, by simp, by simp⟩
  | get _ ih => exact ih h
  | @set _ _ s s₁ s' _ _ _ ih =>
    obtain ⟨hQ, hG, hsets, hstates⟩ := ih h.2
    have hfirst := hstep s s₁ h.1
    refine ⟨hQ, htrans _ _ _ hfirst hG, fun s₂ s₃ hmem => ?_, fun e he σ hσ => ?_⟩
    · rcases List.mem_cons.mp hmem with heq | hmem
      · cases heq
        exact h.1
      · exact hsets s₂ s₃ hmem
    · rcases List.mem_cons.mp he with rfl | he
      · rcases List.mem_pair.mp hσ with rfl | rfl
        · exact ⟨hrefl _, htrans _ _ _ hfirst hG⟩
        · exact ⟨hfirst, hG⟩
      · obtain ⟨hto, hfrom⟩ := hstates e he σ hσ
        exact ⟨htrans _ _ _ hfirst hto, hfrom⟩
  | ask b _ _ ih => exact ih (h b)
  | @yield _ _ _ s s₁ s' _ _ r hc _ _ ih =>
    obtain ⟨hQ, hG, hsets, hstates⟩ := ih (h r s₁)
    have hfirst := hR _ s s₁ hc
    refine ⟨hQ, htrans _ _ _ hfirst hG, fun s₂ s₃ hmem => ?_, fun e he σ hσ => ?_⟩
    · exact hsets s₂ s₃ ((List.mem_cons.mp hmem).resolve_left (by simp))
    · rcases List.mem_cons.mp he with rfl | he
      · rcases List.mem_pair.mp hσ with rfl | rfl
        · exact ⟨hrefl _, htrans _ _ _ hfirst hG⟩
        · exact ⟨hfirst, hG⟩
      · obtain ⟨hto, hfrom⟩ := hstates e he σ hσ
        exact ⟨htrans _ _ _ hfirst hto, hfrom⟩
  | call _ _ _ _ => exact False.elim h.1

/-- A program without procedures ends. -/
theorem Prog.ends_of_confined {M : System S} {E : Env S}
    {R : S.Callback → S.State → S.State → Prop} {step : S.State → S.State → Prop} {p : Prog S α}
    {Q : α → S.State → Prop} {s : S.State} (h : p.confined step (fun _ => False) Q s) :
    Ends M E R p s := by
  induction p generalizing s with
  | ret a => exact .ret a s
  | get k ih => exact .get (ih s h)
  | set s₁ p ih => exact .set (ih h.2)
  | ask q k ih => exact .ask fun a _ => ih a (h a)
  | yield c k ih => exact .yield fun s₁ r _ _ => ih r (h r s₁)
  | call f p => exact False.elim h.1

end Reentrant
