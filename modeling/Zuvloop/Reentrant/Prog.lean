import Mathlib.Tactic.Common

/-!
# Programs that foreign code can reenter

A native extension runs in segments: between two segments it calls back into foreign code, which
may call any of the extension's entry points again before it returns. `Prog` is the syntax of
such code. Besides reading and writing the state it can

* `ask` the outside a question that is answered at once, without running foreign code (a system
  call, an allocation);
* `yield` to foreign code, which runs until it returns a result;
* `call` a named procedure, which is how unbounded loops are written.

`Prog.wp` is the weakest precondition of a program under an environment and a specification. At
a `yield` the program has to establish the invariant, and may only assume the invariant and the
rely relation when it is resumed; across a `call` it uses the procedure's contract. The operational
meaning of these programs and the soundness of `wp` are in `Zuvloop.Reentrant.Machine`.
-/

namespace Reentrant

/-- The types a family of programs is written over. -/
structure Signature where
  /-- The state of the native code. -/
  State : Type
  /-- Questions answered at once. -/
  Request : Type
  /-- Their answers. -/
  Answer : Type
  /-- Calls that run foreign code. -/
  Callback : Type
  /-- What foreign code returns. -/
  Result : Type
  /-- Named procedures. -/
  Proc : Type
  /-- Entry points. -/
  Op : Type

/-- A program over a signature, with a result in `α`. -/
inductive Prog (S : Signature) (α : Type) : Type where
  | ret (a : α)
  | get (k : S.State → Prog S α)
  | set (s : S.State) (p : Prog S α)
  | ask (q : S.Request) (k : S.Answer → Prog S α)
  | yield (c : S.Callback) (k : S.Result → Prog S α)
  | call (f : S.Proc) (p : Prog S α)

namespace Prog

variable {S : Signature} {α β : Type}

/-- Run `p` and continue with its result. -/
protected def bind : Prog S α → (α → Prog S β) → Prog S β
  | ret a, f => f a
  | get k, f => get fun s => (k s).bind f
  | set s p, f => set s (p.bind f)
  | ask q k, f => ask q fun a => (k a).bind f
  | yield c k, f => yield c fun r => (k r).bind f
  | call g p, f => call g (p.bind f)

theorem bind_ret (p : Prog S α) : p.bind ret = p := by
  induction p with
  | ret a => rfl
  | get k ih => exact congrArg get (funext ih)
  | set s p ih => exact congrArg (set s) ih
  | ask q k ih => exact congrArg (ask q) (funext ih)
  | yield c k ih => exact congrArg (yield c) (funext ih)
  | call f p ih => exact congrArg (call f) ih

instance : Monad (Prog S) where
  pure := ret
  bind := Prog.bind

/-- Read the state. -/
def read : Prog S S.State := get ret

/-- Change the state. -/
def modify (f : S.State → S.State) : Prog S Unit := get fun s => set (f s) (ret ())

/-- Ask the outside. -/
def request (q : S.Request) : Prog S S.Answer := ask q ret

/-- Run foreign code. -/
def foreign (c : S.Callback) : Prog S S.Result := yield c ret

/-- Call a named procedure. -/
def invoke (f : S.Proc) : Prog S Unit := call f (ret ())

end Prog

/-- What the outside may do. -/
structure Env (S : Signature) where
  /-- The answers a question may get. -/
  answers : S.State → S.Request → S.Answer → Prop
  /-- The results foreign code may return. -/
  returns : S.State → S.Callback → S.Result → Prop
  /-- The entry points that may be started while the given calls into foreign code, innermost
  first, have not returned. -/
  starts : List S.Callback → S.State → S.Op → Prop

/-- Foreign code that starts nothing while it runs. -/
def Env.Quiet {S : Signature} (E : Env S) (c : S.Callback) : Prop :=
  ∀ stack s op, ¬ E.starts (c :: stack) s op

/-- What is to be proved of a family of programs. -/
structure Spec (S : Signature) where
  /-- Holds whenever foreign code runs. -/
  inv : S.State → Prop
  /-- Relates the states in which foreign code starts and returns. -/
  rely : S.State → S.State → Prop
  /-- What a procedure may assume. -/
  pre : S.Proc → S.State → Prop
  /-- What a procedure establishes, in terms of the state it was called in. -/
  post : S.Proc → S.State → S.State → Prop

namespace Prog

variable {S : Signature} {α β : Type} (E : Env S) (A : Spec S)

/-- The weakest precondition: started in `s`, the program keeps the specification at every
`yield` and `call`, and `Q` holds of its result and final state if it returns. -/
def wp : Prog S α → (α → S.State → Prop) → S.State → Prop
  | ret a, Q, s => Q a s
  | get k, Q, s => wp (k s) Q s
  | set s' p, Q, _ => wp p Q s'
  | ask q k, Q, s => ∀ a, E.answers s q a → wp (k a) Q s
  | yield c k, Q, s =>
    (E.Quiet c → ∀ r, E.returns s c r → wp (k r) Q s) ∧
      (¬ E.Quiet c → A.inv s ∧
        ∀ r s', A.rely s s' → A.inv s' → E.returns s' c r → wp (k r) Q s')
  | call f p, Q, s => A.pre f s ∧ ∀ s', A.post f s s' → wp p Q s'

variable {E A}

theorem wp_mono {p : Prog S α} {Q Q' : α → S.State → Prop} {s : S.State}
    (h : wp E A p Q s) (hQ : ∀ a s', Q a s' → Q' a s') : wp E A p Q' s := by
  induction p generalizing s with
  | ret a => exact hQ a s h
  | get k ih => exact ih s h
  | set s' p ih => exact ih h
  | ask q k ih => exact fun a ha => ih a (h a ha)
  | yield c k ih =>
    refine ⟨fun hq r hr => ih r (h.1 hq r hr), fun hq => ⟨(h.2 hq).1, ?_⟩⟩
    exact fun r s' hrely hinv hr => ih r ((h.2 hq).2 r s' hrely hinv hr)
  | call f p ih => exact ⟨h.1, fun s' hpost => ih (h.2 s' hpost)⟩

theorem wp_bind_iff (p : Prog S α) (f : α → Prog S β) (Q : β → S.State → Prop) (s : S.State) :
    wp E A (p.bind f) Q s ↔ wp E A p (fun a s' => wp E A (f a) Q s') s := by
  induction p generalizing s with
  | ret a => rfl
  | get k ih => exact ih s s
  | set s' p ih => exact ih s'
  | ask q k ih => exact forall_congr' fun a => imp_congr_right fun _ => ih a s
  | yield c k ih =>
    simp only [Prog.bind, wp, ih]
  | call g p ih =>
    simp only [Prog.bind, wp, ih]

@[simp]
theorem wp_bind (p : Prog S α) (f : α → Prog S β) (Q : β → S.State → Prop) (s : S.State) :
    wp E A (p >>= f) Q s ↔ wp E A p (fun a s' => wp E A (f a) Q s') s :=
  wp_bind_iff p f Q s

@[simp]
theorem wp_map (p : Prog S α) (f : α → β) (Q : β → S.State → Prop) (s : S.State) :
    wp E A (f <$> p) Q s ↔ wp E A p (fun a s' => Q (f a) s') s :=
  wp_bind_iff p (fun a => ret (f a)) Q s

@[simp]
theorem wp_pure (a : α) (Q : α → S.State → Prop) (s : S.State) :
    wp E A (pure a : Prog S α) Q s ↔ Q a s := Iff.rfl

@[simp]
theorem wp_read (Q : S.State → S.State → Prop) (s : S.State) :
    wp E A (read : Prog S S.State) Q s ↔ Q s s := Iff.rfl

@[simp]
theorem wp_modify (f : S.State → S.State) (Q : Unit → S.State → Prop) (s : S.State) :
    wp E A (modify f : Prog S Unit) Q s ↔ Q () (f s) := Iff.rfl

@[simp]
theorem wp_request (q : S.Request) (Q : S.Answer → S.State → Prop) (s : S.State) :
    wp E A (request q : Prog S S.Answer) Q s ↔ ∀ a, E.answers s q a → Q a s := Iff.rfl

@[simp]
theorem wp_invoke (f : S.Proc) (Q : Unit → S.State → Prop) (s : S.State) :
    wp E A (invoke f : Prog S Unit) Q s ↔ A.pre f s ∧ ∀ s', A.post f s s' → Q () s' := Iff.rfl

@[simp]
theorem wp_ite (c : Prop) [Decidable c] (p q : Prog S α) (Q : α → S.State → Prop)
    (s : S.State) :
    wp E A (if c then p else q) Q s ↔ if c then wp E A p Q s else wp E A q Q s := by
  split <;> rfl

/-- Running foreign code from a state that satisfies the invariant. -/
theorem wp_foreign {c : S.Callback} {Q : S.Result → S.State → Prop} {s : S.State}
    (hrefl : A.rely s s) (hinv : A.inv s)
    (h : ∀ r s', A.rely s s' → A.inv s' → Q r s') :
    wp E A (foreign c : Prog S S.Result) Q s :=
  ⟨fun _ r _ => h r s hrefl hinv, fun _ => ⟨hinv, fun r s' hr hi _ => h r s' hr hi⟩⟩

/-- Running foreign code that starts nothing leaves the state alone. -/
theorem wp_foreign_of_quiet {c : S.Callback} {Q : S.Result → S.State → Prop} {s : S.State}
    (hq : E.Quiet c) (h : ∀ r, Q r s) : wp E A (foreign c : Prog S S.Result) Q s :=
  ⟨fun _ r _ => h r, fun hn => absurd hq hn⟩

/-! ## Keeping an invariant and a relation -/

end Prog

/-- The specification that asks every procedure to keep an invariant and a relation. -/
def Spec.keeping {S : Signature} (inv : S.State → Prop) (rely : S.State → S.State → Prop) :
    Spec S where
  inv := inv
  rely := rely
  pre := fun _ => inv
  post := fun _ s s' => inv s' ∧ rely s s'

namespace Prog

variable {S : Signature} {α β : Type} {E : Env S} {A : Spec S}

/-- A program that keeps the invariant, and ends in a state related to the one it started in. -/
def Keeps (E : Env S) (A : Spec S) (p : Prog S α) : Prop :=
  ∀ s, A.inv s → p.wp E A (fun _ s' => A.inv s' ∧ A.rely s s') s

/-- Use of a program that keeps the invariant, in the middle of another. -/
theorem Keeps.wp {p : Prog S α} (hp : Keeps E A p) {Q : α → S.State → Prop} {s : S.State}
    (hinv : A.inv s) (h : ∀ a s', A.inv s' → A.rely s s' → Q a s') : p.wp E A Q s :=
  wp_mono (hp s hinv) fun a s' hs' => h a s' hs'.1 hs'.2

theorem Keeps.map {p : Prog S α} (hp : Keeps E A p) (f : α → β) : Keeps E A (f <$> p) :=
  fun s hinv => (wp_map p f _ s).mpr (hp s hinv)

/-- Programs that keep the invariant compose, along a transitive relation. -/
theorem Keeps.bind (htrans : ∀ s₁ s₂ s₃, A.rely s₁ s₂ → A.rely s₂ s₃ → A.rely s₁ s₃)
    {p : Prog S α} {f : α → Prog S β} (hp : Keeps E A p) (hf : ∀ a, Keeps E A (f a)) :
    Keeps E A (p >>= f) := by
  intro s hinv
  rw [wp_bind]
  refine hp.wp hinv fun a s' hs' hrely => (hf a).wp hs' fun b s'' hs'' hrely' => ?_
  exact ⟨hs'', htrans _ _ _ hrely hrely'⟩

theorem Keeps.ite {c : Prop} [Decidable c] {p q : Prog S α} (hp : Keeps E A p)
    (hq : Keeps E A q) : Keeps E A (if c then p else q) := by
  split
  · exact hp
  · exact hq

/-- A single change keeps the invariant if it does so as a function. -/
theorem Keeps.modify {f : S.State → S.State} (hf : ∀ s, A.inv s → A.inv (f s) ∧ A.rely s (f s)) :
    Keeps E A (Prog.modify f) := hf

section Reflexive

variable (hrefl : ∀ s, A.rely s s)

include hrefl

theorem Keeps.ret (a : α) : Keeps E A (pure a : Prog S α) := fun s hinv => ⟨hinv, hrefl s⟩

theorem Keeps.read : Keeps E A (Prog.read : Prog S S.State) := fun s hinv => ⟨hinv, hrefl s⟩

theorem Keeps.request (q : S.Request) : Keeps E A (Prog.request q : Prog S S.Answer) :=
  fun s hinv _ _ => ⟨hinv, hrefl s⟩

/-- Foreign code keeps the invariant because everything it may start does. -/
theorem Keeps.foreign (c : S.Callback) : Keeps E A (Prog.foreign c : Prog S S.Result) :=
  fun s hinv => wp_foreign (hrefl s) hinv fun _ _ hrely hinv' => ⟨hinv', hrely⟩

end Reflexive

end Prog

end Reentrant
