import Zuvloop.Reentrant.Machine

/-!
# Programs that end, whatever foreign code does

Foreign code that starts finitely many entry points before it returns follows a `Plan`: a tree
whose branches may depend on the state each entry point leaves behind. `Bounded` says of a program
that it ends, with foreign code that follows any plans it may follow, at every depth of reentry;
that every state it goes through satisfies a given property; and that the procedures nest no deeper
than a given bound. A loop of the source is a procedure that calls itself once in each round, so
that the depth counts its rounds. The bound holds for every loop by itself: what foreign code starts
counts from the beginning.

## Main definitions

* `Plan`: what foreign code does in one call.
* `Bounded`: every run ends, in a result and a state that satisfy a condition.

## Main results

* `Bounded.bind`, `Bounded.invoke` and so on: one rule for each construct.
* `Bounded.plan`: plans end if the entry points they start do.
-/

namespace Reentrant

/-- What foreign code does in one call: it starts entry points, one after the other, and returns.
Each choice may depend on the state. -/
inductive Plan (S : Signature) : Type where
  /-- It returns. -/
  | done (r : S.Result)
  /-- It starts an entry point, and goes on from the state in which that ends. -/
  | start (op : S.Op) (k : S.State → Plan S)

namespace Plan

variable {S : Signature}

/-- A plan as a program. -/
def prog (M : System S) : Plan S → Prog S S.Result
  | done r => .ret r
  | start op k => (M.entry op).bind fun _ => .get fun s => (k s).prog M

/-- The plan starts only the given entry points. -/
def Starts (P : S.Op → Prop) : Plan S → Prop
  | done _ => True
  | start op k => P op ∧ ∀ s, (k s).Starts P

/-- The plan starts nothing. -/
def Idle : Plan S → Prop
  | done _ => True
  | start _ _ => False

end Plan

variable {S : Signature}

/-- Started in `s`, the program ends, in a result and a state that satisfy `Q`. Foreign code follows
any plan that `may` allows it in the state it is called in. Every state the program and what foreign
code starts go through satisfies `I`. Procedures nest at most to the given depth, and at most to
`limit` in what foreign code starts. -/
inductive Bounded (M : System S) (E : Env S) (may : S.Callback → S.State → Plan S → Prop)
    (I : S.State → Prop) (limit : ℕ) :
    ℕ → {α : Type} → Prog S α → (α → S.State → Prop) → S.State → Prop where
  | ret {depth : ℕ} {α : Type} {a : α} {Q : α → S.State → Prop} {s : S.State} :
      Q a s → Bounded M E may I limit depth (.ret a) Q s
  | get {depth : ℕ} {α : Type} {k : S.State → Prog S α} {Q : α → S.State → Prop} {s : S.State} :
      Bounded M E may I limit depth (k s) Q s → Bounded M E may I limit depth (.get k) Q s
  | set {depth : ℕ} {α : Type} {p : Prog S α} {Q : α → S.State → Prop} {s s₁ : S.State} :
      I s₁ → Bounded M E may I limit depth p Q s₁ → Bounded M E may I limit depth (.set s₁ p) Q s
  | ask {depth : ℕ} {α : Type} {q : S.Request} {k : S.Answer → Prog S α}
      {Q : α → S.State → Prop} {s : S.State} :
      (∀ b, E.answers s q b → Bounded M E may I limit depth (k b) Q s) →
      Bounded M E may I limit depth (.ask q k) Q s
  | yield {depth : ℕ} {α : Type} {c : S.Callback} {k : S.Result → Prog S α}
      {Q : α → S.State → Prop} {s : S.State} (R : S.Result → S.State → Prop) :
      (∀ w, may c s w → Bounded M E may I limit limit (w.prog M) R s) →
      (∀ r s₁, R r s₁ → Bounded M E may I limit depth (k r) Q s₁) →
      Bounded M E may I limit depth (.yield c k) Q s
  | call {depth : ℕ} {α : Type} {f : S.Proc} {p : Prog S α} {Q : α → S.State → Prop}
      {s : S.State} (R : S.State → Prop) :
      Bounded M E may I limit depth (M.body f) (fun _ s₁ => R s₁) s →
      (∀ s₁, R s₁ → Bounded M E may I limit (depth + 1) p Q s₁) →
      Bounded M E may I limit (depth + 1) (.call f p) Q s

namespace Bounded

variable {M : System S} {E : Env S} {may : S.Callback → S.State → Plan S → Prop}
  {I : S.State → Prop} {limit depth : ℕ} {α β : Type} {s : S.State}

theorem mono {p : Prog S α} {Q Q' : α → S.State → Prop}
    (h : Bounded M E may I limit depth p Q s) (hQ : ∀ a s', Q a s' → Q' a s') :
    Bounded M E may I limit depth p Q' s := by
  induction h with
  | ret h => exact .ret (hQ _ _ h)
  | get _ ih => exact .get (ih hQ)
  | set hI _ ih => exact .set hI (ih hQ)
  | ask _ ih => exact .ask fun b hb => ih b hb hQ
  | yield R hw _ _ ih => exact .yield R hw fun r s₁ hR => ih r s₁ hR hQ
  | call R hf _ _ ih => exact .call R hf fun s₁ hR => ih s₁ hR hQ

theorem bind {p : Prog S α} {f : α → Prog S β} {Q : β → S.State → Prop}
    (h : Bounded M E may I limit depth p (fun a s' => Bounded M E may I limit depth (f a) Q s') s) :
    Bounded M E may I limit depth (p >>= f) Q s := by
  change Bounded M E may I limit depth (p.bind f) Q s
  generalize hR : (fun a s' => Bounded M E may I limit depth (f a) Q s') = R at h
  induction h with
  | ret h =>
    subst hR
    exact h
  | get _ ih => exact .get (ih hR)
  | set hI _ ih => exact .set hI (ih hR)
  | ask _ ih => exact .ask fun b hb => ih b hb hR
  | yield R' hw _ _ ih => exact .yield R' hw fun r s₁ hR' => ih r s₁ hR' hR
  | call R' hf _ _ ih => exact .call R' hf fun s₁ hR' => ih s₁ hR' hR

theorem pure {a : α} {Q : α → S.State → Prop} (h : Q a s) :
    Bounded M E may I limit depth (Pure.pure a : Prog S α) Q s := .ret h

theorem map {p : Prog S α} {f : α → β} {Q : β → S.State → Prop}
    (h : Bounded M E may I limit depth p (fun a s' => Q (f a) s') s) :
    Bounded M E may I limit depth (f <$> p) Q s :=
  bind (f := fun a => .ret (f a)) (h.mono fun _ _ hq => .ret hq)

theorem read {Q : S.State → S.State → Prop} (h : Q s s) :
    Bounded M E may I limit depth (Prog.read : Prog S S.State) Q s := .get (.ret h)

theorem modify {f : S.State → S.State} {Q : Unit → S.State → Prop} (hI : I (f s))
    (h : Q () (f s)) : Bounded M E may I limit depth (Prog.modify f : Prog S Unit) Q s :=
  .get (.set hI (.ret h))

theorem request {q : S.Request} {Q : S.Answer → S.State → Prop}
    (h : ∀ b, E.answers s q b → Q b s) :
    Bounded M E may I limit depth (Prog.request q : Prog S S.Answer) Q s :=
  .ask fun b hb => .ret (h b hb)

theorem foreign {c : S.Callback} {Q : S.Result → S.State → Prop}
    (h : ∀ w, may c s w → Bounded M E may I limit limit (w.prog M) Q s) :
    Bounded M E may I limit depth (Prog.foreign c : Prog S S.Result) Q s :=
  .yield Q h fun _ _ hQ => .ret hQ

/-- Foreign code that starts nothing leaves the state alone. -/
theorem foreign_of_idle {c : S.Callback} {Q : S.Result → S.State → Prop}
    (hidle : ∀ w, may c s w → w.Idle) (h : ∀ r, Q r s) :
    Bounded M E may I limit depth (Prog.foreign c : Prog S S.Result) Q s := by
  refine foreign fun w hw => ?_
  cases w with
  | done r => exact .ret (h r)
  | start op k => exact absurd (hidle _ hw) id

/-- A procedure may be called as long as its body keeps within one less. -/
theorem invoke {f : S.Proc} {Q : Unit → S.State → Prop}
    (h : Bounded M E may I limit depth (M.body f) Q s) :
    Bounded M E may I limit (depth + 1) (Prog.invoke f : Prog S Unit) Q s :=
  .call (fun s' => Q () s') h fun _ hQ => .ret hQ

theorem ite {c : Prop} [Decidable c] {p q : Prog S α} {Q : α → S.State → Prop}
    (hp : c → Bounded M E may I limit depth p Q s)
    (hq : ¬ c → Bounded M E may I limit depth q Q s) :
    Bounded M E may I limit depth (if c then p else q) Q s := by
  split
  · exact hp ‹_›
  · exact hq ‹_›

/-- A plan keeps within the limit, and along a preorder, if every entry point it starts does. -/
theorem plan {P : S.Op → Prop} {G : S.State → S.State → Prop} (hrefl : ∀ s, G s s)
    (htrans : ∀ s₁ s₂ s₃, G s₁ s₂ → G s₂ s₃ → G s₁ s₃) {w : Plan S} (hw : w.Starts P)
    (hentry : ∀ op s₁, P op → G s s₁ →
      Bounded M E may I limit limit (M.entry op) (fun _ s₂ => G s₁ s₂) s₁) :
    Bounded M E may I limit limit (w.prog M) (fun _ s' => G s s') s := by
  suffices h : ∀ s₁, G s s₁ → Bounded M E may I limit limit (w.prog M) (fun _ s' => G s s') s₁ from
    h s (hrefl s)
  induction w with
  | done r => exact fun s₁ h₁ => .ret h₁
  | start op k ih =>
    intro s₁ h₁
    -- the entry point first, and then the rest of the plan, chosen in the state it leaves
    refine bind (f := fun _ => .get fun s => (k s).prog M) ?_
    refine (hentry op s₁ hw.1 h₁).mono fun _ s₂ h₂ => .get ?_
    exact ih s₂ (hw.2 s₂) s₂ (htrans _ _ _ h₁ h₂)

end Bounded

end Reentrant
