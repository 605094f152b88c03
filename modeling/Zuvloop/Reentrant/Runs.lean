import Zuvloop.Reentrant.Machine

/-!
# Runs of one program in which foreign code returns at once

`Exec` relates a program and the state it starts in to what it returns and the state it ends in. Two
ways to reason about it are built on top: `Can`, that some run ends in a given way, which is how
long concrete runs are put together, and `Must`, that every run ends, and in a given way.
-/

namespace Reentrant

variable {S : Signature}

/-- `Exec M E p s a s'`: from `s`, the program can return `a` in `s'`, with foreign code that
returns at once. -/
inductive Exec (M : System S) (E : Env S) :
    {α : Type} → Prog S α → S.State → α → S.State → Prop where
  | ret {α : Type} (a : α) (s : S.State) : Exec M E (.ret a) s a s
  | get {α : Type} {k : S.State → Prog S α} {s s' : S.State} {a : α} :
      Exec M E (k s) s a s' → Exec M E (.get k) s a s'
  | set {α : Type} {p : Prog S α} {s s₁ s' : S.State} {a : α} :
      Exec M E p s₁ a s' → Exec M E (.set s₁ p) s a s'
  | ask {α : Type} {q : S.Request} {k : S.Answer → Prog S α} {s s' : S.State} {a : α}
      (b : S.Answer) : E.answers s q b → Exec M E (k b) s a s' → Exec M E (.ask q k) s a s'
  | yield {α : Type} {c : S.Callback} {k : S.Result → Prog S α} {s s' : S.State} {a : α}
      (r : S.Result) : E.returns s c r → Exec M E (k r) s a s' → Exec M E (.yield c k) s a s'
  | call {α : Type} {f : S.Proc} {p : Prog S α} {s s₁ s' : S.State} {a : α} :
      Exec M E (M.body f) s () s₁ → Exec M E p s₁ a s' → Exec M E (.call f p) s a s'

/-- The program can end in a result and a state that satisfy `Q`. -/
def Can (M : System S) (E : Env S) {α : Type} (p : Prog S α) (Q : α → S.State → Prop)
    (s : S.State) : Prop := ∃ a s', Exec M E p s a s' ∧ Q a s'

section Can

variable {M : System S} {E : Env S} {α β : Type}

theorem Exec.bind {p : Prog S α} {f : α → Prog S β} {s s₁ s' : S.State} {a : α} {b : β}
    (h : Exec M E p s a s₁) (hf : Exec M E (f a) s₁ b s') : Exec M E (p.bind f) s b s' := by
  induction h with
  | ret a s => exact hf
  | get _ ih => exact .get (ih hf)
  | set _ ih => exact .set (ih hf)
  | ask c hc _ ih => exact .ask c hc (ih hf)
  | yield r hr _ ih => exact .yield r hr (ih hf)
  | call hg _ _ ih => exact .call hg (ih hf)

/-- The machine can follow a run of the program it is running. -/
theorem Exec.reachable {p : Prog S α} {s s' : S.State} {a : α} (h : Exec M E p s a s')
    {k : α → Prog S Unit} {stack : List (S.Callback × (S.Result → Prog S Unit))}
    (hr : M.Reachable E ⟨s, some (p.bind k), stack⟩) : M.Reachable E ⟨s', some (k a), stack⟩ := by
  induction h with
  | ret a s => exact hr
  | get _ ih => exact ih (hr.step (l := .tau) trivial rfl)
  | set _ ih => exact ih (hr.step (l := .tau) trivial rfl)
  | ask b hb _ ih => exact ih (hr.step (l := .answer b) hb rfl)
  | yield r hret _ ih =>
    exact ih ((hr.step (l := .tau) trivial rfl).step (l := .resume r) hret rfl)
  | call _ _ ihf ih => exact ih (ihf (hr.step (l := .tau) trivial rfl))

/-- A run in an environment that allows less is a run in one that allows more. -/
theorem Exec.mono {E' : Env S} (hanswers : ∀ s q a, E.answers s q a → E'.answers s q a)
    (hreturns : ∀ s c r, E.returns s c r → E'.returns s c r) {p : Prog S α} {s s' : S.State}
    {a : α} (h : Exec M E p s a s') : Exec M E' p s a s' := by
  induction h with
  | ret a s => exact .ret a s
  | get _ ih => exact .get ih
  | set _ ih => exact .set ih
  | ask b hb _ ih => exact .ask b (hanswers _ _ _ hb) ih
  | yield r hr _ ih => exact .yield r (hreturns _ _ _ hr) ih
  | call _ _ ihf ih => exact .call ihf ih

/-- An entry point that runs to its end takes the system to where it ends. -/
theorem Exec.entry_reachable {op : S.Op} {s s' : S.State}
    {stack : List (S.Callback × (S.Result → Prog S Unit))} (h : Exec M E (M.entry op) s () s')
    (hr : M.Reachable E ⟨s, none, stack⟩) (hstart : E.starts (stack.map Prod.fst) s op) :
    M.Reachable E ⟨s', none, stack⟩ := by
  have hentry := hr.step (l := .start op) hstart rfl
  have hret : (M.entry op).bind (fun a => Prog.ret a) = M.entry op := Prog.bind_ret _
  rw [← hret] at hentry
  exact (h.reachable hentry).step (l := .tau) trivial rfl

theorem Can.bind {p : Prog S α} {f : α → Prog S β} {Q : β → S.State → Prop} {s : S.State}
    (h : Can M E p (fun a s' => Can M E (f a) Q s') s) : Can M E (p >>= f) Q s := by
  obtain ⟨a, s₁, hp, b, s', hf, hq⟩ := h
  exact ⟨b, s', hp.bind hf, hq⟩

theorem Can.pure {a : α} {Q : α → S.State → Prop} {s : S.State} (h : Q a s) :
    Can M E (pure a : Prog S α) Q s := ⟨a, s, .ret a s, h⟩

theorem Can.map {p : Prog S α} {f : α → β} {Q : β → S.State → Prop} {s : S.State}
    (h : Can M E p (fun a s' => Q (f a) s') s) : Can M E (f <$> p) Q s := by
  obtain ⟨a, s', hp, hq⟩ := h
  exact ⟨f a, s', hp.bind (f := fun a => .ret (f a)) (.ret _ _), hq⟩

theorem Can.read {Q : S.State → S.State → Prop} {s : S.State} (h : Q s s) :
    Can M E (Prog.read : Prog S S.State) Q s := ⟨s, s, .get (.ret s s), h⟩

theorem Can.modify {f : S.State → S.State} {Q : Unit → S.State → Prop} {s : S.State}
    (h : Q () (f s)) : Can M E (Prog.modify f : Prog S Unit) Q s :=
  ⟨(), f s, .get (.set (.ret () _)), h⟩

theorem Can.request {q : S.Request} {Q : S.Answer → S.State → Prop} {s : S.State}
    (b : S.Answer) (hb : E.answers s q b) (h : Q b s) :
    Can M E (Prog.request q : Prog S S.Answer) Q s := ⟨b, s, .ask b hb (.ret b s), h⟩

theorem Can.foreign {c : S.Callback} {Q : S.Result → S.State → Prop} {s : S.State}
    (r : S.Result) (hr : E.returns s c r) (h : Q r s) :
    Can M E (Prog.foreign c : Prog S S.Result) Q s := ⟨r, s, .yield r hr (.ret r s), h⟩

theorem Can.invoke {f : S.Proc} {Q : Unit → S.State → Prop} {s : S.State}
    (h : Can M E (M.body f) Q s) : Can M E (Prog.invoke f : Prog S Unit) Q s := by
  obtain ⟨_, s', hf, hq⟩ := h
  exact ⟨(), s', .call hf (.ret () s'), hq⟩

/-- An entry point that can run to its end takes the system to where it ends. -/
theorem Can.reachable (op : S.Op) {Q : S.State → Prop} {s : S.State}
    {stack : List (S.Callback × (S.Result → Prog S Unit))}
    (hr : M.Reachable E ⟨s, none, stack⟩) (hstart : E.starts (stack.map Prod.fst) s op)
    (h : Can M E (M.entry op) (fun _ s' => Q s') s) :
    ∃ s', M.Reachable E ⟨s', none, stack⟩ ∧ Q s' := by
  obtain ⟨_, s', hexec, hq⟩ := h
  exact ⟨s', hexec.entry_reachable hr hstart, hq⟩

end Can

/-! ## Every run -/

/-- Every run of the program ends, in a result and a state that satisfy `Q`. -/
inductive Must (M : System S) (E : Env S) :
    {α : Type} → Prog S α → (α → S.State → Prop) → S.State → Prop where
  | ret {α : Type} {a : α} {Q : α → S.State → Prop} {s : S.State} :
      Q a s → Must M E (.ret a) Q s
  | get {α : Type} {k : S.State → Prog S α} {Q : α → S.State → Prop} {s : S.State} :
      Must M E (k s) Q s → Must M E (.get k) Q s
  | set {α : Type} {p : Prog S α} {Q : α → S.State → Prop} {s s₁ : S.State} :
      Must M E p Q s₁ → Must M E (.set s₁ p) Q s
  | ask {α : Type} {q : S.Request} {k : S.Answer → Prog S α} {Q : α → S.State → Prop}
      {s : S.State} : (∃ b, E.answers s q b) → (∀ b, E.answers s q b → Must M E (k b) Q s) →
      Must M E (.ask q k) Q s
  | yield {α : Type} {c : S.Callback} {k : S.Result → Prog S α} {Q : α → S.State → Prop}
      {s : S.State} : (∃ r, E.returns s c r) → (∀ r, E.returns s c r → Must M E (k r) Q s) →
      Must M E (.yield c k) Q s
  | call {α : Type} {f : S.Proc} {p : Prog S α} {Q : α → S.State → Prop} {s : S.State}
      (R : S.State → Prop) : Must M E (M.body f) (fun _ s' => R s') s →
      (∀ s', R s' → Must M E p Q s') → Must M E (.call f p) Q s

section Must

variable {M : System S} {E : Env S} {α β : Type}

/-- Some run ends. -/
theorem Must.can {p : Prog S α} {Q : α → S.State → Prop} {s : S.State} (h : Must M E p Q s) :
    Can M E p Q s := by
  induction h with
  | ret h => exact ⟨_, _, .ret _ _, h⟩
  | get _ ih =>
    obtain ⟨a, s', hexec, hq⟩ := ih
    exact ⟨a, s', .get hexec, hq⟩
  | set _ ih =>
    obtain ⟨a, s', hexec, hq⟩ := ih
    exact ⟨a, s', .set hexec, hq⟩
  | ask hb _ ih =>
    obtain ⟨b, hb⟩ := hb
    obtain ⟨a, s', hexec, hq⟩ := ih b hb
    exact ⟨a, s', .ask b hb hexec, hq⟩
  | yield hr _ ih =>
    obtain ⟨r, hr⟩ := hr
    obtain ⟨a, s', hexec, hq⟩ := ih r hr
    exact ⟨a, s', .yield r hr hexec, hq⟩
  | call R _ _ ihf ih =>
    obtain ⟨_, s₁, hf, hR⟩ := ihf
    obtain ⟨a, s', hexec, hq⟩ := ih s₁ hR
    exact ⟨a, s', .call hf hexec, hq⟩

/-- Every run that ends does so as promised. -/
theorem Must.exec {p : Prog S α} {Q : α → S.State → Prop} {s s' : S.State} {a : α}
    (h : Must M E p Q s) (hexec : Exec M E p s a s') : Q a s' := by
  induction h generalizing s' with
  | ret h =>
    cases hexec
    exact h
  | get _ ih =>
    cases hexec with
    | get hexec => exact ih hexec
  | set _ ih =>
    cases hexec with
    | set hexec => exact ih hexec
  | ask _ _ ih =>
    cases hexec with
    | ask b hb hexec => exact ih b hb hexec
  | yield _ _ ih =>
    cases hexec with
    | yield r hr hexec => exact ih r hr hexec
  | call R _ _ ihf ih =>
    cases hexec with
    | call hf hexec => exact ih _ (ihf hf) hexec

theorem Must.mono {p : Prog S α} {Q Q' : α → S.State → Prop} {s : S.State}
    (h : Must M E p Q s) (hQ : ∀ a s', Q a s' → Q' a s') : Must M E p Q' s := by
  induction h with
  | ret h => exact .ret (hQ _ _ h)
  | get _ ih => exact .get (ih hQ)
  | set _ ih => exact .set (ih hQ)
  | ask hb _ ih => exact .ask hb fun b hb => ih b hb hQ
  | yield hr _ ih => exact .yield hr fun r hr => ih r hr hQ
  | call R hf _ _ ih => exact .call R hf fun s' hR => ih s' hR hQ

theorem Must.bind {p : Prog S α} {f : α → Prog S β} {Q : β → S.State → Prop} {s : S.State}
    (h : Must M E p (fun a s' => Must M E (f a) Q s') s) : Must M E (p >>= f) Q s := by
  change Must M E (p.bind f) Q s
  generalize hR : (fun a s' => Must M E (f a) Q s') = R at h
  induction h with
  | ret h =>
    subst hR
    exact h
  | get _ ih => exact .get (ih hR)
  | set _ ih => exact .set (ih hR)
  | ask hb _ ih => exact .ask hb fun b hb => ih b hb hR
  | yield hr _ ih => exact .yield hr fun r hr => ih r hr hR
  | call R' hf _ _ ih => exact .call R' hf fun s' hR' => ih s' hR' hR

theorem Must.pure {a : α} {Q : α → S.State → Prop} {s : S.State} (h : Q a s) :
    Must M E (pure a : Prog S α) Q s := .ret h

theorem Must.map {p : Prog S α} {f : α → β} {Q : β → S.State → Prop} {s : S.State}
    (h : Must M E p (fun a s' => Q (f a) s') s) : Must M E (f <$> p) Q s :=
  Must.bind (f := fun a => .ret (f a)) (h.mono fun _ _ hq => .ret hq)

theorem Must.read {Q : S.State → S.State → Prop} {s : S.State} (h : Q s s) :
    Must M E (Prog.read : Prog S S.State) Q s := .get (.ret h)

theorem Must.modify {f : S.State → S.State} {Q : Unit → S.State → Prop} {s : S.State}
    (h : Q () (f s)) : Must M E (Prog.modify f : Prog S Unit) Q s := .get (.set (.ret h))

theorem Must.request {q : S.Request} {Q : S.Answer → S.State → Prop} {s : S.State}
    (hb : ∃ b, E.answers s q b) (h : ∀ b, E.answers s q b → Q b s) :
    Must M E (Prog.request q : Prog S S.Answer) Q s := .ask hb fun b hb => .ret (h b hb)

theorem Must.foreign {c : S.Callback} {Q : S.Result → S.State → Prop} {s : S.State}
    (hr : ∃ r, E.returns s c r) (h : ∀ r, Q r s) :
    Must M E (Prog.foreign c : Prog S S.Result) Q s := .yield hr fun r _ => .ret (h r)

theorem Must.invoke {f : S.Proc} {Q : Unit → S.State → Prop} {s : S.State}
    (h : Must M E (M.body f) Q s) : Must M E (Prog.invoke f : Prog S Unit) Q s :=
  .call (fun s' => Q () s') h fun _ hq => .ret hq

end Must

end Reentrant
