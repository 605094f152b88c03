import Zuvloop.Reentrant.Logs

/-!
# Taking runs apart

A run of a program is taken apart along the program. `Ends` says that a program always returns,
given that foreign code does. Foreign code that runs while something is suspended starts fewer entry
points than foreign code at the top level, so `nested` environments satisfy more.

## Main definitions

* `Ends`: every run of a program can only go on for so long.
* `Env.nested`: an environment without the entry points that start at the top level.
* `Entry.states`: the states an entry of a log mentions.

## Main results

* `run_bind_iff`, `run_call_iff` and so on: a run, in terms of the runs of its parts.
* `Interlude.sound_of_nested`: what suspended programs may rely on, from a verification without the
  entry points that start at the top level.
-/

namespace Reentrant

variable {S : Signature} {M : System S} {E E' : Env S}
  {R R' : S.Callback → S.State → S.State → Prop} {α β : Type} {s s' : S.State} {log : Log S}

/-! ## Inversion -/

section Inversion

variable {a : α} {b : β}

theorem run_ret_iff {a' : α} : Run M E R (.ret a') s a s' log ↔ a = a' ∧ s' = s ∧ log = [] := by
  refine ⟨fun h => ?_, ?_⟩
  · cases h
    exact ⟨rfl, rfl, rfl⟩
  · rintro ⟨rfl, rfl, rfl⟩
    exact .ret _ _

theorem run_get_iff {k : S.State → Prog S α} :
    Run M E R (.get k) s a s' log ↔ Run M E R (k s) s a s' log := by
  refine ⟨fun h => ?_, .get⟩
  cases h with
  | get h => exact h

theorem run_set_iff {s₁ : S.State} {p : Prog S α} :
    Run M E R (.set s₁ p) s a s' log ↔
      ∃ rest, Run M E R p s₁ a s' rest ∧ log = .set s s₁ :: rest := by
  refine ⟨fun h => ?_, ?_⟩
  · cases h with
    | set h => exact ⟨_, h, rfl⟩
  · rintro ⟨rest, h, rfl⟩
    exact .set h

theorem run_ask_iff {q : S.Request} {k : S.Answer → Prog S α} :
    Run M E R (.ask q k) s a s' log ↔ ∃ r, E.answers s q r ∧ Run M E R (k r) s a s' log := by
  refine ⟨fun h => ?_, ?_⟩
  · cases h with
    | ask r hr h => exact ⟨r, hr, h⟩
  · rintro ⟨r, hr, h⟩
    exact .ask r hr h

theorem run_yield_iff {c : S.Callback} {k : S.Result → Prog S α} :
    Run M E R (.yield c k) s a s' log ↔ ∃ s₁ r rest, R c s s₁ ∧ E.returns s₁ c r ∧
      Run M E R (k r) s₁ a s' rest ∧ log = .yield c s s₁ r :: rest := by
  refine ⟨fun h => ?_, ?_⟩
  · cases h with
    | yield r hc hr h => exact ⟨_, r, _, hc, hr, h, rfl⟩
  · rintro ⟨s₁, r, rest, hc, hr, h, rfl⟩
    exact .yield r hc hr h

theorem run_call_iff {f : S.Proc} {p : Prog S α} :
    Run M E R (.call f p) s a s' log ↔ ∃ s₁ log₁ log₂,
      Run M E R (M.body f) s () s₁ log₁ ∧ Run M E R p s₁ a s' log₂ ∧ log = log₁ ++ log₂ := by
  refine ⟨fun h => ?_, ?_⟩
  · cases h with
    | call hf h => exact ⟨_, _, _, hf, h, rfl⟩
  · rintro ⟨s₁, log₁, log₂, hf, h, rfl⟩
    exact .call hf h

/-- A run of one program and then another. -/
theorem Run.of_bind {p : Prog S α} {f : α → Prog S β} (h : Run M E R (p.bind f) s b s' log) :
    ∃ a s₁ log₁ log₂, Run M E R p s a s₁ log₁ ∧ Run M E R (f a) s₁ b s' log₂ ∧
      log = log₁ ++ log₂ := by
  induction p generalizing s log with
  | ret a => exact ⟨a, s, [], log, .ret _ _, h, rfl⟩
  | get k ih =>
    obtain ⟨a, s₁, log₁, log₂, h₁, h₂, hlog⟩ := ih s (run_get_iff.mp h)
    exact ⟨a, s₁, log₁, log₂, .get h₁, h₂, hlog⟩
  | set s₂ p ih =>
    obtain ⟨rest, hrest, rfl⟩ := run_set_iff.mp h
    obtain ⟨a, s₁, log₁, log₂, h₁, h₂, rfl⟩ := ih hrest
    exact ⟨a, s₁, _ :: log₁, log₂, .set h₁, h₂, rfl⟩
  | ask q k ih =>
    obtain ⟨r, hr, hrest⟩ := run_ask_iff.mp h
    obtain ⟨a, s₁, log₁, log₂, h₁, h₂, hlog⟩ := ih r hrest
    exact ⟨a, s₁, log₁, log₂, .ask r hr h₁, h₂, hlog⟩
  | yield c k ih =>
    obtain ⟨s₂, r, rest, hc, hr, hrest, rfl⟩ := run_yield_iff.mp h
    obtain ⟨a, s₁, log₁, log₂, h₁, h₂, rfl⟩ := ih r hrest
    exact ⟨a, s₁, _ :: log₁, log₂, .yield r hc hr h₁, h₂, rfl⟩
  | call g p ih =>
    obtain ⟨s₂, log₀, rest, hg, hrest, rfl⟩ := run_call_iff.mp h
    obtain ⟨a, s₁, log₁, log₂, h₁, h₂, rfl⟩ := ih hrest
    exact ⟨a, s₁, log₀ ++ log₁, log₂, .call hg h₁, h₂, (List.append_assoc _ _ _).symm⟩

theorem run_bind_iff {p : Prog S α} {f : α → Prog S β} :
    Run M E R (p >>= f) s b s' log ↔ ∃ a s₁ log₁ log₂, Run M E R p s a s₁ log₁ ∧
      Run M E R (f a) s₁ b s' log₂ ∧ log = log₁ ++ log₂ := by
  refine ⟨Run.of_bind, ?_⟩
  rintro ⟨a, s₁, log₁, log₂, h₁, h₂, rfl⟩
  exact h₁.bind h₂

theorem run_pure_iff {a' : α} :
    Run M E R (pure a' : Prog S α) s a s' log ↔ a = a' ∧ s' = s ∧ log = [] := run_ret_iff

theorem run_map_iff {p : Prog S α} {f : α → β} :
    Run M E R (f <$> p) s b s' log ↔ ∃ a, Run M E R p s a s' log ∧ b = f a := by
  refine ⟨fun h => ?_, ?_⟩
  · obtain ⟨a, s₁, log₁, log₂, h₁, h₂, rfl⟩ := Run.of_bind (f := fun a => .ret (f a)) h
    obtain ⟨rfl, rfl, rfl⟩ := run_ret_iff.mp h₂
    exact ⟨a, by rwa [List.append_nil], rfl⟩
  · rintro ⟨a, h, rfl⟩
    exact h.map f

theorem run_modify_iff {f : S.State → S.State} :
    Run M E R (Prog.modify f : Prog S Unit) s () s' log ↔ s' = f s ∧ log = [.set s (f s)] := by
  refine run_get_iff.trans (run_set_iff.trans ⟨?_, ?_⟩)
  · rintro ⟨rest, h, rfl⟩
    obtain ⟨-, rfl, rfl⟩ := run_ret_iff.mp h
    exact ⟨rfl, rfl⟩
  · rintro ⟨rfl, rfl⟩
    exact ⟨[], .ret _ _, rfl⟩

theorem run_read_bind_iff {f : S.State → Prog S α} :
    Run M E R (Prog.read >>= f) s a s' log ↔ Run M E R (f s) s a s' log := run_get_iff

theorem run_modify_bind_iff {g : S.State → S.State} {f : Unit → Prog S α} :
    Run M E R (Prog.modify g >>= f) s a s' log ↔
      ∃ rest, Run M E R (f ()) (g s) a s' rest ∧ log = .set s (g s) :: rest :=
  run_get_iff.trans run_set_iff

theorem run_request_iff {q : S.Request} {r : S.Answer} :
    Run M E R (Prog.request q : Prog S S.Answer) s r s' log ↔
      E.answers s q r ∧ s' = s ∧ log = [] := by
  refine run_ask_iff.trans ⟨?_, ?_⟩
  · rintro ⟨r', hr, h⟩
    obtain ⟨rfl, rfl, rfl⟩ := run_ret_iff.mp h
    exact ⟨hr, rfl, rfl⟩
  · rintro ⟨hr, rfl, rfl⟩
    exact ⟨r, hr, .ret _ _⟩

theorem run_invoke_iff {f : S.Proc} :
    Run M E R (Prog.invoke f : Prog S Unit) s () s' log ↔ Run M E R (M.body f) s () s' log := by
  refine run_call_iff.trans ⟨?_, fun h => ⟨s', log, [], h, .ret _ _, (List.append_nil log).symm⟩⟩
  rintro ⟨s₁, log₁, log₂, hf, h, rfl⟩
  obtain ⟨-, rfl, rfl⟩ := run_ret_iff.mp h
  rwa [List.append_nil]

end Inversion

/-! ## Termination -/

/-- Every run of the program can only go on for so long, given that foreign code returns. -/
inductive Ends (M : System S) (E : Env S) (R : S.Callback → S.State → S.State → Prop) :
    {α : Type} → Prog S α → S.State → Prop where
  | ret {α : Type} (a : α) (s : S.State) : Ends M E R (.ret a) s
  | get {α : Type} {k : S.State → Prog S α} {s : S.State} :
      Ends M E R (k s) s → Ends M E R (.get k) s
  | set {α : Type} {p : Prog S α} {s s₁ : S.State} : Ends M E R p s₁ → Ends M E R (.set s₁ p) s
  | ask {α : Type} {q : S.Request} {k : S.Answer → Prog S α} {s : S.State} :
      (∀ r, E.answers s q r → Ends M E R (k r) s) → Ends M E R (.ask q k) s
  | yield {α : Type} {c : S.Callback} {k : S.Result → Prog S α} {s : S.State} :
      (∀ s₁ r, R c s s₁ → E.returns s₁ c r → Ends M E R (k r) s₁) → Ends M E R (.yield c k) s
  | call {α : Type} {f : S.Proc} {p : Prog S α} {s : S.State} : Ends M E R (M.body f) s →
      (∀ s₁ log, Run M E R (M.body f) s () s₁ log → Ends M E R p s₁) → Ends M E R (.call f p) s

/-- One program ends, and the next ends wherever it goes on. -/
theorem Ends.bind {p : Prog S α} {f : α → Prog S β} {s : S.State} (h : Ends M E R p s)
    (hf : ∀ a s₁ log, Run M E R p s a s₁ log → Ends M E R (f a) s₁) :
    Ends M E R (p.bind f) s := by
  induction h with
  | ret a s => exact hf a s [] (.ret _ _)
  | get _ ih => exact .get (ih fun a s₁ log h => hf a s₁ log (.get h))
  | set _ ih => exact .set (ih fun a s₁ log h => hf a s₁ _ (.set h))
  | ask _ ih => exact .ask fun r hr => ih r hr fun a s₁ log h => hf a s₁ log (.ask r hr h)
  | yield _ ih =>
    exact .yield fun s₁ r hc hr => ih s₁ r hc hr fun a s₂ log h => hf a s₂ _ (.yield r hc hr h)
  | call hg _ _ ih =>
    exact .call hg fun s₁ log₁ h₁ => ih s₁ log₁ h₁ fun a s₂ log h => hf a s₂ _ (.call h₁ h)

theorem Ends.read {f : S.State → Prog S α} {s : S.State} (h : Ends M E R (f s) s) :
    Ends M E R (Prog.read >>= f) s := .get h

theorem Ends.ite {c : Prop} [Decidable c] {p q : Prog S α} {s : S.State}
    (hp : c → Ends M E R p s) (hq : ¬ c → Ends M E R q s) :
    Ends M E R (if c then p else q) s := by
  split
  · exact hp ‹_›
  · exact hq ‹_›

theorem Ends.pure (a : α) (s : S.State) : Ends M E R (Pure.pure a : Prog S α) s := .ret a s

/-! ## What suspended programs rely on -/

/-- The same environment, without the entry points that start at the top level. -/
def Env.nested (E : Env S) : Env S where
  answers := E.answers
  returns := E.returns
  starts := fun stack s op => stack ≠ [] ∧ E.starts stack s op

theorem run_nested_iff {p : Prog S α} {a : α} :
    Run M E.nested R p s a s' log ↔ Run M E R p s a s' log := by
  refine ⟨fun h => ?_, fun h => ?_⟩
  all_goals
    induction h with
    | ret a s => exact .ret a s
    | get _ ih => exact .get ih
    | set _ ih => exact .set ih
    | ask r hr _ ih => exact .ask r hr ih
    | yield r hc hr _ ih => exact .yield r hc hr ih
    | call _ _ ihf ih => exact .call ihf ih

theorem interlude_nested (n : ℕ) (c : S.Callback) (stack : List S.Callback) :
    Interlude M E.nested n (c :: stack) = Interlude M E n (c :: stack) := by
  induction n generalizing c stack with
  | zero => rfl
  | succ n ih =>
    -- the innermost call is the one to `c`, so the stack is never empty
    have hstep : ∀ s s' : S.State,
        (∃ op log, E.nested.starts (c :: stack) s op ∧
          Run M E.nested (fun d => Interlude M E.nested n (d :: c :: stack)) (M.entry op) s () s'
            log) ↔
        (∃ op log, E.starts (c :: stack) s op ∧
          Run M E (fun d => Interlude M E n (d :: c :: stack)) (M.entry op) s () s' log) := by
      intro s s'
      refine exists_congr fun op => exists_congr fun log => and_congr ?_ ?_
      · exact ⟨And.right, fun h => ⟨List.cons_ne_nil _ _, h⟩⟩
      · rw [run_nested_iff]
        simp only [ih]
    funext s s'
    simp only [Interlude, hstep]

/-- What is verified without the entry points that start at the top level holds of everything that
runs while a program is suspended. -/
theorem Interlude.sound_of_nested {A : Spec S} (hV : Verified M E.nested A) (n : ℕ)
    (stack : List S.Callback) :
    Sound E.nested A fun c => Interlude M E n (c :: stack) := by
  have h := hV.interlude n stack
  simp only [interlude_nested] at h
  exact h

/-! ## Logs -/

/-- The states an entry of a log mentions. -/
def Entry.states : Entry S → List S.State
  | .set s s' => [s, s']
  | .yield _ s s' _ => [s, s']

end Reentrant
