import Mathlib.Tactic.Common

/-!
# Labelled transition systems

A system that is driven from outside by labels: what is called, what completes, what fails. The
step function says which labels apply in a state and where they lead. A run may be restricted to
the steps that meet a condition on the state and the label, and an invariant only has to be kept
by the steps that meet it.

## Main definitions

* `Transition.Machine`: an initial state and a step function.
* `Transition.Machine.Reachable`: the states the steps that meet a condition lead to.
* `Transition.Machine.play`: a concrete run.
-/

namespace Transition

variable {σ ℓ : Type*}

/-- A system that takes labelled steps. -/
structure Machine (σ ℓ : Type*) where
  /-- The state it starts in. -/
  init : σ
  /-- Where a label leads; `none` if it does not apply. -/
  step : σ → ℓ → Option σ

namespace Machine

variable (M : Machine σ ℓ)

/-- The states that steps which meet `ok` lead to. -/
inductive Reachable (ok : σ → ℓ → Prop) : σ → Prop where
  | init : Reachable ok M.init
  | step {s s' : σ} (l : ℓ) : Reachable ok s → ok s l → M.step s l = some s' → Reachable ok s'

variable {M}

/-- An invariant of the steps that meet the condition holds in every state they lead to. -/
theorem Reachable.invariant {ok : σ → ℓ → Prop} {I : σ → Prop} {s : σ} (h : M.Reachable ok s)
    (hinit : I M.init)
    (hstep : ∀ s s' l, M.Reachable ok s → I s → ok s l → M.step s l = some s' → I s') : I s := by
  induction h with
  | init => exact hinit
  | step l hs hok hl ih => exact hstep _ _ l hs ih hok hl

variable (M)

/-- Take the given labels in turn; `none` if one does not apply or does not meet the condition. -/
def play (ok : σ → ℓ → Prop) [∀ s l, Decidable (ok s l)] : List ℓ → σ → Option σ
  | [], s => some s
  | l :: ls, s => if ok s l then (M.step s l).bind (play ok ls) else none

variable {M}

/-- A run that goes through ends in a reachable state. -/
theorem Reachable.play {ok : σ → ℓ → Prop} [∀ s l, Decidable (ok s l)] {ls : List ℓ} {s s' : σ}
    (h : M.Reachable ok s) (hplay : M.play ok ls s = some s') : M.Reachable ok s' := by
  induction ls generalizing s with
  | nil =>
    obtain rfl := Option.some.inj hplay
    exact h
  | cons l ls ih =>
    rw [Machine.play] at hplay
    split at hplay
    · rename_i hok
      obtain ⟨s₁, hstep, hrest⟩ := Option.bind_eq_some_iff.mp hplay
      exact ih (h.step l hok hstep) hrest
    · cases hplay

/-- One run after another. -/
theorem play_append {ok : σ → ℓ → Prop} [∀ s l, Decidable (ok s l)] (ls ls' : List ℓ) (s : σ) :
    M.play ok (ls ++ ls') s = (M.play ok ls s).bind (M.play ok ls') := by
  induction ls generalizing s with
  | nil => rfl
  | cons l ls ih =>
    rw [List.cons_append, Machine.play, Machine.play]
    split
    · rw [Option.bind_assoc]
      exact Option.bind_congr fun s₁ _ => ih s₁
    · rfl

/-- What every step keeps, a run keeps. -/
theorem play_invariant {ok : σ → ℓ → Prop} [∀ s l, Decidable (ok s l)] {I : σ → Prop}
    (hstep : ∀ s s' l, I s → M.step s l = some s' → I s') {ls : List ℓ} {s s' : σ} (h : I s)
    (hplay : M.play ok ls s = some s') : I s' := by
  induction ls generalizing s with
  | nil =>
    obtain rfl := Option.some.inj hplay
    exact h
  | cons l ls ih =>
    rw [Machine.play] at hplay
    split at hplay
    · obtain ⟨s₁, hl, hrest⟩ := Option.bind_eq_some_iff.mp hplay
      exact ih (hstep s s₁ l h hl) hrest
    · cases hplay

end Machine

end Transition
