import Zuvloop.Reentrant.Machine

/-!
# Programs whose changes and calls are tracked

Some properties are about what happens between two points at which foreign code is in control: how
the state moves, change by change, and in what state foreign code is called. `Prog.tracked` says of
one program that its changes are in a given relation, that the calls it makes are in order, and
that it keeps an invariant that holds whenever control changes hands. It looks at one program at a
time; foreign code and procedures may leave any state in which the invariant holds.

## Main definitions

* `Track`: the invariant, the changes and the calls.
* `Prog.tracked`, `Prog.Tracked`: what a program has to meet.
* `Tracks`: what has to be proved of a system.

## Main results

* `Tracks.change`: every step of the machine is a change of the track.
* `Tracks.calls`: every call to foreign code is in order.
* `Tracks.inv`: the invariant holds whenever foreign code is in control.
-/

namespace Reentrant

variable {S : Signature} {α β : Type}

/-- What to track. -/
structure Track (S : Signature) where
  /-- Holds whenever control changes hands. -/
  inv : S.State → Prop
  /-- Every change of state is of this kind. -/
  change : S.State → S.State → Prop
  /-- What is called, and where. -/
  calls : S.Callback → S.State → Prop

namespace Prog

variable (E : Env S) (T : Track S)

/-- From `s`, the changes and calls of the program are those of the track, and `Q` holds of its
result and its last state. -/
def tracked : Prog S α → (α → S.State → Prop) → S.State → Prop
  | .ret a, Q, s => Q a s
  | .get k, Q, s => tracked (k s) Q s
  | .set s₁ p, Q, s => T.change s s₁ ∧ tracked p Q s₁
  | .ask q k, Q, s => ∀ a, E.answers s q a → tracked (k a) Q s
  | .yield c k, Q, s => T.inv s ∧ T.calls c s ∧ ∀ r s₁, T.inv s₁ → tracked (k r) Q s₁
  | .call _ p, Q, s => T.inv s ∧ ∀ s₁, T.inv s₁ → tracked p Q s₁

/-- Wherever the invariant holds, the program is tracked, and keeps the invariant. -/
def Tracked (p : Prog S α) : Prop := ∀ s, T.inv s → p.tracked E T (fun _ s' => T.inv s') s

variable {E T}

theorem tracked_mono {p : Prog S α} {Q Q' : α → S.State → Prop} {s : S.State}
    (h : p.tracked E T Q s) (hQ : ∀ a s', Q a s' → Q' a s') : p.tracked E T Q' s := by
  induction p generalizing s with
  | ret a => exact hQ a s h
  | get k ih => exact ih s h
  | set s₁ p ih => exact ⟨h.1, ih h.2⟩
  | ask q k ih => exact fun a ha => ih a (h a ha)
  | yield c k ih => exact ⟨h.1, h.2.1, fun r s₁ hinv => ih r (h.2.2 r s₁ hinv)⟩
  | call f p ih => exact ⟨h.1, fun s₁ hinv => ih (h.2 s₁ hinv)⟩

theorem tracked_bind_iff (p : Prog S α) (f : α → Prog S β) (Q : β → S.State → Prop)
    (s : S.State) :
    (p.bind f).tracked E T Q s ↔ p.tracked E T (fun a s' => (f a).tracked E T Q s') s := by
  induction p generalizing s with
  | ret a => rfl
  | get k ih => exact ih s s
  | set s₁ p ih => exact and_congr_right fun _ => ih s₁
  | ask q k ih => exact forall_congr' fun a => imp_congr_right fun _ => ih a s
  | yield c k ih => simp only [Prog.bind, tracked, ih]
  | call f p ih => simp only [Prog.bind, tracked, ih]

@[simp]
theorem tracked_bind (p : Prog S α) (f : α → Prog S β) (Q : β → S.State → Prop) (s : S.State) :
    (p >>= f).tracked E T Q s ↔ p.tracked E T (fun a s' => (f a).tracked E T Q s') s :=
  tracked_bind_iff p f Q s

@[simp]
theorem tracked_map (p : Prog S α) (f : α → β) (Q : β → S.State → Prop) (s : S.State) :
    (f <$> p).tracked E T Q s ↔ p.tracked E T (fun a s' => Q (f a) s') s :=
  tracked_bind_iff p (fun a => ret (f a)) Q s

@[simp]
theorem tracked_pure (a : α) (Q : α → S.State → Prop) (s : S.State) :
    (pure a : Prog S α).tracked E T Q s ↔ Q a s := Iff.rfl

@[simp]
theorem tracked_read (Q : S.State → S.State → Prop) (s : S.State) :
    (read : Prog S S.State).tracked E T Q s ↔ Q s s := Iff.rfl

@[simp]
theorem tracked_modify (f : S.State → S.State) (Q : Unit → S.State → Prop) (s : S.State) :
    (modify f : Prog S Unit).tracked E T Q s ↔ T.change s (f s) ∧ Q () (f s) := Iff.rfl

@[simp]
theorem tracked_request (q : S.Request) (Q : S.Answer → S.State → Prop) (s : S.State) :
    (request q : Prog S S.Answer).tracked E T Q s ↔ ∀ a, E.answers s q a → Q a s := Iff.rfl

@[simp]
theorem tracked_foreign (c : S.Callback) (Q : S.Result → S.State → Prop) (s : S.State) :
    (foreign c : Prog S S.Result).tracked E T Q s ↔
      T.inv s ∧ T.calls c s ∧ ∀ r s₁, T.inv s₁ → Q r s₁ := Iff.rfl

@[simp]
theorem tracked_ite (c : Prop) [Decidable c] (p q : Prog S α) (Q : α → S.State → Prop)
    (s : S.State) : (if c then p else q).tracked E T Q s ↔
      if c then p.tracked E T Q s else q.tracked E T Q s := by
  split <;> rfl

/-! ## Programs that keep the invariant throughout -/

namespace Tracked

theorem use {p : Prog S α} (hp : p.Tracked E T) {Q : α → S.State → Prop} {s : S.State}
    (hinv : T.inv s) (hQ : ∀ a s', T.inv s' → Q a s') : p.tracked E T Q s :=
  tracked_mono (hp s hinv) hQ

theorem bind {p : Prog S α} {f : α → Prog S β} (hp : p.Tracked E T)
    (hf : ∀ a, (f a).Tracked E T) : (p >>= f).Tracked E T :=
  fun s hinv => (tracked_bind p f _ s).mpr (hp.use hinv fun a s' hinv' => hf a s' hinv')

theorem map {p : Prog S α} (hp : p.Tracked E T) (f : α → β) : (f <$> p).Tracked E T :=
  fun s hinv => (tracked_map p f _ s).mpr (hp s hinv)

theorem pure (a : α) : (Pure.pure a : Prog S α).Tracked E T := fun _ hinv => hinv

theorem ite {c : Prop} [Decidable c] {p q : Prog S α} (hp : p.Tracked E T)
    (hq : q.Tracked E T) : (if c then p else q).Tracked E T := by
  split
  · exact hp
  · exact hq

theorem invoke (f : S.Proc) : (Prog.invoke f : Prog S Unit).Tracked E T :=
  fun _ hinv => ⟨hinv, fun _ hinv' => hinv'⟩

end Tracked

end Prog

/-! ## Soundness -/

/-- What has to be proved of a system. An entry point may assume what is known of every state in
which foreign code is in control. -/
structure Tracks (M : System S) (E : Env S) (T : Track S) (I : S.State → Prop) : Prop where
  /-- The invariant holds initially. -/
  init : T.inv M.init
  /-- The procedures are tracked. -/
  body : ∀ f, (M.body f).Tracked E T
  /-- The entry points are tracked. -/
  entry : ∀ stack s op, E.starts stack s op → I s → T.inv s →
    (M.entry op).tracked E T (fun _ s' => T.inv s') s

/-- The suspended programs are tracked when they are resumed. -/
def StackTracked (E : Env S) (T : Track S)
    (stack : List (S.Callback × (S.Result → Prog S Unit))) : Prop :=
  ∀ frame ∈ stack, ∀ r s, T.inv s → (frame.2 r).tracked E T (fun _ s' => T.inv s') s

/-- What holds of every configuration of a system that is tracked. -/
def ConfigTracked (E : Env S) (T : Track S) (c : Config S) : Prop :=
  StackTracked E T c.stack ∧
    match c.running with
    | none => T.inv c.state
    | some p => p.tracked E T (fun _ s' => T.inv s') c.state

namespace Tracks

variable {M : System S} {E : Env S} {T : Track S} {I : S.State → Prop} (hT : Tracks M E T I)

include hT

theorem step_tracked {c c' : Config S} {l : Label S} (hI : c.running = none → I c.state)
    (h : ConfigTracked E T c) (hl : E.Allows c l) (hstep : M.step l c = some c') :
    ConfigTracked E T c' := by
  obtain ⟨s, running, stack⟩ := c
  obtain ⟨hstack, h⟩ := h
  cases l with
  | tau =>
    rcases running with - | p
    · cases hstep
    cases p with
    | ret a =>
      cases hstep
      exact ⟨hstack, h⟩
    | get k =>
      cases hstep
      exact ⟨hstack, h⟩
    | set s₁ p =>
      cases hstep
      exact ⟨hstack, h.2⟩
    | ask q k => cases hstep
    | yield cb k =>
      cases hstep
      refine ⟨fun frame hmem => ?_, h.1⟩
      rcases List.mem_cons.mp hmem with rfl | hmem
      · exact h.2.2
      · exact hstack frame hmem
    | call f p =>
      cases hstep
      refine ⟨hstack, (Prog.tracked_bind_iff _ _ _ _).mpr ?_⟩
      exact (hT.body f).use h.1 fun _ s' hinv => h.2 s' hinv
  | answer a =>
    rcases running with - | p
    · cases hstep
    cases p with
    | ask q k =>
      cases hstep
      exact ⟨hstack, h a hl⟩
    | _ => cases hstep
  | start op =>
    rcases running with - | p
    · cases hstep
      exact ⟨hstack, hT.entry _ s op hl (hI rfl) h⟩
    · cases hstep
  | resume r =>
    rcases running with - | p
    · cases stack with
      | nil => cases hstep
      | cons top rest =>
        cases hstep
        exact ⟨fun frame hmem => hstack frame (List.mem_cons_of_mem _ hmem),
          hstack top List.mem_cons_self r s h⟩
    · cases hstep

variable (hI : ∀ s stack, M.Reachable E ⟨s, none, stack⟩ → I s)

include hI

theorem config {c : Config S} (h : M.Reachable E c) : ConfigTracked E T c := by
  induction h with
  | initial => exact ⟨List.forall_mem_nil _, hT.init⟩
  | @step c c' l hreach hl hstep ih =>
    refine hT.step_tracked (fun hnone => ?_) ih hl hstep
    obtain ⟨s, running, stack⟩ := c
    subst hnone
    exact hI s stack hreach

/-- The invariant holds whenever foreign code is in control. -/
theorem inv {s : S.State} {stack : List (S.Callback × (S.Result → Prog S Unit))}
    (h : M.Reachable E ⟨s, none, stack⟩) : T.inv s := (hT.config hI h).2

/-- Every step of the machine is a change of the track, if it changes anything. -/
theorem change {c c' : Config S} {l : Label S} (h : M.Reachable E c)
    (hstep : M.step l c = some c') : c'.state = c.state ∨ T.change c.state c'.state := by
  obtain ⟨-, hc⟩ := hT.config hI h
  obtain ⟨s, running, stack⟩ := c
  cases l with
  | tau =>
    rcases running with - | p
    · cases hstep
    cases p with
    | set s₁ p =>
      cases hstep
      exact .inr hc.1
    | ask q k => cases hstep
    | _ =>
      cases hstep
      exact .inl rfl
  | answer a =>
    rcases running with - | p
    · cases hstep
    cases p with
    | ask q k =>
      cases hstep
      exact .inl rfl
    | _ => cases hstep
  | start op =>
    rcases running with - | p
    · cases hstep
      exact .inl rfl
    · cases hstep
  | resume r =>
    rcases running with - | p
    · cases stack with
      | nil => cases hstep
      | cons top rest =>
        cases hstep
        exact .inl rfl
    · cases hstep

/-- Every call to foreign code is in order. -/
theorem calls {s : S.State} {cb : S.Callback} {k : S.Result → Prog S Unit}
    {stack : List (S.Callback × (S.Result → Prog S Unit))}
    (h : M.Reachable E ⟨s, some (.yield cb k), stack⟩) : T.calls cb s :=
  (hT.config hI h).2.2.1

end Tracks

end Reentrant
