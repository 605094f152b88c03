import Mathlib.Data.List.Induction

/-!
# Histories

A history is the list of the events recorded so far, oldest first. What a system may record next is
a condition on the event and on the history before it; `Recorded` says that every event of a
history met it. Two consequences come up again and again: that no event follows certain others
(`Recorded.pairwise`), and that something has to happen between two events (`Recorded.between`).

## Main definitions

* `Recorded`: every event of a history fits what came before it.
* `Between`: between an event that shuts and a later one that needs it open, there is one that
  opens.
-/

namespace Reentrant

variable {ε : Type*}

/-- What holds of every event of a history, given what came before it. -/
def Recorded (P : List ε → ε → Prop) (h : List ε) : Prop :=
  ∀ before e after, h = before ++ e :: after → P before e

theorem recorded_nil (P : List ε → ε → Prop) : Recorded P [] :=
  fun before _ _ h => by cases before <;> cases h

/-- One more event. -/
theorem Recorded.concat {P : List ε → ε → Prop} {h : List ε} {e : ε} (hh : Recorded P h)
    (he : P h e) : Recorded P (h ++ [e]) := by
  intro before e' after heq
  rcases List.eq_nil_or_concat after with rfl | ⟨after, last, rfl⟩
  · obtain ⟨rfl, hlast⟩ := List.append_inj' heq rfl
    rwa [← List.singleton_inj.mp hlast]
  · rw [List.concat_eq_append, ← List.cons_append, ← List.append_assoc] at heq
    exact hh before e' after (List.append_inj' heq rfl).1

/-- If no event may follow certain others, none ever does. -/
theorem Recorded.pairwise {R : ε → ε → Prop} {h : List ε}
    (hh : Recorded (fun before e => ∀ e' ∈ before, R e' e) h) : h.Pairwise R := by
  induction h using List.reverseRecOn with
  | nil => exact List.Pairwise.nil
  | append_singleton h e ih =>
    rw [List.pairwise_append]
    refine ⟨ih fun before e' after heq => ?_, List.pairwise_singleton _ _,
      fun e' he' e'' hmem => ?_⟩
    · exact hh before e' (after ++ [e]) (by rw [heq, List.append_assoc, List.cons_append])
    · rw [List.mem_singleton.mp hmem]
      exact hh h e [] rfl e' he'

/-! ## Something in between -/

/-- Whether the history has shut something that it has not opened since. -/
def shut (shuts opens : ε → Bool) (h : List ε) : Bool :=
  h.foldl (fun closed e => if shuts e then true else if opens e then false else closed) false

/-- Between an event that shuts and a later one that needs it open, there is one that opens. -/
def Between (shuts opens needs : ε → Bool) (h : List ε) : Prop :=
  ∀ before e mid e' after, h = before ++ e :: (mid ++ e' :: after) →
    shuts e = true → needs e' = true → ∃ o ∈ mid, opens o = true

variable {shuts opens needs : ε → Bool}

@[simp]
theorem shut_concat (h : List ε) (e : ε) : shut shuts opens (h ++ [e]) =
    if shuts e then true else if opens e then false else shut shuts opens h := by
  rw [shut, List.foldl_append]
  rfl

/-- What is shut stays shut until it is opened. -/
theorem shut_append_cons {h mid : List ε} {e : ε} (he : shuts e = true)
    (hmid : ∀ o ∈ mid, opens o = false) : shut shuts opens (h ++ e :: mid) = true := by
  induction mid using List.reverseRecOn with
  | nil => rw [shut_concat, if_pos he]
  | append_singleton mid o ih =>
    rw [← List.cons_append, ← List.append_assoc, shut_concat,
      hmid o (List.mem_append_right _ (List.mem_singleton_self o)),
      ih fun o' ho' => hmid o' (List.mem_append_left _ ho')]
    exact ite_self true

/-- If what needs it open only ever happens while it is open, it is opened in between. -/
theorem Recorded.between {h : List ε}
    (hh : Recorded (fun past e => needs e = true → shut shuts opens past = false) h) :
    Between shuts opens needs h := by
  intro before e mid e' after heq hshuts hneeds
  by_contra hnone
  have hshut : shut shuts opens (before ++ e :: mid) = true :=
    shut_append_cons hshuts fun o ho => by
      rw [← Bool.not_eq_true]
      exact fun hopens => hnone ⟨o, ho, hopens⟩
  have hopen := hh (before ++ e :: mid) e' after (by rw [heq, List.append_assoc, List.cons_append])
    hneeds
  rw [hshut] at hopen
  cases hopen

end Reentrant
