import Zuvloop.Collections.Timers

/-!
# The timer heap refines a priority multiset

A priority multiset is what the timer heap is for: a multiset of entries, numbered as they are
pushed, from which `pop` takes the entry that orders first and `compact` drops the entries a
predicate accepts. `Timers.run_refines` says that the heap, driven by any sequence of operations
from the empty heap, answers and holds what the priority multiset does, in heap order throughout.
-/

namespace Zuvloop

variable {T η : Type} [LinearOrder T]

/-- An operation on the timer heap, with its allocation succeeding. -/
inductive TimersOp (T η : Type) where
  | push (when : T) (handle : η)
  | pop
  | compact (shouldDrop : η → Bool)

/-- The abstract state: the entries held, and how many were ever pushed. -/
structure PriorityMultiset (T η : Type) where
  /-- The entries held. -/
  contents : Multiset (TimerEntry T η)
  /-- The number of pushes so far. -/
  pushes : ℕ

namespace PriorityMultiset

/-- One operation on the abstract state, with the entry it returns. -/
inductive Step : PriorityMultiset T η → TimersOp T η → Option (TimerEntry T η) →
    PriorityMultiset T η → Prop where
  /-- A push adds its entry, numbered by the push. -/
  | push (M : Multiset (TimerEntry T η)) (n : ℕ) (when : T) (handle : η) :
      Step ⟨M, n⟩ (.push when handle) none ⟨{ when, seq := n + 1, handle } ::ₘ M, n + 1⟩
  /-- Popping an empty multiset returns nothing. -/
  | popEmpty (n : ℕ) : Step ⟨0, n⟩ .pop none ⟨0, n⟩
  /-- Popping takes out the entry with the earliest deadline and, among those with that
  deadline, the earliest pushed. -/
  | pop (M : Multiset (TimerEntry T η)) (n : ℕ) (e : TimerEntry T η)
      (first : ∀ x ∈ M, e.when < x.when ∨ e.when = x.when ∧ e.seq < x.seq) :
      Step ⟨e ::ₘ M, n⟩ .pop (some e) ⟨M, n⟩
  /-- Compacting removes exactly the entries the predicate accepts. -/
  | compact (M : Multiset (TimerEntry T η)) (n : ℕ) (shouldDrop : η → Bool) :
      Step ⟨M, n⟩ (.compact shouldDrop) none
        ⟨M.filter fun e => ¬ shouldDrop e.handle = true, n⟩

/-- A sequence of operations, with the entries they return. -/
inductive Run : PriorityMultiset T η → List (TimersOp T η) → List (Option (TimerEntry T η)) →
    PriorityMultiset T η → Prop where
  | nil (p : PriorityMultiset T η) : Run p [] [] p
  | cons {p q r : PriorityMultiset T η} {op : TimersOp T η} {ops : List (TimersOp T η)}
      {e : Option (TimerEntry T η)} {es : List (Option (TimerEntry T η))} :
      Step p op e q → Run q ops es r → Run p (op :: ops) (e :: es) r

end PriorityMultiset

namespace Timers

/-- One operation on the heap, with the entry it returns. -/
def apply (self : Timers T η) : TimersOp T η → Option (TimerEntry T η) × Timers T η
  | .push when handle => (none, (self.push true when handle).getD self)
  | .pop => self.pop
  | .compact shouldDrop => (none, (self.compact true shouldDrop).1)

/-- A sequence of operations on the heap, with the entries they return. -/
def run (self : Timers T η) : List (TimersOp T η) → List (Option (TimerEntry T η)) × Timers T η
  | [] => ([], self)
  | op :: ops => ((self.apply op).1 :: ((self.apply op).2.run ops).1, ((self.apply op).2.run ops).2)

/-- Pop until the heap is empty. The first argument bounds the number of pops. -/
def drainLoop : ℕ → Timers T η → List (TimerEntry T η)
  | 0, _ => []
  | fuel + 1, self =>
    match self.pop with
    | (none, _) => []
    | (some e, rest) => e :: drainLoop fuel rest

/-- The entries in the order popping takes them out. -/
def drain (self : Timers T η) : List (TimerEntry T η) := drainLoop self.len self

/-- The abstract state of a heap. -/
def abs (self : Timers T η) : PriorityMultiset T η := ⟨self.contents, self.seq⟩

/-- The first entry strictly orders before the entries `pop` leaves. -/
theorem peek_first {self : Timers T η} (hv : self.Valid) {e : TimerEntry T η}
    (h : self.peek = some e) {x : TimerEntry T η} (hx : x ∈ self.pop.2.contents) :
    e.when < x.when ∨ e.when = x.when ∧ e.seq < x.seq := by
  have hc := contents_pop h
  have hle := peek_le hv h (hc ▸ Multiset.mem_cons_of_mem hx)
  rw [TimerEntry.key, TimerEntry.key, Prod.Lex.toLex_le_toLex] at hle
  rcases hle with hlt | ⟨heq, hseq⟩
  · exact Or.inl hlt
  · refine Or.inr ⟨heq, lt_of_le_of_ne hseq fun hsame => ?_⟩
    -- two entries of a valid heap never share an insertion number
    have hd := hv.distinct
    rw [hc, Multiset.map_cons, Multiset.nodup_cons] at hd
    exact hd.1 (Multiset.mem_map.mpr ⟨x, hx, hsame.symm⟩)

/-- Every operation keeps the heap valid and is a step of the priority multiset. -/
theorem apply_refines {self : Timers T η} (hv : self.Valid) (op : TimersOp T η) :
    (self.apply op).2.Valid ∧
      PriorityMultiset.Step self.abs op (self.apply op).1 (self.apply op).2.abs := by
  cases op with
  | push when handle =>
    obtain ⟨t, ht⟩ := Option.isSome_iff_exists.mp (push_isSome self when handle)
    obtain ⟨hc, hseq, -, -⟩ := contents_push ht
    simp only [apply, ht, Option.getD_some, abs, hc, hseq]
    exact ⟨valid_push hv ht, PriorityMultiset.Step.push _ _ _ _⟩
  | pop =>
    refine ⟨valid_pop hv, ?_⟩
    simp only [apply, abs, pop_fst, pop_seq]
    rcases hp : self.peek with - | e
    · have hlen : self.len = 0 := by
        rwa [peek_eq_none_iff, ← Multiset.card_eq_zero, card_contents] at hp
      have hpop : self.pop.2 = self := by
        rw [pop, if_pos hlen]
      rw [hpop, (peek_eq_none_iff self).mp hp]
      exact PriorityMultiset.Step.popEmpty _
    · rw [contents_pop hp]
      exact PriorityMultiset.Step.pop _ _ _ fun x hx => peek_first hv hp hx
  | compact shouldDrop =>
    obtain ⟨hc, -, hseq, -⟩ := contents_compact shouldDrop self
    refine ⟨valid_compact shouldDrop hv, ?_⟩
    simp only [apply, abs, hc, hseq]
    exact PriorityMultiset.Step.compact _ _ _

theorem run_refines {self : Timers T η} (hv : self.Valid) (ops : List (TimersOp T η)) :
    (self.run ops).2.Valid ∧
      PriorityMultiset.Run self.abs ops (self.run ops).1 (self.run ops).2.abs := by
  induction ops generalizing self with
  | nil => exact ⟨hv, PriorityMultiset.Run.nil _⟩
  | cons op ops ih =>
    obtain ⟨hv', hstep⟩ := apply_refines hv op
    obtain ⟨hv'', hrun⟩ := ih hv'
    exact ⟨hv'', PriorityMultiset.Run.cons hstep hrun⟩

/-- Draining a valid heap gives its entries in strictly increasing order. -/
theorem drainLoop_sorted {fuel : ℕ} {self : Timers T η} (hv : self.Valid)
    (hfuel : self.len ≤ fuel) :
    (drainLoop fuel self : Multiset (TimerEntry T η)) = self.contents ∧
      (drainLoop fuel self).Pairwise
        fun a b => a.when < b.when ∨ a.when = b.when ∧ a.seq < b.seq := by
  induction fuel generalizing self with
  | zero =>
    have hzero : self.contents = 0 := by
      rw [← Multiset.card_eq_zero, card_contents]
      omega
    simp [drainLoop, hzero]
  | succ fuel ih =>
    rw [drainLoop]
    have hfst := pop_fst self
    rcases hpop : self.pop with ⟨- | e, rest⟩
    · rw [hpop] at hfst
      simpa using ((peek_eq_none_iff self).mp hfst.symm).symm
    · rw [hpop] at hfst
      have hc := contents_pop hfst.symm
      have hfirst := fun x => peek_first hv hfst.symm (x := x)
      have hv' := valid_pop hv
      rw [hpop] at hc hfirst hv'
      have hlen : rest.len ≤ fuel := by
        have := congrArg Multiset.card hc
        rw [Multiset.card_cons, card_contents, card_contents] at this
        dsimp only at this
        omega
      obtain ⟨hsame, hsorted⟩ := ih hv' hlen
      refine ⟨?_, List.pairwise_cons.mpr ⟨fun x hx => hfirst x ?_, hsorted⟩⟩
      · rw [← Multiset.cons_coe, hsame, hc]
      · rw [← hsame]
        exact hx

/-- Driven by any sequence of pushes, pops and compactions from the empty heap, the timer heap is
in heap order, its answers and its entries are those of the priority multiset, and draining it
yields the surviving entries by deadline and then by insertion. -/
theorem refines_priority_multiset [Inhabited T] [Inhabited η] (ops : List (TimersOp T η)) :
    let t := ((empty : Timers T η).run ops).2
    SlotHeap.HeapOn TimerEntry.key t.items t.len ∧
      PriorityMultiset.Run ⟨0, 0⟩ ops ((empty : Timers T η).run ops).1 ⟨t.contents, t.seq⟩ ∧
      (t.drain : Multiset (TimerEntry T η)) = t.contents ∧
      t.drain.Pairwise fun a b => a.when < b.when ∨ a.when = b.when ∧ a.seq < b.seq := by
  obtain ⟨hv, hrun⟩ := run_refines (valid_empty : (empty : Timers T η).Valid) ops
  rw [abs, contents_empty] at hrun
  exact ⟨hv.ordered, hrun, drainLoop_sorted hv le_rfl⟩

end Timers

end Zuvloop
