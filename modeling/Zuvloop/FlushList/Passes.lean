import Mathlib.Data.List.Forall2
import Zuvloop.FlushList.Model

/-!
# Passes over the flush list

The list and the lists that passes have detached are disjoint chains, and a transport is flagged
exactly while it is on one of them. A pass visits what was on the list when it started, each
transport once. What is put on the list meanwhile stays there to the end of the pass unless a pass
that started later has visited it.

## Main definitions

* `State.emptiedBy`, `State.releasedBy`, `State.stored`, `State.gone`: what the log says.
* `Chains`, `Inv`: the chains, the flags, the references and the batches.
* `Requeued`: a transport was put on the list after a pass had visited it.

## Main results

* `flush_list`: all of it together.
* `not_flush_list`: closing the loop within a pass takes transports off the list.
-/

namespace Zuvloop.FlushList

open Transition Linked

/-! ## The log -/

/-- The transport that a pass has visited. -/
def Event.emptiedBy (k : Kind) (n : ℕ) : Event → Option ℕ
  | .emptied k' (some m) t _ => if k' = k ∧ m = n then some t else none
  | _ => none

/-- The transport that a pass has released. -/
def Event.releasedBy (n : ℕ) : Event → Option ℕ
  | .released m t => if m = n then some t else none
  | _ => none

/-- The view that was stored in a batch. -/
def Event.storedIn (t : ℕ) : Event → List ℕ
  | .stored u v => if u = t then [v] else []
  | _ => []

/-- The views that have left a batch. -/
def Event.goneFrom (t : ℕ) : Event → List ℕ
  | .emptied _ _ u vs => if u = t then vs else []
  | _ => []

/-- The pass that an event belongs to. -/
def Event.pass? : Event → Option ℕ
  | .emptied _ pass _ _ => pass
  | .released n _ => some n
  | _ => none

/-- What an event says about a transport being on a list. -/
def Event.marks (t : ℕ) (b : Bool) : Event → Bool
  | .queued u => if u = t then true else b
  | .emptied _ (some _) u _ => if u = t then false else b
  | _ => b

/-- The transports that a pass has visited, in order. -/
def emptiedBy (log : List Event) (k : Kind) (n : ℕ) : List ℕ := log.filterMap (Event.emptiedBy k n)

/-- The transports that a pass has released, in order. -/
def releasedBy (log : List Event) (n : ℕ) : List ℕ := log.filterMap (Event.releasedBy n)

/-- The views that were stored in the batch of a transport, in order. -/
def stored (log : List Event) (t : ℕ) : List ℕ := log.flatMap (Event.storedIn t)

/-- The views that have left the batch of a transport, in order. -/
def gone (log : List Event) (t : ℕ) : List ℕ := log.flatMap (Event.goneFrom t)

/-- Whether a transport is on a list, by the log. -/
def marked (log : List Event) (t : ℕ) : Bool := log.foldl (Event.marks t) false

/-- A transport was put on the list after a pass had visited it, and then came `later`. -/
def Requeued (log : List Event) (k : Kind) (n t : ℕ) (later : List Event) : Prop :=
  ∃ before between vs,
    log = before ++ .emptied k (some n) t vs :: (between ++ .queued t :: later)

section Log

variable {log : List Event} {e : Event} {k : Kind} {n t : ℕ}

theorem emptiedBy_concat_of_pass (he : e.pass? ≠ some n) :
    emptiedBy (log ++ [e]) k n = emptiedBy log k n := by
  have hnone : e.emptiedBy k n = none := by
    cases e with
    | emptied k' pass t vs =>
      cases pass with
      | none => rfl
      | some m =>
        rw [Event.emptiedBy, if_neg]
        rintro ⟨-, rfl⟩
        exact he rfl
    | queued t => rfl
    | stored t v => rfl
    | released m t => rfl
  rw [emptiedBy, List.filterMap_append, List.filterMap_cons, hnone, List.filterMap_nil,
    List.append_nil, emptiedBy]

theorem releasedBy_concat_of_pass (he : e.pass? ≠ some n) :
    releasedBy (log ++ [e]) n = releasedBy log n := by
  have hnone : e.releasedBy n = none := by
    cases e with
    | released m t =>
      rw [Event.releasedBy, if_neg]
      rintro rfl
      exact he rfl
    | queued t => rfl
    | stored t v => rfl
    | emptied k pass t vs => rfl
  rw [releasedBy, List.filterMap_append, List.filterMap_cons, hnone, List.filterMap_nil,
    List.append_nil, releasedBy]

@[simp]
theorem emptiedBy_emptied {vs : List ℕ} :
    emptiedBy (log ++ [.emptied k (some n) t vs]) k n = emptiedBy log k n ++ [t] := by
  simp [emptiedBy, Event.emptiedBy]

@[simp]
theorem releasedBy_emptied {pass : Option ℕ} {vs : List ℕ} :
    releasedBy (log ++ [.emptied k pass t vs]) n = releasedBy log n := by
  simp [releasedBy, Event.releasedBy]

@[simp]
theorem emptiedBy_released {m : ℕ} :
    emptiedBy (log ++ [.released m t]) k n = emptiedBy log k n := by
  simp [emptiedBy, Event.emptiedBy]

@[simp]
theorem releasedBy_released : releasedBy (log ++ [.released n t]) n = releasedBy log n ++ [t] := by
  simp [releasedBy, Event.releasedBy]

theorem stored_concat : stored (log ++ [e]) t = stored log t ++ e.storedIn t := by
  simp [stored]

theorem gone_concat : gone (log ++ [e]) t = gone log t ++ e.goneFrom t := by
  simp [gone]

theorem marked_concat : marked (log ++ [e]) t = e.marks t (marked log t) := by
  simp [marked]

/-- What a pass has visited is on record. -/
theorem mem_emptiedBy {before after : List Event} {vs : List ℕ}
    (h : log = before ++ .emptied k (some n) t vs :: after) : t ∈ emptiedBy log k n := by
  subst h
  refine List.mem_filterMap.mpr ⟨_, List.mem_append_right _ List.mem_cons_self, ?_⟩
  simp [Event.emptiedBy]

/-- A transport stays on a list until a pass visits it. -/
theorem marked_of_queued {before later : List Event} (h : log = before ++ .queued t :: later)
    (hlater : ∀ k m vs, Event.emptied k (some m) t vs ∉ later) : marked log t = true := by
  subst h
  rw [marked, List.foldl_append, List.foldl_cons]
  have hstart : Event.marks t (before.foldl (Event.marks t) false) (.queued t) = true := if_pos rfl
  rw [hstart]
  clear hstart
  induction later with
  | nil => rfl
  | cons e later ih =>
    have he : e.marks t true = true := by
      cases e with
      | queued u =>
        rw [Event.marks]
        split <;> rfl
      | emptied k pass u vs =>
        cases pass with
        | none => rfl
        | some m =>
          rw [Event.marks, if_neg]
          rintro rfl
          exact hlater k m vs List.mem_cons_self
      | stored u v => rfl
      | released m u => rfl
    rw [List.foldl_cons, he]
    exact ih fun k m vs hmem => hlater k m vs (List.mem_cons_of_mem e hmem)

end Log

/-! ## The invariant -/

/-- The lists that passes have before them, the innermost pass first. What a pass has visited and
has before it is what was on the list when it started; it has visited nothing that lies before a
pass below it. -/
def Chains (next : ℕ → Option ℕ) (log : List Event) : List Pass → List (List ℕ) → Prop
  | [], ls => ls = []
  | _ :: _, [] => False
  | p :: ps, l :: ls =>
    Path next p.node l none ∧
    emptiedBy log p.kind p.number ++ l = p.listed ∧
    releasedBy log p.number ++ p.visiting.toList ++ l = p.listed ∧
    p.listed.Nodup ∧
    (∀ t ∈ emptiedBy log p.kind p.number, t ∉ ls.flatten) ∧
    Chains next log ps ls

/-- What every reachable state satisfies; `ls` are the lists that passes have before them. -/
structure Inv (s : State) (ls : List (List ℕ)) : Prop where
  path : Path s.next s.head s.queue none
  chains : Chains s.next s.log s.underWay ls
  nodup : (s.queue ++ ls.flatten).Nodup
  queued : ∀ t, s.queued t = true ↔ t ∈ s.queue ++ ls.flatten
  refs : ∀ t, s.refs t =
    (if s.queued t then 1 else 0) + (s.underWay.filterMap Pass.visiting).count t
  numbers : (s.underWay.map Pass.number).Nodup ∧ ∀ p ∈ s.underWay, p.number < s.passes
  fresh : ∀ e ∈ s.log, ∀ n, e.pass? = some n → n < s.passes
  marked : ∀ t, s.queued t = marked s.log t
  views : ∀ t, stored s.log t = gone s.log t ++ s.pending t
  old : ∀ t, (stored s.log t).Nodup ∧ ∀ v ∈ stored s.log t, v < s.nextView

section Chains

variable {next next' : ℕ → Option ℕ} {log log' : List Event} {ps : List Pass} {ls : List (List ℕ)}
  {e : Event} {t : ℕ}

/-- The links of other transports do not matter. -/
theorem Chains.congr (h : Chains next log ps ls) (hnext : ∀ t ∈ ls.flatten, next' t = next t) :
    Chains next' log ps ls := by
  induction ps generalizing ls with
  | nil => exact h
  | cons p ps ih =>
    cases ls with
    | nil => exact h
    | cons l ls =>
      obtain ⟨hpath, hemptied, hreleased, hnodup, hdis, hrest⟩ := h
      rw [List.flatten_cons] at hnext
      exact ⟨hpath.congr fun t ht => hnext t (List.mem_append_left _ ht), hemptied, hreleased,
        hnodup, hdis, ih hrest fun t ht => hnext t (List.mem_append_right _ ht)⟩

/-- Events of other passes do not matter. -/
theorem Chains.concat (h : Chains next log ps ls)
    (he : ∀ p ∈ ps, e.pass? ≠ some p.number) : Chains next (log ++ [e]) ps ls := by
  induction ps generalizing ls with
  | nil => exact h
  | cons p ps ih =>
    cases ls with
    | nil => exact h
    | cons l ls =>
      obtain ⟨hpath, hemptied, hreleased, hnodup, hdis, hrest⟩ := h
      have hp := he p List.mem_cons_self
      rw [Chains, emptiedBy_concat_of_pass hp, releasedBy_concat_of_pass hp]
      exact ⟨hpath, hemptied, hreleased, hnodup, hdis,
        ih hrest fun q hq => he q (List.mem_cons_of_mem p hq)⟩

/-- The lists that passes have before them, by the pointers they hold. -/
theorem Chains.forall₂ (h : Chains next log ps ls) :
    List.Forall₂ (fun p l => Path next p.node l none) ps ls := by
  induction ps generalizing ls with
  | nil =>
    obtain rfl := h
    exact .nil
  | cons p ps ih =>
    cases ls with
    | nil => exact h.elim
    | cons l ls => exact .cons h.1 (ih h.2.2.2.2.2)

end Chains

section Inv

variable {s s' : State} {ls : List (List ℕ)} {p q : Pass} {rest : List Frame} {t : ℕ} {k : Kind}

theorem underWay_pass (hstack : s.stack = .pass p :: rest) :
    s.underWay = p :: rest.filterMap Frame.pass? := by
  rw [State.underWay, hstack]
  rfl

/-- Only flags change, and functions that are no passes. -/
theorem Inv.control (h : Inv s ls) (running closed flusherActive : Bool) (stack : List Frame)
    (hstack : stack.filterMap Frame.pass? = s.underWay) :
    Inv { s with running, closed, flusherActive, stack } ls where
  path := h.path
  chains := by
    change Chains s.next s.log (stack.filterMap Frame.pass?) ls
    rw [hstack]
    exact h.chains
  nodup := h.nodup
  queued := h.queued
  refs := by
    change ∀ t, s.refs t =
      (if s.queued t then 1 else 0) + ((stack.filterMap Frame.pass?).filterMap _).count t
    rw [hstack]
    exact h.refs
  numbers := by
    change ((stack.filterMap Frame.pass?).map _).Nodup ∧ ∀ p ∈ stack.filterMap Frame.pass?, _
    rw [hstack]
    exact h.numbers
  fresh := h.fresh
  marked := h.marked
  views := h.views
  old := h.old

/-- An event is recorded that is neither about a pass nor about views. -/
theorem fresh_concat {log : List Event} {e : Event} {n : ℕ}
    (h : ∀ e ∈ log, ∀ m, e.pass? = some m → m < n) (he : ∀ m, e.pass? = some m → m < n) :
    ∀ e' ∈ log ++ [e], ∀ m, e'.pass? = some m → m < n := by
  intro e' he'
  rcases List.mem_append.mp he' with he' | he'
  · exact h e' he'
  · rw [List.mem_singleton.mp he']
    exact he

/-- A batch leaves its transport, in whatever way. -/
theorem views_empty (h : Inv s ls) (pass : Option ℕ) (u : ℕ) :
    stored (s.log ++ [.emptied k pass t (s.pending t)]) u =
      gone (s.log ++ [.emptied k pass t (s.pending t)]) u ++
        Function.update s.pending t [] u := by
  rw [stored_concat, gone_concat, h.views u]
  by_cases hut : u = t
  · subst hut
    simp [Event.storedIn, Event.goneFrom]
  · simp [Event.storedIn, Event.goneFrom, Function.update_of_ne hut, Ne.symm hut]

theorem stored_emptied {log : List Event} {pass : Option ℕ} {vs : List ℕ} {u : ℕ} :
    stored (log ++ [.emptied k pass t vs]) u = stored log u := by
  rw [stored_concat]
  exact List.append_nil _

/-- A batch leaves its transport, and no pass has to do with it. -/
theorem Inv.empty (h : Inv s ls) : Inv (s.empty k none t) ls where
  path := h.path
  chains := h.chains.concat fun p _ => by simp [Event.pass?]
  nodup := h.nodup
  queued := h.queued
  refs := h.refs
  numbers := h.numbers
  fresh := fresh_concat h.fresh (by simp [Event.pass?])
  marked := by
    intro u
    change s.queued u = FlushList.marked (s.log ++ [.emptied k none t (s.pending t)]) u
    rw [marked_concat]
    exact h.marked u
  views := views_empty h none
  old := by
    intro u
    change (stored (s.log ++ [.emptied k none t (s.pending t)]) u).Nodup ∧
      ∀ v ∈ stored (s.log ++ [.emptied k none t (s.pending t)]) u, _
    rw [stored_emptied]
    exact h.old u

/-- A view is stored. -/
theorem Inv.store (h : Inv s ls) : Inv (s.store t) ls where
  path := h.path
  chains := h.chains.concat fun p _ => by simp [Event.pass?]
  nodup := h.nodup
  queued := h.queued
  refs := h.refs
  numbers := h.numbers
  fresh := fresh_concat h.fresh (by simp [Event.pass?])
  marked := by
    intro u
    change s.queued u = FlushList.marked (s.log ++ [.stored t s.nextView]) u
    rw [marked_concat]
    exact h.marked u
  views := by
    intro u
    change stored (s.log ++ [.stored t s.nextView]) u = gone (s.log ++ [.stored t s.nextView]) u ++
      Function.update s.pending t (s.pending t ++ [s.nextView]) u
    rw [stored_concat, gone_concat, h.views u]
    by_cases hut : u = t
    · subst hut
      simp [Event.storedIn, Event.goneFrom]
    · simp [Event.storedIn, Event.goneFrom, Function.update_of_ne hut, Ne.symm hut]
  old := by
    intro u
    change (stored (s.log ++ [.stored t s.nextView]) u).Nodup ∧
      ∀ v ∈ stored (s.log ++ [.stored t s.nextView]) u, v < s.nextView + 1
    obtain ⟨hnodup, hlt⟩ := h.old u
    rw [stored_concat, Event.storedIn]
    split
    · -- the new view has a number of its own
      have hnot : s.nextView ∉ stored s.log u := fun hmem => Nat.lt_irrefl _ (hlt _ hmem)
      refine ⟨?_, fun v hv => ?_⟩
      · rw [← List.concat_eq_append]
        exact hnodup.concat hnot
      · rcases List.mem_append.mp hv with hv | hv
        · exact Nat.lt_succ_of_lt (hlt v hv)
        · rw [List.mem_singleton.mp hv]
          exact Nat.lt_succ_self _
    · rw [List.append_nil]
      exact ⟨hnodup, fun v hv => Nat.lt_succ_of_lt (hlt v hv)⟩

/-- A transport is put on the list. -/
theorem Inv.scheduleFlush (h : Inv s ls) : Inv (s.scheduleFlush t) ls := by
  rw [State.scheduleFlush]
  split
  · exact h.empty
  · split
    · exact h
    · rename_i hqueued
      have hnot : t ∉ s.queue ++ ls.flatten := fun hmem => hqueued ((h.queued t).mpr hmem)
      rw [List.mem_append, not_or] at hnot
      refine ⟨⟨rfl, ?_⟩, ?_, ?_, fun u => ?_, fun u => ?_, h.numbers,
        fresh_concat h.fresh (by simp [Event.pass?]), fun u => ?_, fun u => ?_, fun u => ?_⟩
      · change Path (Function.update s.next t s.head) (Function.update s.next t s.head t) _ _
        rw [Function.update_self]
        exact h.path.update_of_notMem hnot.1
      · refine (h.chains.congr fun u hu => ?_).concat fun p _ => by simp [Event.pass?]
        exact Function.update_of_ne (ne_of_mem_of_not_mem hu hnot.2) _ _
      · exact List.nodup_cons.mpr ⟨by simpa using hnot, h.nodup⟩
      · change Function.update s.queued t true u = true ↔ u ∈ t :: (s.queue ++ ls.flatten)
        by_cases hut : u = t
        · simp [hut]
        · rw [Function.update_of_ne hut, List.mem_cons, h.queued u]
          simp [hut]
      · change Function.update s.refs t (s.refs t + 1) u =
          (if Function.update s.queued t true u then 1 else 0) + _
        by_cases hut : u = t
        · subst hut
          rw [Function.update_self, Function.update_self, h.refs u, if_neg hqueued, if_pos rfl]
          exact Nat.add_right_comm ..
        · rw [Function.update_of_ne hut, Function.update_of_ne hut]
          exact h.refs u
      · change Function.update s.queued t true u = FlushList.marked (s.log ++ [.queued t]) u
        rw [marked_concat, Event.marks]
        by_cases hut : u = t
        · simp [hut]
        · rw [Function.update_of_ne hut, if_neg (Ne.symm hut)]
          exact h.marked u
      · change stored (s.log ++ [.queued t]) u = gone (s.log ++ [.queued t]) u ++ s.pending u
        rw [stored_concat, gone_concat, h.views u]
        simp [Event.storedIn, Event.goneFrom]
      · change (stored (s.log ++ [.queued t]) u).Nodup ∧ ∀ v ∈ stored (s.log ++ [.queued t]) u, _
        rw [stored_concat]
        exact (List.append_nil (stored s.log u)).symm ▸ h.old u

/-- A number that no pass has had is not on record. -/
theorem Inv.unused (h : Inv s ls) :
    emptiedBy s.log k s.passes = [] ∧ releasedBy s.log s.passes = [] := by
  constructor
  · refine List.filterMap_eq_nil_iff.mpr fun e he => ?_
    cases e with
    | emptied k' pass t vs =>
      cases pass with
      | none => rfl
      | some m =>
        have hlt := h.fresh _ he m rfl
        rw [Event.emptiedBy, if_neg]
        rintro ⟨-, rfl⟩
        exact Nat.lt_irrefl _ hlt
    | queued t => rfl
    | stored t v => rfl
    | released m t => rfl
  · refine List.filterMap_eq_nil_iff.mpr fun e he => ?_
    cases e with
    | released m t =>
      have hlt := h.fresh _ he m rfl
      rw [Event.releasedBy, if_neg (Nat.ne_of_lt hlt)]
    | queued t => rfl
    | stored t v => rfl
    | emptied k pass t vs => rfl

/-- A pass detaches the list. -/
theorem Inv.start (h : Inv s ls) (c : Caller) : Inv (s.start k c) (s.queue :: ls) where
  path := rfl
  chains := by
    obtain ⟨hemptied, hreleased⟩ := h.unused (k := k)
    have hnodup := List.nodup_append.mp h.nodup
    refine ⟨h.path, ?_, ?_, hnodup.1, ?_, h.chains⟩
    · exact (congrArg (· ++ s.queue) hemptied).trans (List.nil_append _)
    · exact (congrArg (· ++ ([] : List ℕ) ++ s.queue) hreleased).trans (List.nil_append _)
    · intro t ht
      have ht : t ∈ emptiedBy s.log k s.passes := ht
      rw [hemptied] at ht
      cases ht
  nodup := h.nodup
  queued := h.queued
  refs := h.refs
  numbers := by
    obtain ⟨hnodup, hlt⟩ := h.numbers
    refine ⟨List.nodup_cons.mpr ⟨fun hmem => ?_, hnodup⟩, fun p hp => ?_⟩
    · obtain ⟨p, hp, hnumber⟩ := List.mem_map.mp hmem
      exact absurd (hlt p hp) (by rw [hnumber]; exact Nat.lt_irrefl _)
    · rcases List.mem_cons.mp hp with rfl | hp
      · exact Nat.lt_succ_self _
      · exact Nat.lt_succ_of_lt (hlt p hp)
  fresh := fun e he n hn => Nat.lt_succ_of_lt (h.fresh e he n hn)
  marked := h.marked
  views := h.views
  old := h.old

/-- The list that the innermost pass has before it. -/
theorem Inv.top (h : Inv s ls) (hstack : s.stack = .pass p :: rest) :
    ∃ l ls', ls = l :: ls' ∧
      Chains s.next s.log (p :: rest.filterMap Frame.pass?) (l :: ls') := by
  have hchains := h.chains
  rw [underWay_pass hstack] at hchains
  cases ls with
  | nil => exact hchains.elim
  | cons l ls' => exact ⟨l, ls', rfl, hchains⟩

/-- A pass below the innermost one has another number. -/
theorem Inv.number_ne (h : Inv s ls) (hstack : s.stack = .pass p :: rest) :
    ∀ q ∈ rest.filterMap Frame.pass?, some p.number ≠ some q.number := by
  have hnodup := h.numbers.1
  rw [underWay_pass hstack] at hnodup
  have hnot := (List.nodup_cons.mp hnodup).1
  intro q hq heq
  exact hnot (List.mem_map.mpr ⟨q, hq, (Option.some.inj heq).symm⟩)

/-- A pass at a transport that it has not released. -/
theorem visiting_count {p' : Pass} (hstack : s.stack = .pass p :: rest)
    (hp : p.visiting = none) (u : ℕ) :
    ((p' :: rest.filterMap Frame.pass?).filterMap Pass.visiting).count u =
      p'.visiting.toList.count u + (s.underWay.filterMap Pass.visiting).count u := by
  rw [underWay_pass hstack, List.filterMap_cons, List.filterMap_cons, hp]
  cases p'.visiting with
  | none => simp
  | some x =>
    simp only [Option.toList_some]
    rw [← List.count_append, List.singleton_append]

/-- A pass comes to a transport. -/
theorem Inv.enter (h : Inv s ls) (hstack : s.stack = .pass p :: rest) (hready : p.stage = .ready)
    (hnode : p.node = some t) :
    ∃ ls', Inv ({ s with
        next := Function.update s.next t none
        queued := Function.update s.queued t false
        stack := .pass { p with node := s.next t, stage := .visiting t } :: rest }.empty
      p.kind (some p.number) t) ls' := by
  obtain ⟨l, ls, rfl, hpath, hemptied, hreleased, hlisted, hdis, hrest⟩ := h.top hstack
  have hvisiting : p.visiting = none := by rw [Pass.visiting, hready]
  rw [hnode] at hpath
  cases l with
  | nil => cases hpath
  | cons t' l =>
    obtain ⟨htt, hpath⟩ := hpath
    obtain rfl := Option.some.inj htt
    have hperm : (s.queue ++ ((t :: l) :: ls).flatten).Perm (t :: (s.queue ++ (l :: ls).flatten)) :=
      List.perm_middle
    obtain ⟨hnot, hnodup⟩ := List.nodup_cons.mp (hperm.nodup_iff.mp h.nodup)
    have hmem : ∀ u, u ∈ s.queue ++ ((t :: l) :: ls).flatten ↔
        u = t ∨ u ∈ s.queue ++ (l :: ls).flatten := fun u => by
      rw [hperm.mem_iff, List.mem_cons]
    have hqueued : s.queued t = true := (h.queued t).mpr ((hmem t).mpr (.inl rfl))
    have hne : ∀ u ∈ s.queue ++ (l :: ls).flatten, u ≠ t := fun u hu => ne_of_mem_of_not_mem hu hnot
    refine ⟨l :: ls, h.path.update_of_notMem fun hu => hnot (List.mem_append_left _ hu),
      ⟨?_, ?_, ?_, hlisted, fun u hu => ?_, ?_⟩, hnodup, fun u => ?_, fun u => ?_, ?_,
      fresh_concat h.fresh ?_, fun u => ?_, views_empty h _, fun u => ?_⟩
    · exact hpath.update_of_notMem fun hu => hnot (by simp [hu])
    · change emptiedBy (s.log ++ [.emptied p.kind (some p.number) t (s.pending t)]) p.kind
        p.number ++ l = p.listed
      rw [emptiedBy_emptied, List.append_assoc]
      exact hemptied
    · change releasedBy (s.log ++ [.emptied p.kind (some p.number) t (s.pending t)]) p.number ++
        [t] ++ l = p.listed
      rw [hvisiting] at hreleased
      rw [releasedBy_emptied, List.append_assoc]
      simpa using hreleased
    · have hu : u ∈ emptiedBy (s.log ++ [.emptied p.kind (some p.number) t (s.pending t)]) p.kind
        p.number := hu
      rw [emptiedBy_emptied, List.mem_append, List.mem_singleton] at hu
      rcases hu with hu | rfl
      · exact hdis u hu
      · exact fun hu => hnot (by simp [hu])
    · refine (hrest.congr fun u hu => ?_).concat (h.number_ne hstack)
      exact Function.update_of_ne (hne u (by simp [hu])) _ _
    · change Function.update s.queued t false u = true ↔ _
      by_cases hut : u = t
      · subst hut
        rw [Function.update_self]
        exact iff_of_false (by simp) hnot
      · rw [Function.update_of_ne hut, h.queued u, hmem u]
        exact or_iff_right hut
    · change s.refs u = (if Function.update s.queued t false u then 1 else 0) +
        ((({ p with node := s.next t, stage := .visiting t } : Pass) ::
          rest.filterMap Frame.pass?).filterMap Pass.visiting).count u
      rw [visiting_count hstack hvisiting, h.refs u]
      by_cases hut : u = t
      · -- the reference that the list held is now the pass's
        subst hut
        simp [hqueued, Pass.visiting]
      · simp [hut, Ne.symm hut, Pass.visiting]
    · have hnumbers := h.numbers
      rw [underWay_pass hstack] at hnumbers
      refine ⟨hnumbers.1, fun q hq => ?_⟩
      rcases List.mem_cons.mp hq with rfl | hq
      · exact hnumbers.2 p List.mem_cons_self
      · exact hnumbers.2 q (List.mem_cons_of_mem p hq)
    · rintro m hm
      obtain rfl := Option.some.inj hm
      refine h.numbers.2 p ?_
      rw [underWay_pass hstack]
      exact List.mem_cons_self
    · change Function.update s.queued t false u =
        FlushList.marked (s.log ++ [.emptied p.kind (some p.number) t (s.pending t)]) u
      rw [marked_concat, Event.marks]
      by_cases hut : u = t
      · simp [hut]
      · rw [Function.update_of_ne hut, if_neg (Ne.symm hut)]
        exact h.marked u
    · change (stored (s.log ++ [.emptied p.kind (some p.number) t (s.pending t)]) u).Nodup ∧
        ∀ v ∈ stored (s.log ++ [.emptied p.kind (some p.number) t (s.pending t)]) u, _
      rw [stored_emptied]
      exact h.old u

/-- A pass gives up the reference to the transport it has visited. -/
theorem Inv.release (h : Inv s ls) (hstack : s.stack = .pass p :: rest)
    (hstage : p.stage = .visiting t) :
    Inv ({ s with stack := .pass { p with stage := .releasing t } :: rest }.decref p.number t)
      ls := by
  obtain ⟨l, ls, rfl, hpath, hemptied, hreleased, hlisted, hdis, hrest⟩ := h.top hstack
  have hvisiting : p.visiting = some t := by rw [Pass.visiting, hstage]
  have hcount : ∀ u, (s.underWay.filterMap Pass.visiting).count u =
      [t].count u + ((rest.filterMap Frame.pass?).filterMap Pass.visiting).count u := by
    intro u
    rw [underWay_pass hstack, List.filterMap_cons, hvisiting, ← List.count_append]
    rfl
  refine ⟨h.path, ⟨hpath, ?_, ?_, hlisted, fun u hu => ?_, ?_⟩, h.nodup, h.queued, fun u => ?_, ?_,
    fresh_concat h.fresh ?_, fun u => ?_, fun u => ?_, fun u => ?_⟩
  · change emptiedBy (s.log ++ [.released p.number t]) p.kind p.number ++ l = p.listed
    rw [emptiedBy_released]
    exact hemptied
  · change releasedBy (s.log ++ [.released p.number t]) p.number ++ [] ++ l = p.listed
    rw [hvisiting] at hreleased
    rw [releasedBy_released, List.append_nil]
    exact hreleased
  · have hu : u ∈ emptiedBy (s.log ++ [.released p.number t]) p.kind p.number := hu
    rw [emptiedBy_released] at hu
    exact hdis u hu
  · exact hrest.concat (h.number_ne hstack)
  · change Function.update s.refs t (s.refs t - 1) u = (if s.queued u then 1 else 0) +
      ((rest.filterMap Frame.pass?).filterMap Pass.visiting).count u
    have hrefs := h.refs u
    rw [hcount u] at hrefs
    by_cases hut : u = t
    · subst hut
      rw [Function.update_self, hrefs, List.count_singleton_self]
      omega
    · have hzero : [t].count u = 0 := List.count_eq_zero.mpr (by simpa using hut)
      rw [Function.update_of_ne hut, hrefs, hzero, Nat.zero_add]
  · have hnumbers := h.numbers
    rw [underWay_pass hstack] at hnumbers
    refine ⟨hnumbers.1, fun q hq => ?_⟩
    rcases List.mem_cons.mp hq with rfl | hq
    · exact hnumbers.2 p List.mem_cons_self
    · exact hnumbers.2 q (List.mem_cons_of_mem p hq)
  · rintro m hm
    obtain rfl := Option.some.inj hm
    refine h.numbers.2 p ?_
    rw [underWay_pass hstack]
    exact List.mem_cons_self
  · change s.queued u = FlushList.marked (s.log ++ [.released p.number t]) u
    rw [marked_concat]
    exact h.marked u
  · change stored (s.log ++ [.released p.number t]) u =
      gone (s.log ++ [.released p.number t]) u ++ s.pending u
    rw [stored_concat, gone_concat, h.views u]
    simp [Event.storedIn, Event.goneFrom]
  · change (stored (s.log ++ [.released p.number t]) u).Nodup ∧
      ∀ v ∈ stored (s.log ++ [.released p.number t]) u, _
    rw [stored_concat]
    exact (List.append_nil (stored s.log u)).symm ▸ h.old u

/-- A pass visits a transport. -/
theorem Inv.visit (h : Inv s ls) (hstack : s.stack = .pass p :: rest) (hready : p.stage = .ready)
    (hnode : p.node = some t) : ∃ ls', Inv (s.visit p t rest) ls' := by
  obtain ⟨ls', hs⟩ := h.enter hstack hready hnode
  refine ⟨ls', ?_⟩
  rw [State.visit]
  cases hkind : p.kind with
  | drain =>
    rw [hkind] at hs
    exact hs
  | drop =>
    -- nothing happens between `discardPending` and `py.decref`
    rw [hkind] at hs
    exact hs.release rfl rfl

/-- The innermost pass goes on to its next transport. -/
theorem Inv.ready (h : Inv s ls) (hstack : s.stack = .pass p :: rest)
    (hstage : p.stage = .releasing t) :
    Inv { s with stack := .pass { p with stage := .ready } :: rest } ls := by
  obtain ⟨l, ls, rfl, hpath, hemptied, hreleased, hlisted, hdis, hrest⟩ := h.top hstack
  have hvisiting : p.visiting = none := by rw [Pass.visiting, hstage]
  have hnumbers := h.numbers
  rw [underWay_pass hstack] at hnumbers
  rw [hvisiting] at hreleased
  refine ⟨h.path, ⟨hpath, hemptied, hreleased, hlisted, hdis, hrest⟩, h.nodup, h.queued,
    fun u => ?_, ⟨hnumbers.1, fun q hq => ?_⟩, h.fresh, h.marked, h.views, h.old⟩
  · change s.refs u = (if s.queued u then 1 else 0) +
      ((({ p with stage := .ready } : Pass) ::
        rest.filterMap Frame.pass?).filterMap Pass.visiting).count u
    rw [visiting_count hstack hvisiting, h.refs u]
    simp [Pass.visiting]
  · rcases List.mem_cons.mp hq with rfl | hq
    · exact hnumbers.2 p List.mem_cons_self
    · exact hnumbers.2 q (List.mem_cons_of_mem p hq)

/-- A pass is over. -/
theorem Inv.finish (h : Inv s ls) (hstack : s.stack = .pass p :: rest) (hready : p.stage = .ready)
    (hnode : p.node = none) : ∃ ls', Inv (s.finish p rest) ls' := by
  obtain ⟨l, ls, rfl, hpath, hemptied, hreleased, hlisted, hdis, hrest⟩ := h.top hstack
  have hvisiting : p.visiting = none := by rw [Pass.visiting, hready]
  rw [hnode] at hpath
  obtain rfl : l = [] := hpath.unique (Path.nil_iff.mpr rfl)
  have hnumbers := h.numbers
  rw [underWay_pass hstack] at hnumbers
  have hpop : Inv { s with stack := rest } ls := by
    refine ⟨h.path, hrest, h.nodup, h.queued, fun u => ?_, ⟨(List.nodup_cons.mp hnumbers.1).2,
      fun q hq => hnumbers.2 q (List.mem_cons_of_mem p hq)⟩, h.fresh, h.marked, h.views, h.old⟩
    change s.refs u = (if s.queued u then 1 else 0) +
      ((rest.filterMap Frame.pass?).filterMap Pass.visiting).count u
    rw [h.refs u, underWay_pass hstack, List.filterMap_cons, hvisiting]
  refine ⟨ls, ?_⟩
  rw [State.finish]
  cases p.caller with
  | onFlush =>
    dsimp only
    split
    · exact hpop.control s.running s.closed false _ rfl
    · exact hpop
  | closeLoop => exact hpop.control s.running s.closed false _ rfl
  | runLoop => exact hpop
  | dealloc => exact hpop

/-- Every step keeps the invariant. -/
theorem Inv.step {lab : Label} (h : Inv s ls) (hstep : machine.step s lab = some s') :
    ∃ ls', Inv s' ls' := by
  change FlushList.step s lab = some s' at hstep
  cases lab with
  | store t =>
    rw [FlushList.step] at hstep
    split at hstep
    · obtain rfl := Option.some.inj hstep
      exact ⟨ls, h.store⟩
    · cases hstep
  | schedule t =>
    rw [FlushList.step] at hstep
    split at hstep
    · obtain rfl := Option.some.inj hstep
      exact ⟨ls, h.scheduleFlush⟩
    · cases hstep
  | empty k t =>
    rw [FlushList.step] at hstep
    split at hstep
    · obtain rfl := Option.some.inj hstep
      exact ⟨ls, h.empty⟩
    · cases hstep
  | run =>
    rw [FlushList.step] at hstep
    split at hstep
    · obtain rfl := Option.some.inj hstep
      exact ⟨ls, h.control true s.closed s.flusherActive _ rfl⟩
    · cases hstep
  | onFlush =>
    rw [FlushList.step] at hstep
    split at hstep
    · obtain rfl := Option.some.inj hstep
      exact ⟨_, h.start .onFlush⟩
    · cases hstep
  | stopped =>
    rw [FlushList.step] at hstep
    split at hstep
    · rename_i rest hstack
      obtain rfl := Option.some.inj hstep
      have hpop := h.control false s.closed s.flusherActive rest
        (by rw [State.underWay, hstack]; rfl)
      exact ⟨_, hpop.start .runLoop⟩
    · cases hstep
  | close =>
    rw [FlushList.step] at hstep
    split at hstep
    · obtain rfl := Option.some.inj hstep
      exact ⟨ls, h.control s.running true s.flusherActive _ rfl⟩
    · cases hstep
  | dealloc =>
    rw [FlushList.step] at hstep
    split at hstep
    · obtain rfl := Option.some.inj hstep
      have hclosed := h.control s.running true s.flusherActive s.stack rfl
      exact ⟨_, hclosed.start .dealloc⟩
    · cases hstep
  | next =>
    rw [FlushList.step] at hstep
    split at hstep
    · rename_i p rest hstack
      split at hstep
      · rename_i hready
        split at hstep
        · rename_i t hnode
          obtain rfl := Option.some.inj hstep
          exact h.visit hstack hready hnode
        · rename_i hnode
          obtain rfl := Option.some.inj hstep
          exact h.finish hstack hready hnode
      · cases hstep
    · cases hstep
  | returned =>
    rw [FlushList.step] at hstep
    split at hstep
    · rename_i rest hstack
      obtain rfl := Option.some.inj hstep
      have hpop := h.control s.running s.closed s.flusherActive rest
        (by rw [State.underWay, hstack]; rfl)
      exact ⟨_, hpop.start .closeLoop⟩
    · rename_i p rest hstack
      split at hstep
      · cases hstep
      · rename_i t hstage
        obtain rfl := Option.some.inj hstep
        exact ⟨ls, h.release hstack hstage⟩
      · rename_i t hstage
        obtain rfl := Option.some.inj hstep
        exact ⟨ls, h.ready hstack hstage⟩
    · cases hstep

end Inv

/-! ## Runs -/

section Runs

variable {s : State}

/-- What every reachable state satisfies. -/
theorem inv_of_reachable (hs : machine.Reachable Any s) : ∃ ls, Inv s ls := by
  refine hs.invariant (I := fun s => ∃ ls, Inv s ls) ⟨[], ?_⟩ ?_
  · refine ⟨rfl, rfl, ?_, ?_, ?_, ?_, ?_, ?_, ?_, ?_⟩ <;>
      simp [machine, State.underWay, marked, stored, gone]
  · rintro s s' lab - ⟨ls, h⟩ - hstep
    exact h.step hstep

/-- A pass starts with everything that is on the list. -/
theorem listed_of_start {lab : Label} {s' : State} (hstep : machine.step s lab = some s')
    (hstart : s'.passes ≠ s.passes) :
    ∃ p rest, s'.stack = .pass p :: rest ∧ p.number = s.passes ∧ p.listed = s.queue := by
  change step s lab = some s' at hstep
  cases lab with
  | store t =>
    rw [step] at hstep
    split at hstep
    · obtain rfl := Option.some.inj hstep
      exact absurd rfl hstart
    · cases hstep
  | schedule t =>
    rw [step] at hstep
    split at hstep
    · obtain rfl := Option.some.inj hstep
      refine absurd ?_ hstart
      rw [State.scheduleFlush]
      split
      · rfl
      · split <;> rfl
    · cases hstep
  | empty k t =>
    rw [step] at hstep
    split at hstep
    · obtain rfl := Option.some.inj hstep
      exact absurd rfl hstart
    · cases hstep
  | run =>
    rw [step] at hstep
    split at hstep
    · obtain rfl := Option.some.inj hstep
      exact absurd rfl hstart
    · cases hstep
  | onFlush =>
    rw [step] at hstep
    split at hstep
    · obtain rfl := Option.some.inj hstep
      exact ⟨_, _, rfl, rfl, rfl⟩
    · cases hstep
  | stopped =>
    rw [step] at hstep
    split at hstep
    · obtain rfl := Option.some.inj hstep
      exact ⟨_, _, rfl, rfl, rfl⟩
    · cases hstep
  | close =>
    rw [step] at hstep
    split at hstep
    · obtain rfl := Option.some.inj hstep
      exact absurd rfl hstart
    · cases hstep
  | dealloc =>
    rw [step] at hstep
    split at hstep
    · obtain rfl := Option.some.inj hstep
      exact ⟨_, _, rfl, rfl, rfl⟩
    · cases hstep
  | next =>
    rw [step] at hstep
    split at hstep
    · rename_i p rest hstack
      split at hstep
      · split at hstep
        · obtain rfl := Option.some.inj hstep
          refine absurd ?_ hstart
          rw [State.visit]
          cases p.kind <;> rfl
        · obtain rfl := Option.some.inj hstep
          refine absurd ?_ hstart
          rw [State.finish]
          cases p.caller with
          | onFlush =>
            dsimp only
            split <;> rfl
          | closeLoop => rfl
          | runLoop => rfl
          | dealloc => rfl
      · cases hstep
    · cases hstep
  | returned =>
    rw [step] at hstep
    split at hstep
    · obtain rfl := Option.some.inj hstep
      exact ⟨_, _, rfl, rfl, rfl⟩
    · split at hstep
      · cases hstep
      · obtain rfl := Option.some.inj hstep
        exact absurd rfl hstart
      · obtain rfl := Option.some.inj hstep
        exact absurd rfl hstart
    · cases hstep

/-- What is put on the list after a pass has visited it is there at the end of the pass, if no pass
has visited it since. -/
theorem Inv.mem_queue {ls : List (List ℕ)} {p : Pass} {rest : List Frame} {t : ℕ}
    {later : List Event} (h : Inv s ls) (hstack : s.stack = .pass p :: rest)
    (hnode : p.node = none) (hre : Requeued s.log p.kind p.number t later)
    (hlater : ∀ k m vs, Event.emptied k (some m) t vs ∉ later) : t ∈ s.queue := by
  obtain ⟨l, ls, rfl, hpath, -, -, -, hdis, -⟩ := h.top hstack
  rw [hnode] at hpath
  obtain rfl : l = [] := hpath.unique (Path.nil_iff.mpr rfl)
  obtain ⟨before, between, vs, hlog⟩ := hre
  have hvisited : t ∈ emptiedBy s.log p.kind p.number := mem_emptiedBy hlog
  have hlog' : s.log = (before ++ .emptied p.kind (some p.number) t vs :: between) ++
      .queued t :: later := by
    rw [hlog]
    simp
  have hqueued := (h.marked t).trans (marked_of_queued hlog' hlater)
  exact (List.mem_append.mp ((h.queued t).mp hqueued)).resolve_right (hdis t hvisited)

/-- A transport is flagged exactly while it is on the list or on one that a pass has detached, there
only once, and with one reference; a pass has another while it flushes. A pass visits and releases
every transport that was on the list when it started, once. A transport that is put on the list
after its visit is there at the end, unless it has been visited since by a pass within this one. The
views that leave a batch, by a flush or a pass, leave it once. -/
theorem flush_list (hs : machine.Reachable Any s) :
    (∃ ls, Path s.next s.head s.queue none ∧
      List.Forall₂ (fun p l => Path s.next p.node l none) s.underWay ls ∧
      (s.queue ++ ls.flatten).Nodup ∧
      ∀ t, s.queued t = true ↔ t ∈ s.queue ++ ls.flatten) ∧
    (∀ t, s.refs t =
      (if s.queued t then 1 else 0) + (s.underWay.filterMap Pass.visiting).count t) ∧
    (∀ lab s', machine.step s lab = some s' → s'.passes ≠ s.passes →
      ∃ p rest, s'.stack = .pass p :: rest ∧ p.number = s.passes ∧ p.listed = s.queue) ∧
    (∀ p rest, s.stack = .pass p :: rest → p.stage = .ready → p.node = none →
      p.listed.Nodup ∧
      emptiedBy s.log p.kind p.number = p.listed ∧ releasedBy s.log p.number = p.listed ∧
      ∀ t later, Requeued s.log p.kind p.number t later →
        (∀ k m vs, Event.emptied k (some m) t vs ∉ later) → t ∈ s.queue) ∧
    ∀ t, (stored s.log t).Nodup ∧ stored s.log t = gone s.log t ++ s.pending t := by
  obtain ⟨ls, h⟩ := inv_of_reachable hs
  refine ⟨⟨ls, h.path, h.chains.forall₂, h.nodup, h.queued⟩, h.refs,
    fun lab s' => listed_of_start, fun p rest hstack hready hnode => ?_,
    fun t => ⟨(h.old t).1, h.views t⟩⟩
  have hmem : ∀ t later, Requeued s.log p.kind p.number t later →
      (∀ k m vs, Event.emptied k (some m) t vs ∉ later) → t ∈ s.queue :=
    fun t later => h.mem_queue hstack hnode
  obtain ⟨l, ls, rfl, hpath, hemptied, hreleased, hlisted, -, -⟩ := h.top hstack
  rw [hnode] at hpath
  obtain rfl : l = [] := hpath.unique (Path.nil_iff.mpr rfl)
  have hvisiting : p.visiting = none := by rw [Pass.visiting, hready]
  rw [hvisiting] at hreleased
  exact ⟨hlisted, by simpa using hemptied, by simpa using hreleased, hmem⟩

/-- A transport writes again while it is being flushed, and is on the list when the pass is over. -/
theorem flush_list_refilled : ∃ s p rest, machine.Reachable Any s ∧ s.stack = .pass p :: rest ∧
    p.listed = [1, 0] ∧ emptiedBy s.log p.kind p.number = [1, 0] ∧ 1 ∈ s.queue := by
  obtain ⟨s, p, rest, hs, hstack, hready, hnode, hlisted, hlog⟩ : ∃ s p rest, machine.play Any
      [.run, .store 0, .schedule 0, .store 1, .schedule 1, .onFlush, .next, .store 1, .schedule 1,
        .returned, .returned, .next, .returned, .returned] machine.init = some s ∧
      s.stack = .pass p :: rest ∧ p.stage = .ready ∧ p.node = none ∧ p.listed = [1, 0] ∧
      s.log = [.stored 0 0, .queued 0, .stored 1 1, .queued 1] ++
        .emptied p.kind (some p.number) 1 [1] :: ([.stored 1 2] ++ .queued 1 ::
          [.released 0 1, .emptied .drain (some 0) 0 [0], .released 0 0]) :=
    ⟨_, _, _, rfl, rfl, rfl, rfl, rfl, rfl⟩
  have hreachable := Machine.Reachable.init.play hs
  obtain ⟨-, hemptied, -, hqueue⟩ :=
    (flush_list hreachable).2.2.2.1 p rest hstack hready hnode
  refine ⟨s, p, rest, hreachable, hstack, hlisted, hemptied.trans hlisted, ?_⟩
  exact hqueue 1 _ ⟨_, _, _, hlog⟩ (by simp)

/-- The loop is closed by Python code that the last pass of `runLoop` calls: what this code has
written before is no longer on the list when the pass is over. -/
theorem not_flush_list : ¬∀ s, machine.Reachable Any s → ∀ p rest, s.stack = .pass p :: rest →
    p.kind = .drain → p.stage = .ready → p.node = none →
    ∀ t later, Requeued s.log p.kind p.number t later → t ∈ s.queue := by
  intro h
  obtain ⟨s, p, rest, hs, hstack, hkind, hready, hnode, hqueue, hlog⟩ : ∃ s p rest,
      machine.play Any [.run, .store 0, .schedule 0, .stopped, .next, .store 0, .schedule 0,
        .empty .drain 0, .close, .returned, .next, .returned, .next, .returned, .returned]
      machine.init = some s ∧ s.stack = .pass p :: rest ∧ p.kind = .drain ∧ p.stage = .ready ∧
      p.node = none ∧ s.queue = [] ∧
      s.log = [.stored 0 0, .queued 0] ++ .emptied p.kind (some p.number) 0 [0] ::
        ([.stored 0 1] ++ .queued 0 :: [.emptied .drain none 0 [1], .emptied .drop (some 1) 0 [],
          .released 1 0, .released 0 0]) :=
    ⟨_, _, _, rfl, rfl, rfl, rfl, rfl, rfl, rfl⟩
  have hmem := h s (Machine.Reachable.init.play hs) p rest hstack hkind hready hnode 0 _
    ⟨_, _, _, hlog⟩
  rw [hqueue] at hmem
  cases hmem

end Runs

end Zuvloop.FlushList
