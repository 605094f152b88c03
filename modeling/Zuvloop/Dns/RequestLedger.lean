import Mathlib.Data.List.Range
import Zuvloop.Dns.RequestList

/-!
# What happens to resolver requests and their futures

Every request that is linked is freed once, and until then somebody has it: libuv, its completion
callback, or the submission that libuv has refused. Its future is settled at most once, by a
completion callback that found the loop open, and from the moment the reaper gets a request nobody
touches the future.

## Main definitions

* `State.linked`, `State.freed`, `State.settledRequests`, `State.settledFutures`: what the log says.
* `Ledger`: how it relates to who has which request.

## Main results

* `requests_owned`: the list, who frees a request, and what happens to its future.
-/

namespace Zuvloop.Dns.Requests

open Transition Linked

/-! ## The log -/

def Event.linkedRequest : Event → Option ℕ
  | .linked r => some r
  | _ => none

def Event.freedRequest : Event → Option ℕ
  | .freed r _ => some r
  | _ => none

def Event.settledRequest : Event → Option ℕ
  | .settled r _ _ => some r
  | _ => none

def Event.settledFuture : Event → Option ℕ
  | .settled _ f _ => some f
  | _ => none

/-- The requests that `allocRequest` has linked. -/
def State.linked (s : State) : List ℕ := s.log.filterMap Event.linkedRequest

/-- The requests that `freeRequest` was called for. -/
def State.freed (s : State) : List ℕ := s.log.filterMap Event.freedRequest

/-- The requests whose futures were settled. -/
def State.settledRequests (s : State) : List ℕ := s.log.filterMap Event.settledRequest

/-- The futures that were settled. -/
def State.settledFutures (s : State) : List ℕ := s.log.filterMap Event.settledFuture

/-- The request of a completion callback that has not come to settle its future. -/
def Frame.waits : Frame → Option ℕ
  | .complete r .building | .complete r (.asking _) => some r
  | _ => none

/-- The requests of completion callbacks that have not come to settle their futures. -/
def State.waiting (s : State) : List ℕ := s.stack.filterMap Frame.waits

/-! ## The ledger -/

/-- What the log says, when `held` are the requests that somebody has, and `waiting` those whose
completion callbacks have not come to settle the future. -/
structure Ledger (log : List Event) (next : ℕ) (held waiting : List ℕ) (submitted : ℕ → Bool)
    (outcome : ℕ → Outcome) : Prop where
  linked : log.filterMap Event.linkedRequest = List.range next
  freed : (log.filterMap Event.freedRequest).Nodup
  mem_freed : ∀ r, r ∈ log.filterMap Event.freedRequest ↔ r < next ∧ r ∉ held
  caller : ∀ r by', Event.freed r by' ∈ log → (by' = .completion ↔ submitted r = true)
  once : (log.filterMap Event.settledRequest).Nodup
  past : ∀ r ∈ log.filterMap Event.settledRequest, r < next ∧ r ∉ waiting
  futures : (log.filterMap Event.settledFuture).Nodup
  settled : ∀ f ∈ log.filterMap Event.settledFuture, outcome f ≠ .pending
  whileOpen : ∀ r f closed, Event.settled r f closed ∈ log → closed = false
  untouched : ∀ r f reaped, Event.touched r f reaped ∈ log → reaped = false

namespace Ledger

variable {log : List Event} {next r f : ℕ} {held held' waiting waiting' : List ℕ}
  {submitted submitted' : ℕ → Bool} {outcome outcome' : ℕ → Outcome} {b : Caller}

/-- Nothing is recorded. -/
theorem weaken (h : Ledger log next held waiting submitted outcome)
    (hheld : ∀ r, r ∈ held' ↔ r ∈ held) (hwaiting : ∀ r ∈ waiting', r ∈ waiting)
    (houtcome : ∀ f, outcome' f = .pending → outcome f = .pending) :
    Ledger log next held' waiting' submitted outcome' where
  linked := h.linked
  freed := h.freed
  mem_freed := fun r => by rw [h.mem_freed r, hheld r]
  caller := h.caller
  once := h.once
  past := fun r hr => ⟨(h.past r hr).1, fun hw => (h.past r hr).2 (hwaiting r hw)⟩
  futures := h.futures
  settled := fun f hf hp => h.settled f hf (houtcome f hp)
  whileOpen := h.whileOpen
  untouched := h.untouched

/-- An event that is not looked for. -/
theorem filterMap_concat_none {g : Event → Option ℕ} {e : Event} (hg : g e = none) :
    (log ++ [e]).filterMap g = log.filterMap g := by
  rw [List.filterMap_append, List.filterMap_cons, hg, List.filterMap_nil, List.append_nil]

/-- An event that is looked for. -/
theorem filterMap_concat_some {g : Event → Option ℕ} {e : Event} (hg : g e = some r) :
    (log ++ [e]).filterMap g = log.filterMap g ++ [r] := by
  rw [List.filterMap_append, List.filterMap_cons, hg, List.filterMap_nil]

theorem nodup_concat {l : List ℕ} (h : l.Nodup) (hr : r ∉ l) : (l ++ [r]).Nodup := by
  rw [← List.concat_eq_append]
  exact h.concat hr

theorem mem_concat_of_ne {e e' : Event} (h : e ∈ log ++ [e']) (hne : e ≠ e') : e ∈ log :=
  (List.mem_append.mp h).resolve_right fun hmem => hne (List.mem_singleton.mp hmem)

/-- A future is called or released whose request is not the reaper's. -/
theorem touch (h : Ledger log next held waiting submitted outcome) :
    Ledger (log ++ [.touched r f false]) next held waiting submitted outcome where
  linked := (filterMap_concat_none rfl).trans h.linked
  freed := by
    rw [filterMap_concat_none rfl]
    exact h.freed
  mem_freed := by
    rw [filterMap_concat_none rfl]
    exact h.mem_freed
  caller := fun x by' hx => h.caller x by' (mem_concat_of_ne hx (by simp))
  once := by
    rw [filterMap_concat_none rfl]
    exact h.once
  past := by
    rw [filterMap_concat_none rfl]
    exact h.past
  futures := by
    rw [filterMap_concat_none rfl]
    exact h.futures
  settled := by
    rw [filterMap_concat_none rfl]
    exact h.settled
  whileOpen := fun x g closed hx => h.whileOpen x g closed (mem_concat_of_ne hx (by simp))
  untouched := by
    intro x g reaped hx
    rcases List.mem_append.mp hx with hx | hx
    · exact h.untouched x g reaped hx
    · exact (Event.touched.inj (List.mem_singleton.mp hx)).2.2

/-- A request is linked. -/
theorem link (h : Ledger log next held waiting submitted outcome)
    (hheld : ∀ r, r ∈ held' ↔ r = next ∨ r ∈ held)
    (hwaiting : ∀ r ∈ waiting', r = next ∨ r ∈ waiting)
    (hsubmitted : ∀ r, r ≠ next → submitted' r = submitted r) :
    Ledger (log ++ [.linked next]) (next + 1) held' waiting' submitted' outcome where
  linked := by
    rw [filterMap_concat_some rfl, h.linked, List.range_succ]
  freed := by
    rw [filterMap_concat_none rfl]
    exact h.freed
  mem_freed := by
    intro r
    rw [filterMap_concat_none rfl, h.mem_freed r, hheld r]
    constructor
    · rintro ⟨hlt, hnot⟩
      exact ⟨Nat.lt_succ_of_lt hlt, not_or.mpr ⟨Nat.ne_of_lt hlt, hnot⟩⟩
    · rintro ⟨hlt, hnot⟩
      rw [not_or] at hnot
      exact ⟨Nat.lt_of_le_of_ne (Nat.le_of_lt_succ hlt) hnot.1, hnot.2⟩
  caller := by
    intro r by' hr
    have hr := mem_concat_of_ne hr (by simp)
    have hlt := ((h.mem_freed r).mp (List.mem_filterMap.mpr ⟨_, hr, rfl⟩)).1
    rw [hsubmitted r (Nat.ne_of_lt hlt)]
    exact h.caller r by' hr
  once := by
    rw [filterMap_concat_none rfl]
    exact h.once
  past := by
    intro r hr
    rw [filterMap_concat_none rfl] at hr
    obtain ⟨hlt, hnot⟩ := h.past r hr
    refine ⟨Nat.lt_succ_of_lt hlt, fun hw => ?_⟩
    exact (hwaiting r hw).elim (Nat.ne_of_lt hlt) hnot
  futures := by
    rw [filterMap_concat_none rfl]
    exact h.futures
  settled := by
    rw [filterMap_concat_none rfl]
    exact h.settled
  whileOpen := fun x g closed hx => h.whileOpen x g closed (mem_concat_of_ne hx (by simp))
  untouched := fun x g reaped hx => h.untouched x g reaped (mem_concat_of_ne hx (by simp))

/-- A request that somebody has is freed. -/
theorem free (h : Ledger log next held waiting submitted outcome) (hlt : r < next)
    (hmem : r ∈ held) (hheld : ∀ x, x ∈ held' ↔ x ∈ held ∧ x ≠ r)
    (hwaiting : ∀ x ∈ waiting', x ∈ waiting) (hcaller : b = .completion ↔ submitted r = true) :
    Ledger (log ++ [.freed r b]) next held' waiting' submitted outcome where
  linked := (filterMap_concat_none rfl).trans h.linked
  freed := by
    rw [filterMap_concat_some rfl]
    exact nodup_concat h.freed fun hr => ((h.mem_freed r).mp hr).2 hmem
  mem_freed := by
    intro x
    rw [filterMap_concat_some rfl, List.mem_append, List.mem_singleton, h.mem_freed x, hheld x]
    by_cases hxr : x = r
    · simp [hxr, hlt]
    · simp [hxr]
  caller := by
    intro x by' hx
    rcases List.mem_append.mp hx with hx | hx
    · exact h.caller x by' hx
    · obtain ⟨rfl, rfl⟩ := Event.freed.inj (List.mem_singleton.mp hx)
      exact hcaller
  once := by
    rw [filterMap_concat_none rfl]
    exact h.once
  past := by
    intro x hx
    rw [filterMap_concat_none rfl] at hx
    exact ⟨(h.past x hx).1, fun hw => (h.past x hx).2 (hwaiting x hw)⟩
  futures := by
    rw [filterMap_concat_none rfl]
    exact h.futures
  settled := by
    rw [filterMap_concat_none rfl]
    exact h.settled
  whileOpen := fun x g closed hx => h.whileOpen x g closed (mem_concat_of_ne hx (by simp))
  untouched := fun x g reaped hx => h.untouched x g reaped (mem_concat_of_ne hx (by simp))

/-- A completion callback settles a pending future. -/
theorem settle (h : Ledger log next held waiting submitted outcome) (hlt : r < next)
    (hmem : r ∈ waiting) (hwaiting : ∀ x ∈ waiting', x ∈ waiting ∧ x ≠ r)
    (hf : outcome f = .pending) :
    Ledger (log ++ [.settled r f false]) next held waiting' submitted
      (Function.update outcome f .finished) where
  linked := (filterMap_concat_none rfl).trans h.linked
  freed := by
    rw [filterMap_concat_none rfl]
    exact h.freed
  mem_freed := by
    rw [filterMap_concat_none rfl]
    exact h.mem_freed
  caller := fun x by' hx => h.caller x by' (mem_concat_of_ne hx (by simp))
  once := by
    rw [filterMap_concat_some rfl]
    exact nodup_concat h.once fun hr => (h.past r hr).2 hmem
  past := by
    intro x hx
    rw [filterMap_concat_some rfl, List.mem_append, List.mem_singleton] at hx
    rcases hx with hx | rfl
    · exact ⟨(h.past x hx).1, fun hw => (h.past x hx).2 (hwaiting x hw).1⟩
    · exact ⟨hlt, fun hw => (hwaiting x hw).2 rfl⟩
  futures := by
    rw [filterMap_concat_some rfl]
    exact nodup_concat h.futures fun hmem => h.settled f hmem hf
  settled := by
    intro x hx
    rw [filterMap_concat_some rfl, List.mem_append, List.mem_singleton] at hx
    by_cases hxf : x = f
    · simp [hxf]
    · rw [Function.update_of_ne hxf]
      exact h.settled x (hx.resolve_right hxf)
  whileOpen := by
    intro x g closed hx
    rcases List.mem_append.mp hx with hx | hx
    · exact h.whileOpen x g closed hx
    · exact (Event.settled.inj (List.mem_singleton.mp hx)).2.2
  untouched := fun x g reaped hx => h.untouched x g reaped (mem_concat_of_ne hx (by simp))

/-- A future is called or released, if there is one. -/
theorem touches (h : Ledger log next held waiting submitted outcome) {future : Option ℕ}
    {reaped : Bool} (hreaped : future = none ∨ reaped = false) :
    Ledger (log ++ future.toList.map fun f => Event.touched r f reaped) next held waiting submitted
      outcome := by
  cases future with
  | none => simpa using h
  | some f =>
    obtain rfl := hreaped.resolve_left (by simp)
    exact h.touch

end Ledger

/-- What the log says. -/
def State.Ledger (s : State) : Prop :=
  Requests.Ledger s.log s.next (s.flight ++ s.holding) (s.flight ++ s.waiting) s.submitted s.outcome

section Ledger

variable {s s' : State} {l : List ℕ} {r : ℕ} {rest : List Frame} {fr : Frame}

theorem Frame.holds_of_waits (h : fr.waits = some r) : fr.caller = some (r, .completion) := by
  cases fr with
  | complete r' stage =>
    cases stage with
    | building =>
      obtain rfl := Option.some.inj h
      rfl
    | asking f =>
      obtain rfl := Option.some.inj h
      rfl
    | setting => cases h
  | run => cases h
  | close c => cases h
  | alloc k => cases h
  | fail r' => cases h
  | free r' => cases h

theorem waiting_eq (hstack : s.stack = fr :: rest) :
    s.waiting = fr.waits.toList ++ rest.filterMap Frame.waits := by
  rw [State.waiting, hstack, List.filterMap_cons]
  cases fr.waits <;> rfl

/-- A function on top of the stack goes on, or is over, and keeps the request it holds. -/
theorem Owned.held_same (fs : List Frame) (hstack : s.stack = fr :: rest)
    (hfs : fs.filterMap Frame.holds = fr.holds.toList ++ rest.filterMap Frame.holds) :
    ∀ x, x ∈ s.flight ++ fs.filterMap Frame.holds ↔ x ∈ s.flight ++ s.holding := by
  intro x
  rw [(Owned.holding_eq hstack).1, hfs]

theorem waiting_sub (fs : List Frame) (hstack : s.stack = fr :: rest)
    (hfs : ∀ x ∈ fs.filterMap Frame.waits, x ∈ fr.waits.toList ++ rest.filterMap Frame.waits) :
    ∀ x ∈ s.flight ++ fs.filterMap Frame.waits, x ∈ s.flight ++ s.waiting := by
  intro x hx
  rw [waiting_eq hstack]
  exact (List.mem_append.mp hx).elim (fun h => List.mem_append_left _ h)
    fun h => List.mem_append_right _ (hfs x h)

/-- The stack changes, and nobody gets or loses a request. -/
theorem State.Ledger.stack (h : s.Ledger) (fs : List Frame) (hstack : s.stack = fr :: rest)
    (hholds : fs.filterMap Frame.holds = fr.holds.toList ++ rest.filterMap Frame.holds)
    (hwaits : ∀ x ∈ fs.filterMap Frame.waits, x ∈ fr.waits.toList ++ rest.filterMap Frame.waits) :
    Requests.Ledger s.log s.next (s.flight ++ fs.filterMap Frame.holds)
      (s.flight ++ fs.filterMap Frame.waits) s.submitted s.outcome :=
  h.weaken (Owned.held_same fs hstack hholds) (waiting_sub fs hstack hwaits) fun _ => id

/-- Nobody has a request twice. -/
theorem Owned.nodup (h : Owned s l) : (s.flight ++ s.holding).Nodup :=
  h.held.nodup_iff.mp h.heap.isList.nodup

theorem Owned.lt_next (h : Owned s l) (hr : r ∈ s.flight ++ s.holding) : r < s.next :=
  h.heap.lt_next (h.held.mem_iff.mpr hr)

theorem mem_holds_of_waits {fs : List Frame} :
    r ∈ fs.filterMap Frame.waits → r ∈ fs.filterMap Frame.holds := by
  rw [List.mem_filterMap, List.mem_filterMap]
  rintro ⟨fr, hfr, hr⟩
  exact ⟨fr, hfr, (Frame.holds_of_caller (Frame.holds_of_waits hr)).1⟩

theorem waiting_erase (r : ℕ) : ∀ x ∈ s.flight.erase r ++ s.waiting, x ∈ s.flight ++ s.waiting :=
  fun _ hx => (List.mem_append.mp hx).elim
    (fun hx => List.mem_append_left _ (List.mem_of_mem_erase hx)) (List.mem_append_right _)

/-- Who has a request once libuv has completed one. -/
theorem Owned.mem_erase_flight (h : Owned s l) (hr : r ∈ s.flight) (x : ℕ) :
    x ∈ s.flight.erase r ++ s.holding ↔ x ∈ s.flight ++ s.holding ∧ x ≠ r := by
  rw [← List.erase_append_left _ hr, h.nodup.mem_erase_iff, and_comm]

/-- Who has a request once a function on top of the stack has freed one. -/
theorem Owned.mem_rest {b : Caller} (h : Owned s l) (hstack : s.stack = fr :: rest)
    (hcaller : fr.caller = some (r, b)) (x : ℕ) :
    x ∈ s.flight ++ rest.filterMap Frame.holds ↔ x ∈ s.flight ++ s.holding ∧ x ≠ r := by
  have hnodup := h.nodup
  rw [(holding_eq hstack).1, (Frame.holds_of_caller hcaller).1] at hnodup ⊢
  have hperm : (s.flight ++ ((some r).toList ++ rest.filterMap Frame.holds)).Perm
      (r :: (s.flight ++ rest.filterMap Frame.holds)) := List.perm_middle
  have hnot := (List.nodup_cons.mp (hperm.nodup_iff.mp hnodup)).1
  rw [hperm.mem_iff, List.mem_cons]
  constructor
  · intro hx
    exact ⟨.inr hx, fun hxr => hnot (hxr ▸ hx)⟩
  · rintro ⟨hx, hne⟩
    exact hx.resolve_left hne

/-- The reaper gets no request of a function on the stack. -/
theorem Owned.not_reaped {b : Caller} (h : Owned s l) (hc : s.Control)
    (hstack : s.stack = fr :: rest) (hcaller : fr.caller = some (r, b)) :
    (s.isReaping && s.submitted r) = false := by
  cases b with
  | completion =>
    have hn := hc.nested
    rw [hstack] at hn
    rw [hc.not_reaping (.inr (.inl ((hn.of_caller hcaller).2 rfl)))]
    rfl
  | submission =>
    -- libuv has refused it
    have hiff := h.caller fr (hstack ▸ List.mem_cons_self) r .submission hcaller
    have hsubmitted : s.submitted r = false := by simpa using hiff
    rw [hsubmitted, Bool.and_false]

theorem ledger_of_next (hnext : Next s s') (hc : s.Control) (h : Owned s l) (hl : s.Ledger) :
    s'.Ledger := by
  cases hnext with
  | request k _ _ => exact hl
  | unmade k rest hstack => exact hl.stack rest hstack rfl fun _ => id
  | closedMeanwhile k rest f hstack hclosed =>
    have hrest := hl.stack rest hstack rfl fun _ => id
    have hlink : Requests.Ledger (s.log ++ [.linked s.next]) (s.next + 1)
        (s.next :: (s.flight ++ rest.filterMap Frame.holds))
        (s.flight ++ rest.filterMap Frame.waits) (Function.update s.submitted s.next false)
        s.outcome :=
      hrest.link (fun r => List.mem_cons) (fun r hr => .inr hr)
        fun r hr => Function.update_of_ne hr _ _
    have hnot : s.next ∉ s.flight ++ rest.filterMap Frame.holds := fun hmem =>
      Nat.lt_irrefl _ (h.lt_next ((Owned.held_same rest hstack rfl _).mp hmem))
    have hfree : Requests.Ledger (s.log ++ [.linked s.next] ++ [.freed s.next .submission])
        (s.next + 1) (s.flight ++ rest.filterMap Frame.holds)
        (s.flight ++ rest.filterMap Frame.waits) (Function.update s.submitted s.next false)
        s.outcome := by
      refine hlink.free (Nat.lt_succ_self _) List.mem_cons_self (fun x => ?_) (fun _ => id)
        (by simp)
      rw [List.mem_cons]
      constructor
      · intro hx
        exact ⟨.inr hx, fun hxn => hnot (hxn ▸ hx)⟩
      · rintro ⟨hx, hne⟩
        exact hx.resolve_left hne
    refine hfree.touches (.inr ?_)
    change (s.isReaping && Function.update s.submitted s.next false s.next) = false
    rw [Function.update_self, Bool.and_false]
  | accepted k rest f hstack _ =>
    refine (hl.stack rest hstack rfl fun _ => id).link (fun r => ?_) (fun r hr => ?_)
      fun r hr => ?_
    · change r ∈ (s.flight ++ [s.next]) ++ rest.filterMap Frame.holds ↔ _
      simp only [List.mem_append, List.mem_singleton]
      tauto
    · have hr : r ∈ (s.flight ++ [s.next]) ++ rest.filterMap Frame.waits := hr
      simp only [List.mem_append, List.mem_singleton] at hr ⊢
      tauto
    · change Function.update (Function.update s.submitted s.next false) s.next true r = _
      rw [Function.update_of_ne hr, Function.update_of_ne hr]
  | refused k rest f hstack _ =>
    refine (hl.stack rest hstack rfl fun _ => id).link (fun r => ?_) (fun r hr => .inr hr)
      fun r hr => Function.update_of_ne hr _ _
    change r ∈ s.flight ++ s.next :: rest.filterMap Frame.holds ↔ _
    simp only [List.mem_append, List.mem_cons]
    tauto
  | python f o _ ho =>
    refine hl.weaken (fun _ => Iff.rfl) (fun _ => id) fun g hg => ?_
    have hg : Function.update s.outcome f o g = .pending := hg
    by_cases hgf : g = f
    · rw [hgf, Function.update_self] at hg
      exact absurd hg ho
    · rwa [Function.update_of_ne hgf] at hg
  | run _ _ _ => exact hl
  | stopped rest hstack => exact hl.stack rest hstack rfl fun _ => id
  | reaped r hr hreap =>
    have hfree := hl.free (h.lt_next (List.mem_append_left _ hr)) (List.mem_append_left _ hr)
      (h.mem_erase_flight hr) (waiting_erase r) (iff_of_true rfl (h.submitted r hr))
    exact hfree.touches (.inl (h.reaped hreap r hr))
  | completedLate r fr rest hr hstack _ hreap _ =>
    have hfree := hl.free (h.lt_next (List.mem_append_left _ hr)) (List.mem_append_left _ hr)
      (h.mem_erase_flight hr) (waiting_erase r) (iff_of_true rfl (h.submitted r hr))
    refine hfree.touches (.inr ?_)
    change (s.isReaping && s.submitted r) = false
    rw [hreap, Bool.false_and]
  | completed r fr rest hr hstack _ _ _ =>
    refine hl.weaken (fun x => ?_) (fun x hx => ?_) fun _ => id
    · change x ∈ s.flight.erase r ++ r :: s.holding ↔ _
      have hperm := ((List.perm_cons_erase hr).append_right s.holding).trans
        List.perm_middle.symm
      exact hperm.symm.mem_iff
    · have hx : x ∈ s.flight.erase r ++ r :: s.waiting := hx
      have hperm := ((List.perm_cons_erase hr).append_right s.waiting).trans
        List.perm_middle.symm
      exact hperm.symm.mem_iff.mp hx
  | built r f rest hstack _ =>
    refine (hl.stack (.complete r (.asking f) :: rest) hstack rfl fun _ => id).touches (.inr ?_)
    exact h.not_reaped hc hstack rfl
  | missing r rest hstack _ =>
    exact hl.stack (.complete r .building :: rest) hstack rfl fun _ => id
  | settled r f rest hstack hf =>
    have hopen := (hc.of_complete hstack).1
    have hheld : r ∈ s.flight ++ s.holding := by
      rw [(Owned.holding_eq hstack).1]
      exact List.mem_append_right _ List.mem_cons_self
    have hwaiting : r ∈ s.flight ++ s.waiting := by
      rw [waiting_eq hstack]
      exact List.mem_append_right _ List.mem_cons_self
    have htouch : Requests.Ledger
        (s.log ++ (s.future r).toList.map fun f =>
          Event.touched r f (s.isReaping && s.submitted r)) s.next
        (s.flight ++ s.holding) (s.flight ++ s.waiting) s.submitted s.outcome :=
      hl.touches (.inr (h.not_reaped hc hstack rfl))
    have hsettle : Requests.Ledger
        (s.log ++ ((s.future r).toList.map fun f =>
          Event.touched r f (s.isReaping && s.submitted r)) ++ [.settled r f false]) s.next
        (s.flight ++ s.holding) (s.flight ++ rest.filterMap Frame.waits) s.submitted
        (Function.update s.outcome f .finished) := by
      refine htouch.settle (h.lt_next hheld) hwaiting (fun x hx => ?_) hf
      refine ⟨waiting_sub rest hstack (fun x hx => List.mem_cons_of_mem r hx) x hx, ?_⟩
      -- a callback comes to settle its future once
      have hrest : x ∈ s.flight ++ rest.filterMap Frame.holds :=
        (List.mem_append.mp hx).elim (List.mem_append_left _)
          fun hx => List.mem_append_right _ (mem_holds_of_waits hx)
      exact ((h.mem_rest hstack rfl x).mp hrest).2
    have hlast := hsettle.weaken (Owned.held_same (.complete r .setting :: rest) hstack rfl)
      (fun _ => id) fun _ => id
    rw [← hopen] at hlast
    exact hlast
  | freed r b fr rest hstack hcaller =>
    have hheld : r ∈ s.flight ++ s.holding := by
      rw [(Owned.holding_eq hstack).1, (Frame.holds_of_caller hcaller).1]
      exact List.mem_append_right _ List.mem_cons_self
    have hfree := hl.free (h.lt_next hheld) hheld (h.mem_rest hstack hcaller)
      (waiting_sub rest hstack fun x hx => List.mem_append_right _ hx)
      (h.caller fr (hstack ▸ List.mem_cons_self) r b hcaller)
    exact hfree.touches (.inr (h.not_reaped hc hstack hcaller))
  | released r rest hstack => exact hl.stack rest hstack rfl fun _ => id
  | close _ _ _ => exact hl
  | cancelAll rest hstack =>
    exact hl.stack (.close (.cancelling s.links.head) :: rest) hstack rfl fun _ => id
  | cancel r rest hstack =>
    exact hl.stack (.close (.cancelling (s.links.next r)) :: rest) hstack rfl fun _ => id
  | drain rest hstack => exact hl.stack (.close .draining :: rest) hstack rfl fun _ => id
  | closedAll c rest hstack _ => exact hl.stack rest hstack rfl fun _ => id
  | releaseFutures rest hstack =>
    exact hl.stack (.close (.releasing s.links.head) :: rest) hstack rfl fun _ => id
  | clear r rest hstack =>
    have hreap := hc.not_reaping (.inr (.inr ⟨_, hstack ▸ List.mem_cons_self⟩))
    refine (hl.stack (.close (.clearing r) :: rest) hstack rfl fun _ => id).touches (.inr ?_)
    change (s.isReaping && s.submitted r) = false
    rw [hreap, Bool.false_and]
  | cleared r rest hstack =>
    exact hl.stack (.close (.releasing (s.links.next r)) :: rest) hstack rfl fun _ => id
  | drainAll c rest hstack => exact hl.stack (.close .drainingAll :: rest) hstack rfl fun _ => id
  | spawn rest hstack => exact hl.stack rest hstack rfl fun _ => id
  | reaper reap _ _ => exact hl

end Ledger

/-! ## Runs -/

section Runs

variable {s : State}

/-- What every reachable state satisfies. -/
theorem invariant_of_reachable (hs : machine.Reachable Open s) :
    s.Control ∧ (∃ l, Owned s l) ∧ s.Ledger := by
  refine hs.invariant (I := fun s => s.Control ∧ (∃ l, Owned s l) ∧ s.Ledger) ?_ ?_
  · refine ⟨⟨rfl, by simp [machine], by simp [machine]⟩, ⟨[], ?_⟩, ?_⟩
    · refine ⟨⟨Links.IsList.nil rfl, List.nodup_nil, ?_, ?_, ?_, rfl⟩, .nil, ?_, ?_, ?_, ?_, ?_⟩ <;>
        simp [machine, State.freeing]
    · refine ⟨rfl, ?_, ?_, ?_, ?_, ?_, ?_, ?_, ?_, ?_⟩ <;> simp [machine]
  · rintro s s' lab - ⟨hc, ⟨l, howned⟩, hledger⟩ hopen hstep
    have hnext := next_of_step hopen hstep
    exact ⟨control_of_next hnext hc, owned_of_next hnext hc howned,
      ledger_of_next hnext hc howned hledger⟩

/-- The list holds what was linked and not freed. A request is freed once, by its completion
callback or by the submission that libuv has refused, and no later than when nobody has it any more.
Its future is settled at most once, by an open loop, and is not touched once the reaper has got the
request. -/
theorem requests_owned (hs : machine.Reachable Open s) :
    (∃ l, s.links.IsList l ∧ ∀ r, r ∈ l ↔ r ∈ s.linked ∧ r ∉ s.freed) ∧
    s.fault = false ∧
    (s.linked.Nodup ∧ s.freed.Nodup ∧
      (∀ r ∈ s.linked, r ∈ s.freed ↔ r ∉ s.flight ∧ r ∉ s.holding) ∧
      ∀ r b, Event.freed r b ∈ s.log → (b = .completion ↔ s.submitted r = true)) ∧
    (s.settledRequests.Nodup ∧ s.settledFutures.Nodup ∧
      (∀ r f closed, Event.settled r f closed ∈ s.log → closed = false) ∧
      ∀ r f reaped, Event.touched r f reaped ∈ s.log → reaped = false) := by
  obtain ⟨-, ⟨l, howned⟩, hledger⟩ := invariant_of_reachable hs
  have hlinked : ∀ r, r ∈ s.linked ↔ r < s.next := fun r => by
    rw [State.linked, hledger.linked, List.mem_range]
  have hfreed : ∀ r, r ∈ s.freed ↔ r < s.next ∧ r ∉ s.flight ++ s.holding := hledger.mem_freed
  have hheld : ∀ r, r ∈ l ↔ r ∈ s.flight ++ s.holding := fun r => howned.held.mem_iff
  refine ⟨⟨l, howned.heap.isList, fun r => ?_⟩, howned.heap.sound,
    ⟨?_, hledger.freed, fun r hr => ?_, hledger.caller⟩,
    hledger.once, hledger.futures, hledger.whileOpen, hledger.untouched⟩
  · rw [hlinked r, hfreed r, ← hheld r]
    constructor
    · intro hr
      exact ⟨howned.heap.lt_next hr, fun hno => hno.2 hr⟩
    · rintro ⟨hlt, hno⟩
      by_contra hr
      exact hno ⟨hlt, hr⟩
  · rw [State.linked, hledger.linked]
    exact List.nodup_range
  · rw [hfreed r, List.mem_append, not_or]
    exact and_iff_right ((hlinked r).mp hr)

/-- Three requests: one is completed by the open loop, one by the reaper, and one libuv refuses. -/
theorem requests_owned_reaped : ∃ s, machine.Reachable Open s ∧ s.reap = .finished ∧
    s.freed = [2, 0, 1] ∧ s.settledRequests = [0] ∧
    (∀ r ∈ s.linked, r ∈ s.freed ↔ r ∉ s.flight ∧ r ∉ s.holding) ∧ s.fault = false := by
  obtain ⟨s, hs, hreap, hfreed, hsettled⟩ : ∃ s, machine.play Open
      [.request .getaddrinfo, .created (some 0) true, .request .getaddrinfo, .created (some 1) true,
        .request .getnameinfo, .created (some 2) false, .returned, .returned, .run, .complete 0,
        .built true, .answered false, .returned, .returned, .stopped, .close, .returned, .walk,
        .walk, .drained true, .walk, .returned, .spawn true, .reaped 1, .reaperDone]
      machine.init = some s ∧ s.reap = .finished ∧ s.freed = [2, 0, 1] ∧
      s.settledRequests = [0] := ⟨_, rfl, rfl, rfl, rfl⟩
  have hreachable := Machine.Reachable.init.play hs
  exact ⟨s, hreachable, hreap, hfreed, hsettled, (requests_owned hreachable).2.2.1.2.2.1,
    (requests_owned hreachable).2.1⟩

end Runs

end Zuvloop.Dns.Requests
