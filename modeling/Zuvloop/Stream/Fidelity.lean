import Mathlib.Algebra.Order.Group.Multiset
import Mathlib.Tactic.Abel
import Zuvloop.Stream.Verified

/-!
# The bytes of a transport

Every byte a transport accepts is handed to libuv once and in order, whichever of the three ways it
takes: in a batch, in a vector of its own, or in what the socket left of either. There is one
exception. When the socket takes a part of a vector that went straight to it and the rest cannot be
queued, the write raises and the transport stays open, torn; a batch in the same place closes the
transport by force.

Every view a write acquires is in one place at any time, and is released once.

## Main results

* `byte_fidelity`: what is handed over and what is pending make up what was accepted.
* `byte_fidelity_torn`: unless the transport is torn.
-/

namespace Zuvloop.Stream

open Reentrant

/-- The bytes handed to libuv are a prefix of those accepted, and until the transport closes the
batch holds the rest. -/
def Transport.Faithful (tr : Transport) : Prop :=
  tr.handedOver <+: tr.accepted ∧
    (tr.isClosing = false → tr.handedOver ++ tr.pendingBytes = tr.accepted)

/-! ## Views -/

/-- Every view acquired is released, held by a write in progress, in the batch, or in a request. -/
def Transport.ViewsOk (tr : Transport) : Prop :=
  Multiset.range tr.acquired = tr.released + tr.held + tr.pendingViews + tr.requestViews

namespace Transport.ViewsOk

variable {tr : Transport}

/-- Views that a write held have moved on. -/
theorem of_held {tr' : Transport} {views : Multiset ℕ} (h : tr.ViewsOk) (hle : views ≤ tr.held)
    (hacquired : tr'.acquired = tr.acquired) (hheld : tr'.held = tr.held - views)
    (hsum : tr'.released + tr'.pendingViews + tr'.requestViews =
      tr.released + tr.pendingViews + tr.requestViews + views) : tr'.ViewsOk := by
  have hback : tr'.held + views = tr.held := by rw [hheld, Multiset.sub_add_cancel hle]
  unfold ViewsOk at h ⊢
  calc
    Multiset.range tr'.acquired = tr.released + tr.held + tr.pendingViews + tr.requestViews := by
      rw [hacquired, h]
    _ = tr'.held + (tr.released + tr.pendingViews + tr.requestViews + views) := by
      rw [← hback]
      abel
    _ = tr'.released + tr'.held + tr'.pendingViews + tr'.requestViews := by
      rw [← hsum]
      abel

theorem act (h : tr.ViewsOk) (a : Act) (hok : a.Allowed tr) : (a.run tr).ViewsOk := by
  cases a with
  | acquireView =>
    change Multiset.range (tr.acquired + 1) =
      tr.released + (tr.acquired ::ₘ tr.held) + tr.pendingViews + tr.requestViews
    rw [Multiset.range_succ, h, ← Multiset.singleton_add, ← Multiset.singleton_add]
    abel
  | releaseViews views =>
    refine h.of_held hok rfl rfl ?_
    change tr.released + (views : Multiset ℕ) + tr.pendingViews + tr.requestViews = _
    abel
  | store b =>
    refine h.of_held hok.1 rfl rfl ?_
    have hviews : ((Act.store b).run tr).pendingViews = tr.pendingViews + {b.view} := by
      change (((tr.pending ++ [b]).map Buf.view : List ℕ) : Multiset ℕ) = _
      rw [List.map_append, ← Multiset.coe_add]
      rfl
    rw [hviews]
    change tr.released + (tr.pendingViews + {b.view}) + tr.requestViews = _
    abel
  | submit fresh bufs views queueSize =>
    refine h.of_held hok.1 rfl rfl ?_
    have hviews : ((Act.submit fresh bufs views queueSize).run tr).requestViews =
        tr.requestViews + views := by
      change (((tr.stream.requests ++ [(⟨total bufs, views⟩ : WriteReq)]).map
        WriteReq.views).flatten : Multiset ℕ) = _
      rw [List.map_append, List.flatten_append, ← Multiset.coe_add]
      simp [requestViews]
    rw [hviews]
    change tr.released + tr.pendingViews + (tr.requestViews + (views : Multiset ℕ)) = _
    abel
  | takePending =>
    change Multiset.range tr.acquired = tr.released + (tr.held + tr.pendingViews) + 0 +
      tr.requestViews
    rw [h]
    abel
  | discardPending =>
    change Multiset.range tr.acquired = tr.released + tr.pendingViews + tr.held + 0 +
      tr.requestViews
    rw [h]
    abel
  | completed ok r rest queueSize =>
    have hviews : tr.requestViews =
        (r.views : Multiset ℕ) + ((rest.map WriteReq.views).flatten : List ℕ) := by
      rw [requestViews, hok.1, List.map_cons, List.flatten_cons, Multiset.coe_add]
    change Multiset.range tr.acquired = tr.released + (r.views : Multiset ℕ) + tr.held +
      tr.pendingViews + ((rest.map WriteReq.views).flatten : List ℕ)
    rw [h, hviews]
    abel
  | setClosing =>
    unfold Act.run
    dsimp only
    split <;> exact h
  | pauseWriting | resumeWriting =>
    unfold Act.run
    dsimp only
    rw [Transport.recordCall_eq]
    exact h
  | _ => exact h

end Transport.ViewsOk

/-- The views are accounted for in every reachable state. -/
theorem Reachable.viewsOk {s : State} (h : Reachable s) (t : ℕ) : (s.tr t).ViewsOk :=
  h.transport (I := Transport.ViewsOk) rfl (fun _ _ _ => rfl) (fun _ _ h => h)
    (fun _ a _ hok h => h.act a hok) t

/-! ## Bytes -/

theorem Settled.faithful {tr : Transport} {starving : Prop} (h : Settled starving tr)
    (htorn : tr.torn = false) : tr.Faithful := by
  obtain ⟨hpre, heq⟩ := h.bytes htorn
  exact ⟨hpre, fun hc => heq (Bool.or_eq_false_iff.mp hc).1⟩

/-- Whenever Python code or libuv is in control, whatever they have done before, even with
allocations that failed: unless a vector that went straight to the socket was torn, the bytes
handed over followed by those pending are the bytes accepted, and after the transport began to close
the bytes handed over are a prefix of those accepted. Every view acquired is in one place, and
outside every native call it is in the batch, in a request, or released. -/
theorem byte_fidelity {s : State} {stack : List (Callback × (Result → P Unit))}
    (h : system.Reachable (env True) ⟨s, none, stack⟩) (t : ℕ) :
    ((s.tr t).torn = false → (s.tr t).Faithful) ∧ (s.tr t).ViewsOk ∧
      (stack = [] → (s.tr t).held = 0) := by
  have hinv : Inv True s := (verified True).in_foreign (not_quiet True) h
  refine ⟨(hinv.settled t).faithful, hinv.reach.viewsOk t, ?_⟩
  rintro rfl
  have hrely : Rely .init s := ((verified True).top_level h).2
  exact hrely.frame.held t

/-- Five buffers, of which the socket takes three. The rest is queued, which pauses the protocol; it
writes once more inside `pause_writing`, and once more afterwards. -/
theorem byte_fidelity_partial_vector :
    ∃ s, system.Reachable (env True) ⟨s, none, []⟩ ∧
      (s.tr 0).handedOver = [1, 2, 3, 4, 5, 6, 7] ∧ (s.tr 0).accepted = [1, 2, 3, 4, 5, 6, 7] ∧
      (s.tr 0).Faithful ∧ (s.tr 0).ViewsOk ∧ (s.tr 0).held = 0 := by
  have hplay : ∃ s, system.play (env True) 100
      (opening .plain ++
        [.start (.setWriteBufferLimits 0 true false), counted 0,
          .start (.writelines 0), counted 5, yes, exported [1], exported [2], exported [3],
          exported [4], exported [5], status 3, yes, .answer ⟨true, 0, 2⟩,
          .start (.write 0), exported [6], yes, .answer ⟨true, 0, 3⟩, returned,
          .start (.write 0), exported [7], yes, .answer ⟨true, 0, 4⟩])
      system.initial = some ⟨s, none, []⟩ ∧ (s.tr 0).handedOver = [1, 2, 3, 4, 5, 6, 7] ∧
      (s.tr 0).accepted = [1, 2, 3, 4, 5, 6, 7] ∧ (s.tr 0).torn = false :=
    ⟨_, rfl, rfl, rfl, rfl⟩
  obtain ⟨s, hrun, hhanded, haccepted, htorn⟩ := hplay
  have hreach : system.Reachable (env True) ⟨s, none, []⟩ := System.Reachable.initial.play hrun
  obtain ⟨hbytes, hviews, hheld⟩ := byte_fidelity hreach 0
  exact ⟨s, hreach, hhanded, haccepted, hbytes htorn, hviews, hheld rfl⟩

/-- Five buffers, of which the socket takes three, no memory to queue the rest, and then one more
write: the transport is open, and two bytes in the middle are missing from what was handed over. -/
theorem byte_fidelity_torn :
    ∃ s, system.Reachable (env True) ⟨s, none, []⟩ ∧ (s.tr 0).isClosing = false ∧
      (s.tr 0).accepted = [1, 2, 3, 4, 5, 6] ∧ (s.tr 0).handedOver = [1, 2, 3, 6] ∧
      ¬ (s.tr 0).Faithful := by
  have hplay : ∃ s, system.play (env True) 100
      (opening .plain ++
        [.start (.writelines 0), counted 5, yes, exported [1], exported [2], exported [3],
          exported [4], exported [5], status 3, .answer ⟨false, 0, 0⟩,
          .start (.write 0), exported [6], status 1])
      system.initial = some ⟨s, none, []⟩ ∧ (s.tr 0).isClosing = false ∧
      (s.tr 0).accepted = [1, 2, 3, 4, 5, 6] ∧ (s.tr 0).handedOver = [1, 2, 3, 6] :=
    ⟨_, rfl, rfl, rfl, rfl⟩
  obtain ⟨s, hrun, hopen, haccepted, hhanded⟩ := hplay
  refine ⟨s, System.Reachable.initial.play hrun, hopen, haccepted, hhanded, fun hf => ?_⟩
  have hpre := hf.1
  rw [hhanded, haccepted] at hpre
  exact absurd hpre (by decide)

end Zuvloop.Stream
