import Mathlib.Algebra.BigOperators.Group.Finset.Basic
import Mathlib.Algebra.Order.BigOperators.Group.Finset
import Zuvloop.Stream.Steps

/-!
# How often the protocol can still be paused and resumed

While libuv completes no request, a transport can pause its protocol and resume it only a few times.
A protocol that is not paused can be paused once: it is paused because libuv holds more than the
high-water mark, and libuv's queue does not shrink while only writes are made. A protocol that was
paused before can be resumed and paused again. `Transport.remaining` counts the calls that are left;
`Onward` relates a transport to what it may become, along which the count never grows.

## Main definitions

* `Transport.remaining`, `State.remaining`: the calls of `pause_writing` and `resume_writing` left.
* `Transport.Onward`, `State.Onward`: what changes while only writes and closes are made.

## Main results

* `Act.onward`: most acts go onward.
* `Transport.remaining_pauseWriting`, `Transport.remaining_resumeWriting`: a call of the protocol
  uses up one of those that are left.
* `State.Onward.sum_lt`: so does the loop as a whole.
-/

namespace Zuvloop.Stream

/-! ## Transports -/

namespace Transport

/-- The batch fits, and the water marks are in order. -/
structure Tidy (tr : Transport) : Prop where
  /-- The batch fits. -/
  room : tr.pending.length ≤ pendingMax
  /-- An empty batch holds no bytes. -/
  empty : tr.pending = [] → tr.pendingSize = 0
  /-- The water marks are in order. -/
  marks : tr.lowWater ≤ tr.highWater

/-- How often `pause_writing` and `resume_writing` can still be called while libuv completes no
request: not at all on a transport that closes, or with more in libuv's queue than the low-water
mark under a pause; once without a pause, and twice from a pause that may be lifted. -/
def remaining (tr : Transport) : ℕ :=
  if tr.isClosing = true then 0
  else if tr.protocolPaused = true then
    if tr.writeBufferSize ≠ 0 ∧ tr.lowWater < tr.stream.queueSize then 0 else 2
  else 1

theorem remaining_le_two (tr : Transport) : tr.remaining ≤ 2 := by
  unfold remaining
  split_ifs <;> omega

theorem remaining_of_isClosing {tr : Transport} (h : tr.isClosing = true) : tr.remaining = 0 :=
  if_pos h

/-- What a transport may become while only writes and closes are made. -/
structure Onward (tr tr' : Transport) : Prop where
  /-- It stays tidy. -/
  tidy : tr.Tidy → tr'.Tidy
  /-- It is there if it was. -/
  made : tr'.made = tr.made
  /-- What was given up stays so. -/
  givesUp : tr.givesUp = true → tr'.givesUp = true
  /-- No call of the protocol is won back. -/
  remaining : tr'.remaining ≤ tr.remaining

variable {tr tr' tr'' : Transport}

theorem Onward.refl (tr : Transport) : tr.Onward tr := ⟨id, rfl, id, Nat.le_refl _⟩

theorem Onward.trans (h : tr.Onward tr') (h' : tr'.Onward tr'') : tr.Onward tr'' :=
  ⟨fun ht => h'.tidy (h.tidy ht), h'.made.trans h.made, fun hg => h'.givesUp (h.givesUp hg),
    h'.remaining.trans h.remaining⟩

/-- What flow control does not look at does not matter. -/
theorem Onward.of_recordCall {m : Method} (h : tr.Onward tr') : tr.Onward (tr'.recordCall m) := by
  rw [recordCall]
  split
  · exact ⟨fun ht => ⟨(h.tidy ht).room, (h.tidy ht).empty, (h.tidy ht).marks⟩, h.made, h.givesUp,
      h.remaining⟩
  · exact h

theorem remaining_recordCall (tr : Transport) (m : Method) :
    (tr.recordCall m).remaining = tr.remaining := by
  rw [recordCall]
  split <;> rfl

end Transport

/-! ## Acts -/

/-- The acts that flow control does not look at, that empty the batch, or that begin to close. -/
def Act.steady : Act → Bool
  | .store _ | .submit _ _ _ _ | .pauseWriting | .resumeWriting | .setLimits _ _
  | .clearWriteBufferSize | .completed _ _ _ _ | .drained _ | .lost => false
  | _ => true

section Acts

variable {tr : Transport}

/-- These acts go onward. -/
theorem Act.onward {a : Act} (ha : a.steady = true) : tr.Onward (a.run tr) := by
  cases a with
  | store | submit | pauseWriting | resumeWriting | setLimits | clearWriteBufferSize | completed
  | drained | lost => cases ha
  | takePending | discardPending =>
    exact ⟨fun h => ⟨Nat.zero_le _, fun _ => rfl, h.marks⟩, rfl, id, Nat.le_refl _⟩
  | setClosing =>
    rw [Act.run]
    split
    · exact .refl tr
    · -- a transport that closes makes no more calls
      refine ⟨fun h => ⟨h.room, h.empty, h.marks⟩, rfl, fun _ => ?_, ?_⟩
      · simp [Transport.givesUp, Transport.record]
      rw [Transport.remaining_of_isClosing rfl]
      exact Nat.zero_le _
  | setEofWritten =>
    refine ⟨fun h => ⟨h.room, h.empty, h.marks⟩, rfl, fun _ => ?_, Nat.le_refl _⟩
    exact Bool.or_true _
  | _ => exact ⟨fun h => ⟨h.room, h.empty, h.marks⟩, rfl, id, Nat.le_refl _⟩

/-- There has to be room for a buffer. -/
theorem Transport.onward_store {b : Buf} (hroom : tr.pending.length < pendingMax) :
    tr.Onward ((Act.store b).run tr) := by
  refine ⟨fun h => ⟨?_, fun hnil => ?_, h.marks⟩, rfl, id, Nat.le_refl _⟩
  · change (tr.pending ++ [b]).length ≤ pendingMax
    rw [List.length_append]
    exact hroom
  · exact absurd hnil (List.append_ne_nil_of_right_ne_nil _ (by simp))

/-- A request may only add to libuv's queue. -/
theorem Transport.onward_submit {fresh : Bytes} {bufs : List Bytes} {views : List ℕ}
    {queueSize : ℕ} (hqueue : tr.stream.queueSize ≤ queueSize) :
    tr.Onward ((Act.submit fresh bufs views queueSize).run tr) := by
  refine ⟨fun h => ⟨h.room, h.empty, h.marks⟩, rfl, id, ?_⟩
  have hrest (hzero : tr.writeBufferSize ≠ 0 ∧ tr.lowWater < tr.stream.queueSize) :
      tr.writeBufferSize + total bufs ≠ 0 ∧ tr.lowWater < queueSize :=
    ⟨by omega, by omega⟩
  change (if tr.isClosing = true then 0 else if tr.protocolPaused = true then
    if tr.writeBufferSize + total bufs ≠ 0 ∧ tr.lowWater < queueSize then 0 else 2 else 1) ≤
      (if tr.isClosing = true then 0 else if tr.protocolPaused = true then
    if tr.writeBufferSize ≠ 0 ∧ tr.lowWater < tr.stream.queueSize then 0 else 2 else 1)
  by_cases hzero : tr.writeBufferSize ≠ 0 ∧ tr.lowWater < tr.stream.queueSize
  · rw [if_pos (hrest hzero), if_pos hzero]
  · rw [if_neg hzero]
    split_ifs <;> omega

/-- What is left to send does not matter to a transport that closes. -/
theorem Transport.onward_clearWriteBufferSize (hclosing : tr.isClosing = true) :
    tr.Onward (Act.clearWriteBufferSize.run tr) := by
  refine ⟨fun h => ⟨h.room, h.empty, h.marks⟩, rfl, id, ?_⟩
  rw [Transport.remaining_of_isClosing (show (Act.clearWriteBufferSize.run tr).isClosing = true
    from hclosing)]
  exact Nat.zero_le _

/-- A pause over what libuv holds uses up a call: libuv's queue is above both marks. -/
theorem Transport.remaining_pauseWriting (ht : tr.Tidy) (hopen : tr.isClosing = false)
    (hempty : tr.pending = []) (hhigh : tr.highWater < tr.bufferedBytes)
    (hpaused : tr.protocolPaused = false) :
    (Act.pauseWriting.run tr).remaining < tr.remaining := by
  have hqueue : tr.writeBufferSize ≠ 0 ∧ tr.lowWater < tr.stream.queueSize := by
    have hmarks := ht.marks
    rw [bufferedBytes, ht.empty hempty] at hhigh
    split at hhigh
    · omega
    · exact ⟨‹_›, by omega⟩
  rw [Act.run, remaining_recordCall]
  have hafter : ({ tr with protocolPaused := true } : Transport).remaining = 0 := by
    change (if tr.isClosing = true then 0 else if true = true then
      if tr.writeBufferSize ≠ 0 ∧ tr.lowWater < tr.stream.queueSize then 0 else 2 else 1) = 0
    rw [if_pos rfl, if_pos hqueue, ite_self]
  rw [hafter, remaining, hopen, hpaused]
  simp

/-- A resume uses up a call: libuv's queue was not above the low-water mark. -/
theorem Transport.remaining_resumeWriting (hopen : tr.isClosing = false)
    (hlow : tr.bufferedBytes ≤ tr.lowWater) (hpaused : tr.protocolPaused = true) :
    (Act.resumeWriting.run tr).remaining < tr.remaining := by
  have hqueue : ¬ (tr.writeBufferSize ≠ 0 ∧ tr.lowWater < tr.stream.queueSize) := by
    rintro ⟨hsize, hqueue⟩
    rw [bufferedBytes, if_neg hsize] at hlow
    omega
  rw [Act.run, remaining_recordCall]
  have hafter : ({ tr with protocolPaused := false } : Transport).remaining = 1 := by
    change (if tr.isClosing = true then 0 else if false = true then _ else 1) = 1
    rw [hopen]
    simp
  rw [hafter, remaining, hopen, hpaused, if_neg hqueue]
  simp

/-- Neither makes the transport untidy. -/
theorem Transport.Onward.of_lt {tr' : Transport} {b : Bool} {m : Method}
    (heq : tr' = { tr with protocolPaused := b }.recordCall m)
    (hlt : tr'.remaining < tr.remaining) : tr.Onward tr' := by
  subst heq
  have hrec : ({ tr with protocolPaused := b } : Transport).remaining ≤ tr.remaining :=
    Nat.le_of_lt (by rwa [remaining_recordCall] at hlt)
  exact .of_recordCall ⟨fun h => ⟨h.room, h.empty, h.marks⟩, rfl, id, hrec⟩

end Acts

/-! ## States -/

namespace State

/-- Every transport is tidy, and has been given out. -/
structure Tidy (s : State) : Prop where
  /-- Every transport is tidy. -/
  tr : ∀ t, (s.tr t).Tidy
  /-- Only numbers that were given out belong to transports. -/
  fresh : ∀ t, (s.tr t).made = true → t < s.fresh

/-- How often the protocols can still be paused and resumed, taken together. -/
def remaining (s : State) : ℕ := (Finset.range s.fresh).sum fun t => (s.tr t).remaining

/-- What the loop may become while only writes and closes are made. -/
structure Onward (s s' : State) : Prop where
  /-- No transport is made. -/
  fresh : s'.fresh = s.fresh
  /-- Every transport goes onward. -/
  tr : ∀ t, (s.tr t).Onward (s'.tr t)

variable {s s' s'' : State}

theorem Onward.refl (s : State) : s.Onward s := ⟨rfl, fun _ => .refl _⟩

theorem Onward.trans (h : s.Onward s') (h' : s'.Onward s'') : s.Onward s'' :=
  ⟨h'.fresh.trans h.fresh, fun t => (h.tr t).trans (h'.tr t)⟩

theorem Onward.tidy (h : s.Onward s') (hs : s.Tidy) : s'.Tidy where
  tr t := (h.tr t).tidy (hs.tr t)
  fresh t hmade := by
    rw [(h.tr t).made] at hmade
    rw [h.fresh]
    exact hs.fresh t hmade

theorem Onward.made (h : s.Onward s') {t : ℕ} (hmade : (s.tr t).made = true) :
    (s'.tr t).made = true := (h.tr t).made.trans hmade

/-- No call is won back. -/
theorem Onward.sum_le (h : s.Onward s') : s'.remaining ≤ s.remaining := by
  rw [State.remaining, State.remaining, h.fresh]
  exact Finset.sum_le_sum fun t _ => (h.tr t).remaining

/-- If one transport uses up a call, there are fewer left in all. -/
theorem Onward.sum_lt (h : s.Onward s') (hs : s.Tidy) {t : ℕ} (hmade : (s.tr t).made = true)
    (hlt : (s'.tr t).remaining < (s.tr t).remaining) : s'.remaining < s.remaining := by
  rw [State.remaining, State.remaining, h.fresh]
  refine Finset.sum_lt_sum (fun t _ => (h.tr t).remaining) ⟨t, ?_, hlt⟩
  exact Finset.mem_range.mpr (hs.fresh t hmade)

/-- What is no transport's does not matter. -/
theorem Onward.of_eq (hfresh : s'.fresh = s.fresh) (htr : s'.tr = s.tr) : s.Onward s' :=
  ⟨hfresh, fun _ => htr ▸ .refl _⟩

/-- One transport goes onward, and the others stay. -/
theorem Onward.setTr {t : ℕ} {f : Transport → Transport} (h : (s.tr t).Onward (f (s.tr t)))
    (hfresh : s'.fresh = s.fresh) (htr : s'.tr = (s.setTr t f).tr) : s.Onward s' := by
  refine ⟨hfresh, fun u => ?_⟩
  rw [htr]
  by_cases hu : u = t
  · subst hu
    rwa [tr_setTr_self]
  · rw [tr_setTr_ne s hu]
    exact .refl _

theorem Onward.act {t : ℕ} {a : Act} (h : (s.tr t).Onward (a.run (s.tr t))) :
    s.Onward (s.act t a) := .setTr h rfl rfl

theorem Onward.queueFlush (t : ℕ) : s.Onward (s.queueFlush t) :=
  .setTr (f := (Transport.setFlushQueued · true))
    ⟨fun h => ⟨h.room, h.empty, h.marks⟩, rfl, id, Nat.le_refl _⟩ rfl rfl

theorem Onward.uvClose (t : ℕ) : s.Onward (s.uvClose t) :=
  .setTr (f := Act.uvClose.run) (Act.onward rfl) rfl rfl

end State

/-- The transports of a reachable state are tidy. -/
theorem Reachable.tidy {s : State} (h : Reachable s) : s.Tidy where
  tr t := by
    have hsane := h.sane t
    refine ⟨hsane.room, fun hempty => ?_, hsane.marks⟩
    rw [hsane.size, Transport.pendingBytes, hempty]
    rfl
  fresh t hmade := (h.global.made_iff t).mp hmade

end Zuvloop.Stream
