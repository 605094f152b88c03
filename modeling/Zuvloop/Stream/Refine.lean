import Zuvloop.Stream.Ledger

/-!
# The transports take only the steps they may

The programs of `Zuvloop.Stream.Transport` refine the steps of `Zuvloop.Stream.Steps`: whenever
Python code or libuv is in control, the state is reachable by steps, and what Python code does
inside a native call is a sequence of its own steps. So everything that holds along the steps holds
of the programs.

Some facts hold whenever control is given away but not after every single step. They are collected
in `Settled`, and this module proves them along with the refinement. Between two of them a program
knows `Mid`: the state is reachable, and every transport but the one it works on is settled.

## Main definitions

* `Settled`: what holds of a transport whenever control is given away.
* `Inv`, `Rely`, `spec`: the specification of the programs.
* `verified`: the programs meet it.
-/

namespace Zuvloop.Stream

open Reentrant

/-! ## Settled transports -/

variable {starving : Prop}

/-- The part of `Settled` that has to do with the close. -/
structure Base (starving : Prop) (tr : Transport) : Prop where
  /-- A close that is not done waits for a write request, or for `get_buffer` to return. -/
  live : tr.closing = true → tr.opened = true →
    0 < tr.writeBufferSize ∨ tr.readStatePending = true
  /-- `write_buffer_size` is what libuv has yet to complete, unless the transport was closed by
  force while a receive buffer was being allocated. -/
  sum : tr.opened = true → tr.writeBufferSize = tr.requestSize ∨
    tr.closing = true ∧ tr.writeBufferSize = 0 ∧ tr.readStatePending = true
  /-- Reading is left to `onRead` only while a receive buffer is being allocated. -/
  pendingRead : tr.readStatePending = true → tr.allocatingReadBuffer = true
  /-- The close callback has queued `connection_lost`. -/
  lost : ¬ starving → tr.complete = true → tr.connLost = true →
    tr.history.any Event.isLostQueued = true
  /-- The close callback has told the server. -/
  detached : tr.connLost = true → tr.server = true → Event.detach ∈ tr.history

/-- What has been handed over is what has been accepted, up to `rest`; once the transport is
closing, some more may be missing. -/
def BytesOk (tr : Transport) (rest : Bytes) : Prop :=
  tr.torn = false → tr.handedOver <+: tr.accepted ∧
    (tr.closing = false → tr.handedOver ++ rest = tr.accepted)

/-- Too much in libuv's queue pauses the protocol. -/
def Above (tr : Transport) : Prop :=
  tr.closing = false → 0 < tr.writeBufferSize → tr.highWater < tr.stream.queueSize →
    tr.protocolPaused = true

/-- A paused protocol still waits for something. -/
def Stuck (tr : Transport) : Prop :=
  tr.closing = false → tr.protocolPaused = true → 0 < tr.writeBufferSize ∨ tr.pending ≠ []

/-- A transport with something in its batch is on a flush list. -/
def Queued (tr : Transport) : Prop := tr.pending ≠ [] → tr.flushQueued = true

/-- More has happened, but no close or half-close in good order. -/
structure Grows (h h' : List Event) : Prop where
  /-- What has happened has happened. -/
  subset : h ⊆ h'
  /-- The closes in good order are the same. -/
  graceful : ∀ e ∈ h', ∀ n, e.graceful? = some n → e ∈ h

theorem Grows.refl (h : List Event) : Grows h h := ⟨List.Subset.refl h, fun _ he _ _ => he⟩

theorem Grows.concat {h : List Event} {e : Event} (he : e.graceful? = none) :
    Grows h (h ++ [e]) := by
  refine ⟨List.subset_append_left _ _, fun e' hmem n hn => ?_⟩
  rcases List.mem_append.mp hmem with hmem | hmem
  · exact hmem
  · rw [List.mem_singleton.mp hmem, he] at hn
    cases hn

theorem Grows.startReading (tr : Transport) :
    Grows tr.history (Act.startReading.run tr).history := by
  change Grows tr.history (if tr.history.any Event.isEof then _ else _)
  split
  · exact .concat rfl
  · exact .refl _

namespace Kept

variable {tr tr' : Transport}

/-- What has been handed over stays so. -/
theorem of_grows (h : Kept tr) (htorn : tr'.torn = tr.torn)
    (hhanded : tr.handedOver.length ≤ tr'.handedOver.length)
    (hh : Grows tr.history tr'.history) : Kept tr' := by
  intro ht hforced e he n hn
  refine (h (htorn ▸ ht) ?_ e (hh.graceful e he n hn) n hn).trans hhanded
  rw [List.any_eq_false] at hforced ⊢
  exact fun e he => hforced e (hh.subset he)

/-- Nothing is promised after a close by force. -/
theorem of_forced (h : tr.history.any Event.isForced = true) : Kept tr := by
  intro _ hforced
  rw [h] at hforced
  cases hforced

/-- A transport that has handed over everything it accepted. -/
theorem of_bytes (h : Ledger tr) (hbytes : BytesOk tr []) (hclosing : tr.closing = false) :
    Kept tr := by
  intro htorn _ e he n hn
  have heq := (hbytes htorn).2 hclosing
  rw [List.append_nil] at heq
  rw [heq]
  exact h.graceful e he n hn

end Kept

/-- What holds of a transport whenever control is given away. -/
structure Settled (starving : Prop) (tr : Transport) : Prop where
  /-- The close. -/
  base : Base starving tr
  /-- The bytes. -/
  bytes : BytesOk tr tr.pendingBytes
  /-- The pause. -/
  above : Above tr
  /-- The resume. -/
  stuck : Stuck tr
  /-- The flush. -/
  queued : Queued tr
  /-- The closes in good order. -/
  kept : Kept tr

theorem Settled.blank : Settled starving .blank where
  base := ⟨nofun, nofun, nofun, fun _ h => (by cases h), nofun⟩
  bytes := fun _ => ⟨List.prefix_rfl, fun _ => rfl⟩
  above := fun _ h => absurd h (lt_irrefl 0)
  stuck := fun _ h => by cases h
  queued := fun h => absurd rfl h
  kept := nofun

theorem Settled.create (writePipe : Bool) (p : Protocol) (server : Bool) :
    Settled starving (.create writePipe p server) where
  base := ⟨nofun, fun _ => .inl rfl, nofun, fun _ _ h => (by cases h), nofun⟩
  bytes := fun _ => ⟨List.prefix_rfl, fun _ => rfl⟩
  above := fun _ h => absurd h (lt_irrefl 0)
  stuck := fun _ h => by cases h
  queued := fun h => absurd rfl h
  kept := fun _ _ e he n hn => by
    rw [List.mem_singleton.mp he] at hn
    cases hn

/-- A transport that has been torn down is settled, whatever it was before. -/
theorem Settled.of_closed {tr : Transport} (hclosing : tr.closing = true)
    (hopened : tr.opened = false)
    (hread : tr.readStatePending = true → tr.allocatingReadBuffer = true)
    (hlost : ¬ starving → tr.complete = true → tr.connLost = true →
      tr.history.any Event.isLostQueued = true)
    (hdetached : tr.connLost = true → tr.server = true → Event.detach ∈ tr.history)
    (hbytes : tr.torn = false → tr.handedOver <+: tr.accepted) (hqueued : Queued tr)
    (hkept : Kept tr) : Settled starving tr where
  base := ⟨fun _ ho => by simp [hopened] at ho, fun ho => by simp [hopened] at ho, hread, hlost,
    hdetached⟩
  bytes := fun ht => ⟨hbytes ht, fun hc => by simp [hclosing] at hc⟩
  above := fun hc => by simp [hclosing] at hc
  stuck := fun hc => by simp [hclosing] at hc
  queued := hqueued
  kept := hkept

/-! ## What does not matter to a settled transport -/

/-- The transport without what `Settled` does not look at. -/
def Transport.essence (tr : Transport) : Transport :=
  { tr with
    made := false, reading := false, eofWritten := false, handleRef := false, pipeOwned := false
    closeRequested := false, writePipe := false, protocol := Transport.blank.protocol
    socketView := false, connLostExc := none, lowWater := 0, pendingSize := 0
    stream := { tr.stream with reading := false, closing := false, closed := false }
    disarming := false, history := [], written := 0, acquired := 0, held := 0, released := 0 }

section Essence

variable {tr tr' : Transport} (he : tr'.essence = tr.essence)

include he

theorem Base.of_essence (h : Base starving tr) (hh : tr.history ⊆ tr'.history) :
    Base starving tr' := by
  have hclosing : tr'.closing = tr.closing := (congrArg Transport.closing he :)
  have hopened : tr'.opened = tr.opened := (congrArg Transport.opened he :)
  have hsize : tr'.writeBufferSize = tr.writeBufferSize := (congrArg Transport.writeBufferSize he :)
  have hpending : tr'.readStatePending = tr.readStatePending :=
    (congrArg Transport.readStatePending he :)
  have hrequests : tr'.requestSize = tr.requestSize := (congrArg Transport.requestSize he :)
  have halloc : tr'.allocatingReadBuffer = tr.allocatingReadBuffer :=
    (congrArg Transport.allocatingReadBuffer he :)
  have hcomplete : tr'.complete = tr.complete := (congrArg Transport.complete he :)
  have hlost : tr'.connLost = tr.connLost := (congrArg Transport.connLost he :)
  have hserver : tr'.server = tr.server := (congrArg Transport.server he :)
  refine ⟨?_, ?_, ?_, fun hs hc hl => ?_, fun hl hs => hh (h.detached ?_ ?_)⟩
  · rw [hclosing, hopened, hsize, hpending]
    exact h.live
  · rw [hclosing, hopened, hsize, hpending, hrequests]
    exact h.sum
  · rw [hpending, halloc]
    exact h.pendingRead
  · have hany := h.lost hs (hcomplete ▸ hc) (hlost ▸ hl)
    rw [List.any_eq_true] at hany ⊢
    exact hany.imp fun e he => ⟨hh he.1, he.2⟩
  · exact hlost ▸ hl
  · exact hserver ▸ hs

theorem BytesOk.of_essence {rest : Bytes} (h : BytesOk tr rest) : BytesOk tr' rest := by
  have htorn : tr'.torn = tr.torn := (congrArg Transport.torn he :)
  have hclosing : tr'.closing = tr.closing := (congrArg Transport.closing he :)
  have haccepted : tr'.accepted = tr.accepted := (congrArg Transport.accepted he :)
  have hhanded : tr'.handedOver = tr.handedOver := (congrArg Transport.handedOver he :)
  unfold BytesOk
  rw [htorn, hclosing, haccepted, hhanded]
  exact h

theorem Above.of_essence (h : Above tr) : Above tr' := by
  have hclosing : tr'.closing = tr.closing := (congrArg Transport.closing he :)
  have hsize : tr'.writeBufferSize = tr.writeBufferSize := (congrArg Transport.writeBufferSize he :)
  have hhigh : tr'.highWater = tr.highWater := (congrArg Transport.highWater he :)
  have hqueue : tr'.stream.queueSize = tr.stream.queueSize :=
    (congrArg (fun tr => tr.stream.queueSize) he :)
  have hpaused : tr'.protocolPaused = tr.protocolPaused := (congrArg Transport.protocolPaused he :)
  unfold Above
  rw [hclosing, hsize, hhigh, hqueue, hpaused]
  exact h

theorem Stuck.of_essence (h : Stuck tr) : Stuck tr' := by
  have hclosing : tr'.closing = tr.closing := (congrArg Transport.closing he :)
  have hsize : tr'.writeBufferSize = tr.writeBufferSize := (congrArg Transport.writeBufferSize he :)
  have hpaused : tr'.protocolPaused = tr.protocolPaused := (congrArg Transport.protocolPaused he :)
  have hpending : tr'.pending = tr.pending := (congrArg Transport.pending he :)
  unfold Stuck
  rw [hclosing, hsize, hpaused, hpending]
  exact h

theorem Queued.of_essence (h : Queued tr) : Queued tr' := by
  have hpending : tr'.pending = tr.pending := (congrArg Transport.pending he :)
  have hqueued : tr'.flushQueued = tr.flushQueued := (congrArg Transport.flushQueued he :)
  unfold Queued
  rw [hpending, hqueued]
  exact h

theorem Kept.of_essence (h : Kept tr) (hh : Grows tr.history tr'.history) : Kept tr' := by
  have htorn : tr'.torn = tr.torn := (congrArg Transport.torn he :)
  have hhanded : tr'.handedOver = tr.handedOver := (congrArg Transport.handedOver he :)
  exact h.of_grows htorn (hhanded ▸ le_rfl) hh

theorem Settled.of_essence (h : Settled starving tr) (hh : Grows tr.history tr'.history) :
    Settled starving tr' where
  base := h.base.of_essence he hh.subset
  bytes := by
    have hpending : tr'.pendingBytes = tr.pendingBytes := (congrArg Transport.pendingBytes he :)
    rw [hpending]
    exact h.bytes.of_essence he
  above := h.above.of_essence he
  stuck := h.stuck.of_essence he
  queued := h.queued.of_essence he
  kept := h.kept.of_essence he hh

end Essence

/-! ## What Python code cannot do -/

/-- What the steps of Python code keep of a transport. -/
structure Calm (tr tr' : Transport) : Prop where
  /-- A transport stays. -/
  made : tr.made = true → tr'.made = true
  /-- Only the close callback sets `CONN_LOST`. -/
  connLost : tr'.connLost = tr.connLost
  /-- Only the read callbacks touch `ALLOCATING_READ_BUFFER`. -/
  allocating : tr'.allocatingReadBuffer = tr.allocatingReadBuffer
  /-- `CLOSING` stays. -/
  closing : tr.closing = true → tr'.closing = true
  /-- `OPEN` does not come back. -/
  opened : tr.made = true → tr.opened = false → tr'.opened = false
  /-- `EOF_WRITTEN` stays. -/
  eofWritten : tr.eofWritten = true → tr'.eofWritten = true
  /-- A pause inside `get_buffer` does not count. -/
  shut : tr.allocatingReadBuffer = true → readingShut tr.history = false →
    readingShut tr'.history = false

namespace Calm

theorem refl (tr : Transport) : Calm tr tr :=
  ⟨id, rfl, rfl, id, fun _ => id, id, fun _ => id⟩

theorem trans {tr₁ tr₂ tr₃ : Transport} (h₁ : Calm tr₁ tr₂) (h₂ : Calm tr₂ tr₃) :
    Calm tr₁ tr₃ where
  made := h₂.made ∘ h₁.made
  connLost := h₂.connLost.trans h₁.connLost
  allocating := h₂.allocating.trans h₁.allocating
  closing := h₂.closing ∘ h₁.closing
  opened := fun hm ho => h₂.opened (h₁.made hm) (h₁.opened hm ho)
  eofWritten := h₂.eofWritten ∘ h₁.eofWritten
  shut := fun ha hh => h₂.shut (h₁.allocating.trans ha) (h₁.shut ha hh)

theorem act {tr : Transport} {a : Act} (hpy : a.python = true) (hok : a.Allowed tr) :
    Calm tr (a.run tr) := by
  have hshut : tr.allocatingReadBuffer = true → readingShut tr.history = false →
      readingShut (a.run tr).history = false := by
    refine fun ha => Act.readingShut_run ?_ ?_
    · rintro early rfl
      rw [hok.1] at ha
      cases ha
    · rintro rfl
      cases hpy
  cases a with
  | setClosing =>
    refine ⟨fun hm => ((Act.setClosing).run_frame tr).1.trans hm, ?_, ?_, ?_, ?_, ?_, hshut⟩ <;>
      (unfold Act.run; dsimp only; split)
    all_goals first | rfl | exact id | exact fun _ => id | exact fun _ => rfl
  | pauseWriting | resumeWriting =>
    refine ⟨fun hm => (Act.run_frame _ tr).1.trans hm, ?_, ?_, ?_, ?_, ?_, hshut⟩ <;>
      (unfold Act.run; dsimp only; rw [Transport.recordCall_eq])
    all_goals first | exact id | exact fun _ => id
  | setEofWritten => exact ⟨id, rfl, rfl, id, fun _ => id, fun _ => rfl, hshut⟩
  | clearOpen => exact ⟨id, rfl, rfl, id, fun _ _ => rfl, id, hshut⟩
  | clearReadStatePending | setAllocating | uvReadEnd | call | completed | drained | lost
  | lostQueued | detach | clearHandleRef => cases hpy
  | _ => exact ⟨id, rfl, rfl, id, fun _ => id, id, hshut⟩

end Calm

/-- Python code keeps every transport calm. -/
theorem Steps.calm {s s' : State} (hr : Reachable s) (h : Steps true s s') (u : ℕ) :
    Calm (s.tr u) (s'.tr u) := by
  induction h with
  | refl => exact .refl _
  | @tail s₁ s₂ hsteps hstep ih =>
    refine ih.trans ?_
    rcases hstep.transport u with h | ⟨a, -, hpy, hok, h⟩ | ⟨b, -, h⟩ | ⟨hu, w, p, srv, h⟩
    · rw [h]
      exact .refl _
    · rw [h]
      exact .act (hpy rfl) hok
    · rw [h]
      exact ⟨id, rfl, rfl, id, fun _ => id, id, fun _ => id⟩
    · rw [h, (hr.steps hsteps).global.blank u hu.ge]
      exact ⟨nofun, rfl, rfl, nofun, nofun, nofun, nofun⟩

/-- Python code neither starts nor ends a run of the loop. -/
theorem Steps.running {s s' : State} (h : Steps true s s') : s'.running = s.running := by
  induction h with
  | refl => rfl
  | tail _ hstep ih =>
    cases hstep with
    | core c _ _ hr => exact hr.trans ih
    | turn _ h | lostQueued _ _ _ h | handleClosed _ h | detachFlushList h | visit _ _ h
    | beginFlush h | endFlush h | prepared h | poll h => cases h
    | _ => exact ih

/-! ## The specification -/

/-- What a native call leaves as it found it, apart from the views that transport `t` holds. -/
structure FrameBut (t : ℕ) (s s' : State) : Prop where
  /-- The native calls in progress. -/
  depth : s'.depth = s.depth
  /-- The list a flush has detached. -/
  draining : s'.draining = s.draining
  /-- Whether `onFlush` is draining. -/
  flushing : s'.flushing = s.flushing
  /-- The transports about to be closed. -/
  disarming : ∀ u, (s'.tr u).disarming = (s.tr u).disarming
  /-- The transports that allocate a receive buffer. -/
  allocating : ∀ u, (s'.tr u).allocatingReadBuffer = (s.tr u).allocatingReadBuffer
  /-- The views of the writes in progress. -/
  held : ∀ u ≠ t, (s'.tr u).held = (s.tr u).held

/-- What a native call leaves as it found it. -/
structure Frame (s s' : State) : Prop where
  /-- The native calls in progress. -/
  depth : s'.depth = s.depth
  /-- The list a flush has detached. -/
  draining : s'.draining = s.draining
  /-- Whether `onFlush` is draining. -/
  flushing : s'.flushing = s.flushing
  /-- The transports about to be closed. -/
  disarming : ∀ u, (s'.tr u).disarming = (s.tr u).disarming
  /-- The transports that allocate a receive buffer. -/
  allocating : ∀ u, (s'.tr u).allocatingReadBuffer = (s.tr u).allocatingReadBuffer
  /-- The views of the writes in progress. -/
  held : ∀ u, (s'.tr u).held = (s.tr u).held

namespace FrameBut

variable {t : ℕ} {s s₁ s₂ s₃ : State}

theorem refl (t : ℕ) (s : State) : FrameBut t s s :=
  ⟨rfl, rfl, rfl, fun _ => rfl, fun _ => rfl, fun _ _ => rfl⟩

theorem trans (h₁ : FrameBut t s₁ s₂) (h₂ : FrameBut t s₂ s₃) : FrameBut t s₁ s₃ where
  depth := h₂.depth.trans h₁.depth
  draining := h₂.draining.trans h₁.draining
  flushing := h₂.flushing.trans h₁.flushing
  disarming := fun u => (h₂.disarming u).trans (h₁.disarming u)
  allocating := fun u => (h₂.allocating u).trans (h₁.allocating u)
  held := fun u hu => (h₂.held u hu).trans (h₁.held u hu)

/-- The views come out even in the end. -/
theorem frame (h : FrameBut t s₁ s₂) (ht : (s₂.tr t).held = (s₁.tr t).held) : Frame s₁ s₂ where
  depth := h.depth
  draining := h.draining
  flushing := h.flushing
  disarming := h.disarming
  allocating := h.allocating
  held := fun u => if hu : u = t then hu ▸ ht else h.held u hu

/-- An act that touches neither the close nor the receive buffer. -/
theorem act {a : Act} (hd : (a.run (s.tr t)).disarming = (s.tr t).disarming)
    (ha : (a.run (s.tr t)).allocatingReadBuffer = (s.tr t).allocatingReadBuffer) :
    FrameBut t s (s.act t a) where
  depth := rfl
  draining := rfl
  flushing := rfl
  disarming := fun u => by
    by_cases hu : u = t
    · rw [hu, State.tr_act_self, hd]
    · rw [State.tr_act_ne _ hu]
  allocating := fun u => by
    by_cases hu : u = t
    · rw [hu, State.tr_act_self, ha]
    · rw [State.tr_act_ne _ hu]
  held := fun u hu => by rw [State.tr_act_ne _ hu]

end FrameBut

namespace Frame

variable {s s₁ s₂ s₃ : State}

theorem refl (s : State) : Frame s s :=
  ⟨rfl, rfl, rfl, fun _ => rfl, fun _ => rfl, fun _ => rfl⟩

theorem trans (h₁ : Frame s₁ s₂) (h₂ : Frame s₂ s₃) : Frame s₁ s₃ where
  depth := h₂.depth.trans h₁.depth
  draining := h₂.draining.trans h₁.draining
  flushing := h₂.flushing.trans h₁.flushing
  disarming := fun u => (h₂.disarming u).trans (h₁.disarming u)
  allocating := fun u => (h₂.allocating u).trans (h₁.allocating u)
  held := fun u => (h₂.held u).trans (h₁.held u)

theorem but (h : Frame s₁ s₂) (t : ℕ) : FrameBut t s₁ s₂ :=
  ⟨h.depth, h.draining, h.flushing, h.disarming, h.allocating, fun u _ => h.held u⟩

end Frame

/-- Between two native calls of libuv nothing is in progress. -/
structure AtRest (s : State) : Prop where
  /-- No flush has a list detached. -/
  draining : s.draining = []
  /-- `onFlush` is not draining. -/
  flushing : s.flushing = false
  /-- No receive buffer is being allocated. -/
  allocating : ∀ u, (s.tr u).allocatingReadBuffer = false
  /-- No teardown is between the end of reading and `uv_close`. -/
  disarming : ∀ u, (s.tr u).disarming = false

/-- What holds whenever control is given away. -/
structure Inv (starving : Prop) (s : State) : Prop where
  /-- The state is reachable by steps. -/
  reach : Reachable s
  /-- Every transport is settled. -/
  settled : ∀ u, Settled starving (s.tr u)
  /-- Outside every native call, nothing is in progress. -/
  rest : s.depth = 0 → AtRest s
  /-- Before the poll no native call is in progress. -/
  prepared : s.prepared = true → s.running = true ∧ s.depth = 0

/-- What Python code does while it is in control. -/
structure Rely (s s' : State) : Prop where
  /-- It leaves the native call that gave it control alone. -/
  frame : Frame s s'
  /-- Inside a native call, it takes steps of its own. -/
  steps : 0 < s.depth → Steps true s s'

/-- What a program knows that works on transport `t`. -/
structure Mid (starving : Prop) (t : ℕ) (s : State) : Prop where
  /-- The state is reachable by steps. -/
  reach : Reachable s
  /-- The other transports are settled. -/
  others : ∀ u ≠ t, Settled starving (s.tr u)
  /-- A native call is in progress. -/
  depth : 0 < s.depth
  /-- libuv is not about to poll. -/
  prepared : s.prepared = false
  /-- The transport exists. -/
  made : (s.tr t).made = true

/-- What `makeRoom` finds. -/
structure Crowded (starving : Prop) (t : ℕ) (s : State) : Prop extends Mid starving t s where
  /-- The close. -/
  base : Base starving (s.tr t)
  /-- The bytes. -/
  bytes : BytesOk (s.tr t) (s.tr t).pendingBytes
  /-- The pause. -/
  above : Above (s.tr t)
  /-- The resume. -/
  stuck : Stuck (s.tr t)
  /-- The closes in good order. -/
  kept : Kept (s.tr t)

/-- A program that works on transport `t` leads from `s` to `s'`, where control may be given
away. -/
structure Leads (starving : Prop) (t : ℕ) (s s' : State) : Prop where
  /-- The transport and the loop are in order. -/
  mid : Mid starving t s'
  /-- The transport is settled. -/
  settled : Settled starving (s'.tr t)
  /-- The steps are those of Python code. -/
  steps : Steps true s s'
  /-- The rest is as it was. -/
  frame : Frame s s'

/-- The specification of the programs. -/
def spec (starving : Prop) : Spec sig where
  inv := Inv starving
  rely := Rely
  pre := fun (.makeRoom t) s => Crowded starving t s
  post := fun (.makeRoom t) s s' =>
    Leads starving t s s' ∧ ((s'.tr t).givesUp = true ∨ (s'.tr t).full = false)

theorem Rely.refl (s : State) : Rely s s := ⟨.refl s, fun _ => .refl⟩

theorem Rely.trans {s₁ s₂ s₃ : State} (h₁ : Rely s₁ s₂) (h₂ : Rely s₂ s₃) : Rely s₁ s₃ where
  frame := h₁.frame.trans h₂.frame
  steps := fun hd => (h₁.steps hd).trans (h₂.steps (h₁.frame.depth ▸ hd))

namespace Mid

variable {t : ℕ} {s s' : State}

theorem sane (h : Mid starving t s) : Sane (s.tr t) := h.reach.sane t

/-- A program may give control away once its transport is settled. -/
theorem inv (h : Mid starving t s) (ht : Settled starving (s.tr t)) : Inv starving s where
  reach := h.reach
  settled := fun u => if hu : u = t then hu ▸ ht else h.others u hu
  rest := fun hd => absurd h.depth (by omega)
  prepared := fun hp => by simp [h.prepared] at hp

/-- A program of a libuv callback performs an act. -/
theorem act (h : Mid starving t s) {a : Act} (hplain : a.plain = true)
    (hok : a.Allowed (s.tr t)) : Mid starving t (s.act t a) where
  reach := h.reach.tail (.act t a h.made hplain nofun hok)
  others := fun u hu => by
    rw [State.tr_act_ne _ hu]
    exact h.others u hu
  depth := h.depth
  prepared := h.prepared
  made := by rw [State.tr_act_self, (a.run_frame _).1, h.made]

/-- The step an act of Python code is. -/
theorem stepAct (h : Mid starving t s) {a : Act} (hplain : a.plain = true)
    (hpy : a.python = true) (hok : a.Allowed (s.tr t)) : Steps true s (s.act t a) :=
  .single (.act t a h.made hplain (fun _ => hpy) hok)

/-- Python code has been in control. -/
theorem rely (h : Mid starving t s) (hinv : Inv starving s') (hrely : Rely s s') :
    Mid starving t s' where
  reach := hinv.reach
  others := fun u _ => hinv.settled u
  depth := hrely.frame.depth ▸ h.depth
  prepared := by
    by_contra hp
    have hd := (hinv.prepared ((Bool.not_eq_false _).mp hp)).2
    have := h.depth
    rw [← hrely.frame.depth, hd] at this
    exact absurd this (lt_irrefl 0)
  made := ((hrely.steps h.depth).calm h.reach t).made h.made

end Mid

namespace Leads

variable {t : ℕ} {s s₁ s₂ s₃ : State}

theorem refl (h : Mid starving t s) (ht : Settled starving (s.tr t)) : Leads starving t s s :=
  ⟨h, ht, .refl, .refl s⟩

theorem trans (h₁ : Leads starving t s₁ s₂) (h₂ : Leads starving t s₂ s₃) :
    Leads starving t s₁ s₃ :=
  ⟨h₂.mid, h₂.settled, h₁.steps.trans h₂.steps, h₁.frame.trans h₂.frame⟩

/-- What was done before counts as well. -/
theorem after (h : Leads starving t s₁ s₂) (hsteps : Steps true s s₁) (hframe : Frame s s₁) :
    Leads starving t s s₂ :=
  ⟨h.mid, h.settled, hsteps.trans h.steps, hframe.trans h.frame⟩

theorem calm (h : Leads starving t s₁ s₂) (hr : Reachable s₁) : Calm (s₁.tr t) (s₂.tr t) :=
  h.steps.calm hr t

end Leads

/-! ## Weakest preconditions of the primitives -/

section WP

variable {s : State} {α : Type}

@[simp]
theorem wp_getState (Q : State → State → Prop) :
    getState.wp (env starving) (spec starving) Q s ↔ Q s s := Iff.rfl

@[simp]
theorem wp_self (t : ℕ) (Q : Transport → State → Prop) :
    (self t).wp (env starving) (spec starving) Q s ↔ Q (s.tr t) s := Iff.rfl

@[simp]
theorem wp_update (f : State → State) (Q : Unit → State → Prop) :
    (update f).wp (env starving) (spec starving) Q s ↔ Q () (f s) := Iff.rfl

@[simp]
theorem wp_act (t : ℕ) (a : Act) (Q : Unit → State → Prop) :
    (act t a).wp (env starving) (spec starving) Q s ↔ Q () (s.act t a) := Iff.rfl

@[simp]
theorem wp_request (q : Request) (Q : Answer → State → Prop) :
    (request q).wp (env starving) (spec starving) Q s ↔
      ∀ a, Answers starving s q a → Q a s := Iff.rfl

@[simp]
theorem wp_alloc (Q : Bool → State → Prop) :
    alloc.wp (env starving) (spec starving) Q s ↔ ∀ b, (b = false → starving) → Q b s := by
  rw [alloc, Prog.wp_map, wp_request]
  exact ⟨fun h b hb => h ⟨b, 0, 0⟩ hb, fun h a ha => h a.ok ha⟩

@[simp]
theorem wp_python (c : Callback) (Q : Unit → State → Prop) :
    (python c).wp (env starving) (spec starving) Q s ↔
      (foreign c).wp (env starving) (spec starving) (fun _ s' => Q () s') s :=
  Prog.wp_map _ _ _ _

/-- Control may be given away once the transport is settled. -/
theorem wp_foreign {t : ℕ} {c : Callback} {Q : Result → State → Prop} (h : Mid starving t s)
    (ht : Settled starving (s.tr t)) (hQ : ∀ r s', Leads starving t s s' → Q r s') :
    (foreign c).wp (env starving) (spec starving) Q s := by
  refine Prog.wp_foreign (A := spec starving) (Rely.refl s) (h.inv ht) fun r s' hrely hinv => ?_
  exact hQ r s' ⟨h.rely hinv hrely, hinv.settled t, hrely.steps h.depth, hrely.frame⟩

end WP

end Zuvloop.Stream
