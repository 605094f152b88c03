import Zuvloop.Reentrant.Calls
import Zuvloop.Stream.Verified

/-!
# Requests made inside `get_buffer`

While a receive buffer is being allocated, libuv has to be left alone. A protocol that pauses or
closes the transport inside `get_buffer` has that done by `onRead`, which reads one flag,
`READ_STATE_PENDING`, and then stops reading whatever was asked for last.

## Main definitions

* `ReadRequest`: a call that a protocol makes inside `get_buffer`.
* `TakesEffect`: the last request holds once `onRead` has returned.
* `Allocating`: a transport while its protocol makes requests.

## Main results

* `requests_take_effect_iff`: the last request holds unless reading was paused and then resumed.
* `resume_is_lost`: a pause that was taken back stops reading.
-/

namespace Zuvloop.Stream

open Reentrant

/-! ## Requests -/

/-- What a protocol may ask for inside `get_buffer`. -/
inductive ReadRequest where
  /-- `pause_reading()`. -/
  | pause
  /-- `resume_reading()`. -/
  | resume
  /-- `close()`. -/
  | close
  /-- `abort()`. -/
  | abort
deriving DecidableEq, Repr

namespace ReadRequest

/-- The entry point. -/
def op (t : ℕ) : ReadRequest → Op
  | pause => .pauseReading t
  | resume => .resumeReading t
  | close => .close t
  | abort => .abort t

/-- The transport is to close. -/
def closes : ReadRequest → Bool
  | close | abort => true
  | _ => false

/-- Reading is to stop. -/
def pauses : ReadRequest → Bool
  | pause => true
  | _ => false

/-- What the last of `pause_reading()` and `resume_reading()` asks for. -/
def wanted (reqs : List ReadRequest) : Option Bool :=
  reqs.foldl (fun want r =>
    match r with
    | pause => some false
    | resume => some true
    | _ => want) none

end ReadRequest

/-- The calls are made inside `get_buffer`; no other Python code makes any. -/
def insideGetBuffer (t : ℕ) (reqs : List ReadRequest) (c : Callback) : List Op :=
  if c = .protocol t .getBuffer then reqs.map (ReadRequest.op t) else []

/-- The read itself ended reading: it met the end of the file, or closed the transport. -/
def ReadEnded (tr tr' : Transport) : Prop :=
  tr'.closing = true ∨ tr.history.countP Event.isEof < tr'.history.countP Event.isEof

/-- The last effective request holds: a transport that was closed is closing, with `uv_close` called
or with writes outstanding, and any other one reads exactly if that was asked for last, unless the
read itself ended it. -/
def TakesEffect (reqs : List ReadRequest) (tr tr' : Transport) : Prop :=
  if reqs.any ReadRequest.closes then
    tr'.closing = true ∧ (tr'.stream.closing = true ∨ 0 < tr'.writeBufferSize)
  else
    match ReadRequest.wanted reqs with
    | none => True
    | some false => tr'.reading = false
    | some true => tr'.reading = true ∨ ReadEnded tr tr'

/-! ## While the requests are made -/

/-- A transport while its protocol makes requests: `closed` and `pending` are the flags that the
requests set. -/
structure Allocating (eofs : ℕ) (closed pending : Bool) (tr : Transport) : Prop where
  /-- `OPEN` is set. -/
  opened : tr.opened = true
  /-- `uv_close` has not been called. -/
  uvOpen : tr.stream.closing = false
  /-- A receive buffer is being allocated. -/
  allocating : tr.allocatingReadBuffer = true
  /-- Reading has not been stopped. -/
  reading : tr.reading = true
  /-- `CLOSING`. -/
  closing : tr.closing = closed
  /-- `READ_STATE_PENDING`. -/
  pending : tr.readStatePending = pending
  /-- The end of the file has not been met. -/
  eofs : tr.history.countP Event.isEof = eofs

/-- The acts of writing, of closing and of libuv that do not touch these flags. -/
def Act.writes : Act → Bool
  | .releaseViews _ | .takePending | .discardPending | .took _ _ | .submit _ _ _ _ | .tear
  | .pauseWriting | .resumeWriting | .closeCalled | .setCloseRequested | .force _ _
  | .clearWriteBufferSize | .resumeReading | .uvReadEnd => true
  | _ => false

variable {t : ℕ} {s : State} {eofs : ℕ} {closed pending : Bool}

namespace Allocating

variable {tr : Transport}

theorem act (h : Allocating eofs closed pending tr) {a : Act} (ha : a.writes = true) :
    Allocating eofs closed pending (a.run tr) := by
  have heofs : (a.run tr).history.countP Event.isEof = eofs := by
    rw [a.history_run, List.countP_append, h.eofs]
    cases he : a.event tr with
    | none => rfl
    | some e =>
      have hnot : e.isEof = false := by
        cases e with
        | called m =>
          rcases Act.records_of_event he with rfl | ⟨hflow, -⟩
          · cases ha
          · cases m with
            | eofReceived => cases hflow
            | _ => rfl
        | _ => rfl
      simp [hnot]
  obtain ⟨h₁, h₂, h₃, h₄, h₅, h₆, -⟩ := h
  cases a with
  | pauseWriting | resumeWriting =>
    rw [Act.run, Transport.recordCall_eq] at heofs ⊢
    exact ⟨h₁, h₂, h₃, h₄, h₅, h₆, heofs⟩
  | _ => first | exact ⟨h₁, h₂, h₃, h₄, h₅, h₆, heofs⟩ | cases ha

theorem setClosing (h : Allocating eofs closed pending tr) :
    Allocating eofs true pending (Act.setClosing.run tr) := by
  obtain ⟨h₁, h₂, h₃, h₄, h₅, h₆, h₇⟩ := h
  change Allocating eofs true pending (if tr.closing = true then tr else _)
  split
  · rename_i hclosing
    exact ⟨h₁, h₂, h₃, h₄, hclosing, h₆, h₇⟩
  · refine ⟨h₁, h₂, h₃, h₄, rfl, h₆, ?_⟩
    change (tr.history ++ [Event.closingBegan]).countP Event.isEof = eofs
    rw [List.countP_append, h₇]
    rfl

/-- `get_buffer` is called. -/
theorem called (h : Allocating eofs closed pending tr) :
    Allocating eofs closed pending ((Act.call .getBuffer).run tr) := by
  refine ⟨h.opened, h.uvOpen, h.allocating, h.reading, h.closing, h.pending, ?_⟩
  change (tr.history ++ [Event.called .getBuffer]).countP Event.isEof = eofs
  rw [List.countP_append, h.eofs]
  rfl

theorem setReadStatePending (h : Allocating eofs closed pending tr) :
    Allocating eofs closed true (Act.setReadStatePending.run tr) :=
  ⟨h.opened, h.uvOpen, h.allocating, h.reading, h.closing, rfl, h.eofs⟩

end Allocating

/-! ## Rules -/

section Rules

variable {starving : Prop} {calls : Callback → List Op}

@[simp]
theorem after_getState (Q : State → State → Prop) :
    getState.after system (env starving) calls Q s ↔ Q s s := Iff.rfl

@[simp]
theorem after_self (u : ℕ) (Q : Transport → State → Prop) :
    (self u).after system (env starving) calls Q s ↔ Q (s.tr u) s := Iff.rfl

@[simp]
theorem after_update (f : State → State) (Q : Unit → State → Prop) :
    (update f).after system (env starving) calls Q s ↔ Q () (f s) := Iff.rfl

@[simp]
theorem after_act (u : ℕ) (a : Act) (Q : Unit → State → Prop) :
    (act u a).after system (env starving) calls Q s ↔ Q () (s.act u a) := Iff.rfl

@[simp]
theorem after_request (q : Request) (Q : Answer → State → Prop) :
    (request q).after system (env starving) calls Q s ↔
      ∀ a, Answers starving s q a → Q a s := Iff.rfl

@[simp]
theorem after_alloc (Q : Bool → State → Prop) :
    alloc.after system (env starving) calls Q s ↔ ∀ b, (b = false → starving) → Q b s := by
  rw [alloc, Prog.after_map, after_request]
  exact ⟨fun h b hb => h ⟨b, 0, 0⟩ hb, fun h a ha => h a.ok ha⟩

/-- Python code returns once it has made its calls. -/
theorem after_foreign_calls {c : Callback} (Q : Result → State → Prop) :
    (foreign c).after system (env starving) calls Q s ↔
      ∀ s₁, Calls system (env starving) (calls c) s s₁ → ∀ r, Q r s₁ :=
  forall_congr' fun _ => imp_congr_right fun _ => forall_congr' fun _ => true_imp_iff

/-- Python code that makes no calls leaves the state alone. -/
theorem after_foreign {c : Callback} (hc : calls c = []) (Q : Result → State → Prop) :
    (foreign c).after system (env starving) calls Q s ↔ ∀ r, Q r s := by
  refine ⟨fun h r => h s (hc ▸ Calls.nil (S := sig) s) r trivial, fun h s₁ hcalls r _ => ?_⟩
  rw [hc] at hcalls
  exact hcalls.eq_of_nil ▸ h r

theorem after_python {c : Callback} (hc : calls c = []) (Q : Unit → State → Prop) :
    (python c).after system (env starving) calls Q s ↔ Result → Q () s := by
  rw [python, Prog.after_map]
  exact after_foreign hc _

end Rules

/-! ## The requests -/

section Requests

variable {starving : Prop}

theorem Allocating.actState (h : Allocating eofs closed pending (s.tr t)) {a : Act}
    (ha : a.writes = true) : Allocating eofs closed pending ((s.act t a).tr t) := by
  rw [State.tr_act_self]
  exact h.act ha

theorem Allocating.closeState (h : Allocating eofs closed pending (s.tr t)) :
    Allocating eofs true pending ((s.act t .setClosing).tr t) := by
  rw [State.tr_act_self]
  exact h.setClosing

theorem Allocating.pendingState (h : Allocating eofs closed pending (s.tr t)) :
    Allocating eofs closed true ((s.act t .setReadStatePending).tr t) := by
  rw [State.tr_act_self]
  exact h.setReadStatePending

/-- A close by force is left to `onRead`. -/
theorem after_forceClose {cause : Cause} {exc : Option Exc} {Q : Unit → State → Prop}
    (h : Allocating eofs closed pending (s.tr t))
    (hQ : ∀ s', Allocating eofs true true (s'.tr t) → Q () s') :
    (forceClose t cause exc).after system (env starving) (fun _ => []) Q s := by
  simp only [forceClose, Prog.after_bind, after_act, after_self, Prog.after_ite]
  have h₁ := h.actState (a := .setCloseRequested) rfl
  have h₂ := h₁.actState (a := .discardPending) rfl
  have h₃ := (h₂.actState (a := .force cause exc) rfl).closeState
  have h₄ := h₃.actState (a := .clearWriteBufferSize) rfl
  rw [if_pos h₄.allocating]
  exact hQ _ h₄.pendingState

theorem after_callProtocol {m : Method} {Q : Unit → State → Prop} (hQ : Q () s) :
    (callProtocol t m).after system (env starving) (fun _ => []) Q s := by
  simp only [callProtocol, Prog.after_bind, after_self, Prog.after_ite, Prog.after_pure]
  split
  · refine (after_foreign rfl _).mpr fun r => ?_
    split
    · exact (after_python rfl _).mpr fun _ => hQ
    · exact hQ
  · exact hQ

theorem after_maybePauseProtocol {Q : Unit → State → Prop}
    (h : Allocating eofs closed pending (s.tr t))
    (hQ : ∀ s', Allocating eofs closed pending (s'.tr t) → Q () s') :
    (maybePauseProtocol t).after system (env starving) (fun _ => []) Q s := by
  simp only [maybePauseProtocol, Prog.after_bind, after_self, Prog.after_ite, Prog.after_pure,
    after_act]
  split
  · exact hQ s h
  split
  · exact hQ s h
  · exact after_callProtocol (hQ _ (h.actState rfl))

theorem after_maybeResumeProtocol {Q : Unit → State → Prop}
    (h : Allocating eofs closed pending (s.tr t))
    (hQ : ∀ s', Allocating eofs closed pending (s'.tr t) → Q () s') :
    (maybeResumeProtocol t).after system (env starving) (fun _ => []) Q s := by
  simp only [maybeResumeProtocol, Prog.after_bind, after_self, Prog.after_ite, Prog.after_pure,
    after_act]
  split
  · exact hQ s h
  split
  · exact hQ s h
  split
  · exact hQ s h
  · exact after_callProtocol (hQ _ (h.actState rfl))

theorem after_queueWrite {fresh : Bytes} {bufs : List Bytes} {views : List ℕ}
    {Q : Except Exc Unit → State → Prop} (h : Allocating eofs closed pending (s.tr t))
    (hQ : ∀ r s', Allocating eofs closed pending (s'.tr t) → Q r s') :
    (queueWrite t fresh bufs views).after system (env starving) (fun _ => []) Q s := by
  simp only [queueWrite, Prog.after_bind, Prog.after_ite, Prog.after_pure, after_act, after_alloc,
    after_request]
  split
  · exact hQ _ _ (h.actState rfl)
  intro ok _
  split
  · exact hQ _ _ (h.actState rfl)
  intro a _
  split
  · exact hQ _ _ (h.actState rfl)
  · exact after_maybePauseProtocol (h.actState rfl) fun s' h' => hQ _ s' h'

/-- A write inside a request leaves the flags alone, or closes the transport by force. -/
def KeptOrForced (eofs : ℕ) (closed pending : Bool) (tr : Transport) : Prop :=
  Allocating eofs closed pending tr ∨ Allocating eofs true true tr

theorem after_writeBufs {origin : Origin} {bufs : List Bytes} {views : List ℕ}
    {Q : Except Exc Unit → State → Prop} (h : Allocating eofs closed pending (s.tr t))
    (hQ : ∀ r s', KeptOrForced eofs closed pending (s'.tr t) → Q r s') :
    (writeBufs t origin bufs views).after system (env starving) (fun _ => []) Q s := by
  have hqueue : ∀ fresh, (queueWrite t fresh bufs views).after system (env starving)
      (fun _ => []) Q s := fun fresh => after_queueWrite h fun r s' h' => hQ r s' (.inl h')
  simp only [writeBufs, acceptsWrite, Prog.after_bind, after_self, Prog.after_ite, Prog.after_pure,
    after_act, after_request]
  split
  · exact hQ _ _ (.inl (h.actState rfl))
  split
  · exact hQ _ _ (.inl (h.actState rfl))
  split
  swap
  · exact hqueue _
  intro a _
  split
  · split
    · exact hQ _ _ (.inl ((h.actState rfl).actState rfl))
    · simp only [queueRest, Prog.after_bind]
      refine after_queueWrite (h.actState rfl) fun r s' h' => ?_
      cases r with
      | ok => exact hQ _ s' (.inl h')
      | error exc =>
        simp only [Prog.after_ite, Prog.after_bind, after_act, Prog.after_pure]
        split
        · exact hQ _ _ (.inl (h'.actState rfl))
        · exact hQ _ s' (.inl h')
  split
  · exact after_forceClose (h.actState rfl) fun s' h' => hQ _ s' (.inr h')
  · exact hqueue _

theorem after_flushPending {Q : Unit → State → Prop}
    (h : Allocating eofs closed pending (s.tr t))
    (hQ : ∀ s', KeptOrForced eofs closed pending (s'.tr t) → Q () s') :
    (flushPending t).after system (env starving) (fun _ => []) Q s := by
  simp only [flushPending, Prog.after_bind, after_self, Prog.after_ite, Prog.after_pure, after_act]
  split
  · exact hQ s (.inl h)
  refine after_writeBufs (h.actState rfl) fun r s' h' => ?_
  cases r with
  | error exc =>
    rcases h' with h' | h' <;> exact after_forceClose h' fun s'' h'' => hQ s'' (.inr h'')
  | ok =>
    rcases h' with h' | h'
    · exact after_maybeResumeProtocol h' fun s'' h'' => hQ s'' (.inl h'')
    · exact after_maybeResumeProtocol h' fun s'' h'' => hQ s'' (.inr h'')

/-- Closing has begun, and waits for `onRead` or for a write. -/
def Waits (tr : Transport) : Prop :=
  tr.closing = true → tr.readStatePending = false → 0 < tr.writeBufferSize

theorem Allocating.waits {tr : Transport} (h : Allocating eofs closed true tr) : Waits tr := by
  intro _ hpending
  rw [h.pending] at hpending
  cases hpending

/-- A close is left to `onRead`, after what is pending has been flushed. -/
theorem after_closeTransport {Q : Unit → State → Prop}
    (h : Allocating eofs closed pending (s.tr t)) (hwaits : Waits (s.tr t))
    (hQ : ∀ s', Allocating eofs true (!closed || pending) (s'.tr t) → Waits (s'.tr t) → Q () s') :
    (closeTransport t).after system (env starving) (fun _ => []) Q s := by
  simp only [closeTransport, Prog.after_bind, after_act, after_self, Prog.after_ite,
    Prog.after_pure]
  have h₁ := h.actState (a := .setCloseRequested) rfl
  split
  · -- closing has begun before
    rename_i hclosing
    rw [h₁.closing] at hclosing
    subst hclosing
    refine hQ _ h₁ ?_
    rw [State.tr_act_self]
    exact hwaits
  rename_i hclosing
  rw [h₁.closing, Bool.not_eq_true] at hclosing
  subst hclosing
  refine after_flushPending h₁ fun s₂ h₂ => ?_
  have h₃ : ∃ p, Allocating eofs true p ((s₂.act t .setClosing).tr t) :=
    h₂.elim (fun h => ⟨_, h.closeState⟩) fun h => ⟨_, h.closeState⟩
  obtain ⟨p, h₃⟩ := h₃
  rw [if_pos h₃.allocating]
  exact hQ _ h₃.pendingState h₃.pendingState.waits

theorem after_close {Q : Unit → State → Prop}
    (h : Allocating eofs closed pending (s.tr t)) (hwaits : Waits (s.tr t))
    (hQ : ∀ s', Allocating eofs true (!closed || pending) (s'.tr t) → Waits (s'.tr t) → Q () s') :
    (close t).after system (env starving) (fun _ => []) Q s := by
  simp only [close, Prog.after_bind, after_self, Prog.after_ite, after_act]
  split
  · refine after_closeTransport (h.actState rfl) ?_ hQ
    rw [State.tr_act_self]
    exact hwaits
  · exact after_closeTransport h hwaits hQ

/-- What a request does to the flags. -/
def ReadRequest.flags : Bool × Bool → ReadRequest → Bool × Bool
  | (closed, _), .pause => (closed, true)
  | flags, .resume => flags
  | (closed, pending), .close => (true, !closed || pending)
  | _, .abort => (true, true)

/-- A request sets the flags and does nothing else that matters to reading. -/
theorem Allocating.request {s' : State} (r : ReadRequest) {flags : Bool × Bool}
    (h : Allocating eofs flags.1 flags.2 (s.tr t)) (hwaits : Waits (s.tr t))
    (hexec : Exec system (env starving) (system.entry (r.op t)) s () s') :
    Allocating eofs (r.flags flags).1 (r.flags flags).2 (s'.tr t) ∧ Waits (s'.tr t) := by
  obtain ⟨closed, pending⟩ := flags
  refine hexec.after (Q := fun _ (s' : State) => Allocating eofs _ _ (s'.tr t) ∧ Waits (s'.tr t)) ?_
  change (entry (r.op t)).after system (env starving) (fun _ => []) _ s
  simp only [entry, Prog.after_bind, after_update]
  change Allocating eofs closed pending (s.enter.tr t) at h
  cases r with
  | pause =>
    change (pauseReading t).after system (env starving) _ _ s.enter
    simp only [pauseReading, Prog.after_bind, after_getState, after_self, Prog.after_ite, after_act,
      Prog.after_pure, h.reading, h.allocating]
    exact ⟨h.pendingState, h.pendingState.waits⟩
  | resume =>
    change (resumeReading t >>= fun _ => _ : P Unit).after system (env starving) _ _ s.enter
    simp only [resumeReading, startReading, Prog.after_bind, after_act, after_self, Prog.after_ite,
      Prog.after_pure]
    have h' := h.actState (a := .resumeReading) rfl
    rw [if_pos (by rw [h'.reading]; rfl)]
    refine ⟨h', ?_⟩
    change Waits ((s.enter.act t .resumeReading).tr t)
    rw [State.tr_act_self]
    exact hwaits
  | close =>
    change (close t).after system (env starving) _ _ s.enter
    exact after_close h hwaits fun s' h' hwaits' => ⟨h', hwaits'⟩
  | abort =>
    change (forceClose t .abort none).after system (env starving) _ _ s.enter
    exact after_forceClose h fun s' h' => ⟨h', h'.waits⟩

/-- A list of requests, one after the other. -/
theorem Allocating.requests {reqs : List ReadRequest} {s' : State} {flags : Bool × Bool}
    (h : Allocating eofs flags.1 flags.2 (s.tr t)) (hwaits : Waits (s.tr t))
    (hcalls : Calls system (env starving) (reqs.map (ReadRequest.op t)) s s') :
    Allocating eofs (reqs.foldl ReadRequest.flags flags).1
      (reqs.foldl ReadRequest.flags flags).2 (s'.tr t) ∧ Waits (s'.tr t) := by
  induction reqs generalizing s flags with
  | nil => exact hcalls.eq_of_nil ▸ ⟨h, hwaits⟩
  | cons r reqs ih =>
    obtain ⟨s₁, hexec, hrest⟩ := hcalls.of_cons
    obtain ⟨h₁, hwaits₁⟩ := h.request r hwaits hexec
    exact ih h₁ hwaits₁ hrest

namespace ReadRequest

/-- Closing begins with the first request to close. -/
theorem foldl_flags_fst (reqs : List ReadRequest) (flags : Bool × Bool) :
    (reqs.foldl ReadRequest.flags flags).1 = (flags.1 || reqs.any closes) := by
  induction reqs generalizing flags with
  | nil => simp
  | cons r reqs ih => cases r <;> simp [ReadRequest.flags, ih, closes]

/-- Unless the transport is closed, `onRead` is left what the pauses ask for. -/
theorem foldl_flags_of_open {reqs : List ReadRequest} (hopen : reqs.any closes = false)
    (closed pending : Bool) :
    reqs.foldl flags (closed, pending) = (closed, pending || reqs.any pauses) := by
  induction reqs generalizing pending with
  | nil => simp
  | cons r reqs ih =>
    rw [List.any_cons, Bool.or_eq_false_iff] at hopen
    cases r with
    | close | abort => cases hopen.1
    | pause | resume => simp [flags, ih hopen.2, pauses]

end ReadRequest

end Requests

/-! ## The end of the read -/

section Rest

variable {starving : Prop} {calls : Callback → List Op}

/-- No Python code but `get_buffer` makes calls. -/
def OnlyGetBuffer (t : ℕ) (calls : Callback → List Op) : Prop :=
  ∀ c, c ≠ .protocol t .getBuffer → calls c = []

/-- How often `get_buffer` has been called. -/
def Transport.getBuffers (tr : Transport) : ℕ := tr.history.countP (· = .called .getBuffer)

/-- One turn of `uv__read`, once the protocol has been asked for a buffer. -/
def received (t : ℕ) (room : Bool) : P Unit := do
  if room then
    let a ← request .read
    if a.status = uvEOF then
      act t .uvReadEnd
      onRead t a.status
    else
      onRead t a.status
      if a.status < 0 then act t .uvReadEnd
  else onRead t uvENOBUFS

/-- A program that does not call `get_buffer`. -/
abbrev Spares (t : ℕ) (starving : Prop) (calls : Callback → List Op) {α : Type} (p : P α) : Prop :=
  p.Follows system (env starving) calls fun s s' => (s'.tr t).getBuffers = (s.tr t).getBuffers

namespace Spares

variable {α β : Type}

theorem bind {p : P α} {f : α → P β} (hp : Spares t starving calls p)
    (hf : ∀ a, Spares t starving calls (f a)) : Spares t starving calls (p >>= f) :=
  Prog.Follows.bind (fun _ _ _ h₁ h₂ => h₂.trans h₁) hp hf

theorem ite {c : Prop} [Decidable c] {p q : P α} (hp : Spares t starving calls p)
    (hq : Spares t starving calls q) : Spares t starving calls (if c then p else q) :=
  Prog.Follows.ite hp hq

theorem pure (a : α) : Spares t starving calls (Pure.pure a : P α) := fun _ => rfl

theorem self (u : ℕ) : Spares t starving calls (Stream.self u) := fun _ => rfl

theorem request (q : Request) : Spares t starving calls (Stream.request q) := fun _ _ _ => rfl

theorem alloc : Spares t starving calls Stream.alloc := fun _ _ _ => rfl

theorem act {a : Act} (ha : a ≠ .call .getBuffer) : Spares t starving calls (Stream.act t a) := by
  intro s
  change ((s.act t a).tr t).getBuffers = (s.tr t).getBuffers
  rw [State.tr_act_self, Transport.getBuffers, a.history_run, List.countP_append]
  cases he : a.event (s.tr t) with
  | none => rfl
  | some e =>
    have hnot : e ≠ .called .getBuffer := by
      rintro rfl
      rcases Act.records_of_event he with rfl | ⟨hflow, -⟩
      · exact ha rfl
      · cases hflow
    simp [Transport.getBuffers, hnot]

theorem foreign (hcalls : OnlyGetBuffer t calls) {c : Callback} (hc : c ≠ .protocol t .getBuffer) :
    Spares t starving calls (Stream.foreign c) :=
  fun _ => (after_foreign (hcalls c hc) _).mpr fun _ => rfl

theorem python (hcalls : OnlyGetBuffer t calls) {c : Callback} (hc : c ≠ .protocol t .getBuffer) :
    Spares t starving calls (Stream.python c) :=
  fun _ => (after_python (hcalls c hc) _).mpr fun _ => rfl

variable (hcalls : OnlyGetBuffer t calls)

include hcalls

theorem shutdownAndClose : Spares t starving calls (shutdownAndClose t) := by
  have huv : Spares t starving calls (update fun s => s.uvClose t) := by
    -- `uv_close` is an act as well
    have hact : Spares t starving calls (Stream.act t .uvClose) := .act nofun
    exact hact
  have hclose : Spares t starving calls (closeExternalHandle t) :=
    .bind (.self t) fun _ => .ite huv (.pure ())
  have hrelease : Spares t starving calls (releaseSocketView t) :=
    .bind (.self t) fun _ => .ite (.bind (.act nofun) fun _ => .python hcalls nofun) (.pure ())
  have hrest := hrelease.bind fun _ => hclose
  exact .bind (.self t) fun _ => .ite (.bind (.act nofun) fun _ =>
    .ite (.bind (.act nofun) fun _ => hrest) hrest) (.pure ())

theorem forceClose (cause : Cause) (exc : Option Exc) :
    Spares t starving calls (forceClose t cause exc) := by
  refine .bind (.act nofun) fun _ => .bind (.act nofun) fun _ => .bind (.act nofun) fun _ =>
    .bind (.act nofun) fun _ => .bind (.act nofun) fun _ => .bind (.self t) fun _ => ?_
  exact .ite (.act nofun) (shutdownAndClose hcalls)

theorem callProtocol {m : Method} (hm : m ≠ .getBuffer) :
    Spares t starving calls (callProtocol t m) := by
  refine .bind (.self t) fun _ => .ite (.bind (.foreign hcalls ?_) fun _ => ?_) (.pure ())
  · exact fun h => hm (Callback.protocol.inj h).2
  · exact .ite (.python hcalls nofun) (.pure ())

theorem maybePauseProtocol : Spares t starving calls (maybePauseProtocol t) :=
  .bind (.self t) fun _ => .ite (.pure ()) (.ite (.pure ())
    (.bind (.act nofun) fun _ => callProtocol hcalls nofun))

theorem maybeResumeProtocol : Spares t starving calls (maybeResumeProtocol t) :=
  .bind (.self t) fun _ => .ite (.pure ()) (.ite (.pure ()) (.ite (.pure ())
    (.bind (.act nofun) fun _ => callProtocol hcalls nofun)))

theorem queueWrite (fresh : Bytes) (bufs : List Bytes) (views : List ℕ) :
    Spares t starving calls (queueWrite t fresh bufs views) := by
  refine .ite (.bind (.act nofun) fun _ => .pure _) (.bind .alloc fun _ => .ite
    (.bind (.act nofun) fun _ => .pure _) (.bind (.request _) fun _ => .ite
      (.bind (.act nofun) fun _ => .pure _) ?_))
  exact .bind (.act nofun) fun _ => .bind (maybePauseProtocol hcalls) fun _ => .pure _

theorem writeBufs (bufs : List Bytes) (views : List ℕ) :
    Spares t starving calls (writeBufs t .batch bufs views) := by
  have hrefuse : ∀ r : Except Exc Bool, Spares t starving calls
      (Stream.act t (.releaseViews views) >>= fun _ => Pure.pure r) :=
    fun r => .bind (.act nofun) fun _ => .pure r
  refine .bind (.bind (.self t) fun _ => .ite (hrefuse _) (.ite (hrefuse _) (.pure _)))
    fun r => ?_
  match r with
  | .error _ => exact .pure _
  | .ok false => exact .pure _
  | .ok true =>
    refine .bind (.self t) fun _ => .ite (.bind (.request _) fun _ => .ite (.bind (.act nofun)
      fun _ => .ite (.bind (.act nofun) fun _ => .pure _) ?_) (.ite ?_ (queueWrite hcalls _ _ _)))
      (queueWrite hcalls _ _ _)
    · refine .bind (queueWrite hcalls _ _ _) fun r => ?_
      match r with
      | .ok () => exact .pure _
      | .error _ => exact .bind (.pure ()) fun _ => .pure _
    · exact .bind (.act nofun) fun _ => .bind (forceClose hcalls _ _) fun _ => .pure _

theorem closeTransport : Spares t starving calls (closeTransport t) := by
  have hflush : Spares t starving calls (flushPending t) := by
    refine .bind (.self t) fun tr => .ite (.pure ()) (.bind (.act nofun) fun _ =>
      .bind (writeBufs hcalls _ _) fun r => ?_)
    match r with
    | .error _ => exact forceClose hcalls _ _
    | .ok () => exact maybeResumeProtocol hcalls
  have hclose : ∀ tr : Transport, Spares t starving calls
      (if tr.writeBufferSize = 0 then Stream.shutdownAndClose t else Pure.pure ()) :=
    fun _ => .ite (shutdownAndClose hcalls) (.pure ())
  refine .bind (.act nofun) fun _ => .bind (.self t) fun _ => .ite (.pure ()) (.bind hflush
    fun _ => .bind (.act nofun) fun _ => .bind (.self t) fun tr => ?_)
  exact .ite (.act nofun) (.ite (.bind (.act nofun) fun _ => hclose tr) (hclose tr))

theorem callInContext {m : Method} (hm : m ≠ .getBuffer) :
    Spares t starving calls (callInContext t m) := by
  refine .bind (.self t) fun _ => .ite (.bind (.request _) fun _ => .ite (.bind (.act ?_) fun _ =>
    .bind (.foreign hcalls ?_) fun r => ?_) (.python hcalls nofun)) (.pure ())
  · exact fun h => hm (Act.call.inj h)
  · exact fun h => hm (Callback.protocol.inj h).2
  split
  · exact .pure ()
  · exact .bind (fun _ => rfl) fun _ => forceClose hcalls _ _
  · exact .bind (.python hcalls nofun) fun _ => forceClose hcalls _ _

theorem onRead (nread : Int) : Spares t starving calls (onRead t nread) := by
  have hdeferred : Spares t starving calls (finishDeferred t) := by
    have hclose : ∀ tr : Transport, Spares t starving calls
        (if tr.closing && tr.writeBufferSize == 0 then Stream.shutdownAndClose t
          else Pure.pure ()) := fun _ => .ite (shutdownAndClose hcalls) (.pure ())
    exact .bind (.act nofun) fun _ => .bind (.self t) fun tr =>
      .ite (.bind (.act nofun) fun _ => hclose tr) (hclose tr)
  have hdeliver : ∀ buffered, Spares t starving calls (deliver t buffered) := fun _ =>
    .bind .alloc fun _ => .ite (forceClose hcalls _ _)
      (.ite (callInContext hcalls nofun) (callInContext hcalls nofun))
  have heof : Spares t starving calls (handleEof t) :=
    .bind (.act nofun) fun _ => .bind (.self t) fun _ => .ite (.bind (.act nofun) fun _ =>
      .bind (.foreign hcalls nofun) fun _ => .ite (.bind (.python hcalls nofun) fun _ =>
        closeTransport hcalls) (.ite (closeTransport hcalls) (.pure ()))) (closeTransport hcalls)
  exact .bind (.self t) fun _ => .bind (.act nofun) fun _ => .ite hdeferred (.ite
    (.ite (.ite (forceClose hcalls _ _) (closeTransport hcalls)) (.pure ()))
    (.ite (hdeliver _) (.ite (.ite heof (forceClose hcalls _ _)) (.pure ()))))

theorem received (room : Bool) : Spares t starving calls (received t room) :=
  .ite (.bind (.request _) fun _ => .ite (.bind (.act nofun) fun _ => onRead hcalls _)
    (.bind (onRead hcalls _) fun _ => .ite (.act nofun) (.pure ()))) (onRead hcalls _)

end Spares

/-- A transport that is closing and does not read. -/
structure Stopped (eofs : ℕ) (tr : Transport) : Prop where
  /-- `CLOSING` is set. -/
  closing : tr.closing = true
  /-- `READING` is not. -/
  reading : tr.reading = false
  /-- The end of the file has not been met again. -/
  eofs : tr.history.countP Event.isEof = eofs

/-- The acts of a teardown. -/
def Act.tearsDown : Act → Bool
  | .clearOpen | .readStop | .takeSocketView | .uvClose => true
  | _ => false

theorem Act.closing_of_tearsDown {a : Act} (ha : a.tearsDown = true) {tr : Transport}
    (h : tr.closing = true) : (a.run tr).closing = true := by
  cases a with
  | clearOpen | readStop | takeSocketView | uvClose => exact h
  | _ => cases ha

theorem Stopped.act {tr : Transport} (h : Stopped eofs tr) {a : Act} (ha : a.tearsDown = true) :
    Stopped eofs (a.run tr) := by
  obtain ⟨hclosing, hreading, heofs⟩ := h
  cases a with
  | clearOpen | takeSocketView => exact ⟨hclosing, hreading, heofs⟩
  | readStop => exact ⟨hclosing, rfl, heofs⟩
  | uvClose =>
    refine ⟨hclosing, hreading, ?_⟩
    change (tr.history ++ [Event.uvClose _]).countP Event.isEof = eofs
    rw [List.countP_append, heofs]
    rfl
  | _ => cases ha

/-- A teardown closes the handle of an open transport, and keeps what its acts keep. -/
theorem after_shutdownAndClose {I : Transport → Prop} {Q : Unit → State → Prop}
    (hcalls : OnlyGetBuffer t calls)
    (hact : ∀ a : Act, a.tearsDown = true → ∀ tr, I tr → I (a.run tr)) (h : I (s.tr t))
    (hQ : ∀ s', I (s'.tr t) → ((s.tr t).opened = true → (s'.tr t).stream.closing = true) →
      Q () s') :
    (shutdownAndClose t).after system (env starving) calls Q s := by
  have hstate : ∀ (s₁ : State) (a : Act), a.tearsDown = true → I (s₁.tr t) →
      I ((s₁.act t a).tr t) := fun s₁ a ha h₁ => by
    rw [State.tr_act_self]
    exact hact a ha _ h₁
  have hclose : ∀ s₁ : State, I (s₁.tr t) →
      (closeExternalHandle t).after system (env starving) calls Q s₁ := by
    intro s₁ h₁
    simp only [closeExternalHandle, Prog.after_bind, after_self, Prog.after_ite, after_update,
      Prog.after_pure]
    split
    · have htr : (s₁.uvClose t).tr t = Act.uvClose.run (s₁.tr t) := State.tr_act_self ..
      exact hQ _ (by rw [htr]; exact hact _ rfl _ h₁) fun _ => by rw [htr]; rfl
    · rename_i huv
      exact hQ s₁ h₁ fun _ => by simpa using huv
  have hrelease : ∀ s₁ : State, I (s₁.tr t) →
      (releaseSocketView t >>= fun _ => closeExternalHandle t : P Unit).after system (env starving)
        calls Q s₁ := by
    intro s₁ h₁
    simp only [releaseSocketView, Prog.after_bind, after_self, Prog.after_ite, after_act,
      Prog.after_pure]
    split
    · exact (after_python (hcalls _ (by simp)) _).mpr fun _ => hclose _ (hstate s₁ _ rfl h₁)
    · exact hclose s₁ h₁
  simp only [shutdownAndClose, Prog.after_bind, after_self, Prog.after_ite, after_act,
    Prog.after_pure]
  have h₁ := hstate s .clearOpen rfl h
  split
  · split
    · exact (Prog.after_bind _ _ _ _).mp (hrelease _ (hstate _ .readStop rfl h₁))
    · exact (Prog.after_bind _ _ _ _).mp (hrelease _ h₁)
  · rename_i hopened
    exact hQ s h fun ho => absurd ho hopened

theorem closing_setClosing (s : State) (t : ℕ) : ((s.act t .setClosing).tr t).closing = true := by
  rw [State.tr_act_self]
  change Transport.closing (if _ then _ else _) = true
  split
  · assumption
  · rfl

/-- A close by force closes the handle of an open transport. -/
theorem after_forceClose_closing {cause : Cause} {exc : Option Exc} {Q : Unit → State → Prop}
    (hcalls : OnlyGetBuffer t calls) (hopened : (s.tr t).opened = true)
    (halloc : (s.tr t).allocatingReadBuffer = false)
    (hQ : ∀ s', (s'.tr t).closing = true → (s'.tr t).stream.closing = true → Q () s') :
    (forceClose t cause exc).after system (env starving) calls Q s := by
  simp only [forceClose, Prog.after_bind, after_act, after_self, Prog.after_ite]
  have h₁ := closing_setClosing (((s.act t .setCloseRequested).act t .discardPending).act t
    (.force cause exc)) t
  have hflags : ∀ tr : Transport, (Act.setClosing.run tr).opened = tr.opened ∧
      (Act.setClosing.run tr).allocatingReadBuffer = tr.allocatingReadBuffer := by
    intro tr
    simp only [Act.run]
    split <;> exact ⟨rfl, rfl⟩
  rw [if_neg]
  · refine after_shutdownAndClose (I := fun tr => tr.closing = true) hcalls
      (fun _ ha _ => Act.closing_of_tearsDown ha) ?_ fun s' h' huv => hQ s' h' (huv ?_)
    · rw [State.tr_act_self]
      exact h₁
    · rw [State.tr_act_self, State.tr_act_self]
      refine (hflags _).1.trans ?_
      rw [State.tr_act_self, State.tr_act_self, State.tr_act_self]
      exact hopened
  · rw [State.tr_act_self, State.tr_act_self, Bool.not_eq_true]
    refine (hflags _).2.trans ?_
    rw [State.tr_act_self, State.tr_act_self, State.tr_act_self]
    exact halloc

/-- A transport that is closed is closing. One that was closing is left alone. -/
theorem after_closeTransport_closing {Q : Unit → State → Prop} (hcalls : OnlyGetBuffer t calls)
    (hQ : ∀ s', (s'.tr t).closing = true → ((s.tr t).closing = true →
      (s'.tr t).writeBufferSize = (s.tr t).writeBufferSize) → Q () s') :
    (closeTransport t).after system (env starving) calls Q s := by
  simp only [closeTransport, Prog.after_bind, after_act, after_self, Prog.after_ite,
    Prog.after_pure]
  have hrun : ((s.act t .setCloseRequested).tr t).closing = (s.tr t).closing := by
    rw [State.tr_act_self]
    rfl
  split
  · rename_i hclosing
    refine hQ _ hclosing fun _ => ?_
    rw [State.tr_act_self]
    rfl
  rename_i hopen
  have hQ' : ∀ s' : State, (s'.tr t).closing = true → Q () s' :=
    fun s' h' => hQ s' h' fun h => absurd (hrun.trans h) hopen
  refine Prog.after_of_forall fun _ s₁ => ?_
  have h₁ := closing_setClosing s₁ t
  have hrest : ∀ tr : Transport, ∀ s₂ : State, (s₂.tr t).closing = true →
      if tr.writeBufferSize = 0 then
        (shutdownAndClose t).after system (env starving) calls Q s₂
      else Q () s₂ := by
    intro tr s₂ h₂
    split
    · exact after_shutdownAndClose (I := fun tr => tr.closing = true) hcalls
        (fun _ ha _ => Act.closing_of_tearsDown ha) h₂ fun s' h' _ => hQ' s' h'
    · exact hQ' s₂ h₂
  split
  · refine hQ' _ ?_
    rw [State.tr_act_self]
    exact h₁
  split
  · refine hrest _ _ ?_
    rw [State.tr_act_self]
    exact h₁
  · exact hrest _ _ h₁

/-! ## `onRead` -/

/-- What `onRead` leaves behind, if the end of the file had been met `eofs` times. -/
structure Finished (eofs : ℕ) (closed pending : Bool) (tr : Transport) : Prop where
  /-- A transport that was closed is closing, and waits for writes only. -/
  closes : closed = true →
    tr.closing = true ∧ (tr.stream.closing = true ∨ 0 < tr.writeBufferSize)
  /-- `READ_STATE_PENDING` stops reading. -/
  stops : pending = true →
    tr.reading = false ∧ tr.closing = closed ∧ tr.history.countP Event.isEof = eofs
  /-- Reading goes on otherwise, unless the read ended it. -/
  goesOn : closed = false → pending = false →
    tr.reading = true ∨ tr.closing = true ∨ eofs < tr.history.countP Event.isEof

/-- A read that closes the transport. -/
theorem Finished.of_closing {tr : Transport} (hclosing : tr.closing = true)
    (h : closed = true → tr.stream.closing = true ∨ 0 < tr.writeBufferSize) :
    Finished eofs closed false tr :=
  ⟨fun hc => ⟨hclosing, h hc⟩, nofun, fun _ _ => .inr (.inl hclosing)⟩

/-- libuv stops reading of its own accord. -/
theorem Finished.uvReadEnd {tr : Transport} (h : Finished eofs closed pending tr) :
    Finished eofs closed pending (Act.uvReadEnd.run tr) :=
  ⟨h.closes, h.stops, h.goesOn⟩

/-- The transport during `onRead`, when nothing is left to it. -/
structure Serving (eofs : ℕ) (closed : Bool) (tr : Transport) : Prop where
  /-- `OPEN` is set. -/
  opened : tr.opened = true
  /-- No receive buffer is being allocated. -/
  allocating : tr.allocatingReadBuffer = false
  /-- `CLOSING`. -/
  closing : tr.closing = closed
  /-- A transport that is closing waits for writes. -/
  waits : closed = true → 0 < tr.writeBufferSize
  /-- The end of the file has not been met again. -/
  eofs : tr.history.countP Event.isEof = eofs

/-- A transport that goes on reading. -/
theorem Serving.finished {tr : Transport} (h : Serving eofs closed tr)
    (hreading : tr.reading = true) :
    Finished eofs closed false tr :=
  ⟨fun hc => ⟨h.closing.trans hc, .inr (h.waits hc)⟩, nofun, fun _ _ => .inl hreading⟩

theorem Serving.after_forceClose {cause : Cause} {exc : Option Exc} {Q : Unit → State → Prop}
    (hcalls : OnlyGetBuffer t calls) (h : Serving eofs closed (s.tr t))
    (hQ : ∀ s', Finished eofs closed false (s'.tr t) → Q () s') :
    (forceClose t cause exc).after system (env starving) calls Q s :=
  after_forceClose_closing hcalls h.opened h.allocating fun s' hclosing huv =>
    hQ s' (.of_closing hclosing fun _ => .inl huv)

/-- A close in good order, with what was waited for still to wait for. -/
theorem after_closeTransport_finished {Q : Unit → State → Prop} (hcalls : OnlyGetBuffer t calls)
    (hclosing : (s.tr t).closing = closed) (hwaits : closed = true → 0 < (s.tr t).writeBufferSize)
    (hQ : ∀ s', Finished eofs closed false (s'.tr t) → Q () s') :
    (closeTransport t).after system (env starving) calls Q s := by
  refine after_closeTransport_closing hcalls fun s' h' hsize => hQ s' (.of_closing h' fun hc => ?_)
  rw [hsize (hclosing.trans hc)]
  exact .inr (hwaits hc)

theorem Serving.after_handleEof {Q : Unit → State → Prop} (hcalls : OnlyGetBuffer t calls)
    (h : Serving eofs closed (s.tr t)) (hQ : ∀ s', Finished eofs closed false (s'.tr t) → Q () s') :
    (handleEof t).after system (env starving) calls Q s := by
  simp only [handleEof, Prog.after_bind, after_act, after_self, Prog.after_ite, Prog.after_pure]
  have hstop : ((s.act t .readStop).tr t) = Act.readStop.run (s.tr t) := State.tr_act_self ..
  split
  swap
  · refine after_closeTransport_finished hcalls ?_ ?_ hQ <;> rw [hstop]
    · exact h.closing
    · exact h.waits
  have hcall : (((s.act t .readStop).act t (.call .eofReceived)).tr t) =
      (Act.call .eofReceived).run (Act.readStop.run (s.tr t)) := by
    rw [State.tr_act_self, hstop]
  have hclose : (closeTransport t).after system (env starving) calls Q
      ((s.act t .readStop).act t (.call .eofReceived)) := by
    refine after_closeTransport_finished hcalls ?_ ?_ hQ <;> rw [hcall]
    · exact h.closing
    · exact h.waits
  refine (after_foreign (hcalls _ (by simp)) _).mpr fun r => ?_
  split
  · exact (after_python (hcalls _ (by simp)) _).mpr fun _ => hclose
  split
  · exact hclose
  · -- the protocol keeps the transport open
    refine hQ _ ⟨fun hc => ?_, by simp, fun _ _ => .inr (.inr ?_)⟩ <;> rw [hcall]
    · exact ⟨h.closing.trans hc, .inr (h.waits hc)⟩
    · change eofs < ((s.tr t).history ++ [Event.called .eofReceived]).countP Event.isEof
      rw [List.countP_append, h.eofs]
      exact Nat.lt_succ_self _

theorem Serving.after_deliver {buffered : Bool} {Q : Unit → State → Prop}
    (hcalls : OnlyGetBuffer t calls) (h : Serving eofs closed (s.tr t))
    (hreading : (s.tr t).reading = true)
    (hQ : ∀ s', Finished eofs closed false (s'.tr t) → Q () s') :
    (deliver t buffered).after system (env starving) calls Q s := by
  have hcontext : ∀ m : Method, m ≠ .getBuffer → m ≠ .eofReceived →
      (callInContext t m).after system (env starving) calls Q s := by
    intro m hm heof
    have hquiet : calls (.protocol t m) = [] := hcalls _ fun h => hm (Callback.protocol.inj h).2
    have h₁ : Serving eofs closed ((s.act t (.call m)).tr t) := by
      rw [State.tr_act_self]
      refine ⟨h.opened, h.allocating, h.closing, h.waits, ?_⟩
      change ((s.tr t).history ++ [Event.called m]).countP Event.isEof = eofs
      rw [List.countP_append, h.eofs]
      cases m with
      | eofReceived => exact absurd rfl heof
      | _ => rfl
    simp only [callInContext, Prog.after_bind, after_self, Prog.after_ite, after_request, after_act,
      Prog.after_pure]
    split
    swap
    · exact hQ s (h.finished hreading)
    intro a _
    split
    swap
    · exact (after_python (hcalls _ (by simp)) _).mpr fun _ => hQ s (h.finished hreading)
    refine (after_foreign hquiet _).mpr fun r => ?_
    split
    · refine hQ _ (h₁.finished ?_)
      rw [State.tr_act_self]
      exact hreading
    · exact Serving.after_forceClose hcalls h₁ hQ
    · rw [Prog.after_bind]
      exact (after_python (hcalls _ (by simp)) _).mpr fun _ => h₁.after_forceClose hcalls hQ
  simp only [deliver, Prog.after_bind, after_alloc, Prog.after_ite]
  intro ok _
  split
  · exact h.after_forceClose hcalls hQ
  split
  · exact hcontext _ (by simp) (by simp)
  · exact hcontext _ (by simp) (by simp)

/-- What `onRead` does with the flags that the requests left. -/
theorem after_onRead {nread : Int} {Q : Unit → State → Prop} (hcalls : OnlyGetBuffer t calls)
    (h : Allocating eofs closed pending (s.tr t)) (hwaits : Waits (s.tr t))
    (hQ : ∀ s', Finished eofs closed pending (s'.tr t) → Q () s') :
    (onRead t nread).after system (env starving) calls Q s := by
  simp only [onRead, Prog.after_bind, after_self, after_act, Prog.after_ite, Prog.after_pure]
  have hrun : ((s.act t (.setAllocating false)).tr t) =
      (Act.setAllocating false).run (s.tr t) := State.tr_act_self ..
  rw [h.allocating, Bool.true_and, h.pending]
  cases pending with
  | true =>
    -- the flag is cleared, and reading stops
    rw [if_pos rfl]
    simp only [finishDeferred, Prog.after_bind, after_act, after_self, Prog.after_ite,
      Prog.after_pure]
    have hclear : ((s.act t (.setAllocating false)).act t .clearReadStatePending).tr t =
        Act.clearReadStatePending.run ((Act.setAllocating false).run (s.tr t)) := by
      rw [State.tr_act_self, hrun]
    have htr : (((s.act t (.setAllocating false)).act t .clearReadStatePending).act t
        .readStop).tr t =
        Act.readStop.run
          (Act.clearReadStatePending.run ((Act.setAllocating false).run (s.tr t))) := by
      rw [State.tr_act_self, hclear]
    have hreading : (Act.clearReadStatePending.run
        ((Act.setAllocating false).run (s.tr t))).reading = true := h.reading
    rw [hclear, if_pos hreading]
    have heofs := h.eofs
    split
    · -- a close that waited for `onRead` only
      rename_i hdone
      obtain ⟨hclosing, -⟩ := Bool.and_eq_true_iff.mp hdone
      have hopen : (s.tr t).closing = closed := h.closing
      refine after_shutdownAndClose (I := Stopped eofs) hcalls (fun _ ha _ h => h.act ha) ?_
        fun s' h' huv => hQ s' ⟨fun _ => ⟨h'.closing, .inl (huv ?_)⟩,
          fun _ => ⟨h'.reading, h'.closing.trans (hclosing.symm.trans hopen), h'.eofs⟩, by simp⟩
      · rw [htr]
        exact ⟨hclosing, rfl, heofs⟩
      · rw [htr]
        exact h.opened
    · rename_i hwait
      refine hQ _ ⟨fun hc => ?_, fun _ => ?_, by simp⟩ <;> rw [htr]
      · have hclosing : (s.tr t).closing = true := h.closing.trans hc
        refine ⟨hclosing, .inr (Nat.pos_of_ne_zero fun hzero => hwait ?_)⟩
        exact Bool.and_eq_true_iff.mpr ⟨hclosing, beq_iff_eq.mpr hzero⟩
      · exact ⟨rfl, h.closing, heofs⟩
  | false =>
    rw [if_neg Bool.false_ne_true]
    have h₁ : Serving eofs closed ((s.act t (.setAllocating false)).tr t) := by
      rw [hrun]
      exact ⟨h.opened, rfl, h.closing, fun hc => hwaits (h.closing.trans hc) h.pending, h.eofs⟩
    have hreading : ((s.act t (.setAllocating false)).tr t).reading = true := by
      rw [hrun]
      exact h.reading
    have hclose : ∀ cause exc, (forceClose t cause exc).after system (env starving) calls Q
        (s.act t (.setAllocating false)) := fun _ _ => h₁.after_forceClose hcalls hQ
    split
    · split
      · split
        · exact hclose _ _
        · exact after_closeTransport_finished hcalls h₁.closing h₁.waits hQ
      · exact hQ _ (h₁.finished hreading)
    split
    · exact h₁.after_deliver hcalls hreading hQ
    split
    · split
      · exact h₁.after_handleEof hcalls hQ
      · exact hclose _ _
    · exact hQ _ (h₁.finished hreading)

/-- The flags that the requests leave, if they are made one after the other. -/
def ReadRequest.result (closed : Bool) (reqs : List ReadRequest) : Bool × Bool :=
  reqs.foldl ReadRequest.flags (closed, false)

/-- The callback of a read during which `get_buffer` makes these requests, if it is called. -/
theorem after_readable {reqs : List ReadRequest} {Q : Unit → State → Prop}
    (h : Allocating eofs closed false ((s.act t (.setAllocating true)).tr t))
    (hwaits : closed = true → 0 < (s.tr t).writeBufferSize)
    (hQ : ∀ s', ((s.tr t).getBuffers < (s'.tr t).getBuffers →
      Finished eofs (ReadRequest.result closed reqs).1 (ReadRequest.result closed reqs).2
        (s'.tr t)) → Q () s') :
    (readable t).after system (env starving) (insideGetBuffer t reqs) Q s := by
  have hcalls : OnlyGetBuffer t (insideGetBuffer t reqs) := fun c hc => if_neg hc
  have hreadable : readable t = (onAlloc t >>= received t) := rfl
  rw [hreadable, Prog.after_bind]
  -- nothing is promised of a read that does not call `get_buffer`
  have hnone : ∀ (room : Bool) (s₁ : State), (s₁.tr t).getBuffers = (s.tr t).getBuffers →
      (received t room).after system (env starving) (insideGetBuffer t reqs) Q s₁ :=
    fun room s₁ h₁ => Prog.after_mono (Spares.received hcalls room s₁) fun _ s' h' =>
      hQ s' fun hlt => absurd (h'.trans h₁) hlt.ne'
  have hset : ((s.act t (.setAllocating true)).tr t).getBuffers = (s.tr t).getBuffers := by
    rw [State.tr_act_self]
    rfl
  have hdone : ∀ (room : Bool) (s₁ : State),
      Allocating eofs (ReadRequest.result closed reqs).1 (ReadRequest.result closed reqs).2
        (s₁.tr t) → Waits (s₁.tr t) →
      (received t room).after system (env starving) (insideGetBuffer t reqs) Q s₁ := by
    intro room s₁ h₁ hwaits₁
    simp only [received, Prog.after_ite, Prog.after_bind, after_request, after_act,
      Prog.after_pure]
    split
    swap
    · exact after_onRead hcalls h₁ hwaits₁ fun s' h' => hQ s' fun _ => h'
    intro a _
    split
    · refine after_onRead hcalls (h₁.actState rfl) ?_ fun s' h' => hQ s' fun _ => h'
      rw [State.tr_act_self]
      exact hwaits₁
    · refine after_onRead hcalls h₁ hwaits₁ fun s' h' => ?_
      split
      · refine hQ _ fun _ => ?_
        rw [State.tr_act_self]
        exact h'.uvReadEnd
      · exact hQ s' fun _ => h'
  simp only [onAlloc, Prog.after_bind, after_self, Prog.after_ite, after_act, after_alloc,
    after_request, Prog.after_pure]
  split
  swap
  · exact fun room _ => hnone room s rfl
  intro ok _
  split
  swap
  · exact hnone false _ hset
  -- `get_buffer` is called, and makes its requests
  rw [after_foreign_calls]
  intro s₁ hreqs r
  rw [insideGetBuffer, if_pos rfl] at hreqs
  have hcalled : Allocating eofs closed false
      (((s.act t (.setAllocating true)).act t (.call .getBuffer)).tr t) := by
    rw [State.tr_act_self]
    exact h.called
  have hwaiting : Waits (((s.act t (.setAllocating true)).act t (.call .getBuffer)).tr t) := by
    intro hclosing _
    have hopen := hcalled.closing
    rw [State.tr_act_self, State.tr_act_self] at hclosing hopen ⊢
    exact hwaits (hopen.symm.trans hclosing)
  obtain ⟨h₁, hwaits₁⟩ :=
    Allocating.requests (show Allocating eofs (closed, false).1 (closed, false).2 _ from hcalled)
      hwaiting hreqs
  have hreport : ∀ r, Result → (received t r).after system (env starving) (insideGetBuffer t reqs)
      Q s₁ := fun r _ => hdone r s₁ h₁ hwaits₁
  split
  · exact (after_python (hcalls _ (by simp)) _).mpr (hreport false)
  intro a _
  split
  · exact hdone _ s₁ h₁ hwaits₁
  · exact (after_python (hcalls _ (by simp)) _).mpr (hreport false)

end Rest

/-! ## The last request -/

/-- A request that takes effect: closing the transport, pausing it, or resuming it if it was not
paused before. -/
def Honoured (reqs : List ReadRequest) : Prop :=
  reqs.any ReadRequest.closes = true ∨ ReadRequest.wanted reqs ≠ some true ∨
    reqs.any ReadRequest.pauses = false

theorem ReadRequest.wanted_concat (reqs : List ReadRequest) (r : ReadRequest) :
    wanted (reqs ++ [r]) = match r with
      | pause => some false
      | resume => some true
      | _ => wanted reqs := by
  cases r <;> simp [wanted]

/-- Whoever wants reading to stop has paused it. -/
theorem ReadRequest.any_pauses {reqs : List ReadRequest} (h : wanted reqs = some false) :
    reqs.any pauses = true := by
  induction reqs using List.reverseRecOn with
  | nil => cases h
  | append_singleton reqs r ih =>
    rw [wanted_concat] at h
    rw [List.any_append, Bool.or_eq_true]
    cases r with
    | pause => exact .inr rfl
    | resume => cases h
    | close | abort => exact .inl (ih h)

/-- A transport that may read, outside every native call. -/
theorem Inv.allocating {s : State} {t : ℕ} (hinv : Inv True s)
    (hstart : Startable s (.readable t)) :
    Allocating ((s.tr t).history.countP Event.isEof) (s.tr t).closing false
      ((s.enter.act t (.setAllocating true)).tr t) ∧
    ((s.tr t).closing = true → 0 < (s.tr t).writeBufferSize) := by
  obtain ⟨hmade, ⟨hreading, hopen⟩, hdepth, -⟩ := hstart
  have hmade : (s.tr t).made = true := by simpa [Op.transport?] using hmade
  have hrest := hinv.rest hdepth
  have hsane := hinv.reach.sane t
  have hbase := (hinv.settled t).base
  have hopened : (s.tr t).opened = true := by
    rw [← Bool.not_eq_false]
    intro ho
    rcases hsane.closed hmade ho with hclosing | hdisarming
    · rw [hopen] at hclosing
      cases hclosing
    · rw [hrest.disarming t] at hdisarming
      cases hdisarming
  have hpending : (s.tr t).readStatePending = false := by
    rw [← Bool.not_eq_true]
    intro hpending
    have halloc := hbase.pendingRead hpending
    rw [hrest.allocating t] at halloc
    cases halloc
  refine ⟨?_, fun hclosing => (hbase.live hclosing hopened).resolve_right ?_⟩
  · rw [State.tr_act_self]
    exact ⟨hopened, hopen, rfl, hsane.reading hreading, rfl, hpending, rfl⟩
  · rw [hpending]
    exact Bool.false_ne_true

/-- After the read the last request made inside `get_buffer` holds, unless the transport was paused
and then resumed. -/
theorem requests_take_effect_iff {s s' : State} {stack : List (Callback × (Result → P Unit))}
    (h : system.Reachable (env True) ⟨s, none, stack⟩) {t : ℕ} {reqs : List ReadRequest}
    (hstart : Startable s (.readable t))
    (hexec : ExecCalling system (env True) (insideGetBuffer t reqs) (system.entry (.readable t)) s
      () s')
    (hcalled : (s.tr t).getBuffers < (s'.tr t).getBuffers) :
    TakesEffect reqs (s.tr t) (s'.tr t) ↔ (s.tr t).closing = true ∨ Honoured reqs := by
  have hinv : Inv True s := (verified True).in_foreign (not_quiet True) h
  obtain ⟨halloc, hwaits⟩ := hinv.allocating hstart
  have hfinished : (s.tr t).getBuffers < (s'.tr t).getBuffers →
      Finished ((s.tr t).history.countP Event.isEof)
        (ReadRequest.result (s.tr t).closing reqs).1 (ReadRequest.result (s.tr t).closing reqs).2
        (s'.tr t) := by
    refine hexec.after (Q := fun _ (s₁ : State) =>
      (s.tr t).getBuffers < (s₁.tr t).getBuffers → Finished _ _ _ (s₁.tr t)) ?_
    change (entry (.readable t)).after system (env True) (insideGetBuffer t reqs) _ s
    simp only [entry, Prog.after_bind, after_update]
    exact after_readable halloc hwaits fun s' h' => h'
  replace hfinished := hfinished hcalled
  have hclosed : (ReadRequest.result (s.tr t).closing reqs).1 =
      ((s.tr t).closing || reqs.any ReadRequest.closes) := ReadRequest.foldl_flags_fst reqs _
  unfold TakesEffect Honoured
  cases hcloses : reqs.any ReadRequest.closes with
  | true =>
    rw [if_pos rfl]
    refine iff_of_true (hfinished.closes ?_) (.inr (.inl rfl))
    rw [hclosed, hcloses, Bool.or_true]
  | false =>
    rw [if_neg Bool.false_ne_true]
    have hresult : ReadRequest.result (s.tr t).closing reqs =
        ((s.tr t).closing, reqs.any ReadRequest.pauses) := by
      rw [ReadRequest.result, ReadRequest.foldl_flags_of_open hcloses, Bool.false_or]
    rw [hresult] at hfinished
    cases hwanted : ReadRequest.wanted reqs with
    | none => simp
    | some reads =>
      cases reads with
      | false =>
        have hstops := (hfinished.stops (ReadRequest.any_pauses hwanted)).1
        simp [hstops]
      | true =>
        cases hclosing : (s.tr t).closing with
        | true =>
          -- a transport that is closing has ended reading
          rw [hclosing] at hfinished
          exact iff_of_true (.inr (.inl (hfinished.closes rfl).1)) (.inl rfl)
        | false =>
          rw [hclosing] at hfinished
          cases hpauses : reqs.any ReadRequest.pauses with
          | false =>
            rw [hpauses] at hfinished
            exact iff_of_true (hfinished.goesOn rfl rfl) (.inr (.inr (.inr rfl)))
          | true =>
            -- the pause still pends
            rw [hpauses] at hfinished
            obtain ⟨hreading, hopen, heofs⟩ := hfinished.stops rfl
            refine iff_of_false ?_ (by simp)
            rintro (hreads | hends | heof)
            · rw [hreading] at hreads
              cases hreads
            · rw [hopen] at hends
              cases hends
            · exact absurd heofs heof.ne'

/-- An instance of `asyncio.BufferedProtocol`. -/
def Protocol.receiving : Protocol := { has := fun _ => true, buffered := true }

/-- A transport with a buffered protocol is made and starts to read. -/
def startingBuffered : List (Label sig) :=
  opening .receiving ++ [.start .runBegin, .start .onIdle, returned, returned, yes, returned]

/-- A read during which the requests are made, if Python code raises nothing and there are ten bytes
of room. -/
def readWith (reqs : List ReadRequest) (s : State) (answers : List Answer) : Option State :=
  ((system.entry (.readable 0)).follow (env True)
    (fun c s w => Prog.followAll system (env True) (insideGetBuffer 0 reqs c) s w) s
    (answers, List.replicate 9 ⟨none, [], true, 0⟩)).map fun r => r.2.1

theorem execCalling_of_readWith {reqs : List ReadRequest} {s s' : State} {answers : List Answer}
    (h : readWith reqs s answers = some s') :
    ExecCalling system (env True) (insideGetBuffer 0 reqs) (system.entry (.readable 0)) s ()
      s' := by
  obtain ⟨⟨⟨⟩, s₁, w⟩, hfollow, rfl⟩ := Option.map_eq_some_iff.mp h
  exact Prog.execCalling_of_follow (fun _ _ _ _ _ hsome => Prog.calls_of_followAll hsome) hfollow

/-- A pause is resumed, and another one stops reading. -/
theorem requests_take_effect_paused :
    ∃ s s' : State, readWith [.resume, .pause] s [⟨true, 0, 0⟩, ⟨true, 0, 10⟩] = some s' ∧
      (TakesEffect [.resume, .pause] (s.tr 0) (s'.tr 0) ↔
        (s.tr 0).closing = true ∨ Honoured [.resume, .pause]) ∧ (s'.tr 0).reading = false := by
  have hplay : ∃ s s', system.play (env True) 100 startingBuffered system.initial =
        some ⟨s, none, []⟩ ∧
      readWith [.resume, .pause] s [⟨true, 0, 0⟩, ⟨true, 0, 10⟩] = some s' ∧
      Startable s (.readable 0) ∧ (s.tr 0).getBuffers < (s'.tr 0).getBuffers ∧
      (s'.tr 0).reading = false := ⟨_, _, rfl, rfl, by decide, by decide, rfl⟩
  obtain ⟨s, s', hrun, hread, hstart, hcalled, hreading⟩ := hplay
  exact ⟨s, s', hread, requests_take_effect_iff (System.Reachable.initial.play hrun) hstart
    (execCalling_of_readWith hread) hcalled, hreading⟩

/-- A protocol pauses reading inside `get_buffer` and thinks better of it. Reading stops. -/
theorem resume_is_lost :
    ∃ s s' : State, system.Reachable (env False) ⟨s, none, []⟩ ∧ Startable s (.readable 0) ∧
      ExecCalling system (env True) (insideGetBuffer 0 [.pause, .resume])
        (system.entry (.readable 0)) s () s' ∧
      (s.tr 0).getBuffers < (s'.tr 0).getBuffers ∧ (s.tr 0).reading = true ∧
      ¬ TakesEffect [.pause, .resume] (s.tr 0) (s'.tr 0) := by
  have hplay : ∃ s s', system.play (env False) 100 startingBuffered system.initial =
        some ⟨s, none, []⟩ ∧
      readWith [.pause, .resume] s [⟨true, 0, 0⟩, ⟨true, 0, 10⟩] = some s' ∧
      Startable s (.readable 0) ∧ (s.tr 0).getBuffers < (s'.tr 0).getBuffers ∧
      (s.tr 0).reading = true ∧ (s'.tr 0).reading = false ∧ (s'.tr 0).closing = false ∧
      (s'.tr 0).history.countP Event.isEof = 0 :=
    ⟨_, _, rfl, rfl, by decide, by decide, rfl, rfl, rfl, rfl⟩
  obtain ⟨s, s', hrun, hread, hstart, hcalled, hbefore, hreading, hclosing, heof⟩ := hplay
  refine ⟨s, s', System.Reachable.initial.play hrun, hstart, execCalling_of_readWith hread, hcalled,
    hbefore, fun heffect => ?_⟩
  have hends : (s'.tr 0).reading = true ∨ ReadEnded (s.tr 0) (s'.tr 0) := heffect
  rcases hends with hreads | hcloses | hlt
  · rw [hreading] at hreads
    cases hreads
  · rw [hclosing] at hcloses
    cases hcloses
  · rw [heof] at hlt
    exact absurd hlt (Nat.not_lt_zero _)

end Zuvloop.Stream
