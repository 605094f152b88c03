import Zuvloop.Datagram.Endpoint
import Zuvloop.Reentrant.History

/-!
# Closing with datagrams queued

`close()` and the completion of a datagram both decide by `write_buffer_size` whether datagrams are
still outstanding. The counter counts bytes, and a datagram may be empty.

## Main definitions

* `OnlyEmpty`: datagrams are outstanding, and the counter does not show it.
* `KeepsDatagrams`: no datagram was still queued with libuv when `uv_close` was called.
* `Inv`: what the decision to close relies on.

## Main results

* `close_keeps_datagrams`: no datagram is lost if no decision meets datagrams that are all empty.
* `close_cancels_datagram`: an empty datagram that is outstanding is cancelled by `close()`.
-/

namespace Zuvloop.Datagram.Closing

open Reentrant
open Zuvloop.Stream (Exc)

/-! ## Histories -/

/-- The length of a datagram that was queued. -/
def queuedSize : Event → Option ℕ
  | .queued size => some size
  | _ => none

/-- The length of a datagram that was completed. -/
def completedSize : Event → Option ℕ
  | .completed size _ => some size
  | _ => none

/-- The endpoint was closed by `close()`, and not by `abort()`. -/
def Graceful (h : List Event) : Prop := .closeCalled ∈ h ∧ .abortCalled ∉ h

/-- When `uv_close` was called on an endpoint that was closed and not aborted, every datagram that
was ever queued had been completed. -/
def KeepsDatagrams (h : List Event) : Prop :=
  ∀ before after, h = before ++ .uvClose :: after → Graceful before →
    h.filterMap queuedSize = before.filterMap completedSize

/-- An event that has nothing to do with datagrams or closing. -/
def plain : Event → Bool
  | .queued _ | .completed _ _ | .closeCalled | .abortCalled | .uvClose => false
  | _ => true

theorem of_plain {e : Event} (he : plain e = true) :
    queuedSize e = none ∧ completedSize e = none ∧ e ≠ .uvClose := by
  cases e with
  | queued | completed | uvClose => cases he
  | _ => exact ⟨rfl, rfl, nofun⟩

/-- Such an event does not add what was not there. -/
theorem mem_of_mem_concat {h : List Event} {e e' : Event} (he : plain e = true)
    (he' : plain e' = false) (hmem : e' ∈ h ++ [e]) : e' ∈ h := by
  refine (List.mem_append.mp hmem).resolve_right fun hm => ?_
  rw [List.mem_singleton.mp hm, he] at he'
  cases he'

/-- An event that is about no datagram leaves the account of the datagrams alone. -/
theorem ledger_concat {h : List Event} {e : Event} {sends : List ℕ}
    (hh : h.filterMap queuedSize = h.filterMap completedSize ++ sends)
    (hqueued : queuedSize e = none) (hcompleted : completedSize e = none) :
    (h ++ [e]).filterMap queuedSize = (h ++ [e]).filterMap completedSize ++ sends := by
  rw [List.filterMap_append, List.filterMap_append, List.filterMap_cons_none hqueued,
    List.filterMap_cons_none hcompleted, List.filterMap_nil, List.filterMap_nil, List.append_nil,
    List.append_nil, hh]

/-- What a new event has to satisfy, given what came before it. -/
def Fits (past : List Event) (e : Event) : Prop :=
  (e = .uvClose → Graceful past → past.filterMap queuedSize = past.filterMap completedSize) ∧
    ((queuedSize e).isSome → .uvClose ∉ past)

/-- After `uv_close` nothing is queued, so what it left behind is all there is to know. -/
theorem keepsDatagrams_of_recorded {h : List Event} (hh : Recorded Fits h) : KeepsDatagrams h := by
  intro before after heq hgraceful
  have hdone := (hh before .uvClose after heq).1 rfl hgraceful
  have hnone : after.filterMap queuedSize = [] := by
    rw [List.filterMap_eq_nil_iff]
    intro e he
    obtain ⟨mid, rest, rfl⟩ := List.append_of_mem he
    have hfits := hh (before ++ .uvClose :: mid) e rest (by rw [heq, List.append_assoc]; rfl)
    by_contra hqueued
    exact hfits.2 (Option.isSome_iff_ne_none.mpr hqueued)
      (List.mem_append_right _ List.mem_cons_self)
  rw [heq, List.filterMap_append, List.filterMap_cons_none rfl, hnone, List.append_nil, hdone]

/-! ## The invariant -/

/-- There are datagrams outstanding, and all of them are empty. -/
def OnlyEmpty (sends : List ℕ) : Prop := sends ≠ [] ∧ sends.sum = 0

instance (sends : List ℕ) : Decidable (OnlyEmpty sends) :=
  inferInstanceAs (Decidable (sends ≠ [] ∧ sends.sum = 0))

/-- What the decision to close relies on. -/
structure Inv (tr : Endpoint) : Prop where
  /-- Unless the endpoint was aborted, the counter is the number of bytes outstanding. -/
  size : Event.abortCalled ∉ tr.history → tr.writeBufferSize = tr.udp.sends.sum
  /-- `CLOSING` stays. -/
  closing : Event.closeCalled ∈ tr.history ∨ Event.uvClose ∈ tr.history ∨ tr.opened = false →
    tr.closing = true
  /-- Once an endpoint in good order shows nothing outstanding, nothing is. -/
  drained : Graceful tr.history → tr.opened = false ∨ tr.udp.sends.sum = 0 → tr.udp.sends = []
  /-- Datagrams are completed in the order they were queued in. -/
  ledger : tr.history.filterMap queuedSize =
    tr.history.filterMap completedSize ++ tr.udp.sends
  /-- Nothing was lost so far. -/
  recorded : Recorded Fits tr.history

/-- Stopping to receive leaves the flags of closing alone. -/
theorem stopReading_flags (tr : Endpoint) :
    tr.stopReading.closing = tr.closing ∧ tr.stopReading.opened = tr.opened := by
  unfold Endpoint.stopReading
  split
  · exact ⟨rfl, rfl⟩
  · exact ⟨rfl, rfl⟩

namespace Inv

variable {tr tr' : Endpoint}

theorem create (connected : Bool) (has : Method → Bool) : Inv (.create connected has) where
  size := fun _ => rfl
  closing := fun h => by rcases h with h | h | h <;> cases h
  drained := fun _ _ => rfl
  ledger := rfl
  recorded := recorded_nil _

/-- An endpoint that is not closing has not been closed. -/
theorem not_called (h : Inv tr) (hclosing : tr.closing = false) :
    Event.closeCalled ∉ tr.history ∧ Event.uvClose ∉ tr.history ∧ tr.opened = true := by
  have hnot : ¬ (Event.closeCalled ∈ tr.history ∨ Event.uvClose ∈ tr.history ∨
      tr.opened = false) := by
    intro hor
    have := h.closing hor
    rw [hclosing] at this
    cases this
  simpa [not_or] using hnot

/-- The flags of closing, the datagrams and the history are all that matters. -/
theorem congr (h : Inv tr) (hsize : tr'.writeBufferSize = tr.writeBufferSize)
    (hsends : tr'.udp.sends = tr.udp.sends) (hclosing : tr'.closing = tr.closing)
    (hopened : tr'.opened = tr.opened) (hhistory : tr'.history = tr.history) : Inv tr' := by
  obtain ⟨h₁, h₂, h₃, h₄, h₅⟩ := h
  refine ⟨?_, ?_, ?_, ?_, by rwa [hhistory]⟩
  · rwa [hsize, hsends, hhistory]
  · rwa [hclosing, hopened, hhistory]
  · rwa [hsends, hopened, hhistory]
  · rwa [hsends, hhistory]

/-- Record an event that has nothing to do with datagrams or closing. -/
theorem record (h : Inv tr) {e : Event} (he : plain e = true) : Inv (tr.record e) where
  size := fun hn => h.size fun hmem => hn (List.mem_append_left _ hmem)
  closing := fun hor => h.closing <|
    hor.imp (mem_of_mem_concat he rfl) (Or.imp_left (mem_of_mem_concat he rfl))
  drained := fun hgraceful => h.drained
    ⟨mem_of_mem_concat he rfl hgraceful.1, fun hmem => hgraceful.2 (List.mem_append_left _ hmem)⟩
  ledger := by
    obtain ⟨hqueued, hcompleted, -⟩ := of_plain he
    exact ledger_concat h.ledger hqueued hcompleted
  recorded := h.recorded.concat <| by
    obtain ⟨hqueued, -, huv⟩ := of_plain he
    exact ⟨fun heq => absurd heq huv, fun hsome => by rw [hqueued] at hsome; cases hsome⟩

theorem stopReading (h : Inv tr) : Inv tr.stopReading := by
  unfold Endpoint.stopReading
  split
  · exact h.congr rfl rfl rfl rfl rfl
  · exact h

/-- An endpoint that is not closing queues a datagram. -/
theorem queue (h : Inv tr) (hclosing : tr.closing = false) (size : ℕ) : Inv (tr.queue size) := by
  obtain ⟨hcalled, huv, hopened⟩ := h.not_called hclosing
  refine ⟨fun hn => ?_, fun hor => h.closing ?_, fun hgraceful => absurd ?_ hcalled, ?_, ?_⟩
  · have hsize := h.size fun hmem => hn (List.mem_append_left _ hmem)
    change tr.writeBufferSize + size = (tr.udp.sends ++ [size]).sum
    rw [hsize, List.sum_append, List.sum_singleton]
  · refine hor.imp (fun hmem => ?_) (Or.imp_left fun hmem => ?_)
    · simpa [Endpoint.queue, Endpoint.record] using hmem
    · simpa [Endpoint.queue, Endpoint.record] using hmem
  · simpa [Endpoint.queue, Endpoint.record] using hgraceful.1
  · simp [Endpoint.queue, Endpoint.record, queuedSize, completedSize, h.ledger]
  · exact h.recorded.concat ⟨nofun, fun _ => huv⟩

/-- libuv completes the oldest datagram. If the endpoint waits for the others to close, they are
not all empty. -/
theorem complete (h : Inv tr) {size : ℕ} {rest : List ℕ} (hsends : tr.udp.sends = size :: rest)
    (hrest : tr.closing = true → tr.opened = true → ¬ OnlyEmpty rest) :
    Inv (tr.complete size rest) := by
  refine ⟨fun hn => ?_, fun hor => h.closing ?_, fun hgraceful hdone => ?_, ?_, ?_⟩
  · have hsize := h.size fun hmem => hn (List.mem_append_left _ hmem)
    rw [hsends, List.sum_cons] at hsize
    change tr.writeBufferSize - min size tr.writeBufferSize = rest.sum
    omega
  · refine hor.imp (fun hmem => ?_) (Or.imp_left fun hmem => ?_)
    · simpa [Endpoint.complete, Endpoint.record] using hmem
    · simpa [Endpoint.complete, Endpoint.record] using hmem
  · have hbefore : Graceful tr.history := by
      simpa [Graceful, Endpoint.complete, Endpoint.record] using hgraceful
    have hclosing := h.closing (.inl hbefore.1)
    cases hopened : tr.opened with
    | false =>
      -- nothing is outstanding on an endpoint that has been shut down in good order
      rw [h.drained hbefore (.inl hopened)] at hsends
      cases hsends
    | true =>
      have hsum : rest.sum = 0 := hdone.resolve_left fun hshut => by
        rw [show tr.opened = false from hshut] at hopened
        cases hopened
      by_contra hne
      exact hrest hclosing hopened ⟨hne, hsum⟩
  · have hledger := h.ledger
    rw [hsends] at hledger
    simp [Endpoint.complete, Endpoint.record, queuedSize, completedSize, hledger]
  · exact h.recorded.concat ⟨nofun, nofun⟩

/-- `uv_close` is called on an endpoint that has been shut down. -/
theorem uvClose (h : Inv tr) (hopened : tr.opened = false) : Inv tr.uvClose := by
  unfold Endpoint.uvClose
  split
  · exact h
  · have hclosing := h.closing (.inr (.inr hopened))
    refine ⟨fun hn => ?_, fun _ => hclosing, fun hgraceful _ => ?_, ?_, ?_⟩
    · exact h.size fun hmem => hn (List.mem_append_left _ hmem)
    · refine h.drained ?_ (.inl hopened)
      simpa [Graceful, Endpoint.record] using hgraceful
    · exact ledger_concat h.ledger rfl rfl
    · refine h.recorded.concat ⟨fun _ hgraceful => ?_, nofun⟩
      rw [h.ledger, h.drained hgraceful (.inl hopened), List.append_nil]

/-- `OPEN` is cleared. -/
theorem shut (h : Inv tr) (hclosing : tr.closing = true)
    (hsends : Graceful tr.history → tr.udp.sends = []) : Inv { tr with opened := false } :=
  ⟨h.size, fun _ => hclosing, fun hgraceful _ => hsends hgraceful, h.ledger, h.recorded⟩

/-- `CLOSING` is set by a start that failed. -/
theorem fail (h : Inv tr) (exc : Exc) : Inv { tr with connLostExc := some exc, closing := true } :=
  ⟨h.size, fun _ => rfl, h.drained, h.ledger, h.recorded⟩

/-- `abort()` gives up the datagrams. -/
theorem abort (h : Inv tr) :
    Inv ({ tr with closing := true, writeBufferSize := 0 }.record .abortCalled) where
  size := fun hn => absurd (List.mem_append_right _ (List.mem_singleton_self _)) hn
  closing := fun _ => rfl
  drained := fun hgraceful =>
    absurd (List.mem_append_right _ (List.mem_singleton_self _)) hgraceful.2
  ledger := ledger_concat h.ledger rfl rfl
  recorded := h.recorded.concat ⟨nofun, nofun⟩

/-- `close()` meets datagrams that are not all empty. -/
theorem close (h : Inv tr) (hopen : tr.closing = false) (hsends : ¬ OnlyEmpty tr.udp.sends) :
    Inv ({ tr with closing := true }.record .closeCalled) where
  size := fun hn => h.size fun hmem => hn (List.mem_append_left _ hmem)
  closing := fun _ => rfl
  drained := fun _ hdone => by
    have hopened := (h.not_called hopen).2.2
    rcases hdone with hshut | hsum
    · rw [show tr.opened = false from hshut] at hopened
      cases hopened
    · by_contra hne
      exact hsends ⟨hne, hsum⟩
  ledger := ledger_concat h.ledger rfl rfl
  recorded := h.recorded.concat ⟨nofun, nofun⟩

/-- An endpoint in good order that counts no bytes has nothing outstanding. -/
theorem done (h : Inv tr) (hsize : tr.writeBufferSize = 0) (hgraceful : Graceful tr.history) :
    tr.udp.sends = [] :=
  h.drained hgraceful (.inr ((h.size hgraceful.2).symm.trans hsize))

end Inv

/-! ## The programs -/

/-- No decision to close is made while there are datagrams outstanding that are all empty: not by
`close()`, and not by the completion of a datagram that a closing endpoint waits for. -/
def Counted (tr : Endpoint) : Op → Prop
  | .close => tr.closing = false → ¬ OnlyEmpty tr.udp.sends
  | .onSent _ => tr.closing = true → tr.opened = true → ¬ OnlyEmpty tr.udp.sends.tail
  | _ => True

/-- Everything outside the endpoint, with this condition on what is started. -/
def countedEnv : Env sig :=
  { env with starts := fun stack tr op => env.starts stack tr op ∧ Counted tr op }

/-- What is proved of the entry points. An endpoint that has been shut down stays so. -/
abbrev spec : Spec sig := .keeping Inv fun tr tr' => tr.opened = false → tr'.opened = false

/-- A program of the endpoint keeps the invariant. -/
abbrev Keeps {α : Type} (p : P α) : Prop := p.Keeps countedEnv spec

namespace Keeps

variable {α β : Type}

theorem pure (a : α) : Keeps (pure a : P α) := Prog.Keeps.ret (fun _ => id) a

theorem self : Keeps Datagram.self := Prog.Keeps.read fun _ => id

/-- A change that leaves `OPEN` alone. -/
theorem update {f : Endpoint → Endpoint} (hf : ∀ tr, Inv tr → Inv (f tr))
    (hopened : ∀ tr, (f tr).opened = tr.opened) : Keeps (update f) :=
  Prog.Keeps.modify fun tr h => ⟨hf tr h, (hopened tr).trans⟩

theorem request (q : Request) : Keeps (request q) :=
  Prog.Keeps.request (S := sig) (fun _ => id) q

theorem foreign (c : Callback) : Keeps (foreign c) :=
  Prog.Keeps.foreign (S := sig) (fun _ => id) c

theorem python (c : Callback) : Keeps (python c) := (foreign c).map _

theorem bind {p : P α} {f : α → P β} (hp : Keeps p) (hf : ∀ a, Keeps (f a)) : Keeps (p >>= f) :=
  Prog.Keeps.bind (fun _ _ _ h₁ h₂ => h₂ ∘ h₁) hp hf

theorem ite {c : Prop} [Decidable c] {p q : P α} (hp : Keeps p) (hq : Keeps q) :
    Keeps (if c then p else q) := Prog.Keeps.ite hp hq

theorem when {c : Prop} [Decidable c] {p : P Unit} (hp : Keeps p) :
    Keeps (if c then p else Pure.pure ()) := ite hp (pure ())

/-! ### Protocol dispatch -/

theorem callProtocol (m : Method) : Keeps (callProtocol m) := by
  refine self.bind fun tr => when ?_
  refine (update (fun tr h => h.record rfl) fun _ => rfl).bind fun _ => ?_
  exact (foreign _).bind fun r => when (python _)

theorem callInContext (m : Method) : Keeps (callInContext m) := by
  refine self.bind fun tr => when ((request _).bind fun a => ite ?_ (python _))
  refine (update (fun tr h => h.record rfl) fun _ => rfl).bind fun _ => ?_
  exact (foreign _).bind fun r => when (python _)

theorem scheduleConnectionLost : Keeps scheduleConnectionLost := by
  refine self.bind fun tr => when ((request _).bind fun a => when ?_)
  refine update (fun tr h => ?_) fun _ => rfl
  have hqueued : Inv { tr with ready := tr.ready ++ [Call.connectionLost tr.connLostExc] } :=
    h.congr rfl rfl rfl rfl rfl
  exact hqueued.record rfl

/-! ### Receiving -/

/-- Only an endpoint that is not closing tries to receive. -/
theorem wp_startReceiving {tr : Endpoint} (h : Inv tr) :
    startReceiving.wp countedEnv spec (fun r tr' => Inv tr' ∧ tr'.opened = tr.opened ∧
      ∀ exc, r = .error exc → tr'.closing = false) tr := by
  change (if (tr.reading || tr.closing || tr.connLost) = true then _ else _ :
    P (Except Exc Unit)).wp countedEnv spec _ tr
  split
  · exact ⟨h, rfl, nofun⟩
  · rename_i hopen
    intro a _
    change (if a.status < 0 then _ else _ : P (Except Exc Unit)).wp countedEnv spec _ tr
    split
    · refine ⟨h, rfl, fun _ _ => ?_⟩
      simp only [Bool.or_eq_true, not_or, Bool.not_eq_true] at hopen
      exact hopen.1.2
    · exact ⟨h.congr rfl rfl rfl rfl rfl, rfl, nofun⟩

theorem startReceiving : Keeps startReceiving := fun _ h =>
  Prog.wp_mono (wp_startReceiving h) fun _ _ h' => ⟨h'.1, h'.2.1.trans⟩

theorem onRecv (r : Received) : Keeps (onRecv r) := by
  cases r with
  | nothing => exact pure ()
  | truncated | failed => exact (request _).bind fun a => when (callInContext _)
  | datagram named =>
    exact (request _).bind fun a => when (ite (callInContext _) (callInContext _))

/-! ### Teardown -/

theorem stopReading : Keeps (Datagram.update Endpoint.stopReading) :=
  update (fun _ h => h.stopReading) fun tr => (stopReading_flags tr).2

theorem releaseSocketView : Keeps releaseSocketView := by
  refine self.bind fun _ => when (bind (update (fun tr h => ?_) fun _ => rfl) fun _ => python _)
  exact h.congr rfl rfl rfl rfl rfl

/-- A closing endpoint is shut down. If it is in good order, nothing is outstanding any more, and
nothing will be by the time `uv_close` is called. -/
theorem wp_shutdownAndClose {tr : Endpoint} (h : Inv tr) (hclosing : tr.closing = true)
    (hsends : Graceful tr.history → tr.udp.sends = []) :
    shutdownAndClose.wp countedEnv spec (fun _ tr' => Inv tr' ∧ (tr.opened = false →
      tr'.opened = false)) tr := by
  change (if tr.opened = true then _ else _ : P Unit).wp countedEnv spec _ tr
  split
  · have hshut := h.shut hclosing hsends
    change (Datagram.update Endpoint.stopReading >>= fun _ => Datagram.releaseSocketView >>=
      fun _ => Datagram.update Endpoint.uvClose).wp countedEnv spec _ { tr with opened := false }
    refine (Prog.wp_bind _ _ _ _).mpr (stopReading.wp hshut fun _ tr₁ h₁ hopened₁ => ?_)
    refine (Prog.wp_bind _ _ _ _).mpr (releaseSocketView.wp h₁ fun _ tr₂ h₂ hopened₂ => ?_)
    -- the endpoint is still shut down when the socket object has been detached
    have hopened : tr₂.opened = false := hopened₂ (hopened₁ rfl)
    refine ⟨h₂.uvClose hopened, fun _ => ?_⟩
    unfold Endpoint.uvClose
    split
    · exact hopened
    · exact hopened
  · exact ⟨h, id⟩

theorem onClosed : Keeps onClosed := by
  refine bind (update (fun tr h => ?_) fun _ => rfl) fun _ =>
    scheduleConnectionLost.bind fun _ => python _
  exact h.congr rfl rfl rfl rfl rfl

/-! ### Sending -/

theorem maybePauseProtocol : Keeps maybePauseProtocol := by
  refine self.bind fun _ => ite (pure ()) (ite (pure ()) ?_)
  refine bind (update (fun tr h => ?_) fun _ => rfl) fun _ => callProtocol _
  exact h.congr rfl rfl rfl rfl rfl

theorem maybeResumeProtocol : Keeps maybeResumeProtocol := by
  refine self.bind fun _ => ite (pure ()) (ite (pure ()) (ite (pure ()) ?_))
  refine bind (update (fun tr h => ?_) fun _ => rfl) fun _ => callProtocol _
  exact h.congr rfl rfl rfl rfl rfl

/-- A closing endpoint is shut down once it counts no bytes. -/
theorem shutdownIfDone : Keeps (do
    let tr ← Datagram.self
    if tr.writeBufferSize = 0 ∧ tr.closing then Datagram.shutdownAndClose) := by
  intro tr h
  change (if tr.writeBufferSize = 0 ∧ tr.closing = true then _ else _ : P Unit).wp
    countedEnv spec _ tr
  split
  · rename_i hdone
    exact wp_shutdownAndClose h hdone.2 (h.done hdone.1)
  · exact ⟨h, id⟩

/-- A datagram is completed that leaves no others behind that are all empty. -/
theorem wp_onSent (status : Int) {tr : Endpoint} (h : Inv tr)
    (hrest : tr.closing = true → tr.opened = true → ¬ OnlyEmpty tr.udp.sends.tail) :
    (onSent status).wp countedEnv spec (fun _ tr' => Inv tr' ∧ (tr.opened = false →
      tr'.opened = false)) tr := by
  have hself : ∀ Q : Endpoint → Endpoint → Prop,
      Datagram.self.wp countedEnv spec Q tr = Q tr tr := fun _ => rfl
  rw [onSent, Prog.wp_bind, hself]
  cases hsends : tr.udp.sends with
  | nil => exact ⟨h, id⟩
  | cons size rest =>
    rw [hsends] at hrest
    have hcompleted := h.complete hsends hrest
    have htail := maybeResumeProtocol.bind fun _ => shutdownIfDone
    refine bind (python .finalizer) (fun _ => self.bind fun _ => ?_) (tr.complete size rest)
      hcompleted
    exact ite ((callProtocol _).bind fun _ => htail) htail

/-- An endpoint that is not closing queues a datagram. -/
theorem wp_queueSend (size : ℕ) {tr : Endpoint} (h : Inv tr) (hclosing : tr.closing = false) :
    (queueSend size).wp countedEnv spec (fun _ tr' => Inv tr' ∧ (tr.opened = false →
      tr'.opened = false)) tr := by
  intro a _
  change (if (!a.ok) = true then _ else _ : P (Except Exc Unit)).wp countedEnv spec _ tr
  split
  · exact ⟨h, id⟩
  · intro a _
    change (if a.status < 0 then _ else _ : P (Except Exc Unit)).wp countedEnv spec _ tr
    split
    · exact ⟨h, id⟩
    · exact (maybePauseProtocol.bind fun _ => pure _) (tr.queue size) (h.queue hclosing size)

theorem sendto : Keeps sendto := by
  refine (foreign _).bind fun r => ?_
  cases r.raised with
  | some exc => exact pure _
  | none =>
    intro tr h
    change (if (tr.connLost || tr.closing) = true then _ else _ : P (Except Exc Unit)).wp
      countedEnv spec _ tr
    split
    · exact ⟨h, id⟩
    · rename_i hopen
      have hclosing : tr.closing = false := by
        rw [Bool.not_eq_true, Bool.or_eq_false_iff] at hopen
        exact hopen.2
      change (if tr.writeBufferSize = 0 then _ else _ : P (Except Exc Unit)).wp
        countedEnv spec _ tr
      split
      · intro a _
        change (if 0 ≤ a.status then _ else _ : P (Except Exc Unit)).wp countedEnv spec _ tr
        split
        · exact ⟨h, id⟩
        · split
          · exact ((callProtocol _).bind fun _ => pure _) tr h
          · exact wp_queueSend _ h hclosing
      · exact wp_queueSend _ h hclosing

/-! ### Python methods -/

theorem abort : Keeps abort := by
  intro tr h
  refine wp_shutdownAndClose h.abort rfl fun hgraceful => ?_
  exact absurd (List.mem_append_right _ (List.mem_singleton_self _)) hgraceful.2

/-- `close()` is called while the datagrams outstanding are not all empty. -/
theorem wp_close {tr : Endpoint} (h : Inv tr)
    (hsends : tr.closing = false → ¬ OnlyEmpty tr.udp.sends) :
    close.wp countedEnv spec (fun _ tr' => Inv tr' ∧ (tr.opened = false →
      tr'.opened = false)) tr := by
  change (if tr.closing = true then _ else _ : P Unit).wp countedEnv spec _ tr
  split
  · exact ⟨h, id⟩
  · rename_i hclosing
    rw [Bool.not_eq_true] at hclosing
    have hclosed := (h.close hclosing (hsends hclosing)).stopReading
    obtain ⟨hclosing', hopened'⟩ :=
      stopReading_flags ({ tr with closing := true }.record .closeCalled)
    change (if Endpoint.writeBufferSize _ = 0 then _ else _ : P Unit).wp countedEnv spec _ _
    split
    · rename_i hdone
      have hshut := wp_shutdownAndClose hclosed hclosing' (hclosed.done hdone)
      exact Prog.wp_mono hshut fun _ _ h' => ⟨h'.1, fun ho => h'.2 (hopened'.trans ho)⟩
    · exact ⟨hclosed, hopened'.trans⟩

/-- `_start_receiving` gives up an endpoint that cannot receive, which has not been closed. -/
theorem startReceivingMethod : Keeps startReceivingMethod := by
  intro tr h
  refine (Prog.wp_bind _ _ _ _).mpr (Prog.wp_mono (wp_startReceiving h) ?_)
  rintro (exc | ⟨⟩) tr' ⟨h', hopened, hclosing⟩
  · have hfailed := h'.fail exc
    have hshut := wp_shutdownAndClose hfailed rfl fun hgraceful =>
      absurd hgraceful.1 (h'.not_called (hclosing exc rfl)).1
    exact Prog.wp_mono hshut fun _ _ hs => ⟨hs.1, fun ho => hs.2 (hopened.trans ho)⟩
  · exact ⟨h', hopened.trans⟩

theorem pauseReading : Keeps pauseReading := by
  refine self.bind fun tr => ite (pure _) (stopReading.bind fun _ => ?_)
  exact bind (update (fun tr h => h.record rfl) fun _ => rfl) fun _ => pure _

theorem resumeReading : Keeps resumeReading := by
  refine bind (update (fun tr h => h.record rfl) fun _ => rfl) fun _ => self.bind fun tr => ?_
  exact ite (pure _) startReceiving

theorem waterMark (given : Bool) (message : String) : Keeps (waterMark given message) := by
  refine ite (pure _) ((foreign _).bind fun r => ?_)
  cases r.raised with
  | some exc => exact pure _
  | none => exact ite (pure _) (pure _)

theorem setWriteBufferLimits (high low : Bool) : Keeps (setWriteBufferLimits high low) := by
  refine (waterMark _ _).bind fun high => ?_
  rcases high with exc | high
  · exact pure _
  refine (waterMark _ _).bind fun low => ?_
  rcases low with exc | low
  · exact pure _
  dsimp only
  rcases Stream.waterMarks high low with exc | marks
  · exact pure _
  refine bind (update (fun tr h => ?_) fun _ => rfl) fun _ =>
    maybePauseProtocol.bind fun _ => pure _
  exact h.congr rfl rfl rfl rfl rfl

theorem adoptSocketView : Keeps adoptSocketView := by
  refine bind (update (fun tr h => ?_) fun _ => rfl) fun _ => (python _).bind fun _ =>
    update (fun tr h => ?_) fun _ => rfl
  · exact h.congr rfl rfl rfl rfl rfl
  · exact h.congr rfl rfl rfl rfl rfl

theorem runCall (call : Call) : Keeps (runCall call) := by
  cases call with
  | connectionMade => exact bind (update (fun tr h => h.record rfl) fun _ => rfl) fun _ => python _
  | startReceiving => exact startReceivingMethod
  | connectionLost exc =>
    exact bind (update (fun tr h => h.record rfl) fun _ => rfl) fun _ => python _

theorem runNext : Keeps runNext := by
  refine self.bind fun tr => ?_
  cases tr.ready with
  | nil => exact pure ()
  | cons call rest =>
    refine bind (update (fun tr h => ?_) fun _ => rfl) fun _ =>
      (runCall call).bind fun _ => python _
    exact h.congr rfl rfl rfl rfl rfl

end Keeps

/-! ## The law -/

/-- Every entry point keeps the invariant. -/
theorem verified (connected : Bool) (has : Method → Bool) :
    Verified (system connected has) countedEnv spec where
  rely_refl := fun _ => id
  rely_trans := fun _ _ _ h₁ h₂ => h₂ ∘ h₁
  init := .create connected has
  body := nofun
  entry := fun _ tr op hstart h _ => by
    cases op with
    | sendto => exact Keeps.sendto.map _ tr h
    | close => exact Keeps.wp_close h hstart.2
    | abort => exact Keeps.abort tr h
    | pauseReading => exact Keeps.pauseReading.map _ tr h
    | resumeReading => exact Keeps.resumeReading.map _ tr h
    | setWriteBufferLimits high low => exact (Keeps.setWriteBufferLimits high low).map _ tr h
    | setProtocol has => exact ⟨h.congr rfl rfl rfl rfl rfl, id⟩
    | adoptSocketView => exact Keeps.adoptSocketView tr h
    | runNext => exact Keeps.runNext tr h
    | onRecv r => exact Keeps.onRecv r tr h
    | onSent status => exact Keeps.wp_onSent status h hstart.2
    | onClosed => exact Keeps.onClosed tr h

instance (tr : Endpoint) (op : Op) : Decidable (Counted tr op) :=
  match op with
  | .close => inferInstanceAs (Decidable (tr.closing = false → ¬ OnlyEmpty tr.udp.sends))
  | .onSent _ =>
    inferInstanceAs (Decidable (tr.closing = true → tr.opened = true →
      ¬ OnlyEmpty tr.udp.sends.tail))
  | .sendto | .abort | .pauseReading | .resumeReading | .setWriteBufferLimits _ _ | .setProtocol _
  | .adoptSocketView | .runNext | .onRecv _ | .onClosed => .isTrue trivial

instance (c : Config sig) (l : Label sig) : Decidable (countedEnv.Allows c l) :=
  match l with
  | .start op => inferInstanceAs (Decidable (Ready c.state op ∧ Counted c.state op))
  | .tau => inferInstanceAs (Decidable (env.Allows c .tau))
  | .answer a => inferInstanceAs (Decidable (env.Allows c (.answer a)))
  | .resume r => inferInstanceAs (Decidable (env.Allows c (.resume r)))

/-- If no decision to close meets datagrams outstanding that are all empty, an endpoint that was
closed and not aborted calls `uv_close` when libuv has completed every datagram it accepted. -/
theorem close_keeps_datagrams {connected : Bool} {has : Method → Bool} {tr : Endpoint}
    {suspended : List (Callback × (Result → P Unit))}
    (h : (system connected has).Reachable countedEnv ⟨tr, none, suspended⟩) :
    KeepsDatagrams tr.history := by
  have hloud : ∀ c, ¬ countedEnv.Quiet c := fun c hquiet => hquiet [] tr .runNext ⟨trivial, trivial⟩
  have hinv : Inv tr := (verified connected has).in_foreign hloud h
  exact keepsDatagrams_of_recorded hinv.recorded

/-- `sendto()` queues a datagram of this length, since the socket would block. -/
def sends (size : ℕ) : List (Label sig) :=
  [.start .sendto, .resume ⟨none, size⟩, .answer ⟨true, Stream.uvEAGAIN, 0⟩, .answer ⟨true, 0, 0⟩,
    .answer ⟨true, 0, 0⟩]

/-- libuv has sent the oldest datagram. -/
def sent : List (Label sig) := [.start (.onSent 0), .resume ⟨none, 0⟩]

/-- An endpoint with an empty and another datagram queued is closed when both have been sent. -/
theorem close_keeps_datagrams_queued : ∃ tr : Endpoint,
    tr.history = [.queued 0, .queued 5, .closeCalled, .completed 0 false, .completed 5 false,
      .uvClose] ∧ KeepsDatagrams tr.history := by
  have hplay : ∃ tr, (system true fun _ => true).play countedEnv 100
      (sends 0 ++ sends 5 ++ [.start .close] ++ sent ++ sent ++ [.resume ⟨none, 0⟩])
      (system true fun _ => true).initial = some ⟨tr, none, []⟩ ∧
      tr.history = [.queued 0, .queued 5, .closeCalled, .completed 0 false, .completed 5 false,
        .uvClose] := ⟨_, rfl, rfl⟩
  obtain ⟨tr, hrun, hhist⟩ := hplay
  exact ⟨tr, hhist, close_keeps_datagrams (System.Reachable.initial.play hrun)⟩

/-- An empty datagram is queued, and `close()` cancels it. -/
theorem close_cancels_datagram : ∃ tr : Endpoint,
    (system true fun _ => true).Reachable env ⟨tr, none, []⟩ ∧
      .completed 0 true ∈ tr.history ∧ ¬ KeepsDatagrams tr.history := by
  have hplay : ∃ tr, (system true fun _ => true).play env 100
      -- the completion has the status `UV_ECANCELED`
      (sends 0 ++ [.start .close, .resume ⟨none, 0⟩, .start (.onSent (-125)),
        .resume ⟨none, 0⟩])
      (system true fun _ => true).initial = some ⟨tr, none, []⟩ ∧
      tr.history = [.queued 0, .closeCalled] ++ .uvClose :: [.completed 0 true] := ⟨_, rfl, rfl⟩
  obtain ⟨tr, hrun, hhist⟩ := hplay
  refine ⟨tr, System.Reachable.initial.play hrun, by rw [hhist]; decide, fun hkeeps => ?_⟩
  have hdone := hkeeps _ _ hhist ⟨by decide, by decide⟩
  rw [hhist] at hdone
  exact absurd hdone (by decide)

end Zuvloop.Datagram.Closing
