import Zuvloop.Reentrant.Bounded
import Zuvloop.Stream.Potential
import Zuvloop.Stream.Verified

/-!
# The retry loop of a write ends

`appendPending` flushes a full batch in a loop, since each flush may pause or resume the protocol,
which may fill the batch again. Here foreign code that runs for the protocol, or for the exception
handler, follows any plan made of writes, closes and the like, and libuv's queue does not shrink
when a request is added to it. A flush that leaves the batch full has then called the protocol, and
has used up one of the two calls that are left to the transport (`Transport.remaining`); so a third
flush of the loop leaves room. Every write a call of the protocol makes starts with fewer calls left
to all transports together, so that reentry ends as well.

## Main definitions

* `growing`, `mayRun`: what is assumed of libuv and of foreign code.
* `State.Fits`: the batches fit.
* `Within`: a program ends within a number of rounds, with all batches fitting at all times.

## Main results

* `within_flushPending`, `within_makeRoom`: what a flush leaves, and how often it is repeated.
* `handled`: whatever foreign code does ends.
* `appendPending_ends`: the loop flushes at most three times for each buffer.
-/

namespace Zuvloop.Stream

open Reentrant

/-! ## The outside -/

/-- libuv's queue does not shrink when a request is added to it: its size is counted first, and
libuv sends at once only if the queue was empty. -/
def QueueGrows (s : State) : Request → Answer → Prop
  | .uvWrite t _ _, a => (s.tr t).stream.queueSize ≤ a.size
  | _, _ => True

/-- Everything outside the transports, with a queue of libuv's that only a completed request lets
shrink. -/
def growing : Env sig where
  answers s q a := Answers True s q a ∧ QueueGrows s q a
  returns := fun _ _ _ => True
  starts := fun _ s op => Startable s op

/-- Methods of transports and of the loop that neither set water marks, make transports nor run the
loop. -/
def Op.mild : Op → Bool
  | .write _ | .writelines _ | .writeEof _ | .close _ | .abort _ | .forceClose _ _
  | .pauseReading _ | .resumeReading _ | .setProtocol _ _ | .adoptSocketView _ | .adoptPipe _
  | .callSoon | .stop => true
  | _ => false

/-- The method is one of a transport that is there, or of the loop. -/
def Op.On (s : State) (op : Op) : Prop := (op.transport?.all fun t => (s.tr t).made) = true

/-- What foreign code may do. A protocol, and an exception handler, call finitely many methods.
Other foreign code returns at once. -/
def mayRun : Callback → State → Plan sig → Prop
  | .protocol _ _, s, w | .exceptionHandler, s, w =>
    w.Starts fun op : Op => op.mild = true ∧ op.On s
  | _, _, w => w.Idle

/-- Every batch fits, so that every index into one is in range. -/
def State.Fits (s : State) : Prop := ∀ t, (s.tr t).pending.length ≤ pendingMax

theorem State.Tidy.fits {s : State} (hs : s.Tidy) : s.Fits := fun t => (hs.tr t).room

/-- The program ends in a result and a state that satisfy `Q`. Each loop of it takes at most `depth`
rounds, and each loop of what foreign code starts at most three. -/
abbrev Within (depth : ℕ) {α : Type} (p : P α) (Q : α → State → Prop) (s : State) : Prop :=
  Bounded system growing mayRun State.Fits 3 depth p Q s

variable {depth n : ℕ} {α β : Type} {s s₁ s' : State} {t : ℕ}

/-! ## Rules -/

namespace Within

theorem getState {Q : State → State → Prop} (h : Q s s) : Within depth Stream.getState Q s :=
  .read h

theorem self {Q : Transport → State → Prop} (h : Q (s.tr t) s) :
    Within depth (Stream.self t) Q s := .map (.read h)

theorem update {f : State → State} {Q : Unit → State → Prop} (hs : s.Tidy)
    (hon : s.Onward (f s)) (h : Q () (f s)) : Within depth (Stream.update f) Q s :=
  .modify (hon.tidy hs).fits h

theorem act {a : Act} {Q : Unit → State → Prop} (hs : s.Tidy)
    (hon : (s.tr t).Onward (a.run (s.tr t))) (h : Q () (s.act t a)) :
    Within depth (Stream.act t a) Q s := update hs (.act hon) h

theorem request {q : Request} {Q : Answer → State → Prop}
    (h : ∀ a, growing.answers s q a → Q a s) : Within depth (Stream.request q) Q s :=
  Bounded.request h

end Within

/-! ## Programs that go onward -/

/-- What the methods of the transport `o`, if there is one, are proved to do: while there are at
most `n` calls of protocols left, the program goes onward. -/
def Moves (o : Option ℕ) (n depth : ℕ) (p : P α) : Prop :=
  ∀ s : State, s.Tidy → (o.all fun t => (s.tr t).made) = true → s.remaining ≤ n →
    Within depth p (fun _ s' => s.Onward s') s

namespace Moves

variable {o : Option ℕ}

/-- What holds of a program in the middle of another. -/
theorem within {p : P α} (hp : Moves o n depth p) {Q : α → State → Prop} (hs : s.Tidy)
    (hmade : (o.all fun t => (s.tr t).made) = true) (hle : s.remaining ≤ n)
    (h : ∀ a s', s.Onward s' → Q a s') : Within depth p Q s := (hp s hs hmade hle).mono h

theorem all_made {o : Option ℕ} (h : s.Onward s') (hmade : (o.all fun t => (s.tr t).made) = true) :
    (o.all fun t => (s'.tr t).made) = true := by
  cases o with
  | none => rfl
  | some t => exact h.made hmade

theorem bind {p : P α} {f : α → P β} (hp : Moves o n depth p) (hf : ∀ a, Moves o n depth (f a)) :
    Moves o n depth (p >>= f) := by
  intro s hs hmade hle
  refine .bind (hp.within hs hmade hle fun a s₁ h₁ => ?_)
  refine (hf a).within (h₁.tidy hs) (all_made h₁ hmade) (h₁.sum_le.trans hle) fun _ s₂ h₂ => ?_
  exact h₁.trans h₂

theorem ite {c : Prop} [Decidable c] {p q : P α} (hp : Moves o n depth p)
    (hq : Moves o n depth q) : Moves o n depth (if c then p else q) := by
  split
  · exact hp
  · exact hq

theorem pure (a : α) : Moves o n depth (Pure.pure a : P α) := fun s _ _ _ => .pure (.refl s)

theorem map {p : P α} (hp : Moves o n depth p) (f : α → β) : Moves o n depth (f <$> p) :=
  fun s hs hmade hle => .map (hp s hs hmade hle)

theorem getState : Moves o n depth Stream.getState := fun s _ _ _ => .getState (.refl s)

theorem self (t : ℕ) : Moves o n depth (Stream.self t) := fun s _ _ _ => .self (.refl s)

theorem update {f : State → State} (hf : ∀ s : State, s.Onward (f s)) :
    Moves o n depth (Stream.update f) := fun s hs _ _ => .update hs (hf s) (hf s)

theorem act {a : Act} (ha : a.steady = true) : Moves o n depth (Stream.act t a) :=
  update fun _ => .act (Act.onward ha)

theorem request (q : Request) : Moves o n depth (Stream.request q) :=
  fun s _ _ _ => .request fun _ _ => .refl s

theorem alloc : Moves o n depth Stream.alloc := (request .alloc).map _

theorem foreign_idle {c : Callback} (hidle : ∀ s w, mayRun c s w → w.Idle) :
    Moves o n depth (Stream.foreign c) :=
  fun s _ _ _ => .foreign_of_idle (hidle s) fun _ => .refl s

theorem python_idle {c : Callback} (hidle : ∀ s w, mayRun c s w → w.Idle) :
    Moves o n depth (Stream.python c) := (foreign_idle hidle).map _

/-! ## Teardown and reading -/

theorem releaseSocketView (t : ℕ) : Moves o n depth (Stream.releaseSocketView t) :=
  .bind (.self t) fun _ => .ite (.bind (.act rfl) fun _ => .python_idle fun _ _ hw => hw) (.pure ())

theorem shutdownAndClose (t : ℕ) : Moves o n depth (Stream.shutdownAndClose t) := by
  have hclose : Moves o n depth (closeExternalHandle t) :=
    .bind (.self t) fun _ => .ite (.update fun s => .uvClose t) (.pure ())
  have hrest : Moves o n depth (do Stream.releaseSocketView t; closeExternalHandle t) :=
    (releaseSocketView t).bind fun _ => hclose
  exact .bind (.self t) fun _ => .ite (.bind (.act rfl) fun _ =>
    .ite (.bind (.act rfl) fun _ => hrest) hrest) (.pure ())

theorem startReading (t : ℕ) : Moves o n depth (Stream.startReading t) :=
  .bind (.self t) fun _ => .ite (.pure _) (.bind (.request _) fun _ =>
    .ite (.pure _) (.bind (.act rfl) fun _ => .pure _))

theorem pauseReading (t : ℕ) : Moves o n depth (Stream.pauseReading t) := by
  refine .bind .getState fun s => .bind (.self t) fun tr => ?_
  have hrest (early : Bool) : Moves o n depth (if !tr.allocatingReadBuffer then
      Stream.act t (.readingPaused early) else Pure.pure ()) := .ite (.act rfl) (.pure ())
  exact .ite (.ite (.bind (.act rfl) fun _ => hrest _) (.bind (.act rfl) fun _ => hrest _))
    (hrest _)

/-! ## Views -/

theorem acquireWriteView (t : ℕ) : Moves o n depth (Stream.acquireWriteView t) := by
  refine .bind (.foreign_idle fun _ _ hw => hw) fun r => ?_
  split
  · exact .pure _
  · exact .bind (.self t) fun _ => .bind (.act rfl) fun _ => .pure _

theorem acquireAll (t k : ℕ) (bufs : List Buf) : Moves o n depth (Stream.acquireAll t k bufs) := by
  induction k generalizing bufs with
  | zero => exact .pure _
  | succ k ih =>
    refine .bind (acquireWriteView t) fun r => ?_
    cases r with
    | error exc => exact .bind (.act rfl) fun _ => .pure _
    | ok b => exact ih _

end Moves

/-! ## Closing by force -/

/-- Whatever is left to send is dropped, and the transport closes. -/
theorem within_forceClose (cause : Cause) (exc : Option Exc) (hs : s.Tidy)
    (hmade : (s.tr t).made = true) :
    Within depth (forceClose t cause exc)
      (fun _ s' => s.Onward s' ∧ (s'.tr t).givesUp = true) s := by
  -- up to `CLOSING` every act is harmless
  let s₁ := ((s.act t .setCloseRequested).act t .discardPending).act t (.force cause exc)
  have h₁ : s.Onward s₁ :=
    (State.Onward.act (Act.onward rfl)).trans
      ((State.Onward.act (Act.onward rfl)).trans (State.Onward.act (Act.onward rfl)))
  have h₂ : s₁.Onward (s₁.act t .setClosing) := .act (Act.onward rfl)
  have hclosing : ((s₁.act t .setClosing).tr t).closing = true := by
    rw [State.tr_act_self, Act.run]
    split
    · assumption
    · rfl
  have hgone : ((s₁.act t .setClosing).tr t).isClosing = true := by
    rw [Transport.isClosing, hclosing, Bool.true_or]
  have h₃ : (s₁.act t .setClosing).Onward ((s₁.act t .setClosing).act t .clearWriteBufferSize) :=
    .act (Transport.onward_clearWriteBufferSize hgone)
  have hgives : (((s₁.act t .setClosing).act t .clearWriteBufferSize).tr t).givesUp = true := by
    refine (h₃.tr t).givesUp ?_
    rw [Transport.givesUp, hclosing, Bool.or_true, Bool.true_or]
  have hon := h₁.trans (h₂.trans h₃)
  -- and from then on it stays closing
  have hend : Moves (some t) s.remaining depth (do
      let tr ← self t
      if tr.allocatingReadBuffer then act t .setReadStatePending else shutdownAndClose t) :=
    .bind (.self t) fun _ => .ite (.act rfl) (.shutdownAndClose t)
  have hlast := hend.within (Q := fun _ s' => s.Onward s' ∧ (s'.tr t).givesUp = true) (hon.tidy hs)
    (hon.made hmade) hon.sum_le fun _ s' h' => ⟨hon.trans h', (h'.tr t).givesUp hgives⟩
  have hfirst : s.Onward (s.act t .setCloseRequested) := .act (Act.onward rfl)
  have hsecond := hfirst.trans (State.Onward.act (t := t) (a := .discardPending) (Act.onward rfl))
  refine .bind (Within.act hs (Act.onward rfl) ?_)
  refine .bind (Within.act (hfirst.tidy hs) (Act.onward rfl) ?_)
  refine .bind (Within.act (hsecond.tidy hs) (Act.onward rfl) ?_)
  refine .bind (Within.act (h₁.tidy hs) (Act.onward rfl) ?_)
  have hthird := (h₁.trans h₂).tidy hs
  exact .bind (Within.act hthird (Transport.onward_clearWriteBufferSize hgone) hlast)

theorem Moves.forceClose (cause : Cause) (exc : Option Exc) :
    Moves (some t) n depth (Stream.forceClose t cause exc) :=
  fun _ hs hmade _ => (within_forceClose cause exc hs hmade).mono fun _ _ h => h.1

/-! ## Calling the protocol -/

/-- Whatever foreign code does goes onward, as long as fewer than `n` calls of protocols are
left. -/
def Handled (n : ℕ) : Prop :=
  ∀ s : State, s.Tidy → s.remaining < n → ∀ c w, mayRun c s w →
    Within 3 (w.prog system) (fun _ s' => s.Onward s') s

/-- A flush did what it should: the transport gave up, or the batch is empty, or a call of the
protocol is used up. -/
def Flushed (t : ℕ) (s s' : State) : Prop :=
  (s'.tr t).givesUp = true ∨ (s'.tr t).pending = [] ∨
    (s'.tr t).remaining < (s.tr t).remaining

/-- What came before a flush only uses up calls. -/
theorem Flushed.of_onward (h : s.Onward s₁) (hf : Flushed t s₁ s') : Flushed t s s' :=
  hf.imp_right (Or.imp_right fun hlt => lt_of_lt_of_le hlt (h.tr t).remaining)

/-- Nothing happened, or a call of the protocol was used up. -/
def Called (t : ℕ) (s s' : State) : Prop :=
  s' = s ∨ (s'.tr t).remaining < (s.tr t).remaining

section Handled

variable (hn : Handled n)

include hn

theorem within_callProtocol {m : Method} (hs : s.Tidy) (hlt : s.remaining < n) :
    Within depth (callProtocol t m) (fun _ s' => s.Onward s') s := by
  refine .bind (Within.self ?_)
  refine .ite (fun _ => ?_) fun _ => .pure (.refl s)
  refine .bind (.foreign fun w hw => (hn s hs hlt _ w hw).mono fun r s₁ h₁ => ?_)
  refine .ite (fun _ => ?_) fun _ => .pure h₁
  -- the exception handler runs with no more calls left than the method had
  refine .map (.foreign fun w hw => ?_)
  refine (hn s₁ (h₁.tidy hs) (lt_of_le_of_lt h₁.sum_le hlt) _ w hw).mono fun _ s₂ h₂ => ?_
  exact h₁.trans h₂

/-- A call of the protocol after an act that uses it up. -/
theorem within_called {a : Act} {m : Method} (hs : s.Tidy) (hmade : (s.tr t).made = true)
    (hle : s.remaining ≤ n) (hon : (s.tr t).Onward (a.run (s.tr t)))
    (hlt : (a.run (s.tr t)).remaining < (s.tr t).remaining) :
    Within depth (do act t a; callProtocol t m)
      (fun _ s' => s.Onward s' ∧ Called t s s') s := by
  have h₁ : s.Onward (s.act t a) := .act hon
  have hlt₁ : ((s.act t a).tr t).remaining < (s.tr t).remaining := by rwa [State.tr_act_self]
  refine .bind (Within.act hs hon ?_)
  have hfewer := lt_of_lt_of_le (h₁.sum_lt hs hmade hlt₁) hle
  refine (within_callProtocol hn (h₁.tidy hs) hfewer).mono fun _ s' h' => ⟨h₁.trans h', .inr ?_⟩
  exact lt_of_le_of_lt (h'.tr t).remaining hlt₁

/-- The protocol is paused over what libuv holds. -/
theorem within_maybePauseProtocol (hs : s.Tidy) (hmade : (s.tr t).made = true)
    (hle : s.remaining ≤ n) (hempty : (s.tr t).pending = []) (hopen : (s.tr t).isClosing = false) :
    Within depth (maybePauseProtocol t) (fun _ s' => s.Onward s' ∧ Called t s s') s := by
  refine .bind (Within.self ?_)
  refine .ite (fun _ => .pure ⟨.refl s, .inl rfl⟩) fun hhigh => ?_
  refine .ite (fun _ => .pure ⟨.refl s, .inl rfl⟩) fun hpaused => ?_
  have hlt := Transport.remaining_pauseWriting (hs.tr t) hopen hempty (Nat.lt_of_not_le hhigh)
    (Bool.not_eq_true _ ▸ hpaused)
  exact within_called hn hs hmade hle (.of_lt rfl hlt) hlt

/-- The protocol is resumed. -/
theorem within_maybeResumeProtocol (hs : s.Tidy) (hmade : (s.tr t).made = true)
    (hle : s.remaining ≤ n) :
    Within depth (maybeResumeProtocol t) (fun _ s' => s.Onward s' ∧ Called t s s') s := by
  refine .bind (Within.self ?_)
  refine .ite (fun _ => .pure ⟨.refl s, .inl rfl⟩) fun hopen => ?_
  refine .ite (fun _ => .pure ⟨.refl s, .inl rfl⟩) fun hpaused => ?_
  refine .ite (fun _ => .pure ⟨.refl s, .inl rfl⟩) fun hlow => ?_
  have hlt := Transport.remaining_resumeWriting (Bool.not_eq_true _ ▸ hopen) (Nat.le_of_not_lt hlow)
    (by simpa using hpaused)
  exact within_called hn hs hmade hle (.of_lt rfl hlt) hlt

/-! ## Flushing -/

omit hn in
/-- An act that leaves the batch alone, in front of a result. -/
theorem within_act_pure {a : Act} {r : α} (ha : a.steady = true)
    (hkeep : (a.run (s.tr t)).pending = (s.tr t).pending) (hs : s.Tidy)
    (hempty : (s.tr t).pending = []) :
    Within depth (do act t a; pure r) (fun _ s' => s.Onward s' ∧ Flushed t s s') s := by
  refine .bind (Within.act hs (Act.onward ha) (.pure ⟨.act (Act.onward ha), .inr (.inl ?_)⟩))
  rw [State.tr_act_self, hkeep, hempty]

theorem within_queueWrite (fresh : Bytes) (bufs : List Bytes) (views : List ℕ) (hs : s.Tidy)
    (hmade : (s.tr t).made = true) (hle : s.remaining ≤ n) (hempty : (s.tr t).pending = [])
    (hopen : (s.tr t).isClosing = false) :
    Within depth (queueWrite t fresh bufs views)
      (fun _ s' => s.Onward s' ∧ Flushed t s s') s := by
  refine .ite (fun _ => within_act_pure rfl rfl hs hempty) fun _ => ?_
  refine .bind (.map (Within.request fun a _ => ?_))
  refine .ite (fun _ => within_act_pure rfl rfl hs hempty) fun _ => ?_
  refine .bind (Within.request fun a ha => ?_)
  refine .ite (fun _ => within_act_pure rfl rfl hs hempty) fun _ => ?_
  -- libuv has taken the request, and its queue has not become shorter
  have hsubmit : (s.tr t).Onward ((Act.submit fresh bufs views a.size).run (s.tr t)) :=
    Transport.onward_submit ha.2
  have h₁ : s.Onward (s.act t (.submit fresh bufs views a.size)) := .act hsubmit
  refine .bind (Within.act hs hsubmit ?_)
  refine .bind ((within_maybePauseProtocol hn (h₁.tidy hs) (h₁.made hmade) (h₁.sum_le.trans hle)
    ?_ ?_).mono fun _ s' h' => .pure ⟨h₁.trans h'.1, ?_⟩)
  · rw [State.tr_act_self]
    exact hempty
  · rw [State.tr_act_self]
    exact hopen
  · rcases h'.2 with rfl | hlt
    · refine .inr (.inl ?_)
      rw [State.tr_act_self]
      exact hempty
    · exact .inr (.inr (lt_of_lt_of_le hlt (h₁.tr t).remaining))

theorem within_queueRest (origin : Origin) (rest : List Bytes) (views : List ℕ) (hs : s.Tidy)
    (hmade : (s.tr t).made = true) (hle : s.remaining ≤ n) (hempty : (s.tr t).pending = [])
    (hopen : (s.tr t).isClosing = false) :
    Within depth (queueRest t origin rest views)
      (fun _ s' => s.Onward s' ∧ Flushed t s s') s := by
  refine .bind ((within_queueWrite hn [] rest views hs hmade hle hempty hopen).mono
    fun r s₁ h₁ => ?_)
  cases r with
  | ok => exact .pure h₁
  | error exc =>
    refine .ite (fun _ => ?_) fun _ => .pure h₁
    have h₂ : s₁.Onward (s₁.act t .tear) := .act (Act.onward rfl)
    refine .bind (Within.act (h₁.1.tidy hs) (Act.onward rfl) (.pure ⟨h₁.1.trans h₂, ?_⟩))
    have hsame := State.tr_act_self s₁ t .tear
    rcases h₁.2 with hgives | hnil | hlt
    · exact .inl ((h₂.tr t).givesUp hgives)
    · exact .inr (.inl (hsame ▸ hnil))
    · exact .inr (.inr (lt_of_le_of_lt (h₂.tr t).remaining hlt))

theorem within_writeBufs (origin : Origin) (bufs : List Bytes) (views : List ℕ) (hs : s.Tidy)
    (hmade : (s.tr t).made = true) (hle : s.remaining ≤ n) (hempty : (s.tr t).pending = []) :
    Within depth (writeBufs t origin bufs views)
      (fun _ s' => s.Onward s' ∧ Flushed t s s') s := by
  refine .bind (.bind (Within.self ?_))
  -- `acceptsWrite` first: a refused write leaves the batch empty
  have hrefused (r : Except Exc Unit) :
      Within depth (pure r : P _) (fun _ s' => s.Onward s' ∧ Flushed t s s')
        (s.act t (.releaseViews views)) :=
    .pure ⟨.act (Act.onward rfl), .inr (.inl (by rw [State.tr_act_self]; exact hempty))⟩
  refine .ite (fun _ => .bind (Within.act hs (Act.onward rfl) (.pure (hrefused _)))) fun _ => ?_
  refine .ite (fun _ => .bind (Within.act hs (Act.onward rfl) (.pure (hrefused _)))) fun hgone => ?_
  have hopen : (s.tr t).isClosing = false := by
    rw [Transport.isClosing, Bool.or_comm]
    exact Bool.not_eq_true _ ▸ hgone
  refine .pure (.bind (Within.self ?_))
  refine .ite (fun _ => ?_) fun _ => within_queueWrite hn _ _ _ hs hmade hle hempty hopen
  refine .bind (Within.request fun a _ => ?_)
  refine .ite (fun _ => ?_) fun _ => .ite (fun _ => ?_) fun _ =>
    within_queueWrite hn _ _ _ hs hmade hle hempty hopen
  · -- the socket took something
    set took := Act.took (origin.fresh bufs) (bufs.flatten.take a.status.toNat)
    have h₁ : s.Onward (s.act t took) := .act (Act.onward rfl)
    have hempty₁ : ((s.act t took).tr t).pending = [] := by
      rw [State.tr_act_self]
      exact hempty
    refine .bind (Within.act hs (Act.onward rfl) (.ite (fun _ => ?_) fun _ => ?_))
    · refine (within_act_pure rfl rfl (h₁.tidy hs) hempty₁).mono fun _ s' h' => ?_
      exact ⟨h₁.trans h'.1, h'.2.of_onward h₁⟩
    · refine (within_queueRest hn origin _ _ (h₁.tidy hs) (h₁.made hmade) (h₁.sum_le.trans hle)
        hempty₁ ?_).mono fun _ s' h' => ⟨h₁.trans h'.1, h'.2.of_onward h₁⟩
      rw [State.tr_act_self]
      exact hopen
  · -- the socket failed
    have h₁ : s.Onward (s.act t (.releaseViews views)) := .act (Act.onward rfl)
    refine .bind (Within.act hs (Act.onward rfl) (.bind ?_))
    refine (within_forceClose _ _ (h₁.tidy hs) (h₁.made hmade)).mono fun _ s' h' => ?_
    exact .pure ⟨h₁.trans h'.1, .inl h'.2⟩

/-- A flush leaves an empty batch, unless the transport gives up or the protocol is called. -/
theorem within_flushPending (hs : s.Tidy) (hmade : (s.tr t).made = true)
    (hle : s.remaining ≤ n) :
    Within depth (flushPending t) (fun _ s' => s.Onward s' ∧ Flushed t s s') s := by
  refine .bind (Within.self ?_)
  refine .ite (fun hempty => .pure ⟨.refl s, .inr (.inl hempty)⟩) fun _ => ?_
  have h₁ : s.Onward (s.act t .takePending) := .act (Act.onward rfl)
  refine .bind (Within.act hs (Act.onward rfl) (.bind ?_))
  have hempty : ((s.act t .takePending).tr t).pending = [] := by
    rw [State.tr_act_self]
    rfl
  refine (within_writeBufs hn .batch _ _ (h₁.tidy hs) (h₁.made hmade) (h₁.sum_le.trans hle)
    hempty).mono fun r s₂ h₂ => ?_
  have hon := h₁.trans h₂.1
  have hflushed : Flushed t s s₂ := h₂.2.of_onward h₁
  cases r with
  | error exc =>
    refine (within_forceClose _ _ (hon.tidy hs) (hon.made hmade)).mono fun _ s' h' => ?_
    exact ⟨hon.trans h'.1, .inl h'.2⟩
  | ok =>
    refine (within_maybeResumeProtocol hn (hon.tidy hs) (hon.made hmade)
      (hon.sum_le.trans hle)).mono fun _ s' h' => ⟨hon.trans h'.1, ?_⟩
    rcases h'.2 with rfl | hlt
    · exact hflushed
    · exact .inr (.inr (lt_of_lt_of_le hlt (hon.tr t).remaining))

theorem Moves.flushPending : Moves (some t) n depth (Stream.flushPending t) :=
  fun _ hs hmade hle => (within_flushPending hn hs hmade hle).mono fun _ _ h => h.1

/-! ## Making room -/

/-- The loop of `appendPending` takes at most one round more than there are calls of the protocol
left: a round that leaves the batch full has used one up. -/
theorem within_makeRoomBody {rounds : ℕ} (hs : s.Tidy) (hmade : (s.tr t).made = true)
    (hle : s.remaining ≤ n) (hrounds : (s.tr t).remaining ≤ rounds) :
    Within rounds (makeRoomBody t) (fun _ s' => s.Onward s' ∧
      ((s'.tr t).givesUp = true ∨ (s'.tr t).pending.length < pendingMax)) s := by
  induction rounds generalizing s with
  | zero =>
    refine .bind ((within_flushPending hn hs hmade hle).mono fun _ s₁ h₁ => .bind (Within.self ?_))
    refine .ite (fun hgives => .pure ⟨h₁.1, .inl hgives⟩) fun hgives => ?_
    have hroom : (s₁.tr t).pending = [] := by
      rcases h₁.2 with h | h | h
      · exact absurd h hgives
      · exact h
      · omega
    refine .ite (fun hfull => ?_) fun _ => .pure ⟨h₁.1, .inr ?_⟩
    · rw [Transport.full, hroom] at hfull
      cases hfull
    · rw [hroom]
      exact Nat.zero_lt_succ _
  | succ rounds ih =>
    refine .bind ((within_flushPending hn hs hmade hle).mono fun _ s₁ h₁ => .bind (Within.self ?_))
    refine .ite (fun hgives => .pure ⟨h₁.1, .inl hgives⟩) fun hgives => ?_
    refine .ite (fun hfull => ?_) fun hfull => .pure ⟨h₁.1, .inr ?_⟩
    · -- the batch was filled again, by the protocol
      have hlt : (s₁.tr t).remaining < (s.tr t).remaining := by
        rcases h₁.2 with h | h | h
        · exact absurd h hgives
        · rw [Transport.full, h] at hfull
          cases hfull
        · exact h
      refine .invoke ((ih (h₁.1.tidy hs) (h₁.1.made hmade) (h₁.1.sum_le.trans hle)
        (by omega)).mono fun _ s' h' => ⟨h₁.1.trans h'.1, h'.2⟩)
    · have hfits := ((h₁.1.tidy hs).tr t).room
      rw [Transport.full, beq_iff_eq] at hfull
      omega

/-- The loop, from its first round on. -/
theorem within_makeRoom (hs : s.Tidy) (hmade : (s.tr t).made = true) (hle : s.remaining ≤ n) :
    Within 3 (Prog.invoke (S := sig) (.makeRoom t)) (fun _ s' => s.Onward s' ∧
      ((s'.tr t).givesUp = true ∨ (s'.tr t).pending.length < pendingMax)) s :=
  .invoke (within_makeRoomBody hn hs hmade hle (s.tr t).remaining_le_two)

omit hn in
theorem Moves.scheduleFlush : Moves (some t) n depth (Stream.scheduleFlush t) :=
  .bind .getState fun _ => .ite (.act rfl) (.ite (.update fun _ => .queueFlush t) (.pure ()))

omit hn in
/-- A buffer is stored where there is room for it. -/
theorem within_store {b : Buf} {p : P Unit} (hp : Moves (some t) n depth p) (hs : s.Tidy)
    (hmade : (s.tr t).made = true) (hle : s.remaining ≤ n)
    (hroom : (s.tr t).pending.length < pendingMax) :
    Within depth (do act t (.store b); p) (fun _ s' => s.Onward s') s := by
  have h₁ : s.Onward (s.act t (.store b)) := .act (Transport.onward_store hroom)
  refine .bind (Within.act hs (Transport.onward_store hroom) ?_)
  exact hp.within (h₁.tidy hs) (h₁.made hmade) (h₁.sum_le.trans hle) fun _ s' h' => h₁.trans h'

theorem Moves.appendPending (bufs : List Buf) :
    Moves (some t) n 3 (Stream.appendPending t bufs) := by
  induction bufs with
  | nil => exact .scheduleFlush
  | cons b rest ih =>
    intro s hs hmade hle
    refine .bind (Within.self (.ite (fun _ => .bind ?_) fun hfull => ?_))
    · refine (within_makeRoom hn hs hmade hle).mono fun _ s₁ h₁ => .bind (Within.self ?_)
      have hon := h₁.1
      refine .ite (fun _ => ?_) fun hgives => ?_
      · exact Within.act (hon.tidy hs) (Act.onward rfl) (hon.trans (.act (Act.onward rfl)))
      · have hroom := h₁.2.resolve_left hgives
        refine (within_store ih (hon.tidy hs) (hon.made hmade) (hon.sum_le.trans hle) hroom).mono
          fun _ s' h' => hon.trans h'
    · -- the batch is not full, and never holds more than it has room for
      have hroom := (hs.tr t).room
      rw [Transport.full, beq_iff_eq] at hfull
      exact within_store ih hs hmade hle (by omega)

/-! ## The methods -/

omit hn in
theorem Moves.acceptsWrite (views : List ℕ) :
    Moves (some t) n depth (Stream.acceptsWrite t views) :=
  .bind (.self t) fun _ => .ite (.bind (.act rfl) fun _ => .pure _)
    (.ite (.bind (.act rfl) fun _ => .pure _) (.pure _))

theorem Moves.submitWrite (bufs : List Buf) :
    Moves (some t) n 3 (Stream.submitWrite t bufs) := by
  intro s hs hmade hle
  refine .bind (Within.self (.ite (fun h => ?_) fun _ => ?_))
  · refine .bind ((within_writeBufs hn .direct _ _ hs hmade hle h.1).mono fun r s₁ h₁ => ?_)
    cases r with
    | error exc => exact .pure h₁.1
    | ok =>
      exact .bind ((within_maybeResumeProtocol hn (h₁.1.tidy hs) (h₁.1.made hmade)
        (h₁.1.sum_le.trans hle)).mono fun _ s' h' => .pure (h₁.1.trans h'.1))
  · have hrest : Moves (some t) n 3 (do
        Stream.appendPending t bufs
        let s ← Stream.getState
        if !s.running then Stream.flushPending t
        return (.ok () : Except Exc Unit)) :=
      .bind (.appendPending hn bufs) fun _ => .bind .getState fun _ =>
        .ite (.bind (.flushPending hn) fun _ => .pure _) (.pure _)
    have haccepts : Moves (some t) n 3 (Stream.acceptsWrite t (bufs.map Buf.view)) :=
      .acceptsWrite _
    refine (haccepts.bind fun r => ?_) s hs hmade hle
    rcases r with exc | _ | _
    · exact .pure _
    · exact .pure _
    · exact hrest

theorem Moves.write : Moves (some t) n 3 (Stream.write t) := by
  refine .bind (.acquireWriteView t) fun r => ?_
  cases r with
  | error exc => exact .pure _
  | ok b =>
    exact .bind (.self t) fun _ => .ite (.bind (.act rfl) fun _ => .pure _)
      (.ite (.bind (.act rfl) fun _ => .pure _) (.submitWrite hn [b]))

theorem Moves.writelines : Moves (some t) n 3 (Stream.writelines t) := by
  refine .bind (.self t) fun _ => .ite (.pure _) ?_
  refine .bind (.foreign_idle fun _ _ hw => hw) fun r => ?_
  split
  · exact .pure _
  · refine .ite (.pure _) (.bind .alloc fun _ => .ite (.pure _) ?_)
    refine .bind (.acquireAll t _ _) fun r => ?_
    cases r with
    | error exc => exact .pure _
    | ok bufs => exact .submitWrite hn bufs

omit hn in
theorem Moves.shutdownWrite : Moves (some t) n depth (Stream.shutdownWrite t) :=
  .bind .alloc fun _ => .ite (.bind (.request _) fun _ => .act rfl) (.forceClose _ _)

theorem Moves.writeEof : Moves (some t) n depth (Stream.writeEof t) :=
  .bind (.self t) fun _ => .ite (.pure ()) (.bind (.act rfl) fun _ => .bind (.flushPending hn)
    fun _ => .bind (.act rfl) fun _ => .bind (.self t) fun _ => .ite .shutdownWrite (.pure ()))

theorem Moves.closeTransport : Moves (some t) n depth (Stream.closeTransport t) := by
  refine .bind (.act rfl) fun _ => .bind (.self t) fun _ => .ite (.pure ()) ?_
  refine .bind (.flushPending hn) fun _ => .bind (.act rfl) fun _ => .bind (.self t) fun tr => ?_
  have hrest : Moves (some t) n depth
      (if tr.writeBufferSize = 0 then Stream.shutdownAndClose t else Pure.pure ()) :=
    .ite (.shutdownAndClose t) (.pure ())
  exact .ite (.bind (.act rfl) fun _ => .pure ()) (.ite (.bind (.act rfl) fun _ => hrest) hrest)

theorem Moves.close : Moves (some t) n depth (Stream.close t) :=
  .bind (.self t) fun _ => .ite (.bind (.act rfl) fun _ => .closeTransport hn) (.closeTransport hn)

/-- Every method foreign code may call goes onward. -/
theorem Moves.run {op : Op} (hop : op.mild = true) : Moves op.transport? n 3 (Stream.run op) := by
  cases op with
  | write => exact (Moves.write hn).map _
  | writelines => exact (Moves.writelines hn).map _
  | writeEof => exact .writeEof hn
  | close => exact .close hn
  | abort | forceClose => exact .forceClose _ _
  | pauseReading => exact .pauseReading _
  | resumeReading => exact (Moves.bind (.act rfl) fun _ => .startReading _).map _
  | setProtocol | adoptPipe => exact .act rfl
  | adoptSocketView => exact .bind (.releaseSocketView _) fun _ => .act rfl
  | callSoon =>
    refine (Moves.bind .getState fun s => .ite (.pure _) (.bind .alloc fun ok => ?_)).map _
    split
    · exact .pure _
    · exact .bind (.update fun s => .of_eq rfl rfl) fun _ => .pure _
  | stop => exact .update fun s => .of_eq rfl rfl
  | _ => cases hop

theorem Moves.entry {op : Op} (hop : op.mild = true) :
    Moves op.transport? n 3 (Stream.entry op) := by
  have hfinish : Moves op.transport? n 3 (finish op) := by
    cases op with
    | prepare => cases hop
    | _ => exact .update fun s => .of_eq rfl rfl
  exact .bind (.update fun s => .of_eq rfl rfl) fun _ => .bind (.run hn hop) fun _ => hfinish

end Handled

/-! ## All of foreign code -/

/-- Whatever foreign code does goes onward. The induction is on the number of calls of protocols
that are left: the calls a plan makes start with no more than the plan, and the calls of protocols
they make leave fewer. -/
theorem handled (n : ℕ) : Handled n := by
  induction n with
  | zero => exact fun s _ hlt => absurd hlt (Nat.not_lt_zero _)
  | succ n ih =>
    intro s hs hlt c w hw
    have hidle (hw : w.Idle) : Within 3 (w.prog system) (fun _ s' => s.Onward s') s := by
      cases w with
      | done r => exact .ret (.refl s)
      | start op k => exact absurd hw id
    have hplan (hw : w.Starts fun op : Op => op.mild = true ∧ op.On s) :
        Within 3 (w.prog system) (fun _ s' => s.Onward s') s := by
      refine Bounded.plan State.Onward.refl (fun _ _ _ => .trans) hw fun op s₁ hop h₁ => ?_
      exact Moves.entry ih hop.1 s₁ (h₁.tidy hs) (Moves.all_made h₁ hop.2)
        (h₁.sum_le.trans (Nat.le_of_lt_succ hlt))
    cases c with
    | protocol | exceptionHandler => exact hplan hw
    | _ => exact hidle hw

/-- From every reachable state, storing any buffers in the batch of a transport ends, and flushes
the batch at most three times for each buffer; so does every method of a transport or of the loop
that may be called while the protocol is paused or resumed. Every batch fits at all times, at every
depth of reentry. -/
theorem appendPending_ends (h : Reachable s) :
    (∀ t bufs, (s.tr t).made = true →
      Within 3 (appendPending t bufs) (fun _ s' => s'.Fits) s) ∧
    ∀ op : Op, op.mild = true → op.On s → Within 3 (entry op) (fun _ s' => s'.Fits) s := by
  have hs := h.tidy
  have hn := handled s.remaining
  refine ⟨fun t bufs hmade => ?_, fun op hop hon => ?_⟩
  · exact (Moves.appendPending hn bufs s hs hmade (Nat.le_refl _)).mono
      fun _ s' h' => (h'.tidy hs).fits
  · exact (Moves.entry hn hop s hs hon (Nat.le_refl _)).mono fun _ s' h' => (h'.tidy hs).fits

/-- Four writes in `connection_made` fill the batch; a fifth makes room in it. -/
theorem appendPending_ends_full :
    ∃ s stack, system.Reachable (env True) ⟨s, none, stack⟩ ∧ (s.tr 0).full = true ∧
      Within 3 (appendPending 0 [⟨[5], 4⟩]) (fun _ s' => s'.Fits) s := by
  have hplay : ∃ s stack, system.play (env True) 100
      (opening .plain ++ [.start .runBegin, .start .onIdle] ++
        [.start (.write 0), exported [1], .start (.write 0), exported [2],
          .start (.write 0), exported [3], .start (.write 0), exported [4]])
      system.initial = some ⟨s, none, stack⟩ ∧ (s.tr 0).full = true ∧ (s.tr 0).made = true :=
    ⟨_, _, rfl, rfl, rfl⟩
  obtain ⟨s, stack, hrun, hfull, hmade⟩ := hplay
  have hreach := System.Reachable.initial.play hrun
  have hinv : Inv True s := (verified True).in_foreign (not_quiet True) hreach
  exact ⟨s, stack, hreach, hfull, (appendPending_ends hinv.reach).1 0 _ hmade⟩

end Zuvloop.Stream
