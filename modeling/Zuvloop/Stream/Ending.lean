import Zuvloop.Stream.Writelines

/-!
# Writes end

A `writelines` loops as long as the batch is full, and the batch may be filled again while it is
flushed. When Python code returns at once it is not, so that every list of buffers has a run of
`writelines` that ends, in every environment that has an answer to every question.

## Main results

* `exists_run_writelines`: every list of buffers has a run of `writelines`.
-/

namespace Zuvloop.Stream

open Reentrant

/-- Something is always answered, and Python code can return at once, without raising. -/
structure Responsive (E : Env sig) (R : Callback → State → State → Prop) : Prop where
  /-- Every question has an answer, and memory can be had. -/
  answers : ∀ s q, ∃ a, E.answers s q a ∧ a.ok = true
  /-- Python code can return everything that is no exception. -/
  returns : ∀ s c r, r.raised = none → E.returns s c r
  /-- It can return at once. -/
  atOnce : ∀ c s, R c s s

/-- The program has a run in which these buffers are exported, and that ends as `Q` says. -/
def Exports (E : Env sig) (R : Callback → State → State → Prop) {α : Type} (p : P α)
    (data : List Bytes) (Q : α → State → Prop) (s : State) : Prop :=
  ∃ a s' log, Run system E R p s a s' log ∧ Q a s' ∧ buffers log = data

/-- The program has a run that exports no buffer, and that ends as `Q` says. -/
abbrev Quietly (E : Env sig) (R : Callback → State → State → Prop) {α : Type} (p : P α)
    (Q : α → State → Prop) (s : State) : Prop := Exports E R p [] Q s

/-- From states with nothing pending the program has a run that ends with nothing pending, and
exports no buffer. -/
def Settles (t : ℕ) (E : Env sig) (R : Callback → State → State → Prop) {α : Type} (p : P α) :
    Prop :=
  ∀ s, (s.tr t).pending = [] → Quietly E R p (fun _ s' => (s'.tr t).pending = []) s

variable {t : ℕ} {E : Env sig} {R : Callback → State → State → Prop} {α β : Type}
  {s s₁ s' : State}

namespace Exports

theorem bind {p : P α} {f : α → P β} {d e : List Bytes} {Q : β → State → Prop}
    (h : Exports E R p d (fun a s₁ => Exports E R (f a) e Q s₁) s) :
    Exports E R (p >>= f) (d ++ e) Q s := by
  obtain ⟨a, s₁, log₁, hrun₁, ⟨b, s', log₂, hrun₂, hQ, hlog₂⟩, hlog₁⟩ := h
  refine ⟨b, s', log₁ ++ log₂, hrun₁.bind hrun₂, hQ, ?_⟩
  rw [buffers_append, hlog₁, hlog₂]

theorem mono {p : P α} {data : List Bytes} {Q Q' : α → State → Prop} (h : Exports E R p data Q s)
    (hQ : ∀ a s', Q a s' → Q' a s') : Exports E R p data Q' s := by
  obtain ⟨a, s', log, hrun, hq, hlog⟩ := h
  exact ⟨a, s', log, hrun, hQ a s' hq, hlog⟩

/-- What is run first exports nothing. -/
theorem after {p : P α} {f : α → P β} {data : List Bytes} {Q : β → State → Prop}
    (h : Quietly E R p (fun a s₁ => Exports E R (f a) data Q s₁) s) :
    Exports E R (p >>= f) data Q s := h.bind

theorem pure {a : α} {Q : α → State → Prop} (h : Q a s) :
    Quietly E R (Pure.pure a : P α) Q s := ⟨a, s, [], .ret _ _, h, rfl⟩

theorem self {u : ℕ} {Q : Transport → State → Prop} (h : Q (s.tr u) s) :
    Quietly E R (Stream.self u) Q s := ⟨s.tr u, s, [], .get (.ret _ _), h, rfl⟩

theorem getState {Q : State → State → Prop} (h : Q s s) : Quietly E R Stream.getState Q s :=
  ⟨s, s, [], .get (.ret _ _), h, rfl⟩

theorem update {f : State → State} {Q : Unit → State → Prop} (h : Q () (f s)) :
    Quietly E R (Stream.update f) Q s := ⟨(), f s, _, .get (.set (.ret _ _)), h, rfl⟩

theorem act {u : ℕ} {a : Act} {Q : Unit → State → Prop} (h : Q () (s.act u a)) :
    Quietly E R (Stream.act u a) Q s := update h

end Exports

namespace Settles

theorem bind {p : P α} {f : α → P β} (hp : Settles t E R p) (hf : ∀ a, Settles t E R (f a)) :
    Settles t E R (p >>= f) := by
  intro s hs
  exact Exports.after ((hp s hs).mono fun a s₁ hs₁ => hf a s₁ hs₁)

theorem ite {c : Prop} [Decidable c] {p q : P α} (hp : Settles t E R p) (hq : Settles t E R q) :
    Settles t E R (if c then p else q) := by
  split
  · exact hp
  · exact hq

theorem pure (a : α) : Settles t E R (Pure.pure a : P α) := fun _ hs => .pure hs

theorem self (u : ℕ) : Settles t E R (Stream.self u) := fun _ hs => .self hs

theorem update {f : State → State} (hf : ∀ s, ((f s).tr t).pending = (s.tr t).pending) :
    Settles t E R (Stream.update f) :=
  fun s hs => .update ((hf s).trans hs)

theorem act {a : Act} (ha : ∀ tr : Transport, (a.run tr).pending = tr.pending) :
    Settles t E R (Stream.act t a) :=
  update fun s => by rw [State.tr_act_self, ha]

theorem map {p : P α} (hp : Settles t E R p) (f : α → β) : Settles t E R (f <$> p) := by
  intro s hs
  obtain ⟨a, s', log, hrun, hs', hlog⟩ := hp s hs
  exact ⟨f a, s', log, hrun.map f, hs', hlog⟩

section Responsive

variable (hE : Responsive E R)

include hE

theorem request (q : Request) : Settles t E R (Stream.request q) := by
  intro s hs
  obtain ⟨a, ha, -⟩ := hE.answers s q
  exact ⟨a, s, [], .ask a ha (.ret _ _), hs, rfl⟩

theorem alloc : Settles t E R Stream.alloc := (request hE .alloc).map _

theorem foreign {c : Callback} (hc : c ≠ .acquire) : Settles t E R (Stream.foreign c) := by
  intro s hs
  refine ⟨⟨none, [], true, 0⟩, s, _, .yield _ (hE.atOnce c s) (hE.returns _ _ _ rfl) (.ret _ _), hs,
    ?_⟩
  cases c with
  | acquire => exact absurd rfl hc
  | _ => rfl

theorem python {c : Callback} (hc : c ≠ .acquire) : Settles t E R (Stream.python c) :=
  (foreign hE hc).map _

theorem callProtocol (m : Method) : Settles t E R (Stream.callProtocol t m) :=
  .bind (.self t) fun _ => .ite (.bind (.foreign hE (by simp)) fun _ =>
    .ite (.python hE (by simp)) (.pure ())) (.pure ())

theorem maybePauseProtocol : Settles t E R (Stream.maybePauseProtocol t) :=
  .bind (.self t) fun _ => .ite (.pure ()) (.ite (.pure ())
    (.bind (.act fun tr => by rw [Act.run, Transport.recordCall_eq]) fun _ => .callProtocol hE _))

theorem maybeResumeProtocol : Settles t E R (Stream.maybeResumeProtocol t) :=
  .bind (.self t) fun _ => .ite (.pure ()) (.ite (.pure ()) (.ite (.pure ())
    (.bind (.act fun tr => by rw [Act.run, Transport.recordCall_eq]) fun _ => .callProtocol hE _)))

theorem shutdownAndClose : Settles t E R (Stream.shutdownAndClose t) := by
  have hrelease : Settles t E R (releaseSocketView t) :=
    .bind (.self t) fun _ => .ite (.bind (.act fun _ => rfl) fun _ => .python hE (by simp))
      (.pure ())
  have hclose : Settles t E R (closeExternalHandle t) := by
    refine .bind (.self t) fun _ => .ite (.update fun s => ?_) (.pure ())
    have htr : (s.uvClose t).tr t = Act.uvClose.run (s.tr t) := Function.update_self ..
    rw [htr]
    rfl
  have hrest := hrelease.bind fun _ => hclose
  exact .bind (.self t) fun _ => .ite (.bind (.act fun _ => rfl) fun _ =>
    .ite (.bind (.act fun _ => rfl) fun _ => hrest) hrest) (.pure ())

theorem forceClose (cause : Cause) (exc : Option Exc) :
    Settles t E R (Stream.forceClose t cause exc) := by
  have hdiscard : Settles t E R (Stream.act t .discardPending) := by
    intro s _
    refine .act ?_
    rw [State.tr_act_self]
    rfl
  have hclosing : Settles t E R (Stream.act t .setClosing) := .act fun tr => by
    rw [Act.run]
    split <;> rfl
  exact .bind (.act fun _ => rfl) fun _ => .bind hdiscard fun _ =>
    .bind (.act fun _ => rfl) fun _ => .bind hclosing fun _ =>
      .bind (.act fun _ => rfl) fun _ => .bind (.self t) fun _ =>
        .ite (.act fun _ => rfl) (.shutdownAndClose hE)

theorem queueWrite (fresh : Bytes) (bufs : List Bytes) (views : List ℕ) :
    Settles t E R (Stream.queueWrite t fresh bufs views) := by
  have hrelease : ∀ r : Except Exc Unit, Settles t E R
      (Stream.act t (.releaseViews views) >>= fun _ => Pure.pure r) :=
    fun r => .bind (.act fun _ => rfl) fun _ => .pure r
  exact .ite (hrelease _) (.bind (.alloc hE) fun _ => .ite (hrelease _) (.bind (.request hE _)
    fun _ => .ite (hrelease _) (.bind (.act fun _ => rfl) fun _ =>
      .bind (.maybePauseProtocol hE) fun _ => .pure _)))

omit hE in
theorem acceptsWrite (views : List ℕ) : Settles t E R (Stream.acceptsWrite t views) := by
  have hrefuse : ∀ r : Except Exc Bool, Settles t E R
      (Stream.act t (.releaseViews views) >>= fun _ => Pure.pure r) :=
    fun r => .bind (.act fun _ => rfl) fun _ => .pure r
  exact .bind (.self t) fun _ => .ite (hrefuse _) (.ite (hrefuse _) (.pure _))

theorem queueRest (origin : Origin) (bufs : List Bytes) (views : List ℕ) :
    Settles t E R (Stream.queueRest t origin bufs views) := by
  refine .bind (queueWrite hE _ _ _) fun r => ?_
  cases r with
  | ok => exact .pure _
  | error => exact .ite (.bind (.act fun _ => rfl) fun _ => .pure _) (.pure _)

theorem writeBufs (origin : Origin) (bufs : List Bytes) (views : List ℕ) :
    Settles t E R (Stream.writeBufs t origin bufs views) := by
  refine .bind (acceptsWrite views) fun r => ?_
  rcases r with exc | _ | _
  · exact .pure _
  · exact .pure _
  · refine .bind (.self t) fun _ => .ite (.bind (.request hE _) fun _ => .ite (.bind
      (.act fun _ => rfl) fun _ => .ite (.bind (.act fun _ => rfl) fun _ => .pure _)
        (.queueRest hE _ _ _)) (.ite ?_ (.queueWrite hE _ _ _))) (.queueWrite hE _ _ _)
    exact .bind (.act fun _ => rfl) fun _ => .bind (.forceClose hE _ _) fun _ => .pure _

end Responsive

end Settles

/-! ## Writing a list of buffers -/

section Writing

variable (hE : Responsive E R)

include hE

/-- A batch can be flushed. -/
theorem quietly_flushPending (s : State) :
    Quietly E R (flushPending t) (fun _ s' => (s'.tr t).pending = []) s := by
  refine .after (.self ?_)
  split
  · exact .pure ‹_›
  -- from here on nothing is pending
  have htaken : ((s.act t .takePending).tr t).pending = [] := by
    rw [State.tr_act_self]
    rfl
  refine .after (.act (.after ((Settles.writeBufs hE _ _ _ _ htaken).mono fun r s₁ hs₁ => ?_)))
  cases r with
  | error exc => exact Settles.forceClose hE _ _ s₁ hs₁
  | ok => exact Settles.maybeResumeProtocol hE s₁ hs₁

/-- Room can be made in a full batch. -/
theorem quietly_makeRoom (s : State) :
    Quietly E R (Prog.invoke (S := sig) (.makeRoom t)) (fun _ s' => (s'.tr t).pending = []) s := by
  have hbody : Quietly E R (makeRoomBody t) (fun _ s' => (s'.tr t).pending = []) s := by
    refine .after ((quietly_flushPending hE s).mono fun _ s₁ hs₁ => .after (.self ?_))
    split
    · exact .pure hs₁
    -- an empty batch is not full, so that the loop ends
    · rw [if_neg (by simp [Transport.full, hs₁, pendingMax])]
      exact .pure hs₁
  obtain ⟨_, s', log, hrun, hs', hlog⟩ := hbody
  refine ⟨(), s', log ++ [], .call hrun (.ret _ _), hs', ?_⟩
  rw [List.append_nil, hlog]

omit hE in
theorem quietly_scheduleFlush (s : State) :
    Quietly E R (scheduleFlush t) (fun _ _ => True) s := by
  refine .after (.getState ?_)
  split
  · exact .act trivial
  · split
    · exact .update trivial
    · exact .pure trivial

/-- A batch takes every list of buffers, one after the other. -/
theorem quietly_appendPending (bufs : List Buf) (s : State) :
    Quietly E R (appendPending t bufs) (fun _ _ => True) s := by
  induction bufs generalizing s with
  | nil => exact quietly_scheduleFlush s
  | cons b rest ih =>
    have hstore : ∀ s, Quietly E R (act t (.store b) >>= fun _ => appendPending t rest)
        (fun _ _ => True) s := fun s => .after (.act (ih _))
    refine .after (.self ?_)
    split
    · refine .after ((quietly_makeRoom hE s).mono fun _ s₁ _ => .after (.self ?_))
      split
      · exact .act trivial
      · exact hstore s₁
    · exact hstore s

omit hE in
theorem quietly_acceptsWrite (views : List ℕ) (s : State) :
    Quietly E R (acceptsWrite t views) (fun _ _ => True) s := by
  have hrefuse : ∀ r : Except Exc Bool, Quietly E R
      (act t (.releaseViews views) >>= fun _ => pure r) (fun _ _ => True) s :=
    fun r => .after (.act (.pure trivial))
  refine .after (.self ?_)
  split
  · exact hrefuse _
  · split
    · exact hrefuse _
    · exact .pure trivial

theorem quietly_submitWrite (bufs : List Buf) (s : State) :
    Quietly E R (submitWrite t bufs) (fun _ _ => True) s := by
  refine .after (.self ?_)
  split
  · -- the vector goes straight to libuv, with nothing pending
    next hdirect =>
    refine .after ((Settles.writeBufs hE _ _ _ s hdirect.1).mono fun r s₁ hs₁ => ?_)
    cases r with
    | error exc => exact .pure trivial
    | ok =>
      exact .after ((Settles.maybeResumeProtocol hE s₁ hs₁).mono fun _ _ _ => .pure trivial)
  · refine .after ((quietly_acceptsWrite _ s).mono fun r s₁ _ => ?_)
    rcases r with exc | _ | _
    · exact .pure trivial
    · exact .pure trivial
    refine .after ((quietly_appendPending hE bufs s₁).mono fun _ s₂ _ => .after (.getState ?_))
    split
    · exact .after ((quietly_flushPending hE s₂).mono fun _ _ _ => .pure trivial)
    · exact .after (.pure (.pure trivial))

/-- The items are exported as the buffers of any list. -/
theorem exports_acquireAll (items : List Bytes) (bufs : List Buf) (s : State) :
    Exports E R (acquireAll t items.length bufs) items (fun r _ => ∃ bufs', r = .ok bufs') s := by
  induction items generalizing bufs s with
  | nil => exact .pure ⟨bufs, rfl⟩
  | cons data items ih =>
    have hview : Exports E R (acquireWriteView t) [data] (fun r _ => ∃ b, r = .ok b) s := by
      have hexport : Exports E R (foreign .acquire) [data] (fun r _ => r.raised = none) s :=
        ⟨⟨none, data, true, 0⟩, s, _, .yield _ (hE.atOnce _ s) (hE.returns _ _ _ rfl) (.ret _ _),
          rfl, rfl⟩
      refine Exports.bind (e := []) (hexport.mono fun r s₁ hr => ?_)
      simp only [hr]
      exact .after (.self (.after (.act (.pure ⟨_, rfl⟩))))
    refine Exports.bind (d := [data]) (hview.mono fun r s₁ hr => ?_)
    obtain ⟨b, rfl⟩ := hr
    exact ih (bufs ++ [b]) s₁

/-- `writelines` can be run with every list of buffers, before `write_eof()`. -/
theorem exists_run_writelines (items : List Bytes) (s : State)
    (heof : (s.tr t).eofWritten = false) :
    ∃ s' log, Run system E R (system.entry (.writelines t)) s () s' log ∧ buffers log = items := by
  have hlines : Exports E R (writelines t) items (fun _ _ => True) s.enter := by
    have hopen : (s.enter.tr t).eofWritten = false := heof
    refine .after (.self ?_)
    rw [if_neg (by simp [hopen])]
    have hiterate : Quietly E R (foreign .iterate)
        (fun r _ => r.raised = none ∧ r.value.toNat = items.length) s.enter :=
      ⟨⟨none, [], true, items.length⟩, _, _, .yield _ (hE.atOnce _ _) (hE.returns _ _ _ rfl)
        (.ret _ _), ⟨rfl, rfl⟩, rfl⟩
    refine .after (hiterate.mono fun r s₁ hr => ?_)
    simp only [hr.1, hr.2]
    split
    · obtain rfl := List.length_eq_zero_iff.mp ‹_›
      exact .pure trivial
    have halloc : Quietly E R alloc (fun ok _ => ok = true) s₁ := by
      obtain ⟨a, ha, hok⟩ := hE.answers s₁ .alloc
      exact ⟨a.ok, s₁, [], .ask a ha (.ret _ _), hok, rfl⟩
    refine .after (halloc.mono fun ok s₂ hok => ?_)
    rw [if_neg (by simp [hok])]
    rw [← List.append_nil items]
    refine Exports.bind (e := []) ?_
    rw [List.append_nil]
    refine (exports_acquireAll hE items [] s₂).mono fun r s₃ hr => ?_
    obtain ⟨bufs, rfl⟩ := hr
    exact quietly_submitWrite hE bufs s₃
  have hentry : Exports E R (system.entry (.writelines t)) (items ++ []) (fun _ _ => True) s := by
    obtain ⟨r, s₁, log, hrun, -, hlog⟩ := hlines
    have hmap : Exports E R ((fun _ => ()) <$> writelines t) items (fun _ _ => True) s.enter :=
      ⟨(), s₁, log, hrun.map _, trivial, hlog⟩
    exact .after (.update (hmap.mono fun _ _ _ => .update trivial).bind)
  obtain ⟨_, s', log, hrun, -, hlog⟩ := hentry
  exact ⟨s', log, hrun, hlog.trans (List.append_nil items)⟩

end Writing

end Zuvloop.Stream
