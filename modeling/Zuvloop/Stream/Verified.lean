import Zuvloop.Stream.Callbacks

/-!
# The transports meet their specification

The rules for the parts of the loop that flush the transports and run their callbacks, and for the
entry points. With them every run of the machine is a run of the steps of `Zuvloop.Stream.Steps`.

## Main results

* `verified`: every entry point meets `spec`.
-/

namespace Zuvloop.Stream

open Reentrant

variable {starving : Prop} {t : ℕ} {s : State}

/-! ## The loop -/

/-- A flush went from `s` to `s'`, and visited every transport it had detached. -/
structure Drained (starving : Prop) (s s' : State) : Prop where
  /-- Control may be given away. -/
  inside : Inside starving s'
  /-- The native calls in progress. -/
  depth : s'.depth = s.depth
  /-- Nothing is left on the detached list. -/
  draining : s'.draining = []
  /-- Whether `onFlush` is draining. -/
  flushing : s'.flushing = s.flushing
  /-- The transports about to be closed. -/
  disarming : ∀ u, (s'.tr u).disarming = (s.tr u).disarming
  /-- The transports that allocate a receive buffer. -/
  allocating : ∀ u, (s'.tr u).allocatingReadBuffer = (s.tr u).allocatingReadBuffer
  /-- The views of the writes in progress. -/
  held : ∀ u, (s'.tr u).held = (s.tr u).held
  /-- The loop is as running as it was. -/
  running : s'.running = s.running

/-- A transport on a flush list exists. -/
theorem Global.made_of_listed (h : Global s) (hm : t ∈ s.flushHead ++ s.draining) :
    (s.tr t).made = true := by
  by_contra hnot
  have hq := (h.listed t).mpr hm
  have hle : s.fresh ≤ t := not_lt.mp fun hlt => hnot (h.made t hlt)
  rw [h.blank t hle] at hq
  cases hq

theorem wp_drain {l : List ℕ} {Q : Unit → State → Prop} (h : Inside starving s)
    (hl : s.draining = l) (hQ : ∀ s', Drained starving s s' → Q () s') :
    (drain l).wp (env starving) (spec starving) Q s := by
  induction l generalizing s with
  | nil => exact hQ s ⟨h, rfl, hl, rfl, fun _ => rfl, fun _ => rfl, fun _ => rfl, rfl⟩
  | cons t rest ih =>
    simp only [drain, Prog.wp_bind, wp_update, wp_python]
    have hmade : (s.tr t).made = true :=
      h.reach.global.made_of_listed (List.mem_append_right _ (hl ▸ List.mem_cons_self))
    have hstep : Step false s (s.visit t rest) := .visit t rest rfl hl
    let s₁ := s.visit t rest
    have htr : ∀ u, s₁.tr u = if u = t then (s.tr u).setFlushQueued false else s.tr u :=
      s.tr_visit t rest
    have hself : s₁.tr t = (s.tr t).setFlushQueued false := by rw [htr, if_pos rfl]
    have h₁ : Mid starving t s₁ := by
      refine ⟨h.reach.tail hstep, fun u hu => ?_, h.depth, h.prepared, ?_⟩
      · rw [htr, if_neg hu]
        exact h.settled u
      · rw [hself]
        exact hmade
    have ht := h.settled t
    -- off the list, the batch has to be flushed before control is given away
    refine wp_flushPending h₁ ?_ ?_ ?_ ?_ ?_ fun s₂ hl₂ => ?_
    · rw [hself]
      exact ⟨ht.base.live, ht.base.sum, ht.base.pendingRead, ht.base.lost, ht.base.detached⟩
    · rw [hself]
      exact ht.bytes
    · rw [hself]
      exact ht.above
    · rw [hself]
      exact ht.stuck
    · rw [hself]
      exact .inr (ht.kept.of_grows rfl le_rfl (.refl _))
    refine wp_foreign hl₂.mid hl₂.settled fun _ s₃ hl₃ => ?_
    have hlead := hl₂.trans hl₃
    refine ih (hlead.mid.inside hlead.settled) hlead.frame.draining fun s' hd => hQ s' ?_
    refine ⟨hd.inside, hd.depth.trans hlead.frame.depth, hd.draining,
      hd.flushing.trans hlead.frame.flushing, fun u => ?_, fun u => ?_, fun u => ?_,
      hd.running.trans hlead.steps.running⟩
    · rw [hd.disarming, hlead.frame.disarming, htr]
      split <;> rfl
    · rw [hd.allocating, hlead.frame.allocating, htr]
      split <;> rfl
    · rw [hd.held, hlead.frame.held, htr]
      split <;> rfl

/-- A flush changes nothing that a native call must leave alone. -/
theorem Drained.frame {s₁ s₂ : State} (h : Drained starving s₁ s₂) (hd : s.draining = [])
    (hf : s₁.flushing = s.flushing) (hdepth : s₁.depth = s.depth) (htr : s₁.tr = s.tr) :
    Frame s s₂ where
  depth := h.depth.trans hdepth
  draining := h.draining.trans hd.symm
  flushing := h.flushing.trans hf
  disarming := fun u => by rw [h.disarming, htr]
  allocating := fun u => by rw [h.allocating, htr]
  held := fun u => by rw [h.held, htr]

/-- The prepare handle's callback leaves nothing registered, unless it was late or the loop will
not block. -/
theorem wp_onFlush {Q : Unit → State → Prop} (h : Inside starving s) (hd : s.draining = [])
    (hf : s.flushing = false)
    (hQ : ∀ s', Ends starving s s' → s'.running = s.running →
      (s'.flushHead = [] ∨ s'.late = true ∨ s'.mayBlock = false) → Q () s') :
    onFlush.wp (env starving) (spec starving) Q s := by
  simp only [onFlush, drainFlushList, Prog.wp_bind, wp_update, wp_getState]
  have hstep : Step false s s.beginFlush.detachFlushList := .beginFlush rfl hd h.prepared
  refine wp_drain (s := s.beginFlush.detachFlushList)
    ⟨h.reach.tail hstep, h.settled, h.depth, h.prepared⟩ rfl fun s₁ hdr => ?_
  have hin := hdr.inside
  have hlate := hin.reach.global.late hdr.flushing
  have hend : Step false s₁ s₁.endFlush := .endFlush rfl
  -- the end of the flush touches only the prepare handle
  have htr : s₁.endFlush.tr = s₁.tr ∧ s₁.endFlush.depth = s₁.depth ∧
      s₁.endFlush.prepared = s₁.prepared ∧ s₁.endFlush.draining = s₁.draining ∧
      s₁.endFlush.flushing = false ∧ s₁.endFlush.running = s₁.running ∧
      s₁.endFlush.flushHead = s₁.flushHead ∧ s₁.endFlush.late = s₁.late ∧
      s₁.endFlush.mayBlock = s₁.mayBlock := by
    unfold State.endFlush
    split <;> exact ⟨rfl, rfl, rfl, rfl, rfl, rfl, rfl, rfl, rfl⟩
  obtain ⟨htr, hdepth, hprep, hdrain, hflush, hrun, hhead, hl, hb⟩ := htr
  refine hQ _ ⟨⟨hin.reach.tail hend, fun u => ?_, hdepth ▸ hin.depth, hprep.trans hin.prepared⟩,
    ⟨?_, ?_, ?_, fun u => ?_, fun u => ?_, fun u => ?_⟩⟩ (hrun.trans hdr.running) ?_
  · rw [htr]
    exact hin.settled u
  · rw [hdepth, hdr.depth]
    rfl
  · rw [hdrain, hdr.draining, hd]
  · rw [hflush, hf]
  · rw [htr, hdr.disarming]
    rfl
  · rw [htr, hdr.allocating]
    rfl
  · rw [htr, hdr.held]
    rfl
  · rw [hhead, hl, hb]
    exact hlate

theorem wp_runEnd {Q : Unit → State → Prop} (h : Inside starving s) (hd : s.draining = [])
    (hf : s.flushing = false) (hQ : ∀ s', Ends starving s s' → Q () s') :
    runEnd.wp (env starving) (spec starving) Q s := by
  simp only [runEnd, drainFlushList, Prog.wp_bind, wp_update, wp_getState]
  have hc : SameFlush s.toCore
      { s.toCore with running := false, stopping := false, uvStop := false } :=
    .of_eq rfl rfl rfl rfl rfl rfl
  have he₁ := h.turn hc hf
  let s₁ := s.setCore fun c => { c with running := false, stopping := false, uvStop := false }
  have hin₁ : Inside starving s₁ := he₁.inside
  have hstep : Step false s₁ s₁.detachFlushList := .detachFlushList rfl hd
  refine wp_drain (s := s₁.detachFlushList)
    ⟨hin₁.reach.tail hstep, hin₁.settled, hin₁.depth, hin₁.prepared⟩ rfl fun s₂ hdr => ?_
  obtain ⟨he₃, -⟩ := hdr.inside.core (c := { s₂.toCore with fatal := false })
    (.of_eq rfl rfl rfl rfl rfl rfl) id rfl
  exact hQ _ (Ends.trans ⟨hdr.inside, hdr.frame hd rfl rfl rfl⟩ he₃)

/-- A callback of the ready queue. -/
theorem wp_runOne {call : Call} {Q : Unit → State → Prop} (h : Inside starving s)
    (hmade : ∀ u, call.transport? = some u → (s.tr u).made = true)
    (hstart : ∀ u, call = .startReading u → heldBack (s.tr u).history = false)
    (hQ : ∀ s', Ends starving s s' → Q () s') :
    (runOne call).wp (env starving) (spec starving) Q s := by
  have hcall : ∀ (u : ℕ) (m : Method), (s.tr u).made = true → m.reads = false →
      m.delivers = false → m.flow = false →
      (python (.protocol u m)).wp (env starving) (spec starving) Q (s.act u (.call m)) := by
    intro u m hm hr hdl hfl
    have hs := (h.mid hm).servesAct (h.settled u) (a := .call m) rfl
      ⟨fun hrt => by simp [hr] at hrt, fun hdt => by simp [hdl] at hdt, hfl,
        fun hrt => by simp [hr] at hrt, fun heq => by simp [heq, Method.reads] at hr⟩ rfl
      (.concat rfl) rfl rfl
    rw [wp_python]
    exact wp_foreign hs.mid hs.settled fun _ s' hl => hQ s' (hs.leads hl).ends
  cases call with
  | connectionMade u =>
    simp only [runOne, Prog.wp_bind, wp_act]
    exact hcall u _ (hmade u rfl) rfl rfl rfl
  | connectionLost u exc =>
    simp only [runOne, Prog.wp_bind, wp_act]
    exact hcall u _ (hmade u rfl) rfl rfl rfl
  | startReading u =>
    exact wp_startReadingMethod (h.mid (hmade u rfl)) (h.settled u) (hstart u rfl) fun s' hl =>
      hQ s' hl.ends
  | setResult | other =>
    simp only [runOne, wp_python]
    exact wp_foreign_inside h fun _ s' he _ => hQ s' he

theorem wp_runReadyLoop {n : ℕ} {Q : Unit → State → Prop} (h : Inside starving s)
    (hf : s.flushing = false) (hQ : ∀ s', Ends starving s s' → Q () s') :
    (runReadyLoop n).wp (env starving) (spec starving) Q s := by
  induction n generalizing s with
  | zero => exact hQ s (.refl h)
  | succ n ih =>
    simp only [runReadyLoop, Prog.wp_bind, wp_getState]
    split
    · exact hQ s (.refl h)
    rename_i call ready hpop
    have hhead : s.ready.toList.head? = some call := by
      rw [← Queue.pop_fst, hpop]
    have htail : ready.toList = s.ready.toList.tail := by
      rw [← Queue.toList_pop, hpop]
    have hmem : call ∈ s.ready.toList := List.mem_of_mem_head? hhead
    have hc : SameFlush s.toCore { s.toCore with ready } :=
      ⟨rfl, rfl, rfl, rfl, rfl, fun call' hcall => .inl (List.mem_of_mem_tail (htail ▸ hcall))⟩
    have he₁ := h.turn hc hf
    simp only [Prog.wp_bind, wp_update, wp_python]
    refine wp_runOne (s := s.setReady ready) he₁.inside (h.reach.global.queue call hmem) ?_
      fun s₂ he₂ => ?_
    · rintro u rfl
      exact h.reach.global.start u hmem
    refine wp_foreign_inside he₂.inside fun _ s₃ he₃ _ => ?_
    have he := (he₁.trans he₂).trans he₃
    exact ih he.inside (he.frame.flushing.trans hf) fun s' he' => hQ s' (he.trans he')

theorem wp_onIdle {Q : Unit → State → Prop} (h : Inside starving s) (hf : s.flushing = false)
    (hQ : ∀ s', Ends starving s s' → Q () s') : onIdle.wp (env starving) (spec starving) Q s := by
  simp only [onIdle, Prog.wp_bind, wp_getState, wp_update]
  refine wp_runReadyLoop h hf fun s₁ he => ?_
  exact hQ _ (he.trans (he.inside.turn (sameFlush_stopIdle _) (he.frame.flushing.trans hf)))

/-! ## Entry points -/

/-- A native call begins. -/
theorem Inv.enter (h : Inv starving s) (hp : s.prepared = false) : Inside starving s.enter :=
  ⟨h.reach.tail .enter, h.settled, Nat.succ_pos _, hp⟩

/-- Nothing runs between the prepare handles and the poll. -/
theorem Startable.prepared {op : Op} (h : Startable s op) (hinv : Inv starving s)
    (hop : op.isPoll = false) : s.prepared = false := by
  by_contra hp
  rw [Bool.not_eq_false] at hp
  obtain ⟨hrun, hd⟩ := hinv.prepared hp
  have hthird := h.2.2
  split at hthird
  · rw [hthird.2.2, hop] at hp
    cases hp
  · have := hthird.1 hrun
    omega

/-- A native call ends. -/
theorem Ends.leave {s' : State} (h : Ends starving s.enter s') (hinv : Inv starving s) :
    Inv starving s'.leave ∧ Frame s s'.leave := by
  have hdepth : s'.leave.depth = s.depth := by
    change s'.depth - 1 = s.depth
    rw [h.frame.depth]
    rfl
  refine ⟨⟨h.inside.reach.tail .leave, h.inside.settled, fun hd => ?_, fun hp => ?_⟩,
    ⟨hdepth, h.frame.draining, h.frame.flushing, h.frame.disarming, h.frame.allocating,
      h.frame.held⟩⟩
  · have hrest := hinv.rest (hdepth ▸ hd)
    exact ⟨h.frame.draining.trans hrest.draining, h.frame.flushing.trans hrest.flushing,
      fun u => (h.frame.allocating u).trans (hrest.allocating u),
      fun u => (h.frame.disarming u).trans (hrest.disarming u)⟩
  · have hp' : s'.prepared = true := hp
    rw [h.inside.prepared] at hp'
    cases hp'

/-- The end of an entry point other than `prepare`. -/
theorem wp_entry {op : Op} (hop : finish op = update State.leave) (hpoll : op.isPoll = false)
    (hstart : Startable s op) (hinv : Inv starving s)
    (hrun : Inside starving s.enter → (run op).wp (env starving) (spec starving)
      (fun _ s' => Ends starving s.enter s' ∧ (0 < s.depth → Steps true s.enter s')) s.enter) :
    (entry op).wp (env starving) (spec starving)
      (fun _ s' => Inv starving s' ∧ Rely s s') s := by
  simp only [entry, Prog.wp_bind, wp_update]
  refine Prog.wp_mono (hrun (hinv.enter (hstart.prepared hinv hpoll))) ?_
  rintro _ s' ⟨he, hsteps⟩
  rw [hop, wp_update]
  obtain ⟨hinv', hframe⟩ := he.leave hinv
  refine ⟨hinv', hframe, fun hd => ?_⟩
  exact (Relation.ReflTransGen.head .enter (hsteps hd)).tail .leave

/-- An entry point of Python code that works on a transport. -/
theorem wp_entry_method {op : Op} {t : ℕ} (hop : finish op = update State.leave)
    (hpoll : op.isPoll = false) (ht : op.transport? = some t) (hstart : Startable s op)
    (hinv : Inv starving s)
    (hrun : ∀ Q : Unit → State → Prop, Mid starving t s.enter → Settled starving (s.enter.tr t) →
      (∀ s', Leads starving t s.enter s' → Q () s') →
      (run op).wp (env starving) (spec starving) Q s.enter) :
    (entry op).wp (env starving) (spec starving)
      (fun _ s' => Inv starving s' ∧ Rely s s') s := by
  refine wp_entry hop hpoll hstart hinv fun hin => ?_
  have hmade : (s.tr t).made = true := by
    have := hstart.1
    rw [ht] at this
    exact this
  exact hrun _ (hin.mid hmade) (hin.settled t) fun s' hl => ⟨hl.ends, fun _ => hl.steps⟩

/-- A callback of libuv. -/
theorem wp_entry_callback {op : Op} (hop : finish op = update State.leave)
    (hpoll : op.isPoll = false) (huv : op.fromUv = true) (hstart : Startable s op)
    (hinv : Inv starving s)
    (hrun : ∀ Q : Unit → State → Prop, Inside starving s.enter → AtRest s →
      (∀ u, op.transport? = some u → (s.tr u).made = true) →
      (∀ s', Ends starving s.enter s' → Q () s') →
      (run op).wp (env starving) (spec starving) Q s.enter) :
    (entry op).wp (env starving) (spec starving)
      (fun _ s' => Inv starving s' ∧ Rely s s') s := by
  have hthird := hstart.2.2
  rw [if_pos huv] at hthird
  refine wp_entry hop hpoll hstart hinv fun hin => ?_
  refine hrun _ hin (hinv.rest hthird.1) (fun u hu => ?_) fun s' he => ⟨he, fun hd => ?_⟩
  · have := hstart.1
    rw [hu] at this
    exact this
  · omega

/-- libuv runs the prepare handles. -/
theorem wp_entry_prepare (hstart : Startable s .prepare) (hinv : Inv starving s) :
    (entry .prepare).wp (env starving) (spec starving)
      (fun _ s' => Inv starving s' ∧ Rely s s') s := by
  obtain ⟨hd, hrun, hprep⟩ : s.depth = 0 ∧ s.running = true ∧ s.prepared = false := hstart.2.2
  have hrest := hinv.rest hd
  have hin := hinv.enter hprep
  simp only [entry, run, Prog.wp_bind, wp_update, wp_getState, Prog.wp_ite, Prog.wp_pure]
  -- the prepare handles have run
  have hdone : ∀ s', Ends starving s.enter s' → s'.running = s.running →
      (s'.flushHead = [] ∨ s'.late = true ∨ s'.mayBlock = false) →
      (finish .prepare).wp (env starving) (spec starving)
        (fun _ s'' => Inv starving s'' ∧ Rely s s'') s' := by
    intro s' he hr hlate
    have hdepth : s'.depth - 1 = 0 := by
      rw [he.frame.depth]
      exact hd
    have hstep : Step false s' { s'.leave with prepared := true } :=
      .prepared rfl (he.frame.flushing.trans hrest.flushing) hlate
    rw [finish, wp_update]
    obtain ⟨hinv', hframe⟩ := he.leave hinv
    refine ⟨⟨he.inside.reach.tail hstep, he.inside.settled, fun _ => ?_, fun _ => ⟨hr.trans hrun,
      hdepth⟩⟩, ⟨hframe.depth, hframe.draining, hframe.flushing, hframe.disarming,
      hframe.allocating, hframe.held⟩, fun hpos => by omega⟩
    have := hinv'.rest hdepth
    exact ⟨this.draining, this.flushing, this.allocating, this.disarming⟩
  split
  · exact wp_onFlush hin hrest.draining hrest.flushing hdone
  · rename_i huv
    refine hdone _ (.refl hin) rfl (.inl ?_)
    by_contra hne
    exact huv (hinv.reach.global.prepare hne)

/-- libuv polls. -/
theorem wp_entry_poll (hstart : Startable s .poll) (hinv : Inv starving s) :
    (entry .poll).wp (env starving) (spec starving)
      (fun _ s' => Inv starving s' ∧ Rely s s') s := by
  obtain ⟨hd, -, -⟩ : s.depth = 0 ∧ s.running = true ∧ s.prepared = true := hstart.2.2
  have hrest := hinv.rest hd
  have hreach : Reachable { s.enter with prepared := false } :=
    (hinv.reach.tail .enter).tail (.poll rfl)
  refine ⟨⟨hreach.tail .leave, hinv.settled, fun _ => ?_, nofun⟩, ?_, fun hpos => by omega⟩
  · exact ⟨hrest.draining, hrest.flushing, hrest.allocating, hrest.disarming⟩
  · exact ⟨rfl, rfl, rfl, fun _ => rfl, fun _ => rfl, fun _ => rfl⟩

/-- Every entry point meets the specification. -/
theorem entry_ok {op : Op} (hstart : Startable s op) (hinv : Inv starving s) :
    (entry op).wp (env starving) (spec starving)
      (fun _ s' => Inv starving s' ∧ Rely s s') s := by
  cases op with
  | write t =>
    refine wp_entry_method rfl rfl rfl hstart hinv fun Q h ht hQ => ?_
    rw [run, Prog.wp_map]
    exact wp_write h ht fun _ s' hl => hQ s' hl
  | writelines t =>
    refine wp_entry_method rfl rfl rfl hstart hinv fun Q h ht hQ => ?_
    rw [run, Prog.wp_map]
    exact wp_writelines h ht fun _ s' hl => hQ s' hl
  | writeEof t => exact wp_entry_method rfl rfl rfl hstart hinv fun Q h ht hQ => wp_writeEof h ht hQ
  | close t => exact wp_entry_method rfl rfl rfl hstart hinv fun Q h ht hQ => wp_close h ht hQ
  | abort t | forceClose t exc =>
    exact wp_entry_method rfl rfl rfl hstart hinv fun Q h ht hQ =>
      wp_forceClose _ _ h ht.closable (by simp) fun s' hl _ => hQ s' hl
  | pauseReading t =>
    exact wp_entry_method rfl rfl rfl hstart hinv fun Q h ht hQ => wp_pauseReading h ht hQ
  | resumeReading t =>
    refine wp_entry_method rfl rfl rfl hstart hinv fun Q h ht hQ => ?_
    rw [run, Prog.wp_map]
    exact wp_resumeReading h ht fun _ s' hl => hQ s' hl
  | setWriteBufferLimits t high low =>
    refine wp_entry_method rfl rfl rfl hstart hinv fun Q h ht hQ => ?_
    rw [run, Prog.wp_map]
    exact wp_setWriteBufferLimits h ht fun _ s' hl => hQ s' hl
  | setProtocol t p =>
    exact wp_entry_method rfl rfl rfl hstart hinv fun Q h ht hQ => hQ _ (h.bindProtocol ht p)
  | adoptSocketView t =>
    exact wp_entry_method rfl rfl rfl hstart hinv fun Q h ht hQ => wp_adoptSocketView h ht hQ
  | adoptPipe t =>
    exact wp_entry_method rfl rfl rfl hstart hinv fun Q h ht hQ =>
      hQ _ (h.leadsAct ht rfl rfl trivial rfl (.refl _) rfl rfl)
  | makeTransport writePipe p server reads waiter =>
    refine wp_entry rfl rfl hstart hinv fun hin => ?_
    rw [run, Prog.wp_map]
    exact wp_makeTransport hin fun _ s' he hs => ⟨he, fun _ => hs⟩
  | callSoon =>
    refine wp_entry rfl rfl hstart hinv fun hin => ?_
    rw [run, Prog.wp_map]
    exact wp_callSoon hin fun _ s' he hs => ⟨he, fun _ => hs⟩
  | stop =>
    refine wp_entry rfl rfl hstart hinv fun hin => ?_
    obtain ⟨he, hs⟩ := hin.core (c := { s.enter.toCore with
      stopping := true, uvStop := s.enter.uvStop || !s.enter.closed })
      (.of_eq rfl rfl rfl rfl rfl rfl) id rfl
    exact ⟨he, fun _ => hs⟩
  | runBegin =>
    have hthird := hstart.2.2
    have hd : s.depth = 0 := hthird.2 rfl
    refine wp_entry rfl rfl hstart hinv fun hin => ?_
    rw [run, Prog.wp_map]
    simp only [runBegin, Prog.wp_bind, wp_getState, Prog.wp_ite, wp_update, Prog.wp_pure]
    have hnot : ∀ {P : Prop}, 0 < s.depth → P := fun hpos => by omega
    split
    · exact ⟨.refl hin, hnot⟩
    split
    · exact ⟨.refl hin, hnot⟩
    have hf : s.enter.flushing = false := (hinv.rest hd).flushing
    have he₁ := hin.turn (c := { s.enter.toCore with running := true, stopping := false })
      (.of_eq rfl rfl rfl rfl rfl rfl) hf
    exact ⟨he₁.trans (he₁.inside.turn (sameFlush_startIdle _) hf), hnot⟩
  | runEnd =>
    exact wp_entry_callback rfl rfl rfl hstart hinv fun Q h hrest _ hQ =>
      wp_runEnd h hrest.draining hrest.flushing hQ
  | onIdle =>
    exact wp_entry_callback rfl rfl rfl hstart hinv fun Q h hrest _ hQ =>
      wp_onIdle h hrest.flushing hQ
  | prepare => exact wp_entry_prepare hstart hinv
  | poll => exact wp_entry_poll hstart hinv
  | readable t =>
    exact wp_entry_callback rfl rfl rfl hstart hinv fun Q h hrest hmade hQ =>
      wp_readable (h.mid (hmade t rfl)) (h.settled t) (hrest.allocating t) hstart.2.1 fun s' hs =>
        hQ s' hs.ends
  | drain t queueSize =>
    refine wp_entry_callback rfl rfl rfl hstart hinv fun Q h hrest hmade hQ => ?_
    have hle : queueSize ≤ (s.tr t).stream.queueSize := hstart.2.1
    have ht := h.settled t
    refine hQ _ (Serves.ends (t := t) ⟨(h.mid (hmade t rfl)).act rfl hle, ?_,
      (FrameBut.act rfl rfl).frame (by rw [State.tr_act_self]; rfl)⟩)
    rw [State.tr_act_self]
    refine ⟨⟨ht.base.live, ht.base.sum, ht.base.pendingRead, ht.base.lost, ht.base.detached⟩,
      ht.bytes, fun hc hpos hhigh => ht.above hc hpos ?_, ht.stuck, ht.queued,
      ht.kept.run (a := .drained queueSize) ⟨by simp, by simp⟩⟩
    exact lt_of_lt_of_le hhigh hle
  | onWritten t status queueSize =>
    exact wp_entry_callback rfl rfl rfl hstart hinv fun Q h hrest hmade hQ =>
      wp_onWritten (h.mid (hmade t rfl)) (h.settled t) hstart.2.1.2 fun s' hs => hQ s' hs.ends
  | onClosed t =>
    exact wp_entry_callback rfl rfl rfl hstart hinv fun Q h hrest hmade hQ =>
      wp_onClosed (h.mid (hmade t rfl)) (h.settled t) hrest.flushing hstart.2.1 fun s' hs =>
        hQ s' hs.ends
  | onOpenFailed =>
    refine wp_entry_callback rfl rfl rfl hstart hinv fun Q h hrest _ hQ => ?_
    simp only [run, Prog.wp_bind, wp_update, wp_python]
    let s₁ : State := { s.enter.externalHandleClosed with failedOpens := s.enter.failedOpens - 1 }
    have hstep : Step false s.enter s₁ := .handleClosed _ rfl hrest.flushing h.prepared
    have h₁ : Inside starving s₁ := ⟨h.reach.tail hstep, h.settled, h.depth, h.prepared⟩
    have hframe : Frame s.enter s₁ := ⟨rfl, rfl, rfl, fun _ => rfl, fun _ => rfl, fun _ => rfl⟩
    exact wp_foreign_inside h₁ fun _ s' he _ => hQ s' ⟨he.inside, hframe.trans he.frame⟩
  | onOther =>
    refine wp_entry_callback rfl rfl rfl hstart hinv fun Q h _ _ hQ => ?_
    rw [run, wp_python]
    exact wp_foreign_inside h fun _ s' he _ => hQ s' he

/-- The transports meet their specification, whatever libuv and Python code do. -/
theorem verified (starving : Prop) : Verified system (env starving) (spec starving) where
  rely_refl := Rely.refl
  rely_trans := fun _ _ _ => Rely.trans
  init :=
    { reach := .refl
      settled := fun _ => Settled.blank
      rest := fun _ => ⟨rfl, rfl, fun _ => rfl, fun _ => rfl⟩
      prepared := nofun }
  body := fun (.makeRoom _) _ hpre => wp_makeRoomBody hpre
  entry := fun _ _ _ hstart hinv _ => entry_ok hstart hinv

end Zuvloop.Stream
