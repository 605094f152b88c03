import Zuvloop.Contexts.Invariant

/-!
# Callbacks do not see each other's context variables

Every function keeps the invariant, so that it holds in every reachable state of the machine.

## Main results

* `context_pool_isolated`: what holds of the pool and of what callbacks see, in every reachable
  state, and what becomes of a context that is taken from the pool.
-/

namespace Zuvloop.Contexts

open State

section Functions

variable {s s' : State} {own : List ℕ} {c i t : ℕ} {memory : Bool} {explicit : Option ℕ}

theorem mem_of_top {f : Frame} (h : s.top t = some f) : f ∈ s.frames :=
  List.mem_of_find?_eq_some h

theorem Inv.ensureCurrent (h : Inv own s) : Inv own (s.ensureCurrent t) := by
  rw [State.ensureCurrent]
  split
  · exact h
  · exact (h.newContext []).pushFrame (fun hd => nomatch hd)
      fun i hp => absurd hp.context (h.unborn.2.handles i)

/-- What may become of the context of a handle that runs, or is asked for it. -/
theorem materialize_cases (h : materialize i t memory s = some (c, s')) :
    ((s.handle i).context = some c ∧ s' = s) ∨
    ((s.handle i).context = none ∧ (s.handle i).loop = true ∧
      ∃ pool, s.pool = c :: pool ∧ s' = ({ s with pool := pool }).setContext i (some c)) ∨
    ((s.handle i).context = none ∧ c = s.contexts.length ∧
      s' = (s.newContext []).setContext i (some c)) := by
  rw [materialize] at h
  split at h
  · rename_i hc
    obtain ⟨rfl, rfl⟩ := Prod.mk.inj (Option.some.inj h)
    exact Or.inl ⟨hc, rfl⟩
  · rename_i hnone
    dsimp only at h
    split at h
    · rename_i c₁ s₁ htaken
      obtain ⟨rfl, rfl⟩ := Prod.mk.inj (Option.some.inj h)
      split at htaken
      · rename_i hloop
        rw [takeEmptyContext] at htaken
        split at htaken
        · cases htaken
        · rename_i c₂ pool hpool
          obtain ⟨rfl, rfl⟩ := Prod.mk.inj (Option.some.inj htaken)
          exact Or.inr (Or.inl ⟨hnone, (Bool.and_eq_true_iff.mp hloop).1, pool, hpool, rfl⟩)
      · cases htaken
    · split at h
      · obtain ⟨rfl, rfl⟩ := Prod.mk.inj (Option.some.inj h)
        exact Or.inr (Or.inr ⟨hnone, rfl, rfl⟩)
      · cases h

theorem setContext_context (hi : i < s.handles.length) {context : Option ℕ} :
    ((s.setContext i context).handle i).context = context := by
  rw [State.setContext, handle_updateHandle_self hi]

theorem Inv.materialize (h : Inv own s) (hi : i < s.handles.length)
    (hm : materialize i t memory s = some (c, s')) :
    Inv own s' ∧ (s'.handle i).context = some c := by
  obtain ⟨hc, rfl⟩ | ⟨hnone, -, pool, hpool, rfl⟩ | ⟨hnone, rfl, rfl⟩ := materialize_cases hm
  · exact ⟨h, hc⟩
  · -- nobody but the pool referred to it
    obtain ⟨hinv, hu, hfresh⟩ := h.take hpool
    refine ⟨hinv.attach hi hnone { hu with } ?_, ?_⟩
    · show (s.ctx c).vars = [] ∧ (s.ctx c).weakrefs = 0
      rw [hfresh]
      exact ⟨rfl, rfl⟩
    · exact setContext_context hi
  · refine ⟨(h.newContext []).attach hi hnone { h.unborn.2 with } ?_, ?_⟩
    · rw [ctx_newContext_self]
      exact ⟨rfl, rfl⟩
    · exact setContext_context hi

/-- A handle whose context is shared has it not for itself. -/
theorem Inv.private_unique (h : Inv own s) {j : ℕ} (hi : (s.handle i).context = some c)
    (hp : Private (s.handle j) c) : j = i :=
  ((h.secluded j c hp).handles i hi).symm

/-- The context of the handle that runs becomes current. -/
theorem Inv.enter {f : Frame} (h : Inv own s)
    (hc : f.ctx ∉ s.pool ∧ f.ctx < s.contexts.length)
    (hdirect : f.direct = true → ∀ i, f.owner = some i → (s.handle i).context = some f.ctx)
    (howner : ∀ i, Private (s.handle i) f.ctx → f.owner = some i) : Inv own (s.enter f) := by
  have hinc := h.incref hc
  have hupd : Inv (f.ctx :: own)
      ((s.incref f.ctx).updateCtx f.ctx fun x => { x with entered := true }) := by
    refine hinc.updateCtx (hinc.used_own List.mem_cons_self) (fun _ => rfl) fun i hp => ?_
    exact ⟨(hinc.secluded i _ hp).weakrefs, (hinc.secluded i _ hp).vars⟩
  exact hupd.pushFrame hdirect howner

/-- It is left again. -/
theorem Inv.exit {f : Frame} (h : Inv own s) (hf : f ∈ s.frames) : Inv own (s.exit f) := by
  have hupd : Inv own (s.updateCtx f.ctx fun x => { x with entered := false }) :=
    h.updateCtx (h.used_frame hf) (fun _ => rfl) fun i hp =>
      ⟨(h.secluded i _ hp).weakrefs, (h.secluded i _ hp).vars⟩
  exact (hupd.popFrame hf).decref

theorem Inv.finish (h : Inv own s) : Inv own (finish i s) :=
  h.updateHandle (fun _ => rfl) (fun _ => rfl) (fun _ => rfl) (fun _ => rfl) (fun _ hx => hx)
    fun _ hx => hx

theorem Inv.cancel (h : Inv own s) : Inv own (cancel i s) :=
  h.updateHandle (fun _ => rfl) (fun _ => rfl) (fun _ => rfl) (fun _ => rfl) (fun _ hx => hx)
    fun _ hx => hx

/-- A handle that has its callback exists. -/
theorem lt_of_callback (h : (s.handle i).callback = true) : i < s.handles.length :=
  Table.lt_of_getD_ne (d := ({} : Handle)) fun heq => by
    rw [State.handle, heq] at h
    cases h

theorem Inv.run (h : Inv own s) : Inv own (run i t memory s) := by
  rw [Contexts.run]
  dsimp only
  generalize (if (s.handle i).kind = .threadsafe then _ else _ : Bool) = idle
  split
  · exact h
  · rename_i hidle
    have hcallback : (s.handle i).callback = true := by
      cases hcb : (s.handle i).callback with
      | true => rfl
      | false => simp [hcb] at hidle
    have hi := lt_of_callback hcallback
    set s₁ := s.updateHandle i fun h => { h with running := true } with hs₁
    have hrunning : Inv own s₁ :=
      h.updateHandle (fun _ => rfl) (fun _ => rfl) (fun _ => rfl) (fun _ => rfl)
        (fun _ hx => hx) fun _ hx => hx
    have hi₁ : i < s₁.handles.length := by rwa [hs₁, State.updateHandle, List.length_modify]
    split
    · exact hrunning.finish
    · rename_i c s₂ hm
      obtain ⟨hinv, hc⟩ := hrunning.materialize hi₁ hm
      split
      · exact hinv.finish
      · refine hinv.enter (hinv.used_context hc) (fun _ j hj => ?_) fun j hp => ?_
        · obtain rfl := Option.some.inj hj
          exact hc
        · rw [hinv.private_unique hc hp]

theorem Inv.getContext (h : Inv own s) (hi : i < s.handles.length) :
    Inv own (getContext i t memory s) := by
  -- once the handle is marked, nobody has the context for himself
  have hgive : ∀ {s : State} {c : ℕ}, Inv own s → (s.handle i).context = some c →
      Inv own (((s.incref c).hold c).updateHandle i fun h => { h with obtained := true }) := by
    intro s c h hc
    have hmarked : Inv own (s.updateHandle i fun h => { h with obtained := true }) :=
      h.updateHandle (fun _ => rfl) (fun _ => rfl) (fun _ => rfl) (fun _ => rfl)
        (fun _ hx => hx) fun _ hx => nomatch hx
    have hself : (s.updateHandle i fun h => { h with obtained := true }).handle i =
        { s.handle i with obtained := true } := handle_updateHandle_self (lt_of_context hc)
    have hc' : ((s.updateHandle i fun h => { h with obtained := true }).handle i).context =
        some c := by rw [hself]; exact hc
    refine (hmarked.incref (hmarked.used_context hc')).hold fun j hp => ?_
    have hobtained : ((s.updateHandle i fun h => { h with obtained := true }).handle j).obtained =
        false := hp.obtained
    rw [hmarked.private_unique hc' hp, hself] at hobtained
    cases hobtained
  rw [Contexts.getContext]
  split
  · exact h
  · rename_i c s₁ hfound
    split at hfound
    · obtain ⟨c', hc', heq⟩ := Option.map_eq_some_iff.mp hfound
      obtain ⟨rfl, rfl⟩ := Prod.mk.inj heq
      exact hgive h hc'
    · obtain ⟨hinv, hc⟩ := h.materialize hi hfound
      exact hgive hinv hc

/-- What is left of a handle that is cleared. -/
def cleared (x : Handle) : Handle := { x with callback := false, context := none, loop := false }

/-- What clearing a handle does with its context. -/
theorem dealloc_cases (hc : (s.handle i).context = some c) :
    dealloc i t s = (s.updateHandle i cleared).decref c ∨
    ((s.handle i).captured = true ∧ s.ctx c = { refs := 1 } ∧
      s.pool.length ≠ contextPoolCapacity ∧
      dealloc i t s = { s.updateHandle i cleared with
        pool := c :: s.pool, pooled := s.pooled ++ [(i, c)] }) := by
  have hi := lt_of_context hc
  have hself : (s.updateHandle i fun h => { h with callback := false }).handle i =
      { s.handle i with callback := false } := handle_updateHandle_self hi
  have htwice : ((s.handles.modify i fun h => { h with callback := false }).modify i
      fun h => { h with context := none }).modify i (fun h => { h with loop := false }) =
      s.handles.modify i cleared := by
    rw [List.modify_modify_eq, List.modify_modify_eq]
    rfl
  rw [dealloc, release, hself, hc]
  dsimp only
  split
  · rename_i s₂ hpool
    split at hpool
    · rename_i hreusable
      rw [recycleEmptyContext] at hpool
      split at hpool
      · cases hpool
      · rename_i hroom
        obtain rfl := Option.some.inj hpool
        refine Or.inr ?_
        have hctx : (((s.updateHandle i fun h => { h with callback := false }).setContext i
          none).ctx c) = s.ctx c := rfl
        simp only [hctx, Bool.and_eq_true, beq_iff_eq, Bool.not_eq_true',
          List.length_eq_zero_iff] at hreusable
        obtain ⟨⟨⟨⟨⟨⟨hcaptured, hrefs⟩, hvars⟩, hweak⟩, hentered⟩, -⟩, -⟩ := hreusable
        simp only [Bool.or_eq_true, beq_iff_eq, not_or] at hroom
        refine ⟨hcaptured, ?_, hroom.2, ?_⟩
        · cases hx : s.ctx c
          rw [hx] at hrefs hvars hweak hentered
          simp only at hrefs hvars hweak hentered
          rw [hrefs, hvars, hweak, hentered]
        · exact congrArg (fun handles => { s with
            handles := handles, pool := c :: s.pool, pooled := s.pooled ++ [(i, c)] }) htwice
    · cases hpool
  · exact Or.inl (congrArg (fun handles => ({ s with handles := handles }).decref c) htwice)

theorem Inv.dealloc (h : Inv own s)
    (hrun : ∀ f ∈ s.frames, f.direct = true → f.owner ≠ some i) : Inv own (dealloc i t s) := by
  have hcontext : ((s.updateHandle i fun h => { h with callback := false }).handle i).context =
      (s.handle i).context := same_updateHandle Handle.context fun _ => rfl
  cases hc : (s.handle i).context with
  | none =>
    have hsame : Contexts.dealloc i t s =
        (s.updateHandle i fun h => { h with callback := false }).updateHandle i
          fun h => { h with loop := false } := by
      rw [Contexts.dealloc, release, hcontext, hc]
    rw [hsame]
    refine Inv.updateHandle (h.updateHandle ?_ ?_ ?_ ?_ ?_ ?_) ?_ ?_ ?_ ?_ ?_ ?_
    all_goals first | exact fun _ => rfl | exact fun _ hx => hx | exact fun _ hx => nomatch hx
  | some c =>
    have hi := lt_of_context hc
    -- the callback goes first, then the context together with the loop
    have hcleared : Inv (c :: own) (s.updateHandle i cleared) := by
      have hcb : Inv own (s.updateHandle i fun h => { h with callback := false }) :=
        h.updateHandle (fun _ => rfl) (fun _ => rfl) (fun _ => rfl) (fun _ => rfl)
          (fun _ hx => hx) fun _ hx => hx
      have hdet := hcb.detach (hcontext.trans hc) hrun
      have htwice : (s.updateHandle i fun h => { h with callback := false }).updateHandle i
          (fun x => { x with context := none, loop := false }) = s.updateHandle i cleared := by
        simp only [State.updateHandle, List.modify_modify_eq]
        rfl
      rwa [htwice] at hdet
    have hsupplied : (s.handle i).captured = true → (s.handle i).supplied = false := by
      intro hcaptured
      cases hsup : (s.handle i).supplied with
      | false => rfl
      | true =>
        rw [h.supplied i hsup] at hcaptured
        cases hcaptured
    obtain heq | ⟨hcaptured, hfresh, hroom, heq⟩ := dealloc_cases (t := t) hc
    · rw [heq]
      exact hcleared.decref
    · rw [heq]
      refine hcleared.put hfresh (Nat.lt_of_le_of_ne h.bounded hroom) ⟨?_, ?_⟩
      · rwa [State.updateHandle, List.length_modify]
      · exact (same_updateHandle (f := cleared) Handle.supplied fun _ => rfl).trans
          (hsupplied hcaptured)

theorem Inv.clearEmptyContexts (h : Inv own s) : Inv own s.clearEmptyContexts := by
  -- the order in which the pool is emptied and the references are given up does not matter
  have hdrain : ∀ (l : List ℕ) {s : State}, Inv (l ++ own) s →
      Inv own (l.foldl (fun s c => s.decref c) s) := by
    intro l
    induction l with
    | nil => exact fun h => h
    | cons c l ih => exact fun h => ih h.decref
  have hcomm : ∀ (l : List ℕ) (s : State),
      ({ l.foldl (fun s c => s.decref c) s with pool := [] } : State) =
        l.foldl (fun s c => s.decref c) { s with pool := [] } := by
    intro l
    induction l with
    | nil => exact fun s => rfl
    | cons c l ih => exact fun s => ih (s.decref c)
  rw [State.clearEmptyContexts, hcomm]
  exact hdrain s.pool h.takeAll

theorem Inv.create {kind : Kind} (h : Inv own s) (hex : ∀ c, explicit = some c → c ∈ s.held) :
    Inv own (create kind explicit t memory s) := by
  cases explicit with
  | some c =>
    have hc := hex c rfl
    refine (h.incref (h.used_held hc)).addHandle (fun _ => ⟨rfl, Option.some_ne_none c⟩)
      (fun d hp => nomatch hp.empty) fun d hd j hp => ?_
    obtain rfl := Option.some.inj hd
    exact h.not_private_held hc hp
  | none =>
    rw [Contexts.create, capture]
    by_cases hempty : (s.currentVars t).length = 0
    · rw [if_pos hempty]
      refine Inv.addHandle ?_ (fun hs => nomatch hs) (fun d hp => nomatch hp.context)
        fun d hd => nomatch hd
      exact h
    · rw [if_neg hempty]
      by_cases hmemory : memory = true
      · rw [if_pos hmemory]
        refine (h.newContext _).addHandle (fun hs => nomatch hs) (fun d hp => nomatch hp.empty)
          fun d hd j hp => ?_
        obtain rfl := Option.some.inj hd
        exact h.unborn.2.handles j hp.context
      · rw [if_neg hmemory]
        exact h

theorem Inv.createTimer (h : Inv own s) (hex : ∀ c, explicit = some c → c ∈ s.held) :
    Inv own (createTimer explicit t memory s) := by
  cases explicit with
  | some c =>
    have hc := hex c rfl
    refine (h.incref (h.used_held hc)).addHandle (fun _ => ⟨rfl, Option.some_ne_none c⟩)
      (fun d hp => nomatch hp.empty) fun d hd j hp => ?_
    obtain rfl := Option.some.inj hd
    exact h.not_private_held hc hp
  | none =>
    rw [Contexts.createTimer]
    split
    · have hcur := h.ensureCurrent (t := t)
      refine (hcur.newContext _).addHandle (fun hs => nomatch hs) (fun d hp => ?_)
        fun d hd j hp => ?_
      · obtain rfl := Option.some.inj hp.context
        refine ⟨{ hcur.unborn.2 with }, ?_⟩
        rw [ctx_newContext_self]
        exact ⟨List.length_eq_zero_iff.mp (beq_iff_eq.mp hp.empty), rfl⟩
      · obtain rfl := Option.some.inj hd
        exact hcur.unborn.2.handles j hp.context
    · exact h

end Functions

/-! ## Context variables -/

section Variables

variable {s s' : State} {own : List ℕ} {c i t v k : ℕ} {x : ℤ}

theorem mem_bindVar {b : Binding} {vars : List (ℕ × Binding)} {e : ℕ × Binding}
    (h : e ∈ bindVar v b vars) : e.2 = b ∨ e ∈ vars := by
  obtain rfl | h := List.mem_cons.mp h
  · exact Or.inl rfl
  · exact Or.inr (List.mem_of_mem_filter h)

theorem mem_restoreVar {old : Option Binding} {vars : List (ℕ × Binding)} {e : ℕ × Binding}
    (h : e ∈ restoreVar v old vars) : old = some e.2 ∨ e ∈ vars := by
  cases old with
  | none => exact Or.inr (List.mem_of_mem_filter h)
  | some b =>
    obtain heq | h := mem_bindVar h
    · exact Or.inl (congrArg some heq.symm)
    · exact Or.inr h

theorem mem_of_lookup {b : Binding} {vars : List (ℕ × Binding)} (h : vars.lookup v = some b) :
    (v, b) ∈ vars := by
  induction vars with
  | nil => cases h
  | cons e vars ih =>
    rw [List.lookup_cons] at h
    split at h
    · rename_i heq
      obtain rfl := Option.some.inj h
      rw [beq_iff_eq.mp heq]
      exact List.mem_cons_self
    · exact List.mem_cons_of_mem e (ih h)

/-- In a secluded context only the callback of its handle sets variables. -/
theorem Inv.setVar (h : Inv own s) : Inv own (setVar t v x s) := by
  rw [Contexts.setVar]
  generalize hs₁ : s.ensureCurrent t = s₁
  have h₁ : Inv own s₁ := hs₁ ▸ h.ensureCurrent
  dsimp only
  split
  · exact h₁
  · rename_i c hcurrent
    obtain ⟨f, htop, rfl⟩ := Option.map_eq_some_iff.mp hcurrent
    have hf := mem_of_top htop
    have hinc := h₁.incref (h₁.used_frame hf)
    have htoken := hinc.pushToken (x := ⟨f.ctx, v, (s₁.ctx f.ctx).vars.lookup v, false⟩)
      fun i hp b hb => (h₁.secluded i _ hp).vars _ (mem_of_lookup hb)
    refine htoken.updateCtx (htoken.used_frame hf) (fun _ => rfl) fun i hp => ?_
    have hsec := htoken.secluded i _ hp
    refine ⟨hsec.weakrefs, fun b hb => ?_⟩
    obtain heq | hb := mem_bindVar hb
    · have howner : s₁.owner t = some i := by
        rw [State.owner, htop]
        exact hsec.frames f hf rfl
      rw [heq]
      exact howner
    · exact hsec.vars b hb

/-- What a token puts back the callback had set as well. -/
theorem Inv.resetVar (h : Inv own s) (hr : resetVar t k s = some s') : Inv own s' := by
  rw [Contexts.resetVar] at hr
  split at hr
  · cases hr
  · rename_i token htoken
    split at hr
    · obtain rfl := Option.some.inj hr
      have hmem := List.mem_of_getElem? htoken
      refine (h.useToken k).updateCtx (h.used_token hmem) (fun _ => rfl) fun i hp => ?_
      have hsec := h.secluded i _ hp
      refine ⟨hsec.weakrefs, fun b hb => ?_⟩
      obtain heq | hb := mem_restoreVar hb
      · exact hsec.tokens token hmem rfl _ heq
      · exact hsec.vars b hb
    · cases hr

/-- What a callback sees in a secluded context it has set. -/
theorem Inv.getVar (h : Inv own s) : Inv own (getVar t v s) := by
  rw [Contexts.getVar]
  split
  · exact h
  · rename_i f htop
    split
    · rename_i i b howner hlookup
      split
      · rename_i hdirect
        have hf := mem_of_top htop
        refine { h with
          secluded := fun i d hp => { h.secluded i d hp with }
          seen := fun y hy hempty hobtained => ?_ }
        obtain hy | hy := List.mem_append.mp hy
        · exact h.seen y hy hempty hobtained
        · obtain rfl := List.mem_singleton.mp hy
          have hp : Private (s.handle i) f.ctx :=
            ⟨hempty, hobtained, h.direct f hf hdirect i howner⟩
          exact (h.secluded i _ hp).vars _ (mem_of_lookup hlookup)
      · exact h
    · exact h

end Variables

/-! ## The machine -/

section Machine

variable {s s' : State} {c i t : ℕ} {memory : Bool}

/-- Whatever happens keeps the invariant. -/
theorem Inv.step {l : Label} (h : Inv [] s) (hstep : step s l = some s') : Inv [] s' := by
  cases l with
  | create kind explicit t memory =>
    rw [Contexts.step, Option.ite_none_right_eq_some] at hstep
    obtain ⟨hheld, hstep⟩ := hstep
    obtain rfl := Option.some.inj hstep
    have hex : ∀ c, explicit = some c → c ∈ s.held := by
      rintro c rfl
      simpa using hheld
    split
    · exact h.createTimer hex
    · exact h.create hex
  | run i t memory =>
    obtain rfl := Option.some.inj hstep
    exact h.run
  | getContext i t memory =>
    rw [Contexts.step, Option.ite_none_right_eq_some] at hstep
    obtain ⟨hi, hstep⟩ := hstep
    obtain rfl := Option.some.inj hstep
    exact h.getContext hi
  | cancel i =>
    obtain rfl := Option.some.inj hstep
    exact h.cancel
  | dealloc i t =>
    rw [Contexts.step, Option.ite_none_right_eq_some] at hstep
    obtain ⟨hframes, hstep⟩ := hstep
    obtain rfl := Option.some.inj hstep
    refine h.dealloc fun f hf hdirect => ?_
    have := List.all_eq_true.mp hframes f hf
    simpa [hdirect] using this
  | enter t c =>
    rw [Contexts.step, Option.ite_none_right_eq_some] at hstep
    obtain ⟨hheld, hstep⟩ := hstep
    obtain rfl := Option.some.inj hstep
    have hheld : c ∈ s.held := (by simpa using hheld : c ∈ s.held ∧ _).1
    exact h.enter (h.used_held hheld) (fun hd => nomatch hd)
      fun i hp => absurd hp (h.not_private_held hheld)
  | leave t =>
    rw [Contexts.step] at hstep
    split at hstep
    · cases hstep
    · rename_i f htop
      rw [Option.ite_none_right_eq_some] at hstep
      obtain rfl := Option.some.inj hstep.2
      have hexit := h.exit (mem_of_top htop)
      split
      · exact hexit.finish
      · exact hexit
  | setVar t v x =>
    obtain rfl := Option.some.inj hstep
    exact h.setVar
  | getVar t v =>
    obtain rfl := Option.some.inj hstep
    exact h.getVar
  | resetVar t k => exact h.resetVar hstep
  | dropToken k =>
    rw [Contexts.step] at hstep
    split at hstep
    · cases hstep
    · rename_i token htoken
      obtain rfl := Option.some.inj hstep
      exact (h.popToken htoken).decref
  | copyContext t =>
    obtain rfl := Option.some.inj hstep
    have hcur := h.ensureCurrent (t := t)
    exact (hcur.newContext _).hold fun i hp => hcur.unborn.2.handles i hp.context
  | newContext =>
    obtain rfl := Option.some.inj hstep
    exact (h.newContext _).hold fun i hp => h.unborn.2.handles i hp.context
  | drop c =>
    rw [Contexts.step, Option.ite_none_right_eq_some] at hstep
    obtain ⟨hheld, hstep⟩ := hstep
    obtain rfl := Option.some.inj hstep
    exact (h.unhold hheld).decref
  | weakref c =>
    rw [Contexts.step, Option.ite_none_right_eq_some] at hstep
    obtain ⟨hheld, hstep⟩ := hstep
    obtain rfl := Option.some.inj hstep
    exact h.updateCtx (h.used_held hheld) (fun _ => rfl)
      fun i hp => absurd hp (h.not_private_held hheld)
  | dropWeakref c =>
    rw [Contexts.step, Option.ite_none_right_eq_some] at hstep
    obtain ⟨hweak, hstep⟩ := hstep
    obtain rfl := Option.some.inj hstep
    refine h.updateCtx ⟨fun hpool => hweak ?_, ?_⟩ (fun _ => rfl)
      fun i hp => absurd (h.secluded i c hp).weakrefs hweak
    · rw [h.fresh c hpool]
    · exact Table.lt_of_getD_ne (d := ({} : Context)) fun heq => hweak (by rw [State.ctx, heq])
  | deref c =>
    rw [Contexts.step, Option.ite_none_right_eq_some] at hstep
    obtain ⟨halive, hstep⟩ := hstep
    obtain rfl := Option.some.inj hstep
    have halive : (s.ctx c).weakrefs ≠ 0 ∧ (s.ctx c).refs ≠ 0 := by simpa using halive
    have hpool : c ∉ s.pool := fun hpool => halive.1 (by rw [h.fresh c hpool])
    exact (h.incref ⟨hpool, lt_of_refs halive.2⟩).hold
      fun i hp => halive.1 (h.secluded i c hp).weakrefs
  | runLoop t =>
    rw [Contexts.step, Option.ite_none_left_eq_some] at hstep
    obtain rfl := Option.some.inj hstep.2
    exact { h with secluded := fun i d hp => { h.secluded i d hp with } }
  | stopLoop =>
    obtain rfl := Option.some.inj hstep
    exact { h with secluded := fun i d hp => { h.secluded i d hp with } }
  | close =>
    rw [Contexts.step, Option.ite_none_left_eq_some] at hstep
    obtain rfl := Option.some.inj hstep.2
    have hclosed : Inv [] { s with closed := true } :=
      { h with secluded := fun i d hp => { h.secluded i d hp with } }
    exact hclosed.clearEmptyContexts

/-- The invariant holds at first. -/
theorem Inv.init : Inv [] machine.init where
  balanced _ := rfl
  fresh _ h := nomatch h
  bounded := Nat.zero_le _
  supplied _ _ := rfl
  kept _ h := nomatch h
  pooled _ h := nomatch h
  direct _ h := nomatch h
  secluded _ _ h := nomatch h.context
  seen _ h := nomatch h

/-- So it holds in every reachable state. -/
theorem reachable_inv (h : machine.Reachable (fun _ _ => True) s) : Inv [] s :=
  h.invariant .init fun _ _ _ _ hinv _ hstep => hinv.step hstep

end Machine

/-! ## What becomes of a context that is taken from the pool -/

section Taken

variable {s s' s₁ : State} {c i t : ℕ} {memory : Bool}

/-- Nothing is taken from the pool, or the top for a handle without a context. -/
def Taken (s s' : State) : Prop :=
  (∀ c ∈ s.pool, c ∈ s'.pool) ∨
  ∃ i c, s.pool = c :: s'.pool ∧ (s.handle i).context = none ∧ (s.handle i).loop = true ∧
    (s'.handle i).supplied = (s.handle i).supplied ∧
    ∀ j, (s'.handle j).context = if j = i then some c else (s.handle j).context

theorem Taken.of_pool (h : s'.pool = s.pool) : Taken s s' := Or.inl fun _ hc => h ▸ hc

/-- What happens afterwards leaves the handles their contexts. -/
theorem Taken.after (h : Taken s s₁) (hpool : s'.pool = s₁.pool)
    (hcontext : ∀ j, (s'.handle j).context = (s₁.handle j).context)
    (hsupplied : ∀ j, (s'.handle j).supplied = (s₁.handle j).supplied) : Taken s s' := by
  obtain hkeep | ⟨i, c, htop, hnone, hloop, hsup, hctx⟩ := h
  · exact Or.inl fun c hc => hpool ▸ hkeep c hc
  · exact Or.inr ⟨i, c, hpool ▸ htop, hnone, hloop, (hsupplied i).trans hsup,
      fun j => (hcontext j).trans (hctx j)⟩

/-- A handle is marked afterwards. -/
theorem Taken.mark {f : Handle → Handle} (h : Taken s s₁)
    (hcontext : ∀ x, (f x).context = x.context) (hsupplied : ∀ x, (f x).supplied = x.supplied) :
    Taken s (s₁.updateHandle i f) :=
  h.after rfl (fun _ => same_updateHandle Handle.context hcontext)
    fun _ => same_updateHandle Handle.supplied hsupplied

/-- A handle has been marked before. -/
theorem Taken.marked {f : Handle → Handle} (h : Taken (s.updateHandle i f) s')
    (hcontext : ∀ x, (f x).context = x.context) (hsupplied : ∀ x, (f x).supplied = x.supplied)
    (hloop : ∀ x, (f x).loop = x.loop) : Taken s s' := by
  have hctx : ∀ j, ((s.updateHandle i f).handle j).context = (s.handle j).context :=
    fun j => same_updateHandle Handle.context hcontext
  obtain hkeep | ⟨j, c, htop, hnone, hlo, hsup, hall⟩ := h
  · exact Or.inl hkeep
  · exact Or.inr ⟨j, c, htop, (hctx j).symm.trans hnone,
      (same_updateHandle Handle.loop hloop).symm.trans hlo,
      hsup.trans (same_updateHandle Handle.supplied hsupplied),
      fun k => (hall k).trans (by rw [hctx])⟩

theorem materialize_taken (hm : materialize i t memory s = some (c, s')) : Taken s s' := by
  obtain ⟨-, rfl⟩ | ⟨hnone, hloop, pool, hpool, rfl⟩ | ⟨-, -, rfl⟩ := materialize_cases hm
  · exact .of_pool rfl
  · have hi : i < s.handles.length :=
      Table.lt_of_getD_ne (d := ({} : Handle)) fun heq => by
        rw [State.handle, heq] at hloop
        cases hloop
    refine Or.inr ⟨i, c, hpool, hnone, hloop,
      same_updateHandle (s := { s with pool := pool }) Handle.supplied fun _ => rfl, fun j => ?_⟩
    split
    · rename_i heq
      rw [heq]
      exact setContext_context (s := { s with pool := pool }) hi
    · rename_i hne
      exact congrArg Handle.context
        (handle_updateHandle_ne (s := { s with pool := pool }) (Ne.symm hne))
  · exact .of_pool rfl

theorem run_taken : Taken s (run i t memory s) := by
  rw [run]
  dsimp only
  generalize (if (s.handle i).kind = .threadsafe then _ else _ : Bool) = idle
  split
  · exact .of_pool rfl
  · refine Taken.marked (i := i) (f := fun h => { h with running := true }) ?_ (fun _ => rfl)
      (fun _ => rfl) fun _ => rfl
    split
    · exact .of_pool rfl
    · rename_i hm
      split
      · exact (materialize_taken hm).mark (fun _ => rfl) fun _ => rfl
      · exact (materialize_taken hm).after rfl (fun _ => rfl) fun _ => rfl

theorem getContext_taken : Taken s (getContext i t memory s) := by
  rw [getContext]
  split
  · exact .of_pool rfl
  · rename_i c s₁ hfound
    split at hfound
    · obtain ⟨c', -, heq⟩ := Option.map_eq_some_iff.mp hfound
      obtain ⟨-, rfl⟩ := Prod.mk.inj heq
      exact .of_pool rfl
    · have htaken : Taken s ((s₁.incref c).hold c) :=
        (materialize_taken hfound).after rfl (fun _ => rfl) fun _ => rfl
      exact htaken.mark (fun _ => rfl) fun _ => rfl

theorem dealloc_taken : Taken s (dealloc i t s) := by
  have hcontext : ((s.updateHandle i fun h => { h with callback := false }).handle i).context =
      (s.handle i).context := same_updateHandle Handle.context fun _ => rfl
  cases hc : (s.handle i).context with
  | none =>
    rw [dealloc, release, hcontext, hc]
    exact .of_pool rfl
  | some c =>
    obtain heq | ⟨-, -, -, heq⟩ := dealloc_cases (t := t) hc
    · rw [heq]
      exact .of_pool rfl
    · rw [heq]
      exact Or.inl fun d hd => List.mem_cons_of_mem c hd

theorem pool_ensureCurrent : (s.ensureCurrent t).pool = s.pool := by
  rw [ensureCurrent]
  split <;> rfl

theorem pool_create {kind : Kind} {explicit : Option ℕ} :
    (create kind explicit t memory s).pool = s.pool := by
  cases explicit with
  | some c => rfl
  | none =>
    rw [create, capture]
    by_cases hempty : (s.currentVars t).length = 0
    · rw [if_pos hempty]
    · rw [if_neg hempty]
      by_cases hmemory : memory = true
      · rw [if_pos hmemory]
        rfl
      · rw [if_neg hmemory]

theorem pool_createTimer {explicit : Option ℕ} :
    (createTimer explicit t memory s).pool = s.pool := by
  cases explicit with
  | some c => rfl
  | none =>
    rw [createTimer]
    split
    · exact pool_ensureCurrent
    · rfl

theorem pool_setVar {v : ℕ} {x : ℤ} : (setVar t v x s).pool = s.pool := by
  rw [setVar]
  dsimp only
  split <;> exact pool_ensureCurrent

theorem pool_getVar {v : ℕ} : (getVar t v s).pool = s.pool := by
  rw [getVar]
  split
  · rfl
  · split
    · split <;> rfl
    · rfl

/-- Only the close of the loop empties the pool. -/
theorem step_taken {l : Label} (hstep : step s l = some s') : l = .close ∨ Taken s s' := by
  cases l with
  | create kind explicit t memory =>
    rw [step, Option.ite_none_right_eq_some] at hstep
    obtain rfl := Option.some.inj hstep.2
    refine Or.inr (.of_pool ?_)
    split
    · exact pool_createTimer
    · exact pool_create
  | run i t memory =>
    obtain rfl := Option.some.inj hstep
    exact Or.inr run_taken
  | getContext i t memory =>
    rw [step, Option.ite_none_right_eq_some] at hstep
    obtain rfl := Option.some.inj hstep.2
    exact Or.inr getContext_taken
  | dealloc i t =>
    rw [step, Option.ite_none_right_eq_some] at hstep
    obtain rfl := Option.some.inj hstep.2
    exact Or.inr dealloc_taken
  | leave t =>
    rw [step] at hstep
    split at hstep
    · cases hstep
    · rw [Option.ite_none_right_eq_some] at hstep
      obtain rfl := Option.some.inj hstep.2
      refine Or.inr (.of_pool ?_)
      split <;> rfl
  | setVar t v x =>
    obtain rfl := Option.some.inj hstep
    exact Or.inr (.of_pool pool_setVar)
  | getVar t v =>
    obtain rfl := Option.some.inj hstep
    exact Or.inr (.of_pool pool_getVar)
  | resetVar t k =>
    rw [step, resetVar] at hstep
    split at hstep
    · cases hstep
    · rw [Option.ite_none_right_eq_some] at hstep
      obtain rfl := Option.some.inj hstep.2
      exact Or.inr (.of_pool rfl)
  | dropToken k =>
    rw [step] at hstep
    split at hstep
    · cases hstep
    · obtain rfl := Option.some.inj hstep
      exact Or.inr (.of_pool rfl)
  | copyContext t =>
    obtain rfl := Option.some.inj hstep
    exact Or.inr (.of_pool pool_ensureCurrent)
  | cancel | newContext | stopLoop =>
    obtain rfl := Option.some.inj hstep
    exact Or.inr (.of_pool rfl)
  | enter | drop | weakref | dropWeakref | deref =>
    rw [step, Option.ite_none_right_eq_some] at hstep
    obtain rfl := Option.some.inj hstep.2
    exact Or.inr (.of_pool rfl)
  | runLoop t =>
    rw [step, Option.ite_none_left_eq_some] at hstep
    obtain rfl := Option.some.inj hstep.2
    exact Or.inr (.of_pool rfl)
  | close => exact Or.inl rfl

/-- A context that leaves the pool becomes the implicit context of exactly one handle. -/
theorem Inv.taken {l : Label} (h : Inv [] s) (hstep : Contexts.step s l = some s') (hc : c ∈ s.pool)
    (hc' : c ∉ s'.pool) :
    l = .close ∨ ∃ i, (s.handle i).context = none ∧ (s'.handle i).supplied = false ∧
      ∀ j, (s'.handle j).context = some c ↔ j = i := by
  obtain hclose | hkeep | ⟨i, d, htop, hnone, hloop, hsup, hctx⟩ := step_taken hstep
  · exact Or.inl hclose
  · exact absurd (hkeep c hc) hc'
  · rw [htop] at hc
    obtain rfl : c = d := (List.mem_cons.mp hc).resolve_right hc'
    refine Or.inr ⟨i, hnone, ?_, fun j => ?_⟩
    · rw [hsup]
      cases hsupplied : (s.handle i).supplied with
      | false => rfl
      | true => exact absurd hnone (h.kept i hsupplied hloop)
    · rw [hctx]
      split
      · rename_i heq
        exact ⟨fun _ => heq, fun _ => rfl⟩
      · rename_i hne
        -- before, nothing but the pool referred to it
        have hu := (h.alone (htop ▸ List.mem_cons_self)).2.2
        exact ⟨fun hj => absurd hj (hu.handles j), fun heq => absurd heq hne⟩

end Taken

/-- In every reachable state each context in the pool is as good as new, is in it once, and nothing
else refers to it; the pool is bounded; what leaves it, other than when the loop is closed, is from
then on the implicit context of exactly one handle; no handle has put a supplied context into it;
and a callback that was scheduled with an empty implicit context, which Python code has not
obtained, has seen only variables that it had set itself. -/
theorem context_pool_isolated {s : State} (h : machine.Reachable (fun _ _ => True) s) :
    (∀ c ∈ s.pool, s.ctx c = { vars := [], entered := false, weakrefs := 0, refs := 1 } ∧
      s.pool.count c = 1 ∧ Untouched s c) ∧
    s.pool.length ≤ contextPoolCapacity ∧
    (∀ l s', step s l = some s' → ∀ c ∈ s.pool, c ∉ s'.pool →
      l = .close ∨ ∃ i, (s.handle i).context = none ∧ (s'.handle i).supplied = false ∧
        ∀ j, (s'.handle j).context = some c ↔ j = i) ∧
    (∀ e ∈ s.pooled, (s.handle e.1).supplied = false) ∧
    ∀ x ∈ s.seen, x.empty = true → x.obtained = false → x.setter = some x.reader := by
  have hinv := reachable_inv h
  refine ⟨fun c hc => ⟨hinv.fresh c hc, (hinv.alone hc).1, (hinv.alone hc).2.2⟩, hinv.bounded,
    fun l s' hstep c hc hc' => hinv.taken hstep hc hc', fun e he => (hinv.pooled e he).2,
    hinv.seen⟩

/-- A callback sets a variable, reads and resets it; its context is put into the pool. -/
theorem context_pool_isolated_reuse : ∃ s : State, machine.Reachable (fun _ _ => True) s ∧
    s.pool = [0] ∧ s.seen = [⟨0, some 0, true, false⟩] ∧ Untouched s 0 ∧
    ∃ s', step s (.run 1 0 true) = some s' ∧ (s'.handle 1).context = some 0 := by
  have hplay : ∃ s, machine.play (fun _ _ => True)
      [.create .plain none 0 true, .create .plain none 0 true, .runLoop 0, .run 0 0 true,
        .setVar 0 7 5, .getVar 0 7, .resetVar 0 0, .dropToken 0, .leave 0, .dealloc 0 0]
      machine.init = some s ∧ s.pool = [0] ∧ s.seen = [⟨0, some 0, true, false⟩] ∧
      ∃ s', step s (.run 1 0 true) = some s' ∧ (s'.handle 1).context = some 0 :=
    ⟨_, rfl, rfl, rfl, _, rfl, rfl⟩
  obtain ⟨s, hrun, hpool, hseen, hnext⟩ := hplay
  have hreach := Transition.Machine.Reachable.init.play hrun
  have huntouched := ((context_pool_isolated hreach).1 0 (hpool ▸ List.mem_cons_self)).2.2
  exact ⟨s, hreach, hpool, hseen, huntouched, hnext⟩

end Zuvloop.Contexts
