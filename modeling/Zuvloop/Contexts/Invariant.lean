import Mathlib.Data.List.Perm.Basic
import Zuvloop.Collections.Count
import Zuvloop.Contexts.Pool

/-!
# Who refers to a context

A context in the pool is as good as new, and nothing but the pool refers to it. So a handle that
takes one has it for itself, unless Python code asks for it, and finds in it only what its own
callback has set. Here are the invariant that says so, and what keeps it when a reference is taken,
passed on or given up.

## Main definitions

* `owners`: how many references to a context there are.
* `Untouched`: a context that nothing but the pool refers to.
* `Secluded`: a context that only one handle and its callback have to do with.
* `Inv`: the invariant.
-/

namespace Zuvloop.Contexts

open State

/-! ## Tables -/

section Tables

variable {s : State} {c d i j : ℕ} {f : Context → Context} {g : Handle → Handle}

theorem ctx_updateCtx (hc : c < s.contexts.length) :
    (s.updateCtx c f).ctx d = if c = d then f (s.ctx d) else s.ctx d := Table.getD_modify hc

theorem ctx_updateCtx_self (hc : c < s.contexts.length) :
    (s.updateCtx c f).ctx c = f (s.ctx c) := Table.getD_modify_self hc

theorem ctx_updateCtx_ne (h : c ≠ d) : (s.updateCtx c f).ctx d = s.ctx d := Table.getD_modify_ne h

theorem handle_updateHandle (hi : i < s.handles.length) :
    (s.updateHandle i g).handle j = if i = j then g (s.handle j) else s.handle j :=
  Table.getD_modify hi

theorem handle_updateHandle_self (hi : i < s.handles.length) :
    (s.updateHandle i g).handle i = g (s.handle i) := Table.getD_modify_self hi

theorem handle_updateHandle_ne (h : i ≠ j) : (s.updateHandle i g).handle j = s.handle j :=
  Table.getD_modify_ne h

/-- A context that somebody refers to exists. -/
theorem lt_of_refs (h : (s.ctx c).refs ≠ 0) : c < s.contexts.length :=
  Table.lt_of_getD_ne (d := ({} : Context)) fun heq => h (by rw [State.ctx, heq])

/-- A handle that has a context exists. -/
theorem lt_of_context (h : (s.handle i).context = some c) : i < s.handles.length :=
  Table.lt_of_getD_ne (d := ({} : Handle)) fun heq => by
    rw [State.handle, heq] at h
    cases h

end Tables

/-! ## References -/

/-- How many references to a context there are: from handles, the pool, whoever holds it, threads
and tokens. -/
def owners (s : State) (c : ℕ) : ℕ :=
  s.handles.countP (fun h => h.context == some c) + s.pool.count c + s.held.count c +
    s.frames.countP (fun f => f.ctx == c) + s.tokens.countP (fun x => x.ctx == c)

/-- Nothing but the pool refers to a context. -/
structure Untouched (s : State) (c : ℕ) : Prop where
  handles : ∀ i, (s.handle i).context ≠ some c
  held : c ∉ s.held
  frames : ∀ f ∈ s.frames, f.ctx ≠ c
  tokens : ∀ x ∈ s.tokens, x.ctx ≠ c

/-- A context that only one handle and its callback have to do with. -/
structure Secluded (s : State) (i c : ℕ) : Prop where
  held : c ∉ s.held
  weakrefs : (s.ctx c).weakrefs = 0
  handles : ∀ j, (s.handle j).context = some c → j = i
  frames : ∀ f ∈ s.frames, f.ctx = c → f.owner = some i
  vars : ∀ b ∈ (s.ctx c).vars, b.2.setter = some i
  tokens : ∀ x ∈ s.tokens, x.ctx = c → ∀ b, x.old = some b → b.setter = some i

/-- A handle with an empty implicit context that Python code has not obtained. -/
structure Private (h : Handle) (c : ℕ) : Prop where
  empty : h.empty = true
  obtained : h.obtained = false
  context : h.context = some c

/-- The invariant. The function in progress owns some references of its own. -/
structure Inv (own : List ℕ) (s : State) : Prop where
  /-- The reference counts are right. -/
  balanced : ∀ c, (s.ctx c).refs = owners s c + own.count c
  /-- A context in the pool is as good as new, and nobody else refers to it. -/
  fresh : ∀ c ∈ s.pool, s.ctx c = { refs := 1 }
  /-- The pool is bounded. -/
  bounded : s.pool.length ≤ contextPoolCapacity
  /-- A supplied context does not count as captured. -/
  supplied : ∀ i, (s.handle i).supplied = true → (s.handle i).captured = false
  /-- A handle keeps a supplied context for as long as it has its loop. -/
  kept : ∀ i, (s.handle i).supplied = true → (s.handle i).loop = true →
    (s.handle i).context ≠ none
  /-- No handle has put a supplied context into the pool. -/
  pooled : ∀ e ∈ s.pooled, e.1 < s.handles.length ∧ (s.handle e.1).supplied = false
  /-- A callback runs in the context of its handle. -/
  direct : ∀ f ∈ s.frames, f.direct = true → ∀ i, f.owner = some i →
    (s.handle i).context = some f.ctx
  /-- An empty implicit context that Python code has not obtained is secluded. -/
  secluded : ∀ i c, Private (s.handle i) c → Secluded s i c
  /-- What a callback has seen in such a context it had set itself. -/
  seen : ∀ x ∈ s.seen, x.empty = true → x.obtained = false → x.setter = some x.reader

section References

variable {s : State} {own : List ℕ} {c i : ℕ}

/-- Each who may refer to a context has its part in the count. -/
theorem Untouched.of_owners (h : owners s c ≤ s.pool.count c) : Untouched s c := by
  rw [owners] at h
  refine ⟨fun i hi => ?_, fun hheld => ?_, fun f hf heq => ?_, fun x hx heq => ?_⟩
  · have := Table.countP_pos (d := ({} : Handle)) (fun h : Handle => h.context == some c)
      (lt_of_context hi) (by simpa [State.handle] using hi)
    omega
  · have := List.count_pos_iff.mpr hheld
    omega
  · have : 0 < s.frames.countP fun g => g.ctx == c :=
      List.countP_pos_iff.mpr ⟨f, hf, by simp [heq]⟩
    omega
  · have : 0 < s.tokens.countP fun y => y.ctx == c :=
      List.countP_pos_iff.mpr ⟨x, hx, by simp [heq]⟩
    omega

/-- Nothing but the pool refers to a context in the pool, and the pool has it once. -/
theorem Inv.alone (h : Inv own s) (hc : c ∈ s.pool) :
    s.pool.count c = 1 ∧ c ∉ own ∧ Untouched s c := by
  have hpos := List.count_pos_iff.mpr hc
  have hone := h.balanced c
  rw [h.fresh c hc] at hone
  have hle : s.pool.count c ≤ owners s c := by
    rw [owners]
    omega
  refine ⟨by simp only at hone; omega, fun hown => ?_, .of_owners (by simp only at hone; omega)⟩
  have := List.count_pos_iff.mpr hown
  simp only at hone
  omega

/-- Nobody refers to a context that does not exist yet. -/
theorem Inv.unborn (h : Inv own s) :
    s.contexts.length ∉ s.pool ∧ Untouched s s.contexts.length := by
  have hzero := h.balanced s.contexts.length
  rw [State.ctx, Table.getD_of_length_le (Nat.le_refl _)] at hzero
  simp only at hzero
  refine ⟨fun hpool => ?_, .of_owners (by omega)⟩
  have := List.count_pos_iff.mpr hpool
  rw [owners] at hzero
  omega

/-- What somebody other than the pool refers to is not in the pool, and exists. -/
theorem Inv.used (h : Inv own s) (hc : ¬ Untouched s c) :
    c ∉ s.pool ∧ c < s.contexts.length := by
  refine ⟨fun hpool => hc (h.alone hpool).2.2, lt_of_refs fun hzero => hc (.of_owners ?_)⟩
  have := h.balanced c
  omega

theorem Inv.used_context (h : Inv own s) (hi : (s.handle i).context = some c) :
    c ∉ s.pool ∧ c < s.contexts.length := h.used fun hu => hu.handles i hi

theorem Inv.used_held (h : Inv own s) (hc : c ∈ s.held) :
    c ∉ s.pool ∧ c < s.contexts.length := h.used fun hu => hu.held hc

theorem Inv.used_frame (h : Inv own s) {f : Frame} (hf : f ∈ s.frames) :
    f.ctx ∉ s.pool ∧ f.ctx < s.contexts.length := h.used fun hu => hu.frames f hf rfl

theorem Inv.used_token (h : Inv own s) {x : Token} (hx : x ∈ s.tokens) :
    x.ctx ∉ s.pool ∧ x.ctx < s.contexts.length := h.used fun hu => hu.tokens x hx rfl

/-- What the function in progress refers to is not in the pool, and exists. -/
theorem Inv.used_own (h : Inv own s) (hc : c ∈ own) : c ∉ s.pool ∧ c < s.contexts.length := by
  refine ⟨fun hpool => (h.alone hpool).2.1 hc, lt_of_refs fun hzero => ?_⟩
  have hpos := List.count_pos_iff.mpr hc
  have := h.balanced c
  omega

/-- Nobody has to himself what Python code holds. -/
theorem Inv.not_private_held (h : Inv own s) (hc : c ∈ s.held) : ¬ Private (s.handle i) c :=
  fun hp => (h.secluded i c hp).held hc

end References

/-! ## Reference counts -/

section Counts

variable {s : State} {c d i : ℕ}

/-- What a change of a context does not change. -/
theorem same_updateCtx {β : Type*} {f : Context → Context} (p : Context → β)
    (hp : ∀ x, p (f x) = p x) : p ((s.updateCtx c f).ctx d) = p (s.ctx d) := by
  by_cases hc : c < s.contexts.length
  · rw [ctx_updateCtx hc]
    split
    · exact hp _
    · rfl
  · rw [State.updateCtx, List.modify_eq_self (by omega)]

/-- What a change of a handle does not change. -/
theorem same_updateHandle {β : Type*} {f : Handle → Handle} (p : Handle → β)
    (hp : ∀ h, p (f h) = p h) : p ((s.updateHandle i f).handle d) = p (s.handle d) := by
  by_cases hi : i < s.handles.length
  · rw [handle_updateHandle hi]
    split
    · exact hp _
    · rfl
  · rw [State.updateHandle, List.modify_eq_self (by omega)]

theorem refs_incref (hc : c < s.contexts.length) :
    ((s.incref c).ctx d).refs = (s.ctx d).refs + if c = d then 1 else 0 := by
  rw [State.incref, ctx_updateCtx hc]
  split <;> rfl

theorem refs_decref (hc : c < s.contexts.length) :
    ((s.decref c).ctx d).refs = (s.ctx d).refs - if c = d then 1 else 0 := by
  rw [State.decref, ctx_updateCtx hc]
  split <;> rfl

theorem ctx_newContext_self {vars : List (ℕ × Binding)} :
    (s.newContext vars).ctx s.contexts.length = { vars := vars, refs := 1 } :=
  Table.getD_concat_self _

theorem ctx_newContext_ne {vars : List (ℕ × Binding)} (h : d ≠ s.contexts.length) :
    (s.newContext vars).ctx d = s.ctx d := Table.getD_concat_ne _ h

theorem count_cons (own : List ℕ) :
    (c :: own).count d = own.count d + if c = d then 1 else 0 := by
  rw [List.count_cons]
  simp

theorem owners_hold : owners (s.hold c) d = owners s d + if c = d then 1 else 0 := by
  simp only [owners, State.hold, count_cons]
  omega

theorem owners_unhold (hc : c ∈ s.held) :
    owners { s with held := s.held.erase c } d + (if c = d then 1 else 0) = owners s d := by
  have hperm := (List.perm_cons_erase hc).count_eq d
  simp only [owners, hperm, count_cons]
  omega

theorem owners_pushFrame (f : Frame) :
    owners { s with frames := f :: s.frames } d = owners s d + if f.ctx = d then 1 else 0 := by
  simp only [owners, List.countP_cons, beq_iff_eq]
  omega

theorem owners_popFrame {f : Frame} (hf : f ∈ s.frames) :
    owners { s with frames := s.frames.erase f } d + (if f.ctx = d then 1 else 0) =
      owners s d := by
  have hperm := (List.perm_cons_erase hf).countP_eq fun g => g.ctx == d
  simp only [owners, hperm, List.countP_cons, beq_iff_eq]
  omega

theorem owners_pushToken (x : Token) :
    owners { s with tokens := x :: s.tokens } d = owners s d + if x.ctx = d then 1 else 0 := by
  simp only [owners, List.countP_cons, beq_iff_eq]
  omega

theorem owners_popToken {k : ℕ} {x : Token} (hx : s.tokens[k]? = some x) :
    owners { s with tokens := s.tokens.eraseIdx k } d + (if x.ctx = d then 1 else 0) =
      owners s d := by
  obtain ⟨hk, rfl⟩ := List.getElem?_eq_some_iff.mp hx
  have hperm := (List.getElem_cons_eraseIdx_perm hk).countP_eq fun x => x.ctx == d
  rw [List.countP_cons] at hperm
  simp only [beq_iff_eq] at hperm
  simp only [owners]
  omega

theorem owners_addHandle (h : Handle) :
    owners { s with handles := s.handles ++ [h] } d =
      owners s d + if h.context = some d then 1 else 0 := by
  simp only [owners, List.countP_append, List.countP_singleton, beq_iff_eq]
  omega

theorem owners_setContext (hi : i < s.handles.length) (context : Option ℕ) :
    owners (s.setContext i context) d + (if (s.handle i).context = some d then 1 else 0) =
      owners s d + if context = some d then 1 else 0 := by
  have hcount := Table.countP_modify (d := ({} : Handle)) (fun h : Handle => h.context == some d)
    (fun h => { h with context := context }) hi
  have hbool : ∀ o : Option ℕ, (o == some d).toNat = if o = some d then 1 else 0 := by
    intro o
    by_cases ho : o = some d <;> simp [ho]
  dsimp only at hcount
  rw [← hbool, ← hbool]
  simp only [owners, State.setContext, State.updateHandle, State.handle]
  omega

/-- Nothing changes for contexts when a handle keeps its own. -/
theorem owners_updateHandle {f : Handle → Handle} (hf : ∀ h, (f h).context = h.context) :
    owners (s.updateHandle i f) d = owners s d := by
  simp only [owners, State.updateHandle]
  rw [Table.countP_modify_of_eq (d := ({} : Handle)) _ (by rw [hf])]

end Counts

/-! ## What becomes of references -/

section Moves

variable {s : State} {own : List ℕ} {c d i t : ℕ}

/-- A change of one context does not concern those who have to do with another. -/
theorem Secluded.elsewhere {f : Context → Context} (h : Secluded s i d) (hne : c ≠ d) :
    Secluded (s.updateCtx c f) i d :=
  { h with
    weakrefs := by
      rw [ctx_updateCtx_ne hne]
      exact h.weakrefs
    vars := by
      rw [ctx_updateCtx_ne hne]
      exact h.vars }

/-- Nor does a change of what a context does not have to itself. -/
theorem Secluded.recount {f : Context → Context} (h : Secluded s i d)
    (hweak : ∀ x, (f x).weakrefs = x.weakrefs) (hvars : ∀ x, (f x).vars = x.vars) :
    Secluded (s.updateCtx c f) i d :=
  { h with
    weakrefs := by
      rw [same_updateCtx Context.weakrefs hweak]
      exact h.weakrefs
    vars := by
      rw [same_updateCtx Context.vars hvars]
      exact h.vars }

/-- The function in progress takes a reference. -/
theorem Inv.incref (h : Inv own s) (hc : c ∉ s.pool ∧ c < s.contexts.length) :
    Inv (c :: own) (s.incref c) :=
  { h with
    balanced := fun d => by
      rw [refs_incref hc.2, count_cons, h.balanced d, ← Nat.add_assoc]
      rfl
    fresh := fun d hd => by
      rw [State.incref, ctx_updateCtx_ne fun heq => hc.1 (by rw [heq]; exact hd)]
      exact h.fresh d hd
    secluded := fun i d hp => (h.secluded i d hp).recount (fun _ => rfl) fun _ => rfl }

/-- The function in progress gives up a reference. -/
theorem Inv.decref (h : Inv (c :: own) s) : Inv own (s.decref c) :=
  have hc := h.used_own List.mem_cons_self
  { h with
    balanced := fun d => by
      have hrefs := h.balanced d
      rw [count_cons] at hrefs
      rw [refs_decref hc.2, hrefs, ← Nat.add_assoc, Nat.add_sub_cancel]
      rfl
    fresh := fun d hd => by
      rw [State.decref, ctx_updateCtx_ne fun heq => hc.1 (by rw [heq]; exact hd)]
      exact h.fresh d hd
    secluded := fun i d hp => (h.secluded i d hp).recount (fun _ => rfl) fun _ => rfl }

/-- The function in progress makes a context. -/
theorem Inv.newContext (h : Inv own s) (vars : List (ℕ × Binding)) :
    Inv (s.contexts.length :: own) (s.newContext vars) :=
  { h with
    balanced := fun d => by
      rw [count_cons]
      by_cases heq : d = s.contexts.length
      · subst heq
        have hzero := h.balanced s.contexts.length
        rw [State.ctx, Table.getD_of_length_le (Nat.le_refl _)] at hzero
        rw [ctx_newContext_self, if_pos rfl, ← Nat.add_assoc]
        exact congrArg (· + 1) hzero
      · rw [ctx_newContext_ne heq, if_neg (Ne.symm heq), Nat.add_zero]
        exact h.balanced d
    fresh := fun d hd => by
      rw [ctx_newContext_ne fun heq => h.unborn.1 (heq ▸ hd)]
      exact h.fresh d hd
    secluded := fun i d hp => by
      have hsec := h.secluded i d hp
      have hd : d ≠ s.contexts.length := fun heq => h.unborn.2.handles i (heq ▸ hp.context)
      exact { hsec with
        weakrefs := by
          rw [ctx_newContext_ne hd]
          exact hsec.weakrefs
        vars := by
          rw [ctx_newContext_ne hd]
          exact hsec.vars } }

/-- Python code gets a reference to a context that no handle has for itself. -/
theorem Inv.hold (h : Inv (c :: own) s) (hc : ∀ i, ¬ Private (s.handle i) c) :
    Inv own (s.hold c) :=
  { h with
    balanced := fun d => by
      have hrefs := h.balanced d
      rw [count_cons] at hrefs
      rw [owners_hold]
      exact hrefs.trans (by omega)
    secluded := fun i d hp => by
      have hsec := h.secluded i d hp
      have hne : d ≠ c := fun heq => hc i (heq ▸ hp)
      exact { hsec with
        held := fun hd => (List.mem_cons.mp hd).elim hne hsec.held } }

/-- Python code passes a reference on. -/
theorem Inv.unhold (h : Inv own s) (hc : c ∈ s.held) :
    Inv (c :: own) { s with held := s.held.erase c } :=
  { h with
    balanced := fun d => by
      have howners := owners_unhold (d := d) hc
      rw [count_cons]
      exact (h.balanced d).trans (by omega)
    secluded := fun i d hp =>
      { h.secluded i d hp with
        held := fun hd => (h.secluded i d hp).held (List.mem_of_mem_erase hd) } }

/-- A context becomes current on a thread. -/
theorem Inv.pushFrame {f : Frame} (h : Inv (f.ctx :: own) s)
    (hdirect : f.direct = true → ∀ i, f.owner = some i → (s.handle i).context = some f.ctx)
    (howner : ∀ i, Private (s.handle i) f.ctx → f.owner = some i) :
    Inv own { s with frames := f :: s.frames } :=
  { h with
    balanced := fun d => by
      have hrefs := h.balanced d
      rw [count_cons] at hrefs
      rw [owners_pushFrame]
      exact hrefs.trans (by omega)
    direct := fun g hg => by
      obtain rfl | hg := List.mem_cons.mp hg
      · exact hdirect
      · exact h.direct g hg
    secluded := fun i d hp => by
      have hsec := h.secluded i d hp
      exact { hsec with
        frames := fun g hg heq => by
          obtain rfl | hg := List.mem_cons.mp hg
          · exact howner i (heq ▸ hp)
          · exact hsec.frames g hg heq } }

/-- A context is no longer current on a thread. -/
theorem Inv.popFrame {f : Frame} (h : Inv own s) (hf : f ∈ s.frames) :
    Inv (f.ctx :: own) { s with frames := s.frames.erase f } :=
  { h with
    balanced := fun d => by
      have howners := owners_popFrame (d := d) hf
      rw [count_cons]
      exact (h.balanced d).trans (by omega)
    direct := fun g hg => h.direct g (List.mem_of_mem_erase hg)
    secluded := fun i d hp =>
      { h.secluded i d hp with
        frames := fun g hg => (h.secluded i d hp).frames g (List.mem_of_mem_erase hg) } }

/-- A token keeps a context alive. -/
theorem Inv.pushToken {x : Token} (h : Inv (x.ctx :: own) s)
    (hold : ∀ i, Private (s.handle i) x.ctx → ∀ b, x.old = some b → b.setter = some i) :
    Inv own { s with tokens := x :: s.tokens } :=
  { h with
    balanced := fun d => by
      have hrefs := h.balanced d
      rw [count_cons] at hrefs
      rw [owners_pushToken]
      exact hrefs.trans (by omega)
    secluded := fun i d hp => by
      have hsec := h.secluded i d hp
      exact { hsec with
        tokens := fun y hy heq => by
          obtain rfl | hy := List.mem_cons.mp hy
          · exact hold i (heq ▸ hp)
          · exact hsec.tokens y hy heq } }

/-- A token is released. -/
theorem Inv.popToken {k : ℕ} {x : Token} (h : Inv own s) (hx : s.tokens[k]? = some x) :
    Inv (x.ctx :: own) { s with tokens := s.tokens.eraseIdx k } :=
  { h with
    balanced := fun d => by
      have howners := owners_popToken (d := d) hx
      rw [count_cons]
      exact (h.balanced d).trans (by omega)
    secluded := fun i d hp =>
      { h.secluded i d hp with
        tokens := fun y hy => (h.secluded i d hp).tokens y (List.mem_of_mem_eraseIdx hy) } }

/-- A token is used up. -/
theorem Inv.useToken (h : Inv own s) (k : ℕ) :
    Inv own { s with tokens := s.tokens.modify k fun x => { x with used := true } } :=
  { h with
    balanced := fun d => by
      rw [owners, Table.countP_modify_of_eq (d := ⟨0, 0, none, false⟩) _ rfl]
      exact h.balanced d
    secluded := fun i d hp =>
      { h.secluded i d hp with
        tokens := fun y hy => by
          obtain hy | ⟨x, hx, rfl⟩ := Table.mem_modify hy
          · exact (h.secluded i d hp).tokens y hy
          · exact (h.secluded i d hp).tokens x hx } }

/-- The function in progress takes the top of the pool. -/
theorem Inv.take {pool : List ℕ} (h : Inv own s) (hpool : s.pool = c :: pool) :
    Inv (c :: own) { s with pool := pool } ∧ Untouched s c ∧ s.ctx c = { refs := 1 } := by
  have hmem : c ∈ s.pool := hpool ▸ List.mem_cons_self
  have hlen := h.bounded
  rw [hpool] at hlen
  refine ⟨{ h with
    balanced := fun d => ?_
    fresh := fun d hd => h.fresh d (hpool ▸ List.mem_cons_of_mem c hd)
    bounded := Nat.le_trans (Nat.le_succ _) hlen
    secluded := fun i d hp => { h.secluded i d hp with } }, (h.alone hmem).2.2, h.fresh c hmem⟩
  have hrefs := h.balanced d
  rw [owners, hpool, count_cons] at hrefs
  simp only [owners, count_cons]
  exact hrefs.trans (by omega)

/-- All of the pool is taken. -/
theorem Inv.takeAll (h : Inv own s) : Inv (s.pool ++ own) { s with pool := [] } :=
  { h with
    balanced := fun d => by
      have hrefs := h.balanced d
      simp only [owners, List.count_append, List.count_nil] at hrefs ⊢
      exact hrefs.trans (by omega)
    fresh := fun d hd => nomatch hd
    bounded := Nat.zero_le _
    secluded := fun i d hp => { h.secluded i d hp with } }

/-- A context that is as good as new goes into the pool. -/
theorem Inv.put (h : Inv (c :: own) s) (hfresh : s.ctx c = { refs := 1 })
    (hlen : s.pool.length < contextPoolCapacity)
    (hi : i < s.handles.length ∧ (s.handle i).supplied = false) :
    Inv own { s with pool := c :: s.pool, pooled := s.pooled ++ [(i, c)] } :=
  { h with
    balanced := fun d => by
      have hrefs := h.balanced d
      simp only [owners, count_cons] at hrefs ⊢
      exact hrefs.trans (by omega)
    fresh := fun d hd => by
      obtain rfl | hd := List.mem_cons.mp hd
      · exact hfresh
      · exact h.fresh d hd
    bounded := hlen
    pooled := fun e he => by
      obtain he | he := List.mem_append.mp he
      · exact h.pooled e he
      · obtain rfl := List.mem_singleton.mp he
        exact hi
    secluded := fun i d hp => { h.secluded i d hp with } }

/-- A context changes that is not in the pool. -/
theorem Inv.updateCtx {f : Context → Context} (h : Inv own s)
    (hc : c ∉ s.pool ∧ c < s.contexts.length) (hrefs : ∀ x, (f x).refs = x.refs)
    (hsec : ∀ i, Private (s.handle i) c → (f (s.ctx c)).weakrefs = 0 ∧
      ∀ b ∈ (f (s.ctx c)).vars, b.2.setter = some i) :
    Inv own (s.updateCtx c f) :=
  { h with
    balanced := fun d => by
      rw [same_updateCtx Context.refs hrefs]
      exact h.balanced d
    fresh := fun d hd => by
      rw [ctx_updateCtx_ne fun heq => hc.1 (by rw [heq]; exact hd)]
      exact h.fresh d hd
    secluded := fun i d hp => by
      by_cases heq : c = d
      · subst heq
        have hnew := hsec i hp
        rw [← ctx_updateCtx_self (f := f) hc.2] at hnew
        exact { h.secluded i c hp with weakrefs := hnew.1, vars := hnew.2 }
      · exact (h.secluded i d hp).elsewhere heq }

/-- A handle changes, but not in what concerns contexts. -/
theorem Inv.updateHandle {f : Handle → Handle} (h : Inv own s)
    (hcontext : ∀ x, (f x).context = x.context) (hcaptured : ∀ x, (f x).captured = x.captured)
    (hsupplied : ∀ x, (f x).supplied = x.supplied) (hempty : ∀ x, (f x).empty = x.empty)
    (hloop : ∀ x, (f x).loop = true → x.loop = true)
    (hobtained : ∀ x, (f x).obtained = false → x.obtained = false) :
    Inv own (s.updateHandle i f) := by
  have hctx : ∀ j, ((s.updateHandle i f).handle j).context = (s.handle j).context :=
    fun j => same_updateHandle Handle.context hcontext
  have hsup : ∀ j, ((s.updateHandle i f).handle j).supplied = (s.handle j).supplied :=
    fun j => same_updateHandle Handle.supplied hsupplied
  have hweaker : ∀ (p : Handle → Bool) (b : Bool), (∀ x, p (f x) = b → p x = b) → ∀ j,
      p ((s.updateHandle i f).handle j) = b → p (s.handle j) = b := by
    intro p b hp j hj
    by_cases hi : i < s.handles.length
    · rw [handle_updateHandle hi] at hj
      split at hj
      · exact hp _ hj
      · exact hj
    · rwa [State.updateHandle, List.modify_eq_self (by omega)] at hj
  have hprivate : ∀ j d, Private ((s.updateHandle i f).handle j) d → Private (s.handle j) d :=
    fun j d hp =>
      { empty := hweaker Handle.empty true (fun x hx => hempty x ▸ hx) j hp.empty
        obtained := hweaker Handle.obtained false hobtained j hp.obtained
        context := (hctx j).symm.trans hp.context }
  exact { h with
    balanced := fun d => by
      rw [owners_updateHandle hcontext]
      exact h.balanced d
    supplied := fun j hj => by
      rw [same_updateHandle Handle.captured hcaptured]
      exact h.supplied j ((hsup j).symm.trans hj)
    kept := fun j hj hlo => by
      rw [hctx]
      exact h.kept j ((hsup j).symm.trans hj) (hweaker Handle.loop true hloop j hlo)
    pooled := fun e he => by
      rw [hsup, State.updateHandle, List.length_modify]
      exact h.pooled e he
    direct := fun g hg hd j hj => by
      rw [hctx]
      exact h.direct g hg hd j hj
    secluded := fun j d hp =>
      { h.secluded j d (hprivate j d hp) with
        handles := fun k hk =>
          (h.secluded j d (hprivate j d hp)).handles k ((hctx k).symm.trans hk) } }

/-- A handle gets a context that is as good as new. -/
theorem Inv.attach (h : Inv (c :: own) s) (hi : i < s.handles.length)
    (hnone : (s.handle i).context = none) (hu : Untouched s c)
    (hclean : (s.ctx c).vars = [] ∧ (s.ctx c).weakrefs = 0) :
    Inv own (s.setContext i (some c)) := by
  have hself : (s.setContext i (some c)).handle i = { s.handle i with context := some c } :=
    handle_updateHandle_self hi
  have hother : ∀ {j}, i ≠ j → (s.setContext i (some c)).handle j = s.handle j :=
    handle_updateHandle_ne
  have hall : ∀ {β : Type} (p : Handle → β), (∀ x, p { x with context := some c } = p x) →
      ∀ j, p ((s.setContext i (some c)).handle j) = p (s.handle j) :=
    fun p hp j => same_updateHandle p hp
  exact { h with
    balanced := fun d => by
      have hrefs := h.balanced d
      have howners := owners_setContext (d := d) hi (some c)
      simp only [hnone, reduceCtorEq, if_false, Option.some.injEq] at howners
      rw [count_cons] at hrefs
      exact hrefs.trans (by omega)
    supplied := fun j hj => by
      rw [hall Handle.captured fun _ => rfl]
      exact h.supplied j (by rwa [hall Handle.supplied fun _ => rfl] at hj)
    kept := fun j hj hlo => by
      by_cases heq : i = j
      · rw [← heq, hself]
        exact Option.some_ne_none c
      · rw [hother heq] at hj hlo ⊢
        exact h.kept j hj hlo
    pooled := fun e he => by
      rw [hall Handle.supplied fun _ => rfl, State.setContext, State.updateHandle,
        List.length_modify]
      exact h.pooled e he
    direct := fun g hg hd j hj => by
      have hold := h.direct g hg hd j hj
      have hne : i ≠ j := by
        rintro rfl
        rw [hnone] at hold
        cases hold
      rwa [hother hne]
    secluded := fun j d hp => by
      by_cases heq : i = j
      · -- the handle has the context for itself
        subst heq
        rw [hself] at hp
        obtain rfl := Option.some.inj hp.context
        exact {
          held := hu.held
          weakrefs := hclean.2
          handles := fun k hk => by
            by_contra hne
            rw [hother (Ne.symm hne)] at hk
            exact hu.handles k hk
          frames := fun g hg hgc => absurd hgc (hu.frames g hg)
          vars := fun b hb => by
            have : b ∈ (s.ctx c).vars := hb
            rw [hclean.1] at this
            cases this
          tokens := fun x hx hxc => absurd hxc (hu.tokens x hx) }
      · rw [hother heq] at hp
        exact { h.secluded j d hp with
          handles := fun k hk => by
            by_cases hik : i = k
            · rw [← hik, hself] at hk
              obtain rfl := Option.some.inj hk
              exact absurd hp.context (hu.handles j)
            · rw [hother hik] at hk
              exact (h.secluded j d hp).handles k hk } }

/-- A handle is cleared; the function in progress has its context. -/
theorem Inv.detach (h : Inv own s) (hc : (s.handle i).context = some c)
    (hrun : ∀ f ∈ s.frames, f.direct = true → f.owner ≠ some i) :
    Inv (c :: own) (s.updateHandle i fun x => { x with context := none, loop := false }) := by
  have hi := lt_of_context hc
  set s' := s.updateHandle i fun x => { x with context := none, loop := false } with hs'
  have hself : s'.handle i = { s.handle i with context := none, loop := false } :=
    handle_updateHandle_self hi
  have hother : ∀ {j}, i ≠ j → s'.handle j = s.handle j := handle_updateHandle_ne
  have hall : ∀ {β : Type} (p : Handle → β),
      (∀ x, p { x with context := none, loop := false } = p x) →
      ∀ j, p (s'.handle j) = p (s.handle j) := fun p hp j => same_updateHandle p hp
  exact { h with
    balanced := fun d => by
      have howners := owners_setContext (d := d) hi none
      simp only [hc, Option.some.injEq, reduceCtorEq, if_false] at howners
      have hsame : owners s' d = owners (s.setContext i none) d := by
        rw [hs', show (s.updateHandle i fun x => { x with context := none, loop := false }) =
          (s.setContext i none).updateHandle i fun x => { x with loop := false } by
            simp only [State.setContext, State.updateHandle, List.modify_modify_eq]; rfl]
        exact owners_updateHandle fun _ => rfl
      rw [count_cons, hsame]
      exact (h.balanced d).trans (by omega)
    supplied := fun j hj => by
      rw [hall Handle.captured fun _ => rfl]
      exact h.supplied j (by rwa [hall Handle.supplied fun _ => rfl] at hj)
    kept := fun j hj hlo => by
      by_cases heq : i = j
      · rw [← heq, hself] at hlo
        cases hlo
      · rw [hother heq] at hj hlo ⊢
        exact h.kept j hj hlo
    pooled := fun e he => by
      rw [hall Handle.supplied fun _ => rfl, hs', State.updateHandle, List.length_modify]
      exact h.pooled e he
    direct := fun g hg hd j hj => by
      have hne : i ≠ j := by
        rintro rfl
        exact hrun g hg hd hj
      rw [hother hne]
      exact h.direct g hg hd j hj
    secluded := fun j d hp => by
      by_cases heq : i = j
      · rw [← heq, hself] at hp
        cases hp.context
      · rw [hother heq] at hp
        exact { h.secluded j d hp with
          handles := fun k hk => by
            by_cases hik : i = k
            · rw [← hik, hself] at hk
              cases hk
            · rw [hother hik] at hk
              exact (h.secluded j d hp).handles k hk } }

/-- A handle is created. A context that is not shared with anybody else is as good as new. -/
theorem Inv.addHandle {x : Handle} (h : Inv (x.context.toList ++ own) s)
    (hsupplied : x.supplied = true → x.captured = false ∧ x.context ≠ none)
    (hprivate : ∀ d, Private x d → Untouched s d ∧ (s.ctx d).vars = [] ∧ (s.ctx d).weakrefs = 0)
    (hshared : ∀ d, x.context = some d → ∀ j, ¬ Private (s.handle j) d) :
    Inv own { s with handles := s.handles ++ [x] } := by
  set s' : State := { s with handles := s.handles ++ [x] } with hs'
  have hself : s'.handle s.handles.length = x := Table.getD_concat_self x
  have hother : ∀ {j}, j ≠ s.handles.length → s'.handle j = s.handle j := Table.getD_concat_ne x
  have hlt : ∀ {j d}, (s.handle j).context = some d → j ≠ s.handles.length :=
    fun hj heq => Nat.lt_irrefl _ (heq ▸ lt_of_context hj)
  exact { h with
    balanced := fun d => by
      have hrefs := h.balanced d
      rw [List.count_append] at hrefs
      have hcount : x.context.toList.count d = if x.context = some d then 1 else 0 := by
        cases x.context with
        | none => rfl
        | some c => simp [List.count_singleton]
      rw [hs', owners_addHandle]
      exact hrefs.trans (by omega)
    supplied := fun j hj => by
      by_cases heq : j = s.handles.length
      · rw [heq, hself] at hj ⊢
        exact (hsupplied hj).1
      · rw [hother heq] at hj ⊢
        exact h.supplied j hj
    kept := fun j hj hlo => by
      by_cases heq : j = s.handles.length
      · rw [heq, hself] at hj ⊢
        exact (hsupplied hj).2
      · rw [hother heq] at hj hlo ⊢
        exact h.kept j hj hlo
    pooled := fun e he => by
      have hold := h.pooled e he
      rw [hother (Nat.ne_of_lt hold.1), hs', List.length_append]
      exact ⟨Nat.lt_succ_of_lt hold.1, hold.2⟩
    direct := fun g hg hd j hj => by
      have hold := h.direct g hg hd j hj
      rwa [hother (hlt hold)]
    secluded := fun j d hp => by
      by_cases heq : j = s.handles.length
      · subst heq
        rw [hself] at hp
        obtain ⟨hu, hvars, hweak⟩ := hprivate d hp
        exact {
          held := hu.held
          weakrefs := hweak
          handles := fun k hk => by
            by_contra hne
            rw [hother hne] at hk
            exact hu.handles k hk
          frames := fun g hg hgc => absurd hgc (hu.frames g hg)
          vars := fun b hb => by
            have : b ∈ (s.ctx d).vars := hb
            rw [hvars] at this
            cases this
          tokens := fun y hy hyc => absurd hyc (hu.tokens y hy) }
      · rw [hother heq] at hp
        exact { h.secluded j d hp with
          handles := fun k hk => by
            by_cases hkn : k = s.handles.length
            · rw [hkn, hself] at hk
              exact absurd hp (hshared d hk j)
            · rw [hother hkn] at hk
              exact (h.secluded j d hp).handles k hk } }

end Moves

end Zuvloop.Contexts
