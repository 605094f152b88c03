import Zuvloop.Reentrant.Logs
import Zuvloop.Stream.Verified

/-!
# The buffers of one `writelines`

A `writelines` that cannot hand its whole vector to the socket stores its buffers in the batch, one
by one. A batch that is full is flushed first, which may call `pause_writing` or `resume_writing`;
what the protocol writes there goes into the batch before the next buffer does.

## Main definitions

* `own`, `others`: the bytes a run accepts itself, and those accepted while foreign code runs.
* `buffers`: the buffers a `writelines` gets from its items.
* `Contiguous`: nothing is accepted between the first and the last byte of its own.
* `Interrupted`: a flush of the batch it has filled runs Python code that writes.

## Main results

* `writelines_contiguous_iff`: `writelines` accepts its buffers in order, and in one piece unless it
  is interrupted.
* `writelines_interrupted`: a `pause_writing` that writes gets in between.
-/

namespace Zuvloop.Stream

open Reentrant

/-! ## Accepted bytes -/

/-- The bytes a transport accepted between two states. -/
def gained (t : ℕ) (s s' : State) : Bytes := (s'.tr t).accepted.drop (s.tr t).accepted.length

/-- The bytes accepted at one entry of a log. -/
def gain (t : ℕ) : Entry sig → Bytes
  | .set s s' | .yield _ s s' _ => gained t s s'

/-- The bytes the program accepted itself. -/
def own (t : ℕ) (log : Log sig) : Bytes :=
  log.flatMap fun
    | .set s s' => gained t s s'
    | .yield _ _ _ _ => []

/-- The bytes accepted while foreign code ran. -/
def others (t : ℕ) (log : Log sig) : Bytes :=
  log.flatMap fun
    | .set _ _ => []
    | .yield _ s s' _ => gained t s s'

/-- The buffers that items were buffers as. -/
def buffers (log : Log sig) : List Bytes :=
  log.filterMap fun
    | .yield .acquire _ _ r => if r.raised.isNone then some r.data else none
    | _ => none

/-- Nothing is accepted between the first and the last byte that the program accepted itself. -/
def Contiguous (t : ℕ) (log : Log sig) : Prop :=
  ∃ before middle after, log = before ++ middle ++ after ∧ own t before = [] ∧ own t after = [] ∧
    others t middle = []

/-- What a flush calls: flow control, and the handler for what that raises. -/
def Callback.flow (t : ℕ) (c : Callback) : Prop :=
  c = .protocol t .pauseWriting ∨ c = .protocol t .resumeWriting ∨ c = .exceptionHandler

/-- One of the changes stored a buffer that filled the batch. -/
def Fills (t : ℕ) (log : Log sig) : Prop :=
  ∃ s s', Entry.set s s' ∈ log ∧ (s.tr t).pending.length < (s'.tr t).pending.length ∧
    (s'.tr t).full = true

/-- Between two of its own bytes, and after it has filled the batch, the program runs Python code
for flow control, during which bytes are accepted. -/
def Interrupted (t : ℕ) (log : Log sig) : Prop :=
  ∃ before c s s' r after, log = before ++ Entry.yield c s s' r :: after ∧ own t before ≠ [] ∧
    own t after ≠ [] ∧ gained t s s' ≠ [] ∧ c.flow t ∧ Fills t before

variable {t : ℕ} {s s₁ s' : State}

theorem own_append (log₁ log₂ : Log sig) : own t (log₁ ++ log₂) = own t log₁ ++ own t log₂ :=
  List.flatMap_append

theorem others_append (log₁ log₂ : Log sig) :
    others t (log₁ ++ log₂) = others t log₁ ++ others t log₂ := List.flatMap_append

theorem buffers_append (log₁ log₂ : Log sig) :
    buffers (log₁ ++ log₂) = buffers log₁ ++ buffers log₂ := List.filterMap_append

theorem own_cons (e : Entry sig) (log : Log sig) : own t (e :: log) = own t [e] ++ own t log :=
  own_append [e] log

theorem own_yield (c : Callback) (r : Result) (log : Log sig) :
    own t (.yield c s s' r :: log) = own t log := rfl

theorem own_set (s s' : State) : own t [.set s s'] = gained t s s' := List.append_nil _

/-- An entry of two logs, one after the other, is one of the first or of the second. -/
theorem split_append {log₁ log₂ before after : Log sig} {e : Entry sig}
    (h : log₁ ++ log₂ = before ++ e :: after) :
    (∃ rest, log₁ = before ++ e :: rest ∧ after = rest ++ log₂) ∨
      ∃ rest, before = log₁ ++ rest ∧ log₂ = rest ++ e :: after := by
  rcases List.append_eq_append_iff.mp h with ⟨rest, hbefore, hlog₂⟩ | ⟨rest, hlog₁, hrest⟩
  · exact .inr ⟨rest, hbefore, hlog₂⟩
  · cases rest with
    | nil =>
      exact .inr ⟨[], (List.append_nil _ ▸ hlog₁).symm ▸ (List.append_nil _).symm, hrest.symm⟩
    | cons e' rest =>
      obtain ⟨rfl, hafter⟩ := List.cons.inj hrest
      exact .inl ⟨rest, hlog₁, hafter⟩

/-- A log falls into what comes before the first own byte, what comes after the last one, and a
middle that begins and ends with own bytes. -/
theorem exists_middle (t : ℕ) (log : Log sig) :
    ∃ before middle after, log = before ++ middle ++ after ∧ own t before = [] ∧
      own t after = [] ∧ ∀ left c s s' r right, middle = left ++ Entry.yield c s s' r :: right →
        own t left ≠ [] ∧ own t right ≠ [] := by
  have hleft : ∀ log : Log sig, ∃ before rest, log = before ++ rest ∧ own t before = [] ∧
      ∀ e r, rest = e :: r → own t [e] ≠ [] := by
    intro log
    induction log with
    | nil => exact ⟨[], [], rfl, rfl, fun e r heq => absurd heq.symm (List.cons_ne_nil e r)⟩
    | cons e log ih =>
      by_cases he : own t [e] = []
      · obtain ⟨before, rest, hlog, hown, hhead⟩ := ih
        exact ⟨e :: before, rest, congrArg (e :: ·) hlog, by rw [own_cons, he, hown]; rfl, hhead⟩
      · refine ⟨[], e :: log, rfl, rfl, fun e' r heq => ?_⟩
        obtain ⟨rfl, -⟩ := List.cons.inj heq
        exact he
  have hright : ∀ log : Log sig, ∃ rest after, log = rest ++ after ∧ own t after = [] ∧
      ∀ e r, rest = r ++ [e] → own t [e] ≠ [] := by
    intro log
    induction log using List.reverseRecOn with
    | nil => exact ⟨[], [], rfl, rfl, fun e r heq => absurd heq.symm (List.concat_ne_nil e r)⟩
    | append_singleton log e ih =>
      by_cases he : own t [e] = []
      · obtain ⟨rest, after, hlog, hown, hlast⟩ := ih
        refine ⟨rest, after ++ [e], ?_, ?_, hlast⟩
        · rw [hlog, List.append_assoc]
        · rw [own_append, hown, he]
          rfl
      · refine ⟨log ++ [e], [], (List.append_nil _).symm, rfl, fun e' r heq => ?_⟩
        obtain ⟨-, hlast⟩ := List.append_inj' heq rfl
        obtain rfl := List.singleton_inj.mp hlast
        exact he
  obtain ⟨before, rest, hlog, hbefore, hhead⟩ := hleft log
  obtain ⟨middle, after, hrest, hafter, hlast⟩ := hright rest
  refine ⟨before, middle, after, ?_, hbefore, hafter, fun left c s s' r right hmiddle => ⟨?_, ?_⟩⟩
  · rw [hlog, hrest, List.append_assoc]
  · cases left with
    | nil =>
      rw [hrest, hmiddle] at hhead
      exact absurd rfl (hhead _ _ rfl)
    | cons e left =>
      rw [hrest, hmiddle] at hhead
      rw [own_cons]
      exact List.append_ne_nil_of_left_ne_nil (hhead _ _ rfl) _
  · rcases List.eq_nil_or_concat right with rfl | ⟨right, e, rfl⟩
    · exact absurd rfl (hlast _ _ hmiddle)
    · rw [List.concat_eq_append, own_append]
      refine List.append_ne_nil_of_right_ne_nil _ (hlast e (left ++ .yield c s s' r :: right) ?_)
      rw [hmiddle, List.concat_eq_append, List.append_assoc, List.cons_append]

/-- Bytes that are accepted between two own bytes tear the own bytes apart. -/
theorem not_contiguous {before after : Log sig} {c : Callback} {r : Result}
    (hbefore : own t before ≠ []) (hafter : own t after ≠ []) (hgained : gained t s s' ≠ []) :
    ¬ Contiguous t (before ++ Entry.yield c s s' r :: after) := by
  rintro ⟨left, middle, right, hlog, hleft, hright, hmiddle⟩
  rw [List.append_assoc] at hlog
  -- the call is neither before nor after the own bytes
  rcases split_append hlog.symm with ⟨rest, rfl, -⟩ | ⟨rest, rfl, hrest⟩
  · rw [own_append] at hleft
    exact hbefore (List.append_eq_nil_iff.mp hleft).1
  rcases split_append hrest with ⟨rest', rfl, -⟩ | ⟨rest', -, rfl⟩
  · rw [others_append] at hmiddle
    exact hgained (List.append_eq_nil_iff.mp (List.append_eq_nil_iff.mp hmiddle).2).1
  · rw [own_append, own_yield] at hright
    exact hafter (List.append_eq_nil_iff.mp hright).2

/-- If foreign code between own bytes only ever runs for flow control, after the batch was filled,
the own bytes are contiguous exactly if the program is not interrupted. -/
theorem contiguous_iff {log : Log sig}
    (hinside : ∀ before c s s' r after, log = before ++ Entry.yield c s s' r :: after →
      own t before ≠ [] → own t after ≠ [] → c.flow t ∧ Fills t before) :
    Contiguous t log ↔ ¬ Interrupted t log := by
  constructor
  · rintro hcontiguous ⟨before, c, s, s', r, after, rfl, hbefore, hafter, hgained, -⟩
    exact not_contiguous hbefore hafter hgained hcontiguous
  · intro hnot
    obtain ⟨before, middle, after, hlog, hbefore, hafter, hown⟩ := exists_middle t log
    refine ⟨before, middle, after, hlog, hbefore, hafter, ?_⟩
    refine List.flatMap_eq_nil_iff.mpr fun e he => ?_
    cases e with
    | set => rfl
    | yield c s s' r =>
      obtain ⟨left, right, hmiddle⟩ := List.append_of_mem he
      obtain ⟨hleft, hright⟩ := hown left c s s' r right hmiddle
      by_contra hgained
      have hsplit : log = (before ++ left) ++ Entry.yield c s s' r :: (right ++ after) := by
        rw [hlog, hmiddle]
        simp only [List.append_assoc, List.cons_append]
      have hpre : own t (before ++ left) ≠ [] := by
        rw [own_append]
        exact List.append_ne_nil_of_right_ne_nil _ hleft
      have hpost : own t (right ++ after) ≠ [] := by
        rw [own_append]
        exact List.append_ne_nil_of_left_ne_nil hright _
      obtain ⟨hflow, hfills⟩ := hinside _ c s s' r _ hsplit hpre hpost
      exact hnot ⟨_, c, s, s', r, _, hsplit, hpre, hpost, hgained, hflow, hfills⟩

/-! ## What Python code does meanwhile -/

/-- What foreign code keeps of the state, inside a native call. -/
structure Meanwhile (t : ℕ) (s s' : State) : Prop where
  /-- A native call is in progress. -/
  depth : 0 < s'.depth
  /-- What has been accepted stays accepted. -/
  accepted : (s.tr t).accepted <+: (s'.tr t).accepted
  /-- `CLOSING` stays. -/
  closing : (s.tr t).closing = true → (s'.tr t).closing = true

/-- The bytes accepted stay accepted along steps. -/
theorem Steps.accepted {py : Bool} {s s' : State} (hr : Reachable s) (h : Steps py s s') (u : ℕ) :
    (s.tr u).accepted <+: (s'.tr u).accepted := by
  induction h with
  | refl => exact List.prefix_rfl
  | @tail s₁ s₂ hsteps hstep ih =>
    refine ih.trans ?_
    rcases hstep.transport u with h | ⟨a, -, -, -, h⟩ | ⟨b, -, h⟩ | ⟨hu, w, p, srv, h⟩
    · have heq : (s₂.tr u).accepted = (s₁.tr u).accepted := congrArg Transport.accepted h
      exact heq ▸ List.prefix_rfl
    · have heq : (s₂.tr u).accepted = (a.run (s₁.tr u)).accepted := congrArg Transport.accepted h
      exact heq ▸ a.accepted_run _
    · have heq : (s₂.tr u).accepted = (s₁.tr u).accepted := (congrArg Transport.accepted h :)
      exact heq ▸ List.prefix_rfl
    · rw [h, (hr.steps hsteps).global.blank u hu.ge]
      exact List.nil_prefix

theorem Meanwhile.of_rely {s s' : State} (hinv : Inv True s) (hrely : Rely s s')
    (hd : 0 < s.depth) : Meanwhile t s s' where
  depth := hrely.frame.depth ▸ hd
  accepted := (hrely.steps hd).accepted hinv.reach t
  closing := ((hrely.steps hd).calm hinv.reach t).closing

/-! ## Programs that accept nothing -/

/-- The acts that accept no bytes. -/
def Act.bare : Act → Bool
  | .store _ => false
  | .took fresh _ | .submit fresh _ _ _ => fresh.isEmpty
  | _ => true

theorem Act.accepted_of_bare {a : Act} (ha : a.bare = true) (tr : Transport) :
    (a.run tr).accepted = tr.accepted := by
  cases a with
  | store => cases ha
  | took fresh | submit fresh =>
    obtain rfl := List.isEmpty_iff.mp ha
    exact List.append_nil _
  | pauseWriting | resumeWriting => rw [Act.run, Transport.recordCall_eq]
  | setClosing =>
    rw [Act.run]
    split <;> rfl
  | _ => rfl

/-- Nothing clears `CLOSING`. -/
theorem Act.closing_of_closing (a : Act) {tr : Transport} (h : tr.closing = true) :
    (a.run tr).closing = true := by
  cases a with
  | pauseWriting | resumeWriting =>
    rw [Act.run, Transport.recordCall_eq]
    exact h
  | setClosing =>
    rw [Act.run, if_pos h]
    exact h
  | _ => exact h

/-- A run that accepts nothing itself. -/
structure Bare (t : ℕ) (s s' : State) (log : Log sig) : Prop where
  /-- What Python code keeps is kept. -/
  kept : Meanwhile t s s'
  /-- The log accounts for what was accepted. -/
  gained : (s'.tr t).accepted = (s.tr t).accepted ++ log.flatMap (gain t)
  /-- The run accepted nothing itself. -/
  own : own t log = []

namespace Bare

variable {log log₁ log₂ : Log sig}

theorem refl (hd : 0 < s.depth) : Bare t s s [] :=
  ⟨⟨hd, List.prefix_rfl, id⟩, (List.append_nil _).symm, rfl⟩

theorem trans (h₁ : Bare t s s₁ log₁) (h₂ : Bare t s₁ s' log₂) : Bare t s s' (log₁ ++ log₂) where
  kept := ⟨h₂.kept.depth, h₁.kept.accepted.trans h₂.kept.accepted,
    h₂.kept.closing ∘ h₁.kept.closing⟩
  gained := by rw [h₂.gained, h₁.gained, List.flatMap_append, List.append_assoc]
  own := by
    rw [own_append, h₁.own, h₂.own]
    rfl

/-- A change that accepts nothing. -/
theorem set (hd : 0 < s'.depth) (haccepted : (s'.tr t).accepted = (s.tr t).accepted)
    (hclosing : (s.tr t).closing = true → (s'.tr t).closing = true) :
    Bare t s s' [.set s s'] := by
  have hgained : Stream.gained t s s' = [] := by
    rw [Stream.gained, haccepted, List.drop_length]
  refine ⟨⟨hd, haccepted ▸ List.prefix_rfl, hclosing⟩, ?_, ?_⟩
  · rw [List.flatMap_singleton, gain, hgained, haccepted, List.append_nil]
  · rw [own_set, hgained]

/-- Python code runs. -/
theorem yield (hkept : Meanwhile t s s') (c : Callback) (r : Result) :
    Bare t s s' [.yield c s s' r] where
  kept := hkept
  gained := by
    obtain ⟨rest, hrest⟩ := hkept.accepted
    rw [List.flatMap_singleton, gain, Stream.gained, ← hrest, List.drop_left]
  own := rfl

end Bare

/-- A run of a flush, which accepts nothing itself. Unless it closes the transport, it runs Python
code only for flow control. -/
structure Inert (t : ℕ) (s s' : State) (log : Log sig) : Prop extends Bare t s s' log where
  /-- No item was exported. -/
  buffers : buffers log = []
  /-- Python code runs only for flow control. -/
  flow : (s'.tr t).closing = false → ∀ c s₁ s₂ r, Entry.yield c s₁ s₂ r ∈ log → c.flow t

namespace Inert

variable {log log₁ log₂ : Log sig}

theorem refl (hd : 0 < s.depth) : Inert t s s [] :=
  ⟨.refl hd, rfl, fun _ _ _ _ _ hmem => absurd hmem List.not_mem_nil⟩

theorem trans (h₁ : Inert t s s₁ log₁) (h₂ : Inert t s₁ s' log₂) :
    Inert t s s' (log₁ ++ log₂) where
  toBare := h₁.toBare.trans h₂.toBare
  buffers := by
    rw [buffers_append, h₁.buffers, h₂.buffers]
    rfl
  flow := fun hopen c s₁' s₂' r hmem => by
    rcases List.mem_append.mp hmem with hmem | hmem
    · refine h₁.flow ?_ c s₁' s₂' r hmem
      rw [← Bool.not_eq_true]
      exact fun hclosing => Bool.false_ne_true (hopen.symm.trans (h₂.kept.closing hclosing))
    · exact h₂.flow hopen c s₁' s₂' r hmem

/-- A change that accepts nothing. -/
theorem set (h : Bare t s s' [.set s s']) : Inert t s s' [.set s s'] where
  toBare := h
  buffers := rfl
  flow := fun _ c s₁ s₂ r hmem => by cases List.mem_singleton.mp hmem

/-- Python code runs, for flow control or after the transport began to close. -/
theorem yield (hkept : Meanwhile t s s') {c : Callback} (hc : c ≠ .acquire)
    (hflow : c.flow t ∨ (s.tr t).closing = true) (r : Result) :
    Inert t s s' [.yield c s s' r] where
  toBare := .yield hkept c r
  buffers := by
    cases c with
    | acquire => exact absurd rfl hc
    | _ => rfl
  flow := fun hopen c' s₁ s₂ r' hmem => by
    cases List.mem_singleton.mp hmem
    refine hflow.resolve_right fun hclosing => ?_
    exact Bool.false_ne_true (hopen.symm.trans (hkept.closing hclosing))

end Inert

section Programs

variable {R : Callback → State → State → Prop}
  (hR : ∀ c s s', R c s s' → 0 < s.depth → Meanwhile t s s')

/-- What the runs of `makeRoom` are assumed to do. -/
def contract (t : ℕ) : Proc → State → State → Log sig → Prop
  | .makeRoom u, s, s', log => u = t → 0 < s.depth → Inert t s s' log

/-- What holds of the log of every run of a program. -/
abbrev Logs (t : ℕ) (R : Callback → State → State → Prop) {α : Type} (p : P α)
    (Q : α → State → Log sig → Prop) (s : State) : Prop := p.logs (env True) R (contract t) Q s

/-- The runs of a program accept nothing, from states inside a native call; if `closed`, from those
where the transport is closing. -/
def Harmless (t : ℕ) (R : Callback → State → State → Prop) (closed : Prop) {α : Type} (p : P α) :
    Prop :=
  ∀ s, 0 < s.depth → (closed → (s.tr t).closing = true) →
    Logs t R p (fun _ s' log => Inert t s s' log) s

variable {closed : Prop} {α β : Type}

@[simp]
theorem logs_getState (Q : State → State → Log sig → Prop) :
    Logs t R getState Q s ↔ Q s s [] := Iff.rfl

@[simp]
theorem logs_self (u : ℕ) (Q : Transport → State → Log sig → Prop) :
    Logs t R (self u) Q s ↔ Q (s.tr u) s [] := Iff.rfl

@[simp]
theorem logs_update (f : State → State) (Q : Unit → State → Log sig → Prop) :
    Logs t R (update f) Q s ↔ Q () (f s) [.set s (f s)] := Iff.rfl

@[simp]
theorem logs_act (u : ℕ) (a : Act) (Q : Unit → State → Log sig → Prop) :
    Logs t R (act u a) Q s ↔ Q () (s.act u a) [.set s (s.act u a)] := Iff.rfl

@[simp]
theorem logs_request (q : Request) (Q : Answer → State → Log sig → Prop) :
    Logs t R (request q) Q s ↔ ∀ a, Answers True s q a → Q a s [] := Iff.rfl

@[simp]
theorem logs_alloc (Q : Bool → State → Log sig → Prop) :
    Logs t R alloc Q s ↔ ∀ ok, Q ok s [] :=
  ⟨fun h ok => h ⟨ok, 0, 0⟩ fun _ => trivial, fun h a _ => h a.ok⟩

@[simp]
theorem logs_foreign (c : Callback) (Q : Result → State → Log sig → Prop) :
    Logs t R (foreign c) Q s ↔ ∀ s₁, R c s s₁ → ∀ r, Q r s₁ [.yield c s s₁ r] :=
  ⟨fun h s₁ hs r => h s₁ hs r trivial, fun h s₁ hs r _ => h s₁ hs r⟩

/-- `makeRoom` does what it is assumed to do. -/
theorem logs_makeRoom {Q : Unit → State → Log sig → Prop} (hd : 0 < s.depth)
    (hQ : ∀ s₁ log, Inert t s s₁ log → Q () s₁ log) :
    Logs t R (Prog.invoke (S := sig) (.makeRoom t)) Q s := fun s₁ log hcontract => by
  change Q () s₁ (log ++ [])
  rw [List.append_nil]
  exact hQ s₁ log (hcontract rfl hd)

namespace Harmless

theorem bind {p : P α} {f : α → P β} (hp : Harmless t R closed p)
    (hf : ∀ a, Harmless t R closed (f a)) : Harmless t R closed (p >>= f) := by
  intro s hd hclosed
  refine (Prog.logs_bind _ _ _ _).mpr (Prog.logs_mono (hp s hd hclosed) fun a s₁ log₁ h₁ => ?_)
  refine Prog.logs_mono (hf a s₁ h₁.kept.depth (h₁.kept.closing ∘ hclosed)) fun _ s₂ log₂ h₂ => ?_
  exact h₁.trans h₂

theorem ite {c : Prop} [Decidable c] {p q : P α} (hp : Harmless t R closed p)
    (hq : Harmless t R closed q) : Harmless t R closed (if c then p else q) := by
  split
  · exact hp
  · exact hq

theorem pure (a : α) : Harmless t R closed (Pure.pure a : P α) := fun _ hd _ => .refl hd

theorem self (u : ℕ) : Harmless t R closed (Stream.self u) := fun _ hd _ => .refl hd

theorem getState : Harmless t R closed Stream.getState := fun _ hd _ => .refl hd

theorem request (q : Request) : Harmless t R closed (Stream.request q) :=
  fun _ hd _ _ _ => .refl hd

theorem alloc : Harmless t R closed Stream.alloc := fun _ hd _ _ _ => .refl hd

theorem act {a : Act} (ha : a.bare = true) : Harmless t R closed (Stream.act t a) := by
  intro s hd _
  refine Inert.set (.set hd ?_ fun h => ?_)
  · rw [State.tr_act_self, Act.accepted_of_bare ha]
  · rw [State.tr_act_self]
    exact a.closing_of_closing h

theorem map {p : P α} (hp : Harmless t R closed p) (f : α → β) : Harmless t R closed (f <$> p) :=
  fun s hd hclosed => (Prog.logs_map _ _ _ _).mpr (hp s hd hclosed)

/-- An entry of the flush list. -/
theorem queueFlush : Harmless t R closed (Stream.update fun s => s.queueFlush t) := by
  intro s hd _
  have htr : (s.queueFlush t).tr t = (s.tr t).setFlushQueued true := Function.update_self ..
  refine Inert.set (.set hd ?_ fun h => ?_)
  · rw [htr]
    rfl
  · rw [htr]
    exact h

section Foreign

include hR

/-- Python code that runs for flow control, or once the transport closes. -/
theorem foreign {c : Callback} (hc : c ≠ .acquire) (hflow : c.flow t ∨ closed) :
    Harmless t R closed (Stream.foreign c) :=
  fun s hd hclosed => (logs_foreign _ _).mpr fun _ hs r =>
    .yield (hR c s _ hs hd) hc (hflow.imp_right hclosed) r

theorem python {c : Callback} (hc : c ≠ .acquire) (hflow : c.flow t ∨ closed) :
    Harmless t R closed (Stream.python c) := (foreign hR hc hflow).map _

theorem shutdownAndClose : Harmless t R True (shutdownAndClose t) := by
  have huv : Harmless t R True (update fun s => s.uvClose t) := by
    intro s hd _
    have htr : (s.uvClose t).tr t = Act.uvClose.run (s.tr t) := Function.update_self ..
    exact Inert.set (.set hd (htr ▸ rfl) (htr ▸ id))
  have hclose : Harmless t R True (closeExternalHandle t) :=
    .bind (.self t) fun _ => .ite huv (.pure ())
  have hrelease : Harmless t R True (releaseSocketView t) :=
    .bind (.self t) fun _ => .ite (.bind (.act rfl) fun _ => python hR nofun (.inr trivial))
      (.pure ())
  have hrest := hrelease.bind fun _ => hclose
  exact .bind (.self t) fun _ => .ite (.bind (.act rfl) fun _ =>
    .ite (.bind (.act rfl) fun _ => hrest) hrest) (.pure ())

/-- What `forceClose` does once the transport is closing. -/
theorem afterClosing : Harmless t R True (do
    Stream.act t .clearWriteBufferSize
    let tr ← Stream.self t
    if tr.allocatingReadBuffer then Stream.act t .setReadStatePending
    else Stream.shutdownAndClose t) :=
  .bind (.act rfl) fun _ => .bind (.self t) fun _ => .ite (.act rfl) (shutdownAndClose hR)

/-- A transport that is closed by force runs Python code once it is closing. -/
theorem forceClose (cause : Cause) (exc : Option Exc) :
    Harmless t R False (forceClose t cause exc) := by
  have hrest := afterClosing (R := R) hR
  refine .bind (.act rfl) fun _ => .bind (.act rfl) fun _ => .bind (.act rfl) fun _ => ?_
  have hset : Harmless t R False (Stream.act t .setClosing) := .act rfl
  intro s hd hopen
  refine (Prog.logs_bind _ _ _ _).mpr ((logs_act _ _ _).mpr ?_)
  refine Prog.logs_mono (hrest _ hd fun _ => ?_) fun _ s' log h => (hset s hd hopen).trans h
  rw [State.tr_act_self, Act.run]
  split
  · assumption
  · rfl

theorem callProtocol {m : Method} (hflow : (Callback.protocol t m).flow t) :
    Harmless t R closed (callProtocol t m) :=
  .bind (.self t) fun _ => .ite (.bind (.foreign hR nofun (.inl hflow)) fun _ =>
    .ite (.python hR nofun (.inl (.inr (.inr rfl)))) (.pure ())) (.pure ())

theorem maybePauseProtocol : Harmless t R closed (maybePauseProtocol t) :=
  .bind (.self t) fun _ => .ite (.pure ()) (.ite (.pure ())
    (.bind (.act rfl) fun _ => callProtocol hR (.inl rfl)))

theorem maybeResumeProtocol : Harmless t R closed (maybeResumeProtocol t) :=
  .bind (.self t) fun _ => .ite (.pure ()) (.ite (.pure ()) (.ite (.pure ())
    (.bind (.act rfl) fun _ => callProtocol hR (.inr (.inl rfl)))))

theorem queueWrite (bufs : List Bytes) (views : List ℕ) :
    Harmless t R closed (queueWrite t [] bufs views) := by
  refine .ite (.bind (.act rfl) fun _ => .pure _) (.bind .alloc fun _ => .ite
    (.bind (.act rfl) fun _ => .pure _) (.bind (.request _) fun _ => .ite
      (.bind (.act rfl) fun _ => .pure _) ?_))
  exact .bind (.act rfl) fun _ => .bind (maybePauseProtocol hR) fun _ => .pure _

omit hR in
theorem acceptsWrite (views : List ℕ) : Harmless t R closed (acceptsWrite t views) := by
  have hrefuse : ∀ r : Except Exc Bool, Harmless t R closed
      (Stream.act t (.releaseViews views) >>= fun _ => Pure.pure r) :=
    fun r => .bind (.act rfl) fun _ => .pure r
  exact .bind (.self t) fun _ => .ite (hrefuse _) (.ite (hrefuse _) (.pure _))

theorem queueRest (origin : Origin) (bufs : List Bytes) (views : List ℕ) :
    Harmless t R closed (queueRest t origin bufs views) := by
  refine .bind (queueWrite hR _ _) fun r => ?_
  match r with
  | .ok () => exact .pure _
  | .error _ => exact .ite (.bind (.act rfl) fun _ => .pure _) (.pure _)

theorem writeBufs (bufs : List Bytes) (views : List ℕ) :
    Harmless t R False (writeBufs t .batch bufs views) := by
  refine .bind (acceptsWrite views) fun r => ?_
  match r with
  | .error _ => exact .pure _
  | .ok false => exact .pure _
  | .ok true =>
    refine .bind (.self t) fun _ => .ite (.bind (.request _) fun _ => .ite (.bind (.act rfl)
      fun _ => .ite (.bind (.act rfl) fun _ => .pure _) (queueRest hR _ _ _))
      (.ite ?_ (queueWrite hR _ _))) (queueWrite hR _ _)
    exact .bind (.act rfl) fun _ => .bind (forceClose hR _ _) fun _ => .pure _

theorem flushPending : Harmless t R False (flushPending t) := by
  refine .bind (.self t) fun tr => .ite (.pure ()) (.bind (.act rfl) fun _ =>
    .bind (writeBufs hR _ _) fun r => ?_)
  match r with
  | .error _ => exact forceClose hR _ _
  | .ok () => exact maybeResumeProtocol hR

omit hR in
theorem makeRoom : Harmless t R False (Prog.invoke (S := sig) (.makeRoom t)) :=
  fun _ hd _ => logs_makeRoom hd fun _ _ h => h

theorem makeRoomBody : Harmless t R False (makeRoomBody t) :=
  .bind (flushPending hR) fun _ => .bind (.self t) fun _ => .ite (.pure ())
    (.ite makeRoom (.pure ()))

omit hR in
theorem scheduleFlush : Harmless t R False (scheduleFlush t) :=
  .bind .getState fun _ => .ite (.act rfl) (.ite queueFlush (.pure ()))

end Foreign

end Harmless

/-! ## Storing buffers -/

/-- A run that accepts what it is given, from the front. Python code that runs before the last byte
is accepted runs for flow control, after the batch was filled or because it was full before. -/
structure Stored (t : ℕ) (data : Bytes) (s s' : State) (log : Log sig) : Prop where
  /-- What Python code keeps is kept. -/
  kept : Meanwhile t s s'
  /-- The log accounts for what was accepted. -/
  gained : (s'.tr t).accepted = (s.tr t).accepted ++ log.flatMap (gain t)
  /-- The run accepts what it is given. -/
  own : own t log <+: data
  /-- No item was exported. -/
  buffers : buffers log = []
  /-- Python code that runs in between. -/
  inside : ∀ before c s₁ s₂ r after, log = before ++ Entry.yield c s₁ s₂ r :: after →
    Stream.own t after ≠ [] →
      c.flow t ∧ (Fills t before ∨ Stream.own t before = [] ∧ (s.tr t).full = true)

theorem Fills.mono {log log' : Log sig} (h : Fills t log) (hsub : log ⊆ log') : Fills t log' := by
  obtain ⟨s₁, s₂, hmem, hfill⟩ := h
  exact ⟨s₁, s₂, hsub hmem, hfill⟩

namespace Stored

variable {data : Bytes} {log log₁ log₂ : Log sig}

/-- A run that accepts nothing. -/
theorem of_inert (h : Inert t s s' log) : Stored t data s s' log where
  kept := h.kept
  gained := h.gained
  own := h.own ▸ List.nil_prefix
  buffers := h.buffers
  inside := fun before c s₁ s₂ r after hlog hafter => by
    have hown := h.own
    rw [hlog, own_append, own_yield] at hown
    exact absurd (List.append_eq_nil_iff.mp hown).2 hafter

/-- Afterwards a run accepts nothing more. -/
theorem then_inert (h₁ : Stored t data s s₁ log₁) (h₂ : Inert t s₁ s' log₂) :
    Stored t data s s' (log₁ ++ log₂) where
  kept := ⟨h₂.kept.depth, h₁.kept.accepted.trans h₂.kept.accepted,
    h₂.kept.closing ∘ h₁.kept.closing⟩
  gained := by rw [h₂.gained, h₁.gained, List.flatMap_append, List.append_assoc]
  own := by
    rw [own_append, h₂.own, List.append_nil]
    exact h₁.own
  buffers := by
    rw [buffers_append, h₁.buffers, h₂.buffers]
    rfl
  inside := fun before c s₁' s₂' r after hlog hafter => by
    rcases split_append hlog with ⟨rest, hlog₁, rfl⟩ | ⟨rest, -, hlog₂⟩
    · rw [own_append, h₂.own, List.append_nil] at hafter
      exact h₁.inside before c s₁' s₂' r rest hlog₁ hafter
    · have hown := h₂.own
      rw [hlog₂, own_append, own_yield] at hown
      exact absurd (List.append_eq_nil_iff.mp hown).2 hafter

/-- The whole of it is accepted at once. -/
theorem at_once {a : Act} (ha : (a.run (s.tr t)).accepted = (s.tr t).accepted ++ data)
    (h : Inert t (s.act t a) s' log) : Stored t data s s' (.set s (s.act t a) :: log) where
  kept := by
    refine ⟨h.kept.depth, List.IsPrefix.trans ?_ h.kept.accepted, fun hc => h.kept.closing ?_⟩
    · rw [State.tr_act_self, ha]
      exact List.prefix_append _ _
    · rw [State.tr_act_self]
      exact a.closing_of_closing hc
  gained := by
    rw [h.gained, State.tr_act_self, ha, List.flatMap_cons, gain, Stream.gained, State.tr_act_self,
      ha, List.drop_left, List.append_assoc]
  own := by
    have hown : Stream.own t (.set s (s.act t a) :: log) = data := by
      rw [own_cons, own_set, Stream.gained, State.tr_act_self, ha, List.drop_left, h.own,
        List.append_nil]
    exact hown ▸ List.prefix_rfl
  buffers := h.buffers
  inside := fun before c s₁ s₂ r after hlog hafter => by
    rcases List.cons_eq_append_iff.mp hlog with ⟨rfl, heq⟩ | ⟨before, rfl, heq⟩
    · cases (List.cons.inj heq).1
    · have hown := h.own
      rw [heq, own_append, own_yield] at hown
      exact absurd (List.append_eq_nil_iff.mp hown).2 hafter

/-- A buffer is stored, and then the others. -/
theorem store {b : Buf} (h : Stored t data (s.act t (.store b)) s' log) :
    Stored t (b.data ++ data) s s' (.set s (s.act t (.store b)) :: log) where
  kept := by
    refine ⟨h.kept.depth, List.IsPrefix.trans ?_ h.kept.accepted, fun hc => h.kept.closing ?_⟩
    · rw [State.tr_act_self]
      exact List.prefix_append _ _
    · rw [State.tr_act_self]
      exact hc
  gained := by
    have hrun : ((Act.store b).run (s.tr t)).accepted = (s.tr t).accepted ++ b.data := rfl
    rw [h.gained, State.tr_act_self, hrun, List.flatMap_cons, gain, Stream.gained,
      State.tr_act_self, hrun, List.drop_left, List.append_assoc]
  own := by
    have hrun : ((Act.store b).run (s.tr t)).accepted = (s.tr t).accepted ++ b.data := rfl
    rw [own_cons, own_set, Stream.gained, State.tr_act_self, hrun, List.drop_left]
    exact (List.prefix_append_right_inj _).mpr h.own
  buffers := h.buffers
  inside := fun before c s₁ s₂ r after hlog hafter => by
    rcases List.cons_eq_append_iff.mp hlog with ⟨rfl, heq⟩ | ⟨before, rfl, heq⟩
    · cases (List.cons.inj heq).1
    obtain ⟨hflow, hfills⟩ := h.inside before c s₁ s₂ r after heq hafter
    refine ⟨hflow, .inl ?_⟩
    rcases hfills with hfills | ⟨-, hfull⟩
    · exact hfills.mono (List.subset_cons_self _ _)
    · -- the batch is full since this buffer was stored
      refine ⟨s, s.act t (.store b), List.mem_cons_self, ?_, hfull⟩
      rw [State.tr_act_self]
      change _ < ((s.tr t).pending ++ [b]).length
      rw [List.length_append]
      exact Nat.lt_succ_self _

/-- Room is made in a full batch first. -/
theorem after_room (h₁ : Inert t s s₁ log₁) (hfull : (s.tr t).full = true)
    (hopen : (s₁.tr t).closing = false) (h₂ : Stored t data s₁ s' log₂) :
    Stored t data s s' (log₁ ++ log₂) where
  kept := ⟨h₂.kept.depth, h₁.kept.accepted.trans h₂.kept.accepted,
    h₂.kept.closing ∘ h₁.kept.closing⟩
  gained := by rw [h₂.gained, h₁.gained, List.flatMap_append, List.append_assoc]
  own := by
    rw [own_append, h₁.own]
    exact h₂.own
  buffers := by
    rw [buffers_append, h₁.buffers, h₂.buffers]
    rfl
  inside := fun before c s₁' s₂' r after hlog hafter => by
    rcases split_append hlog with ⟨rest, hlog₁, -⟩ | ⟨rest, rfl, hlog₂⟩
    · have hown := h₁.own
      rw [hlog₁, own_append] at hown
      refine ⟨h₁.flow hopen c s₁' s₂' r ?_, .inr ⟨(List.append_eq_nil_iff.mp hown).1, hfull⟩⟩
      rw [hlog₁]
      exact List.mem_append_right _ List.mem_cons_self
    · obtain ⟨hflow, hfills⟩ := h₂.inside rest c s₁' s₂' r after hlog₂ hafter
      refine ⟨hflow, hfills.imp (·.mono (List.subset_append_right _ _)) fun hown => ⟨?_, hfull⟩⟩
      rw [own_append, h₁.own, hown.1]
      rfl

end Stored

/-- Buffers are stored one after the other, with room made whenever the batch is full. -/
theorem logs_appendPending (bufs : List Buf) (hd : 0 < s.depth) :
    Logs t R (appendPending t bufs)
      (fun _ s' log => Stored t (bufs.map Buf.data).flatten s s' log) s := by
  induction bufs generalizing s with
  | nil => exact Prog.logs_mono (Harmless.scheduleFlush s hd nofun) fun _ _ _ h => .of_inert h
  | cons b rest ih =>
    have hstore : ∀ s : State, 0 < s.depth →
        Logs t R (act t (.store b) >>= fun _ => appendPending t rest)
          (fun _ s' log => Stored t ((b :: rest).map Buf.data).flatten s s' log) s := by
      intro s hd
      refine (Prog.logs_bind _ _ _ _).mpr ((logs_act _ _ _).mpr ?_)
      exact Prog.logs_mono (ih (s := s.act t (.store b)) hd) fun _ s' log h => h.store
    rw [appendPending]
    refine (Prog.logs_bind _ _ _ _).mpr ((logs_self _ _).mpr ?_)
    refine (Prog.logs_ite _ _ _ _ _).mpr ?_
    split
    swap
    · exact hstore s hd
    rename_i hfull
    refine (Prog.logs_bind _ _ _ _).mpr (logs_makeRoom hd fun s₁ log₁ hroom => ?_)
    refine (Prog.logs_bind _ _ _ _).mpr ((logs_self _ _).mpr ?_)
    refine (Prog.logs_ite _ _ _ _ _).mpr ?_
    split
    · have hrelease : Harmless t R False (act t (.releaseViews ((b :: rest).map Buf.view))) :=
        .act rfl
      exact Prog.logs_mono (hrelease s₁ hroom.kept.depth nofun) fun _ s' log h =>
        .of_inert (hroom.trans h)
    · rename_i hgoes
      have hopen : (s₁.tr t).closing = false := by
        simp only [Transport.givesUp, Bool.or_eq_true, not_or, Bool.not_eq_true] at hgoes
        exact hgoes.1.2
      refine Prog.logs_mono (hstore s₁ hroom.kept.depth) fun _ s' log h => ?_
      exact (Stored.after_room hroom hfull hopen h :)

section Storing

include hR

/-- A vector that goes straight to libuv is accepted at once, or not at all. -/
theorem logs_queueWrite (fresh : Bytes) (bufs : List Bytes) (views : List ℕ) (hd : 0 < s.depth) :
    Logs t R (queueWrite t fresh bufs views) (fun _ s' log => Stored t fresh s s' log) s := by
  have hrelease : ∀ r : Except Exc Unit, Logs t R
      (act t (.releaseViews views) >>= fun _ => pure r)
      (fun _ s' log => Stored t fresh s s' log) s := fun r => by
    have hact : Harmless t R False (act t (.releaseViews views) >>= fun _ => pure r) :=
      .bind (.act rfl) fun _ => .pure r
    exact Prog.logs_mono (hact s hd nofun) fun _ _ _ h => .of_inert h
  rw [queueWrite]
  refine (Prog.logs_ite _ _ _ _ _).mpr ?_
  split
  · exact hrelease _
  refine (Prog.logs_bind _ _ _ _).mpr ((logs_alloc _).mpr fun ok =>
    (Prog.logs_ite _ _ _ _ _).mpr ?_)
  split
  · exact hrelease _
  refine (Prog.logs_bind _ _ _ _).mpr ((logs_request _ _).mpr fun a _ =>
    (Prog.logs_ite _ _ _ _ _).mpr ?_)
  split
  · exact hrelease _
  refine (Prog.logs_bind _ _ _ _).mpr ((logs_act _ _ _).mpr ?_)
  have hpause : Harmless t R False
      (maybePauseProtocol t >>= fun _ => pure (.ok () : Except Exc Unit)) :=
    .bind (.maybePauseProtocol hR) fun _ => .pure _
  exact Prog.logs_mono (hpause (s.act t (.submit fresh bufs views a.size)) hd nofun)
    fun _ s' log h => .at_once rfl h

omit hR in
theorem logs_acceptsWrite (views : List ℕ) {Q : Except Exc Bool → State → Log sig → Prop}
    (hd : 0 < s.depth)
    (hno : ∀ r s₁ log, r ≠ .ok true → Inert t s s₁ log → Q r s₁ log) (hyes : Q (.ok true) s []) :
    Logs t R (acceptsWrite t views) Q s := by
  have hset : Inert t s (s.act t (.releaseViews views))
      [.set s (s.act t (.releaseViews views))] := by
    have hact : Harmless t R False (act t (.releaseViews views)) := .act rfl
    exact hact s hd (by simp)
  rw [acceptsWrite]
  refine (Prog.logs_bind _ _ _ _).mpr ((logs_self _ _).mpr ((Prog.logs_ite _ _ _ _ _).mpr ?_))
  split
  · exact hno _ _ _ (by simp) hset
  refine (Prog.logs_ite _ _ _ _ _).mpr ?_
  split
  · exact hno _ _ _ (by simp) hset
  · exact hyes

/-- A vector is accepted at once, or not at all, if it does not go through the batch. -/
theorem logs_writeBufs (bufs : List Bytes) (views : List ℕ) (hd : 0 < s.depth) :
    Logs t R (writeBufs t .direct bufs views)
      (fun _ s' log => Stored t bufs.flatten s s' log) s := by
  refine (Prog.logs_bind _ _ _ _).mpr (logs_acceptsWrite views hd (fun r s₁ log hr h => ?_) ?_)
  · rcases r with exc | _ | _
    · exact .of_inert (h.trans (.refl h.kept.depth))
    · exact .of_inert (h.trans (.refl h.kept.depth))
    · exact absurd rfl hr
  have hqueue := logs_queueWrite hR (s := s) bufs.flatten bufs views hd
  refine (Prog.logs_bind _ _ _ _).mpr ((logs_self _ _).mpr ((Prog.logs_ite _ _ _ _ _).mpr ?_))
  split
  swap
  · exact hqueue
  refine (Prog.logs_bind _ _ _ _).mpr ((logs_request _ _).mpr fun a _ =>
    (Prog.logs_ite _ _ _ _ _).mpr ?_)
  split
  · -- the socket takes something, and the whole vector is accepted
    have hrest : Harmless t R False (if advance a.status.toNat bufs = [] then
          act t (.releaseViews views) >>= fun _ => pure (.ok ())
        else queueRest t .direct (advance a.status.toNat bufs) views) :=
      .ite (.bind (.act rfl) fun _ => .pure _) (.queueRest hR _ _ _)
    refine (Prog.logs_bind _ _ _ _).mpr ((logs_act _ _ _).mpr ?_)
    exact Prog.logs_mono (hrest (s.act t (.took bufs.flatten (bufs.flatten.take a.status.toNat))) hd
      nofun) fun _ s' log h => .at_once rfl h
  refine (Prog.logs_ite _ _ _ _ _).mpr ?_
  split
  · have hforce : Harmless t R False (act t (.releaseViews views) >>= fun _ =>
        forceClose t .peer (some (.osError a.status)) >>= fun _ =>
          pure (.ok () : Except Exc Unit)) :=
      .bind (.act rfl) fun _ => .bind (.forceClose hR _ _) fun _ => .pure _
    exact Prog.logs_mono (hforce s hd nofun) fun _ _ _ h => .of_inert h
  · exact hqueue

/-- `submitWrite` accepts the buffers in order. -/
theorem logs_submitWrite (bufs : List Buf) (hd : 0 < s.depth) :
    Logs t R (submitWrite t bufs)
      (fun _ s' log => Stored t (bufs.map Buf.data).flatten s s' log) s := by
  refine (Prog.logs_bind _ _ _ _).mpr ((logs_self _ _).mpr ((Prog.logs_ite _ _ _ _ _).mpr ?_))
  split
  · refine (Prog.logs_bind _ _ _ _).mpr
      (Prog.logs_mono (logs_writeBufs hR _ _ hd) fun r s₁ log₁ h => ?_)
    match r with
    | .error _ => exact h.then_inert (.refl h.kept.depth)
    | .ok () =>
      have hresume : Harmless t R False
          (maybeResumeProtocol t >>= fun _ => pure (.ok () : Except Exc Unit)) :=
        .bind (.maybeResumeProtocol hR) fun _ => .pure _
      exact Prog.logs_mono (hresume s₁ h.kept.depth nofun) fun _ _ _ h₂ => h.then_inert h₂
  refine (Prog.logs_bind _ _ _ _).mpr (logs_acceptsWrite _ hd (fun r s₁ log hr h => ?_) ?_)
  · rcases r with exc | _ | _
    · exact .of_inert (h.trans (.refl h.kept.depth))
    · exact .of_inert (h.trans (.refl h.kept.depth))
    · exact absurd rfl hr
  refine (Prog.logs_bind _ _ _ _).mpr
    (Prog.logs_mono (logs_appendPending bufs hd) fun _ s₁ log₁ h => ?_)
  have hflush : Harmless t R False (do
      let s ← getState
      if !s.running then flushPending t
      return (.ok () : Except Exc Unit)) :=
    .bind .getState fun _ => .ite (.bind (.flushPending hR) fun _ => .pure _) (.pure _)
  exact Prog.logs_mono (hflush s₁ h.kept.depth nofun) fun _ _ _ h₂ => h.then_inert h₂

end Storing

/-! ## The whole of `writelines` -/

/-- A run of `writelines`. Python code that runs between the first and the last byte it accepts runs
for flow control, after the batch was filled. -/
structure Written (t : ℕ) (s s' : State) (log : Log sig) : Prop where
  /-- The log accounts for what was accepted. -/
  gained : (s'.tr t).accepted = (s.tr t).accepted ++ log.flatMap (gain t)
  /-- The run accepts the buffers in order. -/
  own : own t log <+: (buffers log).flatten
  /-- Python code that runs in between. -/
  inside : ∀ before c s₁ s₂ r after, log = before ++ Entry.yield c s₁ s₂ r :: after →
    Stream.own t before ≠ [] → Stream.own t after ≠ [] → c.flow t ∧ Fills t before

namespace Written

variable {log log₁ log₂ : Log sig}

theorem of_bare (h : Bare t s s' log) : Written t s s' log where
  gained := h.gained
  own := h.own ▸ List.nil_prefix
  inside := fun before c s₁ s₂ r after hlog _ hafter => by
    have hown := h.own
    rw [hlog, own_append, own_yield] at hown
    exact absurd (List.append_eq_nil_iff.mp hown).2 hafter

/-- The items are exported, and then the buffers are stored. -/
theorem of_stored (h₁ : Bare t s s₁ log₁)
    (h₂ : Stored t (Stream.buffers log₁).flatten s₁ s' log₂) : Written t s s' (log₁ ++ log₂) where
  gained := by rw [h₂.gained, h₁.gained, List.flatMap_append, List.append_assoc]
  own := by
    rw [own_append, h₁.own, buffers_append, h₂.buffers, List.append_nil]
    exact h₂.own
  inside := fun before c s₁' s₂' r after hlog hbefore hafter => by
    rcases split_append hlog with ⟨rest, hlog₁, -⟩ | ⟨rest, rfl, hlog₂⟩
    · have hown := h₁.own
      rw [hlog₁, own_append] at hown
      exact absurd (List.append_eq_nil_iff.mp hown).1 hbefore
    · rw [own_append, h₁.own] at hbefore
      obtain ⟨hflow, hfills⟩ := h₂.inside rest c s₁' s₂' r after hlog₂ hafter
      refine ⟨hflow, (hfills.resolve_right fun hown => hbefore hown.1).mono ?_⟩
      exact List.subset_append_right _ _

/-- Before and after it the state changes, and nothing is accepted. -/
theorem wrap (h : Written t s₁ s' log) {s₂ : State} (h₁ : (s₁.tr t).accepted = (s.tr t).accepted)
    (h₂ : (s₂.tr t).accepted = (s'.tr t).accepted) :
    Written t s s₂ (.set s s₁ :: (log ++ [.set s' s₂])) := by
  have hbegin : Stream.gained t s s₁ = [] := by rw [Stream.gained, h₁, List.drop_length]
  have hend : Stream.gained t s' s₂ = [] := by rw [Stream.gained, h₂, List.drop_length]
  have hown : Stream.own t (.set s s₁ :: (log ++ [.set s' s₂])) = Stream.own t log := by
    rw [own_cons, own_set, own_append, own_set, hbegin, hend, List.append_nil]
    rfl
  refine ⟨?_, ?_, fun before c s₁' s₂' r after hlog hbefore hafter => ?_⟩
  · rw [List.flatMap_cons, List.flatMap_append, List.flatMap_singleton, gain, gain, hbegin, hend,
      List.append_nil, List.nil_append, ← h₁, h₂, h.gained]
  · have hbuffers : Stream.buffers (.set s s₁ :: (log ++ [.set s' s₂])) = Stream.buffers log := by
      change Stream.buffers (log ++ [.set s' s₂]) = _
      rw [buffers_append]
      exact List.append_nil _
    rw [hown, hbuffers]
    exact h.own
  · rcases List.cons_eq_append_iff.mp hlog with ⟨rfl, heq⟩ | ⟨before, rfl, heq⟩
    · cases (List.cons.inj heq).1
    rw [own_cons, own_set, hbegin] at hbefore
    rcases split_append heq with ⟨rest, hrest, rfl⟩ | ⟨rest, -, hlast⟩
    · rw [own_append, own_set, hend, List.append_nil] at hafter
      obtain ⟨hflow, hfills⟩ := h.inside before c s₁' s₂' r rest hrest hbefore hafter
      exact ⟨hflow, hfills.mono (List.subset_cons_self _ _)⟩
    · rcases List.singleton_eq_append_iff.mp hlast with ⟨-, hnil⟩ | ⟨-, hnil⟩
      · cases (List.cons.inj hnil).1
      · cases hnil

end Written

section Items

include hR

/-- An item is exported, or raises. -/
theorem logs_acquireWriteView (hd : 0 < s.depth) :
    Logs t R (acquireWriteView t) (fun r s' log => Bare t s s' log ∧
      ∀ b, r = .ok b → buffers log = [b.data]) s := by
  refine (Prog.logs_bind _ _ _ _).mpr ((logs_foreign _ _).mpr fun s₁ hs r => ?_)
  have hkept := hR _ s s₁ hs hd
  rcases hraised : r.raised with - | exc
  · simp only
    refine (Prog.logs_bind _ _ _ _).mpr ((logs_self _ _).mpr ?_)
    refine (Prog.logs_bind _ _ _ _).mpr ((logs_act _ _ _).mpr ?_)
    have hset : Harmless t R False (act t .acquireView) := .act rfl
    refine ⟨(Bare.yield hkept .acquire r).trans ((hset s₁ hkept.depth nofun).toBare), ?_⟩
    rintro b hb
    obtain rfl := Except.ok.inj hb
    simp [buffers, hraised]
  · simp only
    exact ⟨Bare.yield hkept .acquire r, nofun⟩

/-- The items are exported one after the other. -/
theorem logs_acquireAll (n : ℕ) (bufs : List Buf) (hd : 0 < s.depth) :
    Logs t R (acquireAll t n bufs) (fun r s' log => Bare t s s' log ∧
      ∀ bufs', r = .ok bufs' → bufs'.map Buf.data = bufs.map Buf.data ++ buffers log) s := by
  induction n generalizing bufs s with
  | zero =>
    refine ⟨.refl hd, fun bufs' h => ?_⟩
    obtain rfl := Except.ok.inj h
    exact (List.append_nil _).symm
  | succ n ih =>
    rw [acquireAll]
    refine (Prog.logs_bind _ _ _ _).mpr
      (Prog.logs_mono (logs_acquireWriteView hR hd) fun r s₁ log₁ h₁ => ?_)
    obtain ⟨hbare, hdata⟩ := h₁
    cases r with
    | error exc =>
      have hrelease : Harmless t R False (act t (.releaseViews (bufs.map Buf.view))) := .act rfl
      refine (Prog.logs_bind _ _ _ _).mpr ((logs_act _ _ _).mpr ?_)
      exact ⟨hbare.trans (hrelease s₁ hbare.kept.depth (by simp)).toBare, by simp⟩
    | ok b =>
      refine Prog.logs_mono (ih (bufs ++ [b]) hbare.kept.depth) fun r s₂ log₂ h₂ => ?_
      refine ⟨hbare.trans h₂.1, fun bufs' h => ?_⟩
      rw [h₂.2 bufs' h, buffers_append, hdata b rfl, List.map_append, List.append_assoc]
      rfl

/-- `writelines` accepts the buffers that its items are exported as. -/
theorem logs_writelines (hd : 0 < s.depth) :
    Logs t R (writelines t) (fun _ s' log => Written t s s' log) s := by
  have hrefuse : Written t s s [] := .of_bare (.refl hd)
  refine (Prog.logs_bind _ _ _ _).mpr ((logs_self _ _).mpr ((Prog.logs_ite _ _ _ _ _).mpr ?_))
  split
  · exact hrefuse
  refine (Prog.logs_bind _ _ _ _).mpr ((logs_foreign _ _).mpr fun s₁ hs r => ?_)
  have hkept := hR _ s s₁ hs hd
  have hiterate : Bare t s s₁ [.yield .iterate s s₁ r] := .yield hkept .iterate r
  split
  · exact .of_bare hiterate
  refine (Prog.logs_ite _ _ _ _ _).mpr ?_
  split
  · exact .of_bare hiterate
  refine (Prog.logs_bind _ _ _ _).mpr ((logs_alloc _).mpr fun ok =>
    (Prog.logs_ite _ _ _ _ _).mpr ?_)
  split
  · exact .of_bare hiterate
  refine (Prog.logs_bind _ _ _ _).mpr
    (Prog.logs_mono (logs_acquireAll hR _ [] hkept.depth) fun r' s₂ log₁ h => ?_)
  obtain ⟨hbare, hdata⟩ := h
  match r' with
  | .error _ =>
    exact .of_bare (hiterate.trans (hbare.trans (.refl hbare.kept.depth)))
  | .ok bufs =>
    refine Prog.logs_mono (logs_submitWrite hR bufs hbare.kept.depth) fun _ s' log h => ?_
    rw [hdata bufs rfl] at h
    exact (Written.of_stored (hiterate.trans hbare) h :)

end Items

end Programs

/-! ## Contiguity -/

/-- `writelines` accepts the buffers of its items in order, from the front. They are contiguous in
the stream of accepted bytes exactly if the protocol does not write where a batch that they have
filled is flushed between two of them. -/
theorem writelines_contiguous_iff {stack : List (Callback × (Result → P Unit))}
    (h : system.Reachable (env True) ⟨s, none, stack⟩) (hstart : Startable s (.writelines t))
    {n : ℕ} {log : Log sig}
    (hrun : Run system (env True) (fun c => Interlude system (env True) n (c :: stack.map Prod.fst))
      (system.entry (.writelines t)) s () s' log) :
    (s'.tr t).accepted = (s.tr t).accepted ++ log.flatMap (gain t) ∧
      own t log <+: (buffers log).flatten ∧ (Contiguous t log ↔ ¬ Interrupted t log) := by
  have hV := verified True
  have hinv : Inv True s := hV.in_foreign (not_quiet True) h
  have hwp := hV.entry (stack.map Prod.fst) s (.writelines t) hstart hinv fun hnil => by
    obtain rfl : stack = [] := List.map_eq_nil_iff.mp hnil
    exact (hV.top_level h).2
  obtain ⟨-, hrun'⟩ := hV.run (hV.interlude n (stack.map Prod.fst)) hrun hwp
  -- Python code keeps what a native call relies on
  have hR : ∀ c s s', (Interlude system (env True) n (c :: stack.map Prod.fst) s s' ∧
      (¬ (env True).Quiet c → Inv True s ∧ Inv True s' ∧ Rely s s')) → 0 < s.depth →
        Meanwhile t s s' := fun c s s' hc hd => by
    obtain ⟨hinv, -, hrely⟩ := hc.2 (not_quiet True c)
    exact .of_rely hinv hrely hd
  have hwritten : Written t s s' log := by
    refine hrun'.logs (C := contract t) (Q := fun _ s' log => Written t s s' log) ?_ ?_
    · rintro ⟨u⟩ s
      by_cases hu : u = t ∧ 0 < s.depth
      · obtain ⟨rfl, hd⟩ := hu
        exact Prog.logs_mono (Harmless.makeRoomBody hR s hd nofun) fun _ _ _ h _ _ => h
      · exact Prog.logs_of_forall fun _ _ _ hut hd => absurd ⟨hut, hd⟩ hu
    · refine (Prog.logs_bind _ _ _ _).mpr ((logs_update _ _).mpr ((Prog.logs_bind _ _ _ _).mpr
        ((Prog.logs_map _ _ _ _).mpr ?_)))
      exact Prog.logs_mono (logs_writelines hR (s := s.enter) (Nat.succ_pos _)) fun _ s₁ log h =>
        h.wrap rfl rfl
  exact ⟨hwritten.gained, hwritten.own, contiguous_iff hwritten.inside⟩

/-! ## Concrete runs -/

/-- Inside `connection_made` low water marks are set, and three bytes are written. -/
def threeWritten : List (Label sig) :=
  opening .plain ++ [.start .runBegin, .start .onIdle,
    .start (.setWriteBufferLimits 0 true true), counted 1, counted 0,
    .start (.write 0), exported [1], .start (.write 0), exported [2], .start (.write 0),
    exported [3]]

/-- Two buffers are written. The first fills the batch, of which the socket takes nothing, and the
protocol is told to pause. -/
def twoBuffers (paused : List (Label sig)) : List (Label sig) :=
  [counted 2, yes, exported [10], exported [11], status (-11), yes, .answer ⟨true, 0, 4⟩] ++
    paused ++ [returned]

/-- A protocol that is told to pause between two buffers and writes nothing. -/
theorem writelines_contiguous_paused :
    ∃ (s s' : State) (log : Log sig), (s.tr 0).accepted = [1, 2, 3] ∧
      (s'.tr 0).accepted = [1, 2, 3, 10, 11] ∧ own 0 log = [10, 11] ∧ Contiguous 0 log := by
  have hplay : ∃ s stack s' log, system.play (env True) 100 threeWritten system.initial =
        some ⟨s, none, stack⟩ ∧
      replay system (env True) 12 (stack.map Prod.fst) (system.entry (.writelines 0)) s
        (twoBuffers []) = some (s', log, []) ∧
      Startable s (.writelines 0) ∧ (s.tr 0).accepted = [1, 2, 3] ∧
      (s'.tr 0).accepted = [1, 2, 3, 10, 11] ∧ own 0 log = [10, 11] ∧ others 0 log = [] :=
    ⟨_, _, _, _, rfl, rfl, by decide, rfl, rfl, rfl, rfl⟩
  obtain ⟨s, stack, s', log, hplay, hreplay, hstart, hbefore, hafter, hown, hothers⟩ := hplay
  obtain ⟨-, -, hiff⟩ := writelines_contiguous_iff (System.Reachable.initial.play hplay) hstart
    (run_of_replay hreplay)
  refine ⟨s, s', log, hbefore, hafter, hown, hiff.mpr ?_⟩
  rintro ⟨before, c, s₁, s₂, r, after, rfl, -, -, hgained, -⟩
  rw [others_append] at hothers
  exact hgained (List.append_eq_nil_iff.mp (List.append_eq_nil_iff.mp hothers).2).1

/-- A protocol that is told to pause between two buffers and writes. Its byte is accepted before the
second buffer. -/
theorem writelines_interrupted :
    ∃ (s s' : State) (stack : List (Callback × (Result → P Unit))) (n : ℕ) (log : Log sig),
      system.Reachable (env True) ⟨s, none, stack⟩ ∧ Startable s (.writelines 0) ∧
      Run system (env True) (fun c => Interlude system (env True) n (c :: stack.map Prod.fst))
        (system.entry (.writelines 0)) s () s' log ∧
      own 0 log = (buffers log).flatten ∧ (s.tr 0).accepted = [1, 2, 3] ∧
      (s'.tr 0).accepted = [1, 2, 3, 10, 99, 11] ∧ ¬ Contiguous 0 log := by
  have hplay : ∃ s stack s' log, system.play (env True) 100 threeWritten system.initial =
        some ⟨s, none, stack⟩ ∧
      replay system (env True) 12 (stack.map Prod.fst) (system.entry (.writelines 0)) s
        (twoBuffers [.start (.write 0), exported [99]]) = some (s', log, []) ∧
      Startable s (.writelines 0) ∧ (s.tr 0).accepted = [1, 2, 3] ∧
      (s'.tr 0).accepted = [1, 2, 3, 10, 99, 11] ∧ own 0 log = (buffers log).flatten ∧
      own 0 (log.take 10) = [10] ∧ own 0 (log.drop 11) = [11] ∧
      ∃ c s₁ s₂ r, log[10]? = some (Entry.yield c s₁ s₂ r) ∧ gained 0 s₁ s₂ = [99] :=
    ⟨_, _, _, _, rfl, rfl, by decide, rfl, rfl, rfl, rfl, rfl, _, _, _, _, rfl, rfl⟩
  obtain ⟨s, stack, s', log, hplay, hreplay, hstart, hbefore, hafter, hwhole, hleft, hright, c, s₁,
    s₂, r, hcall, hgained⟩ := hplay
  refine ⟨s, s', stack, 12, log, System.Reachable.initial.play hplay, hstart,
    run_of_replay hreplay, hwhole, hbefore, hafter, ?_⟩
  have hsplit : log = log.take 10 ++ Entry.yield c s₁ s₂ r :: log.drop 11 := by
    obtain ⟨hlt, hget⟩ := List.getElem?_eq_some_iff.mp hcall
    rw [← hget, List.getElem_cons_drop, List.take_append_drop]
  rw [hsplit]
  exact not_contiguous (hleft ▸ List.cons_ne_nil _ _) (hright ▸ List.cons_ne_nil _ _)
    (hgained ▸ List.cons_ne_nil _ _)

end Zuvloop.Stream
