import Zuvloop.Collections.Count
import Zuvloop.Handles.EntryPoints

/-!
# What the loop promises of its handles

`Inv` holds whenever foreign code runs: the counters count what they are there for, a counted handle
closes with a callback that takes it off the counters, and a poll handle that is not closing is in
the map of pollers. `Rely` is what Python code and the callbacks of libuv may do meanwhile. The
lemmas here are about the pieces of the programs that run no foreign code.

## Main definitions

* `Core`, `Watched`, `Inv`: the invariant.
* `Rely`: how the state changes.

## Main results

* `Core.closeExternalHandle`, `Core.onClosed`, `Core.opened`: the three ways in which the counters
  change.
-/

namespace Zuvloop.Handles

open State

/-! ## Handles -/

section Handles

variable {s : State} {i j : ℕ} {f : Handle → Handle}

theorem handle_update (hi : i < s.handles.length) :
    (s.update i f).handle j = if i = j then f (s.handle j) else s.handle j :=
  Table.getD_modify hi

@[simp]
theorem handle_update_self (hi : i < s.handles.length) :
    (s.update i f).handle i = f (s.handle i) := Table.getD_modify_self hi

theorem handle_update_ne (h : i ≠ j) : (s.update i f).handle j = s.handle j :=
  Table.getD_modify_ne h

@[simp]
theorem length_update : (s.update i f).handles.length = s.handles.length :=
  List.length_modify ..

/-- A handle of a kind that is counted, or that is closing, is one of the handles. -/
theorem lt_of_external (h : (s.handle i).kind.external = true) : i < s.handles.length :=
  Table.lt_of_getD_ne (d := { kind := .internal }) fun heq => by
    rw [State.handle, heq] at h
    cases h

theorem lt_of_closing (h : s.isClosing i = true) : i < s.handles.length :=
  Table.lt_of_getD_ne (d := { kind := .internal }) fun heq => by
    rw [State.isClosing, State.handle, heq] at h
    cases h

theorem lt_of_poll {fd : ℤ} (h : (s.handle i).kind = .poll fd) : i < s.handles.length :=
  lt_of_external (h ▸ rfl)

theorem getElem_eq_handle (hi : i < s.handles.length) : s.handles[i] = s.handle i := by
  rw [State.handle, List.getD_eq_getElem _ _ hi]

/-- Counting after a change of one handle. -/
theorem countP_update (p : Handle → Bool) (hi : i < s.handles.length) :
    (s.update i f).handles.countP p + (p (s.handle i)).toNat =
      s.handles.countP p + (p (f (s.handle i))).toNat := Table.countP_modify p f hi

/-- A change that is not counted. -/
theorem countP_update_of_eq (p : Handle → Bool) (h : p (f (s.handle i)) = p (s.handle i)) :
    (s.update i f).handles.countP p = s.handles.countP p :=
  Table.countP_modify_of_eq (d := ({ kind := .internal } : Handle)) p h

end Handles

/-! ## The invariant -/

/-- The part of the invariant that holds at every moment at which the counters are up to date. -/
structure Core (s : State) : Prop where
  /-- `external_handles` is the number of external handles whose close callback has not run. -/
  external : s.external = s.handles.countP Handle.counted
  /-- `closing_handles` is the number of those on which `uv_close` has been called. -/
  closing : s.closing = s.handles.countP Handle.countedClosing
  /-- No counter was decremented at zero. -/
  underflow : s.underflow = false
  /-- The assertion of `closeAllHandles` never failed. -/
  asserts : ∀ b ∈ s.asserts, b = true
  /-- A close callback runs only after `uv_close`. -/
  closed : ∀ i, (s.handle i).closed = true → s.isClosing i = true
  /-- External handles, and only those, close with a callback that counts. -/
  owned : ∀ i cb, (s.handle i).closing = some cb →
    (cb ≠ .onCloseFreeState ↔ (s.handle i).kind.external = true)
  /-- The map has poll handles, each under its descriptor. -/
  pollers : ∀ fd i, (fd, i) ∈ s.pollers → (s.handle i).kind = .poll fd
  /-- A descriptor has at most one. -/
  unique : ∀ fd i j, (fd, i) ∈ s.pollers → (fd, j) ∈ s.pollers → i = j
  /-- The sampler is there. -/
  sampler : sampler < s.handles.length
  /-- Nothing was made too late, unless the loop was closed behind the back of an entry point. -/
  late : s.careless = false → ∀ m ∈ s.late, m.1.creates = false
  /-- Every call that came too late raised. -/
  calls : s.careless = false → ∀ e, e.creates = true → (e, .returned true) ∉ s.calls

/-- Every poll handle that is not closing is in the map, except possibly one. -/
def WatchedBut (s : State) (x : Option ℕ) : Prop :=
  ∀ i fd, (s.handle i).kind = .poll fd → s.isClosing i = false → x ≠ some i → (fd, i) ∈ s.pollers

/-- Every poll handle that is not closing is in the map. -/
def Watched (s : State) : Prop := WatchedBut s none

/-- What holds whenever foreign code runs. -/
structure Inv (s : State) : Prop where
  core : Core s
  watched : Watched s

/-- What foreign code and the entry points do to the state. -/
structure Rely (s s' : State) : Prop where
  /-- The loop stays closed. -/
  closed : s.closed = true → s'.closed = true
  /-- Handles stay. -/
  length : s.handles.length ≤ s'.handles.length
  /-- An entry point that starts on a closed loop makes no handle. -/
  made : s.closed = true → s'.handles.length = s.handles.length
  /-- A handle keeps its kind. -/
  kind : ∀ i < s.handles.length, (s'.handle i).kind = (s.handle i).kind
  /-- A handle goes on closing. -/
  closing : ∀ i, s.isClosing i = true → s'.isClosing i = true
  /-- Whoever closes the loop closes every handle. -/
  swept : s.closed = false → s'.closed = true →
    ∀ i < s.handles.length, s'.isClosing i = true
  /-- Calls into Python code return. -/
  unchecked : s'.unchecked = s.unchecked
  /-- Closing the loop in the middle of an entry point is not forgotten. -/
  careless : s.careless = true → s'.careless = true
  /-- That is what closing the loop during an unchecked call is. -/
  guarded : s'.careless = false → s.unchecked ≠ 0 → s'.closed = s.closed

theorem Rely.refl (s : State) : Rely s s where
  closed := id
  length := Nat.le_refl _
  made := fun _ => rfl
  kind := fun _ _ => rfl
  closing := fun _ => id
  swept := fun h h' => absurd (h.symm.trans h') nofun
  unchecked := rfl
  careless := id
  guarded := fun _ _ => rfl

theorem Rely.trans {s₁ s₂ s₃ : State} (h : Rely s₁ s₂) (h' : Rely s₂ s₃) : Rely s₁ s₃ where
  closed := fun hc => h'.closed (h.closed hc)
  length := Nat.le_trans h.length h'.length
  made := fun hc => (h'.made (h.closed hc)).trans (h.made hc)
  kind := fun i hi => (h'.kind i (Nat.lt_of_lt_of_le hi h.length)).trans (h.kind i hi)
  closing := fun i hi => h'.closing i (h.closing i hi)
  swept := by
    intro h₁ h₃ i hi
    -- whichever of the two closed the loop has closed the handle
    cases h₂ : s₂.closed with
    | false => exact h'.swept h₂ h₃ i (Nat.lt_of_lt_of_le hi h.length)
    | true => exact h'.closing i (h.swept h₁ h₂ i hi)
  unchecked := h'.unchecked.trans h.unchecked
  careless := fun hc => h'.careless (h.careless hc)
  guarded := by
    intro hc hne
    have hc₂ : s₂.careless = false := by
      cases h₂ : s₂.careless with
      | false => rfl
      | true => exact absurd (h'.careless h₂) (hc ▸ nofun)
    rw [h'.guarded hc (h.unchecked ▸ hne), h.guarded hc₂ hne]

/-- A change of something that is not relied on. -/
theorem Rely.of_eq {s s' : State} (hhandles : s'.handles = s.handles)
    (hclosed : s'.closed = s.closed) (hunchecked : s'.unchecked = s.unchecked)
    (hcareless : s'.careless = s.careless) : Rely s s' := by
  obtain ⟨closed, running, handles, external, closing, pollers, requests, underflow, asserts,
    unchecked, careless, late, calls⟩ := s
  obtain ⟨closed', running', handles', external', closing', pollers', requests', underflow',
    asserts', unchecked', careless', late', calls'⟩ := s'
  obtain rfl : handles' = handles := hhandles
  obtain rfl : closed' = closed := hclosed
  obtain rfl : unchecked' = unchecked := hunchecked
  obtain rfl : careless' = careless := hcareless
  exact ⟨id, Nat.le_refl _, fun _ => rfl, fun _ _ => rfl, fun _ => id,
    fun h h' => absurd (h.symm.trans h') nofun, rfl, id, fun _ _ => rfl⟩

/-- A change of a handle that keeps its kind and does not take back `uv_close`. -/
theorem Rely.update {s : State} {i : ℕ} {f : Handle → Handle}
    (hkind : (f (s.handle i)).kind = (s.handle i).kind)
    (hclosing : (s.handle i).closing.isSome = true → (f (s.handle i)).closing.isSome = true) :
    Rely s (s.update i f) where
  closed := id
  length := Nat.le_of_eq length_update.symm
  made := fun _ => length_update
  kind := by
    intro j hj
    by_cases hij : i = j
    · subst hij
      rw [handle_update_self hj, hkind]
    · rw [handle_update_ne hij]
  closing := by
    intro j hj
    by_cases hij : i = j
    · subst hij
      rw [State.isClosing, handle_update_self (lt_of_closing hj)]
      exact hclosing hj
    · rw [State.isClosing, handle_update_ne hij]
      exact hj
  swept := fun h h' => absurd (h.symm.trans h') nofun
  unchecked := rfl
  careless := id
  guarded := fun _ _ => rfl

/-! ## Changes that are not counted -/

/-- A change of a handle that leaves alone what it is and what libuv does with it. -/
def Harmless (f : Handle → Handle) : Prop :=
  ∀ h, (f h).kind = h.kind ∧ (f h).closing = h.closing ∧ (f h).closed = h.closed

theorem harmless_setOpen (b : Bool) : Harmless fun h => { h with isOpen := b } :=
  fun _ => ⟨rfl, rfl, rfl⟩

theorem harmless_setSlot (writer : Bool) (callback : Option ℤ) :
    Harmless (Handle.setSlot writer callback) := by
  intro h
  unfold Handle.setSlot
  split
  · exact ⟨rfl, rfl, rfl⟩
  · exact ⟨rfl, rfl, rfl⟩

theorem harmless_events (events : Events) : Harmless fun h => { h with events := events } :=
  fun _ => ⟨rfl, rfl, rfl⟩

theorem harmless_take : Harmless fun h => { h with reader := none, writer := none } :=
  fun _ => ⟨rfl, rfl, rfl⟩

section Harmless

variable {s : State} {i j : ℕ} {f : Handle → Handle} (hf : Harmless f)

include hf

theorem Harmless.kind : ((s.update i f).handle j).kind = (s.handle j).kind := by
  by_cases hj : j < s.handles.length ∧ i = j
  · obtain ⟨hj, rfl⟩ := hj
    rw [handle_update_self hj, (hf _).1]
  · by_cases hij : i = j
    · subst hij
      rw [State.update, List.modify_eq_self (by omega)]
    · rw [handle_update_ne hij]

theorem Harmless.closing : ((s.update i f).handle j).closing = (s.handle j).closing := by
  by_cases hj : j < s.handles.length ∧ i = j
  · obtain ⟨hj, rfl⟩ := hj
    rw [handle_update_self hj, (hf _).2.1]
  · by_cases hij : i = j
    · subst hij
      rw [State.update, List.modify_eq_self (by omega)]
    · rw [handle_update_ne hij]

theorem Harmless.closed : ((s.update i f).handle j).closed = (s.handle j).closed := by
  by_cases hj : j < s.handles.length ∧ i = j
  · obtain ⟨hj, rfl⟩ := hj
    rw [handle_update_self hj, (hf _).2.2]
  · by_cases hij : i = j
    · subst hij
      rw [State.update, List.modify_eq_self (by omega)]
    · rw [handle_update_ne hij]

theorem Harmless.isClosing : (s.update i f).isClosing j = s.isClosing j := by
  rw [State.isClosing, hf.closing, State.isClosing]

theorem Core.update (h : Core s) : Core (s.update i f) where
  external := by
    rw [countP_update_of_eq _ (by rw [Handle.counted, Handle.counted, (hf _).1, (hf _).2.2])]
    exact h.external
  closing := by
    rw [countP_update_of_eq _ (by
      rw [Handle.countedClosing, Handle.countedClosing, Handle.counted, Handle.counted, (hf _).1,
        (hf _).2.1, (hf _).2.2])]
    exact h.closing
  underflow := h.underflow
  asserts := h.asserts
  closed := fun j => by
    rw [hf.closed, hf.isClosing]
    exact h.closed j
  owned := fun j cb => by
    rw [hf.closing, hf.kind]
    exact h.owned j cb
  pollers := fun fd j hmem => by
    rw [hf.kind]
    exact h.pollers fd j hmem
  unique := h.unique
  sampler := length_update.symm ▸ h.sampler
  late := h.late
  calls := h.calls

theorem WatchedBut.update {x : Option ℕ} (h : WatchedBut s x) : WatchedBut (s.update i f) x := by
  intro j fd
  rw [hf.kind, hf.isClosing]
  exact h j fd

theorem Inv.update (h : Inv s) : Inv (s.update i f) := ⟨h.core.update hf, h.watched.update hf⟩

theorem Harmless.rely : Rely s (s.update i f) :=
  Rely.update (hf _).1 fun hc => by rwa [(hf _).2.1]

end Harmless

/-- A change of something that the invariant does not mention, or only of calls and requests. -/
theorem Core.of_eq {s s' : State} (h : Core s) (hhandles : s'.handles = s.handles)
    (hexternal : s'.external = s.external) (hclosing : s'.closing = s.closing)
    (hpollers : s'.pollers = s.pollers) (hunderflow : s'.underflow = s.underflow)
    (hasserts : s'.asserts = s.asserts) (hcareless : s.careless = true → s'.careless = true)
    (hlate : s'.late = s.late) (hcalls : s'.calls = s.calls) : Core s' := by
  obtain ⟨closed, running, handles, external, closing, pollers, requests, underflow, asserts,
    unchecked, careless, late, calls⟩ := s
  obtain ⟨closed', running', handles', external', closing', pollers', requests', underflow',
    asserts', unchecked', careless', late', calls'⟩ := s'
  obtain rfl : handles' = handles := hhandles
  obtain rfl : external' = external := hexternal
  obtain rfl : closing' = closing := hclosing
  obtain rfl : pollers' = pollers := hpollers
  obtain rfl : underflow' = underflow := hunderflow
  obtain rfl : asserts' = asserts := hasserts
  obtain rfl : late' = late := hlate
  obtain rfl : calls' = calls := hcalls
  have hc : careless' = false → careless = false := by
    cases careless with
    | false => exact fun _ => rfl
    | true => exact fun h => absurd (hcareless rfl) (h ▸ nofun)
  exact ⟨h.external, h.closing, h.underflow, h.asserts, h.closed, h.owned, h.pollers, h.unique,
    h.sampler, fun hfalse => h.late (hc hfalse), fun hfalse => h.calls (hc hfalse)⟩

theorem Inv.of_eq {s s' : State} (h : Inv s) (hhandles : s'.handles = s.handles)
    (hexternal : s'.external = s.external) (hclosing : s'.closing = s.closing)
    (hpollers : s'.pollers = s.pollers) (hunderflow : s'.underflow = s.underflow)
    (hasserts : s'.asserts = s.asserts) (hcareless : s.careless = true → s'.careless = true)
    (hlate : s'.late = s.late) (hcalls : s'.calls = s.calls) : Inv s' := by
  refine ⟨h.core.of_eq hhandles hexternal hclosing hpollers hunderflow hasserts hcareless hlate
    hcalls, fun i fd => ?_⟩
  rw [State.isClosing, State.handle, hhandles, hpollers]
  exact h.watched i fd

/-! ## Closing a handle -/

section Close

variable {s : State} {i : ℕ} {cb : CloseCb}

theorem isClosing_uvClose (hi : i < s.handles.length) : (uvClose i cb s).isClosing i = true := by
  rw [State.isClosing, uvClose, handle_update_self hi]
  rfl

theorem isClosing_closeExternalHandle (hi : i < s.handles.length) :
    (closeExternalHandle i cb s).isClosing i = true := by
  unfold closeExternalHandle
  split
  · assumption
  · exact isClosing_uvClose (s := { s with closing := s.closing + 1 }) hi

/-- Which handles close, and how. -/
theorem closing_uvClose (hi : i < s.handles.length) (j : ℕ) :
    ((uvClose i cb s).handle j).closing = if i = j then some cb else (s.handle j).closing := by
  rw [uvClose, handle_update hi]
  split <;> rfl

theorem kind_uvClose (hi : i < s.handles.length) (j : ℕ) :
    ((uvClose i cb s).handle j).kind = (s.handle j).kind := by
  rw [uvClose, handle_update hi]
  split <;> rfl

theorem closed_uvClose (hi : i < s.handles.length) (j : ℕ) :
    ((uvClose i cb s).handle j).closed = (s.handle j).closed := by
  rw [uvClose, handle_update hi]
  split <;> rfl

theorem Rely.uvClose : Rely s (uvClose i cb s) := Rely.update rfl fun _ => rfl

theorem Rely.closeExternalHandle : Rely s (closeExternalHandle i cb s) := by
  unfold State.closeExternalHandle
  split
  · exact .refl s
  · have hcount : Rely s { s with closing := s.closing + 1 } := .of_eq rfl rfl rfl rfl
    exact hcount.trans .uvClose

/-- `uv_close` with the right callback, with the counter that goes with it. -/
theorem Core.uvClose (h : Core s) (hi : i < s.handles.length) (hopen : s.isClosing i = false)
    (hcb : cb ≠ .onCloseFreeState ↔ (s.handle i).kind.external = true) {n : ℕ}
    (hn : n = s.closing + (s.handle i).kind.external.toNat) :
    Core (uvClose i cb { s with closing := n }) := by
  have hclosed : (s.handle i).closed = false := by
    cases hc : (s.handle i).closed with
    | false => rfl
    | true => exact absurd (h.closed i hc) (hopen ▸ nofun)
  have hnone : (s.handle i).closing.isSome = false := hopen
  have hlen : i < ({ s with closing := n } : State).handles.length := hi
  have hcl := countP_update (s := s) (f := fun h => { h with closing := some cb })
    Handle.countedClosing hi
  refine ⟨?_, ?_, h.underflow, h.asserts, fun j => ?_, fun j cb' => ?_, fun fd j hmem => ?_,
    h.unique, length_update.symm ▸ h.sampler, h.late, h.calls⟩
  · -- the handle is counted as before
    change s.external = (s.update i _).handles.countP Handle.counted
    rw [countP_update_of_eq _ rfl]
    exact h.external
  · -- and now as closing, if it is counted at all
    simp only [Handle.countedClosing, Handle.counted, hclosed, hnone, Option.isSome_some,
      Bool.not_false, Bool.and_true, Bool.and_false, Bool.toNat_false] at hcl
    have := h.closing
    change n = ((s.update i _).handles.countP Handle.countedClosing)
    omega
  · rw [closed_uvClose hlen, State.isClosing, closing_uvClose hlen]
    split
    · exact fun _ => rfl
    · exact h.closed j
  · rw [closing_uvClose hlen, kind_uvClose hlen]
    split
    · rename_i heq
      subst heq
      rintro ⟨⟩
      exact hcb
    · exact h.owned j cb'
  · rw [kind_uvClose hlen]
    exact h.pollers fd j hmem

/-- An external handle is closed, and counted as closing once. -/
theorem Core.closeExternalHandle (h : Core s) (hkind : (s.handle i).kind.external = true)
    (hcb : cb ≠ .onCloseFreeState) : Core (closeExternalHandle i cb s) := by
  unfold State.closeExternalHandle
  split
  · exact h
  · rename_i hopen
    exact h.uvClose (lt_of_external hkind) (by simpa using hopen) (iff_of_true hcb hkind)
      (by rw [hkind]; rfl)

theorem WatchedBut.uvClose (h : WatchedBut s (some i)) (hi : i < s.handles.length) (n : ℕ) :
    Watched (uvClose i cb { s with closing := n }) := by
  have hlen : i < ({ s with closing := n } : State).handles.length := hi
  intro j fd hkind hopen _
  rw [kind_uvClose hlen] at hkind
  rw [State.isClosing, closing_uvClose hlen] at hopen
  split at hopen
  · cases hopen
  · rename_i hij
    exact h j fd hkind hopen fun heq => hij (Option.some.inj heq)

theorem WatchedBut.closeExternalHandle (h : WatchedBut s (some i))
    (hkind : (s.handle i).kind.external = true) : Watched (closeExternalHandle i cb s) := by
  unfold State.closeExternalHandle
  split
  · rename_i hclosing
    intro j fd hj hopen _
    refine h j fd hj hopen fun heq => ?_
    obtain rfl := Option.some.inj heq
    rw [hclosing] at hopen
    cases hopen
  · exact h.uvClose (lt_of_external hkind) _

theorem WatchedBut.mono {x : Option ℕ} (h : Watched s) : WatchedBut s x :=
  fun j fd hkind hopen _ => h j fd hkind hopen nofun

theorem Inv.closeExternalHandle (h : Inv s) (hkind : (s.handle i).kind.external = true)
    (hcb : cb ≠ .onCloseFreeState) : Inv (closeExternalHandle i cb s) :=
  ⟨h.core.closeExternalHandle hkind hcb, (WatchedBut.mono h.watched).closeExternalHandle hkind⟩

end Close

/-! ## Close callbacks -/

section Closed

variable {s : State} {i : ℕ}

theorem handle_retire (hi : i < s.handles.length) (j : ℕ) : (retire i s).handle j =
    if i = j then { s.handle j with closed := true } else s.handle j := handle_update hi

theorem kind_retire (hi : i < s.handles.length) (j : ℕ) :
    ((retire i s).handle j).kind = (s.handle j).kind := by
  rw [handle_retire hi]
  split <;> rfl

theorem closing_retire (hi : i < s.handles.length) (j : ℕ) :
    ((retire i s).handle j).closing = (s.handle j).closing := by
  rw [handle_retire hi]
  split <;> rfl

theorem Rely.retired : Rely s (retire i s) := Rely.update rfl id

/-- The close callback of a handle that is not counted. -/
theorem Inv.retired (h : Inv s) (hclosing : s.isClosing i = true)
    (hkind : (s.handle i).kind.external = false) : Inv (retire i s) := by
  have hi := lt_of_closing hclosing
  refine ⟨⟨?_, ?_, h.core.underflow, h.core.asserts, fun j => ?_, fun j cb => ?_,
    fun fd j hmem => ?_, h.core.unique, length_update.symm ▸ h.core.sampler, h.core.late,
    h.core.calls⟩, fun j fd => ?_⟩
  · rw [State.retire, countP_update_of_eq _ (by simp [Handle.counted, hkind])]
    exact h.core.external
  · have hsame : Handle.countedClosing { s.handle i with closed := true } =
        (s.handle i).countedClosing := by
      simp [Handle.countedClosing, Handle.counted, hkind]
    rw [State.retire, countP_update_of_eq _ hsame]
    exact h.core.closing
  · rw [State.isClosing, closing_retire hi, handle_retire hi]
    split
    · rename_i heq
      subst heq
      exact fun _ => hclosing
    · exact h.core.closed j
  · rw [closing_retire hi, kind_retire hi]
    exact h.core.owned j cb
  · rw [kind_retire hi]
    exact h.core.pollers fd j hmem
  · rw [State.isClosing, closing_retire hi, kind_retire hi]
    exact h.watched j fd

/-- The close callback of a counted handle takes it off both counters, and finds it there. -/
theorem Inv.onClosed (h : Inv s) (hclosing : s.isClosing i = true)
    (hopen : (s.handle i).closed = false) (hkind : (s.handle i).kind.external = true) :
    Inv (externalHandleClosed (retire i s)) := by
  have hi := lt_of_closing hclosing
  have hsome : (s.handle i).closing.isSome = true := hclosing
  have hcounted : (s.handle i).counted = true := by rw [Handle.counted, hkind, hopen]; rfl
  have hcountedClosing : (s.handle i).countedClosing = true := by
    rw [Handle.countedClosing, hcounted, hsome]; rfl
  have hex := countP_update (s := s) (f := fun h => { h with closed := true }) Handle.counted hi
  have hcl := countP_update (s := s) (f := fun h => { h with closed := true })
    Handle.countedClosing hi
  rw [hcounted, show Handle.counted { s.handle i with closed := true } = false by
    simp [Handle.counted]] at hex
  rw [hcountedClosing, show Handle.countedClosing { s.handle i with closed := true } = false by
    simp [Handle.countedClosing, Handle.counted]] at hcl
  simp only [Bool.toNat_true, Bool.toNat_false, Nat.add_zero] at hex hcl
  have hexternal := h.core.external
  have hclosings := h.core.closing
  refine ⟨⟨?_, ?_, ?_, h.core.asserts, fun j => ?_, fun j cb => ?_, fun fd j hmem => ?_,
    h.core.unique, length_update.symm ▸ h.core.sampler, h.core.late, h.core.calls⟩,
    fun j fd => ?_⟩
  · change s.external - 1 = (s.update i _).handles.countP Handle.counted
    omega
  · change s.closing - 1 = (s.update i _).handles.countP Handle.countedClosing
    omega
  · -- neither counter is zero
    have hne : s.external ≠ 0 := by omega
    have hne' : s.closing ≠ 0 := by omega
    change (s.underflow || s.external == 0 || s.closing == 0) = false
    rw [h.core.underflow]
    simp [hne, hne']
  · change ((State.retire i s).handle j).closed = true → (State.retire i s).isClosing j = true
    rw [State.isClosing, closing_retire hi, handle_retire hi]
    split
    · rename_i heq
      subst heq
      exact fun _ => hclosing
    · exact h.core.closed j
  · change ((State.retire i s).handle j).closing = some cb →
      (cb ≠ .onCloseFreeState ↔ ((State.retire i s).handle j).kind.external = true)
    rw [closing_retire hi, kind_retire hi]
    exact h.core.owned j cb
  · change ((State.retire i s).handle j).kind = .poll fd
    rw [kind_retire hi]
    exact h.core.pollers fd j hmem
  · change ((State.retire i s).handle j).kind = .poll fd → (State.retire i s).isClosing j = false →
      none ≠ some j → (fd, j) ∈ s.pollers
    rw [State.isClosing, closing_retire hi, kind_retire hi]
    exact h.watched j fd

theorem Rely.onClosed : Rely s (externalHandleClosed (retire i s)) :=
  Rely.retired.trans (Rely.of_eq rfl rfl rfl rfl)

end Closed

/-! ## Making something -/

section Made

variable {s s₀ : State} {e : EntryPoint} {a : Action} {k : Kind}

/-- The loop is open, unless it was closed behind the back of an entry point. -/
def Live (s : State) : Prop := s.careless = false → s.closed = false

theorem handles_made : (made e a s).handles = s.handles := by
  unfold made
  split <;> rfl

theorem Rely.recorded (e : EntryPoint) (a : Action) : Rely s (State.made e a s) := by
  unfold State.made
  split
  · exact .of_eq rfl rfl rfl rfl
  · exact .refl s

theorem Core.recorded (h : Core s) (hlive : e.creates = true → Live s) : Core (made e a s) := by
  unfold State.made
  split
  · rename_i hclosed
    refine { h with late := fun hc m hm => ?_ }
    rcases List.mem_append.mp hm with hm | hm
    · exact h.late hc m hm
    · obtain rfl := List.mem_singleton.mp hm
      cases he : e.creates with
      | false => rfl
      | true => exact absurd (hlive he hc) (hclosed ▸ nofun)
  · exact h

theorem Inv.recorded (h : Inv s) (hlive : e.creates = true → Live s) : Inv (made e a s) := by
  refine ⟨h.core.recorded hlive, ?_⟩
  have hw := h.watched
  unfold State.made
  split
  · exact hw
  · exact hw

/-- A handle is initialized and counted. -/
def State.opened (e : EntryPoint) (k : Kind) (s : State) : State :=
  count (State.made e .init (handleInit k s))

theorem handles_opened : (s.opened e k).handles = s.handles ++ [{ kind := k }] := by
  rw [State.opened]
  exact handles_made

theorem length_opened : (s.opened e k).handles.length = s.handles.length + 1 := by
  rw [handles_opened, List.length_append, List.length_singleton]

@[simp]
theorem closed_opened : (s.opened e k).closed = s.closed := by
  unfold State.opened State.made
  split <;> rfl

@[simp]
theorem careless_opened : (s.opened e k).careless = s.careless := by
  unfold State.opened State.made
  split <;> rfl

theorem pollers_opened : (s.opened e k).pollers = s.pollers := by
  unfold State.opened State.made
  split <;> rfl

theorem handle_opened_self : (s.opened e k).handle s.handles.length = { kind := k } := by
  rw [State.handle, handles_opened]
  exact Table.getD_concat_self _

theorem handle_opened_ne {j : ℕ} (hj : j ≠ s.handles.length) :
    (s.opened e k).handle j = s.handle j := by
  rw [State.handle, handles_opened]
  exact Table.getD_concat_ne _ hj

theorem count_made : count (State.made e a s) = State.made e a (count s) := by
  unfold State.made
  rw [show (count s).closed = s.closed from rfl]
  split <;> rfl

theorem opened_eq : s.opened e k = State.made e .init (count (handleInit k s)) := count_made

/-- The counters are right again as soon as the new handle is counted. -/
theorem Core.counted (h : Core s) (hk : k.external = true) : Core (count (handleInit k s)) := by
  have hself : (count (handleInit k s)).handle s.handles.length = { kind := k } :=
    Table.getD_concat_self _
  have hne : ∀ j, j ≠ s.handles.length → (count (handleInit k s)).handle j = s.handle j :=
    fun j hj => Table.getD_concat_ne _ hj
  refine ⟨?_, ?_, h.underflow, h.asserts, fun j => ?_, fun j cb => ?_, fun fd j hmem => ?_,
    h.unique, ?_, h.late, h.calls⟩
  · change s.external + 1 = (s.handles ++ [({ kind := k } : Handle)]).countP Handle.counted
    rw [List.countP_append, ← h.external]
    simp [Handle.counted, hk]
  · change s.closing = (s.handles ++ [({ kind := k } : Handle)]).countP Handle.countedClosing
    rw [List.countP_append, ← h.closing]
    simp [Handle.countedClosing]
  · by_cases hj : j = s.handles.length
    · subst hj
      rw [hself]
      exact nofun
    · rw [State.isClosing, hne j hj]
      exact h.closed j
  · by_cases hj : j = s.handles.length
    · subst hj
      rw [hself]
      exact nofun
    · rw [hne j hj]
      exact h.owned j cb
  · have hpoll := h.pollers fd j hmem
    rw [hne j (Nat.ne_of_lt (lt_of_poll hpoll))]
    exact hpoll
  · change Handles.sampler < (s.handles ++ [({ kind := k } : Handle)]).length
    rw [List.length_append]
    exact Nat.lt_add_right _ h.sampler

theorem Core.opened (h : Core s) (hk : k.external = true) (hlive : Live s) :
    Core (s.opened e k) := by
  rw [opened_eq]
  exact (h.counted hk).recorded fun _ => hlive

/-- The new handle is all that may be missing from the map. -/
theorem Watched.opened (h : Watched s) : WatchedBut (s.opened e k) (some s.handles.length) := by
  intro j fd hkind hopen hne
  have hj : j ≠ s.handles.length := fun heq => hne (congrArg some heq.symm)
  rw [handle_opened_ne hj] at hkind
  rw [State.isClosing, handle_opened_ne hj] at hopen
  rw [pollers_opened]
  exact h j fd hkind hopen nofun

theorem Inv.opened (h : Inv s) (hk : k.external = true) (hlive : Live s)
    (hpoll : k.isPoll = false) : Inv (s.opened e k) := by
  refine ⟨h.core.opened hk hlive, fun j fd hkind hopen _ => ?_⟩
  refine h.watched.opened j fd hkind hopen fun heq => ?_
  -- the new handle watches nothing
  obtain rfl := Option.some.inj heq
  rw [handle_opened_self] at hkind
  obtain rfl : k = .poll fd := hkind
  cases hpoll

/-- Since the loop was open, a handle may have been made. -/
theorem Rely.opened (h : Rely s₀ s) (h₀ : s₀.closed = false) : Rely s₀ (s.opened e k) where
  closed := fun hc => absurd (h₀.symm.trans hc) nofun
  length := by
    rw [length_opened]
    exact Nat.le_succ_of_le h.length
  made := fun hc => absurd (h₀.symm.trans hc) nofun
  kind := fun i hi => by
    rw [handle_opened_ne (Nat.ne_of_lt (Nat.lt_of_lt_of_le hi h.length))]
    exact h.kind i hi
  closing := fun i hi => by
    have hclosing := h.closing i hi
    rw [State.isClosing, handle_opened_ne (Nat.ne_of_lt (lt_of_closing hclosing))]
    exact hclosing
  swept := fun _ hc i hi => by
    rw [State.isClosing, handle_opened_ne (Nat.ne_of_lt (Nat.lt_of_lt_of_le hi h.length))]
    exact h.swept h₀ (closed_opened ▸ hc) i hi
  unchecked := by
    rw [← h.unchecked, opened_eq]
    exact (Rely.recorded ..).unchecked
  careless := fun hc => by
    rw [careless_opened]
    exact h.careless hc
  guarded := fun hc hne => by
    rw [closed_opened]
    exact h.guarded (careless_opened ▸ hc) hne

end Made

/-! ## The map of pollers -/

section Pollers

variable {s : State} {fd : ℤ} {i : ℕ}

theorem mem_of_poller (h : s.poller fd = some i) : (fd, i) ∈ s.pollers := by
  obtain ⟨l₁, l₂, heq, -⟩ := List.lookup_eq_some_iff.mp h
  rw [heq]
  exact List.mem_append_right _ List.mem_cons_self

theorem not_mem_of_poller (h : s.poller fd = none) (j : ℕ) : (fd, j) ∉ s.pollers :=
  fun hmem => absurd (List.lookup_eq_none_iff.mp h _ hmem) (by simp)

theorem Core.removePoller (h : Core s) : Core (removePoller fd s) :=
  { h with
    pollers := fun fd' j hmem => h.pollers fd' j (List.mem_of_mem_filter hmem)
    unique := fun fd' j k hj hk =>
      h.unique fd' j k (List.mem_of_mem_filter hj) (List.mem_of_mem_filter hk) }

theorem Rely.removePoller : Rely s (State.removePoller fd s) := .of_eq rfl rfl rfl rfl

/-- Removing a descriptor loses sight of its one poll handle. -/
theorem Inv.removePoller (h : Inv s) (hmem : (fd, i) ∈ s.pollers) :
    WatchedBut (removePoller fd s) (some i) := by
  intro j fd' hkind hopen hne
  have hj := h.watched j fd' hkind hopen nofun
  refine List.mem_filter.mpr ⟨hj, decide_eq_true fun heq => hne ?_⟩
  obtain rfl : fd' = fd := heq
  exact congrArg some (h.core.unique fd' i j hmem hj)

theorem Core.putPoller (h : Core s) (hkind : (s.handle i).kind = .poll fd)
    (hnone : s.poller fd = none) : Core (putPoller fd i s) :=
  { h with
    pollers := fun fd' j hmem => by
      rcases List.mem_cons.mp hmem with heq | hmem
      · cases heq
        exact hkind
      · exact h.pollers fd' j hmem
    unique := fun fd' j k hj hk => by
      rcases List.mem_cons.mp hj with heq | hj
      · cases heq
        rcases List.mem_cons.mp hk with heq | hk
        · cases heq
          rfl
        · exact absurd hk (not_mem_of_poller hnone k)
      · rcases List.mem_cons.mp hk with heq | hk
        · cases heq
          exact absurd hj (not_mem_of_poller hnone j)
        · exact h.unique fd' j k hj hk }

theorem WatchedBut.putPoller (h : WatchedBut s (some i)) (hkind : (s.handle i).kind = .poll fd) :
    Watched (putPoller fd i s) := by
  intro j fd' hj hopen _
  by_cases hij : i = j
  · subst hij
    obtain rfl : fd = fd' := by
      have heq : Kind.poll fd = .poll fd' := hkind.symm.trans hj
      injection heq
    exact List.mem_cons_self
  · exact List.mem_cons_of_mem _ (h j fd' hj hopen fun heq => hij (Option.some.inj heq))

end Pollers

end Zuvloop.Handles
