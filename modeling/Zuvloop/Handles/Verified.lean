import Zuvloop.Handles.Invariant

/-!
# The entry points keep the promise

Every entry point keeps `Inv` and respects `Rely`. For one that makes something this rests on
`Live`: between the last check of `closed` and what is made, the loop can only have been closed by
Python code that was run unchecked.

## Main results

* `verified`: the loop and everything that makes or closes its handles is verified.
-/

namespace Zuvloop.Handles

open Reentrant State

/-- What is to be proved: the loop of `closeAllHandles` ends when every handle is closed. -/
def spec : Spec sig where
  inv := Inv
  rely := Rely
  pre := fun .drain s => Inv s
  post := fun .drain s s' =>
    Inv s' ∧ Rely s s' ∧ ∀ i < s'.handles.length, (s'.handle i).closed = true

/-- How an entry point ends that was started in `s₀`. -/
def Ends (e : EntryPoint) (s₀ : State) (o : Outcome) (s : State) : Prop :=
  Inv s ∧ Rely s₀ s ∧ (e.creates = true → o = .returned true → s.careless = true)

/-! ## Rules -/

section Rules

variable {α : Type} {s s₀ : State} {Q : α → State → Prop} {e : EntryPoint}

theorem Ends.raised {exc : Exc} (h : Inv s) (hr : Rely s₀ s) : Ends e s₀ (.raised exc) s :=
  ⟨h, hr, fun _ => nofun⟩

theorem Ends.returned (h : Inv s) (hr : Rely s₀ s) (hlive : e.creates = true → Live s) :
    Ends e s₀ (.returned s.closed) s := by
  refine ⟨h, hr, fun he heq => ?_⟩
  cases hc : s.careless with
  | true => rfl
  | false =>
    rw [hlive he hc] at heq
    cases heq

theorem get_bind {k : State → P α} (h : (k s).wp env spec Q s) :
    (getState >>= k).wp env spec Q s := h

theorem act_bind {f : State → State} {k : Unit → P α} (h : (k ()).wp env spec Q (f s)) :
    (act f >>= k).wp env spec Q s := h

theorem request_bind {q : Request} {k : ℤ → P α}
    (h : ∀ a, env.answers s q a → (k a).wp env spec Q s) :
    (request q >>= k).wp env spec Q s := h

theorem bind_wp {β : Type} {p : P β} {k : β → P α}
    (h : p.wp env spec (fun b s' => (k b).wp env spec Q s') s) :
    (p >>= k).wp env spec Q s := (Prog.wp_bind p k Q s).mpr h

/-- Foreign code, in a program that was started in `s₀`. -/
theorem foreign_bind {c : Callback} {k : Option ℤ → P α} (h : Inv s) (hr : Rely s₀ s)
    (hk : ∀ r s', Inv s' → Rely s₀ s' → Rely s s' → (k r).wp env spec Q s') :
    (foreign c >>= k).wp env spec Q s :=
  bind_wp (Prog.wp_foreign (Rely.refl s) h fun r s' hrely hinv =>
    hk r s' hinv (hr.trans hrely) hrely)

/-- Unchecked Python code leaves the loop open, if it is not careless. -/
theorem exposed_bind {c : Callback} {k : Option ℤ → P α} (h : Inv s) (hr : Rely s₀ s)
    (hlive : Live s) (hk : ∀ r s', Inv s' → Rely s₀ s' → Live s' → (k r).wp env spec Q s') :
    (exposed c >>= k).wp env spec Q s := by
  refine bind_wp (act_bind (bind_wp (Prog.wp_foreign (Rely.refl _) ?_ fun r s' hrely hinv => ?_)))
  · exact h.of_eq rfl rfl rfl rfl rfl rfl id rfl rfl
  · have hinv' : Inv { s' with unchecked := s'.unchecked - 1 } :=
      hinv.of_eq rfl rfl rfl rfl rfl rfl id rfl rfl
    -- the count is back to where it was
    have hcount : s'.unchecked = s.unchecked + 1 := hrely.unchecked
    have hback : Rely s { s' with unchecked := s'.unchecked - 1 } := by
      refine ⟨hrely.closed, hrely.length, hrely.made, hrely.kind, hrely.closing, hrely.swept, ?_,
        hrely.careless, fun hc _ => hrely.guarded hc (Nat.succ_ne_zero _)⟩
      change s'.unchecked - 1 = s.unchecked
      omega
    refine hk r _ hinv' (hr.trans hback) fun hc => ?_
    have hs : s.careless = false := by
      cases hs : s.careless with
      | false => rfl
      | true => exact absurd (hrely.careless hs) (hc ▸ nofun)
    exact (hrely.guarded hc (Nat.succ_ne_zero _)).trans (hlive hs)

theorem finished_wp {Q : Outcome → State → Prop} (h : Q (.returned s.closed) s) :
    finished.wp env spec Q s := h

/-- The loop of `closeAllHandles`. -/
theorem drain_bind {k : Unit → P α} (h : Inv s) (hk : ∀ s', Inv s' → Rely s s' →
    (∀ i < s'.handles.length, (s'.handle i).closed = true) → (k ()).wp env spec Q s') :
    (Prog.invoke (S := sig) .drain >>= k).wp env spec Q s :=
  ⟨h, fun s' hs' => hk s' hs'.1 hs'.2.1 hs'.2.2⟩

/-- Python code that is followed by a check. -/
theorem prepare_foreign {steps : List (Callback × Bool)} {k : Bool → P α} (h : Inv s)
    (hr : Rely s₀ s) (hk : ∀ b s', Inv s' → Rely s₀ s' → (k b).wp env spec Q s') :
    (prepare foreign steps >>= k).wp env spec Q s := by
  refine bind_wp ?_
  induction steps generalizing s with
  | nil => exact hk true s h hr
  | cons step steps ih =>
    refine foreign_bind h hr fun r s' h' hr' _ => ?_
    rw [Prog.wp_ite]
    split
    · exact hk false s' h' hr'
    · exact ih h' hr'

/-- Python code that is not. -/
theorem prepare_exposed {steps : List (Callback × Bool)} {k : Bool → P α} (h : Inv s)
    (hr : Rely s₀ s) (hlive : Live s)
    (hk : ∀ b s', Inv s' → Rely s₀ s' → Live s' → (k b).wp env spec Q s') :
    (prepare exposed steps >>= k).wp env spec Q s := by
  refine bind_wp ?_
  induction steps generalizing s with
  | nil => exact hk true s h hr hlive
  | cons step steps ih =>
    refine exposed_bind h hr hlive fun r s' h' hr' hlive' => ?_
    rw [Prog.wp_ite]
    split
    · exact hk false s' h' hr' hlive'
    · exact ih h' hr' hlive'

end Rules

/-! ## Transports -/

section Transports

variable {s s₀ : State}

/-- Open the descriptor of a new handle, with the flag that says so. -/
theorem opened_bind {α : Type} {e : EntryPoint} {k : Kind} {p : Unit → P α}
    {Q : α → State → Prop} (h : Inv s) (hr : Rely s₀ s) (h₀ : s₀.closed = false) (hlive : Live s)
    (hk : k.external = true) (hpoll : k.isPoll = false)
    (hp : ∀ s', Inv s' → Rely s₀ s' → Live s' → (s'.handle s.handles.length).kind = k →
      (p ()).wp env spec Q s') :
    (act (.handleInit k) >>= fun _ => act (.made e .init) >>= fun _ => act .count >>= p).wp
      env spec Q s :=
  hp (s.opened e k) (h.opened hk hlive hpoll) (hr.opened h₀)
    (fun hc => closed_opened.trans (hlive (careless_opened ▸ hc)))
    (by rw [handle_opened_self])

theorem makeTransport_wp (h : Inv s₀) :
    makeTransport.wp env spec (Ends .makeTransport s₀) s₀ := by
  refine get_bind ?_
  split
  · exact .raised h (.refl s₀)
  rename_i hopen
  have h₀ : s₀.closed = false := by simpa using hopen
  refine exposed_bind h (.refl s₀) (fun _ => h₀) fun r s₁ h₁ hr₁ hl₁ => ?_
  rcases r with _ | fd
  · exact .raised h₁ hr₁
  refine exposed_bind h₁ hr₁ hl₁ fun r s₂ h₂ hr₂ hl₂ => ?_
  rcases r with _ | kind
  · exact .raised h₂ hr₂
  refine prepare_exposed h₂ hr₂ hl₂ fun prepared s₃ h₃ hr₃ hl₃ => ?_
  split
  · exact .raised h₃ hr₃
  refine request_bind fun capacity _ => ?_
  split
  · exact .raised h₃ hr₃
  refine request_bind fun initStatus _ => ?_
  split
  · exact .raised h₃ hr₃
  refine get_bind ?_
  have hkind : (if kind = kindTcp then Kind.tcp else .pipe).external = true ∧
      (if kind = kindTcp then Kind.tcp else .pipe).isPoll = false := by
    split <;> exact ⟨rfl, rfl⟩
  refine opened_bind h₃ hr₃ h₀ hl₃ hkind.1 hkind.2 fun s₄ h₄ hr₄ hl₄ hk => ?_
  have hopen := harmless_setOpen true
  refine act_bind (request_bind fun openStatus _ => ?_)
  have h₅ := h₄.update (i := s₃.handles.length) hopen
  have hr₅ := hr₄.trans (hopen.rely (i := s₃.handles.length))
  split
  · -- the handle is closed before the flag is cleared
    have hk₅ : ((s₄.setOpen s₃.handles.length true).handle s₃.handles.length).kind.external =
        true := by
      rw [setOpen, hopen.kind, hk, hkind.1]
    have h₆ : Inv (closeExternalHandle s₃.handles.length .onOpenFailed
        (s₄.setOpen s₃.handles.length true)) := h₅.closeExternalHandle hk₅ nofun
    refine act_bind (act_bind (.raised (h₆.update (harmless_setOpen false)) ?_))
    exact hr₅.trans (Rely.closeExternalHandle.trans (harmless_setOpen false).rely)
  · exact finished_wp (.returned h₅ hr₅ fun _ => hl₄)

theorem makeDatagram_wp (h : Inv s₀) :
    makeDatagram.wp env spec (Ends .makeDatagram s₀) s₀ := by
  refine get_bind ?_
  split
  · exact .raised h (.refl s₀)
  rename_i hopen
  have h₀ : s₀.closed = false := by simpa using hopen
  refine foreign_bind h (.refl s₀) fun r s₁ h₁ hr₁ _ => ?_
  rcases r with _ | fd
  · exact .raised h₁ hr₁
  refine foreign_bind h₁ hr₁ fun r s₂ h₂ hr₂ _ => ?_
  rcases r with _ | family
  · exact .raised h₂ hr₂
  refine foreign_bind h₂ hr₂ fun connected s₃ h₃ hr₃ _ => ?_
  refine prepare_foreign h₃ hr₃ fun prepared s₄ h₄ hr₄ => ?_
  split
  · exact .raised h₄ hr₄
  refine request_bind fun capacity _ => ?_
  split
  · exact .raised h₄ hr₄
  -- the last check, after which no Python code runs
  refine get_bind ?_
  split
  · exact .raised h₄ hr₄
  rename_i hchecked
  have hl₄ : Live s₄ := fun _ => by simpa using hchecked
  refine request_bind fun initStatus _ => ?_
  split
  · exact .raised h₄ hr₄
  refine opened_bind h₄ hr₄ h₀ hl₄ rfl rfl fun s₅ h₅ hr₅ hl₅ hk => ?_
  have hopen := harmless_setOpen true
  refine act_bind (request_bind fun openStatus _ => ?_)
  have h₆ := h₅.update (i := s₄.handles.length) hopen
  have hr₆ := hr₅.trans (hopen.rely (i := s₄.handles.length))
  split
  · have hshut := harmless_setOpen false
    have h₇ := h₆.update (i := s₄.handles.length) hshut
    have hk₇ : ((((s₅.setOpen s₄.handles.length true).setOpen s₄.handles.length false)).handle
        s₄.handles.length).kind.external = true := by
      rw [setOpen, hshut.kind, setOpen, hopen.kind, hk]
      rfl
    refine act_bind (act_bind (.raised (h₇.closeExternalHandle hk₇ nofun) ?_))
    exact hr₆.trans (hshut.rely.trans .closeExternalHandle)
  · exact finished_wp (.returned h₆ hr₆ fun _ => hl₅)

/-- What `shutdownAndClose` and `closeFromLoop` have in common. -/
theorem closeTransportFromLoop_wp {i : ℕ} (h : Inv s) (hkind : (s.handle i).kind.external = true) :
    (closeTransportFromLoop i).wp env spec (fun _ s' => Inv s' ∧ Rely s s' ∧ s'.isClosing i = true)
      s := by
  have hi := lt_of_external hkind
  have hshut := harmless_setOpen false
  refine act_bind (bind_wp ?_)
  refine foreign_bind (h.update (i := i) hshut) hshut.rely fun _ s₁ h₁ hr₁ _ => ?_
  refine foreign_bind h₁ hr₁ fun _ s₂ h₂ hr₂ _ => ?_
  -- it is still the same handle
  have hkind₂ : (s₂.handle i).kind.external = true := by rw [hr₂.kind i hi, hkind]
  exact ⟨h₂.closeExternalHandle hkind₂ nofun, hr₂.trans .closeExternalHandle,
    isClosing_closeExternalHandle (lt_of_external hkind₂)⟩

theorem shutdownAndClose_wp {i : ℕ} (h : Inv s) (hkind : (s.handle i).kind.external = true) :
    (shutdownAndClose i).wp env spec (fun _ s' => Inv s' ∧ Rely s s') s := by
  refine get_bind ?_
  rw [Prog.wp_ite]
  split
  · exact ⟨h, .refl s⟩
  · exact Prog.wp_mono (closeTransportFromLoop_wp h hkind) fun _ s' hs' => ⟨hs'.1, hs'.2.1⟩

end Transports

/-! ## Processes -/

section Processes

variable {s s₀ : State} {i : ℕ}

theorem Inv.closeProcess (h : Inv s) (hkind : (s.handle i).kind.external = true) :
    Inv (closeProcessFromLoop i s) ∧ Rely s (closeProcessFromLoop i s) ∧
      (closeProcessFromLoop i s).isClosing i = true := by
  have hshut := harmless_setOpen false
  have hkind' : ((s.setOpen i false).handle i).kind.external = true := by
    rw [setOpen, hshut.kind, hkind]
  exact ⟨(h.update hshut).closeExternalHandle hkind' nofun,
    hshut.rely.trans .closeExternalHandle, isClosing_closeExternalHandle (lt_of_external hkind')⟩

theorem Inv.closeHandle (h : Inv s) (hkind : (s.handle i).kind.external = true) :
    Inv (closeHandle i s) ∧ Rely s (closeHandle i s) := by
  unfold Handles.closeHandle
  split
  · exact ⟨(h.closeProcess hkind).1, (h.closeProcess hkind).2.1⟩
  · exact ⟨h, .refl s⟩

theorem onExit_wp (h : Inv s) (hkind : (s.handle i).kind.external = true) :
    (onExit i).wp env spec (fun _ s' => Inv s' ∧ Rely s s') s := by
  refine foreign_bind h (.refl s) fun r s₁ h₁ hr₁ _ => ?_
  have hkind₁ : (s₁.handle i).kind.external = true := by
    rw [hr₁.kind i (lt_of_external hkind), hkind]
  have hclosed := h₁.closeHandle hkind₁
  rcases r with _ | handle
  · exact ⟨hclosed.1, hr₁.trans hclosed.2⟩
  · exact ⟨hclosed.1, hr₁.trans hclosed.2⟩

theorem spawnProcess_wp (h : Inv s₀) : spawnProcess.wp env spec (Ends .spawnProcess s₀) s₀ := by
  refine get_bind ?_
  split
  · exact .raised h (.refl s₀)
  rename_i hopen
  have h₀ : s₀.closed = false := by simpa using hopen
  refine foreign_bind h (.refl s₀) fun r s₁ h₁ hr₁ _ => ?_
  rcases r with _ | strings
  · exact .raised h₁ hr₁
  refine request_bind fun memory _ => ?_
  split
  · exact .raised h₁ hr₁
  refine foreign_bind h₁ hr₁ fun r s₂ h₂ hr₂ _ => ?_
  rcases r with _ | stdio
  · exact .raised h₂ hr₂
  refine foreign_bind h₂ hr₂ fun r s₃ h₃ hr₃ _ => ?_
  rcases r with _ | obj
  · exact .raised h₃ hr₃
  refine request_bind fun capacity _ => ?_
  split
  · exact .raised h₃ hr₃
  refine foreign_bind h₃ hr₃ fun r s₄ h₄ hr₄ _ => ?_
  rcases r with _ | flags
  · exact .raised h₄ hr₄
  refine foreign_bind h₄ hr₄ fun r s₅ h₅ hr₅ _ => ?_
  rcases r with _ | uid
  · exact .raised h₅ hr₅
  refine foreign_bind h₅ hr₅ fun r s₆ h₆ hr₆ _ => ?_
  rcases r with _ | gid
  · exact .raised h₆ hr₆
  refine get_bind ?_
  split
  · exact .raised h₆ hr₆
  rename_i hchecked
  have hl₆ : Live s₆ := fun _ => by simpa using hchecked
  refine request_bind fun status _ => ?_
  refine opened_bind h₆ hr₆ h₀ hl₆ rfl rfl fun s₇ h₇ hr₇ hl₇ hk => ?_
  split
  · -- `uv_spawn` has linked the handle all the same
    have hk₇ : (s₇.handle s₆.handles.length).kind.external = true := by rw [hk]; rfl
    exact act_bind (.raised (h₇.closeExternalHandle hk₇ nofun) (hr₇.trans .closeExternalHandle))
  · have hopen := harmless_setOpen true
    exact act_bind (finished_wp (.returned (h₇.update hopen) (hr₇.trans hopen.rely) fun _ => hl₇))

end Processes

/-! ## Pollers -/

section Pollers

variable {s s₀ : State} {i : ℕ} {fd : ℤ}

theorem release_wp {slot : Option ℤ} (h : Inv s) (hr : Rely s₀ s) :
    (release slot).wp env spec (fun _ s' => Inv s' ∧ Rely s₀ s' ∧ Rely s s') s := by
  unfold release
  split
  · exact foreign_bind h hr fun _ s₁ h₁ hr₁ hrely => ⟨h₁, hr₁, hrely⟩
  · exact ⟨h, hr, .refl s⟩

theorem release_bind {α : Type} {slot : Option ℤ} {k : Unit → P α} {Q : α → State → Prop}
    (h : Inv s) (hr : Rely s₀ s)
    (hk : ∀ s', Inv s' → Rely s₀ s' → Rely s s' → (k ()).wp env spec Q s') :
    (release slot >>= k).wp env spec Q s :=
  bind_wp (Prog.wp_mono (release_wp h hr) fun _ s' hs' => hk s' hs'.1 hs'.2.1 hs'.2.2)

/-- Whatever is released, the handle is closed first. -/
theorem destroy_wp (h : Core s) (hw : WatchedBut s (some i))
    (hkind : (s.handle i).kind.external = true) :
    (destroy i).wp env spec (fun _ s' => Inv s' ∧ Rely s s' ∧ s'.isClosing i = true) s := by
  have htake := harmless_take
  have htaken : Core (s.takeCallbacks i) := h.update htake
  have hwtaken : WatchedBut (s.takeCallbacks i) (some i) := hw.update htake
  have hrtaken : Rely s (s.takeCallbacks i) := htake.rely
  have hkind' : ((s.takeCallbacks i).handle i).kind.external = true := by
    rw [takeCallbacks, htake.kind, hkind]
  let s₁ := closeExternalHandle i .onClosed (s.takeCallbacks i)
  have h₁ : Core s₁ := htaken.closeExternalHandle hkind' nofun
  have hw₁ : Watched s₁ := hwtaken.closeExternalHandle hkind'
  have hr₁ : Rely s s₁ := hrtaken.trans .closeExternalHandle
  have hc₁ : s₁.isClosing i = true := isClosing_closeExternalHandle (lt_of_external hkind')
  refine get_bind (act_bind (act_bind ?_))
  change Prog.wp env spec _ _ s₁
  clear_value s₁
  refine release_bind ⟨h₁, hw₁⟩ hr₁ fun s₂ h₂ hr₂ hrely₂ => ?_
  have hc₂ := hrely₂.closing i hc₁
  refine Prog.wp_mono (release_wp h₂ hr₂) fun _ s₃ hs₃ => ?_
  exact ⟨hs₃.1, hs₃.2.1, hs₃.2.2.closing i hc₂⟩

/-- A poller in the map is armed for what is registered, and destroyed if that is nothing. -/
theorem rearm_wp {e : EntryPoint} (h : Inv s) (hmem : (fd, i) ∈ s.pollers)
    (hlive : e.creates = true → Live s) :
    (rearm e i).wp env spec (fun _ s' => Inv s' ∧ Rely s s' ∧
      (interest (s.handle i) ≠ {} → Live s → Live s')) s := by
  have hkind := h.core.pollers fd i hmem
  refine get_bind ?_
  split
  · exact ⟨h, .refl s, fun _ => id⟩
  have hset := harmless_events (interest (s.handle i))
  have h₁ := h.update (i := i) hset
  have hr₁ := hset.rely (s := s) (i := i)
  refine act_bind ?_
  split
  · rename_i hnothing
    have hfd : (s.handle i).fd = fd := by rw [Handle.fd, hkind]
    refine act_bind (bind_wp ?_)
    rw [hfd]
    -- the map loses sight of the handle until it is closed
    have hw₂ : WatchedBut (removePoller fd (s.update i fun h =>
        { h with events := interest (s.handle i) })) (some i) := h₁.removePoller hmem
    have hkind₂ : ((removePoller fd (s.update i fun h =>
        { h with events := interest (s.handle i) })).handle i).kind.external = true := by
      change ((s.update i _).handle i).kind.external = true
      rw [hset.kind, hkind]
      rfl
    refine Prog.wp_mono (destroy_wp h₁.core.removePoller hw₂ hkind₂) fun _ s₂ hs₂ => ?_
    refine ⟨hs₂.1, hr₁.trans (Rely.removePoller.trans hs₂.2.1), fun hne => ?_⟩
    exact absurd hnothing hne
  · refine request_bind fun status _ => ?_
    split
    · exact ⟨h₁, hr₁, fun _ => id⟩
    · have hr₂ := Rely.recorded (s := s.update i fun h =>
        { h with events := interest (s.handle i) }) e .start
      refine act_bind ⟨h₁.recorded hlive, hr₁.trans hr₂, fun _ hl hc => ?_⟩
      unfold made at hc ⊢
      split at hc
      · rename_i hclosed
        exact absurd (hl hc) (hclosed ▸ nofun)
      · split
        · contradiction
        · exact hl hc

/-- `get` finds the poller of a descriptor, or makes one and puts it into the map. -/
theorem get_wp (h : Inv s) (hr : Rely s₀ s) (h₀ : s₀.closed = false) (hlive : Live s) :
    (get fd).wp env spec (fun r s' => Inv s' ∧ Rely s₀ s' ∧ Live s' ∧
      ∀ i, r = .ok i → (fd, i) ∈ s'.pollers) s := by
  refine get_bind ?_
  split
  · rename_i i hsome
    refine ⟨h, hr, hlive, fun j heq => ?_⟩
    cases heq
    exact mem_of_poller hsome
  rename_i hnone
  refine request_bind fun memory _ => ?_
  split
  · exact ⟨h, hr, hlive, nofun⟩
  refine request_bind fun status _ => ?_
  split
  · exact ⟨h, hr, hlive, nofun⟩
  -- the new handle is counted, but not in the map yet
  have h₁ := h.core.opened (e := .add) (k := .poll fd) rfl hlive
  have hw₁ := Watched.opened (e := .add) (k := .poll fd) h.watched
  have hr₁ := hr.opened (e := .add) (k := .poll fd) h₀
  have hl₁ : Live (s.opened .add (.poll fd)) :=
    fun hc => closed_opened.trans (hlive (careless_opened ▸ hc))
  have hkind₁ : ((s.opened .add (.poll fd)).handle s.handles.length).kind = .poll fd := by
    rw [handle_opened_self]
  have hnone₁ : (s.opened .add (.poll fd)).poller fd = none := by
    rw [poller, pollers_opened]
    exact hnone
  refine act_bind (act_bind (act_bind (request_bind fun room _ => ?_)))
  change Prog.wp env spec _ _ (s.opened .add (.poll fd))
  generalize s.opened .add (.poll fd) = s₁ at h₁ hw₁ hr₁ hl₁ hkind₁ hnone₁ ⊢
  split
  · have hext : (s₁.handle s.handles.length).kind.external = true := by rw [hkind₁]; rfl
    have hr₂ : Rely s₀ (closeExternalHandle s.handles.length .onClosed s₁) :=
      hr₁.trans .closeExternalHandle
    refine act_bind ⟨⟨h₁.closeExternalHandle hext nofun, hw₁.closeExternalHandle hext⟩, hr₂,
      ?_, nofun⟩
    unfold closeExternalHandle
    split
    · exact hl₁
    · exact hl₁
  · refine act_bind ⟨⟨h₁.putPoller hkind₁ hnone₁, hw₁.putPoller hkind₁⟩, ?_, hl₁, ?_⟩
    · exact hr₁.trans (.of_eq rfl rfl rfl rfl)
    · rintro i heq
      cases heq
      exact List.mem_cons_self

/-- A registered callback is something to poll for. -/
theorem interest_setSlot (writer : Bool) (callback : ℤ) (h : Handle) :
    interest (h.setSlot writer (some callback)) ≠ {} := by
  cases writer <;> simp [interest, Handle.setSlot]

theorem add_wp (writer : Bool) (h : Inv s₀) :
    (add writer).wp env spec (Ends .add s₀) s₀ := by
  refine get_bind ?_
  split
  · exact .raised h (.refl s₀)
  rename_i hopen
  have h₀ : s₀.closed = false := by simpa using hopen
  refine foreign_bind h (.refl s₀) fun r s₁ h₁ hr₁ _ => ?_
  rcases r with _ | fd
  · exact .raised h₁ hr₁
  refine foreign_bind h₁ hr₁ fun r s₂ h₂ hr₂ _ => ?_
  rcases r with _ | callback
  · exact .raised h₂ hr₂
  refine get_bind ?_
  split
  · exact foreign_bind h₂ hr₂ fun _ s₃ h₃ hr₃ _ => .raised h₃ hr₃
  rename_i hchecked
  have hl₂ : Live s₂ := fun _ => by simpa using hchecked
  refine bind_wp (Prog.wp_mono (get_wp h₂ hr₂ h₀ hl₂) fun r s₃ hs₃ => ?_)
  obtain ⟨h₃, hr₃, hl₃, hmem₃⟩ := hs₃
  rcases r with exc | i
  · exact foreign_bind h₃ hr₃ fun _ s₄ h₄ hr₄ _ => .raised h₄ hr₄
  have hmem := hmem₃ i rfl
  have hslot := harmless_setSlot writer (some callback)
  have h₄ := h₃.update (i := i) hslot
  have hr₄ := hr₃.trans (hslot.rely (i := i))
  refine get_bind (act_bind (bind_wp ?_))
  refine Prog.wp_mono (rearm_wp h₄ hmem fun _ => hl₃) fun armed s₅ hs₅ => ?_
  obtain ⟨h₅, hrely₅, hlive₅⟩ := hs₅
  have hr₅ := hr₄.trans hrely₅
  have hl₅ : Live s₅ := by
    refine hlive₅ ?_ hl₃
    rw [handle_update_self (lt_of_poll (h₃.core.pollers fd i hmem))]
    exact interest_setSlot writer callback _
  refine get_bind (release_bind h₅ hr₅ fun s₆ h₆ hr₆ hr₅₆ => ?_)
  rcases armed with exc | ⟨⟨⟩⟩
  · exact .raised h₆ hr₆
  · refine ⟨h₆, hr₆, fun he heq => ?_⟩
    -- the result was fixed before anything was released
    exact hr₅₆.careless ((Ends.returned h₅ hr₅ fun _ => hl₅).2.2 he heq)

theorem remove_wp (writer : Bool) (h : Inv s₀) :
    (remove writer).wp env spec (Ends .remove s₀) s₀ := by
  refine foreign_bind h (.refl s₀) fun r s₁ h₁ hr₁ _ => ?_
  rcases r with _ | fd
  · exact .raised h₁ hr₁
  refine get_bind ?_
  split
  · exact finished_wp (.returned h₁ hr₁ nofun)
  rename_i i hsome
  have hmem := mem_of_poller hsome
  split
  · exact finished_wp (.returned h₁ hr₁ nofun)
  have hslot := harmless_setSlot writer none
  have hr₂ := hr₁.trans (hslot.rely (i := i))
  refine act_bind (bind_wp ?_)
  refine Prog.wp_mono (rearm_wp (h₁.update (i := i) hslot) hmem nofun) fun armed s₃ hs₃ => ?_
  refine get_bind (foreign_bind hs₃.1 (hr₂.trans hs₃.2.1) fun _ s₄ h₄ hr₄ _ => ?_)
  rcases armed with exc | ⟨⟨⟩⟩
  · exact .raised h₄ hr₄
  · exact ⟨h₄, hr₄, nofun⟩

theorem onPoll_wp {status : ℤ} (h : Inv s) (hkind : (s.handle i).kind = .poll fd)
    (hopen : s.isClosing i = false) :
    (onPoll i status).wp env spec (fun _ s' => Inv s' ∧ Rely s s') s := by
  unfold onPoll
  split
  · have hset := harmless_events {}
    have hmem : (fd, i) ∈ s.pollers := h.watched i fd hkind hopen nofun
    have hr₁ := hset.rely (s := s) (i := i)
    refine act_bind (bind_wp ?_)
    refine Prog.wp_mono (rearm_wp (h.update (i := i) hset) hmem nofun) fun armed s₂ hs₂ => ?_
    rcases armed with exc | ⟨⟨⟩⟩
    · exact foreign_bind hs₂.1 (hr₁.trans hs₂.2.1) fun _ s₃ h₃ hr₃ _ => ⟨h₃, hr₃⟩
    · exact ⟨hs₂.1, hr₁.trans hs₂.2.1⟩
  · exact ⟨h, .refl s⟩

end Pollers

/-! ## Resolver requests and the sampler -/

section Requests

variable {s s₀ : State} {e : EntryPoint}

theorem freeRequest_wp (h : Inv s) (hr : Rely s₀ s) :
    freeRequest.wp env spec (fun _ s' => Inv s' ∧ Rely s₀ s') s := by
  refine act_bind (foreign_bind (h.of_eq rfl rfl rfl rfl rfl rfl id rfl rfl) ?_
    fun _ s₁ h₁ hr₁ _ => ⟨h₁, hr₁⟩)
  exact hr.trans (.of_eq rfl rfl rfl rfl)

theorem live_made {a : Action} (hlive : Live s) : Live (made e a s) := by
  unfold made
  split
  · exact hlive
  · exact hlive

/-- A request is linked as soon as its future is there. -/
theorem allocRequest_wp (h : Inv s) (hr : Rely s₀ s) (hlive : Live s) :
    (allocRequest e).wp env spec (fun _ s' => Inv s' ∧ Rely s₀ s' ∧ Live s') s := by
  refine request_bind fun memory _ => ?_
  split
  · exact ⟨h, hr, hlive⟩
  refine exposed_bind h hr hlive fun r s₁ h₁ hr₁ hl₁ => ?_
  rcases r with _ | future
  · exact ⟨h₁, hr₁, hl₁⟩
  have h₂ : Inv { s₁ with requests := s₁.requests + 1 } :=
    h₁.of_eq rfl rfl rfl rfl rfl rfl id rfl rfl
  have hr₂ : Rely s₀ { s₁ with requests := s₁.requests + 1 } :=
    hr₁.trans (.of_eq rfl rfl rfl rfl)
  refine bind_wp (act_bind ⟨h₂.recorded fun _ => hl₁, hr₂.trans (.recorded ..), ?_⟩)
  exact live_made (s := { s₁ with requests := s₁.requests + 1 }) hl₁

theorem submitRequest_wp (h : Inv s) (hr : Rely s₀ s) (hlive : Live s) :
    (submitRequest e).wp env spec (Ends e s₀) s := by
  refine request_bind fun status _ => ?_
  split
  · refine foreign_bind h hr fun _ s₁ h₁ hr₁ _ => bind_wp ?_
    exact Prog.wp_mono (freeRequest_wp h₁ hr₁) fun _ s₂ hs₂ => .raised hs₂.1 hs₂.2
  · exact act_bind (finished_wp (.returned (h.recorded fun _ => hlive) (hr.trans (.recorded ..))
      fun _ => live_made hlive))

theorem getaddrinfo_wp (h : Inv s₀) : getaddrinfo.wp env spec (Ends .getaddrinfo s₀) s₀ := by
  refine get_bind ?_
  split
  · exact .raised h (.refl s₀)
  refine prepare_foreign h (.refl s₀) fun prepared s₁ h₁ hr₁ => ?_
  split
  · exact .raised h₁ hr₁
  refine get_bind ?_
  split
  · exact .raised h₁ hr₁
  rename_i hchecked
  have hl₁ : Live s₁ := fun _ => by simpa using hchecked
  refine request_bind fun literal _ => ?_
  split
  · exact .raised h₁ hr₁
  split
  · -- nothing is made for a literal, so what `create_future` does is of no concern
    have hends := Ends.returned (e := .getaddrinfo) h₁ hr₁ fun _ => hl₁
    refine get_bind (foreign_bind h₁ hr₁ fun r s₂ h₂ hr₂ hrely₂ => ?_)
    rcases r with _ | future
    · exact .raised h₂ hr₂
    refine foreign_bind h₂ hr₂ fun _ s₃ h₃ hr₃ hrely₃ => ⟨h₃, hr₃, fun he heq => ?_⟩
    exact hrely₃.careless (hrely₂.careless (hends.2.2 he heq))
  · refine bind_wp (Prog.wp_mono (allocRequest_wp h₁ hr₁ hl₁) fun r s₂ hs₂ => ?_)
    obtain ⟨h₂, hr₂, hl₂⟩ := hs₂
    rcases r with exc | ⟨⟨⟩⟩
    · exact .raised h₂ hr₂
    refine get_bind ?_
    split
    · exact bind_wp (Prog.wp_mono (freeRequest_wp h₂ hr₂) fun _ s₃ hs₃ => .raised hs₃.1 hs₃.2)
    · exact submitRequest_wp h₂ hr₂ hl₂

theorem getnameinfo_wp (h : Inv s₀) : getnameinfo.wp env spec (Ends .getnameinfo s₀) s₀ := by
  refine get_bind ?_
  split
  · exact .raised h (.refl s₀)
  rename_i hopen
  have h₀ : s₀.closed = false := by simpa using hopen
  refine exposed_bind h (.refl s₀) (fun _ => h₀) fun r s₁ h₁ hr₁ hl₁ => ?_
  rcases r with _ | address
  · exact .raised h₁ hr₁
  refine exposed_bind h₁ hr₁ hl₁ fun r s₂ h₂ hr₂ hl₂ => ?_
  rcases r with _ | flags
  · exact .raised h₂ hr₂
  refine bind_wp (Prog.wp_mono (allocRequest_wp h₂ hr₂ hl₂) fun r s₃ hs₃ => ?_)
  obtain ⟨h₃, hr₃, hl₃⟩ := hs₃
  rcases r with exc | ⟨⟨⟩⟩
  · exact .raised h₃ hr₃
  · exact submitRequest_wp h₃ hr₃ hl₃

theorem onResolved_wp (h : Inv s) :
    onResolved.wp env spec (fun _ s' => Inv s' ∧ Rely s s') s :=
  foreign_bind h (.refl s) fun _ _ h₁ hr₁ _ => freeRequest_wp h₁ hr₁

/-- A timer that is closing is not started, and the timer closes with the loop. -/
theorem startMetrics_wp (h : Inv s₀) : startMetrics.wp env spec (Ends .startMetrics s₀) s₀ := by
  refine get_bind ?_
  split
  · exact .raised h (.refl s₀)
  rename_i hopen
  have h₀ : s₀.closed = false := by simpa using hopen
  refine foreign_bind h (.refl s₀) fun r s₁ h₁ hr₁ _ => ?_
  rcases r with _ | interval
  · exact .raised h₁ hr₁
  dsimp only
  split
  · exact .raised h₁ hr₁
  refine foreign_bind h₁ hr₁ fun _ s₂ h₂ hr₂ _ => request_bind fun status hstatus => ?_
  split
  · exact .raised h₂ hr₂
  rename_i hstarted
  have hl₂ : Live s₂ := by
    intro _
    cases hc : s₂.closed with
    | false => rfl
    | true => exact absurd (hstatus rfl (hr₂.swept h₀ hc sampler h.core.sampler)) hstarted
  exact act_bind (finished_wp (.returned (h₂.recorded fun _ => hl₂) (hr₂.trans (.recorded ..))
    fun _ => live_made hl₂))

end Requests

/-! ## Close callbacks -/

section Closing

variable {s s₀ : State} {i : ℕ}

/-- libuv runs the callback that `uv_close` was given, and that is the right one. -/
theorem onClosed_wp (h : Inv s) (hclosing : s.isClosing i = true)
    (hopen : (s.handle i).closed = false) :
    (onClosed i).wp env spec (fun _ s' => Inv s' ∧ Rely s s') s := by
  obtain ⟨cb, hcb⟩ := Option.isSome_iff_exists.mp hclosing
  have howned := h.core.owned i cb hcb
  refine get_bind (act_bind ?_)
  rw [hcb, Prog.wp_ite]
  split
  · rename_i hne
    have hkind := howned.mp fun heq => hne (congrArg some heq)
    refine act_bind (foreign_bind (h.onClosed hclosing hopen hkind) .onClosed
      fun _ s₁ h₁ hr₁ _ => ?_)
    exact foreign_bind h₁ hr₁ fun _ s₂ h₂ hr₂ _ => ⟨h₂, hr₂⟩
  · rename_i heq
    have hfree : cb = .onCloseFreeState := Option.some.inj (not_not.mp heq)
    have hkind : (s.handle i).kind.external = false := by
      cases hk : (s.handle i).kind.external with
      | false => rfl
      | true => exact absurd hfree (howned.mpr hk)
    exact ⟨h.retired hclosing hkind, .retired⟩

/-! ## The end of the loop -/

/-- A loop over a list, with what holds of the elements that are left. -/
theorem forEach_wp {α : Type} {f : α → P Unit} {I : List α → State → Prop}
    (hstep : ∀ a as s, I (a :: as) s → (f a).wp env spec (fun _ s' => I as s') s) {l : List α}
    (h : I l s) : (forEach l f).wp env spec (fun _ s' => I [] s') s := by
  induction l generalizing s with
  | nil => exact h
  | cons a as ih => exact bind_wp (Prog.wp_mono (hstep a as s h) fun _ s' hs' => ih hs')

/-- Every poll handle is closing. -/
def Swept (s : State) : Prop := ∀ i fd, (s.handle i).kind = .poll fd → s.isClosing i = true

/-- On a closed loop that stays so. -/
theorem Swept.rely {s' : State} (h : Swept s) (hclosed : s.closed = true) (hr : Rely s s') :
    Swept s' := by
  intro i fd hkind
  have hi : i < s.handles.length := hr.made hclosed ▸ lt_of_poll hkind
  rw [hr.kind i hi] at hkind
  exact hr.closing i (h i fd hkind)

/-- `closeAll` closes every poll handle, whatever the finalizers that run meanwhile remove. -/
theorem closeAll_wp (h : Inv s) (hr : Rely s₀ s) (hclosed : s.closed = true) :
    closeAll.wp env spec (fun _ s' => Inv s' ∧ Rely s₀ s' ∧ s'.closed = true ∧ Swept s') s := by
  -- the poll handles that are not closing are those the iterator has yet to reach
  let I : List (ℤ × ℕ) → State → Prop := fun rest s' => Inv s' ∧ Rely s₀ s' ∧ s'.closed = true ∧
    ∀ i fd, (s'.handle i).kind = .poll fd → s'.isClosing i = false → (fd, i) ∈ rest
  have hstart : I s.pollers s := ⟨h, hr, hclosed, fun i fd hkind hopen =>
    h.watched i fd hkind hopen nofun⟩
  refine get_bind (bind_wp (Prog.wp_mono (forEach_wp (I := I) ?_ hstart) ?_))
  · rintro ⟨fd, i⟩ rest s₁ ⟨h₁, hr₁, hclosed₁, hrest₁⟩
    refine get_bind ?_
    rw [Prog.wp_ite]
    split
    · rename_i hmem
      have hkind : (s₁.handle i).kind.external = true := by rw [h₁.core.pollers fd i hmem]; rfl
      refine Prog.wp_mono (destroy_wp h₁.core (WatchedBut.mono h₁.watched) hkind) ?_
      rintro - s₂ ⟨h₂, hr₂, hclosing₂⟩
      refine ⟨h₂, hr₁.trans hr₂, hr₂.closed hclosed₁, fun j fd' hj hopen => ?_⟩
      -- no handle is new, and none has been reopened
      have hlt : j < s₁.handles.length := hr₂.made hclosed₁ ▸ lt_of_poll hj
      rw [hr₂.kind j hlt] at hj
      have hopen₁ : s₁.isClosing j = false := by
        cases hc : s₁.isClosing j with
        | false => rfl
        | true => exact absurd (hr₂.closing j hc) (hopen ▸ nofun)
      rcases List.mem_cons.mp (hrest₁ j fd' hj hopen₁) with heq | hmem'
      · cases heq
        exact absurd hclosing₂ (hopen ▸ nofun)
      · exact hmem'
    · rename_i hnot
      refine ⟨h₁, hr₁, hclosed₁, fun j fd' hj hopen => ?_⟩
      rcases List.mem_cons.mp (hrest₁ j fd' hj hopen) with heq | hmem'
      · cases heq
        exact absurd (h₁.watched _ _ hj hopen nofun) hnot
      · exact hmem'
  · rintro - s₁ ⟨h₁, hr₁, hclosed₁, hrest₁⟩
    have hswept : Swept s₁ := by
      intro i fd hkind
      cases hc : s₁.isClosing i with
      | true => rfl
      | false => exact absurd (hrest₁ i fd hkind hc) List.not_mem_nil
    refine ⟨⟨{ h₁.core with pollers := ?_, unique := ?_ }, fun i fd hkind hopen => ?_⟩,
      hr₁.trans (.of_eq rfl rfl rfl rfl), hclosed₁, hswept⟩
    · exact fun _ _ hmem => absurd hmem List.not_mem_nil
    · exact fun _ _ _ hmem => absurd hmem List.not_mem_nil
    · exact absurd (hswept i fd hkind) (hopen ▸ nofun)

/-- `uv_close` of a handle that is not counted. -/
theorem Inv.closeFree (h : Inv s) (hopen : s.isClosing i = false)
    (hkind : (s.handle i).kind.external = false) : Inv (uvClose i .onCloseFreeState s) := by
  by_cases hi : i < s.handles.length
  · have hfree : (CloseCb.onCloseFreeState ≠ .onCloseFreeState ↔
        (s.handle i).kind.external = true) := by simp [hkind]
    exact ⟨h.core.uvClose (n := s.closing) hi hopen hfree (by rw [hkind]; rfl),
      (WatchedBut.mono h.watched).uvClose hi s.closing⟩
  · have hsame : uvClose i .onCloseFreeState s = s := by
      rw [uvClose, State.update, List.modify_eq_self (by omega)]
    rw [hsame]
    exact h

/-- `walkClose` closes a handle of each kind with its own callback. Poll handles are closing by
then. -/
theorem walkClose_wp (h : Inv s) (hswept : Swept s) :
    (walkClose i).wp env spec (fun _ s' => Inv s' ∧ Rely s s') s := by
  refine get_bind ?_
  split
  · exact ⟨h, .refl s⟩
  rename_i hnot
  have hopen : s.isClosing i = false := by simpa using hnot
  have htransport : (s.handle i).kind.external = true →
      (closeTransportFromLoop i).wp env spec (fun _ s' => Inv s' ∧ Rely s s') s := fun hkind =>
    Prog.wp_mono (closeTransportFromLoop_wp h hkind) fun _ s' hs' => ⟨hs'.1, hs'.2.1⟩
  cases hkind : (s.handle i).kind with
  | tcp => exact htransport (by rw [hkind]; rfl)
  | pipe => exact htransport (by rw [hkind]; rfl)
  | udp => exact htransport (by rw [hkind]; rfl)
  | process =>
    have hclosed := h.closeProcess (i := i) (by rw [hkind]; rfl)
    exact ⟨hclosed.1, hclosed.2.1⟩
  | poll fd => exact absurd (hswept i fd hkind) (hopen ▸ nofun)
  | internal => exact ⟨h.closeFree hopen (by rw [hkind]; rfl), .uvClose⟩

/-- Nothing is left to run for. -/
theorem linked_eq_nil (h : s.linked = []) : ∀ i < s.handles.length, (s.handle i).closed = true := by
  intro i hi
  have := List.filter_eq_nil_iff.mp h i (List.mem_range.mpr hi)
  simpa using this

theorem drain_wp (h : Inv s) : drain.wp env spec (fun _ s' => spec.post .drain s s') s := by
  refine get_bind ?_
  rw [Prog.wp_ite]
  split
  · refine foreign_bind h (.refl s) fun _ s₁ h₁ hr₁ _ => ⟨h₁, fun s₂ hs₂ => ?_⟩
    exact ⟨hs₂.1, hr₁.trans hs₂.2.1, hs₂.2.2⟩
  · rename_i hnil
    exact ⟨h, .refl s, linked_eq_nil (not_not.mp hnil)⟩

/-- When every close callback has run, nothing is counted. -/
theorem Core.drained (h : Core s) (hclosed : ∀ i < s.handles.length, (s.handle i).closed = true) :
    s.external = 0 ∧ s.closing = 0 := by
  have hnone : ∀ hd ∈ s.handles, hd.counted = false := by
    intro hd hmem
    obtain ⟨i, hi, rfl⟩ := List.getElem_of_mem hmem
    rw [getElem_eq_handle hi, Handle.counted, hclosed i hi]
    simp
  constructor
  · rw [h.external, List.countP_eq_zero]
    exact fun hd hmem => by simp [hnone hd hmem]
  · rw [h.closing, List.countP_eq_zero]
    exact fun hd hmem => by simp [Handle.countedClosing, hnone hd hmem]

/-- `closeAllHandles` closes every handle, and its assertion holds. -/
theorem closeAllHandles_wp (h : Inv s) (hr : Rely s₀ s) (hclosed : s.closed = true)
    (hswept : Swept s) :
    closeAllHandles.wp env spec (fun _ s' => Inv s' ∧ Rely s₀ s' ∧
      ∀ i < s₀.handles.length, s'.isClosing i = true) s := by
  let I : List ℕ → State → Prop := fun _ s' => Inv s' ∧ Rely s₀ s' ∧ s'.closed = true ∧ Swept s'
  have hstart : I s.linked s := ⟨h, hr, hclosed, hswept⟩
  refine get_bind (bind_wp (Prog.wp_mono (forEach_wp (I := I) ?_ hstart) ?_))
  · rintro i rest s₁ ⟨h₁, hr₁, hclosed₁, hswept₁⟩
    refine Prog.wp_mono (walkClose_wp h₁ hswept₁) fun _ s₂ hs₂ => ?_
    exact ⟨hs₂.1, hr₁.trans hs₂.2, hs₂.2.closed hclosed₁, hswept₁.rely hclosed₁ hs₂.2⟩
  rintro - s₁ ⟨h₁, hr₁, -, -⟩
  refine drain_bind h₁ fun s₂ h₂ hr₂ hall => ?_
  obtain ⟨hexternal, hclosing⟩ := h₂.core.drained hall
  -- every handle there was is still there, and closed
  have hclosing₂ : ∀ i < s₀.handles.length, s₂.isClosing i = true := fun i hi =>
    h₂.core.closed i (hall i (Nat.lt_of_lt_of_le hi (hr₁.trans hr₂).length))
  have hr₃ : Rely s₂ { s₂ with asserts := s₂.asserts ++ [s₂.external == 0 && s₂.closing == 0] } :=
    .of_eq rfl rfl rfl rfl
  have h₃ : Inv { s₂ with asserts := s₂.asserts ++ [s₂.external == 0 && s₂.closing == 0] } := by
    refine ⟨{ h₂.core with asserts := fun b hb => ?_ }, h₂.watched⟩
    rcases List.mem_append.mp hb with hb | hb
    · exact h₂.core.asserts b hb
    · rw [List.mem_singleton.mp hb, hexternal, hclosing]
      rfl
  refine act_bind (request_bind fun status _ => ?_)
  have hdone : ∀ s₄, Inv s₄ → Rely s₂ s₄ → Inv s₄ ∧ Rely s₀ s₄ ∧
      ∀ i < s₀.handles.length, s₄.isClosing i = true := fun s₄ h₄ hr₄ =>
    ⟨h₄, (hr₁.trans hr₂).trans hr₄, fun i hi => hr₄.closing i (hclosing₂ i hi)⟩
  split
  · exact hdone _ h₃ hr₃
  refine get_bind ?_
  dsimp only
  split
  · refine foreign_bind h₃ hr₃ fun _ s₄ h₄ hr₄ _ => request_bind fun thread _ => ?_
    split
    · exact hdone s₄ h₄ hr₄
    · exact foreign_bind h₄ hr₄ fun _ s₅ h₅ hr₅ _ => hdone s₅ h₅ hr₅
  · exact foreign_bind h₃ hr₃ fun _ s₄ h₄ hr₄ _ => hdone s₄ h₄ hr₄

/-- The loop closes. -/
theorem teardown_wp (h : Inv s) (hclosed : s.closed = true) :
    teardown.wp env spec (fun _ s' => Inv s' ∧ Rely s s' ∧
      ∀ i < s.handles.length, s'.isClosing i = true) s := by
  refine foreign_bind h (.refl s) fun _ s₁ h₁ hr₁ _ => bind_wp ?_
  refine Prog.wp_mono (closeAll_wp h₁ hr₁ (hr₁.closed hclosed)) ?_
  rintro - s₂ ⟨h₂, hr₂, hclosed₂, hswept₂⟩
  exact closeAllHandles_wp h₂ hr₂ hclosed₂ hswept₂

theorem Inv.markClosed (h : Inv s) : Inv (markClosed s) :=
  h.of_eq rfl rfl rfl rfl rfl rfl (fun hc => by simp [State.markClosed, hc]) rfl rfl

/-- Whoever closes the loop closes every handle, and is careless in the middle of an unchecked
call. -/
theorem Rely.after_teardown {s' : State} (h₀ : s.closed = false) (hr : Rely (markClosed s) s')
    (hall : ∀ i < s.handles.length, s'.isClosing i = true) : Rely s s' where
  closed := fun hc => absurd (h₀.symm.trans hc) nofun
  length := hr.length
  made := fun hc => absurd (h₀.symm.trans hc) nofun
  kind := hr.kind
  closing := hr.closing
  swept := fun _ _ => hall
  unchecked := hr.unchecked
  careless := fun hc => hr.careless (by simp [State.markClosed, hc])
  guarded := fun hc hne =>
    absurd (hr.careless (by simp [State.markClosed, h₀, hne])) (hc ▸ nofun)

theorem closeLoop_wp (h : Inv s₀) : closeLoop.wp env spec (Ends .closeLoop s₀) s₀ := by
  refine get_bind ?_
  split
  · exact .raised h (.refl s₀)
  split
  · exact finished_wp (.returned h (.refl s₀) nofun)
  rename_i hopen
  have h₀ : s₀.closed = false := by simpa using hopen
  refine act_bind (bind_wp (Prog.wp_mono (teardown_wp h.markClosed rfl) ?_))
  rintro - s₁ ⟨h₁, hr₁, hall₁⟩
  exact finished_wp (.returned h₁ (.after_teardown h₀ hr₁ hall₁) nofun)

theorem dealloc_wp (h : Inv s) : dealloc.wp env spec (fun _ s' => Inv s' ∧ Rely s s') s := by
  refine get_bind (act_bind ?_)
  split
  · rename_i hclosed
    have hr : Rely s (markClosed s) := by
      refine .of_eq rfl hclosed.symm rfl ?_
      simp [State.markClosed, hclosed]
    exact foreign_bind h.markClosed hr fun _ s₁ h₁ hr₁ _ => ⟨h₁, hr₁⟩
  · rename_i hopen
    have h₀ : s.closed = false := by simpa using hopen
    refine Prog.wp_mono (teardown_wp h.markClosed rfl) ?_
    rintro - s₁ ⟨h₁, hr₁, hall₁⟩
    exact ⟨h₁, .after_teardown h₀ hr₁ hall₁⟩

theorem runLoop_wp (h : Inv s₀) : runLoop.wp env spec (Ends .runLoop s₀) s₀ := by
  refine get_bind ?_
  split
  · exact .raised h (.refl s₀)
  split
  · exact .raised h (.refl s₀)
  have hr : Rely s₀ { s₀ with running := true } := .of_eq rfl rfl rfl rfl
  refine act_bind (foreign_bind (h.of_eq rfl rfl rfl rfl rfl rfl id rfl rfl) hr
    fun _ s₁ h₁ hr₁ _ => act_bind ?_)
  have hr₂ : Rely s₀ { s₁ with running := false } := hr₁.trans (.of_eq rfl rfl rfl rfl)
  exact foreign_bind (h₁.of_eq rfl rfl rfl rfl rfl rfl id rfl rfl) hr₂
    fun _ s₂ h₂ hr₃ _ => finished_wp (.returned h₂ hr₃ nofun)

end Closing

/-! ## The system -/

/-- The end of a call is recorded. -/
theorem call_wp {e : EntryPoint} {p : P Outcome} {s₀ : State}
    (h : p.wp env spec (Ends e s₀) s₀) :
    (call e p).wp env spec (fun _ s' => Inv s' ∧ Rely s₀ s') s₀ := by
  refine bind_wp (Prog.wp_mono h fun outcome s hs => ?_)
  obtain ⟨hinv, hr, hends⟩ := hs
  refine ⟨⟨{ hinv.core with calls := fun hc e' he' hmem => ?_ }, hinv.watched⟩,
    hr.trans (.of_eq rfl rfl rfl rfl)⟩
  rcases List.mem_append.mp hmem with hmem | hmem
  · exact hinv.core.calls hc e' he' hmem
  · cases List.mem_singleton.mp hmem
    exact absurd (hends he' rfl) (hc ▸ nofun)

theorem inv_init : Inv init := by
  refine ⟨⟨by decide, by decide, rfl, fun _ h => absurd h List.not_mem_nil, fun i h => ?_,
    fun i cb h => ?_, fun _ _ h => absurd h List.not_mem_nil,
    fun _ _ _ h => absurd h List.not_mem_nil, by decide,
    fun _ _ h => absurd h List.not_mem_nil, fun _ _ _ => List.not_mem_nil⟩, fun i fd h => ?_⟩
  all_goals
    have hnew : init.handle i = { kind := .internal } := by
      unfold State.handle init
      rw [List.getD_eq_getElem?_getD, List.getElem?_replicate]
      split <;> rfl
    rw [hnew] at h
    cases h

/-- The loop and everything that makes or closes its handles is verified. -/
theorem verified : Verified system env spec where
  rely_refl := Rely.refl
  rely_trans := fun _ _ _ => Rely.trans
  init := inv_init
  body := fun .drain _ h => drain_wp h
  entry := by
    intro stack s op hstart h _
    cases op with
    | makeTransport => exact call_wp (makeTransport_wp h)
    | makeDatagram => exact call_wp (makeDatagram_wp h)
    | add writer => exact call_wp (add_wp writer h)
    | remove writer => exact call_wp (remove_wp writer h)
    | getaddrinfo => exact call_wp (getaddrinfo_wp h)
    | getnameinfo => exact call_wp (getnameinfo_wp h)
    | spawnProcess => exact call_wp (spawnProcess_wp h)
    | startMetrics => exact call_wp (startMetrics_wp h)
    | shutdownAndClose i =>
      refine shutdownAndClose_wp h ?_
      cases hkind : (s.handle i).kind with
      | tcp | pipe | udp => rfl
      | poll fd =>
        change (s.handle i).kind.transport = true at hstart
        rw [hkind] at hstart
        cases hstart
      | process | internal =>
        change (s.handle i).kind.transport = true at hstart
        rw [hkind] at hstart
        cases hstart
    | closeLoop => exact call_wp (closeLoop_wp h)
    | runLoop => exact call_wp (runLoop_wp h)
    | dealloc => exact dealloc_wp h
    | onClosed i => exact onClosed_wp h hstart.2.1 hstart.2.2
    | onPoll i status =>
      obtain ⟨-, hpoll, hopen⟩ := hstart
      cases hkind : (s.handle i).kind with
      | poll fd => exact onPoll_wp h hkind hopen
      | tcp | pipe | udp | process | internal =>
        rw [hkind] at hpoll
        cases hpoll
    | onExit i => exact onExit_wp h (by rw [hstart.2.1]; rfl)
    | onResolved => exact onResolved_wp h
    | callback => exact foreign_bind h (.refl s) fun _ s₁ h₁ hr₁ _ => ⟨h₁, hr₁⟩

end Zuvloop.Handles
