import Mathlib.Logic.Function.Basic
import Zuvloop.Polling.Registry

/-!
# libuv's watchers

The part of libuv under `zig/poller.zig`: `uv__io_t` and the table `loop->watchers` of
`unix/core.c`, and the poll handles of `unix/poll.c` over them. The table has one entry for a
descriptor. The first watcher that is started on a descriptor gets the entry and keeps it until it
is stopped, and what other watchers of the same descriptor do meanwhile leaves it alone.

The table reaches as far as it has to: `maybe_resize` finds memory, and what it adds is empty. What
the kernel has been told, and when, is `events`; the queue of those it has yet to be told of is left
out.

## Main definitions

* `Uv`: the table, and the watchers of the loop.
* `Uv.ioStart`, `Uv.ioStop`: watchers of any kind.
* `Uv.pollInit`, `Uv.pollStart`, `Uv.pollClose`: poll handles.

## Main results

* `Uv.pollStart_eq_error_iff`: a poll handle cannot be started exactly if somebody else has the
  entry of its descriptor.
* `Uv.Free.pollStart`: otherwise it is started, and has the entry.
-/

namespace Zuvloop.Polling

/-- Whose `uv__io_t` it is. -/
inductive Io where
  /-- A poll handle's. -/
  | poll (i : ℕ)
  /-- That of a stream, a datagram endpoint or anything else. -/
  | other (k : ℕ)
deriving DecidableEq, Repr

/-- A `uv__io_t`. -/
structure IoWatcher where
  /-- `fd` -/
  fd : Fd
  /-- `pevents`: what it waits for. -/
  pevents : UInt32
  /-- `events`: what the kernel has been told. -/
  events : UInt32

/-- `POLLIN` -/
def pollIn : UInt32 := 1

/-- `UV__POLLPRI` -/
def pollPri : UInt32 := 2

/-- `POLLOUT` -/
def pollOut : UInt32 := 4

/-- `UV__POLLRDHUP` -/
def pollRdhup : UInt32 := 0x2000

/-- `POLLIN | POLLOUT | UV__POLLRDHUP | UV__POLLPRI` -/
def pollAll : UInt32 := pollIn ||| pollOut ||| pollRdhup ||| pollPri

/-- `UV_READABLE` and `UV_WRITABLE`, in the terms of the kernel. -/
def Events.mask (e : Events) : UInt32 :=
  (if e.readable then pollIn else 0) ||| (if e.writable then pollOut else 0)

/-- What a loop watches. -/
structure Uv where
  /-- `loop->watchers`. Where the table does not reach there is no entry. -/
  watchers : Fd → Option Io
  /-- The watchers. -/
  io : Io → IoWatcher

namespace Uv

variable (uv : Uv) (w : Io) (i : ℕ) (fd : Fd)

/-- Change a watcher. -/
def setIo (x : IoWatcher) : Uv := { uv with io := Function.update uv.io w x }

/-- Change an entry of the table. -/
def setWatcher (o : Option Io) : Uv := { uv with watchers := Function.update uv.watchers fd o }

/-- `uv__fd_exists` -/
def fdExists : Bool := (uv.watchers fd).isSome

/-! ## Watchers -/

/-- `uv__io_init` -/
def ioInit : Uv := uv.setIo w ⟨fd, 0, 0⟩

/-- `uv__io_start` -/
def ioStart (events : UInt32) : Uv :=
  let x := uv.io w
  let pevents := x.pevents ||| events
  let uv := uv.setIo w { x with pevents }
  -- the kernel waits for these events already
  if x.events = pevents then uv
  else if uv.watchers x.fd = none then uv.setWatcher x.fd (some w)
  else uv

/-- `uv__io_stop` -/
def ioStop (events : UInt32) : Uv :=
  let x := uv.io w
  let pevents := x.pevents &&& ~~~events
  if pevents = 0 then
    let uv := uv.setIo w { x with pevents, events := 0 }
    if uv.watchers x.fd = some w then uv.setWatcher x.fd none else uv
  else uv.setIo w { x with pevents }

/-- `uv__io_poll` tells the kernel what a watcher waits for. -/
def submit : Uv := uv.setIo w { uv.io w with events := (uv.io w).pevents }

/-! ## Poll handles -/

/-- `UV_EEXIST` -/
def eexist : ℤ := -17

/-- `uv_poll_init`; `err` is what becomes of `uv__io_check_fd` and `uv__nonblock`. -/
def pollInit (err : ℤ) : Except ℤ Uv :=
  if uv.fdExists fd then .error eexist
  else if err ≠ 0 then .error err
  else .ok (uv.ioInit (.poll i) fd)

/-- `uv__poll_stop` -/
def pollStop : Uv := uv.ioStop (.poll i) pollAll

/-- `uv_poll_start` -/
def pollStart (pevents : Events) : Except ℤ Uv :=
  let x := uv.io (.poll i)
  if uv.fdExists x.fd ∧ uv.watchers x.fd ≠ some (.poll i) then .error eexist
  else
    let uv := uv.pollStop i
    if pevents = .none then .ok uv else .ok (uv.ioStart (.poll i) pevents.mask)

/-- `uv__poll_close` -/
def pollClose : Uv := uv.pollStop i

end Uv

namespace Uv

variable {uv uv' : Uv} {w : Io} {fd : Fd} {i : ℕ} {e : Events}

/-! ## Who has the entry of a descriptor -/

/-- Somebody else has the entry: that is what `uv_poll_start` fails for, and nothing else. -/
theorem pollStart_eq_error_iff :
    (∃ err, uv.pollStart i e = .error err) ↔
      ∃ w, uv.watchers (uv.io (.poll i)).fd = some w ∧ w ≠ .poll i := by
  rw [pollStart, fdExists]
  split
  · rename_i htaken
    obtain ⟨w, hw⟩ := Option.isSome_iff_exists.mp htaken.1
    exact iff_of_true ⟨eexist, rfl⟩ ⟨w, hw, fun heq => htaken.2 (heq ▸ hw)⟩
  · rename_i hfree
    refine iff_of_false ?_ ?_
    · rintro ⟨err, herr⟩
      split at herr <;> cases herr
    · rintro ⟨w, hw, hne⟩
      refine hfree ⟨by rw [hw]; rfl, fun heq => hne ?_⟩
      exact Option.some.inj (hw.symm.trans heq)

/-- A poll handle waits for events on a descriptor, and has its entry. -/
structure Holds (uv : Uv) (fd : Fd) (i : ℕ) (e : Events) : Prop where
  desc : (uv.io (.poll i)).fd = fd
  entry : uv.watchers fd = some (.poll i)
  pevents : (uv.io (.poll i)).pevents = e.mask

/-- Nobody but the poll handle can have the entry of the descriptor. -/
structure Free (uv : Uv) (fd : Fd) (i : ℕ) : Prop where
  desc : (uv.io (.poll i)).fd = fd
  entry : uv.watchers fd = none ∨ uv.watchers fd = some (.poll i)
  pevents : (uv.io (.poll i)).pevents &&& ~~~pollAll = 0

/-- What a poll handle of a descriptor leaves as it is. -/
structure Beside (fd : Fd) (i : ℕ) (uv uv' : Uv) : Prop where
  watchers : ∀ g, g ≠ fd → uv'.watchers g = uv.watchers g
  io : ∀ w, w ≠ .poll i → uv'.io w = uv.io w

theorem Beside.refl : Beside fd i uv uv := ⟨fun _ _ => rfl, fun _ _ => rfl⟩

theorem Beside.trans {uv₁ uv₂ uv₃ : Uv} (h : Beside fd i uv₁ uv₂) (h' : Beside fd i uv₂ uv₃) :
    Beside fd i uv₁ uv₃ :=
  ⟨fun g hg => (h'.watchers g hg).trans (h.watchers g hg),
    fun w hw => (h'.io w hw).trans (h.io w hw)⟩

theorem mask_and_not_all (e : Events) : e.mask &&& ~~~pollAll = 0 := by
  obtain ⟨readable, writable⟩ := e
  cases readable <;> cases writable <;> decide

theorem mask_ne_zero (he : e ≠ .none) : e.mask ≠ 0 := by
  obtain ⟨readable, writable⟩ := e
  cases readable <;> cases writable
  · exact absurd rfl he
  all_goals decide

theorem Holds.free (h : uv.Holds fd i e) : uv.Free fd i :=
  ⟨h.desc, .inr h.entry, h.pevents ▸ mask_and_not_all e⟩

/-- `uv_poll_init` refuses a descriptor whose entry is taken. -/
theorem pollInit_cases (uv : Uv) (i : ℕ) (fd : Fd) (err : ℤ) :
    (∃ err', uv.pollInit i fd err = .error err') ∨
      uv.fdExists fd = false ∧ uv.pollInit i fd err = .ok (uv.ioInit (.poll i) fd) := by
  rw [pollInit]
  split
  · exact .inl ⟨_, rfl⟩
  split
  · exact .inl ⟨_, rfl⟩
  · rename_i hexists _
    exact .inr ⟨Bool.eq_false_iff.mpr hexists, rfl⟩

/-- A new poll handle. -/
theorem free_ioInit (hfd : uv.fdExists fd = false) : (uv.ioInit (.poll i) fd).Free fd i := by
  have hnone : uv.watchers fd = none := by simpa [fdExists] using hfd
  refine ⟨?_, .inl hnone, ?_⟩
  · simp [ioInit, setIo]
  · simp [ioInit, setIo]

theorem beside_ioInit : Beside fd i uv (uv.ioInit (.poll i) fd) :=
  ⟨fun _ _ => rfl, fun _ hw => Function.update_of_ne hw _ _⟩

/-- A poll handle that stops gives its entry up, and waits for nothing. -/
theorem Free.pollStop (h : uv.Free fd i) :
    (uv.pollStop i).watchers fd = none ∧ (uv.pollStop i).io (.poll i) = ⟨fd, 0, 0⟩ ∧
      Beside fd i uv (uv.pollStop i) := by
  have hother : ∀ w, w ≠ .poll i → ∀ x, (uv.setIo (.poll i) x).io w = uv.io w := by
    intro w hw x
    exact Function.update_of_ne hw _ _
  rw [Uv.pollStop, ioStop, if_pos h.pevents, h.pevents, h.desc]
  dsimp only
  split
  · refine ⟨Function.update_self _ _ _, Function.update_self _ _ _, fun g hg => ?_, fun w hw => ?_⟩
    · exact Function.update_of_ne hg _ _
    · exact hother w hw _
  · rename_i hne
    refine ⟨h.entry.resolve_right hne, Function.update_self _ _ _, fun _ _ => rfl, fun w hw => ?_⟩
    exact hother w hw _

/-- A poll handle is started if nobody else has the entry, and has it then. -/
theorem Free.pollStart (h : uv.Free fd i) (he : e ≠ .none) :
    ∃ uv', uv.pollStart i e = .ok uv' ∧ uv'.Holds fd i e ∧ Beside fd i uv uv' := by
  obtain ⟨hnone, hio, hbeside⟩ := h.pollStop
  have hfree : ¬(uv.fdExists fd ∧ uv.watchers fd ≠ some (.poll i)) := by
    rintro ⟨hexists, hne⟩
    rw [fdExists, h.entry.resolve_right hne] at hexists
    cases hexists
  -- the kernel has not been told of these events, since the poll handle has just been stopped
  have hnew : (0 : UInt32) ≠ 0 ||| e.mask := by
    rw [UInt32.zero_or]
    exact (mask_ne_zero he).symm
  have hstart : (uv.pollStop i).ioStart (.poll i) e.mask =
      ((uv.pollStop i).setIo (.poll i) ⟨fd, 0 ||| e.mask, 0⟩).setWatcher fd (some (.poll i)) := by
    rw [ioStart, hio, if_neg hnew, if_pos (by exact hnone)]
  refine ⟨(uv.pollStop i).ioStart (.poll i) e.mask, ?_, ?_, ?_⟩
  · rw [Uv.pollStart, h.desc, if_neg hfree, if_neg he]
  · rw [hstart]
    refine ⟨?_, Function.update_self _ _ _, ?_⟩
    · simp [setIo, setWatcher]
    · simp [setIo, setWatcher]
  · rw [hstart]
    refine hbeside.trans ⟨fun g hg => ?_, fun w hw => ?_⟩
    · exact Function.update_of_ne hg _ _
    · exact Function.update_of_ne hw _ _

/-! ## What anybody else does -/

/-- What somebody else does leaves a poll handle with the entry of its descriptor. -/
structure Elsewhere (uv uv' : Uv) : Prop where
  io : ∀ i, (uv'.io (.poll i)).fd = (uv.io (.poll i)).fd ∧
    (uv'.io (.poll i)).pevents = (uv.io (.poll i)).pevents
  watchers : ∀ fd i, uv.watchers fd = some (.poll i) → uv'.watchers fd = some (.poll i)

theorem Holds.elsewhere (h : uv.Holds fd i e) (hu : Elsewhere uv uv') : uv'.Holds fd i e :=
  ⟨(hu.io i).1.trans h.desc, hu.watchers fd i h.entry, (hu.io i).2.trans h.pevents⟩

variable {k : ℕ} {events : UInt32}

theorem elsewhere_setIo (x : IoWatcher) : Elsewhere uv (uv.setIo (.other k) x) := by
  refine ⟨fun i => ?_, fun _ _ h => h⟩
  have hio : (uv.setIo (.other k) x).io (.poll i) = uv.io (.poll i) := by simp [setIo]
  rw [hio]
  exact ⟨rfl, rfl⟩

/-- An entry that no poll handle has may change. -/
theorem Elsewhere.setWatcher (h : Elsewhere uv uv') (hfd : ∀ i, uv.watchers fd ≠ some (.poll i))
    (o : Option Io) : Elsewhere uv (uv'.setWatcher fd o) := by
  refine ⟨h.io, fun g i hg => ?_⟩
  have hne : g ≠ fd := by
    rintro rfl
    exact hfd i hg
  exact (Function.update_of_ne hne _ _).trans (h.watchers g i hg)

theorem elsewhere_ioInit : Elsewhere uv (uv.ioInit (.other k) fd) := elsewhere_setIo _

/-- The entry of a descriptor is not taken from whoever has it. -/
theorem elsewhere_ioStart : Elsewhere uv (uv.ioStart (.other k) events) := by
  simp only [ioStart]
  split
  · exact elsewhere_setIo _
  split
  · rename_i hnone
    have hnone : uv.watchers (uv.io (.other k)).fd = none := hnone
    exact (elsewhere_setIo _).setWatcher (by simp [hnone]) _
  · exact elsewhere_setIo _

/-- A watcher that stops gives up no entry but its own. -/
theorem elsewhere_ioStop : Elsewhere uv (uv.ioStop (.other k) events) := by
  simp only [ioStop]
  split
  · split
    · rename_i hown
      have hown : uv.watchers (uv.io (.other k)).fd = some (.other k) := hown
      exact (elsewhere_setIo _).setWatcher (by simp [hown]) _
    · exact elsewhere_setIo _
  · exact elsewhere_setIo _

theorem elsewhere_submit : Elsewhere uv (uv.submit w) := by
  refine ⟨fun i => ?_, fun _ _ h => h⟩
  by_cases hw : w = .poll i
  · subst hw
    simp [submit, setIo]
  · have hio : (uv.submit w).io (.poll i) = uv.io (.poll i) :=
      Function.update_of_ne (Ne.symm hw) _ _
    rw [hio]
    exact ⟨rfl, rfl⟩

end Uv

end Zuvloop.Polling
