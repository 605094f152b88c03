import Mathlib.Data.Int.Notation
import Mathlib.Data.List.Basic
import Mathlib.Tactic.Common

/-!
# The bytes that `sendfile` sends

The three loops of `_sendfile.py` that move a file to a socket: `_sendfile_to_fd` has the kernel do
it, `_sock_sendfile_fallback` and `_sendfile_fallback` read the file chunk by chunk and write what
they read. What the system makes of each call is a list of answers: a call moves at least one byte
unless the file is at its end, and may move fewer than it was asked for.

`os.sendfile` reads at an offset that it is given. The fallbacks read at the position of the file,
and seek first only if the offset is not zero. A file object that reads through a buffer, as `open`
makes them, may have read ahead, so that its descriptor is further than the object itself. The
fallbacks seek with the object, but `_sendfile_to_fd` with the descriptor.

The file does not change meanwhile, nothing is left to be written to it, and before the call nobody
has moved its descriptor without the object.

## Main definitions

* `sendfileToFd`, `sockSendfileFallback`, `sendfileFallback`: the three loops;
* `SendsSlice`: the bytes, the result and the position that `sendfile` promises;
* `Path.Fits`: the files and offsets for which a path keeps the promise.

## Main results

* `sends_slice_iff`: a path keeps the promise exactly for these;
* `Path.completes`: with enough answers that are no failures, every path returns.
-/

namespace Zuvloop.Sendfile

/-! ## Files and answers -/

/-- An object for a regular file. -/
structure File where
  content : List UInt8
  /-- `tell()`: where the next `read` begins. -/
  position : ℕ
  /-- How many bytes from there on the object has in its buffer. Its descriptor is behind them. -/
  ahead : ℕ
  /-- They have been read from the file. -/
  ahead_le : 0 < ahead → position + ahead ≤ content.length

/-- `os.lseek` on the descriptor, and what `tell()` is afterwards: the object goes by where its
descriptor is, and takes off what it has read ahead, as far as that is possible. -/
def File.lseek (file : File) (offset : ℕ) : ℕ := offset - file.ahead

/-- An `OSError`. -/
structure OSError where
  errno : ℤ
  /-- It is a `ConnectionError`. -/
  connection : Bool
  deriving DecidableEq

/-- What becomes of a call. -/
inductive Answer
  /-- It moves one byte and up to this many more, if there are as many. -/
  | moves (more : ℕ)
  | fails (exc : OSError)
  deriving DecidableEq

/-- What a loop raises. -/
inductive Error
  | osError (exc : OSError)
  /-- `ConnectionError("socket is not connected")` -/
  | notConnected
  | sendfileNotAvailable
  deriving DecidableEq

/-- `errno.ENOTCONN` -/
def enotconn : ℤ := 107

/-- How a loop, or a whole path, ended. -/
structure Outcome where
  error : Option Error
  /-- `total_sent`, which is what a path without an error returns. -/
  total : ℕ
  /-- The position of the file, which is what `tell()` returns. -/
  position : ℕ
  /-- The bytes that were sent. What a call that failed got through is left out. -/
  stream : List UInt8
  deriving DecidableEq

/-- The bytes of a file that a call moves which was asked for `blocksize` of them. -/
def moved (content : List UInt8) (offset blocksize more : ℕ) : List UInt8 :=
  (content.drop offset).take (min blocksize (more + 1))

/-! ## The native path -/

/-- The handler around `os.sendfile`. -/
def sendfileError (totalSent : ℕ) (exc : OSError) : Error :=
  if totalSent = 0 then .sendfileNotAvailable
  else if exc.errno = enotconn ∧ exc.connection = false then .notConnected
  else .osError exc

/-- `if count is not None: blocksize = count - total_sent` -/
def nextBlock (count : Option ℕ) (totalSent blocksize : ℕ) : ℕ :=
  match count with
  | some count => count - totalSent
  | none => blocksize

/-- The `while` loop of `_sendfile_to_fd`. Here `position` is where the next byte comes from. No
result means that it waits for an answer. -/
def sendfileLoop (content : List UInt8) (count : Option ℕ) (blocksize offset totalSent : ℕ)
    (stream : List UInt8) (answers : List Answer) : Option Outcome :=
  if blocksize = 0 then some ⟨none, totalSent, offset, stream⟩
  else
    match answers with
    | [] => none
    | .fails exc :: _ => some ⟨some (sendfileError totalSent exc), totalSent, offset, stream⟩
    | .moves more :: answers =>
      let data := moved content offset blocksize more
      if data = [] then some ⟨none, totalSent, offset, stream⟩
      else
        let totalSent := totalSent + data.length
        sendfileLoop content count (nextBlock count totalSent blocksize) (offset + data.length)
          totalSent (stream ++ data) answers

/-- `_sendfile_to_fd`. The position of the descriptor is set at the end, and only if something was
sent. -/
def sendfileToFd (file : File) (offset : ℕ) (count : Option ℕ) (answers : List Answer) :
    Option Outcome :=
  let blocksize := count.getD file.content.length
  (sendfileLoop file.content count blocksize offset 0 [] answers).map fun o =>
    { o with position := if 0 < o.total then file.lseek o.position else file.position }

/-! ## The fallbacks -/

/-- `_SOCKET_CHUNK` -/
def socketChunk : ℕ := 262144

/-- `_TRANSPORT_CHUNK` -/
def transportChunk : ℕ := 16384

/-- The size of the first read. -/
def readSize (chunk : ℕ) : Option ℕ → ℕ
  | some count => min count chunk
  | none => chunk

/-- `if count is not None: blocksize = min(count - total_sent, chunk)` -/
def nextRead (chunk : ℕ) (count : Option ℕ) (totalSent blocksize : ℕ) : ℕ :=
  match count with
  | some count => min (count - totalSent) chunk
  | none => blocksize

/-- The `while` loop of a fallback: a read, which has an answer, and a write, which has one. -/
def fallbackLoop (content : List UInt8) (chunk : ℕ) (count : Option ℕ)
    (blocksize position totalSent : ℕ) (stream : List UInt8) (answers : List Answer) :
    Option Outcome :=
  if blocksize = 0 then some ⟨none, totalSent, position, stream⟩
  else
    match answers with
    | [] => none
    | .fails exc :: _ => some ⟨some (.osError exc), totalSent, position, stream⟩
    | .moves more :: answers =>
      let data := moved content position blocksize more
      if data = [] then some ⟨none, totalSent, position, stream⟩
      else
        match answers with
        | [] => none
        | .fails exc :: _ =>
          some ⟨some (.osError exc), totalSent, position + data.length, stream⟩
        -- all of the data is written, however many calls it takes
        | .moves _ :: answers =>
          let totalSent := totalSent + data.length
          fallbackLoop content chunk count (nextRead chunk count totalSent blocksize)
            (position + data.length) totalSent (stream ++ data) answers

/-- A fallback with reads of a given size. It reads and seeks with the file object. -/
def chunked (chunk : ℕ) (file : File) (offset : ℕ) (count : Option ℕ) (answers : List Answer) :
    Option Outcome :=
  -- `if offset: seek(offset)`
  let start := if offset ≠ 0 then offset else file.position
  (fallbackLoop file.content chunk count (readSize chunk count) start 0 [] answers).map fun o =>
    { o with position := if 0 < o.total then offset + o.total else o.position }

/-- `_sock_sendfile_fallback`: reads for `sock_sendall`. -/
def sockSendfileFallback : File → ℕ → Option ℕ → List Answer → Option Outcome :=
  chunked socketChunk

/-- `_sendfile_fallback`: reads for `transport.write`, after the flow control had its say. -/
def sendfileFallback : File → ℕ → Option ℕ → List Answer → Option Outcome :=
  chunked transportChunk

/-- The ways to send a file. -/
inductive Path
  | native
  | socketFallback
  | transportFallback
  deriving DecidableEq

/-- What a path makes of a file. -/
def Path.run : Path → File → ℕ → Option ℕ → List Answer → Option Outcome
  | native => sendfileToFd
  | socketFallback => sockSendfileFallback
  | transportFallback => sendfileFallback

/-! ## What is promised -/

/-- The bytes of a file from an offset on, at most `count` of them. -/
def slice (content : List UInt8) (offset : ℕ) : Option ℕ → List UInt8
  | some count => (content.drop offset).take count
  | none => content.drop offset

/-- `min(count, size - offset)` -/
def sliceSize (content : List UInt8) (offset : ℕ) : Option ℕ → ℕ
  | some count => min count (content.length - offset)
  | none => content.length - offset

/-- What `sendfile` promises, with `n = min(count, size - offset)`: the bytes
`file[offset : offset + n]` are sent, `n` is returned, and the file is left at `offset + n` unless
`n` is zero. -/
structure SendsSlice (file : File) (offset : ℕ) (count : Option ℕ) (o : Outcome) : Prop where
  stream : o.stream = (file.content.drop offset).take (sliceSize file.content offset count)
  total : o.total = sliceSize file.content offset count
  position : 0 < sliceSize file.content offset count →
    o.position = offset + sliceSize file.content offset count

variable {content stream : List UInt8} {offset position blocksize totalSent more chunk : ℕ}
  {count left : Option ℕ} {answers : List Answer} {file : File} {o : Outcome}

@[simp]
theorem length_slice : (slice content offset count).length = sliceSize content offset count := by
  cases count <;> simp [slice, sliceSize]

theorem take_sliceSize :
    (content.drop offset).take (sliceSize content offset count) = slice content offset count := by
  cases count with
  | none => exact List.take_of_length_le (by simp [sliceSize])
  | some count =>
    rw [sliceSize, slice, ← List.length_drop]
    exact List.take_eq_take_min.symm

theorem length_moved_le :
    (moved content offset blocksize more).length ≤ content.length - offset := by
  rw [moved, List.length_take, List.length_drop]
  exact Nat.min_le_right _ _

/-- At its end a file has nothing more to send. -/
theorem slice_of_moved_nil (hb : blocksize ≠ 0)
    (h : moved content offset blocksize more = []) : slice content offset count = [] := by
  have hdrop : content.drop offset = [] :=
    (List.take_eq_nil_iff.mp h).resolve_left (by omega)
  cases count <;> simp [slice, hdrop]

/-- What a call moves is the front of what is left to send, if it was not asked for more. -/
theorem slice_eq_append (hle : ∀ l ∈ left, blocksize ≤ l) :
    slice content offset left = moved content offset blocksize more ++
      slice content (offset + (moved content offset blocksize more).length)
        (left.map (· - (moved content offset blocksize more).length)) := by
  have hdrop : content.drop (offset + (moved content offset blocksize more).length) =
      (content.drop offset).drop (moved content offset blocksize more).length :=
    (List.drop_drop).symm
  have htake : moved content offset blocksize more =
      (content.drop offset).take (moved content offset blocksize more).length := by
    rw [moved, List.length_take]
    exact List.take_eq_take_min
  cases left with
  | none =>
    rw [Option.map_none, slice, slice, hdrop]
    nth_rewrite 1 [htake]
    exact (List.take_append_drop _ _).symm
  | some l =>
    have hlen : (moved content offset blocksize more).length ≤ l := by
      have hl : blocksize ≤ l := hle l rfl
      rw [moved, List.length_take]
      omega
    rw [Option.map_some, slice, slice, hdrop]
    nth_rewrite 1 [htake]
    rw [← List.take_add, Nat.add_sub_cancel' hlen]

/-! ## One turn of a loop -/

/-- How much a loop asks for, when this much is left to send from here: no more than that, and
something unless there is nothing left. -/
structure Asks (content : List UInt8) (offset : ℕ) (left : Option ℕ) (blocksize : ℕ) : Prop where
  enough : blocksize = 0 → slice content offset left = []
  most : ∀ l ∈ left, blocksize ≤ l

/-- A loop that has sent `stream` sends the rest, and ends behind it. -/
structure Delivers (content : List UInt8) (offset : ℕ) (left : Option ℕ) (stream : List UInt8)
    (totalSent : ℕ) (o : Outcome) : Prop where
  stream : o.stream = stream ++ slice content offset left
  total : o.total = totalSent + sliceSize content offset left
  position : o.position = offset + sliceSize content offset left

/-- There is nothing left to send. -/
theorem Delivers.stop (h : slice content offset left = []) :
    Delivers content offset left stream totalSent ⟨none, totalSent, offset, stream⟩ := by
  have hsize : sliceSize content offset left = 0 := by rw [← length_slice, h, List.length_nil]
  exact ⟨by rw [h, List.append_nil], by rw [hsize]; rfl, by rw [hsize]; rfl⟩

/-- A call moved something, and the rest is sent after it. -/
theorem Delivers.step (ha : Asks content offset left blocksize)
    (h : Delivers content (offset + (moved content offset blocksize more).length)
      (left.map (· - (moved content offset blocksize more).length))
      (stream ++ moved content offset blocksize more)
      (totalSent + (moved content offset blocksize more).length) o) :
    Delivers content offset left stream totalSent o := by
  have hslice : slice content offset left = moved content offset blocksize more ++
      slice content (offset + (moved content offset blocksize more).length)
        (left.map (· - (moved content offset blocksize more).length)) := slice_eq_append ha.most
  have hsize := congrArg List.length hslice
  rw [List.length_append, length_slice, length_slice] at hsize
  refine ⟨?_, ?_, ?_⟩
  · rw [h.stream, hslice, List.append_assoc]
  · rw [h.total, hsize, Nat.add_assoc]
  · rw [h.position, hsize, Nat.add_assoc]

/-- What is left after a call. -/
theorem left_after (count : Option ℕ) (totalSent n : ℕ) :
    (count.map (· - totalSent)).map (· - n) = count.map (· - (totalSent + n)) := by
  rw [Option.map_map]
  congr 1
  funext c
  exact Nat.sub_sub c totalSent n

/-- `os.sendfile` is asked for all that is left. -/
theorem asks_left (hb : blocksize ≠ 0) : Asks content offset (count.map (· - totalSent))
    (nextBlock count totalSent blocksize) := by
  cases count with
  | none => exact ⟨fun h => absurd h hb, by simp⟩
  | some count =>
    refine ⟨fun h => ?_, fun l hl => ?_⟩
    · have hzero : count - totalSent = 0 := h
      simp [slice, hzero]
    · obtain rfl := Option.some.inj hl
      exact Nat.le_refl _

/-- A read is for a chunk of it. -/
theorem asks_chunk (hchunk : 0 < chunk) (hb : blocksize ≠ 0) :
    Asks content offset (count.map (· - totalSent))
      (nextRead chunk count totalSent blocksize) := by
  cases count with
  | none => exact ⟨fun h => absurd h hb, by simp⟩
  | some count =>
    refine ⟨fun h => ?_, fun l hl => ?_⟩
    · have hzero : count - totalSent = 0 := by
        change min (count - totalSent) chunk = 0 at h
        omega
      simp [slice, hzero]
    · obtain rfl := Option.some.inj hl
      exact Nat.min_le_left _ _

/-! ## Every turn -/

theorem sendfileLoop_delivers
    (h : sendfileLoop content count blocksize offset totalSent stream answers = some o)
    (hok : o.error = none) (ha : Asks content offset (count.map (· - totalSent)) blocksize) :
    Delivers content offset (count.map (· - totalSent)) stream totalSent o := by
  fun_induction sendfileLoop content count blocksize offset totalSent stream answers with
  | case1 offset totalSent stream answers =>
    obtain rfl := Option.some.inj h
    exact .stop (ha.enough rfl)
  | case2 => cases h
  | case3 =>
    obtain rfl := Option.some.inj h
    cases hok
  | case4 blocksize offset totalSent stream hb more answers data hdata =>
    obtain rfl := Option.some.inj h
    exact .stop (slice_of_moved_nil hb hdata)
  | case5 blocksize offset totalSent stream hb more answers data hdata totalSent' ih =>
    have hrest := ih h (asks_left hb)
    rw [← left_after] at hrest
    exact .step ha hrest

theorem fallbackLoop_delivers (hchunk : 0 < chunk)
    (h : fallbackLoop content chunk count blocksize position totalSent stream answers = some o)
    (hok : o.error = none) (ha : Asks content position (count.map (· - totalSent)) blocksize) :
    Delivers content position (count.map (· - totalSent)) stream totalSent o := by
  fun_induction fallbackLoop content chunk count blocksize position totalSent stream answers with
  | case1 position totalSent stream answers =>
    obtain rfl := Option.some.inj h
    exact .stop (ha.enough rfl)
  | case2 => cases h
  | case3 =>
    obtain rfl := Option.some.inj h
    cases hok
  | case4 blocksize position totalSent stream hb more answers data hdata =>
    obtain rfl := Option.some.inj h
    exact .stop (slice_of_moved_nil hb hdata)
  | case5 => cases h
  | case6 =>
    -- the data was read, and could not be written
    obtain rfl := Option.some.inj h
    cases hok
  | case7 blocksize position totalSent stream hb more data hdata _ answers totalSent' ih =>
    have hrest := ih h (asks_chunk hchunk hb)
    rw [← left_after] at hrest
    exact .step ha hrest

/-- Every answer that is no failure takes a loop further. -/
def AllMove (answers : List Answer) : Prop := ∀ exc, Answer.fails exc ∉ answers

theorem sendfileLoop_completes (hmove : AllMove answers)
    (hlen : content.length - offset < answers.length) :
    ∃ o, sendfileLoop content count blocksize offset totalSent stream answers = some o ∧
      o.error = none := by
  fun_induction sendfileLoop content count blocksize offset totalSent stream answers with
  | case1 => exact ⟨_, rfl, rfl⟩
  | case2 => exact absurd hlen (Nat.not_lt_zero _)
  | case3 => exact absurd List.mem_cons_self (hmove _)
  | case4 => exact ⟨_, rfl, rfl⟩
  | case5 blocksize offset totalSent stream hb more answers data hdata totalSent' ih =>
    refine ih (fun exc hmem => hmove exc (List.mem_cons_of_mem _ hmem)) ?_
    have hpos : 0 < data.length := List.length_pos_iff.mpr hdata
    have hle : data.length ≤ content.length - offset := length_moved_le
    rw [List.length_cons] at hlen
    omega

theorem fallbackLoop_completes (hmove : AllMove answers)
    (hlen : 2 * (content.length - position) + 1 < answers.length) :
    ∃ o, fallbackLoop content chunk count blocksize position totalSent stream answers = some o ∧
      o.error = none := by
  fun_induction fallbackLoop content chunk count blocksize position totalSent stream answers with
  | case1 => exact ⟨_, rfl, rfl⟩
  | case2 => exact absurd hlen (Nat.not_lt_zero _)
  | case3 => exact absurd List.mem_cons_self (hmove _)
  | case4 => exact ⟨_, rfl, rfl⟩
  | case5 =>
    rw [List.length_singleton] at hlen
    omega
  | case6 => exact absurd (List.mem_cons_of_mem _ List.mem_cons_self) (hmove _)
  | case7 blocksize position totalSent stream hb more data hdata _ answers totalSent' ih =>
    refine ih (fun exc hmem => hmove exc (List.mem_cons_of_mem _ (List.mem_cons_of_mem _ hmem))) ?_
    have hpos : 0 < data.length := List.length_pos_iff.mpr hdata
    have hle : data.length ≤ content.length - position := length_moved_le
    rw [List.length_cons, List.length_cons] at hlen
    omega

/-! ## The paths -/

@[simp]
theorem left_start (count : Option ℕ) : count.map (· - 0) = count := by cases count <;> rfl

/-- The native path sends what it promises, and leaves the position there if the object has not read
ahead. -/
theorem sendfileToFd_sends_iff (h : sendfileToFd file offset count answers = some o)
    (hok : o.error = none) :
    SendsSlice file offset count o ↔
      file.ahead = 0 ∨ slice file.content offset count = [] := by
  obtain ⟨o, hloop, rfl⟩ := Option.map_eq_some_iff.mp h
  have hasks : Asks file.content offset (count.map (· - 0))
      (count.getD file.content.length) := by
    rw [left_start]
    cases count with
    | none => exact ⟨fun h => by simp [slice, List.length_eq_zero_iff.mp h], by simp⟩
    | some count =>
      refine ⟨fun h => ?_, fun l hl => ?_⟩
      · obtain rfl : count = 0 := h
        simp [slice]
      · obtain rfl := Option.some.inj hl
        exact Nat.le_refl _
  have hd := sendfileLoop_delivers hloop hok hasks
  rw [left_start] at hd
  have htotal : o.total = sliceSize file.content offset count := hd.total.trans (Nat.zero_add _)
  have hposition : 0 < sliceSize file.content offset count →
      (if 0 < o.total then file.lseek o.position else file.position) =
        offset + sliceSize file.content offset count - file.ahead := by
    intro hpos
    rw [if_pos (htotal ▸ hpos), File.lseek, hd.position]
  constructor
  · intro hs
    by_cases hpos : 0 < sliceSize file.content offset count
    · -- the object takes off what it has read ahead
      have hleft := (hposition hpos).symm.trans (hs.position hpos)
      exact .inl (by omega)
    · refine .inr (List.eq_nil_of_length_eq_zero ?_)
      rw [length_slice]
      omega
  · intro hcond
    refine ⟨?_, htotal, fun hpos => (hposition hpos).trans ?_⟩
    · rw [take_sliceSize]
      exact hd.stream
    · rcases hcond with hahead | hnil
      · rw [hahead, Nat.sub_zero]
      · rw [← length_slice, hnil] at hpos
        exact absurd hpos (Nat.lt_irrefl 0)

/-- A fallback sends what it promises if it seeks, or need not. -/
theorem chunked_sends_iff (hchunk : 0 < chunk)
    (h : chunked chunk file offset count answers = some o) (hok : o.error = none) :
    SendsSlice file offset count o ↔
      offset ≠ 0 ∨ slice file.content file.position count = slice file.content 0 count := by
  obtain ⟨o, hloop, rfl⟩ := Option.map_eq_some_iff.mp h
  generalize hstart : (if offset ≠ 0 then offset else file.position) = start at hloop
  have hasks : Asks file.content start (count.map (· - 0)) (readSize chunk count) := by
    rw [left_start]
    cases count with
    | none => exact ⟨fun h => absurd h (Nat.ne_of_gt hchunk), by simp⟩
    | some count =>
      refine ⟨fun h => ?_, fun l hl => ?_⟩
      · have hzero : count = 0 := by
          change min count chunk = 0 at h
          omega
        simp [slice, hzero]
      · obtain rfl := Option.some.inj hl
        exact Nat.min_le_left _ _
  have hd := fallbackLoop_delivers hchunk hloop hok hasks
  rw [left_start] at hd
  have hstream : o.stream = slice file.content start count := hd.stream
  have htotal : o.total = sliceSize file.content start count := hd.total.trans (Nat.zero_add _)
  -- the bytes decide it: they have the right number, and the position follows the number
  have hiff : SendsSlice file offset count { o with
      position := if 0 < o.total then offset + o.total else o.position } ↔
      slice file.content start count = slice file.content offset count := by
    constructor
    · intro hs
      exact hstream.symm.trans (hs.stream.trans take_sliceSize)
    · intro heq
      have hsize := congrArg List.length heq
      rw [length_slice, length_slice] at hsize
      refine ⟨?_, htotal.trans hsize, fun hpos => ?_⟩
      · rw [take_sliceSize, ← heq]
        exact hstream
      · change (if 0 < o.total then offset + o.total else o.position) = _
        rw [htotal, hsize, if_pos hpos]
  rw [hiff, ← hstart]
  by_cases hoffset : offset = 0
  · subst hoffset
    simp
  · simp [hoffset]

/-- Every path returns, once no call fails and there are enough of them. -/
theorem Path.completes (path : Path) (file : File) (offset : ℕ) (count : Option ℕ)
    (hmove : AllMove answers) (hlen : 2 * file.content.length + 1 < answers.length) :
    ∃ o, path.run file offset count answers = some o ∧ o.error = none := by
  have hfallback : ∀ chunk, ∃ o, chunked chunk file offset count answers = some o ∧
      o.error = none := by
    intro chunk
    have hloop : ∃ o, fallbackLoop file.content chunk count (readSize chunk count)
        (if offset ≠ 0 then offset else file.position) 0 [] answers = some o ∧ o.error = none :=
      fallbackLoop_completes hmove (by omega)
    obtain ⟨o, ho, hok⟩ := hloop
    exact ⟨_, congrArg (Option.map _) ho, hok⟩
  cases path with
  | native =>
    have hloop : ∃ o, sendfileLoop file.content count (count.getD file.content.length) offset 0 []
        answers = some o ∧ o.error = none := sendfileLoop_completes hmove (by omega)
    obtain ⟨o, ho, hok⟩ := hloop
    exact ⟨_, congrArg (Option.map _) ho, hok⟩
  | socketFallback => exact hfallback socketChunk
  | transportFallback => exact hfallback transportChunk

/-- When a path does what `sendfile` promises. The native path needs a file object that has not read
ahead, or nothing to send. A fallback needs an offset to seek to, or a file that begins with the
bytes that follow its position. -/
def Path.Fits (file : File) (offset : ℕ) (count : Option ℕ) : Path → Prop
  | native => file.ahead = 0 ∨ slice file.content offset count = []
  | socketFallback | transportFallback =>
    offset ≠ 0 ∨ slice file.content file.position count = slice file.content 0 count

/-- Every run of a path that returns without an error has done what `sendfile` promises, exactly if
the path fits the file and the offset. And every path does return, once no call fails and there are
enough of them. -/
theorem sends_slice_iff (path : Path) (file : File) (offset : ℕ) (count : Option ℕ) :
    ((∀ answers o, path.run file offset count answers = some o → o.error = none →
        SendsSlice file offset count o) ↔ path.Fits file offset count) ∧
    ∀ answers, AllMove answers → 2 * file.content.length + 1 < answers.length →
      ∃ o, path.run file offset count answers = some o ∧ o.error = none := by
  refine ⟨?_, fun answers => path.completes file offset count⟩
  -- some run of the path returns, so that its bytes show the condition
  have hreturns : ∃ answers o, path.run file offset count answers = some o ∧ o.error = none := by
    refine ⟨List.replicate (2 * file.content.length + 2) (.moves 0),
      path.completes file offset count (fun exc hmem => ?_) (by simp)⟩
    cases List.eq_of_mem_replicate hmem
  -- what becomes of one run decides it for all of them
  have hdecided : ∀ P : Prop, (∀ answers o, path.run file offset count answers = some o →
      o.error = none → (SendsSlice file offset count o ↔ P)) →
      ((∀ answers o, path.run file offset count answers = some o → o.error = none →
        SendsSlice file offset count o) ↔ P) := by
    intro P hruns
    constructor
    · intro hall
      obtain ⟨answers, o, ho, hok⟩ := hreturns
      exact (hruns answers o ho hok).mp (hall answers o ho hok)
    · intro hP answers o ho hok
      exact (hruns answers o ho hok).mpr hP
  cases path with
  | native => exact hdecided _ fun answers o ho hok => sendfileToFd_sends_iff ho hok
  | socketFallback =>
    exact hdecided _ fun answers o ho hok => chunked_sends_iff (by decide) ho hok
  | transportFallback =>
    exact hdecided _ fun answers o ho hok => chunked_sends_iff (by decide) ho hok

/-- With a file that was read before, an offset of zero is the position for a fallback. -/
theorem not_sends_slice : ¬ ∀ (path : Path) (file : File) (offset : ℕ) (count : Option ℕ)
    (answers : List Answer) (o : Outcome), (∀ n ∈ count, 0 < n) →
    path.run file offset count answers = some o → o.error = none →
      SendsSlice file offset count o := by
  intro hall
  have hstream := (hall .socketFallback ⟨[1, 2, 3], 1, 0, fun h => absurd h (Nat.lt_irrefl 0)⟩
    0 none [.moves 9, .moves 0, .moves 9] ⟨none, 2, 2, [2, 3]⟩ (by simp) (by decide) rfl).stream
  exact absurd hstream (by decide)

/-- An object that has read all of the file to hand out one byte: the native path sends the file,
and `tell()` is one still. -/
example : Path.native.run ⟨[1, 2, 3], 1, 2, fun _ => by decide⟩ 0 none [.moves 9, .moves 0] =
    some ⟨none, 3, 1, [1, 2, 3]⟩ := rfl

end Zuvloop.Sendfile
