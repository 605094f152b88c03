import Mathlib.Data.List.Basic
import Mathlib.Data.Option.Basic
import Mathlib.Tactic.Common

/-!
# Connecting to one of several addresses

`_connect_tcp` of `zuvloop/_connect.py`, once the addresses are resolved, and `_connect_one`. The
addresses are tried one after the other, or `staggered_race` starts the attempts in order and lets
them run side by side. Every attempt collects its failures in a slot of its own, which it takes when
it starts.

`staggered_race` is not part of the program. It is taken to start the attempts in order and to
swallow every exception that one of them raises.

## Main definitions

* `connectOne`: one attempt, split at the `await` into `beforeConnect` and `recorded`.
* `sequential`, `Race`: the two ways to try the addresses.
* `report`: what is raised once every attempt has failed.
* `Escapes`: an attempt raises something that is no `OSError`.

## Main results

* `failures_agree_iff`: the two ways record and raise the same failures, at least one, exactly if
  every attempt fails with an `OSError`.
-/

namespace Zuvloop.Connect

/-! ## Exceptions -/

/-- An `OSError`. -/
inductive OsError where
  /-- `OSError(text)`. -/
  | text (text : String)
  /-- `OSError(errno, strerror)`. -/
  | errno (errno : Option Int) (strerror : String)
deriving DecidableEq

/-- The `errno` of an `OSError`. -/
def OsError.errno? : OsError → Option Int
  | text _ => none
  | errno n _ => n

/-- `str()` of an `OSError`. -/
def OsError.str : OsError → String
  | text t => t
  | errno none t => "[Errno None] " ++ t
  | errno (some n) t => "[Errno " ++ toString n ++ "] " ++ t

/-- An exception. -/
inductive Exc where
  /-- An `OSError`. -/
  | os (e : OsError)
  /-- Any other `Exception`. -/
  | other (name text : String)
deriving DecidableEq

/-- The exception is an `OSError`. -/
def Exc.isOs : Exc → Bool
  | os _ => true
  | other _ _ => false

/-- What `_connect_tcp` raises. -/
inductive Raised where
  /-- A single exception. -/
  | exc (e : Exc)
  /-- An `ExceptionGroup`. -/
  | group (message : String) (failures : List OsError)
deriving DecidableEq

/-! ## One attempt -/

/-- What `getaddrinfo` hands back; the address is of any type. -/
structure AddrInfo (A : Type) where
  /-- The address family. -/
  family : Int
  /-- The socket type. -/
  kind : Int
  /-- The protocol. -/
  proto : Int
  /-- The canonical name. -/
  canon : String
  /-- The address. -/
  address : A

/-- What the calls of an attempt raise, if they raise. -/
structure Outcomes where
  /-- `socket.socket(..)`. -/
  socket : Option Exc
  /-- `sock.setblocking(False)`. -/
  setblocking : Option Exc
  /-- `sock.bind(..)`, by the position of the local address. -/
  bind : ℕ → Option Exc
  /-- `sock_connect(..)`. -/
  connect : Option Exc

variable {A : Type} (repr : A → String) (lower : String → String)

/-- What is recorded for a local address that cannot be bound. -/
def bindFailure (address : A) (e : OsError) : OsError :=
  .errno e.errno? ("error while attempting to bind on address " ++ repr address ++ ": " ++
    lower e.str)

/-- The loop over the local addresses, from the `j`-th on: the failures recorded so far, and what
is raised. -/
def bindLoop (family : Int) (bind : ℕ → Option Exc) :
    ℕ → List (AddrInfo A) → List OsError → List OsError × Option Exc
  | _, [], mine =>
    match mine.getLast? with
    | some e => (mine.dropLast, some (.os e))
    | none => (mine, some (.os (.text ("no matching local address with family=" ++
        toString family ++ " found"))))
  | j, info :: rest, mine =>
    if info.family ≠ family then bindLoop family bind (j + 1) rest mine
    else
      match bind j with
      | none => (mine, none)
      | some (.os e) =>
        bindLoop family bind (j + 1) rest (mine ++ [bindFailure repr lower info.address e])
      | some exc => (mine, some exc)

/-- The handlers around everything that follows the creation of the socket. -/
def recorded : List OsError × Option Exc → List OsError × Option Exc
  | (mine, some (.os e)) => (mine ++ [e], some (.os e))
  | result => result

/-- `_connect_one` up to the `await`: the slot, and what is raised. -/
def beforeConnect (locals : Option (List (AddrInfo A))) (info : AddrInfo A) (o : Outcomes) :
    List OsError × Option Exc :=
  match o.socket with
  | some (.os e) => ([e], some (.os e))
  | some exc => ([], some exc)
  | none =>
    match o.setblocking with
    | some exc => recorded ([], some exc)
    | none =>
      match locals with
      | none => ([], none)
      | some locals => recorded (bindLoop repr lower info.family o.bind 0 locals [])

/-- `_connect_one`: the slot, and what is raised. -/
def connectOne (locals : Option (List (AddrInfo A))) (info : AddrInfo A) (o : Outcomes) :
    List OsError × Option Exc :=
  match beforeConnect repr lower locals info o with
  | (mine, some exc) => (mine, some exc)
  | (mine, none) => recorded (mine, o.connect)

/-! ## The addresses one after the other -/

/-- How the loop over the addresses ended. -/
inductive Tried where
  /-- An attempt connected. -/
  | connected
  /-- An attempt raised something that the loop does not catch. -/
  | raised (exc : Exc)
  /-- Every attempt failed. -/
  | exhausted
deriving DecidableEq

/-- The loop over the addresses, each with the outcomes of its attempt. -/
def tryEach (locals : Option (List (AddrInfo A))) :
    List (AddrInfo A × Outcomes) → List (List OsError) → List (List OsError) × Tried
  | [], errors => (errors, .exhausted)
  | (info, o) :: rest, errors =>
    match connectOne repr lower locals info o with
    | (mine, none) => (errors ++ [mine], .connected)
    | (mine, some (.os _)) => tryEach locals rest (errors ++ [mine])
    | (mine, some exc) => (errors ++ [mine], .raised exc)

/-- What is raised when there is no winner. -/
def report (allErrors : Bool) (errors : List (List OsError)) : Raised :=
  match allErrors, errors.flatten with
  | true, [] =>
    .exc (.other "ValueError" "second argument (exceptions) must be a non-empty sequence")
  | true, flattened => .group "create_connection failed" flattened
  | false, [e] => .exc (.os e)
  | false, [] => .exc (.os (.text "Multiple exceptions: (no error was recorded)"))
  | false, e :: rest =>
    if rest.all fun e' => e'.str == e.str then .exc (.os e)
    else .exc (.os (.text ("Multiple exceptions: " ++
      String.intercalate ", " ((e :: rest).map OsError.str))))

/-- `_connect_tcp` with `happy_eyeballs_delay=None`: the slots, and what is raised. -/
def sequential (allErrors : Bool) (locals : Option (List (AddrInfo A)))
    (attempts : List (AddrInfo A × Outcomes)) : List (List OsError) × Option Raised :=
  match tryEach repr lower locals attempts [] with
  | (errors, .connected) => (errors, none)
  | (errors, .raised exc) => (errors, some (.exc exc))
  | (errors, .exhausted) => (errors, some (report allErrors errors))

/-! ## The addresses side by side -/

/-- A race between the attempts. The attempts that have started are those that have a slot. -/
structure Race where
  /-- The slots, in the order the attempts started. -/
  errors : List (List OsError)
  /-- The attempts that wait for `sock_connect`. -/
  waiting : List ℕ
  /-- An attempt connected. -/
  won : Bool

/-- A step of the race. -/
inductive Event where
  /-- The next attempt starts, and runs up to its `await`. -/
  | start
  /-- `sock_connect` of an attempt ends. -/
  | finish (i : ℕ)
deriving DecidableEq

namespace Race

/-- No attempt has started. -/
def init : Race := { errors := [], waiting := [], won := false }

/-- Start an attempt. -/
def start (locals : Option (List (AddrInfo A))) (a : AddrInfo A × Outcomes) (r : Race) : Race :=
  let begun := beforeConnect repr lower locals a.1 a.2
  { r with
    errors := r.errors ++ [begun.1]
    waiting := if begun.2.isNone then r.errors.length :: r.waiting else r.waiting }

/-- End the `sock_connect` of the `i`-th attempt. -/
def finish (i : ℕ) (o : Outcomes) (r : Race) : Race :=
  let ended := recorded (r.errors.getD i [], o.connect)
  { errors := r.errors.set i ended.1, waiting := r.waiting.erase i, won := ended.2.isNone }

/-- One step; `none` if it cannot be taken. -/
def step (locals : Option (List (AddrInfo A))) (attempts : List (AddrInfo A × Outcomes))
    (r : Race) : Event → Option Race
  | .start =>
    if r.won then none
    else attempts[r.errors.length]?.map fun a => r.start repr lower locals a
  | .finish i =>
    if r.won || !(r.waiting.contains i) then none
    else attempts[i]?.map fun a => r.finish i a.2

/-- Several steps. -/
def run (locals : Option (List (AddrInfo A))) (attempts : List (AddrInfo A × Outcomes)) :
    List Event → Race → Option Race
  | [], r => some r
  | e :: events, r =>
    (r.step repr lower locals attempts e).bind fun r' => run locals attempts events r'

/-- The race is over: an attempt connected, or all have started and none is waiting. -/
def Over (attempts : List (AddrInfo A × Outcomes)) (r : Race) : Prop :=
  r.won = true ∨ r.errors.length = attempts.length ∧ r.waiting = []

/-- `_connect_tcp` with a `happy_eyeballs_delay`, once the race is over: the slots, and what is
raised. -/
def outcome (allErrors : Bool) (r : Race) : List (List OsError) × Option Raised :=
  (r.errors, if r.won then none else some (report allErrors r.errors))

end Race

/-! ## Exceptions that are no `OSError` -/

/-- Every local address of the family before the `j`-th raises an `OSError`. -/
def BindsFail (family : Int) (o : Outcomes) (before : List (AddrInfo A)) : Prop :=
  ∀ j info, before[j]? = some info → info.family = family → ∃ e, o.bind j = some (.os e)

/-- The attempt gets to `sock_connect`. -/
def Bound (locals : Option (List (AddrInfo A))) (info : AddrInfo A) (o : Outcomes) : Prop :=
  locals = none ∨ ∃ before address after, locals = some (before ++ address :: after) ∧
    BindsFail info.family o before ∧ address.family = info.family ∧ o.bind before.length = none

/-- A call that the attempt makes raises something that is no `OSError`. -/
inductive Escapes (locals : Option (List (AddrInfo A))) (info : AddrInfo A) (o : Outcomes) :
    Exc → Prop where
  /-- The socket cannot be created. -/
  | socket {exc : Exc} (hraised : o.socket = some exc) (hexc : exc.isOs = false) :
    Escapes locals info o exc
  /-- The socket cannot be made non-blocking. -/
  | setblocking {exc : Exc} (hsocket : o.socket = none) (hraised : o.setblocking = some exc)
    (hexc : exc.isOs = false) : Escapes locals info o exc
  /-- A local address cannot be bound, and those before it raised an `OSError`. -/
  | bind {exc : Exc} {before after : List (AddrInfo A)} {address : AddrInfo A}
    (hsocket : o.socket = none) (hblocking : o.setblocking = none)
    (hlocals : locals = some (before ++ address :: after))
    (hbefore : BindsFail info.family o before) (hfamily : address.family = info.family)
    (hraised : o.bind before.length = some exc) (hexc : exc.isOs = false) :
    Escapes locals info o exc
  /-- The socket cannot be connected. -/
  | connect {exc : Exc} (hsocket : o.socket = none) (hblocking : o.setblocking = none)
    (hbound : Bound locals info o) (hraised : o.connect = some exc) (hexc : exc.isOs = false) :
    Escapes locals info o exc

/-- A bind decides the loop over the local addresses: it succeeds, or it raises something that is no
`OSError`. -/
def Decided (locals : List (AddrInfo A)) (family : Int) (o : Outcomes) (x : Option Exc) : Prop :=
  ∃ before address after, locals = before ++ address :: after ∧ BindsFail family o before ∧
    address.family = family ∧ o.bind before.length = x ∧ ∀ e, x ≠ some (.os e)

variable {repr lower} {locals : Option (List (AddrInfo A))} {info : AddrInfo A} {o : Outcomes}
  {family : Int} {exc : Exc}

theorem Exc.exists_os {exc : Exc} (h : exc.isOs = true) : ∃ e, exc = .os e := by
  cases exc with
  | os e => exact ⟨e, rfl⟩
  | other name text => cases h

theorem not_os_of_isOs_eq_false (h : exc.isOs = false) (e : OsError) :
    some exc ≠ some (.os e) := by
  rintro heq
  obtain rfl := Option.some.inj heq
  cases h

theorem BindsFail.concat {before : List (AddrInfo A)} (h : BindsFail family o before)
    {info : AddrInfo A} (hinfo : info.family = family → ∃ e, o.bind before.length = some (.os e)) :
    BindsFail family o (before ++ [info]) := by
  intro j info' hj hfamily
  rcases Nat.lt_trichotomy j before.length with hlt | rfl | hgt
  · rw [List.getElem?_append_left hlt] at hj
    exact h j info' hj hfamily
  · rw [List.getElem?_concat_length] at hj
    obtain rfl := Option.some.inj hj
    exact hinfo hfamily
  · rw [List.getElem?_eq_none (by rw [List.length_append, List.length_singleton]; omega)] at hj
    cases hj

variable (repr lower) in
/-- The loop raises an `OSError`, or ends as the deciding bind does. -/
theorem bindLoop_cases (before rest : List (AddrInfo A)) (mine : List OsError)
    (hbefore : BindsFail family o before) :
    (BindsFail family o (before ++ rest) ∧
        ∃ e, (bindLoop repr lower family o.bind before.length rest mine).2 = some (.os e)) ∨
      Decided (before ++ rest) family o
        (bindLoop repr lower family o.bind before.length rest mine).2 := by
  induction rest generalizing before mine with
  | nil =>
    rw [List.append_nil]
    refine .inl ⟨hbefore, ?_⟩
    rw [bindLoop]
    split <;> exact ⟨_, rfl⟩
  | cons info rest ih =>
    have hlength : (before ++ [info]).length = before.length + 1 := List.length_append
    have hsplit : before ++ info :: rest = (before ++ [info]) ++ rest := by simp
    rw [bindLoop]
    split
    · next hfamily =>
      have hnext := ih (before ++ [info]) mine (hbefore.concat fun h => absurd h hfamily)
      rwa [hlength, ← hsplit] at hnext
    · next hfamily =>
      have hfamily : info.family = family := not_not.mp hfamily
      cases hbind : o.bind before.length with
      | none => exact .inr ⟨before, info, rest, rfl, hbefore, hfamily, hbind, by simp⟩
      | some exc =>
        cases exc with
        | other name text =>
          exact .inr ⟨before, info, rest, rfl, hbefore, hfamily, hbind, by simp⟩
        | os e =>
          have hnext := ih (before ++ [info]) (mine ++ [bindFailure repr lower info.address e])
            (hbefore.concat fun _ => ⟨e, hbind⟩)
          rwa [hlength, ← hsplit] at hnext

theorem Decided.not_bindsFail {locals : List (AddrInfo A)} {x : Option Exc}
    (h : Decided locals family o x) : ¬ BindsFail family o locals := by
  obtain ⟨before, address, after, rfl, -, hfamily, hbind, hx⟩ := h
  intro hfail
  obtain ⟨e, he⟩ := hfail before.length address (by simp) hfamily
  exact hx e (hbind.symm.trans he)

/-- Only one bind decides the loop. -/
theorem Decided.unique {locals : List (AddrInfo A)} {x y : Option Exc}
    (hx : Decided locals family o x) (hy : Decided locals family o y) : x = y := by
  obtain ⟨before, address, after, rfl, hfail, hfamily, hbind, hx⟩ := hx
  obtain ⟨before', address', after', hlocals, hfail', hfamily', hbind', hy⟩ := hy
  -- the one that comes first is not among those that fail before the other
  rcases Nat.lt_trichotomy before.length before'.length with hlt | heq | hgt
  · have hget : before'[before.length]? = some address := by
      have happend : (before' ++ address' :: after')[before.length]? = before'[before.length]? :=
        List.getElem?_append_left hlt
      rw [← happend, ← hlocals]
      simp
    obtain ⟨e, he⟩ := hfail' before.length address hget hfamily
    exact absurd (hbind.symm.trans he) (hx e)
  · exact hbind.symm.trans (heq ▸ hbind')
  · have hget : before[before'.length]? = some address' := by
      have happend : (before ++ address :: after)[before'.length]? = before[before'.length]? :=
        List.getElem?_append_left hgt
      rw [← happend, hlocals]
      simp
    obtain ⟨e, he⟩ := hfail before'.length address' hget hfamily'
    exact absurd (hbind'.symm.trans he) (hy e)

/-! ## What an attempt raises -/

theorem recorded_snd (r : List OsError × Option Exc) : (recorded r).2 = r.2 := by
  obtain ⟨mine, exc⟩ := r
  rcases exc with - | e | ⟨name, text⟩
  · rfl
  · rfl
  · rfl

/-- An `OSError` that passes the handlers is recorded. -/
theorem recorded_fst_ne_nil {r : List OsError × Option Exc} {e : OsError}
    (h : (recorded r).2 = some (.os e)) : (recorded r).1 ≠ [] := by
  rw [recorded_snd] at h
  obtain ⟨mine, exc⟩ := r
  obtain rfl : exc = some (.os e) := h
  exact List.append_ne_nil_of_right_ne_nil mine (List.cons_ne_nil e [])

variable (repr lower) in
/-- Before the `await` an attempt gets to `sock_connect`, records the `OSError` that it raises, or
raises something else. -/
theorem beforeConnect_cases (locals : Option (List (AddrInfo A))) (info : AddrInfo A)
    (o : Outcomes) :
    (∃ e, (beforeConnect repr lower locals info o).2 = some (.os e) ∧
        (beforeConnect repr lower locals info o).1 ≠ []) ∨
      (∃ exc, (beforeConnect repr lower locals info o).2 = some exc ∧ exc.isOs = false ∧
        Escapes locals info o exc) ∨
      ((beforeConnect repr lower locals info o).2 = none ∧ o.socket = none ∧
        o.setblocking = none ∧ Bound locals info o) := by
  unfold beforeConnect
  rcases hsocket : o.socket with - | e | ⟨name, text⟩
  · rcases hblocking : o.setblocking with - | e | ⟨name, text⟩
    · cases locals with
      | none => exact .inr (.inr ⟨rfl, rfl, rfl, .inl rfl⟩)
      | some locals =>
        dsimp only
        rcases bindLoop_cases repr lower []
          locals [] (by simp [BindsFail]) with ⟨-, e, he⟩ | hdecided
        · have hraised : (recorded (bindLoop repr lower info.family o.bind 0 locals [])).2 =
              some (.os e) := (recorded_snd _).trans he
          exact .inl ⟨e, hraised, recorded_fst_ne_nil hraised⟩
        · rw [recorded_snd]
          obtain ⟨before, address, after, hlocals, hbefore, hfamily, hbind, hx⟩ := hdecided
          rw [List.nil_append] at hlocals
          rw [List.length_nil] at hbind hx
          cases hloop : (bindLoop repr lower info.family o.bind 0 locals []).2 with
          | none =>
            rw [hloop] at hbind
            exact .inr (.inr ⟨rfl, rfl, rfl, .inr ⟨before, address, after, congrArg some hlocals,
              hbefore, hfamily, hbind⟩⟩)
          | some exc =>
            rw [hloop] at hbind hx
            have hexc : exc.isOs = false := by
              cases exc with
              | os e => exact absurd rfl (hx e)
              | other name text => rfl
            exact .inr (.inl ⟨exc, rfl, hexc, .bind hsocket hblocking (congrArg some hlocals)
              hbefore hfamily hbind hexc⟩)
    · exact .inl ⟨e, rfl, List.cons_ne_nil e []⟩
    · exact .inr (.inl ⟨_, rfl, rfl, .setblocking hsocket hblocking rfl⟩)
  · exact .inl ⟨e, rfl, List.cons_ne_nil e []⟩
  · exact .inr (.inl ⟨_, rfl, rfl, .socket hsocket rfl⟩)

theorem connectOne_of_some (h : (beforeConnect repr lower locals info o).2 = some exc) :
    connectOne repr lower locals info o = beforeConnect repr lower locals info o := by
  rw [connectOne]
  obtain ⟨mine, hmine⟩ : ∃ mine, beforeConnect repr lower locals info o = (mine, some exc) :=
    ⟨_, Prod.ext rfl h⟩
  rw [hmine]

theorem connectOne_of_none (h : (beforeConnect repr lower locals info o).2 = none) :
    connectOne repr lower locals info o =
      recorded ((beforeConnect repr lower locals info o).1, o.connect) := by
  rw [connectOne]
  obtain ⟨mine, hmine⟩ : ∃ mine, beforeConnect repr lower locals info o = (mine, none) :=
    ⟨_, Prod.ext rfl h⟩
  rw [hmine]

/-- An attempt that fails records the `OSError` that it raises, or raises something else. -/
theorem connectOne_cases (h : (connectOne repr lower locals info o).2 = some exc) :
    (exc.isOs = true → (connectOne repr lower locals info o).1 ≠ []) ∧
      (exc.isOs = false → Escapes locals info o exc) := by
  rcases beforeConnect_cases repr lower locals info o with
    ⟨e, he, hne⟩ | ⟨exc', he, hexc, hescapes⟩ | ⟨he, hsocket, hblocking, hbound⟩
  · rw [connectOne_of_some he] at h ⊢
    obtain rfl : exc = .os e := Option.some.inj (h.symm.trans he)
    exact ⟨fun _ => hne, fun hno => absurd hno (by simp [Exc.isOs])⟩
  · rw [connectOne_of_some he] at h
    obtain rfl : exc = exc' := Option.some.inj (h.symm.trans he)
    exact ⟨fun hno => absurd (hexc.symm.trans hno) (by simp), fun _ => hescapes⟩
  · rw [connectOne_of_none he] at h ⊢
    refine ⟨fun hos => ?_, fun hexc => ?_⟩
    · obtain ⟨e, rfl⟩ := Exc.exists_os hos
      exact recorded_fst_ne_nil h
    · exact .connect hsocket hblocking hbound ((recorded_snd _).symm.trans h) hexc

variable (repr lower) in
/-- What escapes is what the attempt raises. -/
theorem Escapes.connectOne (h : Escapes locals info o exc) :
    (connectOne repr lower locals info o).2 = some exc ∧ exc.isOs = false := by
  have hearly : exc.isOs = false → (beforeConnect repr lower locals info o).2 = some exc →
      (Connect.connectOne repr lower locals info o).2 = some exc ∧ exc.isOs = false :=
    fun hexc hbefore => ⟨(congrArg Prod.snd (connectOne_of_some hbefore)).trans hbefore, hexc⟩
  cases h with
  | socket hraised hexc =>
    refine hearly hexc ?_
    unfold beforeConnect
    rw [hraised]
    cases exc with
    | os e => cases hexc
    | other name text => rfl
  | setblocking hsocket hraised hexc =>
    refine hearly hexc ?_
    unfold beforeConnect
    rw [hsocket, hraised]
    exact recorded_snd _
  | @bind before after address hsocket hblocking hlocals hbefore hfamily hraised hexc =>
    refine hearly hexc ?_
    have hdecided : Decided (before ++ address :: after) info.family o (some exc) :=
      ⟨before, address, after, rfl, hbefore, hfamily, hraised, not_os_of_isOs_eq_false hexc⟩
    unfold beforeConnect
    rw [hsocket, hblocking, hlocals]
    rcases bindLoop_cases repr lower []
      (before ++ address :: after) [] (by simp [BindsFail]) with ⟨hfail, -⟩ | hloop
    · exact absurd hfail hdecided.not_bindsFail
    · exact (recorded_snd _).trans (Decided.unique hloop hdecided)
  | connect hsocket hblocking hbound hraised hexc =>
    have hnone : (beforeConnect repr lower locals info o).2 = none := by
      unfold beforeConnect
      rw [hsocket, hblocking]
      rcases hbound with rfl | ⟨before, address, after, rfl, hbefore, hfamily, hbind⟩
      · rfl
      · have hdecided : Decided (before ++ address :: after) info.family o none :=
          ⟨before, address, after, rfl, hbefore, hfamily, hbind, by simp⟩
        rcases bindLoop_cases repr lower []
          (before ++ address :: after) [] (by simp [BindsFail]) with ⟨hfail, -⟩ | hloop
        · exact absurd hfail hdecided.not_bindsFail
        · exact (recorded_snd _).trans (Decided.unique hloop hdecided)
    rw [connectOne_of_none hnone, recorded_snd]
    exact ⟨hraised, hexc⟩

/-! ## The two ways to try the addresses -/

/-- Every attempt fails. -/
def AllFail (repr : A → String) (lower : String → String) (locals : Option (List (AddrInfo A)))
    (attempts : List (AddrInfo A × Outcomes)) : Prop :=
  ∀ a ∈ attempts, (connectOne repr lower locals a.1 a.2).2.isSome = true

/-- The slots of the attempts, in the order of the addresses. -/
def slots (repr : A → String) (lower : String → String) (locals : Option (List (AddrInfo A)))
    (attempts : List (AddrInfo A × Outcomes)) : List (List OsError) :=
  attempts.map fun a => (connectOne repr lower locals a.1 a.2).1

instance (locals : Option (List (AddrInfo A))) (attempts : List (AddrInfo A × Outcomes)) :
    Decidable (AllFail repr lower locals attempts) :=
  inferInstanceAs (Decidable (∀ a ∈ attempts,
    (connectOne repr lower locals a.1 a.2).2.isSome = true))

variable {attempts : List (AddrInfo A × Outcomes)} {allErrors : Bool}

/-- An attempt that fails and raises nothing else raises an `OSError`. -/
theorem exists_os_of_not_escapes (hfail : (connectOne repr lower locals info o).2.isSome = true)
    (h : ∀ exc, ¬ Escapes locals info o exc) :
    ∃ e, (connectOne repr lower locals info o).2 = some (.os e) := by
  obtain ⟨exc, hexc⟩ := Option.isSome_iff_exists.mp hfail
  cases exc with
  | os e => exact ⟨e, hexc⟩
  | other name text => exact absurd ((connectOne_cases hexc).2 rfl) (h _)

/-- The loop goes through all addresses if every attempt raises an `OSError`. -/
theorem tryEach_exhausted (errors : List (List OsError))
    (h : ∀ a ∈ attempts, ∃ e, (connectOne repr lower locals a.1 a.2).2 = some (.os e)) :
    tryEach repr lower locals attempts errors =
      (errors ++ slots repr lower locals attempts, .exhausted) := by
  induction attempts generalizing errors with
  | nil => rw [tryEach, slots, List.map_nil, List.append_nil]
  | cons a rest ih =>
    obtain ⟨e, he⟩ := h a (List.mem_cons_self ..)
    have hone : connectOne repr lower locals a.1 a.2 =
        ((connectOne repr lower locals a.1 a.2).1, some (.os e)) := Prod.ext rfl he
    have hrest := ih (errors ++ [(connectOne repr lower locals a.1 a.2).1]) fun a' ha' =>
      h a' (List.mem_cons_of_mem a ha')
    rw [tryEach, hone]
    dsimp only
    rw [hrest, slots, slots, List.map_cons, List.append_assoc]
    rfl

/-- Something that is no `OSError` ends the loop. -/
theorem tryEach_raised (errors : List (List OsError))
    (hfail : AllFail repr lower locals attempts)
    (h : ∃ a ∈ attempts, ∃ exc, Escapes locals a.1 a.2 exc) :
    ∃ exc, (tryEach repr lower locals attempts errors).2 = .raised exc ∧ exc.isOs = false := by
  induction attempts generalizing errors with
  | nil =>
    obtain ⟨a, ha, -⟩ := h
    cases ha
  | cons a rest ih =>
    obtain ⟨exc, hexc⟩ := Option.isSome_iff_exists.mp (hfail a (List.mem_cons_self ..))
    have hone : connectOne repr lower locals a.1 a.2 =
        ((connectOne repr lower locals a.1 a.2).1, some exc) := Prod.ext rfl hexc
    rw [tryEach, hone]
    cases exc with
    | other name text => exact ⟨_, rfl, rfl⟩
    | os e =>
      refine ih _ (fun a' ha' => hfail a' (List.mem_cons_of_mem a ha')) ?_
      obtain ⟨a', ha', exc', hescapes⟩ := h
      rcases List.mem_cons.mp ha' with rfl | hrest
      · -- the attempt at hand raises an `OSError`
        obtain ⟨hraised, hother⟩ := Escapes.connectOne repr lower hescapes
        obtain rfl := Option.some.inj (hexc.symm.trans hraised)
        cases hother
      · exact ⟨a', hrest, exc', hescapes⟩

/-! ## The race -/

namespace Race

variable {r r' : Race} {events : List Event}

/-- What every step of a race keeps in which no attempt connects: an attempt that waits has the slot
it had at the `await`, any other that has started the slot it ends with. -/
structure Inv (repr : A → String) (lower : String → String) (locals : Option (List (AddrInfo A)))
    (attempts : List (AddrInfo A × Outcomes)) (r : Race) : Prop where
  /-- No attempt connected. -/
  lost : r.won = false
  /-- There are no more slots than attempts. -/
  started : r.errors.length ≤ attempts.length
  /-- No attempt waits twice. -/
  nodup : r.waiting.Nodup
  /-- Only attempts that have started wait. -/
  waits : ∀ i ∈ r.waiting, i < r.errors.length
  /-- The slots of those that wait. -/
  begun : ∀ i a, i ∈ r.waiting → attempts[i]? = some a →
    beforeConnect repr lower locals a.1 a.2 = (r.errors.getD i [], none)
  /-- The slots of the others. -/
  ended : ∀ i a, i < r.errors.length → i ∉ r.waiting → attempts[i]? = some a →
    r.errors[i]? = some (connectOne repr lower locals a.1 a.2).1

theorem inv_init : (init).Inv repr lower locals attempts where
  lost := rfl
  started := Nat.zero_le _
  nodup := List.nodup_nil
  waits := fun _ hi => absurd hi List.not_mem_nil
  begun := fun _ _ hi => absurd hi List.not_mem_nil
  ended := fun i _ hi => absurd hi (Nat.not_lt_zero i)

/-- The next attempt starts. -/
theorem Inv.start (h : r.Inv repr lower locals attempts) {a : AddrInfo A × Outcomes}
    (ha : attempts[r.errors.length]? = some a) :
    (r.start repr lower locals a).Inv repr lower locals attempts := by
  have hlt : r.errors.length < attempts.length := (List.getElem?_eq_some_iff.mp ha).1
  have hfresh : r.errors.length ∉ r.waiting := fun hmem => absurd (h.waits _ hmem) (Nat.lt_irrefl _)
  have hlength : (r.start repr lower locals a).errors.length = r.errors.length + 1 :=
    List.length_append
  have hold : ∀ i < r.errors.length, (r.start repr lower locals a).errors[i]? = r.errors[i]? :=
    fun i hi => List.getElem?_append_left hi
  have hnew : (r.start repr lower locals a).errors[r.errors.length]? =
      some (beforeConnect repr lower locals a.1 a.2).1 := List.getElem?_concat_length
  have hwaiting : ∀ i, i ∈ (r.start repr lower locals a).waiting ↔
      i ∈ r.waiting ∨ i = r.errors.length ∧ (beforeConnect repr lower locals a.1 a.2).2 = none := by
    intro i
    change i ∈ (if _ then _ else _) ↔ _
    cases hbegun : (beforeConnect repr lower locals a.1 a.2).2 <;> simp [or_comm]
  refine ⟨h.lost, hlength ▸ hlt, ?_, fun i hi => ?_, fun i a' hi ha' => ?_,
    fun i a' hi hwait ha' => ?_⟩
  · change (if _ then _ else _ : List ℕ).Nodup
    split
    · exact List.nodup_cons.mpr ⟨hfresh, h.nodup⟩
    · exact h.nodup
  · rw [hlength]
    rcases (hwaiting i).mp hi with hmem | ⟨rfl, -⟩
    · exact Nat.lt_succ_of_lt (h.waits i hmem)
    · exact Nat.lt_succ_self _
  · rcases (hwaiting i).mp hi with hmem | ⟨rfl, hnone⟩
    · rw [h.begun i a' hmem ha', List.getD_eq_getElem?_getD, List.getD_eq_getElem?_getD,
        hold i (h.waits i hmem)]
    · obtain rfl : a = a' := Option.some.inj (ha.symm.trans ha')
      rw [List.getD_eq_getElem?_getD, hnew]
      exact Prod.ext rfl hnone
  · have hnot := not_or.mp (mt (hwaiting i).mpr hwait)
    rcases Nat.lt_succ_iff_lt_or_eq.mp (hlength ▸ hi) with hlt' | rfl
    · rw [hold i hlt']
      exact h.ended i a' hlt' hnot.1 ha'
    · obtain rfl : a = a' := Option.some.inj (ha.symm.trans ha')
      rw [hnew]
      -- it raised something before the `await`
      obtain ⟨exc, hexc⟩ := Option.ne_none_iff_exists'.mp fun hnone => hnot.2 ⟨rfl, hnone⟩
      rw [connectOne_of_some hexc]

/-- The connection of an attempt fails. -/
theorem Inv.finish (h : r.Inv repr lower locals attempts) {i : ℕ} {a : AddrInfo A × Outcomes}
    (ha : attempts[i]? = some a) (hwait : i ∈ r.waiting)
    (hfail : (connectOne repr lower locals a.1 a.2).2.isSome = true) :
    (r.finish i a.2).Inv repr lower locals attempts := by
  have hbegun := h.begun i a hwait ha
  have hended : recorded (r.errors.getD i [], a.2.connect) =
      connectOne repr lower locals a.1 a.2 := by
    rw [connectOne_of_none (congrArg Prod.snd hbegun), hbegun]
  have hlength : (r.finish i a.2).errors.length = r.errors.length := List.length_set
  have hself : (r.finish i a.2).errors[i]? = some (connectOne repr lower locals a.1 a.2).1 := by
    change (r.errors.set i (recorded _).1)[i]? = _
    rw [hended, List.getElem?_set_self (h.waits i hwait)]
  have hother : ∀ j, j ≠ i → (r.finish i a.2).errors[j]? = r.errors[j]? :=
    fun j hj => List.getElem?_set_ne hj.symm
  refine ⟨?_, hlength ▸ h.started, h.nodup.erase i, fun j hj => ?_, fun j a' hj ha' => ?_,
    fun j a' hj hnot ha' => ?_⟩
  · change (recorded _).2.isNone = false
    rw [hended]
    simpa using hfail
  · rw [hlength]
    exact h.waits j (List.mem_of_mem_erase hj)
  · have hne : j ≠ i := fun heq => h.nodup.not_mem_erase (heq ▸ hj)
    rw [h.begun j a' (List.mem_of_mem_erase hj) ha', List.getD_eq_getElem?_getD,
      List.getD_eq_getElem?_getD, hother j hne]
  · rcases eq_or_ne j i with rfl | hne
    · obtain rfl : a = a' := Option.some.inj (ha.symm.trans ha')
      exact hself
    · rw [hother j hne]
      exact h.ended j a' (hlength ▸ hj) (fun hmem => hnot ((List.mem_erase_of_ne hne).mpr hmem)) ha'

theorem Inv.step (h : r.Inv repr lower locals attempts) (hfail : AllFail repr lower locals attempts)
    {e : Event} (hstep : r.step repr lower locals attempts e = some r') :
    r'.Inv repr lower locals attempts := by
  cases e with
  | start =>
    rw [Race.step, if_neg (by simp [h.lost])] at hstep
    obtain ⟨a, ha, rfl⟩ := Option.map_eq_some_iff.mp hstep
    exact h.start ha
  | finish i =>
    rw [Race.step] at hstep
    split at hstep
    · cases hstep
    · next hwait =>
      obtain ⟨a, ha, rfl⟩ := Option.map_eq_some_iff.mp hstep
      have hmem : i ∈ r.waiting := by simpa [h.lost] using hwait
      exact h.finish ha hmem (hfail a (List.mem_of_getElem? ha))

theorem Inv.run (h : r.Inv repr lower locals attempts) (hfail : AllFail repr lower locals attempts)
    (hrun : run repr lower locals attempts events r = some r') :
    r'.Inv repr lower locals attempts := by
  induction events generalizing r with
  | nil =>
    obtain rfl := Option.some.inj hrun
    exact h
  | cons e events ih =>
    obtain ⟨r₁, hstep, hrest⟩ := Option.bind_eq_some_iff.mp hrun
    exact ih (h.step hfail hstep) hrest

/-- When all have failed, the slots are those of the attempts, in the order of the addresses. -/
theorem errors_of_over (hfail : AllFail repr lower locals attempts)
    (hrun : run repr lower locals attempts events init = some r) (hover : r.Over attempts) :
    r.won = false ∧ r.errors = slots repr lower locals attempts := by
  have hinv : r.Inv repr lower locals attempts := inv_init.run hfail hrun
  obtain ⟨hlength, hwaiting⟩ := hover.resolve_left (by simp [hinv.lost])
  refine ⟨hinv.lost, List.ext_getElem? fun i => ?_⟩
  rw [slots, List.getElem?_map]
  cases ha : attempts[i]? with
  | none =>
    have hle := List.getElem?_eq_none_iff.mp ha
    rw [List.getElem?_eq_none (hlength ▸ hle)]
    rfl
  | some a =>
    have hlt := (List.getElem?_eq_some_iff.mp ha).1
    exact hinv.ended i a (hlength ▸ hlt) (by simp [hwaiting]) ha

end Race

/-! ## Agreement -/

/-- Nothing that an `OSError` or a group is made of is any other exception. -/
theorem report_ne_other {errors : List (List OsError)} (hne : errors.flatten ≠ [])
    (hexc : exc.isOs = false) : report allErrors errors ≠ .exc exc := by
  cases hflat : errors.flatten with
  | nil => exact absurd hflat hne
  | cons e rest =>
    unfold report
    rw [hflat]
    cases allErrors with
    | true => simp
    | false =>
      rintro heq
      cases rest with
      | nil =>
        obtain rfl := Raised.exc.inj heq
        cases hexc
      | cons e' rest =>
        dsimp only at heq
        split at heq
        · obtain rfl := Raised.exc.inj heq
          cases hexc
        · obtain rfl := Raised.exc.inj heq
          cases hexc

/-- Whether the addresses are tried one after the other or side by side, the same failures are
recorded and raised, at least one, in the order of the addresses. That is so exactly if no call that
an attempt makes raises something that is no `OSError`. -/
theorem failures_agree_iff (hne : attempts ≠ []) (hfail : AllFail repr lower locals attempts)
    {events : List Event} {r : Race}
    (hrun : Race.run repr lower locals attempts events .init = some r) (hover : r.Over attempts) :
    ((sequential repr lower allErrors locals attempts).1.flatten ≠ [] ∧ r.errors.flatten ≠ [] ∧
        r.outcome allErrors = sequential repr lower allErrors locals attempts) ↔
      ∀ a ∈ attempts, ∀ exc, ¬ Escapes locals a.1 a.2 exc := by
  obtain ⟨hwon, herrors⟩ := Race.errors_of_over hfail hrun hover
  constructor
  · rintro ⟨-, hrecorded, hsame⟩ a ha exc hescapes
    obtain ⟨exc', hraised, hexc'⟩ := tryEach_raised [] hfail ⟨a, ha, exc, hescapes⟩
    -- one after the other, this exception is raised
    have hsequential : (sequential repr lower allErrors locals attempts).2 = some (.exc exc') := by
      obtain ⟨errors, htried⟩ :
          ∃ errors, tryEach repr lower locals attempts [] = (errors, .raised exc') :=
        ⟨_, Prod.ext rfl hraised⟩
      rw [sequential, htried]
    have hraced : (r.outcome allErrors).2 = some (report allErrors r.errors) := by
      rw [Race.outcome, hwon]
      rfl
    have hreport := hraced.symm.trans ((congrArg Prod.snd hsame).trans hsequential)
    exact report_ne_other hrecorded hexc' (Option.some.inj hreport)
  · intro h
    have hos : ∀ a ∈ attempts, ∃ e, (connectOne repr lower locals a.1 a.2).2 = some (.os e) :=
      fun a ha => exists_os_of_not_escapes (hfail a ha) (h a ha)
    have htried := tryEach_exhausted [] hos
    rw [List.nil_append] at htried
    have hrecorded : (slots repr lower locals attempts).flatten ≠ [] := by
      obtain ⟨a, ha⟩ := List.exists_mem_of_ne_nil attempts hne
      obtain ⟨e, he⟩ := hos a ha
      intro hnil
      exact (connectOne_cases he).1 rfl
        (List.flatten_eq_nil_iff.mp hnil _ (List.mem_map_of_mem ha))
    have hsequential : sequential repr lower allErrors locals attempts =
        (slots repr lower locals attempts,
          some (report allErrors (slots repr lower locals attempts))) := by
      rw [sequential, htried]
    refine ⟨?_, herrors ▸ hrecorded, ?_⟩
    · rw [hsequential]
      exact hrecorded
    · rw [hsequential, Race.outcome, hwon, herrors]
      rfl

/-- A stream socket for an IPv4 address. -/
def v4 (address : String) : AddrInfo String :=
  { family := 2, kind := 1, proto := 6, canon := "", address }

/-- `ECONNREFUSED`. -/
def refused : OsError := .errno (some 111) "Connection refused"

/-- Both of two addresses refuse the connection. -/
def twoRefused : List (AddrInfo String × Outcomes) :=
  [(v4 "10.0.0.1", ⟨none, none, fun _ => none, some (.os refused)⟩),
    (v4 "10.0.0.2", ⟨none, none, fun _ => none, some (.os refused)⟩)]

/-- The second attempt loses before the first does. -/
theorem failures_agree_two_refused :
    ∃ r, Race.run id id none twoRefused [.start, .start, .finish 1, .finish 0] .init = some r ∧
      r.errors = [[refused], [refused]] ∧
      r.outcome false = sequential id id false none twoRefused := by
  have hrun : Race.run id id none twoRefused [.start, .start, .finish 1, .finish 0] .init =
      some ⟨[[refused], [refused]], [], false⟩ := rfl
  have hrefused : ∀ a ∈ twoRefused, (connectOne id id none a.1 a.2).2 = some (.os refused) := by
    decide
  have hno : ∀ a ∈ twoRefused, ∀ exc, ¬ Escapes none a.1 a.2 exc := fun a ha exc hescapes => by
    obtain ⟨hraised, hexc⟩ := Escapes.connectOne id id hescapes
    obtain rfl := Option.some.inj ((hrefused a ha).symm.trans hraised)
    cases hexc
  refine ⟨_, hrun, rfl, ?_⟩
  exact ((failures_agree_iff (by decide) (by decide) hrun (.inr ⟨rfl, rfl⟩)).mpr hno).2.2

/-- `local_addr=("127.0.0.1", 70000)`. -/
def portTooLarge : Option (List (AddrInfo String)) := some [v4 "127.0.0.1:70000"]

/-- `OverflowError`. -/
def portOverflow : Exc := .other "OverflowError" "bind(): port must be 0-65535."

/-- A local port out of range, which `bind` refuses with an `OverflowError`. -/
def overflowing : List (AddrInfo String × Outcomes) :=
  [(v4 "10.0.0.1", ⟨none, none, fun _ => some portOverflow, none⟩)]

/-- One after the other the `OverflowError` is raised. In a race it is lost, and an `OSError` says
that no error was recorded. -/
theorem failures_disagree :
    ∃ r, Race.run id id portTooLarge overflowing [.start] .init = some r ∧ r.Over overflowing ∧
      AllFail id id portTooLarge overflowing ∧
      sequential id id false portTooLarge overflowing = ([[]], some (.exc portOverflow)) ∧
      r.outcome false =
        ([[]], some (.exc (.os (.text "Multiple exceptions: (no error was recorded)")))) ∧
      ¬ (r.errors.flatten ≠ [] ∧
        r.outcome false = sequential id id false portTooLarge overflowing) :=
  ⟨⟨[[]], [], false⟩, rfl, .inr ⟨rfl, rfl⟩, by decide, rfl, rfl, fun h => h.1 rfl⟩

end Zuvloop.Connect
