import Mathlib.Data.Int.Notation
import Mathlib.Data.List.Basic
import Mathlib.Data.List.Count
import Zuvloop.Transition

/-!
# The contexts that callbacks run in

A handle runs its callback in a `contextvars.Context`: one that was supplied when it was scheduled,
or else a copy of the context of the caller. An empty copy is not made until it is needed, and then
comes from a pool that the loop keeps of empty contexts, where it goes back to when the handle is
released. The functions are those of `zig/context.zig`, and what `zig/loop.zig`, `zig/handle.zig`,
`zig/tshandle.zig` and `zig/timer.zig` do with contexts.

A step is one native function, or one thing Python code does with a context, on one thread; each
runs while it has the interpreter to itself. The reference counts are those of CPython: whoever
holds a context has taken a reference, and so has a thread that has entered it and a token that a
variable can be reset with.

## Main definitions

* `Context`, `Handle`, `State`: contexts with their reference counts, handles, and who else holds a
  context.
* `capture`, `materialize`, `release`: how a handle gets a context, and gives it up.
* `machine`: what loop, threads and Python code do, in any order.
-/

namespace Zuvloop.Contexts

/-- What a context variable is set to, and by which callback. -/
structure Binding where
  value : ℤ
  setter : Option ℕ
  deriving DecidableEq, Repr

/-- A `contextvars.Context`. -/
structure Context where
  /-- The variables that are set. -/
  vars : List (ℕ × Binding) := []
  /-- Whether a thread has entered it. -/
  entered : Bool := false
  /-- How many weak references there are. -/
  weakrefs : ℕ := 0
  /-- The reference count; zero once it has been freed. -/
  refs : ℕ := 0
  deriving DecidableEq, Repr

/-- The types of handles. -/
inductive Kind where
  /-- What `call_soon` returns. -/
  | plain
  /-- What `call_soon_threadsafe` returns. -/
  | threadsafe
  /-- What `call_later` and `call_at` return. -/
  | timer
  deriving DecidableEq, Repr

/-- A handle. -/
structure Handle where
  kind : Kind := .plain
  /-- Its context, if it has one yet. -/
  context : Option ℕ := none
  /-- The `captured` flag: the context was not supplied. -/
  captured : Bool := false
  /-- Whether it still has its callback. -/
  callback : Bool := false
  /-- Whether it still has its loop. -/
  loop : Bool := false
  cancelled : Bool := false
  running : Bool := false
  /-- A thread-safe handle runs once. -/
  done : Bool := false
  /-- A context was supplied when it was created. -/
  supplied : Bool := false
  /-- It was scheduled with an empty implicit context. -/
  empty : Bool := false
  /-- Python code has obtained its context. -/
  obtained : Bool := false
  deriving DecidableEq, Repr

/-- A context that is current on a thread, or will be again. -/
structure Frame where
  thread : ℕ
  ctx : ℕ
  /-- The callback that is running. -/
  owner : Option ℕ
  /-- Whether the callback was run in this context, rather than entered it with `Context.run`. -/
  direct : Bool
  /-- Whether it has been entered; the first context of a thread is not. -/
  entered : Bool
  deriving DecidableEq, Repr

/-- What `ContextVar.set` returns. -/
structure Token where
  ctx : ℕ
  var : ℕ
  /-- What the variable was set to before. -/
  old : Option Binding
  used : Bool := false
  deriving DecidableEq, Repr

/-- A callback has looked up a variable in the context it was run in. -/
structure Sight where
  /-- The callback. -/
  reader : ℕ
  /-- The callback that had set the variable. -/
  setter : Option ℕ
  /-- The callback was scheduled with an empty implicit context. -/
  empty : Bool
  /-- Python code had obtained the context by then. -/
  obtained : Bool
  deriving DecidableEq, Repr

/-- The loop, and everything that refers to a context. -/
structure State where
  /-- Every context there ever was. -/
  contexts : List Context := []
  /-- Every handle there ever was. -/
  handles : List Handle := []
  /-- `State.empty_contexts`, the top first. -/
  pool : List ℕ := []
  /-- `State.closed`. -/
  closed : Bool := false
  /-- `State.thread_id`: the thread the loop runs on. -/
  thread : Option ℕ := none
  /-- The contexts of the threads, the current one of each thread first. -/
  frames : List Frame := []
  /-- The contexts that Python code, a transport or a process holds. -/
  held : List ℕ := []
  tokens : List Token := []
  /-- Which handle put which context into the pool. -/
  pooled : List (ℕ × ℕ) := []
  /-- What callbacks have seen. -/
  seen : List Sight := []

/-- `context_pool_capacity`. -/
def contextPoolCapacity : ℕ := 16

namespace State

/-- The context with the given index. -/
def ctx (s : State) (c : ℕ) : Context := s.contexts.getD c {}

/-- The handle with the given index. -/
def handle (s : State) (i : ℕ) : Handle := s.handles.getD i {}

/-- Change a context. -/
def updateCtx (c : ℕ) (f : Context → Context) (s : State) : State :=
  { s with contexts := s.contexts.modify c f }

/-- Change a handle. -/
def updateHandle (i : ℕ) (f : Handle → Handle) (s : State) : State :=
  { s with handles := s.handles.modify i f }

/-- `Py_INCREF`. -/
def incref (c : ℕ) (s : State) : State := s.updateCtx c fun x => { x with refs := x.refs + 1 }

/-- `Py_DECREF`. -/
def decref (c : ℕ) (s : State) : State := s.updateCtx c fun x => { x with refs := x.refs - 1 }

/-- A new context, with one reference; its index is the number of contexts so far. -/
def newContext (vars : List (ℕ × Binding)) (s : State) : State :=
  { s with contexts := s.contexts ++ [{ vars := vars, refs := 1 }] }

/-- Python code holds a context. -/
def hold (c : ℕ) (s : State) : State := { s with held := c :: s.held }

/-- The innermost frame of a thread. -/
def top (s : State) (t : ℕ) : Option Frame := s.frames.find? fun f => f.thread = t

/-- The current context of a thread. -/
def current (s : State) (t : ℕ) : Option ℕ := (s.top t).map Frame.ctx

/-- The callback that is running on a thread. -/
def owner (s : State) (t : ℕ) : Option ℕ := (s.top t).bind Frame.owner

/-- `PyContext_Enter`, of a context that has not been entered. -/
def enter (f : Frame) (s : State) : State :=
  let s := (s.incref f.ctx).updateCtx f.ctx fun x => { x with entered := true }
  { s with frames := f :: s.frames }

/-- `PyContext_Exit`. -/
def exit (f : Frame) (s : State) : State :=
  let s := (s.updateCtx f.ctx fun x => { x with entered := false }).decref f.ctx
  { s with frames := s.frames.erase f }

/-- A thread without a context gets one when it needs it. -/
def ensureCurrent (t : ℕ) (s : State) : State :=
  match s.current t with
  | some _ => s
  | none =>
    let c := s.contexts.length
    let s := s.newContext []
    { s with frames := ⟨t, c, none, false, false⟩ :: s.frames }

/-- The variables of the current context. -/
def currentVars (s : State) (t : ℕ) : List (ℕ × Binding) :=
  match s.current t with
  | some c => (s.ctx c).vars
  | none => []

/-- `isRunningThread`. -/
def isRunningThread (s : State) (t : ℕ) : Bool := s.thread = some t

/-- `takeEmptyContext`. -/
def takeEmptyContext (s : State) : Option (ℕ × State) :=
  match s.pool with
  | [] => none
  | c :: pool => some (c, { s with pool := pool })

/-- `recycleEmptyContext`. -/
def recycleEmptyContext (c : ℕ) (s : State) : Option State :=
  if s.closed || s.pool.length == contextPoolCapacity then none
  else some { s with pool := c :: s.pool }

/-- `clearEmptyContexts`. -/
def clearEmptyContexts (s : State) : State :=
  { s.pool.foldl (fun s c => s.decref c) s with pool := [] }

/-- Change the context of a handle. -/
def setContext (i : ℕ) (c : Option ℕ) (s : State) : State :=
  s.updateHandle i fun h => { h with context := c }

end State

open State

/-! ## The functions of the source -/

/-- `capture`: the context for a new handle, and whether it was captured; `none` if there is no
memory for a copy. -/
def capture (explicit : Option ℕ) (t : ℕ) (memory : Bool) (s : State) :
    Option (Option ℕ × Bool × State) :=
  match explicit with
  | some c => some (some c, false, s.incref c)
  | none =>
    if (s.currentVars t).length = 0 then some (none, true, s)
    else if memory then
      some (some s.contexts.length, true, s.newContext (s.currentVars t))
    else none

/-- `materialize`: the context of a handle, which is borrowed from the pool or made if it has none;
`none` if there is no memory. -/
def materialize (i t : ℕ) (memory : Bool) (s : State) : Option (ℕ × State) :=
  match (s.handle i).context with
  | some c => some (c, s)
  | none =>
    let taken := if (s.handle i).loop && s.isRunningThread t then s.takeEmptyContext else none
    match taken with
    | some (c, s) => some (c, s.setContext i (some c))
    | none =>
      if memory then
        some (s.contexts.length, (s.newContext []).setContext i (some s.contexts.length))
      else none

/-- `release`: a captured context that nobody else refers to and that is as good as new goes into
the pool of the running loop. -/
def release (i t : ℕ) (s : State) : State :=
  match (s.handle i).context with
  | none => s
  | some c =>
    let h := s.handle i
    let s := s.setContext i none
    let reusable := h.captured && (s.ctx c).refs == 1 && (s.ctx c).vars.length == 0 &&
      (s.ctx c).weakrefs == 0 && !(s.ctx c).entered && h.loop && s.isRunningThread t
    match if reusable then s.recycleEmptyContext c else none with
    | some s => { s with pooled := s.pooled ++ [(i, c)] }
    | none => s.decref c

/-- `create`, of `handle.zig` and `tshandle.zig`. -/
def create (kind : Kind) (explicit : Option ℕ) (t : ℕ) (memory : Bool) (s : State) : State :=
  match capture explicit t memory s with
  | none => s
  | some (context, captured, s) =>
    { s with handles := s.handles ++ [{
        kind := kind, context := context, captured := captured, callback := true, loop := true
        supplied := explicit.isSome, empty := captured && context.isNone }] }

/-- `create`, of `timer.zig`: an implicit context is always copied. -/
def createTimer (explicit : Option ℕ) (t : ℕ) (memory : Bool) (s : State) : State :=
  match explicit with
  | some c =>
    let s := s.incref c
    { s with handles := s.handles ++ [{
        kind := .timer, context := some c, callback := true, loop := true, supplied := true }] }
  | none =>
    if memory then
      let s := s.ensureCurrent t
      let vars := s.currentVars t
      let c := s.contexts.length
      let s := s.newContext vars
      { s with handles := s.handles ++ [{
          kind := .timer, context := some c, callback := true, loop := true
          empty := vars.length == 0 }] }
    else s

/-- The end of `run`: what a cancellation has left behind is cleared. -/
def finish (i : ℕ) (s : State) : State :=
  s.updateHandle i fun h =>
    { h with running := false, done := true, callback := h.callback && !h.cancelled }

/-- The beginning of `run`, up to the call of the callback, if it gets that far. -/
def run (i t : ℕ) (memory : Bool) (s : State) : State :=
  let h := s.handle i
  let idle := if h.kind = .threadsafe then h.running || h.done else h.cancelled
  if idle || !h.callback then s
  else
    let s := s.updateHandle i fun h => { h with running := true }
    match materialize i t memory s with
    | none => finish i s
    | some (c, s) =>
      if (s.ctx c).entered then finish i s
      else s.enter ⟨t, c, some i, true, true⟩

/-- `cancel`. -/
def cancel (i : ℕ) (s : State) : State :=
  s.updateHandle i fun h =>
    { h with
      cancelled := true
      done := h.done || (h.kind = .threadsafe && !h.running)
      callback := h.callback && h.running }

/-- `get_context`, or the attribute `_context` of the other two types. -/
def getContext (i t : ℕ) (memory : Bool) (s : State) : State :=
  let found := if (s.handle i).kind = .timer then (s.handle i).context.map fun c => (c, s)
    else materialize i t memory s
  match found with
  | none => s
  | some (c, s) =>
    ((s.incref c).hold c).updateHandle i fun h => { h with obtained := true }

/-- `dealloc` and `clear_`: the callback, the context, then the loop. -/
def dealloc (i t : ℕ) (s : State) : State :=
  (release i t (s.updateHandle i fun h => { h with callback := false })).updateHandle i
    fun h => { h with loop := false }

/-! ## Context variables -/

/-- Set a variable. -/
def bindVar (v : ℕ) (b : Binding) (vars : List (ℕ × Binding)) : List (ℕ × Binding) :=
  (v, b) :: vars.filter fun entry => entry.1 ≠ v

/-- What a token puts back. -/
def restoreVar (v : ℕ) (old : Option Binding) (vars : List (ℕ × Binding)) : List (ℕ × Binding) :=
  match old with
  | some b => bindVar v b vars
  | none => vars.filter fun entry => entry.1 ≠ v

/-- `ContextVar.set`. -/
def setVar (t v : ℕ) (x : ℤ) (s : State) : State :=
  let s := s.ensureCurrent t
  match s.current t with
  | none => s
  | some c =>
    let token : Token := ⟨c, v, (s.ctx c).vars.lookup v, false⟩
    let s := { s.incref c with tokens := token :: s.tokens }
    s.updateCtx c fun y => { y with vars := bindVar v ⟨x, s.owner t⟩ y.vars }

/-- `ContextVar.get`. -/
def getVar (t v : ℕ) (s : State) : State :=
  match s.top t with
  | none => s
  | some f =>
    match f.owner, (s.ctx f.ctx).vars.lookup v with
    | some i, some b =>
      if f.direct then
        { s with seen :=
          s.seen ++ [⟨i, b.setter, (s.handle i).empty, (s.handle i).obtained⟩] }
      else s
    | _, _ => s

/-- `ContextVar.reset`, with a token of the current context that has not been used. -/
def resetVar (t k : ℕ) (s : State) : Option State :=
  match s.tokens[k]? with
  | none => none
  | some token =>
    if !token.used && s.current t == some token.ctx then
      some (({ s with tokens := s.tokens.modify k fun x => { x with used := true } }).updateCtx
        token.ctx fun y => { y with vars := restoreVar token.var token.old y.vars })
    else none

/-! ## The machine -/

/-- What can happen. -/
inductive Label where
  /-- A handle is created on a thread, with a supplied context or an implicit one. -/
  | create (kind : Kind) (explicit : Option ℕ) (t : ℕ) (memory : Bool)
  /-- A handle starts to run. -/
  | run (i t : ℕ) (memory : Bool)
  | getContext (i t : ℕ) (memory : Bool)
  | cancel (i : ℕ)
  /-- A handle is released, or cleared by the collector. -/
  | dealloc (i t : ℕ)
  /-- `Context.run`, or a protocol callback in the context of its transport. -/
  | enter (t c : ℕ)
  /-- What was run in the current context of a thread returns. -/
  | leave (t : ℕ)
  | setVar (t v : ℕ) (x : ℤ)
  | getVar (t v : ℕ)
  | resetVar (t k : ℕ)
  | dropToken (k : ℕ)
  /-- `copy_context`. -/
  | copyContext (t : ℕ)
  /-- `contextvars.Context()`. -/
  | newContext
  /-- Python code gives up a reference. -/
  | drop (c : ℕ)
  | weakref (c : ℕ)
  | dropWeakref (c : ℕ)
  /-- Python code calls a weak reference. -/
  | deref (c : ℕ)
  /-- The loop starts to run on a thread. -/
  | runLoop (t : ℕ)
  | stopLoop
  | close
  deriving DecidableEq, Repr

/-- Where a label leads. What Python code does with a context it does with one that it holds. -/
def step (s : State) : Label → Option State
  | .create kind explicit t memory =>
    if explicit.all fun c => c ∈ s.held then
      some (if kind = .timer then createTimer explicit t memory s
        else create kind explicit t memory s)
    else none
  | .run i t memory => some (run i t memory s)
  | .getContext i t memory =>
    if i < s.handles.length then some (getContext i t memory s) else none
  | .cancel i => some (cancel i s)
  | .dealloc i t =>
    -- whoever runs a handle holds a reference to it
    if s.frames.all fun f => !f.direct || f.owner ≠ some i then some (dealloc i t s) else none
  | .enter t c =>
    if c ∈ s.held && !(s.ctx c).entered then some (s.enter ⟨t, c, s.owner t, false, true⟩)
    else none
  | .leave t =>
    match s.top t with
    | none => none
    | some f =>
      if f.entered then
        some (match f.direct, f.owner with
          | true, some i => finish i (s.exit f)
          | _, _ => s.exit f)
      else none
  | .setVar t v x => some (setVar t v x s)
  | .getVar t v => some (getVar t v s)
  | .resetVar t k => resetVar t k s
  | .dropToken k =>
    match s.tokens[k]? with
    | none => none
    | some token => some { s.decref token.ctx with tokens := s.tokens.eraseIdx k }
  | .copyContext t =>
    let s := s.ensureCurrent t
    some ((s.newContext (s.currentVars t)).hold s.contexts.length)
  | .newContext => some ((s.newContext []).hold s.contexts.length)
  | .drop c =>
    if c ∈ s.held then some { s.decref c with held := s.held.erase c } else none
  | .weakref c =>
    if c ∈ s.held then some (s.updateCtx c fun x => { x with weakrefs := x.weakrefs + 1 })
    else none
  | .dropWeakref c =>
    if (s.ctx c).weakrefs ≠ 0 then
      some (s.updateCtx c fun x => { x with weakrefs := x.weakrefs - 1 })
    else none
  | .deref c =>
    if (s.ctx c).weakrefs ≠ 0 && (s.ctx c).refs ≠ 0 then some ((s.incref c).hold c) else none
  | .runLoop t => if s.closed || s.thread.isSome then none else some { s with thread := some t }
  | .stopLoop => some { s with thread := none }
  | .close =>
    if s.closed || s.thread.isSome then none
    else some ({ s with closed := true }).clearEmptyContexts

/-- A new loop, without any contexts. -/
def machine : Transition.Machine State Label := ⟨{}, step⟩

end Zuvloop.Contexts
