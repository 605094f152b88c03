import Mathlib.Data.List.ReduceOption
import Zuvloop.Stream.Verified

/-!
# The reason of a close

`forceClose` keeps the reason it is given, over any it has kept before; without a reason (an abort)
it keeps what there is. So `connection_lost` gets the last reason of all, and the first forced close
has the last word only if no later one brings another reason.

## Main results

* `connection_lost_reason_iff`: when `connection_lost` gets the reason of the first forced close.
* `connection_lost_reason_of_abort`: a callback that aborts and then raises gets its own exception.
-/

namespace Zuvloop.Stream

open Reentrant

/-- The reasons of the forced closes of a history, oldest first. -/
def reasons (h : List Event) : List (Option Exc) :=
  h.filterMap fun e =>
    match e with
    | .forced _ exc => some exc
    | _ => none

/-- The last reason that is given, if any is. -/
def lastReason (l : List (Option Exc)) : Option Exc := l.foldl (fun kept exc => exc.or kept) none

/-- `connection_lost` was queued with the reason of the first forced close before it. -/
def Transport.FirstReasonWins (tr : Transport) : Prop :=
  ∀ before exc after first later, tr.history = before ++ .connectionLostQueued exc :: after →
    reasons before = first :: later → exc = first

theorem reasons_concat (h : List Event) (e : Event) :
    reasons (h ++ [e]) = reasons h ++ (match e with
      | .forced _ exc => [exc]
      | _ => []) := by
  rw [reasons, List.filterMap_append]
  cases e <;> rfl

theorem lastReason_concat (l : List (Option Exc)) (exc : Option Exc) :
    lastReason (l ++ [exc]) = exc.or (lastReason l) := by
  rw [lastReason, List.foldl_append]
  rfl

/-- A reason that nobody replaces stays. -/
theorem lastReason_cons (first : Option Exc) (later : List (Option Exc)) :
    lastReason (first :: later) = (later.reduceOption.getLast?).or first := by
  induction later using List.reverseRecOn with
  | nil => simp [lastReason, List.reduceOption]
  | append_singleton later exc ih =>
    rw [← List.cons_append, lastReason_concat, ih, List.reduceOption_append]
    cases exc with
    | none => simp [List.reduceOption]
    | some e => simp [List.reduceOption]

/-! ## What every act keeps -/

/-- The reason kept is what `forceClose` makes of it. -/
theorem Act.connLostExc_run (a : Act) (tr : Transport) : (a.run tr).connLostExc =
    match a with
    | .force _ exc => exc.or tr.connLostExc
    | _ => tr.connLostExc := by
  cases a with
  | setClosing =>
    unfold Act.run
    dsimp only
    split <;> rfl
  | pauseWriting | resumeWriting =>
    unfold Act.run
    dsimp only
    rw [Transport.recordCall_eq]
  | _ => rfl

/-- The last reason is kept, whatever an act does. -/
theorem Act.kept_run {tr : Transport} (h : tr.connLostExc = lastReason (reasons tr.history))
    (a : Act) : (a.run tr).connLostExc = lastReason (reasons (a.run tr).history) := by
  cases he : a.event tr with
  | none =>
    rw [history_run_of_none he, ← h, connLostExc_run]
    cases a <;> first | rfl | cases he
  | some e =>
    have hr := records_of_event he
    rw [history_run_of_event he, reasons_concat, connLostExc_run]
    cases a with
    | force cause exc =>
      obtain rfl : e = .forced cause exc := (Option.some.inj he).symm
      rw [lastReason_concat, h]
    | _ =>
      cases e with
      | forced cause exc => cases hr
      | _ => simp only [List.append_nil, h]

theorem Reachable.kept {s : State} (h : Reachable s) (t : ℕ) :
    (s.tr t).connLostExc = lastReason (reasons (s.tr t).history) :=
  h.transport (I := fun tr => tr.connLostExc = lastReason (reasons tr.history)) rfl
    (fun _ _ _ => rfl) (fun _ _ hI => hI) (fun _ a _ _ hI => a.kept_run hI) t

/-- `connection_lost` is queued with the last reason given before. -/
theorem Reachable.lostReason {s : State} (h : Reachable s) (t : ℕ) :
    Recorded (fun before e => ∀ exc, e = .connectionLostQueued exc →
      exc = lastReason (reasons before)) (s.tr t).history := by
  refine h.recorded nofun (fun s u a e hs _ _ he exc heq => ?_) t
  subst heq
  rw [(Act.records_of_event he).2, hs.kept u]

/-- `connection_lost` gets the reason of the first forced close exactly if, of the forced closes
that came after it and before `connection_lost` was queued, the last one with a reason brought the
same; in particular if none of them had a reason. -/
theorem connection_lost_reason_iff {s : State} {stack : List (Callback × (Result → P Unit))}
    (h : system.Reachable (env True) ⟨s, none, stack⟩) {t : ℕ} {before after : List Event}
    {exc first : Option Exc} {later : List (Option Exc)}
    (hqueued : (s.tr t).history = before ++ .connectionLostQueued exc :: after)
    (hforced : reasons before = first :: later) :
    exc = first ↔ ∀ last ∈ later.reduceOption.getLast?, first = some last := by
  have hinv : Inv True s := (verified True).in_foreign (not_quiet True) h
  have hlast := hinv.reach.lostReason t before _ after hqueued exc rfl
  rw [hlast, hforced, lastReason_cons]
  cases hlast : later.reduceOption.getLast? with
  | none => simp
  | some last =>
    simp only [Option.some_or, Option.mem_some_iff, forall_eq']
    exact eq_comm

/-- A connection that its owner closes by force, with a write still under way: libuv completes the
write with `ECANCELED` (-125), and `connection_lost` gets the reason of the owner. -/
theorem connection_lost_reason_of_owner :
    ∃ s : State, ∃ before exc, (s.tr 0).history = before ++ [.connectionLostQueued exc] ∧
      reasons before = [some (.other 7)] ∧ exc = some (.other 7) := by
  have hplay : ∃ s, system.play (env True) 100
      (opening .plain ++
        [.start (.write 0), exported [1], status uvEAGAIN, yes, .answer ⟨true, 0, 1⟩,
          .start (.forceClose 0 (some (.other 7))), .start .runBegin,
          .start (.onWritten 0 (-125) 0), .start (.onClosed 0), yes, yes, returned])
      system.initial = some ⟨s, none, []⟩ ∧
      (s.tr 0).history = [.connectionMadeQueued, .forced .abort (some (.other 7)), .closingBegan,
        .uvClose 0, .writeFailed] ++ [.connectionLostQueued (some (.other 7))] :=
    ⟨_, rfl, rfl⟩
  obtain ⟨s, hrun, hhist⟩ := hplay
  have hforced : reasons [.connectionMadeQueued, .forced .abort (some (.other 7)), .closingBegan,
      .uvClose 0, .writeFailed] = some (.other 7) :: [] := rfl
  have hiff := connection_lost_reason_iff (System.Reachable.initial.play hrun) hhist hforced
  exact ⟨s, _, _, hhist, rfl, hiff.mpr (by simp [List.reduceOption])⟩

/-- `data_received` aborts the connection and then raises: `connection_lost` gets the exception, not
the `None` of the abort. -/
theorem connection_lost_reason_of_abort :
    ∃ s, system.Reachable (env False) ⟨s, none, []⟩ ∧ reasons (s.tr 0).history =
      [none, some (.other 1)] ∧ ¬ (s.tr 0).FirstReasonWins := by
  have hplay : ∃ s, system.play (env False) 100
      (opening .plain ++
        [.start .runBegin, .start .onIdle, returned, returned, yes, returned,
          .start (.readable 0), yes, status 5, yes, yes, .start (.abort 0), raised (.other 1),
          returned, .start (.onClosed 0), yes, yes, returned])
      system.initial = some ⟨s, none, []⟩ ∧
      (s.tr 0).history = [.connectionMadeQueued, .called .connectionMade, .called .dataReceived,
        .forced .abort none, .closingBegan, .uvClose 0, .forced .callback (some (.other 1))] ++
          .connectionLostQueued (some (.other 1)) :: [] :=
    ⟨_, rfl, rfl⟩
  obtain ⟨s, hrun, hhist⟩ := hplay
  refine ⟨s, System.Reachable.initial.play hrun, by rw [hhist]; rfl, fun hwins => ?_⟩
  have := hwins _ _ _ _ _ hhist rfl
  cases this

end Zuvloop.Stream
