import Zuvloop.Handles.Verified

/-!
# The account of the handles

## Main results

* `handles_accounted`: the counters count the handles, whatever order handles are opened and closed
  in, and are zero once the loop has closed all of them.
-/

namespace Zuvloop.Handles

open Reentrant

/-- Foreign code of every kind may start something. -/
theorem env_loud (c : Callback) : ¬ env.Quiet c := by
  intro hquiet
  by_cases hc : c = .uvRun
  · subst hc
    exact hquiet [] init .callback rfl
  · exact hquiet [] init .closeLoop fun heq => hc (Option.some.inj heq)

/-- Whenever Python code or libuv is in control, `external_handles` is the number of initialized
stream, datagram, poll and process handles whose close callback has not run, and `closing_handles`
is the number of those on which `uv_close` has been called. Neither was ever decremented below zero,
and both were zero each time `closeAllHandles` had drained the loop. -/
theorem handles_accounted {c : Config sig} (h : system.Reachable env c) (hc : c.running = none) :
    c.state.external = c.state.handles.countP (fun h => h.kind.external && !h.closed) ∧
    c.state.closing =
      c.state.handles.countP (fun h => h.kind.external && !h.closed && h.closing.isSome) ∧
    c.state.underflow = false ∧ ∀ b ∈ c.state.asserts, b = true := by
  obtain ⟨s, running, stack⟩ := c
  obtain rfl : running = none := hc
  have hcore := (verified.in_foreign env_loud h).core
  exact ⟨hcore.external, hcore.closing, hcore.underflow, hcore.asserts⟩

/-- A descriptor is watched and the loop closed, in the middle of a second `add_reader`. -/
theorem handles_accounted_closed : ∃ c : Config sig, system.Reachable env c ∧ c.running = none ∧
    c.state.handles.length = 6 ∧ c.state.asserts = [true] ∧
    c.state.external = c.state.handles.countP (fun h => h.kind.external && !h.closed) := by
  have hplay : ∃ c, system.play env 100
      [.start (.add false), .resume (some 7), .resume (some 1), .answer 0, .answer 0, .answer 0,
        .answer 0,
        .start (.add true), .resume (some 8), .start .closeLoop, .resume (some 0), .resume (some 0),
        .start (.onClosed 0), .start (.onClosed 1), .start (.onClosed 2), .start (.onClosed 3),
        .start (.onClosed 4), .start (.onClosed 5), .resume (some 0), .resume (some 0),
        .resume (some 0), .answer 0, .resume (some 1), .resume (some 0)] system.initial = some c ∧
      c.running = none ∧ c.state.handles.length = 6 ∧ c.state.asserts = [true] :=
    ⟨_, rfl, rfl, rfl, rfl⟩
  obtain ⟨c, hrun, hnone, hlength, hasserts⟩ := hplay
  have hreach : system.Reachable env c := System.Reachable.initial.play hrun
  exact ⟨c, hreach, hnone, hlength, hasserts, (handles_accounted hreach hnone).1⟩

end Zuvloop.Handles
