import Zuvloop.Handles.Accounting

/-!
# What is made on a closed loop

An entry point that makes a handle or a request checks that the loop is open, then converts its
arguments, which runs Python code that may close the loop. `_make_datagram_transport`, `add_reader`,
`add_writer` and `_spawn_process` check again before they make anything, and libuv refuses to start
the timer of `_start_metrics`. `_make_transport` and `_getnameinfo` do not check again, and
`_getaddrinfo` links its request before it does.

## Main results

* `nothing_made_late`: as long as the loop is not closed during one of the unchecked calls, nothing
  is made on a closed loop.
* `made_late`: otherwise, handles and requests are.
-/

namespace Zuvloop.Handles

open Reentrant

/-- If the loop was not closed during a call into Python code that no check follows, no entry point
has initialized or started a handle, or linked or submitted a request, on the closed loop; and a
call whose answer was settled on a closed loop has raised. What runs after that, to give references
back or to make the future of an answer that needs no request, may still close the loop. -/
theorem nothing_made_late {c : Config sig} (h : system.Reachable env c) (hc : c.running = none)
    (hcareful : c.state.careless = false) :
    (∀ m ∈ c.state.late, m.1.creates = false) ∧
      ∀ e, e.creates = true → (e, .returned true) ∉ c.state.calls := by
  obtain ⟨s, running, stack⟩ := c
  obtain rfl : running = none := hc
  have hcore := (verified.in_foreign env_loud h).core
  exact ⟨hcore.late hcareful, hcore.calls hcareful⟩

/-- Python code closes a new loop. -/
def closing : List (Label sig) :=
  [.start .closeLoop, .resume (some 0), .start (.onClosed 0), .start (.onClosed 1),
    .start (.onClosed 2), .start (.onClosed 3), .start (.onClosed 4), .resume (some 0), .answer 0]

/-- A conversion of `_make_datagram_transport` closes the loop: the call raises. -/
theorem nothing_made_late_datagram : ∃ c : Config sig, system.Reachable env c ∧
    c.running = none ∧ c.state.calls =
      [(.closeLoop, .returned true), (.makeDatagram, closedError)] ∧
    ∀ m ∈ c.state.late, m.1.creates = false := by
  have hplay : ∃ c, system.play env 100
      ([.start .makeDatagram] ++ closing ++ List.replicate 11 (.resume (some 0)) ++ [.answer 0])
      system.initial = some c ∧ c.running = none ∧ c.state.careless = false ∧
      c.state.calls = [(.closeLoop, .returned true), (.makeDatagram, closedError)] :=
    ⟨_, rfl, rfl, rfl, rfl⟩
  obtain ⟨c, hrun, hnone, hcareful, hcalls⟩ := hplay
  have hreach : system.Reachable env c := System.Reachable.initial.play hrun
  exact ⟨c, hreach, hnone, hcalls, (nothing_made_late hreach hnone hcareful).1⟩

/-- The conversion of a descriptor, that of the flags and `create_future` close the loop. Then
`_make_transport` initializes a handle, `_getnameinfo` submits a request and `_getaddrinfo` links
one. -/
theorem made_late :
    (¬ ∀ c : Config sig, system.Reachable env c → c.running = none →
      ∀ m ∈ c.state.late, m.1.creates = false) ∧
    (∃ c : Config sig, system.Reachable env c ∧ c.running = none ∧
      c.state.late = [(.makeTransport, .init)] ∧
      c.state.calls = [(.closeLoop, .returned true), (.makeTransport, .returned true)]) ∧
    (∃ c : Config sig, system.Reachable env c ∧ c.running = none ∧
      c.state.late = [(.getnameinfo, .link), (.getnameinfo, .submit)]) ∧
    ∃ c : Config sig, system.Reachable env c ∧ c.running = none ∧
      c.state.late = [(.getaddrinfo, .link)] := by
  have htransport : ∃ c, system.play env 100
      ([.start .makeTransport] ++ closing ++ List.replicate 17 (.resume (some 0)) ++
        List.replicate 3 (.answer 0)) system.initial = some c ∧ c.running = none ∧
      c.state.late = [(.makeTransport, .init)] ∧
      c.state.calls = [(.closeLoop, .returned true), (.makeTransport, .returned true)] :=
    ⟨_, rfl, rfl, rfl, rfl⟩
  have hnameinfo : ∃ c, system.play env 100
      ([.start .getnameinfo, .resume (some 0)] ++ closing ++
        [.resume (some 0), .answer 0, .resume (some 0), .answer 0]) system.initial = some c ∧
      c.running = none ∧ c.state.late = [(.getnameinfo, .link), (.getnameinfo, .submit)] :=
    ⟨_, rfl, rfl, rfl⟩
  have haddrinfo : ∃ c, system.play env 100
      ([.start .getaddrinfo] ++ List.replicate 6 (.resume (some 0)) ++ [.answer 0, .answer 0] ++
        closing ++ [.resume (some 0), .resume (some 0)]) system.initial = some c ∧
      c.running = none ∧ c.state.late = [(.getaddrinfo, .link)] :=
    ⟨_, rfl, rfl, rfl⟩
  obtain ⟨c₁, hrun₁, h₁⟩ := htransport
  obtain ⟨c₂, hrun₂, h₂⟩ := hnameinfo
  obtain ⟨c₃, hrun₃, h₃⟩ := haddrinfo
  have hreach₁ : system.Reachable env c₁ := System.Reachable.initial.play hrun₁
  refine ⟨fun hnever => ?_, ⟨c₁, hreach₁, h₁⟩,
    ⟨c₂, System.Reachable.initial.play hrun₂, h₂⟩,
    ⟨c₃, System.Reachable.initial.play hrun₃, h₃⟩⟩
  have hmem : (EntryPoint.makeTransport, Action.init) ∈ c₁.state.late := by
    rw [h₁.2.1]
    exact List.mem_singleton_self _
  exact absurd (hnever c₁ hreach₁ h₁.1 _ hmem) (by decide)

end Zuvloop.Handles
