import Zuvloop.SlotHeap
import Zuvloop.Collections.Timers
import Zuvloop.Collections.PriorityMultiset
import Zuvloop.Collections.Ready
import Zuvloop.Reentrant.Prog
import Zuvloop.Reentrant.Machine
import Zuvloop.Reentrant.Runs
import Zuvloop.Reentrant.Calls
import Zuvloop.Reentrant.Logs
import Zuvloop.Reentrant.History
import Zuvloop.Loop.State
import Zuvloop.Loop.Scheduling
import Zuvloop.Loop.Order
import Zuvloop.Loop.Wakeup
import Zuvloop.Loop.TimerLife
import Zuvloop.Loop.LifeCycle
import Zuvloop.Loop.Bypass
import Zuvloop.Loop.Release
import Zuvloop.ThreadSafeHandle.Model
import Zuvloop.ThreadSafeHandle.Protocol
import Zuvloop.Stream.State
import Zuvloop.Stream.Transport
import Zuvloop.Stream.Steps
import Zuvloop.Stream.History
import Zuvloop.Stream.Ledger
import Zuvloop.Stream.Refine
import Zuvloop.Stream.Verify
import Zuvloop.Stream.Methods
import Zuvloop.Stream.Callbacks
import Zuvloop.Stream.Verified
import Zuvloop.Stream.Fidelity
import Zuvloop.Stream.Stranded
import Zuvloop.Stream.Teardown
import Zuvloop.Stream.FlowControl
import Zuvloop.Stream.Reasons
import Zuvloop.Stream.Reading
import Zuvloop.Stream.EndOfFile
import Zuvloop.Stream.GetBuffer
import Zuvloop.Stream.Writelines
import Zuvloop.Stream.HalfClose
import Zuvloop.Datagram.Endpoint
import Zuvloop.Datagram.Reading
import Zuvloop.Datagram.Closing
import Zuvloop.Transition
import Zuvloop.Accept.Connection
import Zuvloop.Accept.Accounting
import Zuvloop.Accept.Native
import Zuvloop.Process.Reaper
import Zuvloop.Text.SurrogateEscape
import Zuvloop.Collections.Count
import Zuvloop.Handles.State
import Zuvloop.Handles.EntryPoints
import Zuvloop.Handles.Invariant
import Zuvloop.Handles.Verified
import Zuvloop.Handles.Accounting
import Zuvloop.Handles.Creation
import Zuvloop.Contexts.Pool
import Zuvloop.Contexts.Invariant
import Zuvloop.Contexts.Isolation
import Zuvloop.Address.Sockaddr
import Zuvloop.Address.Identity
import Zuvloop.Sendfile.StandIn
import Zuvloop.Server.WaitClosed
import Zuvloop.Polling.Watchers
import Zuvloop.Polling.FailedStart
import Zuvloop.Polling.Ledger
import Zuvloop.Polling.Safety
import Zuvloop.Polling.SockWatchers
import Zuvloop.ThreadSafeHandle.Nesting
import Zuvloop.Dns.Literal
import Zuvloop.Sendfile.Bytes
import Zuvloop.Stream.Ending
import Zuvloop.Stream.Vectors
import Zuvloop.Connect.Failures
import Zuvloop.Loop.Batches
import Zuvloop.Loop.Drain
import Zuvloop.Loop.Reservation
import Zuvloop.Loop.Stopping
import Zuvloop.Collections.Links
import Zuvloop.Dns.RequestLedger
import Zuvloop.FlushList.Model
import Zuvloop.FlushList.Passes
import Zuvloop.Reentrant.Bounded
import Zuvloop.Stream.Potential
import Zuvloop.Stream.Rounds
import Zuvloop.Signals.Cleanup
import Zuvloop.Signals.Wakeup
import Zuvloop.Reentrant.Guarantee
import Zuvloop.Reentrant.Tracked
import Zuvloop.Stream.Progress
import Zuvloop.Sendfile.Native
import Zuvloop.Signals.Frame
import Zuvloop.Signals.Rollback
import Zuvloop.Text.Numeral
import Zuvloop.Presentation.Dotted
import Zuvloop.Presentation.Colon
import Zuvloop.Presentation.Shorthand
import Zuvloop.Address.RoundTrip
