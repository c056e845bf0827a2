import RouterFabric.Bench.QueueTrial
import RouterFabric.Bench.Run
import RouterFabric.Bench.ScriptedSpace
import RouterFabric.Settings.Document
import RouterFabric.Proofs.Queue.Orderly
import RouterFabric.Proofs.Queue.Ledger
import RouterFabric.Proofs.Engine.Stored
import RouterFabric.Proofs.Engine.Changes
import RouterFabric.Proofs.Engine.Acts
import RouterFabric.Proofs.Engine.Moved
import RouterFabric.Proofs.Engine.Sound
import RouterFabric.Proofs.Run
import RouterFabric.Proofs.Detached
import RouterFabric.Proofs.Calls
import RouterFabric.Proofs.Engine.Armed
import RouterFabric.Proofs.Callbacks
import RouterFabric.Proofs.Attempts
import RouterFabric.Proofs.Answers
import RouterFabric.Proofs.Provenance
import RouterFabric.Proofs.Route
import RouterFabric.Proofs.Tree.Rooted
import RouterFabric.Proofs.Tree.Lookup
import RouterFabric.Proofs.Engine.Flow
import RouterFabric.Proofs.Wakeups
import RouterFabric.Proofs.Capacity
import RouterFabric.Proofs.Wire
import RouterFabric.Proofs.Checksum
import RouterFabric.Proofs.Damage
import RouterFabric.Proofs.Arrivals
import RouterFabric.Proofs.Engine.Signals
import RouterFabric.Proofs.Transfers
import RouterFabric.Proofs.Fates
import RouterFabric.Proofs.Completion
import RouterFabric.Proofs.Engine.Books
import RouterFabric.Proofs.Packets
import RouterFabric.Proofs.Route.Path
import RouterFabric.Proofs.Tree.Tables
import RouterFabric.Proofs.Engine.Outline
import RouterFabric.Proofs.Enrolment
import RouterFabric.Proofs.Requests
import RouterFabric.Proofs.Engine.Holdings
import RouterFabric.Proofs.Engine.Heeded
import RouterFabric.Proofs.Concluded
import RouterFabric.Proofs.Frames
import RouterFabric.Proofs.Engine.Naps
import RouterFabric.Proofs.Sessions
import RouterFabric.Proofs.Sleep
import RouterFabric.Proofs.Engine.Verdicts
import RouterFabric.Proofs.Expiring
import RouterFabric.Proofs.Tries
import RouterFabric.Proofs.Engine.Timed
import RouterFabric.Proofs.Engine.Front
import RouterFabric.Proofs.Blockade
import RouterFabric.Proofs.HeadOfLine
import RouterFabric.Proofs.Sweeps
import RouterFabric.Proofs.Chains
import RouterFabric.Proofs.Engine.Served
import RouterFabric.Proofs.Inquiries
import RouterFabric.Proofs.Alone
import RouterFabric.Proofs.Detachments
import RouterFabric.Proofs.Discovery
import RouterFabric.Proofs.Awaiting
import RouterFabric.Proofs.Engine.Board
import RouterFabric.Proofs.Plugging
import RouterFabric.Proofs.Completers
import RouterFabric.Proofs.Tree.Acyclic
import RouterFabric.Proofs.Dialogues
import RouterFabric.Proofs.Bedtime
import RouterFabric.Proofs.Suspending
import RouterFabric.Proofs.Crowds
import RouterFabric.Proofs.Accounts
