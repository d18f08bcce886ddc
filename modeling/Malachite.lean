import Malachite.Types.Round
import Malachite.Types.Context
import Malachite.Types.Certificate
import Malachite.StateMachine.Basic
import Malachite.StateMachine.Apply
import Malachite.StateMachine.Outputs
import Malachite.StateMachine.Invariants
import Malachite.Lib.KeyMap
import Malachite.Lib.Weights
import Malachite.Lib.BigEndian
import Malachite.Lib.Except
import Malachite.Lib.BoundedQueue
import Malachite.Lib.Span
import Malachite.VoteKeeper.Count
import Malachite.VoteKeeper.Keeper
import Malachite.VoteKeeper.Tally
import Malachite.VoteKeeper.Outputs
import Malachite.Driver.ProposalKeeper
import Malachite.Driver.Basic
import Malachite.Driver.Mux
import Malachite.Driver.Process
import Malachite.Driver.SelfVotes
import Malachite.Driver.Certificates
import Malachite.Driver.Errors
import Malachite.Driver.Lock
import Malachite.Driver.Decide
import Malachite.Driver.ProposalEvidence
import Malachite.Consensus.Decide
import Malachite.Signing.Soundness
import Malachite.StateMachine.Progress
import Malachite.Driver.Termination
import Malachite.Wal.Entry
import Malachite.Consensus.FullProposal
import Malachite.Consensus.Pairing
import Malachite.Consensus.ProposedValue
import Malachite.Consensus.StartHeight
import Malachite.Consensus.Verified
import Malachite.Discovery.Basic
import Malachite.Discovery.Invariant
import Malachite.Sync.Window
import Malachite.Sync.Handle
import Malachite.Sync.Bookkeeping
import Malachite.Sync.Requests
import Malachite.Sync.Overflow
import Malachite.Wal.Log
import Malachite.Wal.Durability
import Malachite.Wal.Thread
import Malachite.Engine.Timers
import Malachite.Engine.Timeouts
import Malachite.Config.GossipSub
import Malachite.Streaming.Message
import Malachite.Streaming.TestApp
import Malachite.Streaming.Host
