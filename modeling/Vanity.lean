import Vanity.Library.Table
import Vanity.Library.Stream
import Vanity.Library.Unwinding
import Vanity.Library.Files
import Vanity.Library.Locking
import Vanity.Library.Serial
import Vanity.Library.Runs
import Vanity.Library.Fairness
import Vanity.Library.Extractor
import Vanity.Library.Decoder
import Vanity.Library.Automaton
import Vanity.Library.Utf8
import Vanity.Db.Types
import Vanity.Db.Expiry
import Vanity.Db.Keys
import Vanity.Db.Lists
import Vanity.Db.Sets
import Vanity.Db.Hashes
import Vanity.Db.Calls
import Vanity.Db.Effects
import Vanity.Db.SetQueries
import Vanity.Db.Edits
import Vanity.Db.Invariants
import Vanity.Db.EagerExpiry
import Vanity.Db.TypeErrors
import Vanity.Db.MissingKey
import Vanity.Db.Checks
import Vanity.Db.ListSlices
import Vanity.Db.ListRemoval
import Vanity.Db.ListEnds
import Vanity.Db.HashMerge
import Vanity.Db.Moves
import Vanity.Db.SetAlgebra
import Vanity.Db.SetElements
import Vanity.Db.Counters
import Vanity.Db.Purges
import Vanity.Db.Frames
import Vanity.Db.Isolation
import Vanity.Wal.Serializer
import Vanity.Wal.Entry
import Vanity.Wal.Recovery
import Vanity.Wal.Snapshot
import Vanity.Wal.Live
import Vanity.Wal.Replay
import Vanity.Wal.SetRemove
import Vanity.Wal.Reachable
import Vanity.Wal.EmptyValues
import Vanity.Wal.Transactions
import Vanity.Persist.Journal
import Vanity.Persist.Repair
import Vanity.Persist.CrashAtomic
import Vanity.Persist.Restart
import Vanity.Persist.SecondCrash
import Vanity.Persist.Interleaving
import Vanity.Persist.AckedWrites
import Vanity.Persist.SnapshotCut
import Vanity.Persist.WithoutLog
import Vanity.Persist.FileLock
import Vanity.Request.Numbers
import Vanity.Request.Operations
import Vanity.Request.Extractable
import Vanity.Request.Response
import Vanity.Request.Session
import Vanity.Request.Handlers
import Vanity.Request.Dispatch
import Vanity.Request.Readings
import Vanity.Request.Answers
import Vanity.Request.Handling
import Vanity.Request.OneResponse
import Vanity.Request.Poison
import Vanity.Request.Grammar
import Vanity.Request.Tokens
import Vanity.Request.Serving
import Vanity.Request.OneByOne
import Vanity.Request.Skipping
import Vanity.Request.Bounds
import Vanity.Request.Aggregation
import Vanity.Request.Permissions
import Vanity.Request.DeletedUsers
import Vanity.Request.Spelling
import Vanity.Client.Format
import Vanity.Client.Extraction
import Vanity.Client.RoundTrip
import Vanity.Net.Framing
import Vanity.Net.Writing
import Vanity.Client.Encoding
import Vanity.Client.Receiving
import Vanity.Client.Remote
import Vanity.Config.Arguments
import Vanity.PubSub.Subscriptions
import Vanity.PubSub.Publishing
import Vanity.PubSub.PublishOrder
import Vanity.Auth.Logins
import Vanity.Auth.Restarts
import Vanity.Cluster.Messages
import Vanity.Cluster.Membership
import Vanity.Cluster.References
import Vanity.Cluster.Mesh
import Vanity.Cluster.Joining
import Vanity.Cluster.Wiring
import Vanity.Cluster.Convergence
import Vanity.Cluster.SinglePeers
import Vanity.Cluster.Eviction
import Vanity.Cluster.Ballots
import Vanity.Cluster.Majority
import Vanity.Cluster.Voting
import Vanity.Cluster.Watching
import Vanity.Cluster.Backing
import Vanity.Events.Loop
import Vanity.Events.Locks
import Vanity.Events.Deadlock
import Vanity.Events.Shutdown
import Vanity.Events.Polling
import Vanity.Events.Repeating
