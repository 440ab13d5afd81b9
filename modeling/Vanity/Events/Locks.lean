import Vanity.Cluster.Messages
import Vanity.Events.Loop
import Vanity.Library.Locking
import Vanity.Request.Session

/-!
# The locks of the server

The mutexes of the server, and what each function does to them: all threads of the server run code that
takes them, in scopes, while other threads run other code. Where the source decides by data, by an argument
or by the result of a call, both branches are there; a client is the number of its connection.
-/

namespace Vanity.Locks

open Locking
open Db (Index)
open Request (OperationT)
open Cluster (PeerCall)
open Events (ServerEvent)

inductive Lock where
  /-- `m_mutex` of a `LockedDatabase`, the one mutex that is recursive. -/
  | database (index : Index)
  | walMutex
  /-- `m_mutex` of the `AtomicCounter` of transactions. -/
  | counter
  /-- `m_mutex` of `LockedAuthServer`. -/
  | logins
  | subscriptionsMutex
  | publishQueueMutex
  | clusterKeyMutex
  | pendingPeerAuthsMutex
  | peersMutex
  | evictionIssuesMutex
  | askEvictRequestsMutex
  | nextIdMutex
  | expectedOpsMutex
  /-- `m_mutex` of the `SocketWriter` of a client. -/
  | writer (client : Nat)
  | logMutex
  /-- `m_mutex` of `m_event_queue`, of `m_polled` and of `m_stopped`. -/
  | eventQueue
  | polled
  | stopped
  deriving DecidableEq

def Lock.rank : Lock → Nat
  | .clusterKeyMutex => 0
  | .pendingPeerAuthsMutex | .subscriptionsMutex | .logins | .peersMutex | .askEvictRequestsMutex => 1
  | .database _ | .writer _ | .nextIdMutex | .expectedOpsMutex => 2
  | .walMutex | .logMutex | .counter | .publishQueueMutex | .evictionIssuesMutex | .polled | .stopped => 3
  | .eventQueue => 4

def Lock.isRecursive : Lock → Bool
  | .database _ => true
  | _ => false

def ranking : Ranking Lock where
  rank := Lock.rank
  top := 5
  rank_lt lock := by cases lock <;> simp [Lock.rank]
  Reentrant lock := lock.isRecursive = true

/-! ### Leaves -/

/-- A scope of one lock in which nothing else is locked. -/
def guarded (lock : Lock) : Code Lock := .hold [lock] .rest

/-- `Logger::log`, which drops what is below its level. -/
def log : Code Lock := .maybe (guarded .logMutex)

def pushEvent : Code Lock := guarded .eventQueue

/-- `SocketWriter::write` and `SocketWriter::ready`. -/
def write (client : Nat) : Code Lock := guarded (.writer client)

/-- `ClientServer::send`, to a client or to the response of a pipe. -/
def send : Request.Client → Nat → Code Lock
  | .tcp, client => write client
  | .piped _, _ => .rest

/-- To whichever client. -/
def sendAny : Code Lock := .any write

/-! ### Databases -/

/-- `WriteAheadLogger::wal`, for operations and for keys that expire. -/
def wal : Code Lock := guarded .walMutex

def closeWal : Code Lock := guarded .walMutex

def walTo : Code Lock := guarded .walMutex

/-- A member of `LockedDatabase`, of the database that the session is in. -/
def database : Code Lock := .any fun index : Index => .hold [.database index] (.again wal)

/-- `copy_to_db` and `move_to_db`, which are not called with one database twice. -/
def twoDatabases : Code Lock :=
  .any fun pair : {pair : Index × Index // pair.1 ≠ pair.2} =>
    .hold [.database pair.1.1, .database pair.1.2] (.again wal)

def indices : List Index := List.finRange Db.numDatabases

def deepPurgeDatabases : Code Lock := .seq (indices.map fun index => .hold [.database index] (.again wal))

def enableDatabasesExpiry : Code Lock := .seq (indices.map fun index => guarded (.database index))

def doPersist : Code Lock := .seq (indices.map fun index => guarded (.database index))

/-- The destructor of `Closed` runs whether or not the body throws. -/
def closed (body : Code Lock) : Code Lock := .seq [closeWal, .attempt body .rest, walTo]

def persistWithWal : Code Lock := closed (.hold (indices.map .database) doPersist)

def persistWithoutWal : Code Lock := doPersist

def persistNoCheck : Code Lock := .seq [deepPurgeDatabases, .either persistWithWal persistWithoutWal]

def persist : Code Lock := .maybe (.seq [persistNoCheck, log])

-- `do_recover` redoes the records without a lock
def recover : Code Lock := .maybe (.seq [enableDatabasesExpiry, closed .rest, enableDatabasesExpiry, deepPurgeDatabases])

/-! ### The cluster -/

section
variable (client : Nat)

def newPost : Code Lock := .seq [guarded .nextIdMutex, guarded .expectedOpsMutex]

def post : Code Lock := .seq [newPost, write client]

def clearAuthApplications : Code Lock := .hold [.pendingPeerAuthsMutex] (.again sendAny)

def popAuthApplication : Code Lock := guarded .pendingPeerAuthsMutex

def addAuthApplication : Code Lock := guarded .pendingPeerAuthsMutex

/-- `in_cluster`, `authenticate_cluster_key`, `get_cluster_key` and `get_cluster_id`. -/
def getClusterInfo : Code Lock := guarded .clusterKeyMutex

def setClusterInfo : Code Lock := .hold [.clusterKeyMutex] clearAuthApplications

def leaveCluster : Code Lock := .hold [.clusterKeyMutex] clearAuthApplications

/-- `peer_addresses`, `peer_ids` and `get_peers`. -/
def getPeers : Code Lock := guarded .peersMutex

def registerPeer : Code Lock := guarded .peersMutex

def forgetPeer : Code Lock := .maybe (guarded .peersMutex)

def clearPeers : Code Lock := .hold [.peersMutex] (.again (.any post))

def peerConnect : Code Lock := .any fun peer => .seq [registerPeer, post peer, addAuthApplication]

def insertEvictionIssue : Code Lock := guarded .evictionIssuesMutex

def similarIssueExists : Code Lock := guarded .evictionIssuesMutex

def selfOpinionOn : Code Lock := getPeers

def getEvictionIssue : Code Lock :=
  .seq [guarded .evictionIssuesMutex, .maybe (.seq [selfOpinionOn, insertEvictionIssue])]

def postAskEvictAll : Code Lock := .seq [getPeers, .hold [.askEvictRequestsMutex] (.again (.any post))]

def popAskEvict : Code Lock := guarded .askEvictRequestsMutex

def beginEvictProcess : Code Lock :=
  .maybe (.seq [similarIssueExists, .maybe (.seq [insertEvictionIssue, postAskEvictAll])])

def reportPeer : Code Lock := .maybe beginEvictProcess

def doEvictPeer : Code Lock := .seq [log, forgetPeer]

/-- `try_resolve_issue`, with `resolve_issue`. -/
def tryResolveIssue : Code Lock := .maybe (.seq [getPeers, doEvictPeer])

/-- The handlers of what a peer sends. -/
def handler : PeerCall → Code Lock
  | .asyncRequestPulse | .postRequestExit _ | .postRequestPeerAuth _ | .replyRequestPing _ | .replyRequestExit _ => .rest
  | .postRequestPing _ | .replyErr .. => write client
  | .postRequestPeers _ => .seq [getPeers, write client]
  | .postRequestAskEvict .. => .seq [getEvictionIssue, write client, .maybe postAskEvictAll]
  | .reportBadReply => reportPeer
  | .replyRequestPeerAuth .. =>
    .seq [popAuthApplication,
      .either forgetPeer (.seq [getClusterInfo, .maybe setClusterInfo, .maybe sendAny, post client])]
  | .replyRequestPeers .. =>
    .seq [getClusterInfo, .maybe (.seq [getClusterInfo, .maybe (.seq [getPeers, .again peerConnect])])]
  | .replyRequestAskEvict .. => .seq [popAskEvict, tryResolveIssue]
  | .replyDeniedRequestPeerAuth _ => .seq [forgetPeer, popAuthApplication, .maybe sendAny]
  | .replyRedirectRequestPeerAuth .. =>
    .seq [forgetPeer, popAuthApplication, .maybe (.either peerConnect reportPeer)]
  | .handleDefaultErrReplyRequest .. | .handleDefaultDeniedReplyRequest .. | .handleDefaultRedirectReplyRequest .. => log

def handleAsyncRequest : Code Lock := .any (handler client)

def handlePostRequest : Code Lock := .attempt (.any (handler client)) (write client)

def handleReplyRequest : Code Lock := .seq [guarded .expectedOpsMutex, .either reportPeer (.any (handler client))]

def handlePeer : Code Lock :=
  .attempt (.either (handleAsyncRequest client) (.either (handlePostRequest client) (handleReplyRequest client)))
    (.seq [.maybe reportPeer, log])

end

/-! ### Requests -/

section
variable (requestPipe : Code Lock) (sender : Request.Client) (client : Nat)

def persistLogins : Code Lock := .maybe log

/-- `request_add_user`, `request_edit_user`, `request_del_user` and `request_change_password`. -/
def changeLogins : Code Lock :=
  .hold [.logins] (.either (send sender client) (.seq [persistLogins, log, send sender client]))

def requestAuth : Code Lock := .hold [.logins] (.either (send sender client) (.seq [log, send sender client]))

/-- `request_subscribe`, `request_unsubscribe` and `request_unsubscribe_all`. -/
def changeSubscriptions : Code Lock := .seq [guarded .subscriptionsMutex, send sender client]

def requestPublish : Code Lock := .seq [guarded .publishQueueMutex, pushEvent, send sender client]

def requestPeerAuth : Code Lock :=
  .either (send sender client) (.seq [getClusterInfo, .either (send sender client)
    (.seq [getClusterInfo, .maybe registerPeer, send sender client])])

/-- The cases of `dispatch`. -/
def request : OperationT → Code Lock
  | .exit => .maybe (send sender client)
  | .terminate => .either pushEvent (send sender client)
  | .pipe => requestPipe
  | .ping | .unbind | .authLevel | .username | .switchDb | .subscribed => send sender client
  | .bind => .either (send sender client) (.seq [log, send sender client])
  | .addUser | .editUser | .delUser | .changePassword => changeLogins sender client
  | .auth => requestAuth sender client
  | .persist => .seq [persist, send sender client]
  | .transactBegin => .seq [guarded .counter, database, send sender client]
  | .publish => requestPublish sender client
  | .subscribe | .unsubscribe | .unsubscribeAll => changeSubscriptions sender client
  | .copyToDb | .moveToDb => .either (send sender client) (.seq [twoDatabases, send sender client])
  | .reset => .seq [database, log, send sender client]
  | .transactCommit | .transactDiscard
  | .del | .type | .exists_ | .keys | .copyTo | .moveTo | .setExpiry | .getExpiry | .clearExpiry
  | .get | .strSet | .intSet | .floatSet | .incrInt | .incrFloat | .strLen | .manyGet
  | .listLen | .listGet | .listSet | .listPushLeft | .listPushRight | .listPopLeft | .listPopRight | .listRange
  | .listTrim | .listRemove
  | .setAdd | .setAll | .setRemove | .setDiscard | .setLen | .setContains | .setMove | .setUnion | .setUnionInto
  | .setUnionLen | .setIntersect | .setIntersectInto | .setIntersectLen | .setDiff | .setDiffInto | .setDiffLen
  | .hashSet | .hashAll | .hashGet | .hashContains | .hashLen | .hashKeyLen | .hashRemove | .hashKeys | .hashValues
  | .hashUpdate | .hashManyGet => .seq [database, send sender client]
  | .clusterKey | .clusterId => .seq [getClusterInfo, send sender client]
  | .clusterNew => .seq [getClusterInfo, .maybe setClusterInfo, send sender client]
  | .clusterJoin => .seq [getClusterInfo, .either (send sender client) peerConnect]
  | .clusterLeave => .seq [getClusterInfo, .maybe (.seq [leaveCluster, clearPeers]), send sender client]
  | .peers | .peerIds => .seq [getPeers, send sender client]
  | .peerAuth => requestPeerAuth sender client

end

/-- `do_handle_single`, to a depth of nested pipes. -/
def doHandleSingle : Nat → Request.Client → Nat → Code Lock
  | 0, _, _ => .rest
  | depth + 1, sender, client =>
    let requestPipe := .seq [.again (doHandleSingle depth (.piped sender) client), send sender client]
    .attempt (.either (send sender client) (.any (request requestPipe sender client)))
      (.seq [log, send sender client])

def handleUser (client : Nat) : Code Lock := .any fun depth => doHandleSingle depth .tcp client

/-! ### Threads -/

/-- `ClusterServer::handle`. -/
def handle (client : Nat) : Code Lock := .either (handlePeer client) (handleUser client)

def removeClient : Code Lock := .seq [.maybe (guarded .subscriptionsMutex), forgetPeer]

/-- `TcpClient::ready`. -/
def clientReady (client : Nat) : Code Lock := .seq [.maybe (handle client), .maybe removeClient]

def epollReady : Code Lock := .again (.either log (.any fun client => .either (clientReady client) (write client)))

def eventPublish : Code Lock :=
  .seq [guarded .publishQueueMutex, .maybe (.hold [.subscriptionsMutex] (.again sendAny))]

def sendPulses : Code Lock := .seq [getPeers, .again sendAny]

def checkPulses : Code Lock := .seq [getPeers, .again beginEvictProcess]

def eventPulse : Code Lock := .seq [getClusterInfo, .maybe (.seq [sendPulses, checkPulses])]

/-- The cases of `event_loop`. -/
def event : ServerEvent → Code Lock
  | .epollReady => .seq [epollReady, guarded .polled]
  | .persist => persist
  | .expire => deepPurgeDatabases
  | .publish => eventPublish
  | .pulse => eventPulse
  | .terminate => pushEvent

/-- What a thread goes through from one point at which it holds no lock to the next such point. -/
inductive Job where
  /-- The constructor of `Server`. -/
  | construct
  | start
  /-- A turn of `event_loop`: it takes an event, and it handles it. -/
  | get
  | event (kind : ServerEvent)
  /-- A turn of `poll`, and one of `repeat_loop`. -/
  | poll
  | repeatLoop
  /-- The rest of `run`, after the threads of the event loop have ended. -/
  | stop

def Job.code : Job → Code Lock
  | .construct => .seq [.maybe log, .maybe walTo, recover]
  | .start => .seq [.again log, guarded .stopped, log]
  | .get => guarded .eventQueue
  | .event kind => Locks.event kind
  | .poll => .seq [.maybe log, .maybe (.seq [pushEvent, guarded .polled, guarded .polled])]
  | .repeatLoop => .seq [guarded .stopped, .maybe pushEvent]
  | .stop => .seq [guarded .eventQueue, guarded .stopped, persist, log]

end Vanity.Locks
