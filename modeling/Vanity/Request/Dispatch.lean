import Vanity.Request.Extractable
import Vanity.Request.Handlers

/-!
# Dispatching requests

`request_handler.cpp`, `request_server.cpp` and `pipe_server.cpp`. The objects that a case of
`dispatch` extracts are its row of `arguments`, those of `dry_dispatch` the row of `dryArguments`. A
`Turn` is how far the handling of a message has come. Handling is cut off at a depth of nested pipes,
and is `none` there.
-/

namespace Vanity.Request

open Db (Str)

namespace OperationT

/-- The template arguments of `get_exact` in `dispatch`. -/
def arguments : OperationT → List ObjectT
  | .exit | .terminate | .ping | .pipe | .authLevel | .username | .persist | .transactBegin
  | .transactCommit | .transactDiscard | .subscribed | .unsubscribeAll | .reset | .keys | .clusterKey
  | .clusterId | .clusterLeave | .peers | .peerIds => []
  | .bind | .unbind | .copyToDb | .moveToDb | .intSet | .incrInt | .listGet | .listPopLeft
  | .listPopRight | .setRemove => [.str, .int]
  | .addUser | .auth | .publish | .copyTo | .moveTo | .strSet | .setContains | .setDiff | .setDiffLen
  | .hashGet | .hashContains | .hashKeyLen | .clusterNew => [.str, .str]
  | .editUser => [.str, .clientAuth]
  | .delUser | .changePassword | .subscribe | .unsubscribe | .del | .type | .exists_ | .getExpiry
  | .clearExpiry | .get | .strLen | .listLen | .setAll | .setLen | .hashAll | .hashLen | .hashKeys
  | .hashValues => [.str]
  | .switchDb => [.int]
  | .setExpiry | .floatSet | .incrFloat => [.str, .float]
  | .manyGet | .setUnion | .setUnionLen | .setIntersect | .setIntersectLen => [.arr]
  | .listSet => [.str, .int, .str]
  | .listPushLeft | .listPushRight => [.str, .list]
  | .listRange | .listTrim => [.str, .int, .int]
  | .listRemove => [.str, .str, .int]
  | .setAdd | .setDiscard => [.str, .set]
  | .setMove | .setDiffInto => [.str, .str, .str]
  | .setUnionInto | .setIntersectInto | .hashRemove | .hashManyGet => [.str, .arr]
  | .hashSet | .hashUpdate => [.str, .hash]
  | .clusterJoin => [.str, .str, .str, .int]
  | .peerAuth => [.int, .str, .str, .str]

/-- The template arguments of `get_exact` in `dry_dispatch`. -/
def dryArguments : OperationT → List ObjectT
  | .exit | .terminate | .ping | .pipe | .authLevel | .username | .persist | .transactBegin
  | .transactCommit | .transactDiscard | .subscribed | .unsubscribeAll | .reset | .keys | .clusterKey
  | .clusterId | .clusterLeave | .peers | .peerIds => []
  | .bind | .unbind | .copyToDb | .moveToDb | .intSet | .incrInt | .listGet | .listPopLeft
  | .listPopRight | .setRemove => [.str, .int]
  | .addUser | .auth | .publish | .copyTo | .moveTo | .strSet | .setContains | .setDiff | .setDiffLen
  | .hashGet | .hashContains | .hashKeyLen => [.str, .str]
  | .editUser => [.str, .clientAuth]
  | .delUser | .changePassword | .subscribe | .unsubscribe | .del | .type | .exists_ | .getExpiry
  | .clearExpiry | .get | .strLen | .listLen | .setAll | .setLen | .hashAll | .hashLen | .hashKeys
  | .hashValues | .clusterNew => [.str]
  | .switchDb => [.int]
  | .setExpiry | .floatSet | .incrFloat => [.str, .float]
  | .manyGet | .setUnion | .setUnionLen | .setIntersect | .setIntersectLen => [.arr]
  | .listSet => [.str, .int, .str]
  | .listPushLeft | .listPushRight => [.str, .list]
  | .listRange | .listTrim => [.str, .int, .int]
  | .listRemove | .clusterJoin => [.str, .str, .int]
  | .setAdd | .setDiscard => [.str, .set]
  | .setMove | .setDiffInto => [.str, .str, .str]
  | .setUnionInto | .setIntersectInto | .hashRemove | .hashManyGet => [.str, .arr]
  | .hashSet | .hashUpdate => [.str, .hash]
  | .peerAuth => [.int, .str, .str]

-- the two cases that pass `true` for `end`, in both functions
def insistsOnEnd : OperationT → Bool
  | .terminate | .exit => true
  | _ => false

theorem insistsOnEnd_iff {op : OperationT} : op.insistsOnEnd = true ↔ op = .exit ∨ op = .terminate := by
  cases op <;> decide

end OperationT

/-- The handler that a case of `dispatch` calls. A pipe is not among them. -/
def request (client : Client) : (op : OperationT) → Concrete op.arguments → Handler
  | .exit, _ => requestExit client
  | .terminate, _ => requestTerminate client
  | .ping, _ => requestPing
  | .pipe, _ => fun _ s => (.silent, s)
  | .bind, (host, port, _) => requestBind host port
  | .unbind, (host, port, _) => requestUnbind host port
  | .addUser, (username, password, _) => requestAddUser username password
  | .editUser, (username, level, _) => requestEditUser username level
  | .delUser, (username, _) => requestDelUser username
  | .auth, (username, password, _) => requestAuth username password
  | .changePassword, (password, _) => requestChangePassword password
  | .authLevel, _ => requestAuthLevel
  | .username, _ => requestUsername
  | .switchDb, (index, _) => requestSwitchDb index
  | .persist, _ => requestPersist
  | .transactBegin, _ => requestTransactBegin
  | .transactCommit, _ => requestTransactCommit
  | .transactDiscard, _ => requestTransactDiscard
  | .publish, (channel, message, _) => requestPublish channel message
  | .subscribe, (channel, _) => requestSubscribe client channel
  | .subscribed, _ => requestSubscribed
  | .unsubscribe, (channel, _) => requestUnsubscribe client channel
  | .unsubscribeAll, _ => requestUnsubscribeAll client
  | .del, (key, _) => database (.del key) ""
  | .type, (key, _) => database (.type key) ""
  | .exists_, (key, _) => database (.has key) ""
  | .reset, _ => database .reset ""
  | .keys, _ => database .keys ""
  | .copyTo, (source, dest, _) => database (.copyTo source dest) ""
  | .moveTo, (source, dest, _) => database (.moveTo source dest) ""
  | .copyToDb, (source, dest, _) => requestCopyToDb source dest
  | .moveToDb, (source, dest, _) => requestMoveToDb source dest
  | .setExpiry, (key, seconds, _) => requestSetExpiry key seconds
  | .getExpiry, (key, _) => database (.getExpiry key) ""
  | .clearExpiry, (key, _) => database (.clearExpiry key) ""
  | .get, (key, _) => database (.get key) ""
  | .strSet, (key, value, _) => database (.strSet key value) ""
  | .intSet, (key, value, _) => database (.intSet key value) ""
  | .floatSet, (key, value, _) => database (.floatSet key value) ""
  | .incrInt, (key, value, _) => database (.incrInt key value) "not an int"
  | .incrFloat, (key, value, _) => database (.incrFloat key value) "not a float"
  | .strLen, (key, _) => database (.strLen key) "not a string"
  | .manyGet, (keys, _) => database (.manyGet keys) ""
  | .listLen, (key, _) => database (.listLen key) "not a list"
  | .listGet, (key, index, _) => database (.listGet key index) "not a list"
  | .listSet, (key, index, value, _) => database (.listSet key index value) "not a list"
  | .listPushLeft, (key, values, _) => database (.listPushLeft key values) "not a list"
  | .listPushRight, (key, values, _) => database (.listPushRight key values) "not a list"
  | .listPopLeft, (key, count, _) => database (.listPopLeft key count) "not a list"
  | .listPopRight, (key, count, _) => database (.listPopRight key count) "not a list"
  | .listRange, (key, start, stop, _) => database (.listRange key start stop) "not a list"
  | .listTrim, (key, start, stop, _) => database (.listTrim key start stop) "not a list"
  | .listRemove, (key, value, count, _) => database (.listRemove key value count) "not a list"
  | .setAdd, (key, values, _) => database (.setAdd key values) "not a set"
  | .setAll, (key, _) => database (.setAll key) "not a set"
  | .setRemove, (key, count, _) => database (.setRemove key count.toUInt64) "not a set"
  | .setDiscard, (key, values, _) => database (.setDiscard key values) "not a set"
  | .setLen, (key, _) => database (.setLen key) "not a set"
  | .setContains, (key, value, _) => database (.setContains key value) "not a set"
  | .setMove, (source, dest, value, _) => database (.setMove source dest value) "not a set"
  | .setUnion, (keys, _) => database (.setUnion keys) "not a set"
  | .setUnionInto, (dest, keys, _) => database (.setUnionInto dest keys) "not a set"
  | .setUnionLen, (keys, _) => database (.setUnionLen keys) "not a set"
  | .setIntersect, (keys, _) => database (.setIntersection keys) "not a set"
  | .setIntersectInto, (dest, keys, _) => database (.setIntersectionInto dest keys) "not a set"
  | .setIntersectLen, (keys, _) => database (.setIntersectionLen keys) "not a set"
  | .setDiff, (key1, key2, _) => database (.setDifference key1 key2) "not a set"
  | .setDiffInto, (dest, key1, key2, _) => database (.setDifferenceInto dest key1 key2) "not a set"
  | .setDiffLen, (key1, key2, _) => database (.setDifferenceLen key1 key2) "not a set"
  | .hashSet, (key, hash, _) => database (.hashSet key hash) ""
  | .hashAll, (key, _) => database (.hashAll key) "not hash"
  | .hashGet, (key, field, _) => database (.hashGet key field) "not hash"
  | .hashContains, (key, field, _) => database (.hashContains key field) "not hash"
  | .hashLen, (key, _) => database (.hashLen key) "not hash"
  | .hashKeyLen, (key, field, _) => database (.hashKeyLen key field) "not hash"
  | .hashRemove, (key, fields, _) => database (.hashRemove key fields) "not hash"
  | .hashKeys, (key, _) => database (.hashKeys key) "not hash"
  | .hashValues, (key, _) => database (.hashValues key) "not hash"
  | .hashUpdate, (key, hash, _) => database (.hashUpdate key hash) "not hash"
  | .hashManyGet, (key, fields, _) => database (.hashManyGet key fields) "not hash"
  | .clusterJoin, (key, id, host, port, _) => requestClusterJoin client key id host port
  | .clusterKey, _ => requestClusterKey
  | .clusterId, _ => requestClusterId
  | .clusterLeave, _ => requestClusterLeave
  | .clusterNew, (key, id, _) => requestClusterNew key id
  | .peers, _ => requestPeers
  | .peerIds, _ => requestPeerIds
  | .peerAuth, (id, key, addr, peerId, _) => requestPeerAuth client id key addr peerId

/-- How far the handling of a message has come: the server, the position in the message and what has
been written to the client. -/
structure Turn where
  server : Server
  pos : Nat
  sent : List Response

/-- A step that ends with an exception or without one. -/
abbrev Step := Option Failure × Turn

def Turn.throw (turn : Turn) (failure : Failure) (pos : Nat) : Step := (some failure, { turn with pos })

def Turn.goTo (turn : Turn) (pos : Nat) : Step := (none, { turn with pos })

/-- Run a handler, the next one of this world, behind the arguments of its request. -/
def Turn.call (turn : Turn) (handler : Handler) (world : Nat → World) (pos : Nat) : Step :=
  let (answer, server) := handler (world turn.server.calls) turn.server
  let turn := { turn with server := { server with calls := turn.server.calls + 1 }, pos }
  match answer with
  | .sent response => (none, { turn with sent := turn.sent ++ [response] })
  | .silent => (none, turn)
  | .later => (none, { turn with sent := turn.sent ++ [.later] })
  | .thrown what => (some (.exception what), turn)

def dryDispatch (end_ : Bool) : Extract Unit := do
  let op ← getOperation
  let _ ← getExact op.dryArguments (end_ || op.insistsOnEnd)
  return ()

/-- The loop of `do_handle`: only the last request is to end the message. -/
def doHandle {τ : Type} (single : Bool → τ → Option τ) : Nat → τ → Option τ
  | 0, turn => some turn
  | 1, turn => single true turn
  | len + 2, turn => (single false turn).bind (doHandle single (len + 1))

section
variable (msg : Str) (world : Nat → World)

/-- `request_pipe`: the responses go to a `PipedClient`, and their aggregate to the client. -/
def requestPipe (handle : Client → Bool → Turn → Option Turn) (client : Client) (turn : Turn) : Option Step :=
  match getLen msg turn.pos with
  | .thrown failure pos => some (turn.throw failure pos)
  | .ok len pos =>
    (doHandle (handle (.piped client)) len { turn with pos, sent := [] }).map fun inner =>
      (none, { inner with sent := turn.sent ++ [.agg len inner.sent] })

def dispatch (handle : Client → Bool → Turn → Option Turn) (client : Client) (end_ : Bool) (turn : Turn) : Option Step :=
  match getOperation msg turn.pos with
  | .thrown failure pos => some (turn.throw failure pos)
  | .ok op pos =>
    if op = .pipe then
      (requestPipe msg handle client { turn with pos }).map fun
        | (some failure, turn) => (some failure, turn)
        | (none, turn) =>
          match getExact [] end_ msg turn.pos with
          | .thrown failure pos => turn.throw failure pos
          | .ok _ pos => turn.goTo pos
    else match getExact op.arguments (end_ || op.insistsOnEnd) msg pos with
      | .thrown failure pos => some (turn.throw failure pos)
      | .ok args pos => some (turn.call (request client op args) world pos)

/-- `dispatch_or_refuse`, with `refuse_with_response`. -/
def dispatchOrRefuse (handle : Client → Bool → Turn → Option Turn) (client : Client) (end_ : Bool) (turn : Turn) :
    Option Step :=
  match peekOperation msg turn.pos with
  | .thrown failure pos => some (turn.throw failure pos)
  | .ok op pos =>
    let turn := { turn with pos }
    if isPermitted op turn.server.session.auth then dispatch msg world handle client end_ turn
    else if end_ then some (none, { turn with sent := turn.sent ++ [denied] })
    else match dryDispatch false msg pos with
      | .thrown failure pos => some (turn.throw failure pos)
      | .ok _ pos => some (none, { turn with pos, sent := turn.sent ++ [denied] })

def Failure.response : Failure → Response
  | .invalidRequest why => badRequest (ascii "InvalidRequest: " ++ why)
  | .exception what => internalError what

/-- The `catch` clauses of `do_handle_single`. -/
def caught : Step → Turn
  | (none, turn) => turn
  | (some failure, turn) => { turn with sent := turn.sent ++ [failure.response] }

def doHandleSingle : Nat → Client → Bool → Turn → Option Turn
  | 0, _, _, _ => none
  | depth + 1, client, end_, turn =>
    (dispatchOrRefuse msg world (doHandleSingle depth) client end_ turn).map caught

def handleUser (depth : Nat) (server : Server) : Option Turn :=
  doHandle (doHandleSingle msg world depth .tcp) 1 { server, pos := 0, sent := [] }

end

end Vanity.Request
