import Vanity.Request.Spelling
import Vanity.Request.Tokens

/-!
# Messages between peers

`post_message.cpp`, `reply_message.cpp`, `async_message.cpp` and the reading of such messages in
`peer_request_server.cpp`. What a message leads to is the list of the handlers that are called, with their
arguments; a handler that throws is not followed.
-/

namespace Vanity.Cluster

open Db (Str)
open Request

/-! ### Writing -/

/-- `peer_op_t`. -/
inductive PeerOp where
  | ping | exit | peerAuth | peers | askEvict
  deriving DecidableEq

def peerOpStrings : List (PeerOp × Str) :=
  [(.ping, ascii "PING"), (.exit, ascii "EXIT"), (.peerAuth, ascii "PEER_AUTH"), (.peers, ascii "PEERS"),
   (.askEvict, ascii "ASK_EVICT")]

def PeerOp.text : PeerOp → Str
  | .ping => ascii "PING"
  | .exit => ascii "EXIT"
  | .peerAuth => ascii "PEER_AUTH"
  | .peers => ascii "PEERS"
  | .askEvict => ascii "ASK_EVICT"

/-- `async_op_t`. -/
inductive AsyncOp where
  | pulse
  deriving DecidableEq

def asyncOpStrings : List (AsyncOp × Str) := [(.pulse, ascii "PULSE")]

def AsyncOp.text : AsyncOp → Str
  | .pulse => ascii "PULSE"

/-- An operation with the arguments it is posted with. -/
inductive Post where
  | ping
  | exit
  | peerAuth
  | peers
  | askEvict (issueId peerAddr reason : Str)

def Post.op : Post → PeerOp
  | .ping => .ping
  | .exit => .exit
  | .peerAuth => .peerAuth
  | .peers => .peers
  | .askEvict .. => .askEvict

def Post.args : Post → List Str
  | .askEvict issueId peerAddr reason => [issueId, peerAddr, reason]
  | _ => []

/-- A status with the body that the replies to an operation have. -/
inductive Reply where
  | okPing (pong : Str)
  | okExit
  | okPeerAuth (data : Str)
  | okPeers (peers : Finset Str)
  | okAskEvict (opinion : Bool)
  | err (op : PeerOp) (what : Str)
  | denied (op : PeerOp)
  | redirectPeerAuth (addr : Str)
  | redirect (op : PeerOp) (other : op ≠ .peerAuth)

def Reply.op : Reply → PeerOp
  | .okPing _ => .ping
  | .okExit => .exit
  | .okPeerAuth _ => .peerAuth
  | .okPeers _ => .peers
  | .okAskEvict _ => .askEvict
  | .err op _ => op
  | .denied op => op
  | .redirectPeerAuth _ => .peerAuth
  | .redirect op _ => op

def Reply.status : Reply → ReplyStatus
  | .okPing _ | .okExit | .okPeerAuth _ | .okPeers _ | .okAskEvict _ => .ok
  | .err .. => .err
  | .denied _ => .denied
  | .redirectPeerAuth _ | .redirect .. => .redirect

def Reply.body (order : Order Str) : Reply → Str
  | .okPing text | .okPeerAuth text | .err _ text | .redirectPeerAuth text => serializeStringBody text
  | .okPeers peers => serializeStrings 123 125 peers.card (order.list peers)
  | .okAskEvict opinion => bif opinion then ascii "true" else ascii "false"
  | .okExit | .denied _ | .redirect .. => []

def postMessage (id : Int64) (post : Post) : Str :=
  ascii "POST" ++ intText id.toInt ++ [32] ++ post.op.text ++ post.args.flatMap serializeStringBody

/-- A message that a peer which does not know the sender reads as a request. -/
def plainPostMessage (id : Int64) (op : PeerOp) (args : List Str) : Str :=
  op.text ++ intText id.toInt ++ [32] ++ args.flatMap serializeStringBody

def replyMessage (order : Order Str) (id : Int64) (reply : Reply) : Str :=
  ascii "REPLY" ++ intText id.toInt ++ [32] ++ reply.status.text ++ reply.body order

def asyncMessage (op : AsyncOp) : Str := ascii "ASYNC" ++ op.text

/-! ### Reading -/

/-- `peer_request_t`. -/
inductive PeerRequestT where
  | post | reply | async
  deriving DecidableEq

def requestStrings : List (PeerRequestT × Str) :=
  [(.post, ascii "POST"), (.reply, ascii "REPLY"), (.async, ascii "ASYNC")]

def replyStatusStrings : List (ReplyStatus × Str) :=
  [(.ok, ascii "OK"), (.err, ascii "ERR"), (.denied, ascii "DENIED"), (.redirect, ascii "REDIRECT")]

def getRequestT : Extract PeerRequestT := getFromList requestStrings "invalid request type"

def getReplyStatus : Extract ReplyStatus := getFromList replyStatusStrings "invalid reply status"

def getOp : Extract PeerOp := getFromList peerOpStrings "invalid peer operation"

def getAsyncOp : Extract AsyncOp := getFromList asyncOpStrings "invalid async operation"

/-- A handler with the arguments it is called with. -/
inductive PeerCall where
  | asyncRequestPulse
  | postRequestPing (id : Int64)
  | postRequestExit (id : Int64)
  | postRequestPeerAuth (id : Int64)
  | postRequestPeers (id : Int64)
  | postRequestAskEvict (id : Int64) (issueId peerAddr reason : Str)
  | replyErr (id : Int64) (what : Str)
  | reportBadReply
  | replyRequestPing (id : Int64)
  | replyRequestExit (id : Int64)
  | replyRequestPeerAuth (id : Int64) (data : Str)
  | replyRequestPeers (id : Int64) (peers : Finset Str)
  | replyRequestAskEvict (id : Int64) (opinion : Bool)
  | replyDeniedRequestPeerAuth (id : Int64)
  | replyRedirectRequestPeerAuth (id : Int64) (addr : Str)
  | handleDefaultErrReplyRequest (id : Int64) (op : PeerOp) (err : Str)
  | handleDefaultDeniedReplyRequest (id : Int64) (op : PeerOp)
  | handleDefaultRedirectReplyRequest (id : Int64) (op : PeerOp)
  deriving DecidableEq

abbrev Handled := List PeerCall × Option Failure

/-- A handler behind the arguments that end its message. -/
def afterExact (types : List ObjectT) (msg : Str) (pos : Nat) (call : Concrete types → PeerCall) : Handled :=
  match getExact types true msg pos with
  | .thrown failure _ => ([], some failure)
  | .ok args _ => ([call args], none)

def handleAsyncRequest (msg : Str) (pos : Nat) : Handled :=
  match getAsyncOp msg pos with
  | .thrown failure _ => ([], some failure)
  | .ok .pulse pos => afterExact [] msg pos fun _ => .asyncRequestPulse

section
variable (id : Int64)

def handlePostRequestInner (msg : Str) (pos : Nat) : Handled :=
  match getOp msg pos with
  | .thrown failure _ => ([], some failure)
  | .ok .ping pos => afterExact [] msg pos fun _ => .postRequestPing id
  -- the handler comes before the end of the message is looked for
  | .ok .exit pos =>
    match getExact [] true msg pos with
    | .thrown failure _ => ([.postRequestExit id], some failure)
    | .ok _ _ => ([.postRequestExit id], none)
  | .ok .peerAuth pos => afterExact [] msg pos fun _ => .postRequestPeerAuth id
  | .ok .peers pos => afterExact [] msg pos fun _ => .postRequestPeers id
  | .ok .askEvict pos =>
    afterExact [.str, .str, .str] msg pos fun (issueId, peerAddr, reason, _) =>
      .postRequestAskEvict id issueId peerAddr reason

-- an `InvalidRequest` derives privately and is caught as an unknown error
def handlePostRequest (msg : Str) (pos : Nat) : Handled :=
  match handlePostRequestInner id msg pos with
  | (calls, none) => (calls, none)
  | (calls, some (.invalidRequest why)) =>
    (calls ++ [.replyErr id (ascii "unknown error")], some (.invalidRequest why))
  | (calls, some (.exception what)) => (calls ++ [.replyErr id what], some (.exception what))

def handleOkReplyRequest (op : PeerOp) (msg : Str) (pos : Nat) : Handled :=
  match op with
  | .ping => afterExact [.str] msg pos fun _ => .replyRequestPing id
  | .exit => afterExact [] msg pos fun _ => .replyRequestExit id
  | .peerAuth => afterExact [.str] msg pos fun (data, _) => .replyRequestPeerAuth id data
  | .peers => afterExact [.set] msg pos fun (peers, _) => .replyRequestPeers id peers
  | .askEvict => afterExact [.bool] msg pos fun (opinion, _) => .replyRequestAskEvict id opinion

def handleErrReplyRequest (op : PeerOp) (msg : Str) (pos : Nat) : Handled :=
  afterExact [.str] msg pos fun (err, _) => .handleDefaultErrReplyRequest id op err

def handleDeniedReplyRequest (op : PeerOp) (msg : Str) (pos : Nat) : Handled :=
  afterExact [] msg pos fun _ =>
    if op = .peerAuth then .replyDeniedRequestPeerAuth id else .handleDefaultDeniedReplyRequest id op

def handleRedirectReplyRequest (op : PeerOp) (msg : Str) (pos : Nat) : Handled :=
  if op = .peerAuth then afterExact [.str] msg pos fun (addr, _) => .replyRedirectRequestPeerAuth id addr
  else afterExact [] msg pos fun _ => .handleDefaultRedirectReplyRequest id op

def handleReplyStatus (op : PeerOp) (msg : Str) (pos : Nat) : Handled :=
  match getReplyStatus msg pos with
  | .thrown failure _ => ([], some failure)
  | .ok .ok pos => handleOkReplyRequest id op msg pos
  | .ok .err pos => handleErrReplyRequest id op msg pos
  | .ok .denied pos => handleDeniedReplyRequest id op msg pos
  | .ok .redirect pos => handleRedirectReplyRequest id op msg pos

-- the operation decides what the reply is read as, and is no longer expected then
def handleReplyRequest (expected : Table Int64 PeerOp) (msg : Str) (pos : Nat) : Table Int64 PeerOp × Handled :=
  match expected.lookup id with
  | none => (expected, [.reportBadReply], none)
  | some op => (expected.erase id, handleReplyStatus id op msg pos)

end

/-- With the operations of the replies that are expected, and what is left of them. -/
def handlePeerInner (expected : Table Int64 PeerOp) (msg : Str) : Table Int64 PeerOp × Handled :=
  match getRequestT msg 0 with
  | .thrown failure _ => (expected, [], some failure)
  | .ok .async pos => (expected, handleAsyncRequest msg pos)
  | .ok .post pos =>
    match getInt msg pos with
    | .thrown failure _ => (expected, [], some failure)
    | .ok id pos => (expected, handlePostRequest id msg pos)
  | .ok .reply pos =>
    match getInt msg pos with
    | .thrown failure _ => (expected, [], some failure)
    | .ok id pos => handleReplyRequest id expected msg pos

/-! ### Messages reach their handlers -/

def Post.call (id : Int64) : Post → PeerCall
  | .ping => .postRequestPing id
  | .exit => .postRequestExit id
  | .peerAuth => .postRequestPeerAuth id
  | .peers => .postRequestPeers id
  | .askEvict issueId peerAddr reason => .postRequestAskEvict id issueId peerAddr reason

def Reply.call (id : Int64) : Reply → PeerCall
  | .okPing _ => .replyRequestPing id
  | .okExit => .replyRequestExit id
  | .okPeerAuth data => .replyRequestPeerAuth id data
  | .okPeers peers => .replyRequestPeers id peers
  | .okAskEvict opinion => .replyRequestAskEvict id opinion
  | .err op what => .handleDefaultErrReplyRequest id op what
  | .denied op => if op = .peerAuth then .replyDeniedRequestPeerAuth id else .handleDefaultDeniedReplyRequest id op
  | .redirectPeerAuth addr => .replyRedirectRequestPeerAuth id addr
  | .redirect op _ => .handleDefaultRedirectReplyRequest id op

def AsyncOp.call : AsyncOp → PeerCall
  | .pulse => .asyncRequestPulse

section
variable {front text rest : Str}

theorem getExact_spelled {types : List ObjectT} {args : Concrete types} (spelled : SpellsAll types args text [])
    (short : (front ++ text).length < maxSizeT) :
    getExact types true (front ++ text) front.length = .ok args (front ++ text).length := by
  have read : getExact types true (front ++ text ++ []) front.length = _ :=
    reads_getExact (fun _ => rfl) spelled front (by rwa [List.append_nil])
  rwa [List.append_nil] at read

theorem afterExact_spelled {types : List ObjectT} {args : Concrete types} {call : Concrete types → PeerCall}
    (spelled : SpellsAll types args text []) (short : (front ++ text).length < maxSizeT) :
    afterExact types (front ++ text) front.length call = ([call args], none) := by
  unfold afterExact
  rw [getExact_spelled spelled short]

theorem getRequestT_first {kind : PeerRequestT} (name : Str) (visible : Visible name)
    (found : findFrom requestStrings (name ++ rest) = some (kind, name)) (short : (name ++ rest).length < maxSizeT) :
    getRequestT (name ++ rest) 0 = .ok kind name.length := by
  have read := reads_getFromList "invalid request type" Blank.nil visible found [] (by simpa using short)
  unfold getRequestT
  simpa using read

theorem getInt_written (id : Int64) (short : (front ++ intText id.toInt ++ (32 :: rest)).length < maxSizeT) :
    getInt (front ++ intText id.toInt ++ (32 :: rest)) front.length = .ok id (front ++ intText id.toInt).length := by
  refine reads_getInt (stoll_intText ?_ id) front short
  rintro c first
  obtain rfl := Option.some.inj first
  rfl

theorem space_blank : Blank [32] := by
  simp [Blank, isSpace]

theorem getOp_written (op : PeerOp) (short : (front ++ ([32] ++ op.text) ++ rest).length < maxSizeT) :
    getOp (front ++ ([32] ++ op.text) ++ rest) front.length = .ok op (front ++ ([32] ++ op.text)).length := by
  refine reads_getFromList _ space_blank ?_ ?_ front short
  · cases op <;> exact ⟨_, _, rfl, rfl⟩
  · cases op <;> rfl

theorem getReplyStatus_written (status : ReplyStatus) (short : (front ++ ([32] ++ status.text) ++ rest).length < maxSizeT) :
    getReplyStatus (front ++ ([32] ++ status.text) ++ rest) front.length =
      .ok status (front ++ ([32] ++ status.text)).length := by
  refine reads_getFromList _ space_blank ?_ ?_ front short
  · cases status <;> exact ⟨_, _, rfl, rfl⟩
  · cases status <;> rfl

end

theorem spelled_nothing : SpellsAll [] () [] [] := rfl

section
variable {id : Int64} {front : Str}

theorem handlePostRequestInner_written (post : Post) {pos : Nat}
    (short : (front ++ post.args.flatMap serializeStringBody).length < 2 ^ 32)
    (read : getOp (front ++ post.args.flatMap serializeStringBody) pos = .ok post.op front.length) :
    handlePostRequestInner id (front ++ post.args.flatMap serializeStringBody) pos = ([post.call id], none) := by
  have room : (front ++ post.args.flatMap serializeStringBody).length < maxSizeT := by
    unfold maxSizeT
    omega
  unfold handlePostRequestInner
  rw [read]
  cases post with
  | ping => exact afterExact_spelled spelled_nothing room
  | peerAuth => exact afterExact_spelled spelled_nothing room
  | peers => exact afterExact_spelled spelled_nothing room
  | exit =>
    have ended : getExact [] true (front ++ Post.exit.args.flatMap serializeStringBody) front.length = _ :=
      getExact_spelled spelled_nothing room
    simp only [Post.op]
    rw [ended]
    rfl
  | askEvict issueId peerAddr reason =>
    have spelled : SpellsAll [.str, .str, .str] (issueId, peerAddr, reason, ())
        ([issueId, peerAddr, reason].flatMap serializeStringBody) [] := by
      simp only [Post.args, List.flatMap_cons, List.length_append] at short
      refine ⟨_, _, spellsStr_short (by omega), ⟨_, _, spellsStr_short (by omega), ⟨_, _, spellsStr_short (by omega), rfl, rfl⟩, rfl⟩, rfl⟩
    exact afterExact_spelled spelled room

theorem handleReplyStatus_written (order : Order Str) (reply : Reply) {pos : Nat}
    (short : (front ++ reply.body order).length < 2 ^ 32)
    (read : getReplyStatus (front ++ reply.body order) pos = .ok reply.status front.length) :
    handleReplyStatus id reply.op (front ++ reply.body order) pos = ([reply.call id], none) := by
  have room : (front ++ reply.body order).length < maxSizeT := by
    unfold maxSizeT
    omega
  have small : (reply.body order).length < 2 ^ 32 := by
    simp only [List.length_append] at short
    omega
  have one : ∀ {text : Str}, (serializeStringBody text).length < 2 ^ 32 →
      SpellsAll [.str] (text, ()) (serializeStringBody text) [] :=
    fun short => ⟨_, [], spellsStr_short short, rfl, (List.append_nil _).symm⟩
  unfold handleReplyStatus
  rw [read]
  cases reply with
  | okPing pong => exact afterExact_spelled (one small) room
  | okExit => exact afterExact_spelled spelled_nothing room
  | okPeerAuth data => exact afterExact_spelled (one small) room
  | okPeers peers =>
    have spelled : SpellsAll [.set] (peers, ()) ((Reply.okPeers peers).body order) [] :=
      ⟨_, [], ⟨order.list peers, (spellsMany_strings (order.length peers) small).1, (order.toFinset peers).symm⟩, rfl,
        (List.append_nil _).symm⟩
    exact afterExact_spelled spelled room
  | okAskEvict opinion =>
    have spelled : SpellsAll [.bool] (opinion, ()) ((Reply.okAskEvict opinion).body order) [] :=
      ⟨_, [], ⟨[], Blank.nil, rfl⟩, rfl, (List.append_nil _).symm⟩
    exact afterExact_spelled spelled room
  | err op what => exact afterExact_spelled (one small) room
  | denied op => exact afterExact_spelled spelled_nothing room
  | redirectPeerAuth addr => exact afterExact_spelled (one small) room
  | redirect op other => exact (if_neg other).trans (afterExact_spelled spelled_nothing room)

end

section
variable (id : Int64) (expected : Table Int64 PeerOp)

theorem post_read_back (post : Post) (short : (postMessage id post).length < 2 ^ 32) :
    handlePeerInner expected (postMessage id post) = (expected, [post.call id], none) := by
  let front := ascii "POST" ++ intText id.toInt
  have whole : postMessage id post = front ++ ([32] ++ post.op.text) ++ post.args.flatMap serializeStringBody := by
    simp [postMessage, front]
  have headed : postMessage id post = front ++ (32 :: (post.op.text ++ post.args.flatMap serializeStringBody)) := by
    simp [postMessage, front]
  have room : (postMessage id post).length < maxSizeT := by
    unfold maxSizeT
    omega
  have kind : getRequestT (postMessage id post) 0 = .ok .post (ascii "POST").length := by
    rw [headed, List.append_assoc] at room ⊢
    exact getRequestT_first (ascii "POST") ⟨80, _, rfl, rfl⟩ rfl room
  have number : getInt (postMessage id post) (ascii "POST").length = .ok id front.length := by
    rw [headed] at room ⊢
    exact getInt_written id room
  have op : getOp (postMessage id post) front.length = .ok post.op (front ++ ([32] ++ post.op.text)).length := by
    rw [whole] at room ⊢
    exact getOp_written post.op room
  have handled : handlePostRequestInner id (postMessage id post) front.length = ([post.call id], none) := by
    rw [whole] at short op ⊢
    exact handlePostRequestInner_written post short op
  unfold handlePeerInner handlePostRequest
  simp only [kind, number, handled]

theorem reply_read_back (order : Order Str) (reply : Reply) (awaited : expected.lookup id = some reply.op)
    (short : (replyMessage order id reply).length < 2 ^ 32) :
    handlePeerInner expected (replyMessage order id reply) = (expected.erase id, [reply.call id], none) := by
  let front := ascii "REPLY" ++ intText id.toInt
  have whole : replyMessage order id reply = front ++ ([32] ++ reply.status.text) ++ reply.body order := by
    simp [replyMessage, front]
  have headed : replyMessage order id reply = front ++ (32 :: (reply.status.text ++ reply.body order)) := by
    simp [replyMessage, front]
  have room : (replyMessage order id reply).length < maxSizeT := by
    unfold maxSizeT
    omega
  have kind : getRequestT (replyMessage order id reply) 0 = .ok .reply (ascii "REPLY").length := by
    rw [headed, List.append_assoc] at room ⊢
    exact getRequestT_first (ascii "REPLY") ⟨82, _, rfl, rfl⟩ rfl room
  have number : getInt (replyMessage order id reply) (ascii "REPLY").length = .ok id front.length := by
    rw [headed] at room ⊢
    exact getInt_written id room
  have status : getReplyStatus (replyMessage order id reply) front.length =
      .ok reply.status (front ++ ([32] ++ reply.status.text)).length := by
    rw [whole] at room ⊢
    exact getReplyStatus_written reply.status room
  have handled : handleReplyStatus id reply.op (replyMessage order id reply) front.length = ([reply.call id], none) := by
    rw [whole] at short status ⊢
    exact handleReplyStatus_written order reply short status
  unfold handlePeerInner handleReplyRequest
  simp only [kind, number, awaited, handled]

theorem plainPost_read_back (key addr peerId : Str) (world : Nat → World)
    (handle : Client → Bool → Turn → Option Turn) (client : Client) (server : Server)
    (short : (plainPostMessage id .peerAuth [key, addr, peerId]).length < 2 ^ 32) :
    dispatch (plainPostMessage id .peerAuth [key, addr, peerId]) world handle client true ⟨server, 0, []⟩ =
      some (Turn.call ⟨server, 0, []⟩ (request client .peerAuth (id, key, addr, peerId, ())) world
        (plainPostMessage id .peerAuth [key, addr, peerId]).length) := by
  let objects := intText id.toInt ++
    (([32] ++ serializeStringBody key) ++ (serializeStringBody addr ++ (serializeStringBody peerId ++ [])))
  have whole : plainPostMessage id .peerAuth [key, addr, peerId] = ascii "PEER_AUTH" ++ objects := by
    simp [plainPostMessage, PeerOp.text, objects]
  have room : (ascii "PEER_AUTH" ++ objects).length < maxSizeT := by
    unfold maxSizeT
    rw [whole] at short
    omega
  have spelled : SpellsAll OperationT.peerAuth.arguments (id, key, addr, peerId, ()) objects [] := by
    rw [whole] at short
    simp only [objects, List.length_append] at short
    refine ⟨_, _, stoll_intText ?_ id, ⟨_, _, (spellsStr_short (by omega)).blank space_blank, ⟨_, _,
      spellsStr_short (by omega), ⟨_, _, spellsStr_short (by omega), rfl, rfl⟩, rfl⟩, rfl⟩, rfl⟩
    rintro c first
    obtain rfl := Option.some.inj first
    rfl
  have named : getOperation (ascii "PEER_AUTH" ++ objects) 0 = .ok .peerAuth (ascii "PEER_AUTH").length := by
    have read := reads_getOperation Blank.nil (show (.peerAuth, ascii "PEER_AUTH") ∈ operationStrings by decide) spelled []
      (by simpa using room)
    simpa using read
  unfold dispatch
  rw [whole]
  simp only [named, getExact_spelled spelled room, Bool.true_or]
  rfl

end

/-- Every message that a peer writes reaches the handler it is for, with what was written. -/
theorem peer_messages_read_back (order : Order Str) (id : Int64) (expected : Table Int64 PeerOp) :
    (∀ post, (postMessage id post).length < 2 ^ 32 →
        handlePeerInner expected (postMessage id post) = (expected, [post.call id], none)) ∧
      (∀ reply, expected.lookup id = some reply.op → (replyMessage order id reply).length < 2 ^ 32 →
        handlePeerInner expected (replyMessage order id reply) = (expected.erase id, [reply.call id], none)) ∧
      (∀ op, handlePeerInner expected (asyncMessage op) = (expected, [op.call], none)) ∧
      ∀ key addr peerId world handle client server,
        (plainPostMessage id .peerAuth [key, addr, peerId]).length < 2 ^ 32 →
        dispatch (plainPostMessage id .peerAuth [key, addr, peerId]) world handle client true ⟨server, 0, []⟩ =
          some (Turn.call ⟨server, 0, []⟩ (request client .peerAuth (id, key, addr, peerId, ())) world
            (plainPostMessage id .peerAuth [key, addr, peerId]).length) := by
  refine ⟨post_read_back id expected, reply_read_back id expected order, fun op => ?_, plainPost_read_back id⟩
  cases op
  rfl

theorem evict_messages_read_back :
    (handlePeerInner ∅ (ascii "POST7 ASK_EVICT(2)17(4)PING(0)")).2 =
        ([.postRequestAskEvict 7 (ascii "17") (ascii "PING") []], none) ∧
      (handlePeerInner (Finmap.singleton 7 .askEvict) (ascii "REPLY7 OKtrue")).2 =
        ([.replyRequestAskEvict 7 true], none) := by
  have posted := (peer_messages_read_back (Order.startingWith []) 7 ∅).1 (.askEvict (ascii "17") (ascii "PING") [])
    (by decide +kernel)
  have replied := (peer_messages_read_back (Order.startingWith []) 7 (Finmap.singleton 7 .askEvict)).2.1
    (.okAskEvict true) Finmap.lookup_singleton_eq (by decide +kernel)
  exact ⟨congrArg Prod.snd posted, congrArg Prod.snd replied⟩

end Vanity.Cluster
