import Vanity.Cluster.Messages
import Vanity.Library.Runs

/-!
# Evicting a peer

`peer_eviction_server.cpp`, with what of `peer_message_server.cpp` and `peer_request_server.cpp` it rests on.
A node puts an issue to its peers when it has begun it or has learnt of it from one of them, and its own
opinion is recorded with theirs. A reference to an issue is its id: issues are never erased. Beside what the
source keeps, the server remembers what was posted, to how many peers an issue was put, and what came of it.
-/

namespace Vanity.Cluster

open Db (Str)
open Request

/-! ### Issues -/

/-- Where an opinion comes from; the source keeps the opinion alone. -/
inductive Origin (C : Type) where
  | own
  | reply (id : Nat) (sender : C)
  deriving DecidableEq

structure Opinion (C : Type) where
  origin : Origin C
  value : Bool
  deriving DecidableEq

/-- `eviction_issue_t`. -/
structure EvictionIssue (C : Type) where
  peerId : Str
  reason : Str
  opinions : List (Opinion C) := []
  selfOpinion : Bool
  resolved : Bool := false
  expectedOpinions : Int16 := 0

/-- A peer that was evicted, with the opinions of the issue at that moment. -/
structure Eviction (C : Type) where
  issueId : Str
  opinions : List (Opinion C)

structure EvictionServer (C : Type) where
  peers : Finset C
  /-- `session_id` of the peers that have given one. -/
  sessionId : Table C Str
  issues : Table Str (EvictionIssue C) := ∅
  /-- `m_ask_evict_requests`. -/
  requests : Table Nat Str := ∅
  expectedOps : Table Nat PeerOp := ∅
  nextId : Nat := 0
  /-- Every `ASK_EVICT` that was posted: to whom, and for which issue. -/
  posted : Table Nat (C × Str) := ∅
  /-- To how many peers an issue was put. -/
  put : Table Str Nat := ∅
  resolutions : List Str := []
  evictions : List (Eviction C) := []

/-- What the node thinks of its peers: the scores of their behaviour and the times of their pulses. -/
structure Judge (C : Type) where
  misbehaving : C → Bool
  dead : C → Bool

/-- The peers that `post_ask_evict_all` asks: all but the peer that the issue is about, or those with another
id. -/
inductive Audience (C : Type) where
  | allBut (peer : C)
  | otherIds (peerId : Str)

namespace EvictionIssue

variable {C : Type} (issue : EvictionIssue C)

def trueCount : Nat := issue.opinions.countP (·.value)

def falseCount : Nat := issue.opinions.length - issue.trueCount

-- a `short` beside a signed and beside an unsigned number of 64 bits
def isUpheld : Bool := decide (issue.expectedOpinions.toInt ≤ issue.trueCount)

def isRejected : Bool := decide ((issue.expectedOpinions.toInt % 2 ^ 64).toNat ≤ issue.falseCount)

/-- `push_back` of an opinion. -/
def push (opinion : Opinion C) : EvictionIssue C := { issue with opinions := issue.opinions ++ [opinion] }

end EvictionIssue

/-- `expected_opinions` of an issue that is put to so many peers. -/
def expectedFor (peers : Nat) : Int16 := Int16.ofNat (peers / 2 + 1)

/-- The own opinion is recorded, and how many are expected. -/
def EvictionIssue.putTo {C : Type} (issue : EvictionIssue C) (peers : Nat) : EvictionIssue C :=
  { issue.push ⟨.own, issue.selfOpinion⟩ with expectedOpinions := expectedFor peers }

namespace EvictionServer

variable {C : Type} [DecidableEq C] (s : EvictionServer C)

omit [DecidableEq C] in
def modifyIssue (issueId : Str) (change : EvictionIssue C → EvictionIssue C) : EvictionServer C :=
  match s.issues.lookup issueId with
  | some issue => { s with issues := s.issues.insert issueId (change issue) }
  | none => s

-- an issue that has the id already stays, and is the one that is referred to
def insertEvictionIssue (issueId : Str) (issue : EvictionIssue C) : EvictionServer C :=
  { s with issues := s.issues.insertNew (issueId, issue) }

def similarIssueExists (peerId reason : Str) : Bool :=
  decide (∃ issueId ∈ s.issues.keys,
    ((s.issues.lookup issueId).any fun issue => decide (issue.peerId = peerId ∧ issue.reason = reason)) = true)

def peerFromId (order : Order C) (id : Str) : Option C :=
  (order.list s.peers).find? fun peer => decide (s.sessionId.lookup peer = some id)

-- `none` for an exception
def selfOpinionOn (order : Order C) (judge : Judge C) (peerId reason : Str) : Option Bool :=
  match s.peerFromId order peerId with
  | none => none
  | some peer =>
    if reason = ascii "misbehaving" then some (judge.misbehaving peer)
    else if reason = ascii "dead" then some (judge.dead peer)
    else none

def asks (peer : C) : Audience C → Bool
  | .allBut other => decide (peer ≠ other)
  | .otherIds peerId => (s.sessionId.lookup peer).any fun id => decide (id ≠ peerId)

/-! ### Posts -/

/-- `next_id`. -/
def takeId : EvictionServer C := { s with nextId := s.nextId + 1 }

def expectOp (id : Nat) (op : PeerOp) : EvictionServer C := { s with expectedOps := s.expectedOps.insert id op }

def newPost (op : PeerOp) : EvictionServer C := s.takeId.expectOp s.nextId op

/-- An id is taken for a message that will ask the peer. -/
def allot (issueId : Str) (peer : C) : EvictionServer C :=
  { s.takeId with posted := s.posted.insert s.nextId (peer, issueId) }

def postAskEvict (issueId : Str) (peer : C) : EvictionServer C := (s.allot issueId peer).expectOp s.nextId .askEvict

def addRequest (id : Nat) (issueId : Str) : EvictionServer C := { s with requests := s.requests.insertNew (id, issueId) }

/-- The loop of `post_ask_evict_all`, which an exception of a socket ends. -/
def askEach (sends : Nat → Bool) (issueId : Str) : List C → EvictionServer C → EvictionServer C
  | [], s => s
  | peer :: rest, s =>
    let posted := s.postAskEvict issueId peer
    if sends s.nextId then askEach sends issueId rest (posted.addRequest s.nextId issueId) else posted

def putIssue (issueId : Str) (peers : Nat) : EvictionServer C :=
  { s.modifyIssue issueId (·.putTo peers) with put := s.put.insert issueId peers }

def postAskEvictAll (order : Order C) (sends : Nat → Bool) (issueId : Str) (audience : Audience C) : EvictionServer C :=
  let peers := order.list s.peers
  (s.putIssue issueId peers.length).askEach sends issueId (peers.filter fun peer => s.asks peer audience)

/-! ### Verdicts -/

def forgetPeer (peer : C) : EvictionServer C := { s with peers := s.peers.erase peer }

/-- `do_evict_peer`, of the first peer that has the id; an exception if there is none. -/
def evictPeer (order : Order C) (issueId : Str) (issue : EvictionIssue C) : EvictionServer C :=
  match s.peerFromId order issue.peerId with
  | none => s
  | some peer => { s.forgetPeer peer with evictions := s.evictions ++ [⟨issueId, issue.opinions⟩] }

def resolveIssue (order : Order C) (issueId : Str) (issue : EvictionIssue C) (verdict : Bool) : EvictionServer C :=
  let resolved :=
    { s.modifyIssue issueId fun issue => { issue with resolved := true } with resolutions := s.resolutions ++ [issueId] }
  if verdict then resolved.evictPeer order issueId issue else resolved

def tryResolveIssue (order : Order C) (issueId : Str) : EvictionServer C :=
  match s.issues.lookup issueId with
  | none => s
  | some issue =>
    if issue.resolved then s
    else if issue.isUpheld then s.resolveIssue order issueId issue true
    else if issue.isRejected then s.resolveIssue order issueId issue false
    else s

/-! ### Handlers -/

def beginEvictProcess (order : Order C) (sends : Nat → Bool) (issueId : Str) (peer : C) (reason : Str) :
    EvictionServer C :=
  match s.sessionId.lookup peer with
  | none => s
  | some peerId =>
    if s.similarIssueExists peerId reason then s
    else
      (s.insertEvictionIssue issueId { peerId, reason, selfOpinion := true }).postAskEvictAll order sends issueId
        (.allBut peer)

/-- `post_request_ask_evict`; `replies` says whether the reply could be sent. -/
def postRequestAskEvict (order : Order C) (judge : Judge C) (replies : Bool) (sends : Nat → Bool)
    (issueId peerId reason : Str) : EvictionServer C :=
  if issueId ∈ s.issues then s
  else match s.selfOpinionOn order judge peerId reason with
    | none => s
    | some selfOpinion =>
      let s := s.insertEvictionIssue issueId { peerId, reason, selfOpinion }
      if replies then s.postAskEvictAll order sends issueId (.otherIds peerId) else s

def replyRequestAskEvict (order : Order C) (sender : C) (id : Nat) (opinion : Bool) : EvictionServer C :=
  match s.requests.lookup id with
  | none => s
  | some issueId =>
    let s := { s with requests := s.requests.erase id }
    (s.modifyIssue issueId (·.push ⟨.reply id sender, opinion⟩)).tryResolveIssue order issueId

end EvictionServer

/-- A reply as far as it matters for an `ASK_EVICT`: `OK` and an opinion, or anything else. -/
inductive ReplyBody where
  | opinion (value : Bool)
  | other

namespace ReplyBody

/-- What follows an `OK`. -/
def readOk (msg : Str) (pos : Nat) : ReplyBody :=
  match getExact [.bool] true msg pos with
  | .ok (value, _) _ => .opinion value
  | .thrown _ _ => .other

def read (msg : Str) (pos : Nat) : ReplyBody :=
  match getReplyStatus msg pos with
  | .ok .ok pos => readOk msg pos
  | _ => .other

theorem mem_afterExact {types : List ObjectT} {msg : Str} {pos : Nat} {make : Concrete types → PeerCall} {call : PeerCall} :
    call ∈ (afterExact types msg pos make).1 ↔ ∃ args stop, getExact types true msg pos = .ok args stop ∧ call = make args := by
  unfold afterExact
  cases getExact types true msg pos with
  | thrown failure stop => simp
  | ok args stop => simp

section
variable (id : Int64) (msg : Str) (pos : Nat) (value : Bool)

theorem handleOkReplyRequest_askEvict :
    PeerCall.replyRequestAskEvict id value ∈ (handleOkReplyRequest id .askEvict msg pos).1 ↔ readOk msg pos = .opinion value := by
  unfold handleOkReplyRequest readOk
  rw [mem_afterExact]
  cases getExact [.bool] true msg pos with
  | thrown failure stop => simp
  | ok args stop =>
    obtain ⟨opinion, rest⟩ := args
    constructor
    · rintro ⟨_, _, same, call⟩
      cases same
      cases call
      rfl
    · intro same
      cases same
      exact ⟨_, _, rfl, rfl⟩

/-- The handler of an `ASK_EVICT` is called for an opinion that could be read, and for nothing else. -/
theorem handleReplyStatus_askEvict :
    PeerCall.replyRequestAskEvict id value ∈ (handleReplyStatus id .askEvict msg pos).1 ↔ read msg pos = .opinion value := by
  unfold handleReplyStatus read
  cases getReplyStatus msg pos with
  | thrown failure stop => simp
  | ok status stop =>
    cases status with
    | ok => exact handleOkReplyRequest_askEvict id msg stop value
    | err =>
      refine iff_of_false (fun called => ?_) ReplyBody.noConfusion
      obtain ⟨_, _, _, call⟩ := mem_afterExact.mp called
      cases call
    | denied =>
      refine iff_of_false (fun called => ?_) ReplyBody.noConfusion
      obtain ⟨_, _, _, call⟩ := mem_afterExact.mp called
      cases call
    | redirect =>
      refine iff_of_false (fun called => ?_) ReplyBody.noConfusion
      obtain ⟨_, _, _, call⟩ := mem_afterExact.mp called
      cases call

end

end ReplyBody

namespace EvictionServer

variable {C : Type} [DecidableEq C] (s : EvictionServer C)

/-- `handle_reply_request`. -/
def handleReplyRequest (order : Order C) (sender : C) (id : Nat) (body : ReplyBody) : EvictionServer C :=
  match s.expectedOps.lookup id with
  | none => s
  | some op =>
    let s := { s with expectedOps := s.expectedOps.erase id }
    match op, body with
    | .askEvict, .opinion value => s.replyRequestAskEvict order sender id value
    | _, _ => s

end EvictionServer

/-- What happens at a node: handlers, each as a whole, and changes of its peers. -/
inductive EvictionEvent (C : Type) where
  | begin_ (order : Order C) (sends : Nat → Bool) (issueId : Str) (peer : C) (reason : Str)
  | askEvict (order : Order C) (judge : Judge C) (replies : Bool) (sends : Nat → Bool) (issueId peerId reason : Str)
  | reply (order : Order C) (sender : C) (id : Nat) (body : ReplyBody)
  | post (op : PeerOp) (other : op ≠ .askEvict)
  | peers (peers : Finset C) (sessionId : Table C Str)

namespace EvictionServer

variable {C : Type} [DecidableEq C]

/-- An issue that the node begins has a fresh id. -/
def step (s : EvictionServer C) : EvictionEvent C → Option (EvictionServer C)
  | .begin_ order sends issueId peer reason =>
    if issueId ∈ s.issues then none else some (s.beginEvictProcess order sends issueId peer reason)
  | .askEvict order judge replies sends issueId peerId reason =>
    some (s.postRequestAskEvict order judge replies sends issueId peerId reason)
  | .reply order sender id body => some (s.handleReplyRequest order sender id body)
  | .post op _ => some (s.newPost op)
  | .peers peers sessionId => some { s with peers, sessionId }

def start (peers : Finset C) (sessionId : Table C Str) : EvictionServer C := { peers, sessionId }

/-- Whether the event puts an issue to the peers. -/
def Puts (s : EvictionServer C) : EvictionEvent C → Prop
  | .begin_ _ _ _ peer reason => ∃ peerId, s.sessionId.lookup peer = some peerId ∧ s.similarIssueExists peerId reason = false
  | .askEvict order judge replies _ issueId peerId reason =>
    issueId ∉ s.issues ∧ (s.selfOpinionOn order judge peerId reason).isSome = true ∧ replies = true
  | _ => False

end EvictionServer

end Vanity.Cluster
