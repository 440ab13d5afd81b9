import Vanity.Cluster.Membership
import Mathlib.Data.Finset.Image
import Mathlib.Order.Interval.Finset.Nat

/-!
# The clients that a node refers to

`client_server.cpp` under the handlers of a node: `m_clients` owns the connections, and `m_peers` and the
pending applications point to them. `remove_client` looks for a connection among the peers, not among the
applications. A request in a pipe comes from a `PipedClient`, which is gone when the pipe has been handled.
-/

namespace Vanity.Cluster

open Db (Str)
open Request

/-- What a `Client*` points to: a connection that was accepted, one that was opened with the post of this id,
or a `PipedClient`. -/
inductive Reference where
  | accepted (number : Nat)
  | opened (id : Nat)
  | piped (number : Nat)
  deriving DecidableEq

structure ClientServer where
  /-- `m_clients`. -/
  clients : Finset Reference := ∅
  accepted : Nat := 0
  node : Node Reference := {}

/-- A message of a client; a `CLUSTER_JOIN` comes by itself or in a pipe. With it comes what the handler takes
from outside, the numeric addresses of connections among it. -/
inductive Message where
  | clusterNew (random key id : Str)
  | clusterJoin (pipe : Option Nat) (random key id : Str) (remoteAddr : Option Str)
  | clusterLeave
  | peerAuth (onClusterPort : Bool) (ownPeerAddr key addr peerId : Str)
  | okPeerAuth (random : Str) (id : Nat) (data : Str)
  | deniedPeerAuth (id : Nat)
  | redirectPeerAuth (id : Nat) (addr : Str) (remoteAddr : Str × UInt16 → Option Str)
  | okPeers (ownPeerAddr : Str) (order : Order Str) (remoteAddr : Nat → Str × UInt16 → Option Str) (peers : Finset Str)

def opened (id : Nat) (remoteAddr : Option Str) : Option (Node.Socket Reference) :=
  remoteAddr.map fun addr => ⟨.opened id, addr⟩

namespace Message

-- `handle` chooses between `handle_peer` and `handle_user`
def isReply : Message → Bool
  | .okPeerAuth .. | .deniedPeerAuth .. | .redirectPeerAuth .. | .okPeers .. => true
  | _ => false

def event (node : Node Reference) (client : Reference) : Message → Event Reference
  | .clusterNew random key id => .clusterNew random key id
  | .clusterJoin pipe random key id remoteAddr =>
    .clusterJoin random key id (opened node.nextId remoteAddr) ((pipe.map .piped).getD client)
  | .clusterLeave => .clusterLeave
  | .peerAuth onClusterPort ownPeerAddr key addr peerId => .peerAuth client onClusterPort ownPeerAddr key addr peerId
  | .okPeerAuth random id data => .okPeerAuth random client id data
  | .deniedPeerAuth id => .deniedPeerAuth client id
  | .redirectPeerAuth id addr remoteAddr =>
    .redirectPeerAuth client id addr fun target => opened node.nextId (remoteAddr target)
  | .okPeers ownPeerAddr order remoteAddr peers =>
    .okPeers ownPeerAddr order (fun id target => opened id (remoteAddr id target)) peers

/-- The connections that `new_peer` adds. Each of them is followed by one post, a `PEER_AUTH`. -/
def added (before after : Node Reference) : Message → Finset Reference
  | .clusterJoin .. | .redirectPeerAuth .. | .okPeers .. => (Finset.Ico before.nextId after.nextId).image .opened
  | _ => ∅

end Message

inductive ClientEvent where
  | accept
  /-- `remove_client`. -/
  | disconnect (client : Reference)
  | message (client : Reference) (message : Message)
  /-- A peer is evicted, or has sent `EXIT` and is closed. -/
  | remove (client : Reference)

namespace ClientServer

def removeClient (s : ClientServer) (client : Reference) : ClientServer :=
  let node := s.node.forgetPeer client
  { s with
    clients := s.clients.erase client
    node := { node with sessions := node.sessions.erase client, closed := node.closed.erase client } }

def step (s : ClientServer) : ClientEvent → Option ClientServer
  | .accept => some { s with clients := insert (.accepted s.accepted) s.clients, accepted := s.accepted + 1 }
  | .disconnect client => if client ∈ s.clients then some (s.removeClient client) else none
  | .message client message =>
    if client ∈ s.clients ∧ client ∉ s.node.closed ∧ (message.isReply = true ↔ client ∈ s.node.sessions) then
      let node := (message.event s.node client).handle s.node
      some { s with clients := s.clients ∪ message.added s.node node, node }
    else none
  | .remove client => if client ∈ s.clients then some { s with node := s.node.removePeer client } else none

/-- Every pointer is to a client of the server. -/
structure References (s : ClientServer) : Prop where
  pending : ∀ id application, s.node.pending.lookup id = some application →
    ∀ client, application.client = some client → client ∈ s.clients
  peers : s.node.peers ⊆ s.clients

/-- Whether a `CLUSTER_JOIN` with this id opens a connection. -/
def joins (node : Node Reference) (id : Str) (remoteAddr : Option Str) : Bool :=
  !node.inCluster && (id.isEmpty || checkClusterIdLength id) && remoteAddr.isSome

/-- No client leaves while an application of it is pending, and no pipe has a `CLUSTER_JOIN` that applies. -/
def Kept (s : ClientServer) : ClientEvent → Prop
  | .disconnect client =>
    ∀ id application, s.node.pending.lookup id = some application → application.client ≠ some client
  | .message _ (.clusterJoin pipe _ _ id remoteAddr) => joins s.node id remoteAddr = true → pipe = none
  | _ => True

end ClientServer

/-! ### Connecting -/

/-- What making connections, each with an application of this client, does to a node. -/
structure Grows (client : Option Reference) (node after : Node Reference) : Prop where
  next : node.nextId ≤ after.nextId
  peers : ∀ c ∈ after.peers, c ∈ node.peers ∨ ∃ id, node.nextId ≤ id ∧ id < after.nextId ∧ c = .opened id
  known : ∀ c ∈ after.peers, c ∈ node.peers ∨ c ∈ after.sessions
  sessions : ∀ c ∈ node.sessions, c ∈ after.sessions
  pending : ∀ id application, after.pending.lookup id = some application →
    node.pending.lookup id = some application ∨ (id < after.nextId ∧ application.client = client)

section
variable {client : Option Reference} {node middle after : Node Reference}

theorem Grows.refl : Grows client node node where
  next := Nat.le_refl _
  peers := fun _ member => .inl member
  known := fun _ member => .inl member
  sessions := fun _ member => member
  pending := fun _ _ found => .inl found

theorem known_trans (first : ∀ c ∈ middle.peers, c ∈ node.peers ∨ c ∈ middle.sessions)
    (sessions : ∀ c ∈ middle.sessions, c ∈ after.sessions)
    (second : ∀ c ∈ after.peers, c ∈ middle.peers ∨ c ∈ after.sessions) :
    ∀ c ∈ after.peers, c ∈ node.peers ∨ c ∈ after.sessions := by
  intro c member
  rcases second c member with old | known
  · rcases first c old with older | known
    · exact .inl older
    · exact .inr (sessions c known)
  · exact .inr known

theorem pending_trans
    (first : ∀ id application, middle.pending.lookup id = some application →
      node.pending.lookup id = some application ∨ (id < middle.nextId ∧ application.client = client))
    (next : middle.nextId ≤ after.nextId)
    (second : ∀ id application, after.pending.lookup id = some application →
      middle.pending.lookup id = some application ∨ (id < after.nextId ∧ application.client = client)) :
    ∀ id application, after.pending.lookup id = some application →
      node.pending.lookup id = some application ∨ (id < after.nextId ∧ application.client = client) := by
  intro id application found
  rcases second id application found with old | new
  · rcases first id application old with older | ⟨small, same⟩
    · exact .inl older
    · exact .inr ⟨Nat.lt_of_lt_of_le small next, same⟩
  · exact .inr new

theorem Grows.trans (first : Grows client node middle) (second : Grows client middle after) : Grows client node after where
  next := Nat.le_trans first.next second.next
  peers := by
    intro c member
    rcases second.peers c member with old | ⟨id, low, high, rfl⟩
    · rcases first.peers c old with older | ⟨id, low, high, rfl⟩
      · exact .inl older
      · exact .inr ⟨id, low, Nat.lt_of_lt_of_le high second.next, rfl⟩
    · exact .inr ⟨id, Nat.le_trans first.next low, high, rfl⟩
  known := known_trans first.known second.sessions second.known
  sessions := fun c member => second.sessions c (first.sessions c member)
  pending := pending_trans first.pending second.next second.pending

theorem grows_peerConnect (addr : Str) (application : Application Reference) :
    Grows application.client node (node.peerConnect ⟨.opened node.nextId, addr⟩ application) where
  next := Nat.le_succ _
  peers := by
    intro c member
    rcases Finset.mem_insert.mp member with rfl | old
    · exact .inr ⟨node.nextId, Nat.le_refl _, Nat.lt_succ_self _, rfl⟩
    · exact .inl old
  known := by
    intro c member
    rcases Finset.mem_insert.mp member with rfl | old
    · exact .inr (Finmap.mem_insert.mpr (.inl rfl))
    · exact .inl old
  sessions := fun c member => Finmap.mem_insert.mpr (.inr member)
  pending := by
    intro id found lookup
    have lookup : (node.pending.insertNew (node.nextId, application)).lookup id = some found := lookup
    unfold Table.insertNew at lookup
    split at lookup
    · exact .inl lookup
    · rw [Table.lookup_insert_eq] at lookup
      split at lookup
      · rename_i same
        obtain rfl := Option.some.inj lookup
        exact .inr ⟨same ▸ Nat.lt_succ_self _, rfl⟩
      · exact .inl lookup

theorem grows_opened {remoteAddr : Option Str} {socket : Node.Socket Reference} (application : Application Reference)
    (made : opened node.nextId remoteAddr = some socket) :
    Grows application.client node (node.peerConnect socket application) := by
  obtain ⟨addr, -, rfl⟩ := Option.map_eq_some_iff.mp made
  exact grows_peerConnect addr application

theorem grows_peerConnectAll (remoteAddr : Nat → Str × UInt16 → Option Str) (application : Application Reference)
    (addresses : List (Str × UInt16)) (node : Node Reference) :
    Grows application.client node
      (Node.peerConnectAll (fun id target => opened id (remoteAddr id target)) application addresses node) := by
  induction addresses generalizing node with
  | nil => exact .refl
  | cons addr rest ih =>
    unfold Node.peerConnectAll
    split
    · exact .refl
    · rename_i socket made
      exact (grows_opened application made).trans (ih _)

end

/-! ### Handlers -/

/-- What a handler does: its peers are old ones or among the fresh clients, and its applications are old ones
or of this client. -/
structure Reacts (client : Option Reference) (fresh : Finset Reference) (node after : Node Reference) : Prop where
  next : node.nextId ≤ after.nextId
  peers : ∀ c ∈ after.peers, c ∈ node.peers ∨ c ∈ fresh
  known : ∀ c ∈ after.peers, c ∈ node.peers ∨ c ∈ after.sessions
  sessions : ∀ c ∈ node.sessions, c ∈ after.sessions
  pending : ∀ id application, after.pending.lookup id = some application →
    node.pending.lookup id = some application ∨ (id < after.nextId ∧ application.client = client)

section
variable {client : Option Reference} {fresh : Finset Reference} {node middle after : Node Reference}

theorem Grows.reacts (grows : Grows client node after) :
    Reacts client ((Finset.Ico node.nextId after.nextId).image .opened) node after where
  next := grows.next
  peers := by
    intro c member
    rcases grows.peers c member with old | ⟨id, low, high, rfl⟩
    · exact .inl old
    · exact .inr (Finset.mem_image_of_mem _ (Finset.mem_Ico.mpr ⟨low, high⟩))
  known := grows.known
  sessions := grows.sessions
  pending := grows.pending

/-- A handler that at most drops peers and applications. -/
theorem reacts_of_drops (next : after.nextId = node.nextId) (peers : after.peers ⊆ node.peers)
    (sessions : after.sessions = node.sessions)
    (pending : ∀ id application, after.pending.lookup id = some application → node.pending.lookup id = some application) :
    Reacts client fresh node after where
  next := next.ge
  peers := fun _ member => .inl (peers member)
  known := fun _ member => .inl (peers member)
  sessions := fun _ member => sessions ▸ member
  pending := fun id application found => .inl (pending id application found)

theorem Reacts.follow (first : Reacts client fresh node middle) (still : middle.nextId = node.nextId)
    (second : Reacts client fresh middle after) : Reacts client fresh node after where
  next := still ▸ second.next
  peers := by
    intro c member
    rcases second.peers c member with old | new
    · exact first.peers c old
    · exact .inr new
  known := known_trans first.known second.sessions second.known
  sessions := fun c member => second.sessions c (first.sessions c member)
  pending := pending_trans first.pending second.next second.pending

theorem reacts_refl : Reacts client fresh node node :=
  reacts_of_drops rfl (Finset.Subset.refl _) rfl fun _ _ found => found

theorem forgetPeer_subset (c : Reference) : (node.forgetPeer c).peers ⊆ node.peers := by
  unfold Node.forgetPeer
  split
  · exact Finset.erase_subset _ _
  · exact Finset.Subset.refl _

theorem removePeer_same (node : Node Reference) (c : Reference) :
    (node.removePeer c).nextId = node.nextId ∧ (node.removePeer c).sessions = node.sessions ∧
      (node.removePeer c).peers ⊆ node.peers := by
  refine ⟨?_, ?_, forgetPeer_subset c⟩
  all_goals
    unfold Node.removePeer Node.forgetPeer
    split <;> rfl

theorem reacts_removePeer (c : Reference) : Reacts client fresh node (node.removePeer c) := by
  obtain ⟨next, sessions, peers⟩ := removePeer_same node c
  refine reacts_of_drops next peers sessions fun id application found => ?_
  rwa [removePeer_pending] at found

theorem lookup_pop {id other : Nat} {application : Application Reference}
    (found : (node.popAuthApplication id).2.pending.lookup other = some application) :
    node.pending.lookup other = some application := by
  have found : (node.pending.erase id).lookup other = some application := found
  rw [Table.lookup_erase_eq] at found
  split at found
  · cases found
  · exact found

theorem reacts_pop (id : Nat) : Reacts client fresh node (node.popAuthApplication id).2 :=
  reacts_of_drops rfl (Finset.Subset.refl _) rfl fun _ _ => lookup_pop

theorem reacts_clear (key id : Option Str) (peers : Finset Reference) (closed : Finset Reference)
    (fewer : peers ⊆ node.peers) :
    Reacts client fresh node { node with clusterKey := key, clusterId := id, pending := ∅, peers, closed } := by
  refine reacts_of_drops rfl fewer rfl fun other application found => ?_
  have found : (∅ : Table Nat (Application Reference)).lookup other = some application := found
  rw [Finmap.lookup_empty] at found
  cases found

theorem reacts_clusterNew (random key id : Str) : Reacts client fresh node (node.requestClusterNew random key id) := by
  unfold Node.requestClusterNew
  split
  · exact reacts_refl
  · split
    · exact reacts_refl
    · split
      · exact reacts_refl
      · exact reacts_clear _ _ _ _ (Finset.Subset.refl _)

theorem reacts_clusterLeave : Reacts client fresh node node.requestClusterLeave := by
  unfold Node.requestClusterLeave
  split
  · exact reacts_refl
  · exact reacts_clear _ _ _ _ (Finset.empty_subset _)

theorem reacts_peerAuth (c : Reference) (onClusterPort : Bool) (ownPeerAddr key addr peerId : Str) :
    Reacts client {c} node (node.requestPeerAuth c onClusterPort ownPeerAddr key addr peerId).1 := by
  have closes : Reacts client {c} node { node with closed := insert c node.closed } :=
    reacts_of_drops rfl (Finset.Subset.refl _) rfl fun _ _ found => found
  unfold Node.requestPeerAuth
  split
  · exact closes
  · split
    · exact closes
    · split
      · exact closes
      · refine ⟨Nat.le_refl _, ?_, ?_, fun _ member => Finmap.mem_insert.mpr (.inr member), fun _ _ found => .inl found⟩
        · intro other member
          rcases Finset.mem_insert.mp member with rfl | old
          · exact .inr (Finset.mem_singleton_self _)
          · exact .inl old
        · intro other member
          rcases Finset.mem_insert.mp member with rfl | old
          · exact .inr (Finmap.mem_insert.mpr (.inl rfl))
          · exact .inl old

theorem reacts_recordId (random : Str) (c : Reference) (session : PeerData) (data : Str)
    (application : Application Reference) :
    Reacts client fresh node (node.recordId random c session data application) := by
  unfold Node.recordId
  refine ⟨?_, ?_, ?_, ?_, ?_⟩
  all_goals dsimp only; split
  · exact Nat.le_succ _
  · exact Nat.le_succ _
  · exact fun _ member => .inl member
  · exact fun _ member => .inl member
  · exact fun _ member => .inl member
  · exact fun _ member => .inl member
  · exact fun _ member => Finmap.mem_insert.mpr (.inr member)
  · exact fun _ member => Finmap.mem_insert.mpr (.inr member)
  · exact fun _ _ found => .inl found
  · intro id other found
    have found : (∅ : Table Nat (Application Reference)).lookup id = some other := found
    rw [Finmap.lookup_empty] at found
    cases found

theorem reacts_okPeerAuth (random : Str) (c : Reference) (id : Nat) (data : Str) :
    Reacts client fresh node (node.replyRequestPeerAuth random c id data) := by
  unfold Node.replyRequestPeerAuth
  split
  · exact reacts_removePeer c
  · rename_i application popped same
    obtain rfl : (node.popAuthApplication id).2 = popped := congrArg Prod.snd same
    split
    · exact reacts_pop id
    · exact (reacts_pop id).follow rfl (reacts_recordId random c _ data application)

theorem reacts_removePop (c : Reference) (id : Nat) : Reacts client fresh node ((node.removePeer c).popAuthApplication id).2 :=
  (reacts_removePeer c).follow (removePeer_same _ c).1 (reacts_pop id)

/-- The application that is redirected is the one that was popped. -/
theorem reacts_redirectPeerAuth (c : Reference) (id : Nat) (addr : Str) (remoteAddr : Str × UInt16 → Option Str)
    (replied : after =
      node.replyRedirectRequestPeerAuth c id addr fun target => opened node.nextId (remoteAddr target)) :
    Reacts ((node.pending.lookup id).bind (·.client)) ((Finset.Ico node.nextId after.nextId).image .opened) node after := by
  subst replied
  unfold Node.replyRedirectRequestPeerAuth
  have dropped : ∀ {pointer fresh}, Reacts pointer fresh node ((node.removePeer c).popAuthApplication id).2 :=
    reacts_removePop c id
  have still : ((node.removePeer c).popAuthApplication id).2.nextId = node.nextId := (removePeer_same _ c).1
  split
  · rename_i popped same
    obtain rfl : ((node.removePeer c).popAuthApplication id).2 = popped := congrArg Prod.snd same
    exact dropped
  · rename_i application popped same
    obtain rfl : ((node.removePeer c).popAuthApplication id).2 = popped := congrArg Prod.snd same
    have found : node.pending.lookup id = some application := by
      have found := congrArg Prod.fst same
      rwa [Node.popAuthApplication, removePeer_pending] at found
    rw [found]
    split
    · exact dropped
    · split
      · exact dropped
      · rename_i socket made
        rw [← still] at made ⊢
        exact dropped.follow still (grows_opened application made).reacts

theorem reacts_okPeers (ownPeerAddr : Str) (order : Order Str) (remoteAddr : Nat → Str × UInt16 → Option Str)
    (peers : Finset Str)
    (replied : after =
      node.replyRequestPeers ownPeerAddr order (fun id target => opened id (remoteAddr id target)) peers) :
    Reacts none ((Finset.Ico node.nextId after.nextId).image .opened) node after := by
  subst replied
  unfold Node.replyRequestPeers
  split
  · split
    · exact reacts_refl
    · rename_i addresses _
      exact (grows_peerConnectAll remoteAddr ⟨_, _, none⟩ addresses node).reacts
  · exact reacts_refl

/-- Whether a `CLUSTER_JOIN` applies, and what it does if so. -/
theorem requestClusterJoin_cases (random key id : Str) (remoteAddr : Option Str) (c : Reference)
    (handled : after = node.requestClusterJoin random key id (opened node.nextId remoteAddr) c) :
    (ClientServer.joins node id remoteAddr = false ∧ after = node) ∨
      (ClientServer.joins node id remoteAddr = true ∧ ∃ addr application, application.client = some c ∧
        after = node.peerConnect ⟨.opened node.nextId, addr⟩ application) := by
  subst handled
  unfold Node.requestClusterJoin ClientServer.joins
  by_cases inside : node.inCluster = true
  · left
    simp [inside]
  · rw [if_neg inside]
    by_cases short : (!id.isEmpty && !checkClusterIdLength id) = true
    · left
      rw [if_pos short]
      simp only [Bool.and_eq_true, Bool.not_eq_true'] at short
      simp [short.1, short.2]
    · rw [if_neg short]
      have long : (id.isEmpty || checkClusterIdLength id) = true := by
        simp only [Bool.and_eq_true, Bool.not_eq_true', not_and, Bool.not_eq_false] at short
        cases empty : id.isEmpty with
        | true => rfl
        | false => exact short empty
      cases remoteAddr with
      | none => exact .inl ⟨by simp, rfl⟩
      | some addr => exact .inr ⟨by simp [inside, long], addr, _, rfl, rfl⟩

end

/-! ### Runs -/

namespace ClientServer

variable {s t : ClientServer}

structure Held (s : ClientServer) : Prop where
  posted : ∀ id application, s.node.pending.lookup id = some application → id < s.node.nextId
  real : ∀ number, .piped number ∉ s.clients
  sessions : ∀ c ∈ s.node.peers, c ∈ s.node.sessions
  peers : s.node.peers ⊆ s.clients

/-- What a message does, and whom the application is of that it may leave behind. -/
theorem message_reacts {client : Reference} {message : Message} (there : client ∈ s.clients) {after : Node Reference}
    (handled : after = (message.event s.node client).handle s.node) :
    ∃ pointer fresh, Reacts pointer fresh s.node after ∧ fresh ⊆ s.clients ∪ message.added s.node after ∧
      (References s → Kept s (.message client message) → ∀ c, pointer = some c → c ∈ s.clients) := by
  cases message with
  | clusterNew random key id =>
    subst handled
    exact ⟨none, ∅, reacts_clusterNew random key id, Finset.empty_subset _, fun _ _ c none_ => by cases none_⟩
  | clusterJoin pipe random key id remoteAddr =>
    rcases requestClusterJoin_cases random key id remoteAddr _ handled with ⟨-, rfl⟩ | ⟨joins, addr, application, own, connects⟩
    · exact ⟨none, ∅, reacts_refl, Finset.empty_subset _, fun _ _ c none_ => by cases none_⟩
    · have grows : Grows application.client s.node _ := grows_peerConnect addr application
      rw [← connects] at grows
      refine ⟨application.client, _, grows.reacts, Finset.subset_union_right, fun _ kept c same => ?_⟩
      obtain rfl := kept joins
      rw [own] at same
      obtain rfl := Option.some.inj same
      exact there
  | clusterLeave =>
    subst handled
    exact ⟨none, ∅, reacts_clusterLeave, Finset.empty_subset _, fun _ _ c none_ => by cases none_⟩
  | peerAuth onClusterPort ownPeerAddr key addr peerId =>
    subst handled
    refine ⟨none, {client}, reacts_peerAuth client onClusterPort ownPeerAddr key addr peerId, ?_, fun _ _ c none_ => by cases none_⟩
    exact Finset.singleton_subset_iff.mpr (Finset.mem_union_left _ there)
  | okPeerAuth random id data =>
    subst handled
    exact ⟨none, ∅, reacts_okPeerAuth random client id data, Finset.empty_subset _, fun _ _ c none_ => by cases none_⟩
  | deniedPeerAuth id =>
    subst handled
    exact ⟨none, ∅, reacts_removePop client id, Finset.empty_subset _, fun _ _ c none_ => by cases none_⟩
  | redirectPeerAuth id addr remoteAddr =>
    refine ⟨_, _, reacts_redirectPeerAuth client id addr remoteAddr handled, Finset.subset_union_right, ?_⟩
    intro references _ c same
    obtain ⟨application, found, own⟩ := Option.bind_eq_some_iff.mp same
    exact references.pending id application found c own
  | okPeers ownPeerAddr order remoteAddr peers =>
    exact ⟨none, _, reacts_okPeers ownPeerAddr order remoteAddr peers handled, Finset.subset_union_right,
      fun _ _ c none_ => by cases none_⟩

theorem message_step {client : Reference} {message : Message} (taken : step s (.message client message) = some t) :
    client ∈ s.clients ∧ t.node = (message.event s.node client).handle s.node ∧
      t.clients = s.clients ∪ message.added s.node t.node := by
  rw [step] at taken
  split at taken
  · rename_i enabled
    obtain rfl := Option.some.inj taken
    exact ⟨enabled.1, rfl, rfl⟩
  · cases taken

theorem removeClient_peers (held : Held s) (client : Reference) :
    (s.removeClient client).node.peers = s.node.peers.erase client := by
  change (s.node.forgetPeer client).peers = _
  unfold Node.forgetPeer
  split
  · rfl
  · rename_i unknown
    exact (Finset.erase_eq_of_notMem fun peer => unknown (held.sessions client peer)).symm

theorem forgetPeer_same (node : Node Reference) (client : Reference) :
    (node.forgetPeer client).pending = node.pending ∧ (node.forgetPeer client).nextId = node.nextId ∧
      (node.forgetPeer client).sessions = node.sessions := by
  unfold Node.forgetPeer
  split <;> exact ⟨rfl, rfl, rfl⟩

theorem removeClient_pending (client : Reference) : (s.removeClient client).node.pending = s.node.pending :=
  (forgetPeer_same s.node client).1

theorem added_real {message : Message} {node after : Node Reference} (number : Nat) :
    .piped number ∉ message.added node after := by
  unfold Message.added
  split
  all_goals simp

theorem Held.step (s : ClientServer) (event : ClientEvent) (t : ClientServer) (held : Held s)
    (taken : step s event = some t) : Held t := by
  cases event with
  | accept =>
    obtain rfl := Option.some.inj taken
    refine ⟨held.posted, fun number member => ?_, held.sessions, fun c peer => Finset.mem_insert_of_mem (held.peers peer)⟩
    rcases Finset.mem_insert.mp member with same | old
    · cases same
    · exact held.real number old
  | disconnect client =>
    rw [ClientServer.step] at taken
    split at taken
    · obtain rfl := Option.some.inj taken
      refine ⟨fun id application found => ?_, fun number member => held.real number (Finset.mem_of_mem_erase member),
        fun c peer => ?_, fun c peer => ?_⟩
      · rw [removeClient_pending] at found
        change id < (s.node.forgetPeer client).nextId
        rw [(forgetPeer_same s.node client).2.1]
        exact held.posted id application found
      · rw [removeClient_peers held] at peer
        obtain ⟨other, peer⟩ := Finset.mem_erase.mp peer
        change c ∈ (s.node.forgetPeer client).sessions.erase client
        rw [(forgetPeer_same s.node client).2.2]
        exact Finmap.mem_erase.mpr ⟨other, held.sessions c peer⟩
      · rw [removeClient_peers held] at peer
        obtain ⟨other, peer⟩ := Finset.mem_erase.mp peer
        exact Finset.mem_erase.mpr ⟨other, held.peers peer⟩
    · cases taken
  | message client message =>
    obtain ⟨there, handled, clients⟩ := message_step taken
    obtain ⟨pointer, fresh, reacts, listed, -⟩ := message_reacts there handled
    refine ⟨fun id application found => ?_, fun number member => ?_, fun c peer => ?_, fun c peer => ?_⟩
    · rcases reacts.pending id application found with old | ⟨small, -⟩
      · exact Nat.lt_of_lt_of_le (held.posted id application old) reacts.next
      · exact small
    · rw [clients] at member
      rcases Finset.mem_union.mp member with old | new
      · exact held.real number old
      · exact added_real number new
    · rcases reacts.known c peer with old | known
      · exact reacts.sessions c (held.sessions c old)
      · exact known
    · rw [clients]
      rcases reacts.peers c peer with old | new
      · exact Finset.mem_union_left _ (held.peers old)
      · exact listed new
  | remove client =>
    rw [ClientServer.step] at taken
    split at taken
    · obtain rfl := Option.some.inj taken
      obtain ⟨next, sessions, fewer⟩ := removePeer_same s.node client
      refine ⟨fun id application found => ?_, held.real, fun c peer => ?_, fun c peer => held.peers (fewer peer)⟩
      · dsimp only at found ⊢
        rw [removePeer_pending] at found
        rw [next]
        exact held.posted id application found
      · dsimp only
        rw [sessions]
        exact held.sessions c (fewer peer)
    · cases taken

/-- The application that a `CLUSTER_JOIN` leaves behind. -/
theorem joined_pending (held : Held s) {addr : Str} (application : Application Reference) :
    (s.node.peerConnect ⟨.opened s.node.nextId, addr⟩ application).pending.lookup s.node.nextId = some application := by
  change (s.node.pending.insertNew (s.node.nextId, application)).lookup s.node.nextId = _
  have free : s.node.nextId ∉ s.node.pending := by
    intro taken
    obtain ⟨other, found⟩ := Finmap.mem_iff.mp taken
    exact absurd (held.posted _ other found) (Nat.lt_irrefl _)
  unfold Table.insertNew
  rw [if_neg free, Table.lookup_insert_eq, if_pos rfl]

theorem step_references {event : ClientEvent} (held : Held s) (references : References s) (taken : step s event = some t) :
    References t ↔ Kept s event := by
  have heldNext := held.step s event t taken
  cases event with
  | accept =>
    obtain rfl := Option.some.inj taken
    refine iff_of_true ⟨fun id application found c own => ?_, heldNext.peers⟩ trivial
    exact Finset.mem_insert_of_mem (references.pending id application found c own)
  | disconnect client =>
    rw [step] at taken
    split at taken
    · obtain rfl := Option.some.inj taken
      constructor
      · intro after id application found own
        rw [← removeClient_pending client] at found
        exact Finset.notMem_erase client s.clients (after.pending id application found client own)
      · intro kept
        refine ⟨fun id application found c own => ?_, heldNext.peers⟩
        rw [removeClient_pending] at found
        have other : c ≠ client := by
          rintro rfl
          exact kept id application found own
        exact Finset.mem_erase.mpr ⟨other, references.pending id application found c own⟩
    · cases taken
  | message client message =>
    obtain ⟨there, handled, clients⟩ := message_step taken
    constructor
    · intro after
      cases message with
      | clusterJoin pipe random key id remoteAddr =>
        intro joined
        rcases requestClusterJoin_cases random key id remoteAddr _ handled with ⟨not_, -⟩ | ⟨-, addr, application, own, connects⟩
        · rw [joined] at not_
          cases not_
        · have found : t.node.pending.lookup s.node.nextId = some application := by
            rw [connects]
            exact joined_pending held application
          cases pipe with
          | none => rfl
          | some number => exact absurd (after.pending _ application found _ own) (heldNext.real number)
      | _ => trivial
    · intro kept
      obtain ⟨pointer, fresh, reacts, -, whose⟩ := message_reacts there handled
      refine ⟨fun id application found c own => ?_, heldNext.peers⟩
      rw [clients]
      apply Finset.mem_union_left
      rcases reacts.pending id application found with old | ⟨-, same⟩
      · exact references.pending id application old c own
      · exact whose references kept c (same ▸ own)
  | remove client =>
    rw [step] at taken
    split at taken
    · obtain rfl := Option.some.inj taken
      refine iff_of_true ⟨fun id application found c own => ?_, heldNext.peers⟩ trivial
      dsimp only at found
      rw [removePeer_pending] at found
      exact references.pending id application found c own
    · cases taken

/-- In a run every pointer stays one to a client of the server if and only if no client leaves with an
application pending and no `CLUSTER_JOIN` in a pipe opens a connection. -/
theorem references_live_iff (events : List ClientEvent) :
    EachState step References events {} ↔ EachStep step Kept events {} := by
  have held : Held {} :=
    ⟨fun id application found => (by cases found), fun number member => absurd member (Finset.notMem_empty _),
      fun c peer => absurd peer (Finset.notMem_empty _), Finset.empty_subset _⟩
  have references : References {} := ⟨fun id application found => (by cases found), Finset.empty_subset _⟩
  exact eachState_iff Held.step (fun s event t held references taken => step_references held references taken) held references

def join (pipe : Option Nat) : Message :=
  .clusterJoin pipe (ascii "a random id text") (ascii "the-cluster-key") [] (some (ascii "127.0.0.1:9952"))

/-- A client asks to join a cluster and leaves, and a client asks so in a pipe. -/
theorem applicant_leaves :
    ¬EachState step References [.accept, .message (.accepted 0) (join none), .disconnect (.accepted 0)] {} ∧
      ¬EachState step References [.accept, .message (.accepted 0) (join (some 0))] {} := by
  constructor
  · intro each
    have last : References _ := ((each.2 _ rfl).2 _ rfl).2 _ rfl
    exact absurd (last.pending 0 _ rfl (.accepted 0) rfl) (by decide)
  · intro each
    have last : References _ := (each.2 _ rfl).2 _ rfl
    exact absurd (last.pending 0 _ rfl (.piped 0) rfl) (by decide)

end ClientServer

end Vanity.Cluster
