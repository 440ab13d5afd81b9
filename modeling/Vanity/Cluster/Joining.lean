import Vanity.Cluster.Membership
import Vanity.Cluster.Mesh

/-!
# Nodes that join

Nodes of `Cluster.Membership` with the connections between them. One of them creates a cluster and the others
join it. A node is named by the address of its cluster port, which its peers know it by, and all connections
go to cluster ports. What is sent on a connection arrives in order; a handler is called with one message at a
time. A reply is taken as one to the post that it answers, as it was shown to be read.
-/

namespace Vanity.Cluster

open Db (Str)
open Request

structure Address where
  host : Str
  port : UInt16
  valid : port ≠ 0
  deriving DecidableEq

/-- `own_peer_addr`. -/
def Address.text (addr : Address) : Str := makeAddress addr.host addr.port

/-- A client of a node: one that sends requests, or the node's end of a connection. -/
inductive TcpClient where
  | user (i : Nat)
  | opened (i : Nat)
  | accepted (i : Nat)
  deriving DecidableEq

/-- A message to the node that a connection was opened to. -/
inductive Posted where
  | peerAuth (id : Nat) (key addr peerId : Str)
  | peers (id : Nat)

structure Connection where
  opener : Address
  target : Address
  toTarget : List Posted
  toOpener : List (Nat × Reply)

structure Network where
  node : Address → Node TcpClient := fun _ => {}
  connections : List Connection := []
  /-- The nodes whose `CLUSTER_JOIN` was not refused. -/
  started : Finset Address := ∅

namespace Network

variable (net : Network)

def setNode (x : Address) (node : Node TcpClient) : Network := { net with node := Function.update net.node x node }

def setConnection (i : Nat) (connection : Connection) : Network :=
  { net with connections := net.connections.set i connection }

/-! ### Handlers, with what they send -/

def peerConnect (x target : Address) (application : Application TcpClient) : Network :=
  let node := net.node x
  let opened := net.setNode x (node.peerConnect ⟨.opened net.connections.length, target.text⟩ application)
  { opened with
    connections := net.connections ++
      [⟨x, target, [.peerAuth node.nextId application.key x.text application.ownId], []⟩] }

def peerConnectAll (x : Address) (application : Application TcpClient) : List (Str × UInt16) → Network → Network
  | [], net => net
  | (host, port) :: rest, net =>
    if valid : port ≠ 0 then peerConnectAll x application rest (net.peerConnect x ⟨host, port, valid⟩ application)
    else net

def requestClusterJoin (key : Str) (x target : Address) (random id : Str) (user : Nat) : Network :=
  if (net.node x).inCluster then net
  else if !id.isEmpty && !checkClusterIdLength id then net
  else
    let ownId := if id.isEmpty then random else id
    { net with started := insert x net.started }.peerConnect x target ⟨key, ownId, some (.user user)⟩

def requestPeerAuth (i : Nat) (connection : Connection) (id : Nat) (key addr peerId : Str) : Network :=
  let x := connection.target
  let (node, reply) := (net.node x).requestPeerAuth (.accepted i) true x.text key addr peerId
  (net.setNode x node).setConnection i { connection with toOpener := connection.toOpener ++ [(id, reply)] }

def postRequestPeers (i : Nat) (connection : Connection) (id : Nat) : Network :=
  let reply := Reply.okPeers (net.node connection.target).peerAddresses
  net.setConnection i { connection with toOpener := connection.toOpener ++ [(id, reply)] }

def replyRequestPeerAuth (i : Nat) (connection : Connection) (random : Str) (id : Nat) (data : Str) : Network :=
  let x := connection.opener
  let node := net.node x
  let replied := net.setNode x (node.replyRequestPeerAuth random (.opened i) id data)
  -- `peer_sync`, unless the application is gone
  if (node.pending.lookup id).isSome && decide (.opened i ∈ node.sessions) then
    replied.setConnection i { connection with toTarget := connection.toTarget ++ [.peers node.nextId] }
  else replied.setConnection i connection

def replyDeniedRequestPeerAuth (i : Nat) (connection : Connection) (id : Nat) : Network :=
  let x := connection.opener
  (net.setNode x ((net.node x).replyDeniedRequestPeerAuth (.opened i) id)).setConnection i connection

def replyRequestPeers (x : Address) (order : Order Str) (peers : Finset Str) : Network :=
  let node := net.node x
  match node.clusterKey, node.clusterId with
  | some key, some id =>
    match (order.list (node.unknownPeersIn x.text peers)).mapM unmakeAddress with
    | none => net
    | some addresses => peerConnectAll x ⟨key, id, none⟩ addresses net
  | _, _ => net

def handlePost (i : Nat) : Option Network :=
  (net.connections[i]?).bind fun connection =>
    match connection.toTarget with
    | [] => none
    | .peerAuth id key addr peerId :: rest =>
      some (net.requestPeerAuth i { connection with toTarget := rest } id key addr peerId)
    | .peers id :: rest => some (net.postRequestPeers i { connection with toTarget := rest } id)

def handleReply (i : Nat) (random : Str) (order : Order Str) : Option Network :=
  (net.connections[i]?).bind fun connection =>
    match connection.toOpener with
    | [] => none
    | (id, reply) :: rest =>
      let connection := { connection with toOpener := rest }
      match reply with
      | .okPeerAuth data => some (net.replyRequestPeerAuth i connection random id data)
      | .denied .peerAuth => some (net.replyDeniedRequestPeerAuth i connection id)
      | .okPeers peers => some ((net.setConnection i connection).replyRequestPeers connection.opener order peers)
      -- an application on a cluster port is not redirected, and nothing else is posted
      | _ => some (net.setConnection i connection)

end Network

inductive Action where
  | clusterNew (random id : Str)
  | clusterJoin (x target : Address) (random id : Str) (user : Nat)
  | handlePost (i : Nat)
  | handleReply (i : Nat) (random : Str) (order : Order Str)

def Network.step (founder : Address) (key : Str) (net : Network) : Action → Option Network
  | .clusterNew random id => some (net.setNode founder ((net.node founder).requestClusterNew random key id))
  | .clusterJoin x target random id user =>
    if x = founder ∨ x ∈ net.started then none else some (net.requestClusterJoin key x target random id user)
  | .handlePost i => net.handlePost i
  | .handleReply i random order => net.handleReply i random order

namespace Network

variable (net : Network)

/-- No message is in flight. -/
def Quiet : Prop := ∀ connection ∈ net.connections, connection.toTarget = [] ∧ connection.toOpener = []

/-- In a quiet network the peers of each node with a key are all other nodes with a key. -/
def Converged : Prop :=
  net.Quiet → ∀ x, (net.node x).inCluster = true →
    ∀ addr, addr ∈ (net.node x).peerAddresses ↔ ∃ y, y ≠ x ∧ (net.node y).inCluster = true ∧ addr = y.text

end Network

/-! ### The nodes are those of `Cluster.Membership` -/

variable {net after : Network} {x : Address} {node : Node TcpClient} {i : Nat} {connection : Connection}

@[simp] theorem setNode_self : (net.setNode x node).node x = node := Function.update_self ..

theorem setNode_other {y : Address} (different : y ≠ x) : (net.setNode x node).node y = net.node y :=
  Function.update_of_ne different ..

@[simp] theorem setNode_connections : (net.setNode x node).connections = net.connections := rfl

@[simp] theorem setNode_started : (net.setNode x node).started = net.started := rfl

@[simp] theorem setNode_same : net.setNode x (net.node x) = net := by
  simp [Network.setNode]

@[simp] theorem setConnection_node : (net.setConnection i connection).node = net.node := rfl

@[simp] theorem setConnection_started : (net.setConnection i connection).started = net.started := rfl

/-- What holds of a node that is changed, and of any other as it is, holds of all. -/
theorem setNode_forall {P : Address → Node TcpClient → Prop} (here : P x node) (others : ∀ y, P y (net.node y))
    (y : Address) : P y ((net.setNode x node).node y) := by
  by_cases same : y = x
  · subst same
    rw [setNode_self]
    exact here
  · rw [setNode_other same]
    exact others y

/-- The connections that a node makes, by the ids of what it posts on them. -/
def Network.connect (net : Network) (x : Address) (id : Nat) (addr : Str × UInt16) : Option (Node.Socket TcpClient) :=
  if addr.2 ≠ 0 then some ⟨.opened (id + net.connections.length - (net.node x).nextId), makeAddress addr.1 addr.2⟩ else none

theorem connect_peerConnect (target : Address) (application : Application TcpClient) :
    (net.peerConnect x target application).connect x = net.connect x := by
  have connected : (net.peerConnect x target application).node x =
      (net.node x).peerConnect ⟨.opened net.connections.length, target.text⟩ application := setNode_self
  have count : (net.peerConnect x target application).connections.length = net.connections.length + 1 := by
    simp [Network.peerConnect]
  have posted : ((net.node x).peerConnect ⟨.opened net.connections.length, target.text⟩ application).nextId =
      (net.node x).nextId + 1 := rfl
  funext id addr
  simp only [Network.connect, connected, count, posted, ← Nat.add_assoc, Nat.add_sub_add_right]

theorem peerConnectAll_node (application : Application TcpClient) (addresses : List (Str × UInt16)) (net : Network) :
    (Network.peerConnectAll x application addresses net).node x =
      Node.peerConnectAll (net.connect x) application addresses (net.node x) := by
  induction addresses generalizing net with
  | nil => rfl
  | cons addr rest ih =>
    obtain ⟨host, port⟩ := addr
    unfold Network.peerConnectAll Node.peerConnectAll
    by_cases valid : port ≠ 0
    · have made : net.connect x (net.node x).nextId (host, port) =
          some ⟨.opened net.connections.length, makeAddress host port⟩ := by
        simp [Network.connect, valid]
      have connected : (net.peerConnect x ⟨host, port, valid⟩ application).node x =
          (net.node x).peerConnect ⟨.opened net.connections.length, makeAddress host port⟩ application := setNode_self
      rw [dif_pos valid, made, ih, connect_peerConnect, connected]
    · have failed : net.connect x (net.node x).nextId (host, port) = none := if_neg valid
      rw [dif_neg valid, failed]

theorem peerConnectAll_other {y : Address} (different : y ≠ x) (application : Application TcpClient)
    (addresses : List (Str × UInt16)) (net : Network) :
    (Network.peerConnectAll x application addresses net).node y = net.node y := by
  induction addresses generalizing net with
  | nil => rfl
  | cons addr rest ih =>
    unfold Network.peerConnectAll
    split
    · rw [ih]
      exact setNode_other different
    · rfl

theorem replyRequestPeers_node (order : Order Str) (peers : Finset Str) (net : Network) :
    (net.replyRequestPeers x order peers).node x =
      (net.node x).replyRequestPeers x.text order (net.connect x) peers := by
  cases key : (net.node x).clusterKey with
  | none => simp only [Network.replyRequestPeers, Node.replyRequestPeers, key]
  | some key =>
    cases id : (net.node x).clusterId with
    | none => simp only [Network.replyRequestPeers, Node.replyRequestPeers, key, id]
    | some id =>
      cases addresses : (order.list ((net.node x).unknownPeersIn x.text peers)).mapM unmakeAddress with
      | none => simp only [Network.replyRequestPeers, Node.replyRequestPeers, key, id, addresses]
      | some addresses =>
        simp only [Network.replyRequestPeers, Node.replyRequestPeers, key, id, addresses]
        exact peerConnectAll_node ..

theorem replyRequestPeers_other {y : Address} (different : y ≠ x) (order : Order Str) (peers : Finset Str)
    (net : Network) : (net.replyRequestPeers x order peers).node y = net.node y := by
  unfold Network.replyRequestPeers
  dsimp only
  split
  · split
    · rfl
    · exact peerConnectAll_other different ..
  · rfl

/-- One node is changed by a handler. -/
theorem node_of_event (event : Event TcpClient) (x : Address)
    (handled : after.node = (net.setNode x (event.handle (net.node x))).node) (y : Address) :
    after.node y = net.node y ∨ ∃ event, after.node y = Event.handle (net.node y) event := by
  rw [handled]
  by_cases same : y = x
  · subst same
    exact .inr ⟨event, setNode_self⟩
  · exact .inl (setNode_other same)

/-- What a step of the network does to a node is what a handler does to it. -/
theorem step_node {founder : Address} {key : Str} (action : Action) (taken : net.step founder key action = some after)
    (y : Address) : after.node y = net.node y ∨ ∃ event, after.node y = Event.handle (net.node y) event := by
  cases action with
  | clusterNew random id =>
    cases taken
    exact node_of_event (.clusterNew random key id) founder (by rfl) y
  | clusterJoin x target random id user =>
    simp only [Network.step, Network.requestClusterJoin] at taken
    split at taken
    · cases taken
    · split at taken
      · cases taken
        exact .inl rfl
      · rename_i outside
        split at taken
        · cases taken
          exact .inl rfl
        · rename_i valid
          cases taken
          refine node_of_event (.clusterJoin random key id (some ⟨.opened net.connections.length, target.text⟩) (.user user))
            x ?_ y
          simp only [Event.handle, Node.requestClusterJoin, outside, valid]
          rfl
  | handlePost i =>
    obtain ⟨connection, there, taken⟩ := Option.bind_eq_some_iff.mp taken
    split at taken
    · cases taken
    · rename_i id key addr peerId rest _
      cases taken
      exact node_of_event (.peerAuth (.accepted i) true connection.target.text key addr peerId) connection.target (by rfl) y
    · cases taken
      exact .inl rfl
  | handleReply i random order =>
    obtain ⟨connection, there, taken⟩ := Option.bind_eq_some_iff.mp taken
    split at taken
    · cases taken
    · rename_i id reply rest _
      dsimp only at taken
      split at taken
      · rename_i data _
        cases taken
        refine node_of_event (.okPeerAuth random (.opened i) id data) connection.opener ?_ y
        unfold Network.replyRequestPeerAuth
        dsimp only
        split <;> rfl
      · cases taken
        exact node_of_event (.deniedPeerAuth (.opened i) id) connection.opener (by rfl) y
      · rename_i peers _
        cases taken
        by_cases same : y = connection.opener
        · subst same
          exact .inr ⟨.okPeers _ order _ peers, replyRequestPeers_node ..⟩
        · exact .inl (replyRequestPeers_other same order peers _)
      · cases taken
        exact .inl rfl

/-! ### The mesh -/

/-- The stage of a connection, whose opener may still count the target as a peer. -/
def Connection.stage (connection : Connection) (kept : Bool) : Stage Str :=
  match connection.toTarget, connection.toOpener with
  | .peerAuth .. :: _, _ => .applied
  | .peers _ :: _, _ => .asking
  | [], (_, .denied _) :: _ => .denied
  | [], (_, .okPeerAuth _) :: _ => .admitted
  | [], (_, .okPeers peers) :: _ => .told peers
  | [], _ => if kept then .settled else .gone

namespace Network

variable (net : Network)

def kept (i : Nat) (connection : Connection) : Bool := decide (.opened i ∈ (net.node connection.opener).peers)

def link (i : Nat) (connection : Connection) : Link Str :=
  ⟨connection.opener.text, connection.target.text, connection.stage (net.kept i connection)⟩

def members (founder : Address) : Finset Address :=
  (insert founder net.started).filter fun x => (net.node x).inCluster = true

def mesh (founder : Address) : Mesh Str where
  members := (net.members founder).image Address.text
  started := net.started.image Address.text
  links := net.connections.mapIdx net.link

def Passes (founder : Address) (net : Network) : Action → Prop
  | .handlePost i | .handleReply i _ _ => (net.mesh founder).Passes founder.text i
  | _ => True

instance (founder : Address) (net : Network) : (action : Action) → Decidable (net.Passes founder action)
  | .handlePost i | .handleReply i _ _ => inferInstanceAs (Decidable ((net.mesh founder).Passes founder.text i))
  | .clusterNew .. | .clusterJoin .. => inferInstanceAs (Decidable True)

instance : Decidable net.Quiet :=
  inferInstanceAs (Decidable (∀ connection ∈ net.connections, connection.toTarget = [] ∧ connection.toOpener = []))

end Network

end Vanity.Cluster
