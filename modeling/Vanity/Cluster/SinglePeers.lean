import Vanity.Cluster.Convergence

/-!
# One connection for each peer

Nodes create clusters and join them in any order and as often as they like, through cluster ports and
client ports of any nodes. `Single` says that no two peers of a node are the same node, nor one of them
the node itself; `Fresh` is what this takes of each connection that is registered.
-/

namespace Vanity.Cluster

open Db (Str)
open Request

/-! ### The peers of a node -/

namespace Node

/-- The address in the session of a client. -/
def address (node : Node TcpClient) (client : TcpClient) : Option Str := (node.sessions.lookup client).map PeerData.addr

/-- What counts as a peer in `post_ask_evict_all` is a node, and another one than this. -/
structure Single (node : Node TcpClient) (own : Str) : Prop where
  apart : ∀ a ∈ node.peers, ∀ b ∈ node.peers, node.address a = node.address b → a = b
  other : own ∉ node.peerAddresses
  counted : node.peers.card = node.peerAddresses.card

/-- The address of a client that is about to be registered is that of no other peer, nor the own. -/
def Takes (node : Node TcpClient) (own : Str) (client : TcpClient) (addr : Str) : Prop :=
  addr ≠ own ∧ ∀ other ∈ node.peers, other ≠ client → node.address other ≠ some addr

structure Named (node : Node TcpClient) : Prop where
  known : ∀ c ∈ node.peers, node.address c ≠ none
  addresses : ∀ c addr, node.address c = some addr → ∃ y : Address, addr = y.text

/-- The node has the peers that it had or fewer, with their addresses. -/
structure Sheds (node after : Node TcpClient) : Prop where
  peers : after.peers ⊆ node.peers
  kept : ∀ c ∈ after.peers, after.address c = node.address c
  old : ∀ c addr, after.address c = some addr → node.address c = some addr

end Node

section
variable {node after : Node TcpClient} {own addr : Str} {client : TcpClient}

theorem single_of_apart (known : ∀ c ∈ node.peers, node.address c ≠ none)
    (apart : ∀ a ∈ node.peers, ∀ b ∈ node.peers, node.address a = node.address b → a = b)
    (other : ∀ c ∈ node.peers, node.address c ≠ some own) : node.Single own where
  apart := apart
  other member := by
    obtain ⟨c, peer, same⟩ := mem_peerAddresses.mp member
    exact other c peer same
  counted := by
    have same : node.peers.image node.address = node.peerAddresses.image some := by
      ext addr
      simp only [Finset.mem_image]
      constructor
      · rintro ⟨c, peer, rfl⟩
        obtain ⟨addr, addressed⟩ := Option.ne_none_iff_exists'.mp (known c peer)
        exact ⟨addr, mem_peerAddresses.mpr ⟨c, peer, addressed⟩, addressed.symm⟩
      · rintro ⟨addr, member, rfl⟩
        exact mem_peerAddresses.mp member
    rw [← Finset.card_image_of_injective node.peerAddresses (Option.some_injective Str), ← same]
    exact (Finset.card_image_of_injOn fun a first b second => apart a first b second).symm

theorem Node.Single.address_ne (single : node.Single own) (peer : client ∈ node.peers) :
    node.address client ≠ some own :=
  fun same => single.other (mem_peerAddresses.mpr ⟨client, peer, same⟩)

theorem registerPeer_address (addr : Str) (peerId : Option Str) (other : TcpClient) :
    (node.registerPeer client addr peerId).address other = if other = client then some addr else node.address other := by
  change ((node.sessions.insert client ⟨addr, peerId⟩).lookup other).map PeerData.addr = _
  rw [Table.lookup_insert_eq]
  split
  · rfl
  · rfl

theorem registerPeer_known (named : node.Named) (peerId : Option Str) :
    ∀ c ∈ (node.registerPeer client addr peerId).peers, (node.registerPeer client addr peerId).address c ≠ none := by
  intro c peer
  rw [registerPeer_address]
  split
  · exact Option.some_ne_none addr
  · rename_i different
    exact named.known c ((Finset.mem_insert.mp peer).resolve_left different)

theorem registerPeer_named (named : node.Named) (y : Address) (peerId : Option Str) :
    (node.registerPeer client y.text peerId).Named where
  known := registerPeer_known named peerId
  addresses c addr addressed := by
    rw [registerPeer_address] at addressed
    split at addressed
    · exact ⟨y, (Option.some.inj addressed).symm⟩
    · exact named.addresses c addr addressed

theorem registerPeer_single (named : node.Named) (single : node.Single own) (peerId : Option Str) :
    (node.registerPeer client addr peerId).Single own ↔ node.Takes own client addr := by
  have added : ∀ c, c ∈ (node.registerPeer client addr peerId).peers ↔ c = client ∨ c ∈ node.peers :=
    fun c => Finset.mem_insert
  have here : (node.registerPeer client addr peerId).address client = some addr := by
    rw [registerPeer_address, if_pos rfl]
  have there : ∀ c, c ≠ client → (node.registerPeer client addr peerId).address c = node.address c := by
    intro c different
    rw [registerPeer_address, if_neg different]
  constructor
  · intro after
    refine ⟨fun same => ?_, fun other peer different same => ?_⟩
    · exact after.address_ne ((added client).mpr (.inl rfl)) (here.trans (congrArg some same))
    · refine different (after.apart other ((added other).mpr (.inr peer)) client ((added client).mpr (.inl rfl)) ?_)
      rw [here, there other different, same]
  · rintro ⟨other, fresh⟩
    refine single_of_apart (registerPeer_known named peerId) (fun a first b second same => ?_) fun c peer same => ?_
    · by_cases one : a = client <;> by_cases two : b = client
      · exact one.trans two.symm
      · subst one
        rw [here, there b two] at same
        exact absurd same.symm (fresh b (((added b).mp second).resolve_left two) two)
      · subst two
        rw [here, there a one] at same
        exact absurd same (fresh a (((added a).mp first).resolve_left one) one)
      · rw [there a one, there b two] at same
        exact single.apart a (((added a).mp first).resolve_left one) b (((added b).mp second).resolve_left two) same
    · by_cases one : c = client
      · subst one
        rw [here] at same
        exact other (Option.some.inj same)
      · rw [there c one] at same
        exact single.address_ne (((added c).mp peer).resolve_left one) same

theorem Node.Sheds.named (sheds : node.Sheds after) (named : node.Named) : after.Named where
  known c peer := by
    rw [sheds.kept c peer]
    exact named.known c (sheds.peers peer)
  addresses c addr addressed := named.addresses c addr (sheds.old c addr addressed)

theorem Node.Sheds.single (sheds : node.Sheds after) (named : node.Named) (single : node.Single own) : after.Single own := by
  refine single_of_apart (sheds.named named).known (fun a first b second same => ?_) fun c peer same => ?_
  · rw [sheds.kept a first, sheds.kept b second] at same
    exact single.apart a (sheds.peers first) b (sheds.peers second) same
  · rw [sheds.kept c peer] at same
    exact single.address_ne (sheds.peers peer) same

theorem Node.Sheds.trans {middle : Node TcpClient} (first : node.Sheds middle) (second : middle.Sheds after) :
    node.Sheds after where
  peers := second.peers.trans first.peers
  kept c peer := (second.kept c peer).trans (first.kept c (second.peers peer))
  old c addr addressed := first.old c addr (second.old c addr addressed)

theorem sheds_of_same (peers : after.peers = node.peers) (sessions : after.sessions = node.sessions) : node.Sheds after := by
  have addresses : after.address = node.address := by
    unfold Node.address
    rw [sessions]
  exact ⟨peers.subset, fun c _ => congrFun addresses c, fun c addr addressed => by rwa [addresses] at addressed⟩

theorem sheds_forgetPeer (node : Node TcpClient) (client : TcpClient) : node.Sheds (node.forgetPeer client) := by
  unfold Node.forgetPeer
  split
  · exact ⟨Finset.erase_subset _ _, fun _ _ => rfl, fun _ _ addressed => addressed⟩
  · exact sheds_of_same rfl rfl

theorem sheds_removePeer (node : Node TcpClient) (client : TcpClient) : node.Sheds (node.removePeer client) :=
  (sheds_forgetPeer node client).trans (sheds_of_same rfl rfl)

theorem sheds_clusterNew (random key id : Str) : node.Sheds (node.requestClusterNew random key id) := by
  unfold Node.requestClusterNew
  split
  · exact sheds_of_same rfl rfl
  · split
    · exact sheds_of_same rfl rfl
    · split <;> exact sheds_of_same rfl rfl

theorem sheds_recordId (random data : Str) {session : PeerData} (application : Application TcpClient)
    (found : node.sessions.lookup client = some session) :
    node.Sheds (node.recordId random client session data application) := by
  have addressed : node.address client = some session.addr := by rw [Node.address, found, Option.map_some]
  have addresses : ∀ c, (node.recordId random client session data application).address c = node.address c := by
    intro c
    have sessions : (node.recordId random client session data application).sessions =
        node.sessions.insert client { session with id := some data } := by
      unfold Node.recordId
      dsimp only
      split <;> rfl
    unfold Node.address at addressed ⊢
    rw [sessions, Table.lookup_insert_eq]
    split
    · rename_i same
      rw [same, addressed]
      rfl
    · rfl
  refine ⟨?_, fun c _ => addresses c, fun c addr addressed => (addresses c) ▸ addressed⟩
  unfold Node.recordId
  dsimp only
  split <;> exact Finset.Subset.refl _

theorem sheds_okPeerAuth (random : Str) (id : Nat) (data : Str) :
    node.Sheds (node.replyRequestPeerAuth random client id data) := by
  unfold Node.replyRequestPeerAuth Node.popAuthApplication
  cases node.pending.lookup id with
  | none => exact sheds_removePeer node client
  | some application =>
    dsimp only
    have popped : node.Sheds { node with pending := node.pending.erase id } := sheds_of_same rfl rfl
    split
    · exact popped
    · rename_i session found
      exact popped.trans (sheds_recordId random data application found)

theorem sheds_deniedPeerAuth (id : Nat) : node.Sheds (node.replyDeniedRequestPeerAuth client id) :=
  (sheds_removePeer node client).trans (sheds_of_same rfl rfl)

theorem sheds_removed (node : Node TcpClient) (client : TcpClient) :
    node.Sheds { node.forgetPeer client with sessions := (node.forgetPeer client).sessions.erase client } := by
  have sessions : (node.forgetPeer client).sessions = node.sessions := by
    unfold Node.forgetPeer
    split <;> rfl
  have addresses : ∀ c, ((node.sessions.erase client).lookup c).map PeerData.addr =
      if c = client then none else node.address c := by
    intro c
    rw [Table.lookup_erase_eq]
    split <;> rfl
  rw [sessions]
  refine ⟨(sheds_forgetPeer node client).peers, fun c peer => (addresses c).trans ?_, fun c addr addressed => ?_⟩
  · split
    · rename_i same
      have unknown : client ∉ node.sessions := by
        intro known
        have peer : c ∈ (node.forgetPeer client).peers := peer
        rw [Node.forgetPeer, if_pos known, same] at peer
        exact Finset.notMem_erase client node.peers peer
      rw [same, Node.address, Finmap.lookup_eq_none.mpr unknown, Option.map_none]
    · rfl
  · have addressed := (addresses c).symm.trans addressed
    split at addressed
    · cases addressed
    · exact addressed

end

/-! ### The network -/

/-- The node that listens at an address. It has the name of its cluster port. -/
structure Sites where
  node : Address → Address
  named : ∀ a, node (node a) = node a

inductive NetworkEvent where
  | clusterNew (x : Address) (random key id : Str)
  | clusterJoin (x target : Address) (random key id : Str) (user : Nat)
  | handlePost (i : Nat)
  | handleReply (i : Nat) (random : Str) (order : Order Str)
  /-- The opener of a connection, or the node it was opened to, finds it closed by the other. -/
  | disconnect (i : Nat) (atOpener : Bool)

namespace Network

variable (sites : Sites) (net : Network)

def requestPeerAuthAt (i : Nat) (connection : Connection) (id : Nat) (key addr peerId : Str) : Network :=
  let x := sites.node connection.target
  let onClusterPort := decide (x = connection.target)
  let (node, reply) := (net.node x).requestPeerAuth (.accepted i) onClusterPort x.text key addr peerId
  (net.setNode x node).setConnection i { connection with toOpener := connection.toOpener ++ [(id, reply)] }

def postRequestPeersAt (i : Nat) (connection : Connection) (id : Nat) : Network :=
  let reply := Reply.okPeers (net.node (sites.node connection.target)).peerAddresses
  net.setConnection i { connection with toOpener := connection.toOpener ++ [(id, reply)] }

def handlePostAt (i : Nat) : Option Network :=
  (net.connections[i]?).bind fun connection =>
    if .accepted i ∈ (net.node (sites.node connection.target)).closed then none
    else match connection.toTarget with
    | [] => none
    | .peerAuth id key addr peerId :: rest =>
      some (net.requestPeerAuthAt sites i { connection with toTarget := rest } id key addr peerId)
    | .peers id :: rest => some (net.postRequestPeersAt sites i { connection with toTarget := rest } id)

def replyRedirectRequestPeerAuth (i : Nat) (connection : Connection) (id : Nat) (addr : Str) : Network :=
  let x := connection.opener
  let (application, node) := ((net.node x).removePeer (.opened i)).popAuthApplication id
  let popped := (net.setNode x node).setConnection i connection
  match application, unmakeAddress addr with
  | some application, some (host, port) =>
    if valid : port ≠ 0 then popped.peerConnect x ⟨host, port, valid⟩ application else popped
  | _, _ => popped

def handleReplyAt (i : Nat) (random : Str) (order : Order Str) : Option Network :=
  (net.connections[i]?).bind fun connection =>
    if .opened i ∈ (net.node connection.opener).closed then none
    else match connection.toOpener with
    | (id, .redirectPeerAuth addr) :: rest =>
      some (net.replyRedirectRequestPeerAuth i { connection with toOpener := rest } id addr)
    | _ => net.handleReply i random order

def removeClient (x : Address) (client : TcpClient) : Network :=
  let node := (net.node x).forgetPeer client
  net.setNode x { node with sessions := node.sessions.erase client }

-- what was sent before is read first
def disconnect (i : Nat) (atOpener : Bool) : Option Network :=
  (net.connections[i]?).bind fun connection =>
    let target := sites.node connection.target
    if atOpener then
      if .accepted i ∈ (net.node target).closed ∧ connection.toOpener.isEmpty then
        some (net.removeClient connection.opener (.opened i))
      else none
    else if .opened i ∈ (net.node connection.opener).closed ∧ connection.toTarget.isEmpty then
      some (net.removeClient target (.accepted i))
    else none

def next : NetworkEvent → Option Network
  | .clusterNew x random key id =>
    if sites.node x = x then some (net.setNode x ((net.node x).requestClusterNew random key id)) else none
  | .clusterJoin x target random key id user =>
    if sites.node x = x then some (net.requestClusterJoin key x target random id user) else none
  | .handlePost i => net.handlePostAt sites i
  | .handleReply i random order => net.handleReplyAt i random order
  | .disconnect i atOpener => net.disconnect sites i atOpener

/-- Whether a `CLUSTER_JOIN` with this id opens a connection. -/
def applies (x : Address) (id : Str) : Bool := !(net.node x).inCluster && (id.isEmpty || checkClusterIdLength id)

/-- Whether a `PEER_AUTH` with this key that comes through this port makes its sender a peer. -/
def admits (target : Address) (key : Str) : Bool :=
  decide (sites.node target = target) && (net.node target).authenticateClusterKey key && (net.node target).clusterId.isSome

/-- A connection is registered under an address that is new to the node. Those that the reply to `PEERS`
leads to always are. -/
def Fresh : NetworkEvent → Prop
  | .clusterJoin x target _ _ id _ =>
    net.applies x id = true → (net.node x).Takes x.text (.opened net.connections.length) target.text
  | .handlePost i => ∀ connection, net.connections[i]? = some connection →
    match connection.toTarget with
    | .peerAuth _ key addr _ :: _ => net.admits sites connection.target key = true →
      (net.node connection.target).Takes connection.target.text (.accepted i) addr
    | _ => True
  | .handleReply i _ _ => ∀ connection, net.connections[i]? = some connection →
    match connection.toOpener with
    | (id, .redirectPeerAuth addr) :: _ => ((net.node connection.opener).pending.lookup id).isSome = true →
      ∀ host port, unmakeAddress addr = some (host, port) →
        ((net.node connection.opener).removePeer (.opened i)).Takes connection.opener.text
          (.opened net.connections.length) (makeAddress host port)
    | _ => True
  | _ => True

/-- Every node has one connection with each of its peers, and none with itself. -/
def Single : Prop := ∀ x, (net.node x).Single x.text

end Network

/-! ### What is in flight -/

def Posted.Named : Posted → Prop
  | .peerAuth _ _ addr _ => ∃ y : Address, addr = y.text
  | .peers _ => True

def Reply.Named : Reply → Prop
  | .okPeers peers => ∀ addr ∈ peers, ∃ y : Address, addr = y.text
  | _ => True

structure Connection.Named (connection : Connection) : Prop where
  posted : ∀ post ∈ connection.toTarget, post.Named
  replied : ∀ reply ∈ connection.toOpener, reply.2.Named

/-- All addresses are written as `own_peer_addr` writes them. -/
structure Network.Named (net : Network) : Prop where
  nodes : ∀ x, (net.node x).Named
  connections : ∀ connection ∈ net.connections, connection.Named

section
variable {sites : Sites} {net after : Network} {x : Address} {node : Node TcpClient} {i : Nat} {connection : Connection}

theorem empty_named : Network.Named {} where
  nodes _ := ⟨fun _ peer => absurd peer (Finset.notMem_empty _), fun _ _ addressed => by cases addressed⟩
  connections _ member := absurd member List.not_mem_nil

theorem empty_single : Network.Single {} :=
  fun _ => single_of_apart (empty_named.nodes _).known (fun _ peer => absurd peer (Finset.notMem_empty _))
    fun _ peer => absurd peer (Finset.notMem_empty _)

theorem Network.Named.setNode (named : net.Named) (node_named : node.Named) : (net.setNode x node).Named where
  nodes := setNode_forall (P := fun _ node => node.Named) node_named named.nodes
  connections := named.connections

theorem Network.Named.setConnection (named : net.Named) (connection_named : connection.Named) :
    (net.setConnection i connection).Named where
  nodes := named.nodes
  connections other member := by
    rcases List.mem_or_eq_of_mem_set member with member | rfl
    · exact named.connections other member
    · exact connection_named

theorem Network.Named.sheds (named : net.Named) (sheds : (net.node x).Sheds node) : (net.setNode x node).Named :=
  named.setNode (sheds.named (named.nodes x))

theorem single_setNode (single : net.Single) : (net.setNode x node).Single ↔ node.Single x.text := by
  constructor
  · intro all
    have here := all x
    rwa [setNode_self] at here
  · intro here
    exact setNode_forall (P := fun y node => node.Single y.text) here single

theorem Network.Single.sheds (single : net.Single) (named : net.Named) (sheds : (net.node x).Sheds node) :
    (net.setNode x node).Single :=
  (single_setNode single).mpr (sheds.single (named.nodes x) (single x))

/-! ### Connecting -/

theorem peerConnect_named (named : net.Named) (target : Address) (application : Application TcpClient) :
    (net.peerConnect x target application).Named where
  nodes := by
    have registered : ((net.node x).registerPeer (.opened net.connections.length) target.text none).Named :=
      registerPeer_named (named.nodes x) target none
    have sheds : ((net.node x).registerPeer (.opened net.connections.length) target.text none).Sheds
        ((net.node x).peerConnect ⟨.opened net.connections.length, target.text⟩ application) := sheds_of_same rfl rfl
    exact (named.setNode (sheds.named registered)).nodes
  connections other member := by
    rcases List.mem_append.mp member with member | member
    · exact named.connections other member
    · obtain rfl := List.mem_singleton.mp member
      refine ⟨fun post posted => ?_, fun reply replied => by cases replied⟩
      obtain rfl := List.mem_singleton.mp posted
      exact ⟨x, rfl⟩

theorem peerConnect_single (named : net.Named) (single : net.Single) (target : Address)
    (application : Application TcpClient) :
    (net.peerConnect x target application).Single ↔
      (net.node x).Takes x.text (.opened net.connections.length) target.text := by
  let registered := (net.node x).registerPeer (.opened net.connections.length) target.text none
  let connected := (net.node x).peerConnect ⟨.opened net.connections.length, target.text⟩ application
  have registered_named : registered.Named := registerPeer_named (named.nodes x) target none
  have there : registered.Sheds connected := sheds_of_same rfl rfl
  have back : connected.Sheds registered := sheds_of_same rfl rfl
  calc (net.peerConnect x target application).Single
    _ ↔ connected.Single x.text := single_setNode single
    _ ↔ registered.Single x.text :=
      ⟨back.single (there.named registered_named), there.single registered_named⟩
    _ ↔ _ := registerPeer_single (named.nodes x) (single x) none

theorem takes_unknown {own addr : Str} (client : TcpClient) (other : addr ≠ own) (unknown : addr ∉ node.peerAddresses) :
    node.Takes own client addr :=
  ⟨other, fun c peer _ addressed => unknown (mem_peerAddresses.mpr ⟨c, peer, addressed⟩)⟩

theorem peerConnect_addresses (target : Address) (application : Application TcpClient) {addr : Str}
    (member : addr ∈ ((net.peerConnect x target application).node x).peerAddresses) :
    addr = target.text ∨ addr ∈ (net.node x).peerAddresses := by
  have placed : (net.peerConnect x target application).node x =
      (net.node x).peerConnect ⟨.opened net.connections.length, target.text⟩ application := setNode_self
  rw [placed] at member
  obtain ⟨c, peer, addressed⟩ := mem_peerAddresses.mp member
  have addressed : ((net.node x).registerPeer (.opened net.connections.length) target.text none).address c = some addr :=
    addressed
  rw [registerPeer_address] at addressed
  split at addressed
  · exact .inl (Option.some.inj addressed).symm
  · rename_i different
    exact .inr (mem_peerAddresses.mpr ⟨c, (Finset.mem_insert.mp peer).resolve_left different, addressed⟩)

theorem peerConnectAll_named (application : Application TcpClient) (nodes : List Address) {net : Network}
    (named : net.Named) :
    (Network.peerConnectAll x application (nodes.map fun y => (y.host, y.port)) net).Named := by
  induction nodes generalizing net with
  | nil => exact named
  | cons y rest ih =>
    rw [List.map_cons, Network.peerConnectAll, dif_pos y.valid]
    exact ih (peerConnect_named named y application)

/-- Connections to nodes that are all different and unknown are single. -/
theorem peerConnectAll_single (application : Application TcpClient) (nodes : List Address) {net : Network}
    (named : net.Named) (single : net.Single) (distinct : (nodes.map Address.text).Nodup)
    (unknown : ∀ y ∈ nodes, y.text ≠ x.text ∧ y.text ∉ (net.node x).peerAddresses) :
    (Network.peerConnectAll x application (nodes.map fun y => (y.host, y.port)) net).Single := by
  induction nodes generalizing net with
  | nil => exact single
  | cons y rest ih =>
    rw [List.map_cons, Network.peerConnectAll, dif_pos y.valid]
    obtain ⟨first, distinct⟩ := List.nodup_cons.mp distinct
    obtain ⟨other, new⟩ := unknown y List.mem_cons_self
    have connected := (peerConnect_single named single y application).mpr (takes_unknown _ other new)
    refine ih (peerConnect_named named y application) connected distinct fun z member => ?_
    obtain ⟨otherZ, newZ⟩ := unknown z (List.mem_cons_of_mem _ member)
    refine ⟨otherZ, fun known => ?_⟩
    rcases peerConnect_addresses y application known with same | known
    · exact first (same ▸ List.mem_map_of_mem member)
    · exact newZ known

theorem replyRequestPeers_keeps (named : net.Named) (order : Order Str) {peers : Finset Str}
    (nodes : ∀ addr ∈ peers, ∃ y : Address, addr = y.text) :
    (net.replyRequestPeers x order peers).Named ∧ (net.Single → (net.replyRequestPeers x order peers).Single) := by
  unfold Network.replyRequestPeers
  dsimp only
  split
  · rename_i key id _ _
    have listed : ∀ addr ∈ order.list ((net.node x).unknownPeersIn x.text peers),
        addr ∈ peers ∧ addr ≠ x.text ∧ addr ∉ (net.node x).peerAddresses := by
      intro addr member
      obtain ⟨other, member⟩ := Finset.mem_erase.mp ((order.mem _ addr).mp member)
      obtain ⟨told, new⟩ := Finset.mem_filter.mp member
      exact ⟨told, other, new⟩
    obtain ⟨ys, texts⟩ := exists_nodes fun addr member => nodes addr (listed addr member).1
    have distinct : (ys.map Address.text).Nodup := texts ▸ order.nodup _
    have new : ∀ y ∈ ys, y.text ≠ x.text ∧ y.text ∉ (net.node x).peerAddresses := fun y member =>
      (listed y.text (texts ▸ List.mem_map_of_mem member)).2
    rw [texts, mapM_unmakeAddress]
    exact ⟨peerConnectAll_named _ ys named, fun single => peerConnectAll_single _ ys named single distinct new⟩
  · exact ⟨named, id⟩

/-! ### One event -/

theorem toPort_valid {number : Int64} (valid : validatePort number = true) : toPort number ≠ 0 := by
  obtain ⟨positive, small⟩ := of_decide_eq_true valid
  have positive : (0 : Int64).toInt < number.toInt := Int64.lt_iff_toInt_lt.mp positive
  have small : number.toInt ≤ (65535 : Int64).toInt := Int64.le_iff_toInt_le.mp small
  have zero : (0 : Int64).toInt = 0 := rfl
  have bound : (65535 : Int64).toInt = 65535 := rfl
  intro none
  have same := congrArg UInt16.toNat none
  rw [toPort, UInt16.ofInt, UInt16.toNat_ofNat'] at same
  change _ = 0 at same
  omega

theorem unmakeAddress_valid {addr host : Str} {port : UInt16} (read : unmakeAddress addr = some (host, port)) :
    port ≠ 0 := by
  unfold unmakeAddress at read
  split at read
  · cases read
  · split at read
    · cases read
    · split at read
      · rename_i number _ _ valid
        obtain ⟨-, rfl⟩ := Prod.mk.inj (Option.some.inj read)
        exact toPort_valid valid
      · cases read

/-- What an event does: it keeps addresses as they are written, and peers single if that is fresh. -/
structure Keeps (net after : Network) (fresh : Prop) : Prop where
  named : after.Named
  single : net.Single → (after.Single ↔ fresh)

theorem Keeps.setNode (named : net.Named) (sheds : (net.node x).Sheds node) : Keeps net (net.setNode x node) True where
  named := named.sheds sheds
  single single := iff_true_intro (single.sheds named sheds)

theorem Keeps.setConnection {fresh : Prop} (keeps : Keeps net after fresh) (connection_named : connection.Named) :
    Keeps net (after.setConnection i connection) fresh where
  named := keeps.named.setConnection connection_named
  single := keeps.single

theorem clusterJoin_keeps (named : net.Named) (target : Address) (random key id : Str) (user : Nat) :
    Keeps net (net.requestClusterJoin key x target random id user)
      (net.applies x id = true → (net.node x).Takes x.text (.opened net.connections.length) target.text) := by
  unfold Network.requestClusterJoin
  split
  · rename_i inside
    refine ⟨named, fun single => iff_of_true single fun applies => ?_⟩
    simp [Network.applies, inside] at applies
  · split
    · rename_i short
      refine ⟨named, fun single => iff_of_true single fun applies => ?_⟩
      simp_all [Network.applies]
    · rename_i outside long
      have applies : net.applies x id = true := by
        rw [Network.applies, Bool.eq_false_iff.mpr outside]
        cases empty : id.isEmpty <;> cases length : checkClusterIdLength id <;> simp_all
      have started : Network.Named { net with started := insert x net.started } := ⟨named.nodes, named.connections⟩
      refine ⟨peerConnect_named started target _, fun single => ?_⟩
      exact (peerConnect_single started single target _).trans (imp_iff_right applies).symm

/-- A connection without its first message, and with a reply. -/
theorem Connection.Named.answered (named : connection.Named) {rest : List Posted} {post : Posted}
    (posts : connection.toTarget = post :: rest) {id : Nat} {reply : Reply} (reply_named : reply.Named) :
    Connection.Named { connection with toTarget := rest, toOpener := connection.toOpener ++ [(id, reply)] } where
  posted other member := named.posted other (posts ▸ List.mem_cons_of_mem _ member)
  replied other member := by
    rcases List.mem_append.mp member with member | member
    · exact named.replied other member
    · rw [List.mem_singleton.mp member]
      exact reply_named

theorem requestPeerAuth_keeps (named : net.Named) {key addr peerId : Str} {id : Nat} {rest : List Posted}
    (there : connection ∈ net.connections) (posts : connection.toTarget = .peerAuth id key addr peerId :: rest) :
    Keeps net (net.requestPeerAuthAt sites i { connection with toTarget := rest } id key addr peerId)
      (net.admits sites connection.target key = true →
        (net.node connection.target).Takes connection.target.text (.accepted i) addr) := by
  have connection_named := named.connections connection there
  obtain ⟨y, rfl⟩ : ∃ y : Address, addr = y.text := by
    refine connection_named.posted (.peerAuth id key addr peerId) ?_
    rw [posts]
    exact List.mem_cons_self
  have refused : ∀ reply : Reply, reply.Named → net.admits sites connection.target key = false →
      Keeps net ((net.setNode (sites.node connection.target)
          { net.node (sites.node connection.target) with
            closed := insert (.accepted i) (net.node (sites.node connection.target)).closed }).setConnection i
        { connection with toTarget := rest, toOpener := connection.toOpener ++ [(id, reply)] })
      (net.admits sites connection.target key = true →
        (net.node connection.target).Takes connection.target.text (.accepted i) y.text) := by
    intro reply reply_named out
    let x := sites.node connection.target
    have sheds : (net.node x).Sheds { net.node x with closed := insert (.accepted i) (net.node x).closed } :=
      sheds_of_same rfl rfl
    have answered : Connection.Named
        { connection with toTarget := rest, toOpener := connection.toOpener ++ [(id, reply)] } :=
      connection_named.answered posts reply_named
    have keeps := Keeps.setNode named sheds
    exact ⟨keeps.named.setConnection answered, fun single => (keeps.single single).trans (by simp [out])⟩
  unfold Network.requestPeerAuthAt Node.requestPeerAuth
  dsimp only
  split
  · rename_i elsewhere
    refine refused _ trivial ?_
    simp_all [Network.admits]
  · rename_i here
    have here : sites.node connection.target = connection.target := by simpa using here
    split
    · rename_i wrong
      refine refused _ trivial ?_
      simp_all [Network.admits]
    · rename_i right
      split
      · rename_i unnamed
        refine refused _ trivial ?_
        simp_all [Network.admits]
      · rename_i ownId identified
        have admitted : net.admits sites connection.target key = true := by
          rw [here] at right identified
          simp_all [Network.admits]
        rw [here]
        have registered : ((net.node connection.target).registerPeer (.accepted i) y.text (some peerId)).Named :=
          registerPeer_named (named.nodes connection.target) y (some peerId)
        refine ⟨(named.setNode registered).setConnection (connection_named.answered posts trivial), fun single => ?_⟩
        calc _
          _ ↔ Node.Single ((net.node connection.target).registerPeer (.accepted i) y.text (some peerId))
              connection.target.text := single_setNode single
          _ ↔ (net.node connection.target).Takes connection.target.text (.accepted i) y.text :=
            registerPeer_single (named.nodes connection.target) (single connection.target) (some peerId)
          _ ↔ _ := (imp_iff_right admitted).symm

theorem handlePost_keeps (named : net.Named) (taken : net.handlePostAt sites i = some after) :
    Keeps net after (net.Fresh sites (.handlePost i)) := by
  obtain ⟨connection, there, taken⟩ := Option.bind_eq_some_iff.mp taken
  have member := List.mem_of_getElem? there
  have connection_named := named.connections connection member
  split at taken
  · cases taken
  · split at taken
    · cases taken
    · rename_i id key addr peerId rest posts
      obtain rfl := Option.some.inj taken
      have keeps : Keeps net (net.requestPeerAuthAt sites i { connection with toTarget := rest } id key addr peerId) _ :=
        requestPeerAuth_keeps named member posts
      refine ⟨keeps.named, fun single => (keeps.single single).trans ?_⟩
      simp only [Network.Fresh, there, Option.some.injEq, forall_eq', posts]
    · rename_i id rest posts
      obtain rfl := Option.some.inj taken
      have told : (Reply.okPeers (net.node (sites.node connection.target)).peerAddresses).Named := by
        intro addr known
        obtain ⟨c, -, addressed⟩ := mem_peerAddresses.mp known
        exact (named.nodes _).addresses c addr addressed
      refine ⟨named.setConnection (connection_named.answered posts told), fun single => iff_of_true single ?_⟩
      simp only [Network.Fresh, there, Option.some.injEq, forall_eq', posts]

/-- A connection whose first reply has been read. -/
theorem Connection.Named.read (named : connection.Named) {id : Nat} {reply : Reply} {rest : List (Nat × Reply)}
    (replies : connection.toOpener = (id, reply) :: rest) : Connection.Named { connection with toOpener := rest } where
  posted := named.posted
  replied other member := named.replied other (replies ▸ List.mem_cons_of_mem _ member)

theorem redirect_keeps (named : net.Named) {id : Nat} {addr : Str} {rest : List (Nat × Reply)}
    (there : connection ∈ net.connections) (replies : connection.toOpener = (id, .redirectPeerAuth addr) :: rest) :
    Keeps net (net.replyRedirectRequestPeerAuth i { connection with toOpener := rest } id addr)
      (((net.node connection.opener).pending.lookup id).isSome = true →
        ∀ host port, unmakeAddress addr = some (host, port) →
          ((net.node connection.opener).removePeer (.opened i)).Takes connection.opener.text
            (.opened net.connections.length) (makeAddress host port)) := by
  let x := connection.opener
  let removed := (net.node x).removePeer (.opened i)
  let popped := (net.setNode x (removed.popAuthApplication id).2).setConnection i { connection with toOpener := rest }
  have sheds : (net.node x).Sheds (removed.popAuthApplication id).2 := sheds_deniedPeerAuth id
  have keeps : Keeps net popped True :=
    (Keeps.setNode named sheds).setConnection ((named.connections connection there).read replies)
  have pending : (removed.popAuthApplication id).1 = (net.node x).pending.lookup id := by
    rw [Node.popAuthApplication, removePeer_pending]
  have count : popped.connections.length = net.connections.length := List.length_set ..
  have here : popped.node x = (removed.popAuthApplication id).2 := setNode_self
  change Keeps net (match (removed.popAuthApplication id).1, unmakeAddress addr with
    | some application, some (host, port) =>
      if valid : port ≠ 0 then popped.peerConnect x ⟨host, port, valid⟩ application else popped
    | _, _ => popped) _
  rw [pending]
  cases lookup : (net.node x).pending.lookup id with
  | none => exact ⟨keeps.named, fun single => (keeps.single single).trans (by simp)⟩
  | some application =>
    cases read : unmakeAddress addr with
    | none => exact ⟨keeps.named, fun single => (keeps.single single).trans (by simp)⟩
    | some found =>
      obtain ⟨host, port⟩ := found
      have valid := unmakeAddress_valid read
      dsimp only
      rw [dif_pos valid]
      refine ⟨peerConnect_named keeps.named ⟨host, port, valid⟩ application, fun single => ?_⟩
      have connected := peerConnect_single (x := x) keeps.named ((keeps.single single).mpr trivial) ⟨host, port, valid⟩
        application
      rw [connected, here, count]
      constructor
      · intro takes _ host' port' same
        obtain ⟨rfl, rfl⟩ := Prod.mk.inj (Option.some.inj same)
        exact takes
      · exact fun fresh => fresh rfl host port rfl

theorem okPeerAuth_keeps (named : net.Named) {random : Str} {id : Nat} {data : Str} (connection_named : connection.Named) :
    Keeps net (net.replyRequestPeerAuth i connection random id data) True := by
  unfold Network.replyRequestPeerAuth
  dsimp only
  have sheds : (net.node connection.opener).Sheds
      ((net.node connection.opener).replyRequestPeerAuth random (.opened i) id data) := sheds_okPeerAuth random id data
  have keeps := Keeps.setNode named sheds
  split
  · refine keeps.setConnection ⟨fun post posted => ?_, connection_named.replied⟩
    rcases List.mem_append.mp posted with posted | posted
    · exact connection_named.posted post posted
    · rw [List.mem_singleton.mp posted]
      trivial
  · exact keeps.setConnection connection_named

/-- What `handle_reply` does of a message that is no redirection. -/
theorem handleReply_keeps (named : net.Named) {random : Str} {order : Order Str}
    (taken : net.handleReply i random order = some after) : Keeps net after True := by
  obtain ⟨connection, there, taken⟩ := Option.bind_eq_some_iff.mp taken
  have connection_named := named.connections connection (List.mem_of_getElem? there)
  split at taken
  · cases taken
  · rename_i id reply rest replies
    have read := connection_named.read replies
    dsimp only at taken
    split at taken
    · obtain rfl := Option.some.inj taken
      exact okPeerAuth_keeps named read
    · obtain rfl := Option.some.inj taken
      exact (Keeps.setNode named (sheds_deniedPeerAuth id)).setConnection read
    · rename_i peers
      obtain rfl := Option.some.inj taken
      have told : ∀ addr ∈ peers, ∃ y : Address, addr = y.text :=
        connection_named.replied (id, .okPeers peers) (replies ▸ List.mem_cons_self)
      obtain ⟨kept, single⟩ := replyRequestPeers_keeps (x := connection.opener)
        (named.setConnection (i := i) read) order told
      exact ⟨kept, fun before => iff_true_intro (single before)⟩
    · obtain rfl := Option.some.inj taken
      exact ⟨named.setConnection read, fun single => iff_true_intro single⟩

theorem handleReplyAt_keeps (named : net.Named) {random : Str} {order : Order Str}
    (taken : net.handleReplyAt i random order = some after) :
    Keeps net after (net.Fresh sites (.handleReply i random order)) := by
  obtain ⟨connection, there, taken⟩ := Option.bind_eq_some_iff.mp taken
  split at taken
  · cases taken
  · split at taken
    · rename_i id addr rest replies
      obtain rfl := Option.some.inj taken
      have keeps := redirect_keeps (i := i) named (List.mem_of_getElem? there) replies
      refine ⟨keeps.named, fun single => (keeps.single single).trans ?_⟩
      simp only [Network.Fresh, there, Option.some.injEq, forall_eq', replies]
    · rename_i other
      have keeps := handleReply_keeps named taken
      refine ⟨keeps.named, fun single => (keeps.single single).trans (iff_of_true trivial fun connection' found => ?_)⟩
      obtain rfl := Option.some.inj (there.symm.trans found)
      split
      · rename_i id addr rest replies
        exact absurd replies (other id addr rest)
      · trivial

theorem disconnect_keeps (named : net.Named) {atOpener : Bool} (taken : net.disconnect sites i atOpener = some after) :
    Keeps net after True := by
  obtain ⟨connection, -, taken⟩ := Option.bind_eq_some_iff.mp taken
  have removed : ∀ x client, Keeps net (net.removeClient x client) True := fun x client =>
    Keeps.setNode named (sheds_removed (net.node x) client)
  dsimp only at taken
  split at taken
  · split at taken
    · exact Option.some.inj taken ▸ removed _ _
    · cases taken
  · split at taken
    · exact Option.some.inj taken ▸ removed _ _
    · cases taken

/-- The step lemma. -/
theorem next_keeps (named : net.Named) (event : NetworkEvent) (taken : net.next sites event = some after) :
    Keeps net after (net.Fresh sites event) := by
  cases event with
  | clusterNew x random key id =>
    simp only [Network.next] at taken
    split at taken
    · exact Option.some.inj taken ▸ Keeps.setNode named (sheds_clusterNew random key id)
    · cases taken
  | clusterJoin x target random key id user =>
    simp only [Network.next] at taken
    split at taken
    · exact Option.some.inj taken ▸ clusterJoin_keeps named target random key id user
    · cases taken
  | handlePost i => exact handlePost_keeps named taken
  | handleReply i random order => exact handleReplyAt_keeps named taken
  | disconnect i atOpener => exact disconnect_keeps named taken

end

/-- A node has one connection with each peer, and none with itself, as long as every connection is registered
under a fresh address, and no longer. -/
theorem single_peers_iff (sites : Sites) (run : List NetworkEvent) :
    EachState (Network.next sites) Network.Single run {} ↔ EachStep (Network.next sites) (Network.Fresh sites) run {} :=
  eachState_iff (fun _ event _ named taken => (next_keeps named event taken).named)
    (fun _ event _ named single taken => (next_keeps named event taken).single single) empty_named empty_single

/-- Every address is that of a cluster port. -/
def Sites.clusterPorts : Sites := ⟨id, fun _ => rfl⟩

/-- The second and the third node join the first. It tells both of both, each connects to the other before the
other's `PEER_AUTH` is handled, and takes it when it is. -/
def crossing : List NetworkEvent :=
  [.clusterNew .first (ascii "some-random-id") sharedKey [],
    .clusterJoin .second .first (ascii "some-random-id") sharedKey [] 0,
    .clusterJoin .third .first (ascii "some-random-id") sharedKey [] 0,
    .handlePost 0, .handlePost 1,
    .handleReply 0 [] leastFirst, .handleReply 1 [] leastFirst, .handlePost 0, .handlePost 1,
    .handleReply 0 [] leastFirst, .handleReply 1 [] leastFirst, .handlePost 2]

theorem crossing_doubles : ¬EachState (Network.next .clusterPorts) Network.Single crossing {} := by
  intro each
  have doubled : (runAll (Network.next .clusterPorts) crossing {}).any (fun net =>
      decide (.opened 3 ∈ (net.node .third).peers ∧ .accepted 2 ∈ (net.node .third).peers ∧
        (net.node .third).address (.opened 3) = (net.node .third).address (.accepted 2))) = true := by
    decide +kernel
  obtain ⟨net, runs, doubled⟩ := (Option.any_eq_true ..).mp doubled
  obtain ⟨opened, accepted, same⟩ := of_decide_eq_true doubled
  have single := eachState_last each runs
  cases (single .third).apart _ opened _ accepted same

end Vanity.Cluster
