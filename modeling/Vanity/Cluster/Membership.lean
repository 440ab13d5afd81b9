import Vanity.Cluster.Messages
import Vanity.Library.Runs

/-!
# A node of a cluster

`cluster_server.cpp`, `cluster_auth_server.cpp`, `peer_auth_application_server.cpp`, `high_peer_server.cpp`,
`peer_server.cpp` and `address_server.cpp`. Clients are told apart by their addresses. What the clients that
send requests are told is left out; it is in the handlers of requests.
-/

namespace Vanity.Cluster

open Db (Str)
open Request

/-! ### Addresses -/

def makeAddress (host : Str) (port : UInt16) : Str := host ++ 58 :: natText port.toNat

-- a number that is no `int` is no port either
def unmakeAddress (addr : Str) : Option (Str × UInt16) :=
  match addr.reverse.dropWhile (· ≠ 58) with
  | [] => none
  | _ :: host =>
    match stoll (addr.reverse.takeWhile (· ≠ 58)).reverse with
    | .error _ => none
    | .ok (port, _) => if validatePort port then some (host.reverse, toPort port) else none

theorem unmakeAddress_make (host : Str) {port : UInt16} (valid : port ≠ 0) :
    unmakeAddress (makeAddress host port) = some (host, port) := by
  have plain : ∀ c ∈ (natText port.toNat).reverse, decide (c ≠ 58) = true := by
    intro c member
    have digit := natText_digits (List.mem_reverse.mp member)
    simp only [decide_eq_true_eq]
    rintro rfl
    cases digit
  have turned : (makeAddress host port).reverse = (natText port.toNat).reverse ++ 58 :: host.reverse := by
    simp [makeAddress]
  have small := port.toNat_lt
  have positive : 0 < port.toNat := by
    rcases Nat.eq_zero_or_pos port.toNat with zero | positive
    · exact absurd (UInt16.toNat_inj.mp zero) valid
    · exact positive
  have number : (Int64.ofNat port.toNat).toInt = (port.toNat : Int) :=
    Int64.toInt_ofNat_of_lt (by omega)
  have text : intText (Int64.ofNat port.toNat).toInt = natText port.toNat := by
    rw [number, intText, if_neg (by omega), Int.natAbs_natCast]
  have read : stoll (intText (Int64.ofNat port.toNat).toInt ++ []) = _ := stoll_intText (by simp) _
  rw [text, List.append_nil] at read
  have isPort : validatePort (Int64.ofNat port.toNat) = true := by
    simp only [validatePort, decide_eq_true_eq, gt_iff_lt, Int64.lt_iff_toInt_lt, Int64.le_iff_toInt_le, number]
    constructor
    · have zero : (0 : Int64).toInt = 0 := rfl
      rw [zero]
      omega
    · have bound : (65535 : Int64).toInt = 65535 := rfl
      rw [bound]
      omega
  have back : toPort (Int64.ofNat port.toNat) = port := by
    have same : ((port.toNat : Int) % 2 ^ 16).toNat = port.toNat := by omega
    rw [toPort, number, UInt16.ofInt, same, UInt16.ofNat_toNat]
  unfold unmakeAddress
  rw [turned, List.dropWhile_append_of_pos plain, List.takeWhile_append_of_pos plain]
  simp [read, isPort, back]

/-! ### The node -/

/-- `PendingPeerAuth`, with the client that wants to join. -/
structure Application (C : Type) where
  key : Str
  ownId : Str
  client : Option C

structure Node (C : Type) where
  clusterKey : Option Str := none
  clusterId : Option Str := none
  pending : Table Nat (Application C) := ∅
  peers : Finset C := ∅
  /-- The data of the sessions of peers. -/
  sessions : Table C PeerData := ∅
  closed : Finset C := ∅
  nextId : Nat := 0

namespace Node

variable {C : Type} [DecidableEq C] (node : Node C)

def inCluster : Bool := node.clusterKey.isSome

def authenticateClusterKey (key : Str) : Bool := decide (node.clusterKey = some key)

def clearAuthApplications : Node C := { node with pending := ∅ }

def setClusterInfo (random key id : Str) : Node C :=
  { node.clearAuthApplications with clusterKey := some key, clusterId := some (if id.isEmpty then random else id) }

def leaveCluster : Node C := { node.clearAuthApplications with clusterKey := none, clusterId := none }

-- `emplace` leaves an application with this id alone
def addAuthApplication (id : Nat) (application : Application C) : Node C :=
  { node with pending := node.pending.insertNew (id, application) }

def popAuthApplication (id : Nat) : Option (Application C) × Node C :=
  (node.pending.lookup id, { node with pending := node.pending.erase id })

def registerPeer (client : C) (addr : Str) (peerId : Option Str) : Node C :=
  { node with peers := insert client node.peers, sessions := node.sessions.insert client ⟨addr, peerId⟩ }

def forgetPeer (client : C) : Node C :=
  if client ∈ node.sessions then { node with peers := node.peers.erase client } else node

def removePeer (client : C) : Node C :=
  { node.forgetPeer client with closed := insert client node.closed }

def clearPeers : Node C := { node with closed := node.closed ∪ node.peers, peers := ∅ }

def peerAddresses : Finset Str :=
  node.peers.biUnion fun client => ((node.sessions.lookup client).map PeerData.addr).toFinset

def unknownPeersIn (ownPeerAddr : Str) (peers : Finset Str) : Finset Str :=
  (peers.filter fun addr => addr ∉ node.peerAddresses).erase ownPeerAddr

/-- A connection that was made: its client, and the numeric address of the other end. -/
structure Socket (C : Type) where
  client : C
  remoteAddr : Str

/-- `peer_connect`, behind `Socket::connect`. -/
def peerConnect (socket : Socket C) (application : Application C) : Node C :=
  let node := node.registerPeer socket.client socket.remoteAddr none
  { node with nextId := node.nextId + 1 }.addAuthApplication node.nextId application

/-- The connections that `reply_request_peers` makes, until one fails. They go with the ids of what is posted. -/
def peerConnectAll (connect : Nat → Str × UInt16 → Option (Socket C)) (application : Application C) :
    List (Str × UInt16) → Node C → Node C
  | [], node => node
  | addr :: rest, node =>
    match connect node.nextId addr with
    | none => node
    | some socket => peerConnectAll connect application rest (node.peerConnect socket application)

/-! ### Handlers -/

def requestClusterNew (random key id : Str) : Node C :=
  if node.inCluster then node
  else if key.length < minClusterKeyLen then node
  else if !checkClusterIdLength id then node
  else node.setClusterInfo random key id

def requestClusterJoin (random key id : Str) (socket : Option (Socket C)) (client : C) : Node C :=
  if node.inCluster then node
  else if !id.isEmpty && !checkClusterIdLength id then node
  else
    let ownId := if id.isEmpty then random else id
    match socket with
    | none => node
    | some socket => node.peerConnect socket ⟨key, ownId, some client⟩

def requestClusterLeave : Node C := if !node.inCluster then node else node.leaveCluster.clearPeers

def requestPeerAuth (client : C) (onClusterPort : Bool) (ownPeerAddr key addr peerId : Str) : Node C × Reply :=
  if !onClusterPort then ({ node with closed := insert client node.closed }, .redirectPeerAuth ownPeerAddr)
  else if !node.authenticateClusterKey key then ({ node with closed := insert client node.closed }, .denied .peerAuth)
  else match node.clusterId with
    | none => ({ node with closed := insert client node.closed }, .okPeerAuth (ascii "DENIED"))
    | some ownId => (node.registerPeer client addr (some peerId), .okPeerAuth ownId)

/-- An id that is recorded, and what happens then. -/
def recordId (random : Str) (client : C) (session : PeerData) (data : Str) (application : Application C) : Node C :=
  let node := { node with sessions := node.sessions.insert client { session with id := some data } }
  let node := if node.inCluster then node else node.setClusterInfo random application.key application.ownId
  { node with nextId := node.nextId + 1 }

-- at the end of it `peer_sync` has posted `PEERS`
def replyRequestPeerAuth (random : Str) (client : C) (id : Nat) (data : Str) : Node C :=
  match node.popAuthApplication id with
  | (none, _) => node.removePeer client
  | (some application, node) =>
    match node.sessions.lookup client with
    | none => node
    | some session => node.recordId random client session data application

def replyDeniedRequestPeerAuth (client : C) (id : Nat) : Node C :=
  ((node.removePeer client).popAuthApplication id).2

def replyRedirectRequestPeerAuth (client : C) (id : Nat) (addr : Str) (connect : Str × UInt16 → Option (Socket C)) :
    Node C :=
  match (node.removePeer client).popAuthApplication id with
  | (none, node) => node
  | (some application, node) =>
    match unmakeAddress addr with
    | none => node
    | some addr =>
      match connect addr with
      | none => node
      | some socket => node.peerConnect socket application

def replyRequestPeers (ownPeerAddr : Str) (order : Order Str) (connect : Nat → Str × UInt16 → Option (Socket C))
    (peers : Finset Str) : Node C :=
  match node.clusterKey, node.clusterId with
  | some key, some id =>
    match (order.list (node.unknownPeersIn ownPeerAddr peers)).mapM unmakeAddress with
    | none => node
    | some addresses => peerConnectAll connect ⟨key, id, none⟩ addresses node
  | _, _ => node

end Node

/-! ### The handlers of requests

A server that handles a request does to its key and its id what the node does.
-/

section
variable {C : Type} [DecidableEq C] {node : Node C} {s : Server}

structure SameCluster (s : Server) (node : Node C) : Prop where
  key : s.clusterKey = node.clusterKey
  id : s.clusterId = node.clusterId

omit [DecidableEq C] in
theorem sameCluster_new (same : SameCluster s node) (world : World) (key id : Str) :
    SameCluster (requestClusterNew key id world s).2 (node.requestClusterNew world.randomClusterId key id) := by
  unfold requestClusterNew Node.requestClusterNew Node.inCluster
  rw [same.key]
  split
  · exact same
  · split
    · exact same
    · split
      · exact same
      · exact ⟨rfl, rfl⟩

theorem sameCluster_leave (same : SameCluster s node) (world : World) :
    SameCluster (requestClusterLeave world s).2 node.requestClusterLeave := by
  unfold requestClusterLeave Node.requestClusterLeave Node.inCluster
  rw [same.key]
  cases is : node.clusterKey with
  | none => exact same
  | some key => exact ⟨rfl, rfl⟩

theorem peerConnect_sameCluster (same : SameCluster s node) (world : World) (user : Client) (host : Str) (port : UInt16)
    (key ownId : Str) (socket : Option (Node.Socket C)) (application : Application C) :
    SameCluster (peerConnect user host port key ownId world s).2
      (match socket with
      | none => node
      | some socket => node.peerConnect socket application) := by
  have server : (peerConnect user host port key ownId world s).2.clusterKey = s.clusterKey ∧
      (peerConnect user host port key ownId world s).2.clusterId = s.clusterId := by
    unfold peerConnect
    split
    · exact ⟨rfl, rfl⟩
    · exact ⟨rfl, rfl⟩
  cases socket with
  | none => exact ⟨server.1.trans same.key, server.2.trans same.id⟩
  | some socket => exact ⟨server.1.trans same.key, server.2.trans same.id⟩

theorem sameCluster_join (same : SameCluster s node) (world : World) (user : Client) (key id host : Str) (port : Int64)
    (socket : Option (Node.Socket C)) (client : C) :
    SameCluster (requestClusterJoin user key id host port world s).2
      (node.requestClusterJoin world.randomClusterId key id socket client) := by
  unfold requestClusterJoin Node.requestClusterJoin Node.inCluster
  rw [same.key]
  by_cases inside : node.clusterKey.isSome = true
  · rw [if_pos inside, if_pos inside]
    exact same
  · rw [if_neg inside, if_neg inside]
    cases empty : id.isEmpty with
    | true =>
      simp only [if_true, Bool.not_true, Bool.false_and, Bool.false_eq_true, if_false]
      exact peerConnect_sameCluster same world user host _ key _ socket _
    | false =>
      simp only [Bool.false_eq_true, if_false, Bool.not_false, Bool.true_and]
      split
      · exact same
      · exact peerConnect_sameCluster same world user host _ key id socket _

end

/-! ### Membership -/

section
variable {C : Type} [DecidableEq C]

/-- A request, or a message of a peer, with what the handler takes from outside. -/
inductive Event (C : Type) where
  | clusterNew (random key id : Str)
  | clusterJoin (random key id : Str) (socket : Option (Node.Socket C)) (client : C)
  | clusterLeave
  | peerAuth (client : C) (onClusterPort : Bool) (ownPeerAddr key addr peerId : Str)
  | okPeerAuth (random : Str) (client : C) (id : Nat) (data : Str)
  | deniedPeerAuth (client : C) (id : Nat)
  | redirectPeerAuth (client : C) (id : Nat) (addr : Str) (connect : Str × UInt16 → Option (Node.Socket C))
  | okPeers (ownPeerAddr : Str) (order : Order Str) (connect : Nat → Str × UInt16 → Option (Node.Socket C))
    (peers : Finset Str)

def Event.handle (node : Node C) : Event C → Node C
  | .clusterNew random key id => node.requestClusterNew random key id
  | .clusterJoin random key id socket client => node.requestClusterJoin random key id socket client
  | .clusterLeave => node.requestClusterLeave
  | .peerAuth client onClusterPort ownPeerAddr key addr peerId =>
    (node.requestPeerAuth client onClusterPort ownPeerAddr key addr peerId).1
  | .okPeerAuth random client id data => node.replyRequestPeerAuth random client id data
  | .deniedPeerAuth client id => node.replyDeniedRequestPeerAuth client id
  | .redirectPeerAuth client id addr connect => node.replyRedirectRequestPeerAuth client id addr connect
  | .okPeers ownPeerAddr order connect peers => node.replyRequestPeers ownPeerAddr order connect peers

def eventStep (node : Node C) (event : Event C) : Option (Node C) := some (event.handle node)

structure Membership (node : Node C) : Prop where
  both : node.clusterKey.isSome = node.clusterId.isSome
  current : ∀ key, node.clusterKey = some key →
    ∀ id application, node.pending.lookup id = some application → application.key = key

/-- What a step may change. A `CLUSTER_LEAVE` outside a cluster is refused. -/
structure KeepsKey (node : Node C) (event : Event C) : Prop where
  kept : ∀ key, node.clusterKey = some key → (event.handle node).clusterKey ≠ some key → event = .clusterLeave
  left : event = .clusterLeave → node.inCluster = true →
    (event.handle node).pending = ∅ ∧ (event.handle node).clusterKey = none
  refused : event = .clusterLeave → node.inCluster = false → event.handle node = node
  /-- When the id of a peer is recorded, its application has the key of the node. -/
  recorded : ∀ random client id data application, event = .okPeerAuth random client id data →
    node.pending.lookup id = some application → client ∈ node.sessions →
    (event.handle node).clusterKey = some application.key

variable {node : Node C}

omit [DecidableEq C] in
/-- A change of the clients only. -/
theorem Membership.of_same {other : Node C} (membership : Membership node) (key : other.clusterKey = node.clusterKey)
    (id : other.clusterId = node.clusterId) (pending : other.pending = node.pending) : Membership other := by
  refine ⟨?_, ?_⟩
  · rw [key, id]
    exact membership.both
  · rw [key, pending]
    exact membership.current

@[simp] theorem removePeer_clusterKey (client : C) : (node.removePeer client).clusterKey = node.clusterKey := by
  unfold Node.removePeer Node.forgetPeer
  split <;> rfl

@[simp] theorem removePeer_clusterId (client : C) : (node.removePeer client).clusterId = node.clusterId := by
  unfold Node.removePeer Node.forgetPeer
  split <;> rfl

@[simp] theorem removePeer_pending (client : C) : (node.removePeer client).pending = node.pending := by
  unfold Node.removePeer Node.forgetPeer
  split <;> rfl

theorem Membership.removePeer (membership : Membership node) (client : C) : Membership (node.removePeer client) :=
  membership.of_same (by simp) (by simp) (by simp)

omit [DecidableEq C] in
theorem Membership.pop (membership : Membership node) (id : Nat) : Membership (node.popAuthApplication id).2 := by
  refine ⟨membership.both, fun key is other application found => ?_⟩
  have found : (node.pending.erase id).lookup other = some application := found
  rw [Table.lookup_erase_eq] at found
  split at found
  · cases found
  · exact membership.current key is other application found

/-- Outside a cluster an application may have any key, inside it has that of the cluster. -/
theorem Membership.peerConnect (membership : Membership node) (socket : Node.Socket C) {application : Application C}
    (fits : ∀ key, node.clusterKey = some key → application.key = key) :
    Membership (node.peerConnect socket application) := by
  refine ⟨membership.both, fun key is other found lookup => ?_⟩
  have lookup : (node.pending.insertNew (node.nextId, application)).lookup other = some found := lookup
  unfold Table.insertNew at lookup
  split at lookup
  · exact membership.current key is other found lookup
  · rw [Table.lookup_insert_eq] at lookup
    split at lookup
    · cases lookup
      exact fits key is
    · exact membership.current key is other found lookup

theorem peerConnectAll_clusterKey (connect : Nat → Str × UInt16 → Option (Node.Socket C)) (application : Application C)
    (addresses : List (Str × UInt16)) (node : Node C) :
    (Node.peerConnectAll connect application addresses node).clusterKey = node.clusterKey := by
  induction addresses generalizing node with
  | nil => rfl
  | cons addr rest ih =>
    unfold Node.peerConnectAll
    split
    · rfl
    · exact ih _

theorem Membership.peerConnectAll (connect : Nat → Str × UInt16 → Option (Node.Socket C)) {application : Application C}
    (addresses : List (Str × UInt16)) {node : Node C} (membership : Membership node)
    (fits : ∀ key, node.clusterKey = some key → application.key = key) :
    Membership (Node.peerConnectAll connect application addresses node) := by
  induction addresses generalizing node with
  | nil => exact membership
  | cons addr rest ih =>
    unfold Node.peerConnectAll
    split
    · exact membership
    · rename_i socket _
      exact ih (membership.peerConnect socket fits) fits

omit [DecidableEq C] in
theorem membership_setClusterInfo (node : Node C) (random key id : Str) : Membership (node.setClusterInfo random key id) := by
  refine ⟨rfl, fun _ _ other application found => ?_⟩
  have found : (∅ : Table Nat (Application C)).lookup other = some application := found
  rw [Finmap.lookup_empty] at found
  cases found

theorem recordId_clusterKey (membership : Membership node) (random : Str) (client : C) (session : PeerData) (data : Str)
    {application : Application C} (fits : ∀ key, node.clusterKey = some key → application.key = key) :
    Membership (node.recordId random client session data application) ∧
      (node.recordId random client session data application).clusterKey = some application.key := by
  unfold Node.recordId
  dsimp only
  split
  · rename_i inside
    obtain ⟨key, is⟩ := Option.isSome_iff_exists.mp inside
    have is : node.clusterKey = some key := is
    refine ⟨membership.of_same rfl rfl rfl, ?_⟩
    rw [fits key is]
    exact is
  · have set := membership_setClusterInfo
      { node with sessions := node.sessions.insert client { session with id := some data } } random application.key
      application.ownId
    exact ⟨set.of_same rfl rfl rfl, rfl⟩

omit [DecidableEq C] in
theorem popped_fits (membership : Membership node) {id : Nat} {application : Application C}
    (found : node.pending.lookup id = some application) :
    ∀ key, (node.popAuthApplication id).2.clusterKey = some key → application.key = key :=
  fun key is => membership.current key is id application found

theorem replyRequestPeerAuth_membership (membership : Membership node) (random : Str) (client : C) (id : Nat)
    (data : Str) : Membership (node.replyRequestPeerAuth random client id data) := by
  unfold Node.replyRequestPeerAuth
  cases found : node.pending.lookup id with
  | none =>
    simp only [Node.popAuthApplication, found]
    exact membership.removePeer client
  | some application =>
    have popped := membership.pop id
    have fits := popped_fits membership found
    simp only [Node.popAuthApplication, found] at popped fits ⊢
    split
    · exact popped
    · exact (recordId_clusterKey popped random client _ data fits).1

theorem replyRedirectRequestPeerAuth_membership (membership : Membership node) (client : C) (id : Nat) (addr : Str)
    (connect : Str × UInt16 → Option (Node.Socket C)) :
    Membership (node.replyRedirectRequestPeerAuth client id addr connect) := by
  have popped := (membership.removePeer client).pop id
  unfold Node.replyRedirectRequestPeerAuth
  cases found : (node.removePeer client).pending.lookup id with
  | none =>
    simp only [Node.popAuthApplication, found] at popped ⊢
    exact popped
  | some application =>
    have fits := popped_fits (membership.removePeer client) found
    simp only [Node.popAuthApplication, found] at popped fits ⊢
    split
    · exact popped
    · split
      · exact popped
      · exact popped.peerConnect _ fits

theorem replyRequestPeers_membership (membership : Membership node) (ownPeerAddr : Str) (order : Order Str)
    (connect : Nat → Str × UInt16 → Option (Node.Socket C)) (peers : Finset Str) :
    Membership (node.replyRequestPeers ownPeerAddr order connect peers) := by
  unfold Node.replyRequestPeers
  split
  · rename_i key id is _
    split
    · exact membership
    · refine membership.peerConnectAll connect _ fun current same => ?_
      rw [is] at same
      exact Option.some.inj same
  · exact membership

theorem handle_membership (event : Event C) (membership : Membership node) : Membership (event.handle node) := by
  cases event with
  | clusterNew random key id =>
    simp only [Event.handle, Node.requestClusterNew]
    split
    · exact membership
    · split
      · exact membership
      · split
        · exact membership
        · exact membership_setClusterInfo node random key id
  | clusterJoin random key id socket client =>
    simp only [Event.handle, Node.requestClusterJoin]
    split
    · exact membership
    · rename_i outside
      split
      · exact membership
      · split
        · exact membership
        · refine membership.peerConnect _ fun current is => ?_
          simp [Node.inCluster, is] at outside
  | clusterLeave =>
    simp only [Event.handle, Node.requestClusterLeave]
    split
    · exact membership
    · exact ⟨rfl, fun key is => by cases is⟩
  | peerAuth client onClusterPort ownPeerAddr key addr peerId =>
    simp only [Event.handle, Node.requestPeerAuth]
    split
    · exact membership.of_same rfl rfl rfl
    · split
      · exact membership.of_same rfl rfl rfl
      · split
        · exact membership.of_same rfl rfl rfl
        · exact membership.of_same rfl rfl rfl
  | okPeerAuth random client id data => exact replyRequestPeerAuth_membership membership random client id data
  | deniedPeerAuth client id => exact (membership.removePeer client).pop id
  | redirectPeerAuth client id addr connect =>
    exact replyRedirectRequestPeerAuth_membership membership client id addr connect
  | okPeers ownPeerAddr order connect peers =>
    exact replyRequestPeers_membership membership ownPeerAddr order connect peers

/-! ### The key -/

theorem replyRequestPeerAuth_clusterKey (membership : Membership node) (random : Str) {client : C} {id : Nat}
    (data : Str) {application : Application C} (found : node.pending.lookup id = some application)
    (peer : client ∈ node.sessions) :
    (node.replyRequestPeerAuth random client id data).clusterKey = some application.key := by
  obtain ⟨session, known⟩ := Finmap.mem_iff.mp peer
  have popped := membership.pop id
  have fits := popped_fits membership found
  unfold Node.replyRequestPeerAuth
  simp only [Node.popAuthApplication, found, known] at popped fits ⊢
  exact (recordId_clusterKey popped random client session data fits).2

theorem replyRequestPeerAuth_kept {key : Str} (is : node.clusterKey = some key) (random : Str) (client : C) (id : Nat)
    (data : Str) : (node.replyRequestPeerAuth random client id data).clusterKey = some key := by
  unfold Node.replyRequestPeerAuth
  cases found : node.pending.lookup id with
  | none => simpa [Node.popAuthApplication, found] using is
  | some application =>
    simp only [Node.popAuthApplication, found]
    split
    · exact is
    · simp [Node.recordId, Node.inCluster, is]

theorem replyRedirectRequestPeerAuth_clusterKey (client : C) (id : Nat) (addr : Str)
    (connect : Str × UInt16 → Option (Node.Socket C)) :
    (node.replyRedirectRequestPeerAuth client id addr connect).clusterKey = node.clusterKey := by
  unfold Node.replyRedirectRequestPeerAuth
  split
  · rename_i popped
    obtain ⟨_, rfl⟩ := Prod.mk.inj popped
    simp
  · rename_i popped
    obtain ⟨_, rfl⟩ := Prod.mk.inj popped
    split
    · simp
    · split
      · simp
      · exact removePeer_clusterKey client

theorem handle_kept (event : Event C) {key : Str} (is : node.clusterKey = some key) (stays : event ≠ .clusterLeave) :
    (event.handle node).clusterKey = some key := by
  have inside : node.inCluster = true := by simp [Node.inCluster, is]
  cases event with
  | clusterNew random key id => simpa [Event.handle, Node.requestClusterNew, inside] using is
  | clusterJoin random key id socket client => simpa [Event.handle, Node.requestClusterJoin, inside] using is
  | clusterLeave => exact absurd rfl stays
  | peerAuth client onClusterPort ownPeerAddr key addr peerId =>
    simp only [Event.handle, Node.requestPeerAuth]
    split
    · exact is
    · split
      · exact is
      · split
        · exact is
        · exact is
  | okPeerAuth random client id data => exact replyRequestPeerAuth_kept is random client id data
  | deniedPeerAuth client id => simpa [Event.handle, Node.replyDeniedRequestPeerAuth, Node.popAuthApplication] using is
  | redirectPeerAuth client id addr connect =>
    rw [Event.handle, replyRedirectRequestPeerAuth_clusterKey, is]
  | okPeers ownPeerAddr order connect peers =>
    simp only [Event.handle, Node.replyRequestPeers]
    split
    · split
      · exact is
      · rw [peerConnectAll_clusterKey, is]
    · exact is

theorem handle_keepsKey (event : Event C) (membership : Membership node) : KeepsKey node event where
  kept key is changes := by
    by_contra stays
    exact changes (handle_kept event is stays)
  left leaves inside := by
    subst leaves
    simp [Event.handle, Node.requestClusterLeave, inside, Node.leaveCluster, Node.clearAuthApplications, Node.clearPeers]
  refused leaves outside := by
    subst leaves
    simp [Event.handle, Node.requestClusterLeave, outside]
  recorded random client id data application is found peer := by
    subst is
    exact replyRequestPeerAuth_clusterKey membership random data found peer

/-- In whatever order a node gets requests, applications and replies, its key and its id come and go
together, its applications have its key, and the key changes only when the node leaves. -/
theorem membership_invariant (run : List (Event C)) :
    EachState eventStep Membership run {} ∧ EachStep eventStep KeepsKey run {} := by
  have preserved : ∀ (node : Node C) event after, Membership node → eventStep node event = some after → Membership after := by
    intro node event after membership taken
    cases taken
    exact handle_membership event membership
  have start : Membership ({} : Node C) := ⟨rfl, fun key is => by cases is⟩
  exact ⟨eachState_of_always preserved (fun _ membership => membership) start,
    eachStep_of_always preserved (fun _ event membership => handle_keepsKey event membership) start⟩

end

end Vanity.Cluster
