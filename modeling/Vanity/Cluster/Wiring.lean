import Vanity.Cluster.Joining

/-!
# How a network is wired

What the connections of a network and the tables of its nodes have to do with each other. It is kept when a
message is handled, and with it that is a step of the mesh.
-/

namespace Vanity.Cluster

open Db (Str)
open Request

theorem Address.text_injective : Function.Injective Address.text := by
  intro first second same
  have one := unmakeAddress_make first.host first.valid
  have two := unmakeAddress_make second.host second.valid
  have text : makeAddress first.host first.port = makeAddress second.host second.port := same
  rw [text, two] at one
  cases first
  cases second
  obtain ⟨rfl, rfl⟩ := Prod.mk.inj (Option.some.inj one)
  rfl

/-! ### Connections and tables -/

namespace Connection

/-- The id of the application that is on its way, or of the reply to it. -/
def authId (connection : Connection) : Option Nat :=
  match connection.toTarget, connection.toOpener with
  | .peerAuth id .. :: _, _ => some id
  | [], (id, .denied _) :: _ => some id
  | [], (id, .okPeerAuth _) :: _ => some id
  | _, _ => none

/-- What can be on its way on a connection: at most one message. -/
inductive Shaped (key : Str) : Connection → Prop
  | applied (opener target : Address) (id : Nat) (peerId : Str) :
    Shaped key ⟨opener, target, [.peerAuth id key opener.text peerId], []⟩
  | denied (opener target : Address) (id : Nat) : Shaped key ⟨opener, target, [], [(id, .denied .peerAuth)]⟩
  | admitted (opener target : Address) (id : Nat) (data : Str) :
    Shaped key ⟨opener, target, [], [(id, .okPeerAuth data)]⟩
  | asking (opener target : Address) (id : Nat) : Shaped key ⟨opener, target, [.peers id], []⟩
  | told (opener target : Address) (id : Nat) (peers : Finset Str) (nodes : ∀ addr ∈ peers, ∃ y : Address, addr = y.text) :
    Shaped key ⟨opener, target, [], [(id, .okPeers peers)]⟩
  | quiet (opener target : Address) : Shaped key ⟨opener, target, [], []⟩

end Connection

namespace Network

/-- A connection and the two nodes it connects. -/
structure Line (key : Str) (net : Network) (i : Nat) (connection : Connection) : Prop where
  shaped : connection.Shaped key
  named : ((net.node connection.opener).sessions.lookup (.opened i)).map PeerData.addr = some connection.target.text
  kept : connection.stage false ≠ .gone → .opened i ∈ (net.node connection.opener).peers
  taken : (net.link i connection).stage.taken = true ↔ .accepted i ∈ (net.node connection.target).peers
  accepted : .accepted i ∈ (net.node connection.target).peers →
    ((net.node connection.target).sessions.lookup (.accepted i)).map PeerData.addr = some connection.opener.text
  applied : ∀ id, connection.authId = some id →
    ∃ application, (net.node connection.opener).pending.lookup id = some application ∧ application.key = key

structure Sound (founder : Address) (key : Str) (started : Finset Address) (x : Address) (node : Node TcpClient) : Prop where
  fresh : ∀ id, id ∈ node.pending → id < node.nextId
  keys : ∀ own, node.clusterKey = some own → own = key
  both : node.clusterKey.isSome = node.clusterId.isSome
  started : node.inCluster = true → x = founder ∨ x ∈ started

structure Wired (founder : Address) (key : Str) (net : Network) : Prop where
  lines : ∀ (i : Nat) (connection : Connection), net.connections[i]? = some connection → Line key net i connection
  owned : ∀ x client, client ∈ (net.node x).peers → ∃ i connection, net.connections[i]? = some connection ∧
    ((client = .opened i ∧ connection.opener = x) ∨ (client = .accepted i ∧ connection.target = x))
  distinct : ∀ (i j : Nat) (a b : Connection) (id : Nat), net.connections[i]? = some a → net.connections[j]? = some b →
    a.opener = b.opener → a.authId = some id → b.authId = some id → i = j
  nodes : ∀ x, Sound founder key net.started x (net.node x)

end Network

/-- A node that has changed has the same to say about a client. -/
structure Agrees (old new : Node TcpClient) (client : TcpClient) : Prop where
  peers : client ∈ new.peers ↔ client ∈ old.peers
  sessions : new.sessions.lookup client = old.sessions.lookup client

variable {founder : Address} {key : Str} {net : Network} {i : Nat} {connection : Connection}

theorem empty_wired : Network.Wired founder key {} where
  lines i connection here := by cases here
  owned x client member := absurd member (Finset.notMem_empty _)
  distinct i j a b id here := by cases here
  nodes x :=
    { fresh := fun id member => absurd member Finmap.notMem_empty
      keys := fun own is => by cases is
      both := rfl
      started := fun inside => by cases inside }

/-! ### What the mesh says of a network -/

theorem mesh_getElem? (i : Nat) :
    (net.mesh founder).links[i]? = (net.connections[i]?).map (net.link i) := List.getElem?_mapIdx

theorem mem_mesh_links {link : Link Str} :
    link ∈ (net.mesh founder).links ↔ ∃ i connection, net.connections[i]? = some connection ∧ link = net.link i connection := by
  rw [List.mem_iff_getElem?]
  constructor
  · rintro ⟨i, here⟩
    rw [mesh_getElem?] at here
    obtain ⟨connection, found, rfl⟩ := Option.map_eq_some_iff.mp here
    exact ⟨i, connection, found, rfl⟩
  · rintro ⟨i, connection, found, rfl⟩
    exact ⟨i, by rw [mesh_getElem?, found]; rfl⟩

theorem stage_gone_iff (line : net.Line key i connection) :
    (net.link i connection).stage ≠ .gone ↔ .opened i ∈ (net.node connection.opener).peers := by
  have kept := line.kept
  unfold Network.link Network.kept
  cases line.shaped with
  | quiet opener target =>
    by_cases member : TcpClient.opened i ∈ (net.node opener).peers
    · simp [Connection.stage, member]
    · simp [Connection.stage, member]
  | _ => simpa [Connection.stage] using kept

section
variable (wired : net.Wired founder key)

include wired

theorem mem_members {x : Address} : x.text ∈ (net.mesh founder).members ↔ (net.node x).inCluster = true := by
  simp only [Network.mesh, Network.members, Finset.mem_image, Finset.mem_filter, Finset.mem_insert]
  constructor
  · rintro ⟨y, ⟨_, inside⟩, same⟩
    obtain rfl := Address.text_injective same
    exact inside
  · exact fun inside => ⟨x, ⟨(wired.nodes x).started inside, inside⟩, rfl⟩

theorem mem_members_iff {addr : Str} :
    addr ∈ (net.mesh founder).members ↔ ∃ y, (net.node y).inCluster = true ∧ y.text = addr := by
  constructor
  · intro member
    obtain ⟨y, _, rfl⟩ := Finset.mem_image.mp member
    exact ⟨y, (mem_members wired).mp member, rfl⟩
  · rintro ⟨y, inside, rfl⟩
    exact (mem_members wired).mpr inside

theorem inCluster_iff {x : Address} : (net.node x).inCluster = true ↔ (net.node x).clusterKey = some key := by
  unfold Node.inCluster
  constructor
  · intro inside
    obtain ⟨own, is⟩ := Option.isSome_iff_exists.mp inside
    rw [is, (wired.nodes x).keys own is]
  · intro is
    rw [is]
    rfl

omit wired in
theorem mem_peerAddresses {node : Node TcpClient} {addr : Str} :
    addr ∈ node.peerAddresses ↔
      ∃ client ∈ node.peers, (node.sessions.lookup client).map PeerData.addr = some addr := by
  simp [Node.peerAddresses]

/-- The peers that a node lists are the nodes that it knows in the mesh. -/
theorem peerAddresses_known (x : Address) : (net.node x).peerAddresses = (net.mesh founder).known x.text := by
  ext addr
  rw [mem_peerAddresses, mem_known]
  constructor
  · rintro ⟨client, peer, named⟩
    obtain ⟨i, connection, here, ⟨rfl, rfl⟩ | ⟨rfl, rfl⟩⟩ := wired.owned x client peer
    · have line := wired.lines i connection here
      rw [line.named] at named
      refine .inl ⟨net.link i connection, mem_mesh_links.mpr ⟨i, connection, here, rfl⟩, rfl, Option.some.inj named, ?_⟩
      exact (stage_gone_iff line).mpr peer
    · have line := wired.lines i connection here
      rw [line.accepted peer] at named
      exact .inr ⟨net.link i connection, mem_mesh_links.mpr ⟨i, connection, here, rfl⟩, Option.some.inj named, rfl,
        line.taken.mpr peer⟩
  · rintro (⟨link, member, opener, target, stays⟩ | ⟨link, member, opener, target, taken⟩)
    · obtain ⟨i, connection, here, rfl⟩ := mem_mesh_links.mp member
      obtain rfl := Address.text_injective opener
      have line := wired.lines i connection here
      refine ⟨.opened i, (stage_gone_iff line).mp stays, ?_⟩
      rw [line.named]
      exact congrArg some target
    · obtain ⟨i, connection, here, rfl⟩ := mem_mesh_links.mp member
      obtain rfl := Address.text_injective target
      have line := wired.lines i connection here
      have peer := line.taken.mp taken
      refine ⟨.accepted i, peer, ?_⟩
      rw [line.accepted peer]
      exact congrArg some opener

omit wired in
/-- A node that is known is a node. -/
theorem known_node {x : Address} {addr : Str} (known : addr ∈ (net.mesh founder).known x.text) :
    ∃ y : Address, addr = y.text := by
  rcases mem_known.mp known with ⟨link, member, _, rfl, _⟩ | ⟨link, member, rfl, _⟩
  · obtain ⟨i, connection, _, rfl⟩ := mem_mesh_links.mp member
    exact ⟨connection.target, rfl⟩
  · obtain ⟨i, connection, _, rfl⟩ := mem_mesh_links.mp member
    exact ⟨connection.opener, rfl⟩

theorem converged_of_full (full : (net.mesh founder).Quiet → (net.mesh founder).Full) : net.Converged := by
  intro quiet x inside addr
  have silent : (net.mesh founder).Quiet := by
    intro link member
    obtain ⟨i, connection, here, rfl⟩ := mem_mesh_links.mp member
    obtain ⟨post, reply⟩ := quiet connection (List.mem_of_getElem? here)
    simp only [Network.link, Connection.stage, post, reply]
    split <;> rfl
  rw [peerAddresses_known wired x, full silent x.text ((mem_members wired).mpr inside), Finset.mem_erase]
  constructor
  · rintro ⟨different, member⟩
    obtain ⟨y, inside, rfl⟩ := (mem_members_iff wired).mp member
    exact ⟨y, fun same => different (congrArg Address.text same), inside, rfl⟩
  · rintro ⟨y, different, member, rfl⟩
    exact ⟨fun same => different (Address.text_injective same), (mem_members wired).mpr member⟩

end

/-! ### Steps that touch one connection -/

/-- Only connection `i` and the tables' entries for it have changed. -/
structure Touches (net after : Network) (i : Nat) (changed : Connection) : Prop where
  ends : ∀ connection, net.connections[i]? = some connection →
    connection.opener = changed.opener ∧ connection.target = changed.target
  here : after.connections[i]? = some changed
  others : ∀ j, j ≠ i → after.connections[j]? = net.connections[j]?
  agrees : ∀ y client, client ≠ .opened i → client ≠ .accepted i → Agrees (net.node y) (after.node y) client
  only : ∀ y client, client ∈ (after.node y).peers → client ∈ (net.node y).peers ∨
    (client = .opened i ∧ changed.opener = y) ∨ (client = .accepted i ∧ changed.target = y)
  pending : ∀ (j : Nat) (connection : Connection) id application, j ≠ i → net.connections[j]? = some connection →
    connection.authId = some id → (net.node connection.opener).pending.lookup id = some application →
    (after.node connection.opener).pending.lookup id = some application
  distinct : ∀ (j : Nat) (connection : Connection) id, j ≠ i → net.connections[j]? = some connection →
    connection.opener = changed.opener → connection.authId = some id → changed.authId ≠ some id

variable {after : Network} {changed : Connection}

theorem link_eq (agrees : Agrees (net.node connection.opener) (after.node connection.opener) (.opened i)) :
    after.link i connection = net.link i connection := by
  simp only [Network.link, Network.kept, agrees.peers]

/-- A connection that was left alone, between nodes whose entries for it are the same. -/
theorem Network.Line.frame (line : net.Line key i connection)
    (opener : Agrees (net.node connection.opener) (after.node connection.opener) (.opened i))
    (target : Agrees (net.node connection.target) (after.node connection.target) (.accepted i))
    (pending : ∀ id application, connection.authId = some id →
      (net.node connection.opener).pending.lookup id = some application →
      (after.node connection.opener).pending.lookup id = some application) : after.Line key i connection := by
  refine ⟨line.shaped, ?_, ?_, ?_, ?_, ?_⟩
  · rw [opener.sessions]
    exact line.named
  · rw [opener.peers]
    exact line.kept
  · rw [link_eq opener, target.peers]
    exact line.taken
  · rw [target.sessions, target.peers]
    exact line.accepted
  · intro id applied
    obtain ⟨application, found, same⟩ := line.applied id applied
    exact ⟨application, pending id application applied found, same⟩

namespace Touches

variable (touches : Touches net after i changed)

include touches

theorem opened {j : Nat} (other : j ≠ i) (y : Address) : Agrees (net.node y) (after.node y) (.opened j) :=
  touches.agrees y _ (fun same => other (TcpClient.opened.inj same)) (fun same => by cases same)

theorem accepted {j : Nat} (other : j ≠ i) (y : Address) : Agrees (net.node y) (after.node y) (.accepted j) :=
  touches.agrees y _ (fun same => by cases same) (fun same => other (TcpClient.accepted.inj same))

theorem line {j : Nat} (other : j ≠ i) (there : net.connections[j]? = some connection)
    (line : net.Line key j connection) : after.Line key j connection :=
  line.frame (touches.opened other connection.opener) (touches.accepted other connection.target)
    fun id application applied found => touches.pending j connection id application other there applied found

theorem wired (wired : net.Wired founder key) (line : after.Line key i changed)
    (nodes : ∀ x, Network.Sound founder key after.started x (after.node x)) : after.Wired founder key := by
  refine ⟨?_, ?_, ?_, nodes⟩
  · intro j connection there
    by_cases same : j = i
    · subst same
      rw [touches.here] at there
      cases there
      exact line
    · rw [touches.others j same] at there
      exact touches.line same there (wired.lines j connection there)
  · intro x client member
    rcases touches.only x client member with old | new
    · obtain ⟨j, connection, there, ends⟩ := wired.owned x client old
      by_cases same : j = i
      · subst same
        obtain ⟨opener, target⟩ := touches.ends connection there
        rw [opener, target] at ends
        exact ⟨j, changed, touches.here, ends⟩
      · exact ⟨j, connection, by rw [touches.others j same, there], ends⟩
    · exact ⟨i, changed, touches.here, new⟩
  · intro j k a b id first second opener one two
    by_cases same : j = i
    · subst same
      rw [touches.here] at first
      cases first
      by_contra different
      rw [touches.others k (Ne.symm different)] at second
      exact touches.distinct k b id (Ne.symm different) second opener.symm two one
    · rw [touches.others j same] at first
      by_cases last : k = i
      · subst last
        rw [touches.here] at second
        cases second
        exact absurd two (touches.distinct j a id same first opener one)
      · rw [touches.others k last] at second
        exact wired.distinct j k a b id first second opener one two

theorem links_set (there : net.connections[i]? = some connection) :
    (after.mesh founder).links = (net.mesh founder).links.set i (after.link i changed) := by
  refine List.ext_getElem? fun j => ?_
  rw [mesh_getElem?]
  by_cases same : j = i
  · subst same
    have short : j < (net.mesh founder).links.length := by
      have found : (net.mesh founder).links[j]? = some (net.link j connection) := by rw [mesh_getElem?, there]; rfl
      exact (List.getElem?_eq_some_iff.mp found).1
    rw [List.getElem?_set_self short, touches.here]
    rfl
  · rw [List.getElem?_set_ne (Ne.symm same), mesh_getElem?, touches.others j same]
    cases other : net.connections[j]? with
    | none => rfl
    | some connection => exact congrArg some (link_eq (touches.opened same connection.opener))

end Touches

/-! ### Changes of a node -/

variable {x : Address} {node : Node TcpClient} {client : TcpClient}

theorem setNode_keeps {A : Type} (field : Node TcpClient → A) (same : field node = field (net.node x)) (y : Address) :
    field ((net.setNode x node).node y) = field (net.node y) :=
  setNode_forall (P := fun y node => field node = field (net.node y)) same (fun _ => rfl) y

theorem Agrees.refl (node : Node TcpClient) (client : TcpClient) : Agrees node node client := ⟨Iff.rfl, rfl⟩

theorem agrees_setNode (agrees : Agrees (net.node x) node client) (y : Address) :
    Agrees (net.node y) ((net.setNode x node).node y) client :=
  setNode_forall (P := fun y node => Agrees (net.node y) node client) agrees (fun _ => .refl _ _) y

theorem agrees_registerPeer {other : TcpClient} (different : other ≠ client) (addr : Str) (peerId : Option Str) :
    Agrees node (node.registerPeer client addr peerId) other where
  peers := by simp [Node.registerPeer, different]
  sessions := Finmap.lookup_insert_of_ne _ different

theorem agrees_removePeer {other : TcpClient} (different : other ≠ client) : Agrees node (node.removePeer client) other := by
  unfold Node.removePeer Node.forgetPeer
  split
  · exact ⟨by simp [different], rfl⟩
  · exact ⟨Iff.rfl, rfl⟩

section
variable {started : Finset Address} (sound : Network.Sound founder key started x node)

include sound

theorem sound_of_same {other : Node TcpClient} (pending : other.pending = node.pending) (next : other.nextId = node.nextId)
    (own : other.clusterKey = node.clusterKey) (id : other.clusterId = node.clusterId) :
    Network.Sound founder key started x other := by
  refine ⟨?_, ?_, ?_, ?_⟩
  · rw [pending, next]
    exact sound.fresh
  · rw [own]
    exact sound.keys
  · rw [own, id]
    exact sound.both
  · rw [Node.inCluster, own]
    exact sound.started

theorem sound_pop (id : Nat) : Network.Sound founder key started x (node.popAuthApplication id).2 :=
  ⟨fun other member => sound.fresh other (Finmap.mem_erase.mp member).2, sound.keys, sound.both, sound.started⟩

theorem sound_removePeer : Network.Sound founder key started x (node.removePeer client) := by
  refine sound_of_same sound (by simp) ?_ (by simp) (by simp)
  unfold Node.removePeer Node.forgetPeer
  split <;> rfl

end

section
variable (wired : net.Wired founder key) (there : net.connections[i]? = some connection)

include wired there

/-- A change of one node, and of a connection on which no other application comes up. -/
theorem touches_change (ends : connection.opener = changed.opener ∧ connection.target = changed.target)
    (agrees : ∀ client, client ≠ .opened i → client ≠ .accepted i → Agrees (net.node x) node client)
    (only : ∀ client ∈ node.peers, client ∈ (net.node x).peers ∨
      (client = .opened i ∧ changed.opener = x) ∨ (client = .accepted i ∧ changed.target = x))
    (pending : ∀ (j : Nat) (other : Connection) id application, j ≠ i → net.connections[j]? = some other → other.opener = x →
      other.authId = some id → (net.node x).pending.lookup id = some application → node.pending.lookup id = some application)
    (auth : ∀ id, changed.authId = some id → connection.authId = some id) :
    Touches net ((net.setNode x node).setConnection i changed) i changed where
  ends other found := by
    rw [there] at found
    cases found
    exact ends
  here := List.getElem?_set_self (List.getElem?_eq_some_iff.mp there).1
  others j different := List.getElem?_set_ne (Ne.symm different)
  agrees y client one two := agrees_setNode (agrees client one two) y
  only := by
    refine setNode_forall (P := fun y node => ∀ client ∈ node.peers, client ∈ (net.node y).peers ∨
      (client = .opened i ∧ changed.opener = y) ∨ (client = .accepted i ∧ changed.target = y)) only ?_
    exact fun y client member => .inl member
  pending j other id application different found applied lookup := by
    by_cases same : other.opener = x
    · have first : (net.node x).pending.lookup id = some application := same ▸ lookup
      have later := pending j other id application different found same applied first
      rw [same, setConnection_node, setNode_self]
      exact later
    · rw [setConnection_node, setNode_other same]
      exact lookup
  distinct j other id different found opener applied again :=
    different (wired.distinct j i other connection id found there (opener.trans ends.1.symm) applied (auth id again))

/-- A change of one node that keeps its applications. -/
theorem touches_keeping (ends : connection.opener = changed.opener ∧ connection.target = changed.target)
    (agrees : ∀ client, client ≠ .opened i → client ≠ .accepted i → Agrees (net.node x) node client)
    (only : ∀ client ∈ node.peers, client ∈ (net.node x).peers ∨
      (client = .opened i ∧ changed.opener = x) ∨ (client = .accepted i ∧ changed.target = x))
    (kept : node.pending = (net.node x).pending) (auth : ∀ id, changed.authId = some id → connection.authId = some id) :
    Touches net ((net.setNode x node).setConnection i changed) i changed := by
  refine touches_change wired there ends agrees only ?_ auth
  intro j other id application _ _ _ _ lookup
  rw [kept]
  exact lookup

end

/-! ### Posts -/

section
variable (wired : net.Wired founder key)

include wired

theorem members_of_same (wired' : after.Wired founder key) (same : ∀ y, (after.node y).inCluster = (net.node y).inCluster) :
    (after.mesh founder).members = (net.mesh founder).members := by
  ext addr
  rw [mem_members_iff wired', mem_members_iff wired]
  simp only [same]

omit wired in
/-- A step of the mesh in which nothing is opened. -/
theorem step_of_touches (touches : Touches net after i changed) (there : net.connections[i]? = some connection)
    (next : (net.mesh founder).next (net.link i connection) = some (after.link i changed).stage)
    (untold : (net.mesh founder).unknown (net.link i connection) = ∅)
    (members : (after.mesh founder).members = (net.mesh founder).admits (net.link i connection))
    (started : after.started = net.started) :
    (net.mesh founder).step founder.text (.handle i []) = some (after.mesh founder) := by
  have found : (net.mesh founder).links[i]? = some (net.link i connection) := by rw [mesh_getElem?, there]; rfl
  obtain ⟨opener, target⟩ := touches.ends connection there
  have moved : after.link i changed = { net.link i connection with stage := (after.link i changed).stage } := by
    simp [Network.link, opener, target]
  simp only [Mesh.step, found, next, Option.bind_some, untold, List.toFinset_nil, if_true, List.map_nil, List.append_nil]
  rw [← moved, ← touches.links_set there, ← members]
  simp [Network.mesh, started]

theorem requestPeerAuth_member (inside : (net.node x).inCluster = true) (client : TcpClient) (own addr peerId : Str) :
    ∃ ownId, (net.node x).requestPeerAuth client true own key addr peerId =
      ((net.node x).registerPeer client addr (some peerId), .okPeerAuth ownId) := by
  have is := (inCluster_iff wired).mp inside
  have both := (wired.nodes x).both
  rw [is] at both
  obtain ⟨ownId, named⟩ := Option.isSome_iff_exists.mp both.symm
  exact ⟨ownId, by simp [Node.requestPeerAuth, Node.authenticateClusterKey, is, named]⟩

theorem requestPeerAuth_stranger (outside : (net.node x).inCluster = false) (client : TcpClient) (own addr peerId : Str) :
    (net.node x).requestPeerAuth client true own key addr peerId =
      ({ net.node x with closed := insert client (net.node x).closed }, .denied .peerAuth) := by
  have other : (net.node x).clusterKey ≠ some key := by
    intro is
    rw [(inCluster_iff wired).mpr is] at outside
    cases outside
  simp [Node.requestPeerAuth, Node.authenticateClusterKey, other]

/-- A message that is handled, and makes no new member. -/
theorem advances (there : net.connections[i]? = some connection)
    (touches : Touches net ((net.setNode x node).setConnection i changed) i changed)
    (line : ((net.setNode x node).setConnection i changed).Line key i changed)
    (sound : Network.Sound founder key net.started x node) (same : node.inCluster = (net.node x).inCluster)
    (next : (net.mesh founder).next (net.link i connection) =
      some (((net.setNode x node).setConnection i changed).link i changed).stage)
    (untold : (net.mesh founder).unknown (net.link i connection) = ∅)
    (plain : (net.mesh founder).admits (net.link i connection) = (net.mesh founder).members) :
    ((net.setNode x node).setConnection i changed).Wired founder key ∧
      (net.mesh founder).step founder.text (.handle i []) =
        some (((net.setNode x node).setConnection i changed).mesh founder) := by
  have wired' := touches.wired wired line (setNode_forall (P := Network.Sound founder key net.started) sound wired.nodes)
  refine ⟨wired', step_of_touches touches there next untold ?_ rfl⟩
  rw [plain]
  exact members_of_same wired wired' (setNode_keeps Node.inCluster same)

section
variable {opener target : Address} {id : Nat} {peerId : Str}
  (there : net.connections[i]? = some ⟨opener, target, [.peerAuth id key opener.text peerId], []⟩)

include there

theorem requestPeerAuth_taken (inside : (net.node target).inCluster = true) (ownId : Str) :
    let after := (net.setNode target ((net.node target).registerPeer (.accepted i) opener.text (some peerId))).setConnection i
      ⟨opener, target, [], [(id, .okPeerAuth ownId)]⟩
    after.Wired founder key ∧ (net.mesh founder).step founder.text (.handle i []) = some (after.mesh founder) := by
  intro after
  have line := wired.lines i _ there
  have agrees : ∀ client, client ≠ .accepted i →
      Agrees (net.node target) ((net.node target).registerPeer (.accepted i) opener.text (some peerId)) client :=
    fun client different => agrees_registerPeer different _ _
  have touches : Touches net after i ⟨opener, target, [], [(id, .okPeerAuth ownId)]⟩ := by
    refine touches_keeping wired there ⟨rfl, rfl⟩ (fun client _ => agrees client) ?_ rfl fun _ applied => applied
    intro client member
    rcases Finset.mem_insert.mp member with rfl | old
    · exact .inr (.inr ⟨rfl, rfl⟩)
    · exact .inl old
  have opened : Agrees (net.node opener) (after.node opener) (.opened i) := agrees_setNode (agrees _ (by simp)) opener
  have registered : after.node target = (net.node target).registerPeer (.accepted i) opener.text (some peerId) := setNode_self
  have pending : (after.node opener).pending = (net.node opener).pending := setNode_keeps Node.pending (by rfl) opener
  refine advances wired there touches ⟨.admitted .., ?_, ?_, ?_, ?_, ?_⟩ ?_ rfl ?_ rfl rfl
  · rw [opened.sessions]
    exact line.named
  · intro _
    rw [opened.peers]
    exact line.kept (by simp [Connection.stage])
  · rw [registered]
    simp [Network.link, Connection.stage, Stage.taken, Node.registerPeer]
  · rw [registered]
    simp [Node.registerPeer]
  · rw [pending]
    exact line.applied
  · exact sound_of_same (wired.nodes target) rfl rfl rfl rfl
  · exact congrArg some (if_pos ((mem_members wired).mpr inside))

theorem requestPeerAuth_denied (outside : (net.node target).inCluster = false) :
    let after := (net.setNode target
      { net.node target with closed := insert (.accepted i) (net.node target).closed }).setConnection i
        ⟨opener, target, [], [(id, .denied .peerAuth)]⟩
    after.Wired founder key ∧ (net.mesh founder).step founder.text (.handle i []) = some (after.mesh founder) := by
  intro after
  have line := wired.lines i _ there
  have agrees : ∀ client, Agrees (net.node target)
      { net.node target with closed := insert (.accepted i) (net.node target).closed } client := fun client => ⟨Iff.rfl, rfl⟩
  have touches : Touches net after i ⟨opener, target, [], [(id, .denied .peerAuth)]⟩ := by
    refine touches_keeping wired there ⟨rfl, rfl⟩ (fun client _ _ => agrees client) ?_ ?_ ?_
    · exact fun client member => .inl member
    · rfl
    · exact fun _ applied => applied
  have opened : Agrees (net.node opener) (after.node opener) (.opened i) := agrees_setNode (agrees _) opener
  have accepted : Agrees (net.node target) (after.node target) (.accepted i) := agrees_setNode (agrees _) target
  have pending : (after.node opener).pending = (net.node opener).pending := setNode_keeps Node.pending (by rfl) opener
  refine advances wired there touches ⟨.denied .., ?_, ?_, ?_, ?_, ?_⟩ ?_ rfl ?_ rfl rfl
  · rw [opened.sessions]
    exact line.named
  · intro _
    rw [opened.peers]
    exact line.kept (by simp [Connection.stage])
  · rw [accepted.peers]
    exact line.taken
  · rw [accepted.sessions, accepted.peers]
    exact line.accepted
  · rw [pending]
    exact line.applied
  · exact sound_of_same (wired.nodes target) rfl rfl rfl rfl
  · refine congrArg some (if_neg fun member => ?_)
    rw [(mem_members wired).mp member] at outside
    cases outside

end

theorem postRequestPeers_told {opener target : Address} {id : Nat}
    (there : net.connections[i]? = some ⟨opener, target, [.peers id], []⟩) :
    let after := net.setConnection i ⟨opener, target, [], [(id, .okPeers (net.node target).peerAddresses)]⟩
    after.Wired founder key ∧ (net.mesh founder).step founder.text (.handle i []) = some (after.mesh founder) := by
  have line := wired.lines i _ there
  have touches : Touches net ((net.setNode target (net.node target)).setConnection i
      ⟨opener, target, [], [(id, .okPeers (net.node target).peerAddresses)]⟩) i
      ⟨opener, target, [], [(id, .okPeers (net.node target).peerAddresses)]⟩ := by
    refine touches_keeping wired there ⟨rfl, rfl⟩ (fun client _ _ => .refl _ _) ?_ ?_ ?_
    · exact fun client member => .inl member
    · rfl
    · exact fun _ applied => by cases applied
  have known := peerAddresses_known wired target
  have advanced := advances wired there touches
  rw [setNode_same] at advanced
  refine advanced ⟨.told _ _ _ _ ?_, line.named, fun _ => line.kept (by simp [Connection.stage]), line.taken, line.accepted, ?_⟩
    (wired.nodes target) rfl ?_ rfl rfl
  · intro addr listed
    rw [known] at listed
    exact known_node listed
  · intro other applied
    cases applied
  · exact congrArg (fun peers => some (Stage.told peers)) known.symm

/-- A post that is handled is a step of the mesh. -/
theorem handlePost_simulates (taken : net.handlePost i = some after) :
    after.Wired founder key ∧ (net.mesh founder).step founder.text (.handle i []) = some (after.mesh founder) := by
  obtain ⟨connection, there, taken⟩ := Option.bind_eq_some_iff.mp taken
  cases (wired.lines i connection there).shaped with
  | applied opener target id peerId =>
    cases taken
    cases inside : (net.node target).inCluster with
    | true =>
      obtain ⟨ownId, replied⟩ := requestPeerAuth_member wired inside (.accepted i) target.text opener.text peerId
      simp only [Network.requestPeerAuth, replied]
      exact requestPeerAuth_taken wired there inside ownId
    | false =>
      have replied := requestPeerAuth_stranger wired inside (.accepted i) target.text opener.text peerId
      simp only [Network.requestPeerAuth, replied]
      exact requestPeerAuth_denied wired there inside
  | asking opener target id =>
    cases taken
    exact postRequestPeers_told wired there
  | denied | admitted | told | quiet => cases taken

/-! ### Replies to applications -/

omit wired in
theorem removePeer_peers (peer : client ∈ node.sessions) : (node.removePeer client).peers = node.peers.erase client := by
  simp [Node.removePeer, Node.forgetPeer, peer]

omit wired in
theorem removePeer_sessions : (node.removePeer client).sessions = node.sessions := by
  unfold Node.removePeer Node.forgetPeer
  split <;> rfl

/-- An application that is no longer waited for is not that of another connection. -/
theorem pending_erase (there : net.connections[i]? = some connection) {id : Nat} (applied : connection.authId = some id)
    {j : Nat} {other : Connection} {otherId : Nat} (different : j ≠ i) (found : net.connections[j]? = some other)
    (opener : other.opener = connection.opener) (waits : other.authId = some otherId) {application : Application TcpClient}
    (pending : Table Nat (Application TcpClient)) (lookup : pending.lookup otherId = some application) :
    (pending.erase id).lookup otherId = some application := by
  rw [Finmap.lookup_erase_ne]
  · exact lookup
  · rintro rfl
    exact different (wired.distinct j i other connection otherId found there opener waits applied)

theorem named_session (there : net.connections[i]? = some connection) :
    ∃ session, (net.node connection.opener).sessions.lookup (.opened i) = some session ∧
      session.addr = connection.target.text :=
  Option.map_eq_some_iff.mp (wired.lines i connection there).named

theorem replyDeniedRequestPeerAuth_gone {opener target : Address} {id : Nat}
    (there : net.connections[i]? = some ⟨opener, target, [], [(id, .denied .peerAuth)]⟩) :
    let after := (net.setNode opener ((net.node opener).replyDeniedRequestPeerAuth (.opened i) id)).setConnection i
      ⟨opener, target, [], []⟩
    after.Wired founder key ∧ (net.mesh founder).step founder.text (.handle i []) = some (after.mesh founder) := by
  intro after
  have line := wired.lines i _ there
  obtain ⟨session, known, _⟩ := named_session wired there
  have peers : ((net.node opener).replyDeniedRequestPeerAuth (.opened i) id).peers = (net.node opener).peers.erase (.opened i) :=
    removePeer_peers (Finmap.mem_of_lookup_eq_some known)
  have agrees : ∀ client, client ≠ .opened i →
      Agrees (net.node opener) ((net.node opener).replyDeniedRequestPeerAuth (.opened i) id) client := by
    intro client different
    have removed : Agrees (net.node opener) ((net.node opener).removePeer (.opened i)) client := agrees_removePeer different
    exact ⟨removed.peers, removed.sessions⟩
  have touches : Touches net after i ⟨opener, target, [], []⟩ := by
    refine touches_change wired there ⟨rfl, rfl⟩ (fun client different _ => agrees client different) ?_ ?_ ?_
    · intro client member
      rw [peers] at member
      exact .inl (Finset.mem_of_mem_erase member)
    · intro j other otherId application different found same applied lookup
      refine pending_erase wired there rfl different found same applied _ ?_
      rw [removePeer_pending]
      exact lookup
    · exact fun _ applied => by cases applied
  have accepted : Agrees (net.node target) (after.node target) (.accepted i) := agrees_setNode (agrees _ (by simp)) target
  have sessions : (after.node opener).sessions = (net.node opener).sessions :=
    setNode_keeps Node.sessions (by exact removePeer_sessions) opener
  have gone : after.link i ⟨opener, target, [], []⟩ = ⟨opener.text, target.text, .gone⟩ := by
    have missing : TcpClient.opened i ∉ (after.node opener).peers := by
      show TcpClient.opened i ∉ ((net.setNode opener _).node opener).peers
      rw [setNode_self, peers]
      exact Finset.notMem_erase _ _
    simp [Network.link, Network.kept, Connection.stage, missing]
  refine advances wired there touches ⟨.quiet .., ?_, ?_, ?_, ?_, ?_⟩ ?_ ?_ ?_ rfl rfl
  · rw [sessions]
    exact line.named
  · intro busy
    exact absurd rfl busy
  · rw [gone, accepted.peers]
    exact line.taken
  · rw [accepted.sessions, accepted.peers]
    exact line.accepted
  · intro other applied
    cases applied
  · exact sound_pop (sound_removePeer (wired.nodes opener)) id
  · unfold Node.inCluster Node.replyDeniedRequestPeerAuth
    exact congrArg Option.isSome (removePeer_clusterKey _)
  · rw [gone]
    rfl

section
variable {session : PeerData} {application : Application TcpClient} {id : Nat} (random data : Str)
  (found : node.pending.lookup id = some application) (known : node.sessions.lookup client = some session)

include found known

omit wired in
theorem replyRequestPeerAuth_inside (inside : node.inCluster = true) :
    node.replyRequestPeerAuth random client id data =
      { node with
        pending := node.pending.erase id
        sessions := node.sessions.insert client { session with id := some data }
        nextId := node.nextId + 1 } := by
  unfold Node.inCluster at inside
  simp [Node.replyRequestPeerAuth, Node.popAuthApplication, found, known, Node.recordId, Node.inCluster, inside]

omit wired in
theorem replyRequestPeerAuth_outside (outside : node.inCluster = false) :
    ∃ ownId, node.replyRequestPeerAuth random client id data =
      { node with
        clusterKey := some application.key
        clusterId := some ownId
        pending := ∅
        sessions := node.sessions.insert client { session with id := some data }
        nextId := node.nextId + 1 } := by
  unfold Node.inCluster at outside
  simp [Node.replyRequestPeerAuth, Node.popAuthApplication, found, known, Node.recordId, Node.inCluster, outside,
    Node.setClusterInfo, Node.clearAuthApplications]

end

/-- A node that was taken is a member of the cluster, and what it has expected from others it still expects. -/
structure Admitted (key : Str) (connection : Connection) (i : Nat) (net : Network) (node : Node TcpClient) : Prop where
  peers : node.peers = (net.node connection.opener).peers
  sessions : ∃ session, session.addr = connection.target.text ∧
    node.sessions = (net.node connection.opener).sessions.insert (.opened i) session
  clusterKey : node.clusterKey = some key
  clusterId : node.clusterId.isSome = true
  fresh : ∀ other, other ∈ node.pending → other < node.nextId
  pending : ∀ (j : Nat) (other : Connection) otherId application, j ≠ i → net.connections[j]? = some other →
    other.opener = connection.opener → other.authId = some otherId →
    (net.node connection.opener).pending.lookup otherId = some application →
    node.pending.lookup otherId = some application

theorem replyRequestPeerAuth_admitted (inv : (net.mesh founder).Inv founder.text) {id : Nat}
    (there : net.connections[i]? = some connection) (applied : connection.authId = some id) (random data : Str) :
    Admitted key connection i net
      ((net.node connection.opener).replyRequestPeerAuth random (.opened i) id data) := by
  have line := wired.lines i _ there
  obtain ⟨application, found, own⟩ := line.applied id applied
  obtain ⟨session, known, named⟩ := named_session wired there
  have sound := wired.nodes connection.opener
  have less : ∀ other, other ∈ (net.node connection.opener).pending.erase id →
      other < (net.node connection.opener).nextId + 1 := by
    intro other member
    have before := sound.fresh other (Finmap.mem_erase.mp member).2
    omega
  cases inside : (net.node connection.opener).inCluster with
  | true =>
    rw [replyRequestPeerAuth_inside random data found known inside]
    have is := (inCluster_iff wired).mp inside
    refine ⟨rfl, ⟨{ session with id := some data }, named, rfl⟩, is, ?_, less, ?_⟩
    · have both := sound.both
      rw [is] at both
      exact both.symm
    · intro j other otherId waiting different there' opener waits lookup
      exact pending_erase wired there applied different there' opener waits _ lookup
  | false =>
    obtain ⟨ownId, admitted⟩ := replyRequestPeerAuth_outside random data found known inside
    rw [admitted]
    refine ⟨rfl, ⟨{ session with id := some data }, named, rfl⟩, by rw [own], rfl, ?_, ?_⟩
    · exact fun other member => absurd member Finmap.notMem_empty
    · -- outside a cluster the node has opened only this connection
      intro j other otherId waiting different there' opener waits lookup
      have stranger : connection.opener.text ∉ (net.mesh founder).members := by
        intro member
        rw [(mem_members wired).mp member] at inside
        cases inside
      refine absurd (inv.single j i (net.link j other) (net.link i connection) ?_ ?_ ?_ ?_) different
      · rw [mesh_getElem?, there']
        rfl
      · rw [mesh_getElem?, there]
        rfl
      · exact congrArg Address.text opener
      · show other.opener.text ∉ _
        rw [opener]
        exact stranger

section
variable {opener target : Address} {id : Nat} {data : Str}
  (there : net.connections[i]? = some ⟨opener, target, [], [(id, .okPeerAuth data)]⟩)

include there

omit there in
theorem members_admitted (admitted : Admitted key ⟨opener, target, [], [(id, .okPeerAuth data)]⟩ i net node)
    (wired' : ((net.setNode opener node).setConnection i changed).Wired founder key) :
    (((net.setNode opener node).setConnection i changed).mesh founder).members =
      insert opener.text (net.mesh founder).members := by
  have joined : node.inCluster = true := by rw [Node.inCluster, admitted.clusterKey]; rfl
  ext addr
  rw [Finset.mem_insert, mem_members_iff wired', mem_members_iff wired, setConnection_node]
  constructor
  · rintro ⟨y, inside, rfl⟩
    by_cases same : y = opener
    · exact .inl (congrArg Address.text same)
    · rw [setNode_other same] at inside
      exact .inr ⟨y, inside, rfl⟩
  · rintro (rfl | ⟨y, inside, rfl⟩)
    · exact ⟨opener, by rw [setNode_self]; exact joined, rfl⟩
    · refine ⟨y, ?_, rfl⟩
      exact setNode_forall (P := fun y node => (net.node y).inCluster = true → node.inCluster = true) (fun _ => joined)
        (fun _ before => before) y inside

theorem admitted_asking (inv : (net.mesh founder).Inv founder.text)
    (admitted : Admitted key ⟨opener, target, [], [(id, .okPeerAuth data)]⟩ i net node) (next : Nat) :
    let after := (net.setNode opener node).setConnection i ⟨opener, target, [.peers next], []⟩
    after.Wired founder key ∧ (net.mesh founder).step founder.text (.handle i []) = some (after.mesh founder) := by
  intro after
  have line := wired.lines i _ there
  obtain ⟨session, named, sessions⟩ := admitted.sessions
  have agrees : ∀ client, client ≠ .opened i → Agrees (net.node opener) node client := by
    intro client different
    refine ⟨by rw [admitted.peers], ?_⟩
    rw [sessions]
    exact Finmap.lookup_insert_of_ne _ different
  have touches : Touches net after i ⟨opener, target, [.peers next], []⟩ := by
    refine touches_change wired there ⟨rfl, rfl⟩ (fun client different _ => agrees client different) ?_ admitted.pending ?_
    · intro client member
      rw [admitted.peers] at member
      exact .inl member
    · exact fun _ applied => by cases applied
  have accepted : Agrees (net.node target) (after.node target) (.accepted i) := agrees_setNode (agrees _ (by simp)) target
  have moved : after.node opener = node := setNode_self
  have sound : Network.Sound founder key net.started opener node := by
    refine ⟨admitted.fresh, ?_, ?_, ?_⟩
    · intro own is
      rw [admitted.clusterKey] at is
      exact (Option.some.inj is).symm
    · rw [admitted.clusterKey, admitted.clusterId]
      rfl
    · intro _
      have opened := (inv.opened _ (mem_mesh_links.mpr ⟨i, _, there, rfl⟩)).1
      obtain ⟨y, member, same⟩ := Finset.mem_image.mp opened
      obtain rfl := Address.text_injective same
      exact .inr member
  have wired' : after.Wired founder key := by
    refine touches.wired wired ⟨.asking .., ?_, ?_, ?_, ?_, ?_⟩
      (setNode_forall (P := Network.Sound founder key net.started) sound wired.nodes)
    · rw [moved, sessions, Finmap.lookup_insert]
      exact congrArg some named
    · intro _
      rw [moved, admitted.peers]
      exact line.kept (by simp [Connection.stage])
    · rw [accepted.peers]
      exact line.taken
    · rw [accepted.sessions, accepted.peers]
      exact line.accepted
    · intro other applied
      cases applied
  refine ⟨wired', step_of_touches touches there rfl rfl ?_ rfl⟩
  exact members_admitted wired admitted wired'

theorem replyRequestPeerAuth_asking (inv : (net.mesh founder).Inv founder.text) (random : Str) :
    let after := net.replyRequestPeerAuth i ⟨opener, target, [], []⟩ random id data
    after.Wired founder key ∧ (net.mesh founder).step founder.text (.handle i []) = some (after.mesh founder) := by
  obtain ⟨application, found, _⟩ := (wired.lines i _ there).applied id rfl
  obtain ⟨session, known, _⟩ := named_session wired there
  have found : (net.node opener).pending.lookup id = some application := found
  have peer : TcpClient.opened i ∈ (net.node opener).sessions := Finmap.mem_of_lookup_eq_some known
  have admitted := replyRequestPeerAuth_admitted wired inv there rfl random data
  simp only [Network.replyRequestPeerAuth, found, peer, Option.isSome_some, decide_true, Bool.and_true, if_true]
  exact admitted_asking wired there inv admitted _

end

/-! ### Connections that are opened -/

omit wired in
theorem lookup_insertNew_old {pending : Table Nat (Application TcpClient)} {id other : Nat}
    {application found : Application TcpClient} (lookup : pending.lookup other = some found) :
    (pending.insertNew (id, application)).lookup other = some found := by
  unfold Table.insertNew
  split
  · exact lookup
  · rename_i free
    rw [Table.lookup_insert_eq, if_neg]
    · exact lookup
    · rintro rfl
      exact free (Finmap.mem_of_lookup_eq_some lookup)

omit wired in
theorem lookup_insertNew_new {pending : Table Nat (Application TcpClient)} {id : Nat} {application : Application TcpClient}
    (free : id ∉ pending) : (pending.insertNew (id, application)).lookup id = some application := by
  rw [Table.insertNew, if_neg free, Finmap.lookup_insert]

section
variable (x target : Address) {application : Application TcpClient}

theorem peerConnect_touches (application : Application TcpClient) :
    Touches net (net.peerConnect x target application) net.connections.length
      ⟨x, target, [.peerAuth (net.node x).nextId application.key x.text application.ownId], []⟩ where
  ends connection found := by
    rw [List.getElem?_eq_none (Nat.le_refl _)] at found
    cases found
  here := by simp [Network.peerConnect]
  others j different := by
    by_cases short : j < net.connections.length
    · exact List.getElem?_append_left short
    · have long : net.connections.length + 1 ≤ j := by omega
      have missing : net.connections[j]? = none := List.getElem?_eq_none (by omega)
      rw [missing]
      exact List.getElem?_eq_none (by simpa [Network.peerConnect] using long)
  agrees y client different _ := by
    refine agrees_setNode ?_ y
    have registered : Agrees (net.node x) ((net.node x).registerPeer (.opened net.connections.length) target.text none) client :=
      agrees_registerPeer different _ _
    exact ⟨registered.peers, registered.sessions⟩
  only := by
    refine setNode_forall (P := fun y node => ∀ client ∈ node.peers, client ∈ (net.node y).peers ∨
      (client = .opened net.connections.length ∧ x = y) ∨ (client = .accepted net.connections.length ∧ target = y)) ?_ ?_
    · intro client member
      rcases Finset.mem_insert.mp member with rfl | old
      · exact .inr (.inl ⟨rfl, rfl⟩)
      · exact .inl old
    · exact fun y client member => .inl member
  pending j connection id found _ _ _ lookup := by
    refine setNode_forall (P := fun y node => (net.node y).pending.lookup id = some found →
      node.pending.lookup id = some found) ?_ (fun _ before => before) connection.opener lookup
    exact lookup_insertNew_old
  distinct j connection id _ found opener applied again := by
    obtain ⟨waiting, lookup, _⟩ := (wired.lines j connection found).applied id applied
    have less := (wired.nodes connection.opener).fresh id (Finmap.mem_of_lookup_eq_some lookup)
    have same : (net.node x).nextId = id := Option.some.inj again
    rw [opener] at less
    simp only at less
    omega

theorem peerConnect_wired (own : application.key = key) : (net.peerConnect x target application).Wired founder key := by
  have touches := peerConnect_touches wired x target application
  have moved : (net.peerConnect x target application).node x =
      (net.node x).peerConnect ⟨.opened net.connections.length, target.text⟩ application := setNode_self
  have free : (net.node x).nextId ∉ (net.node x).pending := by
    intro member
    have less := (wired.nodes x).fresh _ member
    omega
  have unknown : TcpClient.accepted net.connections.length ∉ ((net.peerConnect x target application).node target).peers := by
    have before : ∀ y, TcpClient.accepted net.connections.length ∉ (net.node y).peers := by
      intro y member
      obtain ⟨j, connection, found, ⟨is, _⟩ | ⟨is, _⟩⟩ := wired.owned y _ member
      · cases is
      · cases is
        rw [List.getElem?_eq_none (Nat.le_refl _)] at found
        cases found
    refine setNode_forall (P := fun _ node => TcpClient.accepted net.connections.length ∉ node.peers) ?_ before target
    intro member
    rcases Finset.mem_insert.mp member with is | old
    · cases is
    · exact before x old
  refine touches.wired wired ⟨?_, ?_, ?_, ?_, ?_, ?_⟩ ?_
  · rw [own]
    exact .applied ..
  · rw [moved]
    simp [Node.peerConnect, Node.addAuthApplication, Node.registerPeer]
  · intro _
    rw [moved]
    exact Finset.mem_insert_self ..
  · refine iff_of_false ?_ unknown
    simp [Network.link, Connection.stage, Stage.taken]
  · exact fun member => absurd member unknown
  · intro id applied
    cases applied
    rw [moved]
    exact ⟨application, lookup_insertNew_new free, own⟩
  · refine setNode_forall (P := Network.Sound founder key net.started) ?_ wired.nodes
    have sound := wired.nodes x
    refine ⟨?_, sound.keys, sound.both, sound.started⟩
    intro id member
    show id < (net.node x).nextId + 1
    have member : id ∈ (net.node x).pending.insertNew ((net.node x).nextId, application) := member
    rw [Table.insertNew, if_neg free, Finmap.mem_insert] at member
    rcases member with rfl | old
    · omega
    · have less := sound.fresh id old
      omega

theorem peerConnect_mesh :
    (net.peerConnect x target application).mesh founder =
      { net.mesh founder with links := (net.mesh founder).links ++ [⟨x.text, target.text, .applied⟩] } := by
  have touches := peerConnect_touches wired x target application
  have links : ((net.peerConnect x target application).mesh founder).links =
      (net.mesh founder).links ++ [⟨x.text, target.text, .applied⟩] := by
    have last : (net.peerConnect x target application).link net.connections.length
        ⟨x, target, [.peerAuth (net.node x).nextId application.key x.text application.ownId], []⟩ =
        ⟨x.text, target.text, .applied⟩ := rfl
    have first : net.connections.mapIdx (net.peerConnect x target application).link = net.connections.mapIdx net.link := by
      refine List.ext_getElem? fun j => ?_
      rw [List.getElem?_mapIdx, List.getElem?_mapIdx]
      cases found : net.connections[j]? with
      | none => rfl
      | some connection =>
        have different : j ≠ net.connections.length := by
          have short := (List.getElem?_eq_some_iff.mp found).1
          omega
        exact congrArg some (link_eq (touches.opened different connection.opener))
    have all : (net.peerConnect x target application).connections = net.connections ++
        [⟨x, target, [.peerAuth (net.node x).nextId application.key x.text application.ownId], []⟩] := rfl
    rw [Network.mesh, all, List.mapIdx_concat, first, last]
    rfl
  have members : (net.peerConnect x target application).members founder = net.members founder := by
    unfold Network.members
    refine Finset.filter_congr fun y _ => ?_
    rw [show ((net.peerConnect x target application).node y).inCluster = (net.node y).inCluster from
      setNode_keeps Node.inCluster (by rfl) y]
  exact Mesh.ext (congrArg (Finset.image Address.text) members) rfl links

omit wired in
theorem peerConnectAll_wired (own : application.key = key) (nodes : List Address) {net : Network}
    (wired : net.Wired founder key) :
    (Network.peerConnectAll x application (nodes.map fun y => (y.host, y.port)) net).Wired founder key ∧
      (Network.peerConnectAll x application (nodes.map fun y => (y.host, y.port)) net).mesh founder =
        { net.mesh founder with
          links := (net.mesh founder).links ++ nodes.map fun y => ⟨x.text, y.text, .applied⟩ } := by
  induction nodes generalizing net with
  | nil => exact ⟨wired, by simp [Network.peerConnectAll]⟩
  | cons y rest ih =>
    obtain ⟨wired', mesh⟩ := ih (peerConnect_wired wired x y own)
    simp only [List.map_cons, Network.peerConnectAll, y.valid, ne_eq, not_false_eq_true, dif_pos]
    refine ⟨wired', ?_⟩
    rw [mesh, peerConnect_mesh wired x y]
    simp

end

omit wired in
theorem mapM_unmakeAddress (nodes : List Address) :
    (nodes.map Address.text).mapM unmakeAddress = some (nodes.map fun y => (y.host, y.port)) := by
  induction nodes with
  | nil => rfl
  | cons y rest ih =>
    have read : unmakeAddress y.text = some (y.host, y.port) := unmakeAddress_make y.host y.valid
    rw [List.map_cons, List.mapM_cons, read, ih]
    rfl

omit wired in
theorem exists_nodes {texts : List Str} (nodes : ∀ addr ∈ texts, ∃ y : Address, addr = y.text) :
    ∃ ys : List Address, texts = ys.map Address.text := by
  have range : texts ∈ Set.range (List.map Address.text) := by
    rw [Set.range_list_map]
    intro addr listed
    obtain ⟨y, rfl⟩ := nodes addr listed
    exact ⟨y, rfl⟩
  obtain ⟨ys, rfl⟩ := range
  exact ⟨ys, rfl⟩

section
variable (inv : (net.mesh founder).Inv founder.text) {opener target : Address} {id : Nat} {peers : Finset Str}
  (there : net.connections[i]? = some ⟨opener, target, [], [(id, .okPeers peers)]⟩)

include there

/-- A list of peers is taken off the connection. -/
theorem told_read :
    (net.setConnection i ⟨opener, target, [], []⟩).Wired founder key ∧
      (net.setConnection i ⟨opener, target, [], []⟩).mesh founder =
        { net.mesh founder with links := (net.mesh founder).links.set i ⟨opener.text, target.text, .settled⟩ } := by
  have line := wired.lines i _ there
  have kept : TcpClient.opened i ∈ (net.node opener).peers := line.kept (by simp [Connection.stage])
  have touches : Touches net ((net.setNode opener (net.node opener)).setConnection i ⟨opener, target, [], []⟩) i
      ⟨opener, target, [], []⟩ := by
    refine touches_keeping wired there ⟨rfl, rfl⟩ (fun client _ _ => .refl _ _) ?_ ?_ ?_
    · exact fun client member => .inl member
    · rfl
    · exact fun _ applied => by cases applied
  rw [setNode_same] at touches
  have settled : (net.setConnection i ⟨opener, target, [], []⟩).link i ⟨opener, target, [], []⟩ =
      ⟨opener.text, target.text, .settled⟩ := by
    simp [Network.link, Network.kept, Connection.stage, kept]
  refine ⟨touches.wired wired ⟨.quiet .., line.named, fun _ => kept, ?_, line.accepted, ?_⟩ wired.nodes, ?_⟩
  · rw [settled]
    exact line.taken
  · intro other applied
    cases applied
  · refine Mesh.ext rfl rfl ?_
    rw [touches.links_set there, settled]

include inv

theorem replyRequestPeers_opens (order : Order Str) (nodes : ∀ addr ∈ peers, ∃ y : Address, addr = y.text) :
    ∃ (ownId : Str) (ys : List Address),
      (ys.map Address.text).toFinset = (net.mesh founder).unknown ⟨opener.text, target.text, .told peers⟩ ∧
      (net.setConnection i ⟨opener, target, [], []⟩).replyRequestPeers opener order peers =
        Network.peerConnectAll opener ⟨key, ownId, none⟩ (ys.map fun y => (y.host, y.port))
          (net.setConnection i ⟨opener, target, [], []⟩) := by
  have asked := inv.asked (net.link i _) (mem_mesh_links.mpr ⟨i, _, there, rfl⟩) rfl
  have is := (inCluster_iff wired).mp ((mem_members wired).mp asked)
  have both := (wired.nodes opener).both
  rw [is] at both
  obtain ⟨ownId, named⟩ := Option.isSome_iff_exists.mp both.symm
  have unknown : (net.node opener).unknownPeersIn opener.text peers =
      (net.mesh founder).unknown ⟨opener.text, target.text, .told peers⟩ := by
    rw [Node.unknownPeersIn, peerAddresses_known wired opener]
    rfl
  have listed : ∀ addr ∈ order.list ((net.node opener).unknownPeersIn opener.text peers), ∃ y : Address, addr = y.text := by
    intro addr member
    rw [order.mem, unknown] at member
    obtain ⟨_, told, listed, _, _⟩ := told_of_unknown member
    cases told
    exact nodes addr listed
  obtain ⟨ys, texts⟩ := exists_nodes listed
  have clusterKey : (net.node opener).clusterKey = some key := is
  refine ⟨ownId, ys, ?_, ?_⟩
  · rw [← texts, order.toFinset, unknown]
  · simp only [Network.replyRequestPeers, setConnection_node, clusterKey, named, texts, mapM_unmakeAddress]

theorem replyRequestPeers_settled (order : Order Str) (nodes : ∀ addr ∈ peers, ∃ y : Address, addr = y.text) :
    let after := (net.setConnection i ⟨opener, target, [], []⟩).replyRequestPeers opener order peers
    after.Wired founder key ∧ ∃ fresh, (net.mesh founder).step founder.text (.handle i fresh) = some (after.mesh founder) := by
  intro after
  have found : (net.mesh founder).links[i]? = some ⟨opener.text, target.text, .told peers⟩ := by
    rw [mesh_getElem?, there]
    rfl
  obtain ⟨read, readMesh⟩ := told_read wired there
  obtain ⟨ownId, ys, all, reached⟩ := replyRequestPeers_opens wired inv there order nodes
  have own : (⟨key, ownId, none⟩ : Application TcpClient).key = key := rfl
  obtain ⟨wired', mesh⟩ := peerConnectAll_wired opener own ys read
  have reached : after = _ := reached
  rw [reached]
  refine ⟨wired', ys.map Address.text, ?_⟩
  simp only [Mesh.step, found, Option.bind_some, Mesh.next, all, if_true]
  rw [mesh, readMesh]
  refine congrArg some (Mesh.ext rfl rfl ?_)
  rw [List.map_map]
  rfl

end

/-- A reply that is handled is a step of the mesh. -/
theorem handleReply_simulates (inv : (net.mesh founder).Inv founder.text) {random : Str} {order : Order Str}
    (taken : net.handleReply i random order = some after) :
    after.Wired founder key ∧ ∃ fresh, (net.mesh founder).step founder.text (.handle i fresh) = some (after.mesh founder) := by
  obtain ⟨connection, there, taken⟩ := Option.bind_eq_some_iff.mp taken
  cases (wired.lines i connection there).shaped with
  | denied opener target id =>
    cases taken
    obtain ⟨wired', stepped⟩ := replyDeniedRequestPeerAuth_gone wired there
    exact ⟨wired', [], stepped⟩
  | admitted opener target id data =>
    cases taken
    obtain ⟨wired', stepped⟩ := replyRequestPeerAuth_asking wired there inv random
    exact ⟨wired', [], stepped⟩
  | told opener target id peers nodes =>
    cases taken
    exact replyRequestPeers_settled wired inv there order nodes
  | applied | asking | quiet => cases taken

end

end Vanity.Cluster
