import Vanity.Cluster.Voting

/-!
# What nodes think of their peers

`peer_behaviour_server.cpp` counts what a peer has sent that it should not have sent, and `peer_pulse_server.cpp`
keeps the time of its last pulse. From these a node forms its own opinion, and begins to evict a peer. The
nodes of a cluster put their issues to each other as `Voting` says, and answer each other; a peer is named by
its node, as there is one connection for each. Beside what the program keeps, each node counts the reports,
and each thread has the evidence with which it begins an issue.
-/

namespace Vanity.Cluster

open Db (Str)
open Request

inductive Report where
  | badMessage | badRequest | badReply
  deriving DecidableEq

def reportScore : Report → UInt32
  | .badMessage | .badRequest | .badReply => 10

def maxScore : UInt32 := 100

/-- In nanoseconds, as `steady_clock` counts. -/
def second : ℕ := 1000000000

def maxPulseDelay : ℕ := 60 * second

/-- What `peer_data_t` holds of the behaviour of a peer. -/
structure Watch where
  behaviourScore : UInt32 := 0
  lastPulse : ℕ := 0
  reports : ℕ := 0

structure Evidence where
  reports : ℕ := 0
  silence : ℕ := 0
  deriving DecidableEq

namespace Watch

variable (watch : Watch)

def report (report : Report) : Watch :=
  { watch with behaviourScore := watch.behaviourScore + reportScore report, reports := watch.reports + 1 }

def silence (now : ℕ) : ℕ := now - watch.lastPulse

def evidence (now : ℕ) : Evidence := ⟨watch.reports, watch.silence now⟩

-- `M_MAX_SCORE * 0.75`
def evictOpinionMisbehaving : Bool := decide (75 ≤ watch.behaviourScore)

-- `M_MAX_PULSE_DELAY * 0.75`
def evictOpinionDead (now : ℕ) : Bool := decide (45 * second < watch.silence now)

/-- The score is a number of 32 bits. -/
def Counted : Prop := watch.behaviourScore.toNat ≤ 10 * watch.reports

end Watch

/-- Something a node has noticed when it first had to do with an issue. -/
structure Observation (N : Type) where
  node : N
  issueId : Str
  peerId : Str
  evidence : Evidence

/-- What an opinion takes: eight reports since the peer was registered, or no pulse for 45 seconds. -/
def Evidence.Grounds (evidence : Evidence) (reason : Str) : Prop :=
  (reason = ascii "misbehaving" ∧ 8 ≤ evidence.reports) ∨ (reason = ascii "dead" ∧ 45 * second < evidence.silence)

instance (evidence : Evidence) (reason : Str) : Decidable (evidence.Grounds reason) :=
  inferInstanceAs (Decidable (_ ∨ _))

section
variable {watch : Watch}

theorem report_counted (counted : watch.Counted) (report : Report) : (watch.report report).Counted := by
  have score : reportScore report = 10 := by cases report <;> rfl
  have sum : (watch.behaviourScore + 10).toNat ≤ watch.behaviourScore.toNat + 10 := by
    rw [UInt32.toNat_add]
    exact Nat.mod_le _ _
  unfold Watch.Counted at counted ⊢
  simp only [Watch.report, score]
  omega

theorem misbehaving_reports (counted : watch.Counted) (opinion : watch.evictOpinionMisbehaving = true) : 8 ≤ watch.reports := by
  have high : (75 : UInt32).toNat ≤ watch.behaviourScore.toNat := UInt32.le_iff_toNat_le.mp (of_decide_eq_true opinion)
  have enough : 75 ≤ watch.behaviourScore.toNat := high
  unfold Watch.Counted at counted
  omega

theorem maxScore_reports (counted : watch.Counted) (high : maxScore ≤ watch.behaviourScore) : 8 ≤ watch.reports := by
  have high : (100 : UInt32).toNat ≤ watch.behaviourScore.toNat := UInt32.le_iff_toNat_le.mp high
  have enough : 100 ≤ watch.behaviourScore.toNat := high
  unfold Watch.Counted at counted
  omega

end

/-! ### Nodes and messages -/

structure WatchingNode (T N : Type) where
  voting : Voting T N
  watch : N → Watch := fun _ => {}
  /-- The thread that runs `epoll_ready`. -/
  receiver : Option T := none
  /-- The `Context` of the request that a thread handles. -/
  context : T → Option (N × ℕ) := fun _ => none
  evidence : T → Evidence := fun _ => {}

/-- `ASK_EVICT`. -/
structure Ask (N : Type) where
  sender : N
  receiver : N
  id : ℕ
  issueId : Str
  peerId : Str
  reason : Str

structure Answer (N : Type) where
  sender : N
  receiver : N
  id : ℕ
  body : ReplyBody

structure Watching (T N : Type) where
  time : ℕ := 0
  nodes : N → WatchingNode T N
  asks : List (Ask N) := []
  answers : List (Answer N) := []
  observations : List (Observation N) := []

inductive WatchingEvent (T N : Type) where
  | wait (time : ℕ)
  | pulse (node peer : N)
  | report (node : N) (thread : T) (peer : N) (report : Report)
  /-- `check_pulses` looks at a peer; the time was read before. -/
  | check (node : N) (thread : T) (peer : N) (now : ℕ)
  | ask (thread : T) (k : ℕ) (sent : Bool)
  | answer (thread : T) (k : ℕ)
  /-- A reply to something else, or one that cannot be read. -/
  | otherReply (node : N) (thread : T) (peer : N) (id : ℕ)
  | post (node : N) (thread : T) (op : PeerOp) (other : op ≠ .askEvict)
  | go (node : N) (thread : T) (order : Order N) (randomId : Str) (sent : Bool)
  | received (node : N)
  | peers (node : N) (peers : Finset N) (sessionId : Table N Str)

def Phase.isIdle {C : Type} : Phase C → Bool
  | .idle => true
  | _ => false

namespace WatchingNode

variable {T N : Type} [DecidableEq T] [DecidableEq N] (node : WatchingNode T N)

abbrev server : EvictionServer N := node.voting.server

abbrev phase (thread : T) : Phase N := node.voting.phase thread

def judge (now : ℕ) : Judge N :=
  ⟨fun peer => (node.watch peer).evictOpinionMisbehaving, fun peer => (node.watch peer).evictOpinionDead now⟩

/-- A thread takes up a message of a peer; the messages are taken up one at a time. -/
def receive (thread : T) : Option (WatchingNode T N) :=
  match node.receiver, node.phase thread with
  | none, .idle => some { node with receiver := some thread }
  | _, _ => none

def setWatch (peer : N) (watch : Watch) : WatchingNode T N := { node with watch := Function.update node.watch peer watch }

/-- `evict_misbehaving_peer` and `evict_dead_peer`, up to the insertion of the issue. -/
def beginEvict (thread : T) (peer : N) (reason : Str) (evidence : Evidence) : WatchingNode T N :=
  match node.voting.takeBegin thread peer reason with
  | some voting => { node with voting, evidence := Function.update node.evidence thread evidence }
  | none => node

end WatchingNode

namespace Watching

variable {T N : Type} [DecidableEq T] [DecidableEq N] (net : Watching T N)

def setNode (x : N) (node : WatchingNode T N) : Watching T N := { net with nodes := Function.update net.nodes x node }

def reply (sent : Bool) (answer : Answer N) : Watching T N :=
  if sent then { net with answers := net.answers ++ [answer] } else net

def observe (observation : Observation N) : Watching T N :=
  { net with observations := net.observations ++ [observation] }

/-- The reply to the request that the thread handles. -/
def replyTo (x : N) (thread : T) (sent : Bool) (body : ReplyBody) : Watching T N :=
  match (net.nodes x).context thread with
  | some (sender, id) => net.reply sent ⟨x, sender, id, body⟩
  | none => net

/-- What a step of a thread is for the others: the replies and requests that it sends, and what it has seen. -/
def outcome (x : N) (thread : T) (order : Order N) (randomId : Str) (sent : Bool) : Watching T N :=
  let node := net.nodes x
  match node.phase thread with
  | .beginning _ peerId _ => net.observe ⟨x, randomId, peerId, node.evidence thread⟩
  | .judging issueId peerId reason =>
    match node.server.peerFromId order peerId, node.server.selfOpinionOn order (node.judge net.time) peerId reason with
    | some peer, some _ => net.observe ⟨x, issueId, peerId, (node.watch peer).evidence net.time⟩
    | _, _ => net.replyTo x thread sent .other
  | .replying issueId _ =>
    match node.server.issues.lookup issueId with
    | some issue => net.replyTo x thread sent (.opinion issue.selfOpinion)
    | none => net
  | .sending id issueId _ peer _ =>
    match node.server.issues.lookup issueId with
    | some issue =>
      if sent then { net with asks := net.asks ++ [⟨x, peer, id, issueId, issue.peerId, issue.reason⟩] } else net
    | none => net
  | _ => net

def step : WatchingEvent T N → Option (Watching T N)
  | .wait time => some { net with time := net.time + time }
  | .pulse x peer =>
    some (net.setNode x ((net.nodes x).setWatch peer { (net.nodes x).watch peer with lastPulse := net.time }))
  | .report x thread peer report => do
    let node ← (net.nodes x).receive thread
    let watch := (node.watch peer).report report
    let node := node.setWatch peer watch
    if maxScore ≤ watch.behaviourScore then
      return net.setNode x (node.beginEvict thread peer (ascii "misbehaving") (watch.evidence net.time))
    else return net.setNode x node
  | .check x thread peer now =>
    if now ≤ net.time ∧ maxPulseDelay < ((net.nodes x).watch peer).silence now then
      some (net.setNode x
        ((net.nodes x).beginEvict thread peer (ascii "dead") (((net.nodes x).watch peer).evidence now)))
    else none
  | .ask thread k sent => do
    let ask ← net.asks[k]?
    let node ← (net.nodes ask.receiver).receive thread
    let net := { net with asks := net.asks.eraseIdx k }
    match node.server.issues.lookup ask.issueId with
    | some issue =>
      return (net.setNode ask.receiver node).reply sent ⟨ask.receiver, ask.sender, ask.id, .opinion issue.selfOpinion⟩
    | none =>
      let voting ← node.voting.step (.askEvict thread ask.issueId ask.peerId ask.reason)
      return net.setNode ask.receiver
        { node with voting, context := Function.update node.context thread (some (ask.sender, ask.id)) }
  | .answer thread k => do
    let answer ← net.answers[k]?
    let node ← (net.nodes answer.receiver).receive thread
    let net := { net with answers := net.answers.eraseIdx k }
    match node.voting.step (.reply thread answer.sender answer.id answer.body) with
    | some voting => return net.setNode answer.receiver { node with voting }
    | none => return net.setNode answer.receiver node
  | .otherReply x thread peer id => do
    let voting ← (net.nodes x).voting.step (.reply thread peer id .other)
    return net.setNode x { net.nodes x with voting }
  | .post x thread op other => do
    let voting ← (net.nodes x).voting.step (.post thread op other)
    return net.setNode x { net.nodes x with voting }
  | .go x thread order randomId sent => do
    let voting ← (net.nodes x).voting.step (.go thread order ((net.nodes x).judge net.time) randomId sent)
    return (net.outcome x thread order randomId sent).setNode x { net.nodes x with voting }
  | .received x => do
    let thread ← (net.nodes x).receiver
    if ((net.nodes x).phase thread).isIdle then return net.setNode x { net.nodes x with receiver := none } else none
  | .peers x peers sessionId => do
    -- a node is not its own peer
    if x ∈ peers then none
    else
      let node := net.nodes x
      let voting ← node.voting.step (.peers peers sessionId)
      return net.setNode x { node with
        voting
        watch := fun peer => if peer ∈ node.server.peers ∧ peer ∈ peers then node.watch peer else { lastPulse := net.time } }

def start : Watching T N := { nodes := fun _ => { voting := .start ∅ ∅ } }

/-- An eviction is backed by more than half of the peers to whom the issue was put and the node itself: each
of them has noticed for itself what the peer is evicted for. -/
def Backed : Prop :=
  ∀ x, ∀ eviction ∈ (net.nodes x).server.evictions, ∃ peers issue, ∃ voters : Finset N,
    (net.nodes x).server.put.lookup eviction.issueId = some peers ∧
    (net.nodes x).server.issues.lookup eviction.issueId = some issue ∧
    peers / 2 + 1 ≤ voters.card ∧
    ∀ voter ∈ voters, ∃ observation ∈ net.observations, observation.node = voter ∧
      observation.issueId = eviction.issueId ∧ observation.peerId = issue.peerId ∧ observation.evidence.Grounds issue.reason

/-- The id of a new issue is new in the cluster, and an issue is put to no more peers than a `short` has room
for half of. -/
def AllowsStep (x : N) (randomId : Str) : Phase N → Prop
  | .beginning _ _ _ => ∀ y, randomId ∉ (net.nodes y).server.issues
  | .putting _ _ => (net.nodes x).server.peers.card ≤ 65533
  | _ => True

def Allowed : WatchingEvent T N → Prop
  | .go x thread _ randomId _ => net.AllowsStep x randomId ((net.nodes x).phase thread)
  | _ => True

instance [Fintype N] (x : N) (randomId : Str) : DecidablePred (net.AllowsStep x randomId) := by
  intro phase
  unfold AllowsStep
  cases phase <;> infer_instance

instance [Fintype N] : DecidablePred net.Allowed := by
  intro event
  unfold Allowed
  cases event <;> infer_instance

end Watching

end Vanity.Cluster
