import Vanity.Cluster.Ballots
import Mathlib.Logic.Function.Basic

/-!
# Voting with several threads

The event threads handle the messages of the peers at the same time. Between two critical sections a thread is
in a phase of its handler; of the mutexes only that of `m_ask_evict_requests` is held over several steps. The
poll server hands out one event of the sockets at a time; here messages need not wait for each other. Two
threads may then have found an issue absent, and a reply is known by its id alone.
-/

namespace Vanity.Cluster

open Db (Str)
open Request

/-- Where a thread is in its handler. -/
inductive Phase (C : Type) where
  | idle
  /-- `begin_evict_process` has found no similar issue. -/
  | beginning (peer : C) (peerId reason : Str)
  /-- `get_eviction_issue` has found no such issue. -/
  | judging (issueId peerId reason : Str)
  | learning (issueId peerId reason : Str) (selfOpinion : Bool)
  | replying (issueId peerId : Str)
  | putting (issueId : Str) (audience : Audience C)
  | waiting (issueId : Str) (audience : Audience C) (peers : List C)
  | asking (issueId : Str) (audience : Audience C) (peers : List C)
  /-- A message has its id, and is then expected to be answered. -/
  | posting (id : Nat) (issueId : Str) (audience : Audience C) (peer : C) (rest : List C)
  | sending (id : Nat) (issueId : Str) (audience : Audience C) (peer : C) (rest : List C)
  | expecting (id : Nat) (op : PeerOp) (other : op ≠ .askEvict)
  | answered (sender : C) (id : Nat) (value : Bool)
  | counting (issueId : Str) (sender : C) (id : Nat) (value : Bool)
  | resolving (issueId : Str)

structure Voting (T C : Type) where
  server : EvictionServer C
  phase : T → Phase C
  /-- The thread that holds the mutex of `m_ask_evict_requests`. -/
  asker : Option T := none

/-- A thread takes up a message or goes on with what it is doing. -/
inductive VotingEvent (T C : Type) where
  | begin_ (thread : T) (peer : C) (reason : Str)
  | askEvict (thread : T) (issueId peerId reason : Str)
  | reply (thread : T) (sender : C) (id : Nat) (body : ReplyBody)
  | post (thread : T) (op : PeerOp) (other : op ≠ .askEvict)
  | go (thread : T) (order : Order C) (judge : Judge C) (randomId : Str) (sent : Bool)
  | peers (peers : Finset C) (sessionId : Table C Str)

namespace Voting

variable {T C : Type} [DecidableEq T] [DecidableEq C] (s : Voting T C)

def enter (thread : T) (phase : Phase C) (server : EvictionServer C) : Voting T C :=
  { s with server, phase := Function.update s.phase thread phase }

def lock (thread : T) : Voting T C := { s with asker := some thread }

def unlock : Voting T C := { s with asker := none }

/-- The next step of a thread; `none` while it waits. -/
def go (thread : T) (order : Order C) (judge : Judge C) (randomId : Str) (sent : Bool) : Option (Voting T C) :=
  match s.phase thread with
  | .idle => none
  | .beginning peer peerId reason =>
    some (s.enter thread (.putting randomId (.allBut peer))
      (s.server.insertEvictionIssue randomId { peerId, reason, selfOpinion := true }))
  | .judging issueId peerId reason =>
    match s.server.selfOpinionOn order judge peerId reason with
    | none => some (s.enter thread .idle s.server)
    | some selfOpinion => some (s.enter thread (.learning issueId peerId reason selfOpinion) s.server)
  | .learning issueId peerId reason selfOpinion =>
    some (s.enter thread (.replying issueId peerId)
      (s.server.insertEvictionIssue issueId { peerId, reason, selfOpinion }))
  | .replying issueId peerId =>
    some (s.enter thread (if sent then .putting issueId (.otherIds peerId) else .idle) s.server)
  | .putting issueId audience =>
    let peers := order.list s.server.peers
    some (s.enter thread (.waiting issueId audience peers) (s.server.putIssue issueId peers.length))
  | .waiting issueId audience peers =>
    match s.asker with
    | some _ => none
    | none => some ((s.enter thread (.asking issueId audience peers) s.server).lock thread)
  | .asking _ _ [] => some (s.enter thread .idle s.server).unlock
  | .asking issueId audience (peer :: rest) =>
    if s.server.asks peer audience then
      some (s.enter thread (.posting s.server.nextId issueId audience peer rest) (s.server.allot issueId peer))
    else some (s.enter thread (.asking issueId audience rest) s.server)
  | .posting id issueId audience peer rest =>
    some (s.enter thread (.sending id issueId audience peer rest) (s.server.expectOp id .askEvict))
  | .sending id issueId audience _ rest =>
    if sent then some (s.enter thread (.asking issueId audience rest) (s.server.addRequest id issueId))
    else some (s.enter thread .idle s.server).unlock
  | .expecting id op _ => some (s.enter thread .idle (s.server.expectOp id op))
  | .answered sender id value =>
    match s.asker with
    | some _ => none
    | none =>
      match s.server.requests.lookup id with
      | none => some (s.enter thread .idle s.server)
      | some issueId =>
        some (s.enter thread (.counting issueId sender id value)
          { s.server with requests := s.server.requests.erase id })
  | .counting issueId sender id value =>
    some (s.enter thread (.resolving issueId) (s.server.modifyIssue issueId (·.push ⟨.reply id sender, value⟩)))
  | .resolving issueId => some (s.enter thread .idle (s.server.tryResolveIssue order issueId))

/-- A thread that waits for a message takes one up. -/
def take (thread : T) (phase : Phase C) (server : EvictionServer C) : Option (Voting T C) :=
  match s.phase thread with
  | .idle => some (s.enter thread phase server)
  | _ => none

/-- `begin_evict_process`, up to the insertion. -/
def takeBegin (thread : T) (peer : C) (reason : Str) : Option (Voting T C) :=
  match s.server.sessionId.lookup peer with
  | none => none
  | some peerId => if s.server.similarIssueExists peerId reason then none else s.take thread (.beginning peer peerId reason) s.server

/-- `handle_reply_request`, up to the handler of an `ASK_EVICT`. -/
def takeReply (thread : T) (sender : C) (id : Nat) (body : ReplyBody) : Option (Voting T C) :=
  match s.server.expectedOps.lookup id with
  | none => none
  | some op =>
    let server := { s.server with expectedOps := s.server.expectedOps.erase id }
    match op, body with
    | .askEvict, .opinion value => s.take thread (.answered sender id value) server
    | _, _ => s.take thread .idle server

def step : VotingEvent T C → Option (Voting T C)
  | .begin_ thread peer reason => s.takeBegin thread peer reason
  | .askEvict thread issueId peerId reason =>
    -- a known issue is only replied to
    if issueId ∈ s.server.issues then none else s.take thread (.judging issueId peerId reason) s.server
  | .reply thread sender id body => s.takeReply thread sender id body
  | .post thread op other => s.take thread (.expecting s.server.nextId op other) s.server.takeId
  | .go thread order judge randomId sent => s.go thread order judge randomId sent
  | .peers peers sessionId => some { s with server := { s.server with peers, sessionId } }

omit [DecidableEq T] in
def start (peers : Finset C) (sessionId : Table C Str) : Voting T C := { server := .start peers sessionId, phase := fun _ => .idle }

end Voting

def Opinion.isOwn {C : Type} (opinion : Opinion C) : Bool :=
  match opinion.origin with
  | .own => true
  | .reply _ _ => false

def Opinion.sender {C : Type} (opinion : Opinion C) : Option C :=
  match opinion.origin with
  | .own => none
  | .reply _ sender => some sender

def EvictionIssue.ownCount {C : Type} (issue : EvictionIssue C) : Nat := issue.opinions.countP (·.isOwn)

def EvictionIssue.votesOf {C : Type} [DecidableEq C] (issue : EvictionIssue C) (peer : C) : Nat :=
  issue.opinions.countP fun opinion => decide (opinion.sender = some peer)

/-- The issue that a thread has inserted and is about to put to the peers. -/
def Phase.opening {C : Type} : Phase C → Option Str
  | .replying issueId _ => some issueId
  | .putting issueId _ => some issueId
  | _ => none

/-- The issue that a thread puts to the peers, with those that are still to be asked. -/
def Phase.putTo {C : Type} : Phase C → Option (Str × List C)
  | .waiting issueId _ peers => some (issueId, peers)
  | .asking issueId _ peers => some (issueId, peers)
  | .posting _ issueId _ _ rest => some (issueId, rest)
  | .sending _ issueId _ _ rest => some (issueId, rest)
  | _ => none

/-- The message in the hands of a thread, on its way out or on its way in. -/
def Phase.message {C : Type} : Phase C → Option (Nat × C × Str)
  | .posting id issueId _ peer _ => some (id, peer, issueId)
  | .sending id issueId _ peer _ => some (id, peer, issueId)
  | .counting issueId sender id _ => some (id, sender, issueId)
  | _ => none

def Phase.Owns {C : Type} (phase : Phase C) (issueId : Str) : Prop :=
  phase.opening = some issueId ∨ ∃ peers, phase.putTo = some (issueId, peers)

namespace Voting

variable {T C : Type} [DecidableEq T]

section
variable [DecidableEq C]

/-- The opinions recorded for an issue: one of the node itself at most, one of each peer at most, and each of
the peer that was asked. -/
structure OneVote (s : Voting T C) : Prop where
  own : ∀ issueId issue, s.server.issues.lookup issueId = some issue → issue.ownCount ≤ 1
  peers : ∀ issueId issue, s.server.issues.lookup issueId = some issue → ∀ peer, issue.votesOf peer ≤ 1
  asked : ∀ issueId issue, s.server.issues.lookup issueId = some issue → ∀ opinion ∈ issue.opinions,
    ∀ id sender, opinion.origin = .reply id sender → s.server.posted.lookup id = some (sender, issueId)

/-- An issue that is inserted is absent. -/
def Absent (s : Voting T C) (thread : T) (randomId : Str) : Prop :=
  match s.phase thread with
  | .beginning _ _ _ => randomId ∉ s.server.issues
  | .learning issueId _ _ _ => issueId ∉ s.server.issues
  | _ => True

/-- An opinion that is expected comes from the peer that was asked, and an issue that was found absent is
absent still when it is inserted. -/
def Faithful (s : Voting T C) : VotingEvent T C → Prop
  | .reply _ sender id (.opinion _) => s.server.expectedOps.lookup id = some .askEvict →
    ∀ asked ∈ s.server.posted.lookup id, sender = asked.1
  | .go thread _ _ randomId _ => Absent s thread randomId
  | _ => True

instance (s : Voting T C) (thread : T) (randomId : Str) : Decidable (Absent s thread randomId) := by
  unfold Absent
  cases s.phase thread <;> infer_instance

instance (s : Voting T C) : DecidablePred (Faithful s)
  | .reply _ sender id (.opinion _) => inferInstanceAs (Decidable (s.server.expectedOps.lookup id = some .askEvict →
    ∀ asked ∈ s.server.posted.lookup id, sender = asked.1))
  | .reply _ _ _ .other => .isTrue trivial
  | .go thread _ _ randomId _ => inferInstanceAs (Decidable (Absent s thread randomId))
  | .begin_ _ _ _ => .isTrue trivial
  | .askEvict _ _ _ _ => .isTrue trivial
  | .post _ _ _ => .isTrue trivial
  | .peers _ _ => .isTrue trivial

end

/-! ### Invariants -/

/-- A single thread puts an issue to the peers, each of them once. -/
structure Owners (s : Voting T C) : Prop where
  posted : ∀ id peer issueId, s.server.posted.lookup id = some (peer, issueId) → issueId ∈ s.server.issues
  single : ∀ id other entry, s.server.posted.lookup id = some entry → s.server.posted.lookup other = some entry → id = other
  known : ∀ thread issueId, (s.phase thread).Owns issueId → issueId ∈ s.server.issues
  unique : ∀ thread other issueId, (s.phase thread).Owns issueId → (s.phase other).Owns issueId → thread = other
  opening : ∀ thread issueId, (s.phase thread).opening = some issueId →
    (∀ issue, s.server.issues.lookup issueId = some issue → issue.ownCount = 0) ∧
      ∀ id peer, s.server.posted.lookup id ≠ some (peer, issueId)
  once : ∀ issueId issue, s.server.issues.lookup issueId = some issue → issue.ownCount ≤ 1
  asked : ∀ thread issueId rest, (s.phase thread).putTo = some (issueId, rest) →
    rest.Nodup ∧ ∀ peer ∈ rest, ∀ id, s.server.posted.lookup id ≠ some (peer, issueId)

/-- A message is in the requests, in the hands of a single thread, or counted. -/
structure Messages (s : Voting T C) : Prop where
  ballots : s.server.Ballots
  held : ∀ thread id peer issueId, (s.phase thread).message = some (id, peer, issueId) →
    s.server.posted.lookup id = some (peer, issueId) ∧ id ∉ s.server.requests ∧
      ∀ other issue, s.server.issues.lookup other = some issue → id ∉ issue.counted
  unique : ∀ thread other id entry otherEntry, (s.phase thread).message = some (id, entry) →
    (s.phase other).message = some (id, otherEntry) → thread = other
  answered : ∀ thread sender id value, s.phase thread = .answered sender id value →
    ∃ issueId, s.server.posted.lookup id = some (sender, issueId)
  expected : ∀ id, s.server.expectedOps.lookup id = some .askEvict → id ∈ s.server.posted
  senders : ∀ issueId issue, s.server.issues.lookup issueId = some issue → ∀ opinion ∈ issue.opinions,
    ∀ id sender, opinion.origin = .reply id sender → s.server.posted.lookup id = some (sender, issueId)

/-- A phase that holds no more than the one before it. -/
structure Follows (old new : Phase C) : Prop where
  opening : ∀ issueId, new.opening = some issueId → old.opening = some issueId
  putTo : ∀ issueId rest, new.putTo = some (issueId, rest) →
    ∃ more, old.putTo = some (issueId, more) ∧ rest.Sublist more

theorem Follows.owns {old new : Phase C} (follows : Follows old new) {issueId : Str} (owns : new.Owns issueId) :
    old.Owns issueId := by
  obtain opening | ⟨rest, putTo⟩ := owns
  · exact .inl (follows.opening issueId opening)
  · obtain ⟨more, putTo, _⟩ := follows.putTo issueId rest putTo
    exact .inr ⟨more, putTo⟩

theorem Follows.nothing {old new : Phase C} (opening : new.opening = none) (putTo : new.putTo = none) : Follows old new := by
  constructor
  · intro issueId found
    rw [opening] at found
    cases found
  · intro issueId rest found
    rw [putTo] at found
    cases found

section
variable {s : Voting T C} {thread : T}

theorem enter_phase (phase : Phase C) (server : EvictionServer C) (other : T) :
    (s.enter thread phase server).phase other = if other = thread then phase else s.phase other := by
  unfold enter
  exact Function.update_apply s.phase thread phase other

theorem Owners.move (inv : Owners s) {phase : Phase C} {server : EvictionServer C} (posted : server.posted = s.server.posted)
    (same : ∀ issueId, issueId ∈ s.server.issues ↔ issueId ∈ server.issues)
    (own : ∀ issueId issue, server.issues.lookup issueId = some issue →
      ∃ before, s.server.issues.lookup issueId = some before ∧ issue.ownCount = before.ownCount)
    (follows : Follows (s.phase thread) phase) : Owners (s.enter thread phase server) := by
  have before : ∀ other, Follows (s.phase other) ((s.enter thread phase server).phase other) := by
    intro other
    rw [enter_phase]
    split
    · rename_i this
      rw [this]
      exact follows
    · exact ⟨fun _ some => some, fun _ rest some => ⟨rest, some, List.Sublist.refl rest⟩⟩
  refine ⟨fun id peer issueId found => ?_, fun id other entry found again => ?_, fun other issueId owns => ?_,
    fun other third issueId owns also => ?_, fun other issueId opening => ?_, fun issueId issue found => ?_,
    fun other issueId rest putTo => ?_⟩
  · change server.posted.lookup id = some (peer, issueId) at found
    rw [posted] at found
    exact (same issueId).mp (inv.posted id peer issueId found)
  · change server.posted.lookup id = some entry at found
    change server.posted.lookup other = some entry at again
    rw [posted] at found again
    exact inv.single id other entry found again
  · exact (same issueId).mp (inv.known other issueId ((before other).owns owns))
  · exact inv.unique other third issueId ((before other).owns owns) ((before third).owns also)
  · obtain ⟨none, unposted⟩ := inv.opening other issueId ((before other).opening issueId opening)
    refine ⟨fun issue found => ?_, fun id peer found => ?_⟩
    · obtain ⟨old, was, count⟩ := own issueId issue found
      rw [count]
      exact none old was
    · change server.posted.lookup id = some (peer, issueId) at found
      rw [posted] at found
      exact unposted id peer found
  · obtain ⟨old, was, count⟩ := own issueId issue found
    rw [count]
    exact inv.once issueId old was
  · obtain ⟨more, was, sublist⟩ := (before other).putTo issueId rest putTo
    obtain ⟨nodup, unposted⟩ := inv.asked other issueId more was
    refine ⟨nodup.sublist sublist, fun peer member id found => ?_⟩
    change server.posted.lookup id = some (peer, issueId) at found
    rw [posted] at found
    exact unposted peer (sublist.subset member) id found

theorem Owners.same (inv : Owners s) {phase : Phase C} {server : EvictionServer C} (posted : server.posted = s.server.posted)
    (issues : server.issues = s.server.issues) (follows : Follows (s.phase thread) phase) :
    Owners (s.enter thread phase server) := by
  refine inv.move posted (fun issueId => by rw [issues]) (fun issueId issue found => ?_) follows
  rw [issues] at found
  exact ⟨issue, found, rfl⟩

/-- The thread that inserts an issue will be the one to put it. -/
theorem Owners.insert (inv : Owners s) {issueId : Str} {issue : EvictionIssue C} (fresh : issueId ∉ s.server.issues)
    (empty : issue.opinions = []) {phase : Phase C} (opening : phase.opening = some issueId) (putTo : phase.putTo = none) :
    Owners (s.enter thread phase (s.server.insertEvictionIssue issueId issue)) := by
  have noOwn : issue.ownCount = 0 := by
    unfold EvictionIssue.ownCount
    rw [empty]
    rfl
  have owned : ∀ other third, ((s.enter thread phase (s.server.insertEvictionIssue issueId issue)).phase other).Owns third →
      other = thread ∧ third = issueId ∨ (s.phase other).Owns third := by
    intro other third owns
    rw [enter_phase] at owns
    split at owns
    · obtain same | ⟨rest, found⟩ := owns
      · rw [opening] at same
        cases same
        exact .inl ⟨‹_›, rfl⟩
      · rw [putTo] at found
        cases found
    · exact .inr owns
  have unowned : ∀ other, ¬ (s.phase other).Owns issueId := fun other owns => fresh (inv.known other issueId owns)
  have lookup : ∀ other changed, (s.server.issues.insert issueId issue).lookup other = some changed →
      changed.ownCount = 0 ∨ s.server.issues.lookup other = some changed := by
    intro other changed found
    rw [Table.lookup_insert_eq] at found
    split at found
    · cases found
      exact .inl noOwn
    · exact .inr found
  rw [EvictionServer.insertEvictionIssue_fresh fresh] at owned ⊢
  refine ⟨fun id peer other found => Finmap.mem_insert.mpr (.inr (inv.posted id peer other found)), inv.single,
    fun other third owns => ?_, fun other third fourth owns also => ?_, fun other third found => ?_,
    fun other changed found => ?_, fun other third rest found => ?_⟩
  · obtain ⟨_, rfl⟩ | old := owned other third owns
    · exact Finmap.mem_insert.mpr (.inl rfl)
    · exact Finmap.mem_insert.mpr (.inr (inv.known other third old))
  · obtain ⟨rfl, rfl⟩ | old := owned other fourth owns
    · obtain ⟨rfl, _⟩ | other := owned third fourth also
      · rfl
      · exact absurd other (unowned third)
    · obtain ⟨rfl, rfl⟩ | also := owned third fourth also
      · exact absurd old (unowned other)
      · exact inv.unique other third fourth old also
  · rw [enter_phase] at found
    split at found
    · rw [opening] at found
      cases found
      refine ⟨fun changed found => ?_, fun id peer found => fresh (inv.posted id peer issueId found)⟩
      obtain none | old := lookup issueId changed found
      · exact none
      · exact absurd (Table.mem_of_lookup old) fresh
    · obtain ⟨none, unposted⟩ := inv.opening other third found
      refine ⟨fun changed found => ?_, unposted⟩
      obtain zero | old := lookup third changed found
      · exact zero
      · exact none changed old
  · obtain zero | old := lookup other changed found
    · omega
    · exact inv.once other changed old
  · rw [enter_phase] at found
    split at found
    · rw [putTo] at found
      cases found
    · exact inv.asked other third rest found

omit [DecidableEq T] in
theorem ownCount_putTo (issue : EvictionIssue C) (peers : Nat) : (issue.putTo peers).ownCount = issue.ownCount + 1 := by
  unfold EvictionIssue.putTo EvictionIssue.push EvictionIssue.ownCount
  exact List.countP_append.trans rfl

/-- The own opinion is recorded by the thread that has inserted the issue. -/
theorem Owners.put (inv : Owners s) {issueId : Str} {audience : Audience C} (putting : s.phase thread = .putting issueId audience)
    (order : Order C) (peers : Finset C) (count : Nat) :
    Owners (s.enter thread (.waiting issueId audience (order.list peers)) (s.server.putIssue issueId count)) := by
  have opening : (s.phase thread).opening = some issueId := by rw [putting]; rfl
  have owns : (s.phase thread).Owns issueId := .inl opening
  obtain ⟨none, unposted⟩ := inv.opening thread issueId opening
  obtain ⟨issue, known⟩ := Finmap.mem_iff.mp (inv.known thread issueId owns)
  have before : ∀ other third,
      ((s.enter thread (.waiting issueId audience (order.list peers)) (s.server.putIssue issueId count)).phase other).Owns third →
      (s.phase other).Owns third := by
    intro other third owning
    rw [enter_phase] at owning
    split at owning
    · rename_i same
      subst same
      obtain impossible | ⟨rest, found⟩ := owning
      · cases impossible
      · cases found
        exact owns
    · exact owning
  unfold EvictionServer.putIssue at before ⊢
  rw [EvictionServer.modifyIssue_found known] at before ⊢
  refine ⟨fun id peer other found => Finmap.mem_insert.mpr (.inr (inv.posted id peer other found)), inv.single,
    fun other third owning => Finmap.mem_insert.mpr (.inr (inv.known other third (before other third owning))),
    fun other third fourth owning also => inv.unique other third fourth (before other fourth owning) (before third fourth also),
    fun other third found => ?_, fun other changed found => ?_, fun other third rest found => ?_⟩
  · rw [enter_phase] at found
    split at found
    · cases found
    · rename_i different
      obtain ⟨zero, clean⟩ := inv.opening other third found
      refine ⟨fun changed lookup => ?_, clean⟩
      have apart : third ≠ issueId := by
        intro same
        subst same
        exact different (inv.unique other thread third (.inl found) owns)
      exact zero changed ((Finmap.lookup_insert_of_ne _ apart).symm.trans lookup)
  · change (s.server.issues.insert issueId (issue.putTo count)).lookup other = some changed at found
    rw [Table.lookup_insert_eq] at found
    split at found
    · cases found
      rw [ownCount_putTo, none issue known]
    · exact inv.once other changed found
  · rw [enter_phase] at found
    split at found
    · cases found
      exact ⟨order.nodup peers, fun peer _ id => unposted id peer⟩
    · exact inv.asked other third rest found

omit [DecidableEq T] in
theorem lookup_allot {server : EvictionServer C} {issueId : Str} {peer : C} {id : Nat} {entry : C × Str}
    (found : (server.allot issueId peer).posted.lookup id = some entry) :
    id = server.nextId ∧ entry = (peer, issueId) ∨ server.posted.lookup id = some entry := by
  change (server.posted.insert server.nextId (peer, issueId)).lookup id = some entry at found
  rw [Table.lookup_insert_eq] at found
  split at found
  · cases found
    exact .inl ⟨‹_›, rfl⟩
  · exact .inr found

/-- A peer is asked for the first time. -/
theorem Owners.allot (inv : Owners s) {issueId : Str} {audience : Audience C} {peer : C} {rest : List C}
    (asking : s.phase thread = .asking issueId audience (peer :: rest)) (id : Nat) :
    Owners (s.enter thread (.posting id issueId audience peer rest) (s.server.allot issueId peer)) := by
  have putTo : (s.phase thread).putTo = some (issueId, peer :: rest) := by rw [asking]; rfl
  have owns : (s.phase thread).Owns issueId := .inr ⟨_, putTo⟩
  obtain ⟨nodup, unposted⟩ := inv.asked thread issueId _ putTo
  obtain ⟨absent, nodup⟩ := List.nodup_cons.mp nodup
  have new : ∀ other, s.server.posted.lookup other ≠ some (peer, issueId) := unposted peer List.mem_cons_self
  have before : ∀ other third,
      ((s.enter thread (.posting id issueId audience peer rest) (s.server.allot issueId peer)).phase other).Owns third →
      (s.phase other).Owns third := by
    intro other third owning
    rw [enter_phase] at owning
    split at owning
    · rename_i same
      subst same
      obtain impossible | ⟨more, found⟩ := owning
      · cases impossible
      · cases found
        exact owns
    · exact owning
  have elsewhere : ∀ other third, other ≠ thread → (s.phase other).Owns third → third ≠ issueId := by
    intro other third different owning same
    subst same
    exact different (inv.unique other thread third owning owns)
  refine ⟨fun other target third found => ?_, fun other again entry found also => ?_,
    fun other third owning => inv.known other third (before other third owning),
    fun other third fourth owning also => inv.unique other third fourth (before other fourth owning) (before third fourth also),
    fun other third found => ?_, inv.once, fun other third more found => ?_⟩
  · obtain ⟨_, same⟩ | old := lookup_allot found
    · cases same
      exact inv.known thread issueId owns
    · exact inv.posted other target third old
  · obtain ⟨rfl, rfl⟩ | old := lookup_allot found
    · obtain ⟨rfl, _⟩ | also := lookup_allot also
      · rfl
      · exact absurd also (new again)
    · obtain ⟨rfl, rfl⟩ | also := lookup_allot also
      · exact absurd old (new other)
      · exact inv.single other again entry old also
  · rw [enter_phase] at found
    split at found
    · cases found
    · rename_i different
      obtain ⟨zero, clean⟩ := inv.opening other third found
      refine ⟨zero, fun id target posted => ?_⟩
      obtain ⟨_, same⟩ | old := lookup_allot posted
      · cases same
        exact elsewhere other issueId different (.inl found) rfl
      · exact clean id target old
  · rw [enter_phase] at found
    split at found
    · cases found
      refine ⟨nodup, fun target member id posted => ?_⟩
      obtain ⟨_, same⟩ | old := lookup_allot posted
      · cases same
        exact absent member
      · exact unposted target (List.mem_cons_of_mem _ member) id old
    · rename_i different
      obtain ⟨others, clean⟩ := inv.asked other third more found
      refine ⟨others, fun target member id posted => ?_⟩
      obtain ⟨_, same⟩ | old := lookup_allot posted
      · cases same
        exact elsewhere other issueId different (.inr ⟨more, found⟩) rfl
      · exact clean target member id old

/-! ### Messages -/

/-- The message has left the hands of the thread. -/
def Gone (s : Voting T C) (thread : T) (phase : Phase C) (id : Nat) : Prop :=
  (∃ entry, (s.phase thread).message = some (id, entry)) ∧ phase.message = none

/-- The message has come into the hands of the thread: nobody has it, and it is not counted. -/
structure Arrives (s : Voting T C) (server : EvictionServer C) (id : Nat) (entry : C × Str) : Prop where
  posted : server.posted.lookup id = some entry
  unasked : id ∉ server.requests
  uncounted : ∀ issueId issue, server.issues.lookup issueId = some issue → id ∉ issue.counted
  unheld : ∀ other entry, (s.phase other).message ≠ some (id, entry)

/-- Where a recorded opinion comes from. -/
inductive Recorded (s : Voting T C) (thread : T) (phase : Phase C) (posted : Table Nat (C × Str)) (issueId : Str) (opinion : Opinion C) : Prop
  | before (issue : EvictionIssue C) (found : s.server.issues.lookup issueId = some issue) (member : opinion ∈ issue.opinions)
  | own (origin : opinion.origin = .own)
  | reply (id : Nat) (sender : C) (origin : opinion.origin = .reply id sender) (gone : Gone s thread phase id)
      (asked : posted.lookup id = some (sender, issueId))

/-- A message may come into the hands of the thread, or leave them for the requests or the opinions. -/
theorem Messages.move (inv : Messages s) {phase : Phase C} {server : EvictionServer C} (ballots : server.Ballots)
    (posted : ∀ id entry, s.server.posted.lookup id = some entry → server.posted.lookup id = some entry)
    (requests : ∀ id, id ∈ server.requests → id ∈ s.server.requests ∨ Gone s thread phase id)
    (opinions : ∀ issueId issue, server.issues.lookup issueId = some issue → ∀ opinion ∈ issue.opinions,
      Recorded s thread phase server.posted issueId opinion)
    (message : ∀ id entry, phase.message = some (id, entry) →
      (s.phase thread).message = some (id, entry) ∨ Arrives s server id entry)
    (answered : ∀ sender id value, phase = .answered sender id value →
      ∃ issueId, server.posted.lookup id = some (sender, issueId))
    (expected : ∀ id, server.expectedOps.lookup id = some .askEvict → id ∈ server.posted) :
    Messages (s.enter thread phase server) := by
  have counted : ∀ issueId issue, server.issues.lookup issueId = some issue → ∀ id ∈ issue.counted,
      (∃ before, s.server.issues.lookup issueId = some before ∧ id ∈ before.counted) ∨ Gone s thread phase id := by
    intro issueId issue found id member
    obtain ⟨opinion, member, brought⟩ := List.mem_filterMap.mp member
    cases opinions issueId issue found opinion member with
    | before old was has => exact .inl ⟨old, was, List.mem_filterMap.mpr ⟨opinion, has, brought⟩⟩
    | own origin =>
      unfold Opinion.messageId at brought
      rw [origin] at brought
      cases brought
    | reply other sender origin gone asked =>
      unfold Opinion.messageId at brought
      rw [origin] at brought
      cases brought
      exact .inr gone
  -- what was in somebody's hands, and still is, is nowhere else
  have elsewhere : ∀ other id peer issueId, (s.phase other).message = some (id, peer, issueId) → ¬ Gone s thread phase id →
      server.posted.lookup id = some (peer, issueId) ∧ id ∉ server.requests ∧
        ∀ third issue, server.issues.lookup third = some issue → id ∉ issue.counted := by
    intro other id peer issueId holds stays
    obtain ⟨wasPosted, unasked, uncounted⟩ := inv.held other id peer issueId holds
    refine ⟨posted _ _ wasPosted, fun asked => ?_, fun third issue found member => ?_⟩
    · exact (requests id asked).elim unasked stays
    · obtain ⟨before, found, member⟩ | gone := counted third issue found id member
      · exact uncounted third before found member
      · exact stays gone
  have stays : ∀ other id entry, other ≠ thread → (s.phase other).message = some (id, entry) → ¬ Gone s thread phase id := by
    rintro other id entry different holds ⟨⟨otherEntry, also⟩, _⟩
    exact different (inv.unique other thread id entry otherEntry holds also)
  have keeps : ∀ id entry, phase.message = some (id, entry) → ¬ Gone s thread phase id := by
    rintro id entry holds ⟨_, none⟩
    rw [none] at holds
    cases holds
  refine ⟨ballots, fun other id peer issueId holds => ?_, fun other third id entry otherEntry holds also => ?_,
    fun other sender id value now => ?_, expected, fun issueId issue found opinion member id sender origin => ?_⟩
  · rw [enter_phase] at holds
    split at holds
    · obtain old | arrives := message id _ holds
      · exact elsewhere thread id peer issueId old (keeps id _ holds)
      · exact ⟨arrives.posted, arrives.unasked, arrives.uncounted⟩
    · exact elsewhere other id peer issueId holds (stays other id _ ‹_› holds)
  · have single : ∀ fourth, fourth ≠ thread → ∀ entry otherEntry, phase.message = some (id, entry) →
        (s.phase fourth).message ≠ some (id, otherEntry) := by
      intro fourth different entry otherEntry holds also
      obtain old | arrives := message id _ holds
      · exact different (inv.unique fourth thread id _ _ also old)
      · exact arrives.unheld fourth otherEntry also
    rw [enter_phase] at holds also
    split at holds
    · split at also
      · rw [‹other = thread›, ‹third = thread›]
      · exact absurd also (single third ‹_› _ _ holds)
    · split at also
      · exact absurd holds (single other ‹_› _ _ also)
      · exact inv.unique other third id entry otherEntry holds also
  · rw [enter_phase] at now
    split at now
    · exact answered sender id value now
    · obtain ⟨issueId, found⟩ := inv.answered other sender id value now
      exact ⟨issueId, posted _ _ found⟩
  · cases opinions issueId issue found opinion member with
    | before old was has => exact posted _ _ (inv.senders issueId old was opinion has id sender origin)
    | own was =>
      rw [was] at origin
      cases origin
    | reply other target was gone asked =>
      rw [was] at origin
      cases origin
      exact asked

/-- Neither posts nor opinions change. -/
theorem Messages.same (inv : Messages s) {phase : Phase C} {server : EvictionServer C} (ballots : server.Ballots)
    (posted : server.posted = s.server.posted) (requests : ∀ id, id ∈ server.requests → id ∈ s.server.requests)
    (issues : ∀ issueId issue, server.issues.lookup issueId = some issue →
      ∃ before, s.server.issues.lookup issueId = some before ∧ issue.opinions = before.opinions)
    (message : ∀ entry, phase.message = some entry → (s.phase thread).message = some entry)
    (answered : ∀ sender id value, phase ≠ .answered sender id value)
    (expected : ∀ id, server.expectedOps.lookup id = some .askEvict → id ∈ s.server.posted) :
    Messages (s.enter thread phase server) := by
  refine inv.move ballots (fun id entry found => ?_) (fun id asked => .inl (requests id asked))
    (fun issueId issue found opinion member => ?_) (fun id entry holds => .inl (message _ holds))
    (fun sender id value now => absurd now (answered sender id value)) fun id found => ?_
  · rw [posted]
    exact found
  · obtain ⟨before, was, same⟩ := issues issueId issue found
    rw [same] at member
    exact .before before was member
  · rw [posted]
    exact expected id found

/-- Only the phase changes. -/
theorem Messages.phase (inv : Messages s) {phase : Phase C} (message : ∀ entry, phase.message = some entry →
      (s.phase thread).message = some entry) (answered : ∀ sender id value, phase ≠ .answered sender id value) :
    Messages (s.enter thread phase s.server) :=
  inv.same inv.ballots rfl (fun _ asked => asked) (fun _ issue found => ⟨issue, found, rfl⟩) message answered inv.expected

theorem Messages.insert (inv : Messages s) {issueId : Str} {issue : EvictionIssue C} (fresh : issueId ∉ s.server.issues)
    (empty : issue.opinions = []) {phase : Phase C} (message : phase.message = none)
    (answered : ∀ sender id value, phase ≠ .answered sender id value) :
    Messages (s.enter thread phase (s.server.insertEvictionIssue issueId issue)) := by
  have ballots : (s.server.insertEvictionIssue issueId issue).Ballots := inv.ballots.insert fresh empty
  rw [EvictionServer.insertEvictionIssue_fresh fresh] at ballots ⊢
  refine inv.move ballots (fun id entry found => found) (fun id asked => .inl asked)
    (fun other changed found opinion member => ?_) (fun id entry holds => ?_)
    (fun sender id value now => absurd now (answered sender id value)) inv.expected
  · change (s.server.issues.insert issueId issue).lookup other = some changed at found
    rw [Table.lookup_insert_eq] at found
    split at found
    · cases found
      rw [empty] at member
      cases member
    · exact .before changed found member
  · rw [message] at holds
    cases holds

theorem Messages.put (inv : Messages s) {issueId : Str} {phase : Phase C} (message : phase.message = none)
    (answered : ∀ sender id value, phase ≠ .answered sender id value) (count : Nat) :
    Messages (s.enter thread phase (s.server.putIssue issueId count)) := by
  have kept : (s.server.putIssue issueId count).posted = s.server.posted ∧
      (s.server.putIssue issueId count).requests = s.server.requests ∧
      (s.server.putIssue issueId count).expectedOps = s.server.expectedOps := by
    unfold EvictionServer.putIssue EvictionServer.modifyIssue
    dsimp only
    split <;> exact ⟨rfl, rfl, rfl⟩
  obtain ⟨posted, requests, ops⟩ := kept
  refine inv.move (inv.ballots.put count) (fun id entry found => by rw [posted]; exact found)
    (fun id asked => .inl (by rw [requests] at asked; exact asked)) (fun other changed found opinion member => ?_)
    (fun id entry holds => ?_) (fun sender id value now => absurd now (answered sender id value))
    fun id found => by rw [ops] at found; rw [posted]; exact inv.expected id found
  · change (s.server.modifyIssue issueId (·.putTo count)).issues.lookup other = some changed at found
    unfold EvictionServer.modifyIssue at found
    split at found
    · rename_i issue known
      change (s.server.issues.insert issueId (issue.putTo count)).lookup other = some changed at found
      rw [Table.lookup_insert_eq] at found
      split at found
      · rename_i same
        subst same
        cases found
        obtain old | own := List.mem_append.mp member
        · exact .before issue known old
        · rw [List.mem_singleton] at own
          exact .own (by rw [own])
      · exact .before changed found member
    · exact .before changed found member
  · rw [message] at holds
    cases holds

theorem Messages.allot (inv : Messages s) {issueId : Str} {peer : C} (audience : Audience C)
    (rest : List C) : Messages (s.enter thread (.posting s.server.nextId issueId audience peer rest) (s.server.allot issueId peer)) := by
  refine inv.move (inv.ballots.allot peer) (fun id entry found => inv.ballots.posted_kept peer found) (fun id asked => .inl asked)
    (fun other changed found opinion member => .before changed found member) (fun id entry holds => ?_)
    (fun sender id value now => by cases now) fun id found => ?_
  · cases holds
    refine .inr ⟨Finmap.lookup_insert _, inv.ballots.unasked_next, inv.ballots.uncounted_next, fun other entry holds => ?_⟩
    obtain ⟨found, _⟩ := inv.held other _ _ _ holds
    exact Nat.lt_irrefl _ (inv.ballots.posted _ _ found)
  · exact Finmap.mem_insert.mpr (.inr (inv.expected id found))

theorem Messages.request (inv : Messages s) {id : Nat} {issueId : Str} {audience : Audience C} {peer : C} {rest : List C}
    (sending : s.phase thread = .sending id issueId audience peer rest) :
    Messages (s.enter thread (.asking issueId audience rest) (s.server.addRequest id issueId)) := by
  have message : (s.phase thread).message = some (id, peer, issueId) := by rw [sending]; rfl
  obtain ⟨posted, unasked, uncounted⟩ := inv.held thread id peer issueId message
  refine inv.move (inv.ballots.request ⟨peer, posted⟩ unasked uncounted) (fun _ _ found => found) (fun other asked => ?_)
    (fun _ issue found _ member => .before issue found member) (fun _ _ holds => by cases holds) (fun _ _ _ now => by cases now)
    inv.expected
  obtain ⟨otherIssue, asked⟩ := Finmap.mem_iff.mp asked
  obtain ⟨rfl, _⟩ | ⟨_, old⟩ := (EvictionServer.lookup_addRequest unasked).mp asked
  · exact .inr ⟨⟨_, message⟩, rfl⟩
  · exact .inl (Table.mem_of_lookup old)

theorem Messages.pop (inv : Messages s) {sender : C} {id : Nat} {value : Bool} {issueId : Str}
    (answered : s.phase thread = .answered sender id value) (asked : s.server.requests.lookup id = some issueId) :
    Messages (s.enter thread (.counting issueId sender id value)
      { s.server with requests := s.server.requests.erase id }) := by
  have fewer : ∀ other, other ∈ s.server.requests.erase id → other ∈ s.server.requests :=
    fun other member => (Finmap.mem_erase.mp member).2
  obtain ⟨target, posted⟩ := inv.answered thread sender id value answered
  obtain ⟨peer, posted'⟩ := inv.ballots.requests id issueId asked
  rw [posted] at posted'
  cases posted'
  refine inv.move (inv.ballots.pop id) (fun _ _ found => found) (fun other member => .inl (fewer other member))
    (fun _ issue found _ member => .before issue found member) (fun other entry holds => ?_) (fun _ _ _ now => by cases now)
    inv.expected
  cases holds
  refine .inr ⟨posted, Finmap.notMem_erase_self, fun other issue found member => ?_, fun other entry holds => ?_⟩
  · exact (inv.ballots.counted other issue found id member).2 (Table.mem_of_lookup asked)
  · exact (inv.held other id _ _ holds).2.1 (Table.mem_of_lookup asked)

theorem Messages.count (inv : Messages s) {issueId : Str} {sender : C} {id : Nat} {value : Bool}
    (counting : s.phase thread = .counting issueId sender id value) :
    Messages (s.enter thread (.resolving issueId) (s.server.modifyIssue issueId (·.push ⟨.reply id sender, value⟩))) := by
  have message : (s.phase thread).message = some (id, sender, issueId) := by rw [counting]; rfl
  obtain ⟨posted, unasked, uncounted⟩ := inv.held thread id sender issueId message
  have ballots := inv.ballots.count ⟨sender, posted⟩ unasked (uncounted issueId) sender value
  unfold EvictionServer.modifyIssue at ballots ⊢
  cases known : s.server.issues.lookup issueId with
  | none =>
    rw [known] at ballots
    exact inv.phase (fun _ holds => by cases holds) (fun _ _ _ now => by cases now)
  | some issue =>
    rw [known] at ballots
    refine inv.move ballots (fun _ _ found => found) (fun _ asked => .inl asked) (fun other changed found opinion member => ?_)
      (fun _ _ holds => by cases holds) (fun _ _ _ now => by cases now) inv.expected
    change (s.server.issues.insert issueId (issue.push ⟨.reply id sender, value⟩)).lookup other = some changed at found
    rw [Table.lookup_insert_eq] at found
    split at found
    · rename_i same
      subst same
      cases found
      obtain old | new := List.mem_append.mp member
      · exact .before issue known old
      · rw [List.mem_singleton] at new
        exact .reply id sender (by rw [new]) ⟨⟨_, message⟩, rfl⟩ posted
    · exact .before changed found member

theorem Owners.count (inv : Owners s) {issueId : Str} (sender : C) (id : Nat) (value : Bool) {phase : Phase C}
    (follows : Follows (s.phase thread) phase) :
    Owners (s.enter thread phase (s.server.modifyIssue issueId (·.push ⟨.reply id sender, value⟩))) := by
  have same : ∀ issue : EvictionIssue C, (issue.push ⟨.reply id sender, value⟩).ownCount = issue.ownCount := by
    intro issue
    unfold EvictionIssue.push EvictionIssue.ownCount
    exact List.countP_append.trans rfl
  unfold EvictionServer.modifyIssue
  cases known : s.server.issues.lookup issueId with
  | none => exact inv.same rfl rfl follows
  | some issue =>
    refine inv.move rfl (fun other => ?_) (fun other changed found => ?_) follows
    · rw [Finmap.mem_insert]
      constructor
      · exact .inr
      · rintro (rfl | member)
        · exact Table.mem_of_lookup known
        · exact member
    · change (s.server.issues.insert issueId (issue.push ⟨.reply id sender, value⟩)).lookup other = some changed at found
      rw [Table.lookup_insert_eq] at found
      split at found
      · rename_i this
        subst this
        cases found
        exact ⟨issue, known, same issue⟩
      · exact ⟨changed, found, rfl⟩

end

/-! ### Steps -/

section
variable [DecidableEq C] {s t : Voting T C} {thread : T}

structure Inv (s : Voting T C) : Prop where
  owners : Owners s
  messages : Messages s

omit [DecidableEq T] [DecidableEq C] in
theorem Inv.setAsker (inv : Inv s) (asker : Option T) : Inv { s with asker } := by
  obtain ⟨⟨posted, single, known, unique, opening, once, asked⟩, ⟨ballots, held, uniqueId, answered, expected, senders⟩⟩ := inv
  exact ⟨⟨posted, single, known, unique, opening, once, asked⟩, ⟨ballots, held, uniqueId, answered, expected, senders⟩⟩

omit [DecidableEq C] in
theorem Inv.phase (inv : Inv s) {phase : Phase C} (follows : Follows (s.phase thread) phase)
    (message : ∀ entry, phase.message = some entry → (s.phase thread).message = some entry)
    (answered : ∀ sender id value, phase ≠ .answered sender id value) : Inv (s.enter thread phase s.server) :=
  ⟨inv.owners.same rfl rfl follows, inv.messages.phase message answered⟩

omit [DecidableEq C] in
theorem Inv.idle (inv : Inv s) : Inv (s.enter thread .idle s.server) :=
  inv.phase (.nothing rfl rfl) nofun nofun

omit [DecidableEq C] in
theorem Inv.insert (inv : Inv s) {issueId : Str} {issue : EvictionIssue C} (fresh : issueId ∉ s.server.issues)
    (empty : issue.opinions = []) {phase : Phase C} (opening : phase.opening = some issueId) (putTo : phase.putTo = none)
    (message : phase.message = none) (answered : ∀ sender id value, phase ≠ .answered sender id value) :
    Inv (s.enter thread phase (s.server.insertEvictionIssue issueId issue)) :=
  ⟨inv.owners.insert fresh empty opening putTo, inv.messages.insert fresh empty message answered⟩

omit [DecidableEq C] in
theorem Inv.expect (inv : Inv s) {phase : Phase C} (follows : Follows (s.phase thread) phase)
    (message : ∀ entry, phase.message = some entry → (s.phase thread).message = some entry)
    (answered : ∀ sender id value, phase ≠ .answered sender id value) {id : Nat} {op : PeerOp}
    (posted : op = .askEvict → id ∈ s.server.posted) : Inv (s.enter thread phase (s.server.expectOp id op)) := by
  refine ⟨inv.owners.same rfl rfl follows, inv.messages.same (inv.messages.ballots.expect id op) rfl (fun _ asked => asked)
    (fun _ issue found => ⟨issue, found, rfl⟩) message answered fun other found => ?_⟩
  change (s.server.expectedOps.insert id op).lookup other = some .askEvict at found
  rw [Table.lookup_insert_eq] at found
  split at found
  · rename_i same
    rw [same]
    exact posted (Option.some.inj found)
  · exact inv.messages.expected other found

theorem Inv.resolve (inv : Inv s) (order : Order C) (issueId : Str) :
    Inv (s.enter thread .idle (s.server.tryResolveIssue order issueId)) := by
  have ballots : (s.server.tryResolveIssue order issueId).Ballots := inv.messages.ballots.tryResolve
  obtain ⟨⟨issues, peers, resolutions, evictions, same⟩, opinions, known⟩ :=
    EvictionServer.onlyResolves s.server order issueId
  rw [same] at ballots opinions known ⊢
  refine ⟨inv.owners.move rfl (fun other => ⟨known other, fun member => ?_⟩) (fun other issue found => ?_) (.nothing rfl rfl),
    inv.messages.same ballots rfl (fun _ asked => asked) opinions nofun nofun inv.messages.expected⟩
  · obtain ⟨issue, found⟩ := Finmap.mem_iff.mp member
    obtain ⟨before, was, _⟩ := opinions other issue found
    exact Table.mem_of_lookup was
  · obtain ⟨before, was, same⟩ := opinions other issue found
    refine ⟨before, was, ?_⟩
    unfold EvictionIssue.ownCount
    rw [same]

theorem Inv.go (inv : Inv s) {order : Order C} {judge : Judge C} {randomId : Str} {sent : Bool}
    (faithful : Faithful s (.go thread order judge randomId sent)) (taken : s.go thread order judge randomId sent = some t) : Inv t := by
  change Absent s thread randomId at faithful
  unfold Absent at faithful
  unfold Voting.go at taken
  cases now : s.phase thread with
  | idle =>
    rw [now] at taken
    cases taken
  | beginning peer peerId reason =>
    rw [now] at taken faithful
    cases taken
    exact inv.insert faithful rfl rfl rfl rfl nofun
  | judging issueId peerId reason =>
    rw [now] at taken
    dsimp only at taken
    split at taken
    · cases taken
      exact inv.idle
    · cases taken
      exact inv.phase (.nothing rfl rfl) nofun nofun
  | learning issueId peerId reason selfOpinion =>
    rw [now] at taken faithful
    cases taken
    exact inv.insert faithful rfl rfl rfl rfl nofun
  | replying issueId peerId =>
    rw [now] at taken
    cases taken
    cases sent with
    | false => exact inv.idle
    | true =>
      have follows : Follows (s.phase thread) (.putting issueId (.otherIds peerId)) := by
        rw [now]
        exact ⟨fun _ same => same, nofun⟩
      have entered : Inv (s.enter thread (.putting issueId (.otherIds peerId)) s.server) := inv.phase follows nofun nofun
      exact entered
  | putting issueId audience =>
    rw [now] at taken
    cases taken
    exact ⟨inv.owners.put now order _ _, inv.messages.put rfl (fun _ _ _ now => by cases now) _⟩
  | waiting issueId audience peers =>
    rw [now] at taken
    dsimp only at taken
    split at taken
    · cases taken
    · cases taken
      have follows : Follows (s.phase thread) (.asking issueId audience peers) := by
        rw [now]
        exact ⟨nofun, fun _ rest same => ⟨rest, same, List.Sublist.refl rest⟩⟩
      exact (inv.phase follows nofun nofun).setAsker (some thread)
  | asking issueId audience peers =>
    rw [now] at taken
    cases peers with
    | nil =>
      cases taken
      exact inv.idle.setAsker none
    | cons peer rest =>
      dsimp only at taken
      split at taken
      · cases taken
        exact ⟨inv.owners.allot now _, inv.messages.allot audience rest⟩
      · cases taken
        have follows : Follows (s.phase thread) (.asking issueId audience rest) := by
          rw [now]
          refine ⟨nofun, fun other fewer same => ?_⟩
          cases same
          exact ⟨_, rfl, List.sublist_cons_self peer rest⟩
        exact inv.phase follows nofun nofun
  | posting id issueId audience peer rest =>
    rw [now] at taken
    cases taken
    have message : (s.phase thread).message = some (id, peer, issueId) := by rw [now]; rfl
    have follows : Follows (s.phase thread) (.sending id issueId audience peer rest) := by
      rw [now]
      exact ⟨nofun, fun _ rest same => ⟨rest, same, List.Sublist.refl rest⟩⟩
    refine inv.expect follows (fun entry same => ?_) nofun fun _ => ?_
    · cases same
      exact message
    · exact Table.mem_of_lookup (inv.messages.held thread id peer issueId message).1
  | sending id issueId audience peer rest =>
    rw [now] at taken
    dsimp only at taken
    split at taken
    · cases taken
      have follows : Follows (s.phase thread) (.asking issueId audience rest) := by
        rw [now]
        exact ⟨nofun, fun _ rest same => ⟨rest, same, List.Sublist.refl rest⟩⟩
      exact ⟨inv.owners.same rfl rfl follows, inv.messages.request now⟩
    · cases taken
      exact inv.idle.setAsker none
  | expecting id op other =>
    rw [now] at taken
    cases taken
    have follows : Follows (s.phase thread) .idle := .nothing rfl rfl
    exact inv.expect follows nofun nofun fun same => absurd same other
  | answered sender id value =>
    rw [now] at taken
    dsimp only at taken
    split at taken
    · cases taken
    · split at taken
      · cases taken
        exact inv.idle
      · rename_i issueId asked
        cases taken
        exact ⟨inv.owners.same rfl rfl (.nothing rfl rfl), inv.messages.pop now asked⟩
  | counting issueId sender id value =>
    rw [now] at taken
    cases taken
    exact ⟨inv.owners.count sender id value (.nothing rfl rfl), inv.messages.count now⟩
  | resolving issueId =>
    rw [now] at taken
    cases taken
    exact inv.resolve order issueId

omit [DecidableEq C] in
theorem Inv.take {phase : Phase C} {server : EvictionServer C} (taken : s.take thread phase server = some t)
    (entered : Inv (s.enter thread phase server)) : Inv t := by
  unfold Voting.take at taken
  split at taken
  · cases taken
    exact entered
  · cases taken

omit [DecidableEq C] in
/-- A reply is expected no longer; an opinion is that of the peer that was asked. -/
theorem Inv.reply (inv : Inv s) {sender : C} {id : Nat} {body : ReplyBody} (faithful : Faithful s (.reply thread sender id body))
    (taken : s.takeReply thread sender id body = some t) : Inv t := by
  have expected : ∀ other, (s.server.expectedOps.erase id).lookup other = some .askEvict → other ∈ s.server.posted := by
    intro other found
    rw [Table.lookup_erase_eq] at found
    split at found
    · cases found
    · exact inv.messages.expected other found
  have ballots : EvictionServer.Ballots { s.server with expectedOps := s.server.expectedOps.erase id } :=
    ⟨inv.messages.ballots.posted, inv.messages.ballots.requests, inv.messages.ballots.counted, inv.messages.ballots.once⟩
  have idle : Inv (s.enter thread .idle { s.server with expectedOps := s.server.expectedOps.erase id }) :=
    ⟨inv.owners.same rfl rfl (.nothing rfl rfl), inv.messages.same ballots rfl (fun _ asked => asked)
      (fun _ issue found => ⟨issue, found, rfl⟩) nofun nofun expected⟩
  unfold takeReply at taken
  split at taken
  · cases taken
  · rename_i op found
    dsimp only at taken
    split at taken
    · rename_i value
      have posted := inv.messages.expected id found
      obtain ⟨⟨peer, issueId⟩, posted⟩ := Finmap.mem_iff.mp posted
      have same : sender = peer := faithful found (peer, issueId) posted
      subst same
      refine Inv.take taken ⟨inv.owners.same rfl rfl (.nothing rfl rfl), inv.messages.move ballots (fun _ _ found => found)
        (fun _ asked => .inl asked) (fun _ issue found _ member => .before issue found member) nofun
        (fun _ _ _ now => ?_) expected⟩
      cases now
      exact ⟨issueId, posted⟩
    · exact Inv.take taken idle

theorem Inv.step {event : VotingEvent T C} (inv : Inv s) (faithful : Faithful s event) (taken : step s event = some t) : Inv t := by
  cases event with
  | begin_ thread peer reason =>
    change s.takeBegin thread peer reason = some t at taken
    unfold takeBegin at taken
    split at taken
    · cases taken
    · split at taken
      · cases taken
      · exact Inv.take taken (inv.phase (.nothing rfl rfl) nofun nofun)
  | askEvict thread issueId peerId reason =>
    change (if issueId ∈ s.server.issues then none else _) = some t at taken
    split at taken
    · cases taken
    · exact Inv.take taken (inv.phase (.nothing rfl rfl) nofun nofun)
  | reply thread sender id body => exact inv.reply faithful taken
  | post thread op other =>
    obtain ⟨posted, requests, counted, once⟩ := inv.messages.ballots
    have ballots : s.server.takeId.Ballots :=
      ⟨fun id entry found => Nat.lt_succ_of_lt (posted id entry found), requests, counted, once⟩
    exact Inv.take taken ⟨inv.owners.same rfl rfl (.nothing rfl rfl), inv.messages.same ballots rfl (fun _ asked => asked)
      (fun _ issue found => ⟨issue, found, rfl⟩) nofun nofun inv.messages.expected⟩
  | go thread order judge randomId sent => exact inv.go faithful taken
  | peers peers sessionId =>
    cases taken
    obtain ⟨⟨posted, single, known, unique, opening, once, asked⟩, ⟨⟨fresh, requests, counted, onceId⟩, held, uniqueId, answered,
      expected, senders⟩⟩ := inv
    exact ⟨⟨posted, single, known, unique, opening, once, asked⟩, ⟨⟨fresh, requests, counted, onceId⟩, held, uniqueId, answered,
      expected, senders⟩⟩

/-! ### One vote -/

omit [DecidableEq T] [DecidableEq C] in
theorem countP_le_one {A B : Type} {list : List A} {counts : A → Bool} {key : A → Option B} (nodup : (list.filterMap key).Nodup)
    (same : ∀ a ∈ list, ∀ b ∈ list, counts a = true → counts b = true → ∃ id, key a = some id ∧ key b = some id) :
    list.countP counts ≤ 1 := by
  induction list with
  | nil => exact Nat.zero_le 1
  | cons a rest ih =>
    have later : rest.countP counts ≤ 1 := by
      refine ih ?_ fun b member c also => same b (List.mem_cons_of_mem a member) c (List.mem_cons_of_mem a also)
      rw [List.filterMap_cons] at nodup
      split at nodup
      · exact nodup
      · exact (List.nodup_cons.mp nodup).2
    by_cases counted : counts a = true
    · have none : rest.countP counts = 0 := by
        rw [List.countP_eq_zero]
        intro b member also
        obtain ⟨id, keyA, keyB⟩ := same a List.mem_cons_self b (List.mem_cons_of_mem a member) counted also
        rw [List.filterMap_cons_some keyA] at nodup
        exact (List.nodup_cons.mp nodup).1 (List.mem_filterMap.mpr ⟨b, member, keyB⟩)
      rw [List.countP_cons_of_pos counted, none]
    · rw [List.countP_cons_of_neg counted]
      exact later

omit [DecidableEq T] in
/-- Two votes of a peer would be for the same message. -/
theorem Inv.oneVote (inv : Inv s) : OneVote s := by
  refine ⟨inv.owners.once, fun issueId issue found peer => ?_, inv.messages.senders⟩
  have replied : ∀ opinion ∈ issue.opinions, decide (opinion.sender = some peer) = true →
      ∃ id, opinion.messageId = some id ∧ s.server.posted.lookup id = some (peer, issueId) := by
    intro opinion member counted
    have sent := of_decide_eq_true counted
    unfold Opinion.sender at sent
    split at sent
    · cases sent
    · rename_i id sender origin
      cases sent
      refine ⟨id, ?_, inv.messages.senders issueId issue found opinion member id peer origin⟩
      unfold Opinion.messageId
      rw [origin]
  refine countP_le_one (inv.messages.ballots.once issueId issue found) fun one member other also counted countedToo => ?_
  obtain ⟨id, brought, posted⟩ := replied one member counted
  obtain ⟨again, broughtToo, postedToo⟩ := replied other also countedToo
  rw [← inv.owners.single id again _ posted postedToo] at broughtToo
  exact ⟨id, brought, broughtToo⟩

omit [DecidableEq T] [DecidableEq C] in
theorem Phase.idle_owns {issueId : Str} : ¬ (Phase.idle : Phase C).Owns issueId := by
  rintro (opening | ⟨rest, putTo⟩)
  · cases opening
  · cases putTo

omit [DecidableEq T] [DecidableEq C] in
theorem Inv.start (peers : Finset C) (sessionId : Table C Str) : Inv (start peers sessionId : Voting T C) :=
  ⟨⟨nofun, nofun, fun _ _ owns => absurd owns Phase.idle_owns, fun _ _ _ owns => absurd owns Phase.idle_owns, nofun, nofun, nofun⟩,
    ⟨(EvictionServer.Books.start peers sessionId).ballots, nofun, nofun, nofun, nofun, nofun⟩⟩

end

section
variable [DecidableEq C]

/-- However the threads take turns and whatever the peers send, as long as replies are faithful. -/
theorem one_vote (peers : Finset C) (sessionId : Table C Str) (run : List (VotingEvent T C))
    (faithful : EachStep step Faithful run (start peers sessionId)) : EachState step OneVote run (start peers sessionId) :=
  eachState_of_inv (fun _ _ _ inv faithful taken => Inv.step inv faithful taken) (fun _ => Inv.oneVote)
    (Inv.start peers sessionId) faithful

end

/-! ### Two votes -/

/-- A thread that goes on for so many steps. -/
def goOn (thread : T) (order : Order C) (judge : Judge C) (steps : Nat) : List (VotingEvent T C) :=
  List.replicate steps (.go thread order judge (ascii "issue") true)

def clients : Order (Fin 3) := .listing (List.finRange 3) (List.nodup_finRange 3) List.mem_finRange

def nobody : Judge (Fin 3) := ⟨fun _ => false, fun _ => false⟩

/-- An issue about the third peer is put to the two others. -/
def asked : List (VotingEvent Unit (Fin 3)) := .begin_ () 2 (ascii "dead") :: goOn () clients nobody 11

def threePeers : Voting Unit (Fin 3) := start {0, 1, 2} ((∅ : Table (Fin 3) Str).insert 2 (ascii "two"))

theorem answers_one_vote : EachState step OneVote
    (asked ++ .reply () 0 0 (.opinion true) :: goOn () clients nobody 3 ++ [.reply () 1 1 (.opinion true)]) threePeers :=
  one_vote _ _ _ (by decide +kernel)

/-- A peer answers for another, whose message id it has guessed. -/
theorem peer_votes_twice : ¬ EachState step OneVote
    (asked ++ .reply () 0 0 (.opinion true) :: goOn () clients nobody 3 ++
      .reply () 0 1 (.opinion true) :: goOn () clients nobody 3) threePeers := by
  intro each
  have votes : ((runAll step (asked ++ .reply () 0 0 (.opinion true) :: goOn () clients nobody 3 ++
      .reply () 0 1 (.opinion true) :: goOn () clients nobody 3) threePeers).bind fun t =>
        (t.server.issues.lookup (ascii "issue")).map (·.votesOf 0)) = some 2 := by decide +kernel
  obtain ⟨t, runs, votes⟩ := Option.bind_eq_some_iff.mp votes
  obtain ⟨issue, found, two⟩ := Option.map_eq_some_iff.mp votes
  have one := (eachState_last each runs).peers _ issue found 0
  omega

-- two threads that both find an issue absent record the own opinion twice
example : ((runAll step ([.askEvict true (ascii "issue") (ascii "two") (ascii "dead"),
    .askEvict false (ascii "issue") (ascii "two") (ascii "dead")] ++ goOn true clients nobody 4 ++ goOn false clients nobody 4)
      (start {0, 1, 2} ((∅ : Table (Fin 3) Str).insert 2 (ascii "two")) : Voting Bool (Fin 3))).bind fun t =>
        (t.server.issues.lookup (ascii "issue")).map (·.ownCount)) = some 2 := by decide +kernel

end Voting

end Vanity.Cluster
