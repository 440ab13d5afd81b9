import Vanity.Cluster.Majority
import Vanity.Cluster.Watching

/-!
# Evictions are backed

An opinion that counts for an eviction is that of a node that has noticed something for itself. The invariant
follows each opinion from the node that formed it through the reply to the issue it is recorded for. What a
node knows only grows, so that a step of one node leaves what holds of the others.
-/

namespace Vanity.Cluster

open Db (Str)
open Request

/-! ### What a node knows only grows -/

/-- An issue later on. -/
structure EvictionIssue.Later {C : Type} (issue later : EvictionIssue C) : Prop where
  peerId : later.peerId = issue.peerId
  reason : later.reason = issue.reason
  selfOpinion : later.selfOpinion = issue.selfOpinion
  opinions : issue.opinions <+: later.opinions

theorem EvictionIssue.Later.refl {C : Type} (issue : EvictionIssue C) :
    issue.Later issue := ⟨rfl, rfl, rfl, List.prefix_refl _⟩

theorem EvictionIssue.Later.trans {C : Type} {issue next later : EvictionIssue C} (first : issue.Later next)
    (second : next.Later later) : issue.Later later :=
  ⟨second.peerId.trans first.peerId, second.reason.trans first.reason, second.selfOpinion.trans first.selfOpinion,
    first.opinions.trans second.opinions⟩

namespace EvictionServer

variable {C : Type}

structure Grows (s t : EvictionServer C) : Prop where
  issues : ∀ issueId issue, s.issues.lookup issueId = some issue →
    ∃ later, t.issues.lookup issueId = some later ∧ issue.Later later
  posted : ∀ id entry, s.posted.lookup id = some entry → t.posted.lookup id = some entry
  put : ∀ issueId ∈ s.put, issueId ∈ t.put

variable {s t : EvictionServer C} {issueId : Str} {issue : EvictionIssue C}

theorem grows_same (issues : t.issues = s.issues) (posted : t.posted = s.posted) (put : t.put = s.put) : Grows s t where
  issues _ issue found := ⟨issue, issues ▸ found, .refl issue⟩
  posted _ _ found := posted ▸ found
  put _ member := put ▸ member

theorem Grows.refl (s : EvictionServer C) : Grows s s := grows_same rfl rfl rfl

theorem Grows.known (grows : Grows s t) (known : issueId ∈ s.issues) : issueId ∈ t.issues := by
  obtain ⟨issue, found⟩ := Finmap.mem_iff.mp known
  obtain ⟨later, found, _⟩ := grows.issues issueId issue found
  exact Table.mem_of_lookup found

theorem lookup_insertEvictionIssue (fresh : issueId ∉ s.issues) (other : Str) :
    (s.insertEvictionIssue issueId issue).issues.lookup other =
      if other = issueId then some issue else s.issues.lookup other := by
  rw [insertEvictionIssue_fresh fresh]
  exact Table.lookup_insert_eq _ _ _ _

theorem grows_insert (fresh : issueId ∉ s.issues) : Grows s (s.insertEvictionIssue issueId issue) where
  issues other before found := by
    have different : other ≠ issueId := fun same => fresh (same ▸ Table.mem_of_lookup found)
    rw [lookup_insertEvictionIssue fresh, if_neg different]
    exact ⟨before, found, .refl before⟩
  posted _ _ found := found
  put _ member := member

/-- An issue after a change of one of them. -/
theorem lookup_modifyIssue {change : EvictionIssue C → EvictionIssue C} {other : Str} {changed : EvictionIssue C}
    (found : (s.modifyIssue issueId change).issues.lookup other = some changed) :
    ∃ before, s.issues.lookup other = some before ∧ changed = if other = issueId then change before else before := by
  unfold modifyIssue at found
  split at found
  · rename_i issue there
    simp only [Table.lookup_insert_eq] at found
    split at found
    · rename_i same
      subst same
      exact ⟨issue, there, by rw [if_pos rfl, Option.some.inj found]⟩
    · rename_i different
      exact ⟨changed, found, by rw [if_neg different]⟩
  · rename_i missing
    refine ⟨changed, found, ?_⟩
    split
    · rename_i same
      rw [same, missing] at found
      cases found
    · rfl

theorem grows_modify {change : EvictionIssue C → EvictionIssue C}
    (later : ∀ issue, EvictionIssue.Later issue (change issue)) :
    Grows s (s.modifyIssue issueId change) := by
  unfold modifyIssue
  split
  · rename_i issue there
    refine ⟨fun other before found => ?_, fun _ _ found => found, fun _ member => member⟩
    simp only [Table.lookup_insert_eq]
    split
    · rename_i same
      rw [same, there] at found
      cases found
      exact ⟨_, rfl, later issue⟩
    · exact ⟨before, found, .refl before⟩
  · exact .refl s

theorem later_push (opinion : Opinion C) (issue : EvictionIssue C) : issue.Later (issue.push opinion) :=
  ⟨rfl, rfl, rfl, List.prefix_append _ _⟩

theorem later_putTo (peers : ℕ) (issue : EvictionIssue C) : issue.Later (issue.putTo peers) :=
  ⟨rfl, rfl, rfl, List.prefix_append _ _⟩

theorem grows_putIssue (peers : ℕ) : Grows s (s.putIssue issueId peers) := by
  have modified : Grows s (s.modifyIssue issueId (·.putTo peers)) := grows_modify (later_putTo peers)
  exact ⟨modified.issues, modified.posted, fun other member => Finmap.mem_insert.mpr (.inr member)⟩

theorem grows_allot (ballots : Ballots s) (peer : C) : Grows s (s.allot issueId peer) := by
  refine ⟨fun _ issue found => ⟨issue, found, .refl issue⟩, fun id entry found => ?_, fun _ member => member⟩
  have different : id ≠ s.nextId := Nat.ne_of_lt (ballots.posted id entry found)
  exact (Finmap.lookup_insert_of_ne _ different).trans found

theorem Verdicts.request (inv : Verdicts s) (put : issueId ∈ s.put) (id : ℕ) : Verdicts (s.addRequest id issueId) := by
  refine ⟨fun other otherIssue asked => ?_, inv.put, inv.resolved, inv.resolvedOnce, inv.evicted⟩
  unfold addRequest Table.insertNew at asked
  split at asked
  · exact inv.requested other otherIssue asked
  · simp only [Table.lookup_insert_eq] at asked
    split at asked
    · cases asked
      exact put
    · exact inv.requested other otherIssue asked

theorem Verdicts.pop (inv : Verdicts s) (id : ℕ) : Verdicts { s with requests := s.requests.erase id } := by
  refine ⟨fun other otherIssue asked => ?_, inv.put, inv.resolved, inv.resolvedOnce, inv.evicted⟩
  simp only [Table.lookup_erase_eq] at asked
  split at asked
  · cases asked
  · exact inv.requested other otherIssue asked

theorem Verdicts.push (inv : Verdicts s) (opinion : Opinion C) : Verdicts (s.modifyIssue issueId (·.push opinion)) := by
  unfold modifyIssue
  split
  · rename_i issue found
    refine inv.change found _ rfl (fun ⟨own, member, is⟩ => ?_) fun flag => flag
    exact ⟨own, List.mem_append_left _ member, is⟩
  · exact inv

variable [DecidableEq C] {order : Order C}

theorem lookup_tryResolveIssue {other : Str} {changed : EvictionIssue C}
    (found : (s.tryResolveIssue order issueId).issues.lookup other = some changed) :
    ∃ before resolved, s.issues.lookup other = some before ∧ changed = { before with resolved := resolved } := by
  by_cases different : other = issueId
  · subst different
    obtain ⟨_, opinions, _⟩ := onlyResolves s order other
    obtain ⟨before, was, _⟩ := opinions other changed found
    obtain ⟨resolved, now, _⟩ := tryResolveIssue_found order was
    exact ⟨before, resolved, was, Option.some.inj (found.symm.trans now)⟩
  · rw [tryResolveIssue_other different] at found
    exact ⟨changed, changed.resolved, found, rfl⟩

theorem grows_tryResolve (order : Order C) (issueId : Str) : Grows s (s.tryResolveIssue order issueId) := by
  obtain ⟨⟨issues, peers, resolutions, evictions, same⟩, _, _⟩ := onlyResolves s order issueId
  refine ⟨fun other before found => ?_, fun id entry found => ?_, fun other member => ?_⟩
  · by_cases different : other = issueId
    · subst different
      obtain ⟨resolved, now, _⟩ := tryResolveIssue_found order found
      exact ⟨_, now, rfl, rfl, rfl, List.prefix_refl _⟩
    · exact ⟨before, (tryResolveIssue_other different).trans found, .refl before⟩
  · rw [same]
    exact found
  · rw [tryResolveIssue_put]
    exact member

theorem tryResolve_peers (order : Order C) (issueId : Str) : (s.tryResolveIssue order issueId).peers ⊆ s.peers := by
  have resolve : ∀ issue verdict, (s.resolveIssue order issueId issue verdict).peers ⊆ s.peers := by
    intro issue verdict
    have kept : (s.modifyIssue issueId fun issue => { issue with resolved := true }).peers = s.peers := by
      unfold modifyIssue
      split <;> rfl
    unfold resolveIssue
    dsimp only
    split
    · unfold evictPeer
      split
      · exact kept.subset
      · exact (Finset.erase_subset _ _).trans kept.subset
    · exact kept.subset
  unfold tryResolveIssue
  split
  · exact Finset.Subset.refl _
  · split
    · exact Finset.Subset.refl _
    · split
      · exact resolve _ true
      · split
        · exact resolve _ false
        · exact Finset.Subset.refl _

theorem tryResolve_evictions {eviction : Eviction C} (member : eviction ∈ (s.tryResolveIssue order issueId).evictions) :
    eviction ∈ s.evictions ∨ ∃ issue, s.issues.lookup issueId = some issue ∧ eviction = ⟨issueId, issue.opinions⟩ := by
  unfold tryResolveIssue at member
  split at member
  · exact .inl member
  · rename_i issue found
    have resolve : ∀ verdict, eviction ∈ (s.resolveIssue order issueId issue verdict).evictions →
        eviction ∈ s.evictions ∨ ∃ issue, s.issues.lookup issueId = some issue ∧
          eviction = ⟨issueId, issue.opinions⟩ := by
      intro verdict member
      obtain ⟨peers, evictions, same, history⟩ := resolveIssue_eq s order issueId issue verdict
      rw [same] at member
      rcases history with rfl | ⟨_, rfl⟩
      · exact .inl member
      · rcases List.mem_append.mp member with old | new
        · exact .inl old
        · exact .inr ⟨issue, found, List.mem_singleton.mp new⟩
    split at member
    · exact .inl member
    · split at member
      · exact resolve true member
      · split at member
        · exact resolve false member
        · exact .inl member

end EvictionServer

/-! ### What holds of a cluster -/

/-- The issue that a thread has found absent. -/
def Phase.judges {C : Type} : Phase C → Option Str
  | .judging issueId _ _ | .learning issueId _ _ _ => some issueId
  | _ => none

namespace Watching

variable {T N : Type}

structure Grows (net after : Watching T N) : Prop where
  nodes : ∀ x, (net.nodes x).server.Grows (after.nodes x).server
  observations : ∀ observation ∈ net.observations, observation ∈ after.observations

section
variable (net : Watching T N)

/-- The node has an issue with this id that is about this peer, for this reason. -/
def Knows (x : N) (issueId peerId reason : Str) : Prop :=
  ∃ issue, (net.nodes x).server.issues.lookup issueId = some issue ∧ issue.peerId = peerId ∧ issue.reason = reason

/-- This is the own opinion of the node. -/
def Opined (x : N) (issueId : Str) (value : Bool) : Prop :=
  ∃ issue, (net.nodes x).server.issues.lookup issueId = some issue ∧ issue.selfOpinion = value

def Observed (x : N) (issueId peerId reason : Str) : Prop :=
  ∃ observation ∈ net.observations, observation.node = x ∧ observation.issueId = issueId ∧
    observation.peerId = peerId ∧ observation.evidence.Grounds reason

/-- The sender has asked the node about the issue. -/
def Asked (x sender : N) (id : ℕ) (issueId : Str) : Prop :=
  (net.nodes sender).server.posted.lookup id = some (x, issueId)

def HoldsOpinion (x : N) (issueId : Str) (opinion : Opinion N) : Prop :=
  match opinion.origin with
  | .own => net.Opined x issueId opinion.value
  | .reply _ sender => net.Opined sender issueId opinion.value

def HoldsPhase (x : N) (context : Option (N × ℕ)) (evidence : Evidence) : Phase N → Prop
  | .idle | .putting _ _ | .expecting _ _ _ => True
  | .beginning _ _ reason => evidence.Grounds reason
  | .judging issueId peerId reason =>
    ∃ sender id, context = some (sender, id) ∧ net.Asked x sender id issueId ∧ net.Knows sender issueId peerId reason
  | .learning issueId peerId reason selfOpinion =>
    (∃ sender id, context = some (sender, id) ∧ net.Asked x sender id issueId ∧ net.Knows sender issueId peerId reason) ∧
      (selfOpinion = true → net.Observed x issueId peerId reason)
  | .replying issueId _ => ∃ sender id, context = some (sender, id) ∧ net.Asked x sender id issueId
  | .waiting issueId _ peers | .asking issueId _ peers => issueId ∈ (net.nodes x).server.put ∧ x ∉ peers
  | .posting _ issueId _ peer rest | .sending _ issueId _ peer rest =>
    issueId ∈ (net.nodes x).server.put ∧ x ≠ peer ∧ x ∉ rest
  | .answered sender id value => ∃ issueId, net.Asked sender x id issueId ∧ net.Opined sender issueId value
  | .counting issueId sender id value =>
    issueId ∈ (net.nodes x).server.put ∧ net.Asked sender x id issueId ∧ net.Opined sender issueId value
  | .resolving issueId => issueId ∈ (net.nodes x).server.put

def HoldsAsk (ask : Ask N) : Prop :=
  net.Asked ask.receiver ask.sender ask.id ask.issueId ∧ net.Knows ask.sender ask.issueId ask.peerId ask.reason

def HoldsAnswer (answer : Answer N) : Prop :=
  ∀ value, answer.body = .opinion value →
    ∃ issueId, net.Asked answer.sender answer.receiver answer.id issueId ∧ net.Opined answer.sender issueId value

/-- What the tables of a node say about the cluster. -/
structure Sound (x : N) (server : EvictionServer N) : Prop where
  apart : x ∉ server.peers
  posted : ∀ id peer issueId, server.posted.lookup id = some (peer, issueId) → peer ≠ x
  few : ∀ issueId peers, server.put.lookup issueId = some peers → peers ≤ 65533
  opinions : ∀ issueId issue, server.issues.lookup issueId = some issue →
    ∀ opinion ∈ issue.opinions, net.HoldsOpinion x issueId opinion
  grounded : ∀ issueId issue, server.issues.lookup issueId = some issue → issue.selfOpinion = true →
    net.Observed x issueId issue.peerId issue.reason
  evictions : ∀ eviction ∈ server.evictions, ∃ issue, server.issues.lookup eviction.issueId = some issue ∧
    eviction.opinions <+: issue.opinions

end

structure Inv [DecidableEq T] [DecidableEq N] (net : Watching T N) : Prop where
  voting : ∀ x, (net.nodes x).voting.Inv
  verdicts : ∀ x, (net.nodes x).server.Verdicts
  sound : ∀ x, net.Sound x (net.nodes x).server
  phases : ∀ x thread, net.HoldsPhase x ((net.nodes x).context thread) ((net.nodes x).evidence thread)
    ((net.nodes x).phase thread)
  /-- Messages are taken up one at a time, so that an issue is absent until it is inserted. -/
  absent : ∀ x thread issueId, ((net.nodes x).phase thread).judges = some issueId →
    (net.nodes x).receiver = some thread ∧ issueId ∉ (net.nodes x).server.issues
  counted : ∀ x peer, ((net.nodes x).watch peer).Counted
  agree : ∀ x y issueId issue other, (net.nodes x).server.issues.lookup issueId = some issue →
    (net.nodes y).server.issues.lookup issueId = some other → issue.peerId = other.peerId ∧ issue.reason = other.reason
  asks : ∀ ask ∈ net.asks, net.HoldsAsk ask
  answers : ∀ answer ∈ net.answers, net.HoldsAnswer answer

/-! ### What holds goes on to hold -/

section
variable {net after : Watching T N} (grows : net.Grows after)

include grows

theorem Grows.knows {x : N} {issueId peerId reason : Str} (knows : net.Knows x issueId peerId reason) :
    after.Knows x issueId peerId reason := by
  obtain ⟨issue, found, about, because⟩ := knows
  obtain ⟨later, now, same⟩ := (grows.nodes x).issues issueId issue found
  exact ⟨later, now, same.peerId.trans about, same.reason.trans because⟩

theorem Grows.opined {x : N} {issueId : Str} {value : Bool} (opined : net.Opined x issueId value) :
    after.Opined x issueId value := by
  obtain ⟨issue, found, is⟩ := opined
  obtain ⟨later, now, same⟩ := (grows.nodes x).issues issueId issue found
  exact ⟨later, now, same.selfOpinion.trans is⟩

theorem Grows.observed {x : N} {issueId peerId reason : Str} (observed : net.Observed x issueId peerId reason) :
    after.Observed x issueId peerId reason := by
  obtain ⟨observation, member, rest⟩ := observed
  exact ⟨observation, grows.observations observation member, rest⟩

theorem Grows.asked {x sender : N} {id : ℕ} {issueId : Str} (asked : net.Asked x sender id issueId) :
    after.Asked x sender id issueId := (grows.nodes sender).posted _ _ asked

theorem Grows.opinion {x : N} {issueId : Str} {opinion : Opinion N} (holds : net.HoldsOpinion x issueId opinion) :
    after.HoldsOpinion x issueId opinion := by
  unfold HoldsOpinion at holds ⊢
  split at holds <;> exact grows.opined holds

theorem Grows.phase {x : N} {context : Option (N × ℕ)} {evidence : Evidence} {phase : Phase N}
    (holds : net.HoldsPhase x context evidence phase) : after.HoldsPhase x context evidence phase := by
  have put : ∀ {issueId}, issueId ∈ (net.nodes x).server.put → issueId ∈ (after.nodes x).server.put :=
    fun member => (grows.nodes x).put _ member
  cases phase with
  | idle | putting | expecting => trivial
  | beginning => exact holds
  | judging issueId peerId reason =>
    obtain ⟨sender, id, same, asked, knows⟩ := holds
    exact ⟨sender, id, same, grows.asked asked, grows.knows knows⟩
  | learning issueId peerId reason selfOpinion =>
    obtain ⟨⟨sender, id, same, asked, knows⟩, observed⟩ := holds
    exact ⟨⟨sender, id, same, grows.asked asked, grows.knows knows⟩, fun opinion => grows.observed (observed opinion)⟩
  | replying issueId peerId =>
    obtain ⟨sender, id, same, asked⟩ := holds
    exact ⟨sender, id, same, grows.asked asked⟩
  | waiting | asking | posting | sending => exact ⟨put holds.1, holds.2⟩
  | answered sender id value =>
    obtain ⟨issueId, asked, opined⟩ := holds
    exact ⟨issueId, grows.asked asked, grows.opined opined⟩
  | counting issueId sender id value => exact ⟨put holds.1, grows.asked holds.2.1, grows.opined holds.2.2⟩
  | resolving => exact put holds

theorem Grows.ask {ask : Ask N} (holds : net.HoldsAsk ask) : after.HoldsAsk ask :=
  ⟨grows.asked holds.1, grows.knows holds.2⟩

theorem Grows.answer {answer : Answer N} (holds : net.HoldsAnswer answer) : after.HoldsAnswer answer := by
  intro value is
  obtain ⟨issueId, asked, opined⟩ := holds value is
  exact ⟨issueId, grows.asked asked, grows.opined opined⟩

theorem Grows.sound {x : N} {server : EvictionServer N} (sound : net.Sound x server) : after.Sound x server where
  apart := sound.apart
  posted := sound.posted
  few := sound.few
  opinions issueId issue found opinion member := grows.opinion (sound.opinions issueId issue found opinion member)
  grounded issueId issue found opinion := grows.observed (sound.grounded issueId issue found opinion)
  evictions := sound.evictions

end

/-! ### The tables of a node -/

section
variable {net : Watching T N} {x : N} {server after : EvictionServer N} {issueId : Str}

theorem Sound.same (sound : net.Sound x server) (peers : x ∉ after.peers) (issues : after.issues = server.issues)
    (posted : after.posted = server.posted) (put : after.put = server.put)
    (evictions : after.evictions = server.evictions) :
    net.Sound x after where
  apart := peers
  posted := posted ▸ sound.posted
  few := put ▸ sound.few
  opinions := issues ▸ sound.opinions
  grounded := issues ▸ sound.grounded
  evictions := by
    rw [issues, evictions]
    exact sound.evictions

theorem Sound.insert (sound : net.Sound x server) {issue : EvictionIssue N} (fresh : issueId ∉ server.issues)
    (empty : issue.opinions = [])
    (observed : issue.selfOpinion = true → net.Observed x issueId issue.peerId issue.reason) :
    net.Sound x (server.insertEvictionIssue issueId issue) where
  apart := sound.apart
  posted := sound.posted
  few := sound.few
  opinions other found_ found opinion member := by
    rw [EvictionServer.lookup_insertEvictionIssue fresh] at found
    split at found
    · rw [← Option.some.inj found, empty] at member
      cases member
    · exact sound.opinions other found_ found opinion member
  grounded other found_ found opinion := by
    rw [EvictionServer.lookup_insertEvictionIssue fresh] at found
    split at found
    · rename_i same
      rw [← Option.some.inj found] at opinion ⊢
      rw [same]
      exact observed opinion
    · exact sound.grounded other found_ found opinion
  evictions eviction member := by
    obtain ⟨issue, found, before⟩ := sound.evictions eviction member
    have different : eviction.issueId ≠ issueId := fun same => fresh (same ▸ Table.mem_of_lookup found)
    rw [EvictionServer.lookup_insertEvictionIssue fresh, if_neg different]
    exact ⟨issue, found, before⟩

/-- An issue gets another opinion, and may be put to the peers. -/
theorem Sound.modify (sound : net.Sound x server) {change : EvictionIssue N → EvictionIssue N}
    (later : ∀ issue, EvictionIssue.Later issue (change issue))
    (opinions : ∀ issue, server.issues.lookup issueId = some issue → ∀ opinion ∈ (change issue).opinions,
      opinion ∈ issue.opinions ∨ net.HoldsOpinion x issueId opinion) :
    net.Sound x (server.modifyIssue issueId change) := by
  have frame : ∃ issues, server.modifyIssue issueId change = { server with issues } := by
    unfold EvictionServer.modifyIssue
    split
    · exact ⟨_, rfl⟩
    · exact ⟨server.issues, rfl⟩
  have grows : server.Grows (server.modifyIssue issueId change) := EvictionServer.grows_modify later
  refine ⟨?_, ?_, ?_, fun other changed found opinion member => ?_, fun other changed found opinion => ?_,
    fun eviction member => ?_⟩
  · obtain ⟨issues, same⟩ := frame
    rw [same]
    exact sound.apart
  · obtain ⟨issues, same⟩ := frame
    rw [same]
    exact sound.posted
  · obtain ⟨issues, same⟩ := frame
    rw [same]
    exact sound.few
  · obtain ⟨before, was, rfl⟩ := EvictionServer.lookup_modifyIssue found
    split at member
    · rename_i same
      subst same
      rcases opinions before was opinion member with old | new
      · exact sound.opinions other before was opinion old
      · exact new
    · exact sound.opinions other before was opinion member
  · obtain ⟨before, was, rfl⟩ := EvictionServer.lookup_modifyIssue found
    split at opinion
    · rename_i same
      rw [if_pos same]
      have kept := later before
      rw [kept.peerId, kept.reason]
      exact sound.grounded other before was (kept.selfOpinion ▸ opinion)
    · rename_i different
      rw [if_neg different]
      exact sound.grounded other before was opinion
  · have known : eviction ∈ server.evictions := by
      obtain ⟨issues, same⟩ := frame
      rw [same] at member
      exact member
    obtain ⟨issue, found, before⟩ := sound.evictions eviction known
    obtain ⟨now, found, kept⟩ := grows.issues _ issue found
    exact ⟨now, found, before.trans kept.opinions⟩

theorem Sound.push (sound : net.Sound x server) {opinion : Opinion N} (holds : net.HoldsOpinion x issueId opinion) :
    net.Sound x (server.modifyIssue issueId (·.push opinion)) := by
  refine sound.modify (EvictionServer.later_push opinion) fun issue found other member => ?_
  rcases List.mem_append.mp member with old | new
  · exact .inl old
  · rw [List.mem_singleton.mp new]
    exact .inr holds

theorem Sound.putIssue (sound : net.Sound x server) {peers : ℕ} (few : peers ≤ 65533)
    (opined : ∀ issue, server.issues.lookup issueId = some issue → net.Opined x issueId issue.selfOpinion) :
    net.Sound x (server.putIssue issueId peers) := by
  have modified : net.Sound x (server.modifyIssue issueId (·.putTo peers)) := by
    refine sound.modify (EvictionServer.later_putTo peers) fun issue found other member => ?_
    rcases List.mem_append.mp member with old | new
    · exact .inl old
    · rw [List.mem_singleton.mp new]
      exact .inr (opined issue found)
  refine ⟨modified.apart, modified.posted, fun other count put => ?_, modified.opinions, modified.grounded,
    modified.evictions⟩
  simp only [EvictionServer.putIssue, Table.lookup_insert_eq] at put
  split at put
  · rw [← Option.some.inj put]
    exact few
  · exact sound.few other count put

theorem Sound.allot (sound : net.Sound x server) {peer : N} (other : peer ≠ x) :
    net.Sound x (server.allot issueId peer) := by
  refine ⟨sound.apart, fun id target about found => ?_, sound.few, sound.opinions, sound.grounded, sound.evictions⟩
  simp only [EvictionServer.allot, Table.lookup_insert_eq] at found
  split at found
  · cases found
    exact other
  · exact sound.posted id target about found

theorem Sound.tryResolve [DecidableEq N] (sound : net.Sound x server) (order : Order N) (issueId : Str) :
    net.Sound x (server.tryResolveIssue order issueId) := by
  have grows : server.Grows (server.tryResolveIssue order issueId) := EvictionServer.grows_tryResolve order issueId
  have frame := EvictionServer.onlyResolves server order issueId
  refine ⟨fun member => sound.apart (EvictionServer.tryResolve_peers order issueId member), ?_, ?_,
    fun other changed found opinion member => ?_, fun other changed found opinion => ?_, fun eviction member => ?_⟩
  · obtain ⟨⟨_, _, _, _, same⟩, _, _⟩ := frame
    rw [same]
    exact sound.posted
  · rw [EvictionServer.tryResolveIssue_put]
    exact sound.few
  · obtain ⟨before, resolved, was, rfl⟩ := EvictionServer.lookup_tryResolveIssue found
    exact sound.opinions other before was opinion member
  · obtain ⟨before, resolved, was, rfl⟩ := EvictionServer.lookup_tryResolveIssue found
    exact sound.grounded other before was opinion
  · rcases EvictionServer.tryResolve_evictions member with old | ⟨issue, found, rfl⟩
    · obtain ⟨issue, found, before⟩ := sound.evictions eviction old
      obtain ⟨now, found, kept⟩ := grows.issues _ issue found
      exact ⟨now, found, before.trans kept.opinions⟩
    · obtain ⟨now, found, kept⟩ := grows.issues _ issue found
      exact ⟨now, found, kept.opinions⟩

end

/-! ### A step of one node -/

section
variable [DecidableEq T] [DecidableEq N] {net after : Watching T N} {x : N}

theorem Inv.advance (inv : net.Inv) (grows : net.Grows after) (others : ∀ y, y ≠ x → after.nodes y = net.nodes y)
    (voting : (after.nodes x).voting.Inv) (verdicts : (after.nodes x).server.Verdicts)
    (sound : after.Sound x (after.nodes x).server)
    (phases : ∀ thread, after.HoldsPhase x ((after.nodes x).context thread) ((after.nodes x).evidence thread)
      ((after.nodes x).phase thread))
    (absent : ∀ thread issueId, ((after.nodes x).phase thread).judges = some issueId →
      (after.nodes x).receiver = some thread ∧ issueId ∉ (after.nodes x).server.issues)
    (counted : ∀ peer, ((after.nodes x).watch peer).Counted)
    (known : ∀ issueId issue, (after.nodes x).server.issues.lookup issueId = some issue →
      (∃ y, net.Knows y issueId issue.peerId issue.reason) ∨ ∀ y, issueId ∉ (net.nodes y).server.issues)
    (asks : ∀ ask ∈ after.asks, ask ∈ net.asks ∨ after.HoldsAsk ask)
    (answers : ∀ answer ∈ after.answers, answer ∈ net.answers ∨ after.HoldsAnswer answer) : after.Inv := by
  -- an issue of the node that has moved, and that of another
  have agreed : ∀ y issueId issue other, y ≠ x → (after.nodes x).server.issues.lookup issueId = some issue →
      (net.nodes y).server.issues.lookup issueId = some other → issue.peerId = other.peerId ∧
      issue.reason = other.reason := by
    intro y issueId issue other _ found foundToo
    rcases known issueId issue found with ⟨z, before, was, about, because⟩ | new
    · rw [← about, ← because]
      exact inv.agree z y issueId before other was foundToo
    · exact absurd (Table.mem_of_lookup foundToo) (new y)
  refine ⟨fun y => ?_, fun y => ?_, fun y => ?_, fun y => ?_, fun y => ?_, fun y => ?_,
    fun y z issueId issue other found foundToo => ?_,
    fun ask member => ?_, fun answer member => ?_⟩
  · by_cases same : y = x
    · exact same ▸ voting
    · exact others y same ▸ inv.voting y
  · by_cases same : y = x
    · exact same ▸ verdicts
    · exact others y same ▸ inv.verdicts y
  · by_cases same : y = x
    · exact same ▸ sound
    · exact others y same ▸ grows.sound (inv.sound y)
  · by_cases same : y = x
    · exact same ▸ phases
    · rw [others y same]
      exact fun thread => grows.phase (inv.phases y thread)
  · by_cases same : y = x
    · exact same ▸ absent
    · exact others y same ▸ inv.absent y
  · by_cases same : y = x
    · exact same ▸ counted
    · exact others y same ▸ inv.counted y
  · by_cases first : y = x
    · subst first
      by_cases second : z = y
      · subst second
        cases found.symm.trans foundToo
        exact ⟨rfl, rfl⟩
      · rw [others z second] at foundToo
        exact agreed z issueId issue other second found foundToo
    · rw [others y first] at found
      by_cases second : z = x
      · subst second
        obtain ⟨about, because⟩ := agreed y issueId other issue first foundToo found
        exact ⟨about.symm, because.symm⟩
      · rw [others z second] at foundToo
        exact inv.agree y z issueId issue other found foundToo
  · rcases asks ask member with old | new
    · exact grows.ask (inv.asks ask old)
    · exact new
  · rcases answers answer member with old | new
    · exact grows.answer (inv.answers answer old)
    · exact new

omit [DecidableEq T] in
theorem setNode_self (x : N) (net : Watching T N) (node : WatchingNode T N) : (net.setNode x node).nodes x = node :=
  Function.update_self ..

omit [DecidableEq T] in
theorem setNode_other {y : N} (other : y ≠ x) (net : Watching T N) (node : WatchingNode T N) :
    (net.setNode x node).nodes y = net.nodes y :=
  Function.update_of_ne other ..

omit [DecidableEq T] in
theorem grows_setNode (base : Watching T N) (nodes : base.nodes = net.nodes)
    (observations : ∀ observation ∈ net.observations, observation ∈ base.observations) {node : WatchingNode T N}
    (grows : (net.nodes x).server.Grows node.server) : net.Grows (base.setNode x node) where
  nodes y := by
    by_cases same : y = x
    · rw [same, setNode_self]
      exact grows
    · rw [setNode_other same, nodes]
      exact .refl _
  observations := observations

/-- A thread of a node enters a phase. -/
theorem Inv.moved (inv : net.Inv) (base : Watching T N) (nodes : base.nodes = net.nodes)
    (observations : ∀ observation ∈ net.observations, observation ∈ base.observations) {voting : Voting T N}
    (is : after = base.setNode x { net.nodes x with voting }) {thread : T} {phase : Phase N}
    (entered : voting.phase = Function.update (net.nodes x).voting.phase thread phase)
    (grows : (net.nodes x).server.Grows voting.server) (votes : voting.Inv) (verdicts : voting.server.Verdicts)
    (sound : net.Grows after → after.Sound x voting.server)
    (holds : net.Grows after → after.HoldsPhase x ((net.nodes x).context thread) ((net.nodes x).evidence thread) phase)
    (absent : ∀ issueId, phase.judges = some issueId →
      (net.nodes x).receiver = some thread ∧ issueId ∉ (net.nodes x).server.issues)
    (still : ∀ other issueId, (other = thread ∨ ((net.nodes x).phase other).judges = some issueId) →
      (Function.update (net.nodes x).voting.phase thread phase other).judges = some issueId →
      issueId ∉ (net.nodes x).server.issues → issueId ∉ voting.server.issues)
    (known : ∀ issueId issue, voting.server.issues.lookup issueId = some issue →
      (∃ y, net.Knows y issueId issue.peerId issue.reason) ∨ ∀ y, issueId ∉ (net.nodes y).server.issues)
    (asks : net.Grows after → ∀ ask ∈ base.asks, ask ∈ net.asks ∨ after.HoldsAsk ask)
    (answers : net.Grows after → ∀ answer ∈ base.answers, answer ∈ net.answers ∨ after.HoldsAnswer answer) :
    after.Inv := by
  subst is
  have larger : net.Grows (base.setNode x { net.nodes x with voting }) := grows_setNode base nodes observations grows
  have here := setNode_self x base { net.nodes x with voting }
  refine inv.advance larger (fun y other => by rw [setNode_other other, nodes]) ?_ ?_ ?_ (fun other => ?_)
    (fun other issueId judges => ?_) (fun peer => ?_) ?_ (asks larger) (answers larger)
  · rw [here]
    exact votes
  · rw [here]
    exact verdicts
  · rw [here]
    exact sound larger
  · rw [here]
    show HoldsPhase _ x _ _ (voting.phase other)
    rw [entered]
    by_cases same : other = thread
    · subst same
      rw [Function.update_self]
      exact holds larger
    · rw [Function.update_of_ne same]
      exact larger.phase (inv.phases x other)
  · rw [here] at judges ⊢
    change (voting.phase other).judges = some issueId at judges
    rw [entered] at judges
    by_cases same : other = thread
    · have now := judges
      subst same
      rw [Function.update_self] at now
      obtain ⟨receives, fresh⟩ := absent issueId now
      exact ⟨receives, still other issueId (.inl rfl) judges fresh⟩
    · have before := judges
      rw [Function.update_of_ne same] at before
      obtain ⟨receives, fresh⟩ := inv.absent x other issueId before
      exact ⟨receives, still other issueId (.inr before) judges fresh⟩
  · rw [here]
    exact inv.counted x peer
  · rw [here]
    exact known

/-- A thread enters a phase, and the tables that others rely on stay as they are. -/
theorem Inv.movedQuietly (inv : net.Inv) (base : Watching T N) (nodes : base.nodes = net.nodes)
    (observations : ∀ observation ∈ net.observations, observation ∈ base.observations) {voting : Voting T N}
    (is : after = base.setNode x { net.nodes x with voting }) {thread : T} {phase : Phase N}
    (entered : voting.phase = Function.update (net.nodes x).voting.phase thread phase)
    (peers : voting.server.peers = (net.nodes x).server.peers)
    (issues : voting.server.issues = (net.nodes x).server.issues)
    (posted : voting.server.posted = (net.nodes x).server.posted) (put : voting.server.put = (net.nodes x).server.put)
    (evictions : voting.server.evictions = (net.nodes x).server.evictions)
    (votes : voting.Inv) (verdicts : voting.server.Verdicts)
    (holds : net.Grows after → after.HoldsPhase x ((net.nodes x).context thread) ((net.nodes x).evidence thread) phase)
    (judges : ∀ issueId, phase.judges = some issueId → ((net.nodes x).phase thread).judges = some issueId)
    (asks : net.Grows after → ∀ ask ∈ base.asks, ask ∈ net.asks ∨ after.HoldsAsk ask)
    (answers : net.Grows after → ∀ answer ∈ base.answers, answer ∈ net.answers ∨ after.HoldsAnswer answer) :
    after.Inv := by
  refine inv.moved base nodes observations is entered (EvictionServer.grows_same issues posted put) votes verdicts
    (fun grows => ?_)
    holds (fun issueId now => inv.absent x thread issueId (judges issueId now)) (fun other issueId _ _ fresh => ?_)
    (fun issueId issue found => ?_) asks answers
  · have apart := (inv.sound x).apart
    exact (grows.sound (inv.sound x)).same (peers ▸ apart) issues posted put evictions
  · rw [issues]
    exact fresh
  · rw [issues] at found
    exact .inl ⟨x, issue, found, rfl, rfl⟩

omit [DecidableEq T] [DecidableEq N] in
theorem mem_reply {sent : Bool} {answer new : Answer N} (member : answer ∈ (net.reply sent new).answers) :
    answer ∈ net.answers ∨ answer = new := by
  unfold reply at member
  split at member
  · exact (List.mem_append.mp member).imp_right List.mem_singleton.mp
  · exact .inl member

/-- What `replyTo` does, which is nothing but a reply. -/
structure Replies (net after : Watching T N) (x : N) (context : Option (N × ℕ)) (body : ReplyBody) : Prop where
  nodes : after.nodes = net.nodes
  observations : after.observations = net.observations
  asks : after.asks = net.asks
  answers : ∀ answer ∈ after.answers, answer ∈ net.answers ∨
    ∃ sender id, context = some (sender, id) ∧ answer = ⟨x, sender, id, body⟩

omit [DecidableEq T] [DecidableEq N] in
theorem replyTo_replies (net : Watching T N) (x : N) (thread : T) (sent : Bool) (body : ReplyBody) :
    Replies net (net.replyTo x thread sent body) x ((net.nodes x).context thread) body := by
  unfold replyTo
  split
  · rename_i sender id context
    refine ⟨?_, ?_, ?_, fun answer member => (mem_reply member).imp_right fun same => ⟨sender, id, context, same⟩⟩
    all_goals
      unfold reply
      split <;> rfl
  · exact ⟨rfl, rfl, rfl, fun answer member => .inl member⟩

/-! ### The steps of a thread -/

omit [DecidableEq T] in
/-- The opinion that a node forms on a peer has grounds. -/
theorem selfOpinionOn_grounds {node : WatchingNode T N} (counted : ∀ peer, (node.watch peer).Counted) {order : Order N}
    {now : ℕ} {peerId reason : Str} {peer : N} (is : node.server.peerFromId order peerId = some peer)
    (opinion : node.server.selfOpinionOn order (node.judge now) peerId reason = some true) :
    ((node.watch peer).evidence now).Grounds reason := by
  unfold EvictionServer.selfOpinionOn at opinion
  rw [is] at opinion
  dsimp only at opinion
  split at opinion
  · rename_i misbehaving
    exact .inl ⟨misbehaving, misbehaving_reports (counted peer) (Option.some.inj opinion)⟩
  · split at opinion
    · rename_i dead
      exact .inr ⟨dead, of_decide_eq_true (Option.some.inj opinion)⟩
    · cases opinion

theorem Inv.judged (inv : net.Inv) {thread : T} {issueId : Str}
    (judges : ((net.nodes x).phase thread).judges = some issueId) :
    ∃ sender, issueId ∈ (net.nodes sender).server.issues := by
  have asked := inv.phases x thread
  cases there : (net.nodes x).phase thread with
  | judging id _ _ =>
    rw [there] at judges asked
    obtain ⟨sender, _, _, _, issue, found, _⟩ := asked
    cases judges
    exact ⟨sender, Table.mem_of_lookup found⟩
  | learning id _ _ _ =>
    rw [there] at judges asked
    obtain ⟨⟨sender, _, _, _, issue, found, _⟩, _⟩ := asked
    cases judges
    exact ⟨sender, Table.mem_of_lookup found⟩
  | _ =>
    rw [there] at judges
    cases judges

section
variable {thread : T} {order : Order N} {randomId : Str} {sent : Bool}

theorem beginning_inv (inv : net.Inv) {peer : N} {peerId reason : Str}
    (now : (net.nodes x).phase thread = .beginning peer peerId reason)
    (fresh : ∀ y, randomId ∉ (net.nodes y).server.issues)
    {voting : Voting T N} (votes : voting.Inv)
    (is : voting = (net.nodes x).voting.enter thread (.putting randomId (.allBut peer))
      ((net.nodes x).server.insertEvictionIssue randomId { peerId, reason, selfOpinion := true })) :
    ((net.observe ⟨x, randomId, peerId, (net.nodes x).evidence thread⟩).setNode x { net.nodes x with voting }).Inv := by
  subst is
  have holds := inv.phases x thread
  rw [now] at holds
  refine inv.moved (net.observe _) rfl (fun _ member => List.mem_append_left _ member) rfl rfl
    (EvictionServer.grows_insert (fresh x)) votes ((inv.verdicts x).insert (fresh x)) (fun grows => ?_)
    (fun _ => trivial) nofun
    (fun other issueId judges moved absent => ?_) (fun issueId issue found => ?_) (fun _ _ member => .inl member)
    (fun _ _ member => .inl member)
  · refine (grows.sound (inv.sound x)).insert (fresh x) rfl fun _ => ?_
    exact ⟨⟨x, randomId, peerId, (net.nodes x).evidence thread⟩, List.mem_append_right _ (List.mem_singleton_self _),
      rfl, rfl, rfl, holds⟩
  · rcases judges with rfl | judges
    · rw [Function.update_self] at moved
      cases moved
    · -- the issue that is judged is known where the request comes from
      have other_ : issueId ≠ randomId := by
        rintro rfl
        obtain ⟨sender, known⟩ := inv.judged judges
        exact fresh sender known
      intro member
      obtain ⟨issue, found⟩ := Finmap.mem_iff.mp member
      change ((net.nodes x).server.insertEvictionIssue _ _).issues.lookup issueId = some issue at found
      rw [EvictionServer.lookup_insertEvictionIssue (fresh x), if_neg other_] at found
      exact absent (Table.mem_of_lookup found)
  · change ((net.nodes x).server.insertEvictionIssue _ _).issues.lookup issueId = some issue at found
    rw [EvictionServer.lookup_insertEvictionIssue (fresh x)] at found
    split at found
    · rename_i same
      exact .inr (same ▸ fresh)
    · exact .inl ⟨x, issue, found, rfl, rfl⟩

theorem learning_inv (inv : net.Inv) {issueId peerId reason : Str} {selfOpinion : Bool}
    (now : (net.nodes x).phase thread = .learning issueId peerId reason selfOpinion)
    {voting : Voting T N} (votes : voting.Inv)
    (is : voting = (net.nodes x).voting.enter thread (.replying issueId peerId)
      ((net.nodes x).server.insertEvictionIssue issueId { peerId, reason, selfOpinion })) :
    (net.setNode x { net.nodes x with voting }).Inv := by
  subst is
  have holds := inv.phases x thread
  rw [now] at holds
  obtain ⟨⟨sender, id, context, asked, knows⟩, observed⟩ := holds
  have judging : ((net.nodes x).phase thread).judges = some issueId := by rw [now]; rfl
  obtain ⟨receives, fresh⟩ := inv.absent x thread issueId judging
  refine inv.moved net rfl (fun _ member => member) rfl rfl (EvictionServer.grows_insert fresh) votes
    ((inv.verdicts x).insert fresh) (fun grows => ?_) (fun grows => ⟨sender, id, context, grows.asked asked⟩) nofun
    (fun other about judges moved _ => ?_) (fun about issue found => ?_) (fun _ _ member => .inl member)
    (fun _ _ member => .inl member)
  · exact (grows.sound (inv.sound x)).insert fresh rfl fun opinion => grows.observed (observed opinion)
  · -- the thread that learns is the one that takes up messages
    by_cases same : other = thread
    · rw [same, Function.update_self] at moved
      cases moved
    · rw [Function.update_of_ne same] at moved
      obtain ⟨receivesToo, _⟩ := inv.absent x other about moved
      exact absurd (Option.some.inj (receivesToo.symm.trans receives)) same
  · change ((net.nodes x).server.insertEvictionIssue _ _).issues.lookup about = some issue at found
    rw [EvictionServer.lookup_insertEvictionIssue fresh] at found
    split at found
    · rename_i same
      rw [← Option.some.inj found, same]
      exact .inl ⟨sender, knows⟩
    · exact .inl ⟨x, issue, found, rfl, rfl⟩

/-- An issue that is about to be put has not been put before. -/
theorem Inv.unput (inv : net.Inv) {issueId : Str} (opening : ((net.nodes x).phase thread).opening = some issueId) :
    issueId ∉ (net.nodes x).server.put := by
  intro member
  obtain ⟨peers, put⟩ := Finmap.mem_iff.mp member
  obtain ⟨issue, found, _, opinion, has, own⟩ := (inv.verdicts x).put issueId peers put
  have none_ := ((inv.voting x).owners.opening thread issueId opening).1 issue found
  refine List.countP_eq_zero.mp none_ opinion has ?_
  unfold Opinion.isOwn
  rw [own]

theorem putting_inv (inv : net.Inv) {issueId : Str} {audience : Audience N}
    (now : (net.nodes x).phase thread = .putting issueId audience) (few : (net.nodes x).server.peers.card ≤ 65533)
    {voting : Voting T N} (votes : voting.Inv)
    (is : voting = (net.nodes x).voting.enter thread (.waiting issueId audience (order.list (net.nodes x).server.peers))
      ((net.nodes x).server.putIssue issueId (order.list (net.nodes x).server.peers).length)) :
    (net.setNode x { net.nodes x with voting }).Inv := by
  subst is
  have opening : ((net.nodes x).phase thread).opening = some issueId := by rw [now]; rfl
  obtain ⟨issue, found⟩ := Finmap.mem_iff.mp ((inv.voting x).owners.known thread issueId (.inl opening))
  rw [← order.length] at few
  refine inv.moved net rfl (fun _ member => member) rfl rfl (EvictionServer.grows_putIssue _) votes
    ((inv.verdicts x).putIssue found (inv.unput opening) _) (fun grows => ?_) (fun _ => ⟨?_, fun member => ?_⟩) nofun
    (fun other about _ _ fresh member => ?_) (fun about changed there => ?_) (fun _ _ member => .inl member)
    (fun _ _ member => .inl member)
  · refine (grows.sound (inv.sound x)).putIssue few fun issue there => grows.opined ⟨issue, there, rfl⟩
  · rw [setNode_self]
    exact Finmap.mem_insert.mpr (.inl rfl)
  · exact (inv.sound x).apart ((order.mem _ _).mp member)
  · obtain ⟨changed, there⟩ := Finmap.mem_iff.mp member
    obtain ⟨before, was, _⟩ := EvictionServer.lookup_modifyIssue there
    exact fresh (Table.mem_of_lookup was)
  · obtain ⟨before, was, rfl⟩ := EvictionServer.lookup_modifyIssue there
    refine .inl ⟨x, before, was, ?_⟩
    split <;> exact ⟨rfl, rfl⟩

theorem allot_inv (inv : net.Inv) {issueId : Str} {audience : Audience N} {peer : N} {rest : List N}
    (now : (net.nodes x).phase thread = .asking issueId audience (peer :: rest)) {voting : Voting T N}
    (votes : voting.Inv)
    (is : voting = (net.nodes x).voting.enter thread (.posting (net.nodes x).server.nextId issueId audience peer rest)
      ((net.nodes x).server.allot issueId peer)) :
    (net.setNode x { net.nodes x with voting }).Inv := by
  subst is
  have holds := inv.phases x thread
  rw [now] at holds
  obtain ⟨put, apart⟩ := holds
  obtain ⟨other, others⟩ := not_or.mp (mt List.mem_cons.mpr apart)
  obtain ⟨requested, puts, resolved, once, evicted⟩ := inv.verdicts x
  refine inv.moved net rfl (fun _ member => member) rfl rfl
    (EvictionServer.grows_allot (inv.voting x).messages.ballots peer) votes
    ⟨requested, puts, resolved, once, evicted⟩ (fun grows => ?_)
    (fun grows => ⟨(grows.nodes x).put issueId put, other, others⟩) nofun
    (fun _ _ _ _ fresh => fresh) (fun about issue found => .inl ⟨x, issue, found, rfl, rfl⟩)
    (fun _ _ member => .inl member)
    (fun _ _ member => .inl member)
  exact (grows.sound (inv.sound x)).allot fun same => other same.symm

theorem counting_inv (inv : net.Inv) {issueId : Str} {sender : N} {id : ℕ} {value : Bool}
    (now : (net.nodes x).phase thread = .counting issueId sender id value) {voting : Voting T N} (votes : voting.Inv)
    (is : voting = (net.nodes x).voting.enter thread (.resolving issueId)
      ((net.nodes x).server.modifyIssue issueId (·.push ⟨.reply id sender, value⟩))) :
    (net.setNode x { net.nodes x with voting }).Inv := by
  subst is
  have holds := inv.phases x thread
  rw [now] at holds
  obtain ⟨put, _, opined⟩ := holds
  refine inv.moved net rfl (fun _ member => member) rfl rfl
    (EvictionServer.grows_modify (EvictionServer.later_push _)) votes
    ((inv.verdicts x).push _) (fun grows => ?_) (fun grows => (grows.nodes x).put issueId put) nofun
    (fun other about _ _ fresh member => ?_) (fun about changed there => ?_) (fun _ _ member => .inl member)
    (fun _ _ member => .inl member)
  · exact (grows.sound (inv.sound x)).push (grows.opined opined)
  · obtain ⟨changed, there⟩ := Finmap.mem_iff.mp member
    obtain ⟨before, was, _⟩ := EvictionServer.lookup_modifyIssue there
    exact fresh (Table.mem_of_lookup was)
  · obtain ⟨before, was, rfl⟩ := EvictionServer.lookup_modifyIssue there
    refine .inl ⟨x, before, was, ?_⟩
    split <;> exact ⟨rfl, rfl⟩

theorem resolving_inv (inv : net.Inv) {issueId : Str} (now : (net.nodes x).phase thread = .resolving issueId)
    {voting : Voting T N} (votes : voting.Inv)
    (is : voting = (net.nodes x).voting.enter thread .idle ((net.nodes x).server.tryResolveIssue order issueId)) :
    (net.setNode x { net.nodes x with voting }).Inv := by
  subst is
  have put := inv.phases x thread
  rw [now] at put
  refine inv.moved net rfl (fun _ member => member) rfl rfl (EvictionServer.grows_tryResolve order issueId) votes
    ((inv.verdicts x).tryResolve put) (fun grows => ?_) (fun _ => trivial) nofun
    (fun other about _ _ fresh member => ?_) (fun about changed there => ?_) (fun _ _ member => .inl member)
    (fun _ _ member => .inl member)
  · exact (grows.sound (inv.sound x)).tryResolve order issueId
  · obtain ⟨changed, there⟩ := Finmap.mem_iff.mp member
    obtain ⟨before, _, was, _⟩ := EvictionServer.lookup_tryResolveIssue there
    exact fresh (Table.mem_of_lookup was)
  · obtain ⟨before, resolved, was, rfl⟩ := EvictionServer.lookup_tryResolveIssue there
    exact .inl ⟨x, before, was, rfl, rfl⟩

/-- What `get_eviction_issue` found absent is absent when it is inserted. -/
theorem go_faithful (inv : net.Inv) (allowed : net.Allowed (.go x thread order randomId sent)) :
    (net.nodes x).voting.Faithful (.go thread order ((net.nodes x).judge net.time) randomId sent) := by
  show (net.nodes x).voting.Absent thread randomId
  unfold Allowed AllowsStep at allowed
  unfold Voting.Absent
  cases now : (net.nodes x).phase thread with
  | beginning peer peerId reason =>
    simp only [now] at allowed ⊢
    exact allowed x
  | learning issueId peerId reason selfOpinion =>
    have judging : ((net.nodes x).phase thread).judges = some issueId := by rw [now]; rfl
    simp only [now]
    exact (inv.absent x thread issueId judging).2
  | _ => simp only [now]

theorem go_inv (inv : net.Inv) (allowed : net.Allowed (.go x thread order randomId sent)) {voting : Voting T N}
    (taken : (net.nodes x).voting.go thread order ((net.nodes x).judge net.time) randomId sent = some voting) :
    ((net.outcome x thread order randomId sent).setNode x { net.nodes x with voting }).Inv := by
  have votes : voting.Inv := (inv.voting x).go (go_faithful inv allowed) taken
  have holds : net.HoldsPhase x _ _ ((net.nodes x).voting.phase thread) := inv.phases x thread
  obtain ⟨requested, puts, resolved, once, evicted⟩ := inv.verdicts x
  unfold Voting.go at taken
  unfold outcome
  unfold Allowed AllowsStep at allowed
  cases now : (net.nodes x).voting.phase thread with
  | idle =>
    rw [now] at taken
    cases taken
  | beginning peer peerId reason =>
    simp only [WatchingNode.phase, now] at taken allowed ⊢
    exact beginning_inv inv now allowed votes (Option.some.inj taken).symm
  | judging issueId peerId reason =>
    rw [now] at holds
    simp only [WatchingNode.phase, WatchingNode.server, now] at taken ⊢
    obtain ⟨sender, id, context, asked, knows⟩ := holds
    split at taken
    · rename_i failed
      rw [failed]
      obtain ⟨nodes, observations, asks, answers⟩ := replyTo_replies net x thread sent .other
      cases taken
      have replied : ((net.replyTo x thread sent .other).setNode x { net.nodes x with
          voting := (net.nodes x).voting.enter thread .idle (net.nodes x).voting.server }).Inv := by
        refine inv.movedQuietly (net.replyTo x thread sent .other) nodes
          (fun _ member => observations ▸ member) rfl rfl rfl rfl
          rfl rfl rfl votes ⟨requested, puts, resolved, once, evicted⟩ (fun _ => trivial)
            (fun _ judges => by cases judges)
          (fun _ _ member => .inl (asks ▸ member)) (fun _ answer member => ?_)
        rcases answers answer member with old | ⟨_, _, _, rfl⟩
        · exact .inl old
        · exact .inr fun _ is => by cases is
      cases (net.nodes x).voting.server.peerFromId order peerId <;> exact replied
    · rename_i selfOpinion opinion
      obtain ⟨peer, is⟩ : ∃ peer, (net.nodes x).voting.server.peerFromId order peerId = some peer := by
        unfold EvictionServer.selfOpinionOn at opinion
        split at opinion
        · cases opinion
        · rename_i peer is
          exact ⟨peer, is⟩
      rw [is, opinion]
      cases taken
      refine inv.movedQuietly (net.observe ⟨x, issueId, peerId, ((net.nodes x).watch peer).evidence net.time⟩) rfl
        (fun _ member => List.mem_append_left _ member) rfl rfl rfl rfl rfl rfl rfl votes
        ⟨requested, puts, resolved, once, evicted⟩
        (fun grows => ⟨⟨sender, id, context, grows.asked asked, grows.knows knows⟩, fun upheld => ?_⟩)
        (fun about judges => ?_) (fun _ _ member => .inl member) (fun _ _ member => .inl member)
      · subst upheld
        exact ⟨_, List.mem_append_right _ (List.mem_singleton_self _), rfl, rfl, rfl,
          selfOpinionOn_grounds (inv.counted x) is opinion⟩
      · show ((net.nodes x).voting.phase thread).judges = some about
        rw [now]
        exact judges
  | learning issueId peerId reason selfOpinion =>
    simp only [WatchingNode.phase, now] at taken ⊢
    exact learning_inv inv now votes (Option.some.inj taken).symm
  | replying issueId peerId =>
    rw [now] at holds
    simp only [WatchingNode.phase, WatchingNode.server, now] at taken ⊢
    obtain ⟨sender, id, context, asked⟩ := holds
    have opening : ((net.nodes x).voting.phase thread).opening = some issueId := by rw [now]; rfl
    obtain ⟨issue, found⟩ := Finmap.mem_iff.mp ((inv.voting x).owners.known thread issueId (.inl opening))
    obtain ⟨nodes, observations, asks, answers⟩ := replyTo_replies net x thread sent (.opinion issue.selfOpinion)
    rw [found]
    cases taken
    refine inv.movedQuietly (net.replyTo x thread sent (.opinion issue.selfOpinion)) nodes
      (fun _ member => observations ▸ member) rfl rfl rfl rfl rfl rfl rfl
      votes ⟨requested, puts, resolved, once, evicted⟩ (fun _ => ?_) (fun about judges => ?_)
      (fun _ _ member => .inl (asks ▸ member)) (fun grows answer member => ?_)
    · cases sent <;> trivial
    · cases sent <;> cases judges
    · rcases answers answer member with old | ⟨sender, id, same, rfl⟩
      · exact .inl old
      · rw [context] at same
        cases same
        refine .inr fun value is => ⟨issueId, grows.asked asked, grows.opined ⟨issue, found, ?_⟩⟩
        cases is
        rfl
  | putting issueId audience =>
    simp only [WatchingNode.phase, now] at taken allowed ⊢
    exact putting_inv inv now allowed votes (Option.some.inj taken).symm
  | waiting issueId audience peers =>
    rw [now] at holds
    simp only [WatchingNode.phase, now] at taken ⊢
    split at taken
    · cases taken
    · cases taken
      exact inv.movedQuietly net rfl (fun _ member => member) rfl rfl rfl rfl rfl rfl rfl votes
        ⟨requested, puts, resolved, once, evicted⟩ (fun grows => ⟨(grows.nodes x).put issueId holds.1, holds.2⟩)
        (fun _ judges => by cases judges)
        (fun _ _ member => .inl member) (fun _ _ member => .inl member)
  | asking issueId audience peers =>
    rw [now] at holds
    simp only [WatchingNode.phase, now] at taken ⊢
    cases peers with
    | nil =>
      cases taken
      exact inv.movedQuietly net rfl (fun _ member => member) rfl rfl rfl rfl rfl rfl rfl votes
        ⟨requested, puts, resolved, once, evicted⟩ (fun _ => trivial) (fun _ judges => by cases judges)
        (fun _ _ member => .inl member) (fun _ _ member => .inl member)
    | cons peer rest =>
      dsimp only at taken
      split at taken
      · exact allot_inv inv now votes (Option.some.inj taken).symm
      · cases taken
        exact inv.movedQuietly net rfl (fun _ member => member) rfl rfl rfl rfl rfl rfl rfl votes
          ⟨requested, puts, resolved, once, evicted⟩
          (fun grows => ⟨(grows.nodes x).put issueId holds.1, fun member => holds.2 (List.mem_cons_of_mem _ member)⟩)
          (fun _ judges => by cases judges)
          (fun _ _ member => .inl member) (fun _ _ member => .inl member)
  | posting id issueId audience peer rest =>
    rw [now] at holds
    simp only [WatchingNode.phase, now] at taken ⊢
    cases taken
    exact inv.movedQuietly net rfl (fun _ member => member) rfl rfl rfl rfl rfl rfl rfl votes
      ⟨requested, puts, resolved, once, evicted⟩ (fun grows => ⟨(grows.nodes x).put issueId holds.1, holds.2⟩)
      (fun _ judges => by cases judges)
      (fun _ _ member => .inl member) (fun _ _ member => .inl member)
  | sending id issueId audience peer rest =>
    rw [now] at holds
    simp only [WatchingNode.phase, WatchingNode.server, now] at taken ⊢
    have message : ((net.nodes x).voting.phase thread).message = some (id, peer, issueId) := by rw [now]; rfl
    have asked : net.Asked peer x id issueId := ((inv.voting x).messages.held thread id peer issueId message).1
    obtain ⟨issue, found⟩ : ∃ issue, (net.nodes x).voting.server.issues.lookup issueId = some issue :=
      Finmap.mem_iff.mp ((inv.verdicts x).known holds.1)
    rw [found]
    dsimp only
    split at taken
    · rename_i success
      rw [if_pos success]
      cases taken
      refine inv.movedQuietly { net with asks := net.asks ++ [⟨x, peer, id, issueId, issue.peerId, issue.reason⟩] } rfl
        (fun _ member => member) rfl rfl rfl rfl rfl rfl rfl votes ((inv.verdicts x).request holds.1 id)
        (fun grows => ⟨(grows.nodes x).put issueId holds.1, holds.2.2⟩) (fun _ judges => by cases judges)
        (fun grows ask member => ?_)
        (fun _ _ member => .inl member)
      rcases List.mem_append.mp member with old | new
      · exact .inl old
      · rw [List.mem_singleton.mp new]
        exact .inr (grows.ask ⟨asked, issue, found, rfl, rfl⟩)
    · rename_i failure
      rw [if_neg failure]
      cases taken
      exact inv.movedQuietly net rfl (fun _ member => member) rfl rfl rfl rfl rfl rfl rfl votes
        ⟨requested, puts, resolved, once, evicted⟩ (fun _ => trivial) (fun _ judges => by cases judges)
        (fun _ _ member => .inl member) (fun _ _ member => .inl member)
  | expecting id op other =>
    simp only [WatchingNode.phase, now] at taken ⊢
    cases taken
    exact inv.movedQuietly net rfl (fun _ member => member) rfl rfl rfl rfl rfl rfl rfl votes
      ⟨requested, puts, resolved, once, evicted⟩ (fun _ => trivial) (fun _ judges => by cases judges)
      (fun _ _ member => .inl member) (fun _ _ member => .inl member)
  | answered sender id value =>
    rw [now] at holds
    simp only [WatchingNode.phase, now] at taken ⊢
    split at taken
    · cases taken
    · split at taken
      · cases taken
        exact inv.movedQuietly net rfl (fun _ member => member) rfl rfl rfl rfl rfl rfl rfl votes
          ⟨requested, puts, resolved, once, evicted⟩ (fun _ => trivial) (fun _ judges => by cases judges)
          (fun _ _ member => .inl member) (fun _ _ member => .inl member)
      · rename_i issueId request
        obtain ⟨about, asked, opined⟩ := holds
        obtain ⟨peer, posted⟩ := (inv.voting x).messages.ballots.requests id issueId request
        obtain ⟨rfl, rfl⟩ := Prod.mk.inj (Option.some.inj (posted.symm.trans asked))
        cases taken
        exact inv.movedQuietly net rfl (fun _ member => member) rfl rfl rfl rfl rfl rfl rfl votes
          ((inv.verdicts x).pop id)
          (fun grows => ⟨(grows.nodes x).put _ (requested id _ request), grows.asked asked, grows.opined opined⟩)
          (fun _ judges => by cases judges)
          (fun _ _ member => .inl member) (fun _ _ member => .inl member)
  | counting issueId sender id value =>
    simp only [WatchingNode.phase, now] at taken ⊢
    exact counting_inv inv now votes (Option.some.inj taken).symm
  | resolving issueId =>
    simp only [WatchingNode.phase, now] at taken ⊢
    exact resolving_inv inv now votes (Option.some.inj taken).symm

end

/-! ### Messages -/

/-- Nothing that is voted on changes, and only idle threads are given something new. -/
theorem Inv.framed (inv : net.Inv) (voting : ∀ y, (after.nodes y).voting = (net.nodes y).voting)
    (threads : ∀ y thread, (net.nodes y).phase thread = .idle ∨
      (after.nodes y).context thread = (net.nodes y).context thread ∧
        (after.nodes y).evidence thread = (net.nodes y).evidence thread)
    (receiver : ∀ y thread, (net.nodes y).phase thread ≠ .idle → (net.nodes y).receiver = some thread →
      (after.nodes y).receiver = some thread)
    (counted : ∀ y peer, ((after.nodes y).watch peer).Counted)
    (observations : ∀ observation ∈ net.observations, observation ∈ after.observations)
    (asks : ∀ ask ∈ after.asks, ask ∈ net.asks)
    (answers : ∀ answer ∈ after.answers, answer ∈ net.answers ∨ net.HoldsAnswer answer) : after.Inv := by
  have same : ∀ y, (after.nodes y).server = (net.nodes y).server := fun y => congrArg Voting.server (voting y)
  have grows : net.Grows after := ⟨fun y => same y ▸ .refl _, observations⟩
  refine ⟨fun y => voting y ▸ inv.voting y, fun y => ?_, fun y => ?_, fun y thread => ?_,
    fun y thread issueId judges => ?_, counted,
    fun y z issueId issue other found foundToo => ?_, fun ask member => grows.ask (inv.asks ask (asks ask member)),
    fun answer member => ?_⟩
  · rw [same]
    exact inv.verdicts y
  · rw [same]
    exact grows.sound (inv.sound y)
  · rw [WatchingNode.phase, voting]
    rcases threads y thread with idle | ⟨context, evidence⟩
    · change (net.nodes y).voting.phase thread = .idle at idle
      rw [idle]
      trivial
    · rw [context, evidence]
      exact grows.phase (inv.phases y thread)
  · rw [WatchingNode.phase, voting] at judges
    rw [same]
    obtain ⟨receives, fresh⟩ := inv.absent y thread issueId judges
    refine ⟨receiver y thread (fun idle => ?_) receives, fresh⟩
    change (net.nodes y).voting.phase thread = .idle at idle
    rw [idle] at judges
    cases judges
  · rw [same] at found foundToo
    exact inv.agree y z issueId issue other found foundToo
  · rcases answers answer member with old | new
    · exact grows.answer (inv.answers answer old)
    · exact grows.answer new

theorem Inv.waited (inv : net.Inv) (time : ℕ) : Inv { net with time } :=
  inv.framed (fun _ => rfl) (fun _ _ => .inr ⟨rfl, rfl⟩) (fun _ _ _ same => same) inv.counted (fun _ member => member)
    (fun _ member => member) fun _ member => .inl member

/-- A node is changed so. -/
theorem Inv.framedAt (inv : net.Inv) {base : Watching T N} (nodes : base.nodes = net.nodes) {node : WatchingNode T N}
    (voting : node.voting = (net.nodes x).voting)
    (threads : ∀ thread, (net.nodes x).phase thread = .idle ∨
      node.context thread = (net.nodes x).context thread ∧ node.evidence thread = (net.nodes x).evidence thread)
    (receiver : ∀ thread, (net.nodes x).phase thread ≠ .idle → (net.nodes x).receiver = some thread →
      node.receiver = some thread)
    (counted : ∀ peer, (node.watch peer).Counted)
    (observations : base.observations = net.observations) (asks : ∀ ask ∈ base.asks, ask ∈ net.asks)
    (answers : ∀ answer ∈ base.answers, answer ∈ net.answers ∨ net.HoldsAnswer answer) : (base.setNode x node).Inv := by
  have each : ∀ P : N → WatchingNode T N → Prop, P x node → (∀ y, y ≠ x → P y (net.nodes y)) →
      ∀ y, P y ((base.setNode x node).nodes y) := by
    intro P here other y
    by_cases same : y = x
    · subst same
      rw [setNode_self]
      exact here
    · rw [setNode_other same, nodes]
      exact other y same
  refine inv.framed ?_ ?_ ?_ ?_ (fun _ member => observations ▸ member) asks answers
  · exact each (fun y node => node.voting = (net.nodes y).voting) voting fun _ _ => rfl
  · exact each (fun y node => ∀ thread, (net.nodes y).phase thread = .idle ∨
      node.context thread = (net.nodes y).context thread ∧ node.evidence thread = (net.nodes y).evidence thread)
      threads fun _ _ _ => .inr ⟨rfl, rfl⟩
  · exact each (fun y node => ∀ thread, (net.nodes y).phase thread ≠ .idle → (net.nodes y).receiver = some thread →
      node.receiver = some thread) receiver fun _ _ _ _ same => same
  · exact each (fun _ node => ∀ peer, (node.watch peer).Counted) counted fun y _ => inv.counted y

omit [DecidableEq T] in
theorem setNode_setNode (net : Watching T N) (first second : WatchingNode T N) :
    (net.setNode x first).setNode x second = net.setNode x second := by
  unfold setNode
  rw [Function.update_idem]

omit [DecidableEq N] in
theorem take_eq {voting next : Voting T N} {thread : T} {phase : Phase N} {server : EvictionServer N}
    (taken : voting.take thread phase server = some next) :
    voting.phase thread = .idle ∧ next = voting.enter thread phase server := by
  unfold Voting.take at taken
  split at taken
  · rename_i idle
    exact ⟨idle, (Option.some.inj taken).symm⟩
  · cases taken

omit [DecidableEq T] [DecidableEq N] in
theorem receive_eq {node next : WatchingNode T N} {thread : T} (taken : node.receive thread = some next) :
    node.receiver = none ∧ node.phase thread = .idle ∧ next = { node with receiver := some thread } := by
  unfold WatchingNode.receive at taken
  split at taken
  · rename_i free idle
    exact ⟨free, idle, (Option.some.inj taken).symm⟩
  · cases taken

/-- A thread takes up a message of a peer. -/
theorem Inv.receives (inv : net.Inv) (base : Watching T N) (nodes : base.nodes = net.nodes)
    (observations : base.observations = net.observations) (asks : ∀ ask ∈ base.asks, ask ∈ net.asks)
    (answers : ∀ answer ∈ base.answers, answer ∈ net.answers ∨ net.HoldsAnswer answer) {thread : T}
    {node : WatchingNode T N} (taken : (net.nodes x).receive thread = some node) : (base.setNode x node).Inv := by
  obtain ⟨free, _, rfl⟩ := receive_eq taken
  refine inv.framedAt nodes rfl (fun _ => .inr ⟨rfl, rfl⟩) (fun other _ busy => ?_)
    (inv.counted x) observations asks answers
  rw [free] at busy
  cases busy

/-- A thread of a node enters a phase in which it judges nothing, and the tables stay. -/
theorem Inv.enters {node : WatchingNode T N} (inv : (net.setNode x node).Inv) {thread : T} {phase : Phase N}
    {server : EvictionServer N} (peers : server.peers = node.server.peers) (issues : server.issues = node.server.issues)
    (posted : server.posted = node.server.posted) (put : server.put = node.server.put)
    (evictions : server.evictions = node.server.evictions) (votes : (node.voting.enter thread phase server).Inv)
    (verdicts : server.Verdicts)
    (holds : (net.setNode x node).HoldsPhase x (node.context thread) (node.evidence thread) phase)
    (nothing : phase.judges = none) :
    (net.setNode x { node with voting := node.voting.enter thread phase server }).Inv := by
  have here := setNode_self x net node
  have is : net.setNode x { node with voting := node.voting.enter thread phase server } =
      (net.setNode x node).setNode x
        { (net.setNode x node).nodes x with
          voting := ((net.setNode x node).nodes x).voting.enter thread phase server } := by
    rw [setNode_setNode, here]
  refine inv.movedQuietly (net.setNode x node) rfl (fun _ member => member) is rfl ?_ ?_ ?_ ?_ ?_ ?_ verdicts
    (fun grows => ?_)
    (fun issueId judges => ?_) (fun _ _ member => .inl member) (fun _ _ member => .inl member)
  · rw [here]
    exact peers
  · rw [here]
    exact issues
  · rw [here]
    exact posted
  · rw [here]
    exact put
  · rw [here]
    exact evictions
  · rw [here]
    exact votes
  · rw [here]
    exact grows.phase holds
  · rw [nothing] at judges
    cases judges

/-- An idle thread is given what it needs for something that it begins. -/
theorem Inv.prepares {node : WatchingNode T N} (inv : (net.setNode x node).Inv) {thread : T}
    (idle : node.phase thread = .idle)
    {context : T → Option (N × ℕ)} {evidence : T → Evidence}
    (others : ∀ other, other ≠ thread → context other = node.context other ∧ evidence other = node.evidence other) :
    (net.setNode x { node with context, evidence }).Inv := by
  have here := setNode_self x net node
  rw [← setNode_setNode net node]
  refine inv.framedAt rfl (by rw [here]) (fun other => ?_) (fun other _ receives => ?_) (fun peer => ?_) rfl
    (fun _ member => member) (fun _ member => .inl member)
  · rw [here]
    by_cases same : other = thread
    · exact .inl (same ▸ idle)
    · exact .inr (others other same)
  · rw [here] at receives
    exact receives
  · have counted := inv.counted x peer
    rw [here] at counted
    exact counted

theorem beginEvict_inv {node : WatchingNode T N} (inv : (net.setNode x node).Inv) (thread : T) (peer : N) {reason : Str}
    {evidence : Evidence} (grounds : evidence.Grounds reason) :
    (net.setNode x (node.beginEvict thread peer reason evidence)).Inv := by
  unfold WatchingNode.beginEvict
  split
  · rename_i voting begun
    have here := setNode_self x net node
    have before : node.voting.Inv := here ▸ inv.voting x
    have verdicts : node.server.Verdicts := here ▸ inv.verdicts x
    unfold Voting.takeBegin at begun
    split at begun
    · cases begun
    · split at begun
      · cases begun
      · obtain ⟨idle, rfl⟩ := take_eq begun
        have prepared : (net.setNode x { node with evidence := Function.update node.evidence thread evidence }).Inv :=
          inv.prepares idle fun other different => ⟨rfl, Function.update_of_ne different ..⟩
        refine prepared.enters rfl rfl rfl rfl rfl (before.phase (.nothing rfl rfl) nofun nofun) verdicts ?_ rfl
        show ((Function.update node.evidence thread evidence) thread).Grounds reason
        rw [Function.update_self]
        exact grounds
  · exact inv

omit [DecidableEq T] in
theorem setNode_same (net : Watching T N) (x : N) : net.setNode x (net.nodes x) = net := by
  unfold setNode
  rw [Function.update_eq_self]

theorem Inv.watches {node : WatchingNode T N} (inv : (net.setNode x node).Inv) (peer : N) {watch : Watch}
    (counted : watch.Counted) : (net.setNode x (node.setWatch peer watch)).Inv := by
  have here := setNode_self x net node
  rw [← setNode_setNode net node]
  refine inv.framedAt rfl (by rw [here]; rfl) (fun other => .inr (by rw [here]; exact ⟨rfl, rfl⟩))
    (fun other _ receives => ?_) (fun other => ?_) rfl (fun _ member => member) (fun _ member => .inl member)
  · rw [here] at receives
    exact receives
  · have before := inv.counted x other
    rw [here] at before
    show ((Function.update node.watch peer watch) other).Counted
    by_cases same : other = peer
    · rw [same, Function.update_self]
      exact counted
    · rw [Function.update_of_ne same]
      exact before

theorem Inv.replies (inv : net.Inv) (sent : Bool) {answer : Answer N} (holds : net.HoldsAnswer answer) :
    (net.reply sent answer).Inv := by
  have frame : (net.reply sent answer).nodes = net.nodes ∧ (net.reply sent answer).observations = net.observations ∧
      (net.reply sent answer).asks = net.asks := by
    unfold reply
    split <;> exact ⟨rfl, rfl, rfl⟩
  obtain ⟨nodes, observations, asks⟩ := frame
  refine inv.framed (fun _ => by rw [nodes]) (fun _ _ => .inr (by rw [nodes]; exact ⟨rfl, rfl⟩))
    (fun _ _ _ same => by rw [nodes, same])
    (fun y peer => by rw [nodes]; exact inv.counted y peer) (fun _ member => observations ▸ member)
    (fun _ member => asks ▸ member)
    (fun other member => ?_)
  rcases mem_reply member with old | rfl
  · exact .inl old
  · exact .inr holds

/-- A request for an opinion on an issue that the node does not have. -/
theorem ask_inv {node : WatchingNode T N} (inv : (net.setNode x node).Inv) {thread : T} {ask : Ask N}
    (holds : (net.setNode x node).HoldsAsk ask) (is : ask.receiver = x) (receives : node.receiver = some thread)
    {voting : Voting T N}
    (taken : node.voting.step (.askEvict thread ask.issueId ask.peerId ask.reason) = some voting) :
    (net.setNode x { node with
      voting, context := Function.update node.context thread (some (ask.sender, ask.id)) }).Inv := by
  have here := setNode_self x net node
  have before : node.voting.Inv := here ▸ inv.voting x
  have faithful : node.voting.Faithful (.askEvict thread ask.issueId ask.peerId ask.reason) := trivial
  have votes : voting.Inv := before.step faithful taken
  change (if ask.issueId ∈ node.server.issues then none else _) = some voting at taken
  split at taken
  · cases taken
  · rename_i fresh
    obtain ⟨idle, rfl⟩ := take_eq taken
    obtain ⟨asked, knows⟩ := holds
    rw [is] at asked
    let given := { node with context := Function.update node.context thread (some (ask.sender, ask.id)) }
    have prepared : (net.setNode x given).Inv :=
      inv.prepares idle fun other different => ⟨Function.update_of_ne different .., rfl⟩
    have there := setNode_self x net given
    have grows : (net.setNode x node).Grows (net.setNode x given) := by
      have set : (net.setNode x node).Grows ((net.setNode x node).setNode x given) :=
        grows_setNode _ rfl (fun _ member => member) (by rw [here]; exact .refl _)
      rw [setNode_setNode] at set
      exact set
    have judged : (net.setNode x given).HoldsPhase x (given.context thread) (given.evidence thread)
        (.judging ask.issueId ask.peerId ask.reason) :=
      ⟨ask.sender, ask.id, Function.update_self .., grows.asked asked, grows.knows knows⟩
    have verdicts : node.server.Verdicts := here ▸ inv.verdicts x
    have after : net.setNode x { given with
        voting := node.voting.enter thread (.judging ask.issueId ask.peerId ask.reason) node.voting.server } =
        (net.setNode x given).setNode x { (net.setNode x given).nodes x with
          voting := ((net.setNode x given).nodes x).voting.enter thread (.judging ask.issueId ask.peerId ask.reason)
            node.voting.server } := by
      rw [setNode_setNode, there]
    refine prepared.moved (net.setNode x given) rfl (fun _ member => member) after rfl (by rw [there]; exact .refl _)
      (by rw [there]; exact votes) verdicts (fun grows => ?_) (fun grows => ?_) (fun issueId judges => ?_)
      (fun _ _ _ _ fresh => by rw [there] at fresh; exact fresh) (fun issueId issue found => ?_)
      (fun _ _ member => .inl member) (fun _ _ member => .inl member)
    · have sound := grows.sound (prepared.sound x)
      rw [there] at sound
      exact sound
    · rw [there]
      exact grows.phase judged
    · cases judges
      rw [there]
      exact ⟨receives, fresh⟩
    · exact .inl ⟨x, issue, by rw [there]; exact found, rfl, rfl⟩

/-! ### Runs -/

/-- A reply that the node expects, and its effect. -/
theorem reply_inv {node : WatchingNode T N} (inv : (net.setNode x node).Inv) {thread : T} {sender : N} {id : ℕ}
    {body : ReplyBody}
    (holds : (net.setNode x node).HoldsAnswer ⟨sender, x, id, body⟩) {voting : Voting T N}
    (taken : node.voting.step (.reply thread sender id body) = some voting) :
    (net.setNode x { node with voting }).Inv := by
  have here := setNode_self x net node
  have before : node.voting.Inv := here ▸ inv.voting x
  obtain ⟨requested, puts, resolved, once, evicted⟩ : node.server.Verdicts := here ▸ inv.verdicts x
  have faithful : node.voting.Faithful (.reply thread sender id body) := by
    cases body with
    | opinion value =>
      intro _ asked posted
      obtain ⟨issueId, right, _⟩ := holds value rfl
      unfold Asked at right
      rw [here] at right
      rw [right] at posted
      cases posted
      rfl
    | other => trivial
  have votes : voting.Inv := before.step faithful taken
  change node.voting.takeReply thread sender id body = some voting at taken
  unfold Voting.takeReply at taken
  split at taken
  · cases taken
  · dsimp only at taken
    split at taken
    · rename_i value _
      obtain ⟨_, rfl⟩ := take_eq taken
      exact inv.enters rfl rfl rfl rfl rfl votes ⟨requested, puts, resolved, once, evicted⟩ (holds value rfl) rfl
    · obtain ⟨_, rfl⟩ := take_eq taken
      exact inv.enters rfl rfl rfl rfl rfl votes ⟨requested, puts, resolved, once, evicted⟩ trivial rfl

theorem peers_inv (inv : net.Inv) {peers : Finset N} {sessionId : Table N Str} (apart : x ∉ peers) {watch : N → Watch}
    (counted : ∀ peer, (watch peer).Counted) :
    (net.setNode x { net.nodes x with
      voting := { (net.nodes x).voting with server := { (net.nodes x).server with peers, sessionId } }, watch }).Inv := by
  have here := setNode_self x net { net.nodes x with
      voting := { (net.nodes x).voting with server := { (net.nodes x).server with peers, sessionId } }, watch }
  have grows : net.Grows (net.setNode x { net.nodes x with
      voting := { (net.nodes x).voting with server := { (net.nodes x).server with peers, sessionId } }, watch }) :=
    grows_setNode net rfl (fun _ member => member) (EvictionServer.grows_same rfl rfl rfl)
  have faithful : (net.nodes x).voting.Faithful (.peers peers sessionId) := trivial
  obtain ⟨requested, puts, resolved, once, evicted⟩ := inv.verdicts x
  refine inv.advance grows (fun y other => setNode_other other ..) ?_ ?_ ?_ (fun thread => ?_)
    (fun thread issueId judges => ?_)
    (fun peer => ?_) (fun issueId issue found => ?_) (fun _ member => .inl member) (fun _ member => .inl member)
  · rw [here]
    exact (inv.voting x).step faithful rfl
  · rw [here]
    exact ⟨requested, puts, resolved, once, evicted⟩
  · rw [here]
    exact (grows.sound (inv.sound x)).same apart rfl rfl rfl rfl
  · rw [here]
    exact grows.phase (inv.phases x thread)
  · rw [here] at judges ⊢
    exact inv.absent x thread issueId judges
  · rw [here]
    exact counted peer
  · rw [here] at found
    exact .inl ⟨x, issue, found, rfl, rfl⟩

theorem step_inv (inv : net.Inv) {event : WatchingEvent T N} (allowed : net.Allowed event)
    (taken : net.step event = some after) :
    after.Inv := by
  cases event with
  | wait time =>
    cases taken
    exact inv.waited (net.time + time)
  | pulse x peer =>
    cases taken
    have inv : (net.setNode x (net.nodes x)).Inv := (setNode_same net x).symm ▸ inv
    let watch : Watch := { (net.nodes x).watch peer with lastPulse := net.time }
    have counted : watch.Counted := by
      have before := inv.counted x peer
      rw [setNode_self] at before
      exact before
    exact inv.watches peer counted
  | report x thread peer report =>
    obtain ⟨node, received, taken⟩ := Option.bind_eq_some_iff.mp taken
    have ready : (net.setNode x node).Inv := inv.receives net rfl rfl (fun _ member => member)
      (fun _ member => .inl member) received
    have counted := report_counted (ready.counted x peer) report
    rw [setNode_self] at counted
    have watched := ready.watches peer counted
    dsimp only at taken
    split at taken
    · rename_i high
      cases taken
      exact beginEvict_inv watched thread peer (.inl ⟨rfl, maxScore_reports counted high⟩)
    · cases taken
      exact watched
  | check x thread peer now =>
    obtain ⟨⟨_, silent⟩, ⟨⟩⟩ := Option.ite_none_right_eq_some.mp taken
    have inv : (net.setNode x (net.nodes x)).Inv := (setNode_same net x).symm ▸ inv
    refine beginEvict_inv inv thread peer (.inr ⟨rfl, ?_⟩)
    show 45 * second < _
    have long : 60 * second < ((net.nodes x).watch peer).silence now := silent
    have less : 45 * second < 60 * second := by decide
    exact less.trans long
  | ask thread k sent =>
    obtain ⟨ask, there, taken⟩ := Option.bind_eq_some_iff.mp taken
    obtain ⟨node, received, taken⟩ := Option.bind_eq_some_iff.mp taken
    have holds := inv.asks ask (List.mem_of_getElem? there)
    let rest : Watching T N := { net with asks := net.asks.eraseIdx k }
    have ready : (rest.setNode ask.receiver node).Inv :=
      inv.receives rest rfl rfl (fun _ member => List.mem_of_mem_eraseIdx member) (fun _ member => .inl member) received
    obtain ⟨_, _, rfl⟩ := receive_eq received
    have nodes : rest.nodes = net.nodes := rfl
    have grows : net.Grows (rest.setNode ask.receiver { net.nodes ask.receiver with receiver := some thread }) := by
      refine grows_setNode rest nodes (fun _ member => member) ?_
      exact .refl (net.nodes ask.receiver).server
    split at taken
    · rename_i issue found
      cases taken
      refine ready.replies sent fun value is => ⟨ask.issueId, grows.asked holds.1, grows.opined ⟨issue, found, ?_⟩⟩
      cases is
      rfl
    · obtain ⟨voting, asked, taken⟩ := Option.bind_eq_some_iff.mp taken
      cases taken
      exact ask_inv ready (grows.ask holds) rfl rfl asked
  | answer thread k =>
    obtain ⟨answer, there, taken⟩ := Option.bind_eq_some_iff.mp taken
    obtain ⟨node, received, taken⟩ := Option.bind_eq_some_iff.mp taken
    have holds := inv.answers answer (List.mem_of_getElem? there)
    let rest : Watching T N := { net with answers := net.answers.eraseIdx k }
    have ready : (rest.setNode answer.receiver node).Inv :=
      inv.receives rest rfl rfl (fun _ member => member)
        (fun _ member => .inl (List.mem_of_mem_eraseIdx member)) received
    obtain ⟨_, _, rfl⟩ := receive_eq received
    have nodes : rest.nodes = net.nodes := rfl
    have grows : net.Grows (rest.setNode answer.receiver { net.nodes answer.receiver with receiver := some thread }) := by
      refine grows_setNode rest nodes (fun _ member => member) ?_
      exact .refl (net.nodes answer.receiver).server
    split at taken
    · rename_i voting replied
      cases taken
      exact reply_inv ready (grows.answer holds) replied
    · cases taken
      exact ready
  | otherReply x thread peer id =>
    obtain ⟨voting, replied, taken⟩ := Option.bind_eq_some_iff.mp taken
    cases taken
    have inv : (net.setNode x (net.nodes x)).Inv := (setNode_same net x).symm ▸ inv
    have nothing : (net.setNode x (net.nodes x)).HoldsAnswer ⟨peer, x, id, .other⟩ := nofun
    exact reply_inv inv nothing replied
  | post x thread op other =>
    obtain ⟨voting, posted, taken⟩ := Option.bind_eq_some_iff.mp taken
    cases taken
    have ready : (net.setNode x (net.nodes x)).Inv := (setNode_same net x).symm ▸ inv
    have faithful : (net.nodes x).voting.Faithful (.post thread op other) := trivial
    have votes : voting.Inv := (inv.voting x).step faithful posted
    obtain ⟨requested, puts, resolved, once, evicted⟩ := inv.verdicts x
    obtain ⟨_, rfl⟩ := take_eq posted
    exact ready.enters rfl rfl rfl rfl rfl votes ⟨requested, puts, resolved, once, evicted⟩ trivial rfl
  | go x thread order randomId sent =>
    obtain ⟨voting, went, taken⟩ := Option.bind_eq_some_iff.mp taken
    cases taken
    exact go_inv inv allowed went
  | received x =>
    obtain ⟨thread, receives, taken⟩ := Option.bind_eq_some_iff.mp taken
    split at taken
    · rename_i idle
      cases taken
      refine inv.framedAt rfl rfl (fun _ => .inr ⟨rfl, rfl⟩) (fun other busy same => ?_) (inv.counted x) rfl
        (fun _ member => member) (fun _ member => .inl member)
      rw [receives] at same
      cases same
      unfold Phase.isIdle at idle
      split at idle
      · exact absurd ‹_› busy
      · cases idle
    · cases taken
  | peers x peers sessionId =>
    simp only [step] at taken
    split at taken
    · cases taken
    · rename_i apart
      cases taken
      refine peers_inv inv apart fun peer => ?_
      split
      · exact inv.counted x peer
      · exact Nat.zero_le _

omit [DecidableEq T] [DecidableEq N] in
theorem nothing_known (x : N) (issueId : Str) : issueId ∉ ((start : Watching T N).nodes x).server.issues :=
  Finmap.notMem_empty

theorem start_inv : (start : Watching T N).Inv where
  voting _ := .start ∅ ∅
  verdicts _ := (EvictionServer.Books.start ∅ ∅).verdicts
  sound x := {
    apart := Finset.notMem_empty x
    posted := nofun
    few := nofun
    opinions := fun issueId _ found => absurd (Table.mem_of_lookup found) (nothing_known (T := T) x issueId)
    grounded := fun issueId _ found => absurd (Table.mem_of_lookup found) (nothing_known (T := T) x issueId)
    evictions := nofun }
  phases _ _ := trivial
  absent _ _ _ judges := by cases judges
  counted _ _ := Nat.zero_le _
  agree x _ issueId _ _ found := absurd (Table.mem_of_lookup found) (nothing_known (T := T) x issueId)
  asks := nofun
  answers := nofun

end

/-! ### The voters -/

/-- The node whose opinion it is. -/
def voter (x : N) (opinion : Opinion N) : N :=
  match opinion.origin with
  | .own => x
  | .reply _ sender => sender

section
variable [DecidableEq T] [DecidableEq N] {net : Watching T N} {x : N}

/-- Each of the opinions on an issue is that of another node. -/
theorem Inv.voters (inv : net.Inv) {issueId : Str} {issue : EvictionIssue N}
    (found : (net.nodes x).server.issues.lookup issueId = some issue) : (issue.opinions.map (voter x)).Nodup := by
  have one := (inv.voting x).oneVote
  rw [List.nodup_iff_count_le_one]
  intro y
  rw [List.count, List.countP_map]
  by_cases same : y = x
  · refine Nat.le_trans (List.countP_mono_left fun opinion member is => ?_) (one.own issueId issue found)
    have is : voter x opinion = y := beq_iff_eq.mp is
    cases origin : opinion.origin with
    | own => simp [Opinion.isOwn, origin]
    | reply id sender =>
      have posted := one.asked issueId issue found opinion member id sender origin
      have is : sender = y := by rwa [voter, origin] at is
      exact absurd (is.trans same) ((inv.sound x).posted id sender issueId posted)
  · refine Nat.le_trans (List.countP_mono_left fun opinion member is => ?_) (one.peers issueId issue found y)
    have is : voter x opinion = y := beq_iff_eq.mp is
    cases origin : opinion.origin with
    | own =>
      have is : x = y := by rwa [voter, origin] at is
      exact absurd is.symm same
    | reply id sender =>
      have is : sender = y := by rwa [voter, origin] at is
      simp [Opinion.sender, origin, is]

/-- A node has observed what it thinks. -/
theorem Inv.observed (inv : net.Inv) {issueId : Str} {issue : EvictionIssue N}
    (found : (net.nodes x).server.issues.lookup issueId = some issue) {opinion : Opinion N}
    (member : opinion ∈ issue.opinions)
    (value : opinion.value = true) : net.Observed (voter x opinion) issueId issue.peerId issue.reason := by
  have holds := (inv.sound x).opinions issueId issue found opinion member
  have opined : net.Opined (voter x opinion) issueId true := by
    unfold HoldsOpinion at holds
    unfold voter
    split at holds <;> exact value ▸ holds
  obtain ⟨other, foundToo, is⟩ := opined
  obtain ⟨about, because⟩ := inv.agree x _ issueId issue other found foundToo
  rw [about, because]
  exact (inv.sound _).grounded issueId other foundToo is

theorem Inv.backed (inv : net.Inv) : net.Backed := by
  intro x eviction member
  obtain ⟨peers, put, enough, _⟩ := (inv.verdicts x).evicted eviction member
  obtain ⟨issue, found, before⟩ := (inv.sound x).evictions eviction member
  rw [expectedFor_few ((inv.sound x).few eviction.issueId peers put)] at enough
  let upheld := (eviction.opinions.filter (·.value)).map (voter x)
  have distinct : upheld.Nodup :=
    (inv.voters found).sublist (((List.filter_sublist).trans before.sublist).map _)
  refine ⟨peers, issue, upheld.toFinset, put, found, ?_, fun y voted => ?_⟩
  · rw [List.toFinset_card_of_nodup distinct, List.length_map, ← List.countP_eq_length_filter]
    exact Int.ofNat_le.mp enough
  · obtain ⟨opinion, counted, rfl⟩ := List.mem_map.mp (List.mem_toFinset.mp voted)
    obtain ⟨given, value⟩ := List.mem_filter.mp counted
    obtain ⟨observation, there, node, issueId, peerId, grounds⟩ := inv.observed found (before.subset given) value
    exact ⟨observation, there, node, issueId, peerId, grounds⟩

end

def goOn (node : Fin 3) (steps : ℕ) : List (WatchingEvent Unit (Fin 3)) :=
  List.replicate steps (.go node () Voting.clients (ascii "issue") true)

local instance neZero_nodes : NeZero 3 := ⟨Nat.succ_ne_zero 2⟩

/-- The node 2 is silent for a minute, and the others agree on that. -/
def silence : List (WatchingEvent Unit (Fin 3)) :=
  [.peers 0 {1, 2} (((∅ : Table (Fin 3) Str).insert 1 (ascii "one")).insert 2 (ascii "two")),
    .peers 1 {0, 2} (((∅ : Table (Fin 3) Str).insert 0 (ascii "zero")).insert 2 (ascii "two")),
    .wait (61 * second), .check 0 () 2 (61 * second)] ++
  goOn 0 8 ++ [.ask () 0 true] ++ goOn 1 10 ++ [.received 1, .answer () 0] ++ goOn 0 3

end Watching

end Vanity.Cluster
