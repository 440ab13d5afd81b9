import Vanity.Cluster.Eviction

/-!
# Ballots and verdicts

What the tables of the eviction server agree on, and that every handler keeps it. `Ballots` is about messages
and opinions, `Verdicts` about issues and what came of them.
-/

namespace Vanity.Cluster

open Db (Str)

/-- The message that has brought the opinion. -/
def Opinion.messageId {C : Type} (opinion : Opinion C) : Option Nat :=
  match opinion.origin with
  | .own => none
  | .reply id _ => some id

def EvictionIssue.counted {C : Type} (issue : EvictionIssue C) : List Nat := issue.opinions.filterMap Opinion.messageId

def EvictionIssue.HasOwn {C : Type} (issue : EvictionIssue C) : Prop := ∃ opinion ∈ issue.opinions, opinion.origin = .own

namespace EvictionServer

variable {C : Type}

/-! ### Ballots and verdicts -/

/-- Posts, requests and opinions agree: every message counts once, for the issue it was posted for. -/
structure Ballots (s : EvictionServer C) : Prop where
  posted : ∀ id entry, s.posted.lookup id = some entry → id < s.nextId
  requests : ∀ id issueId, s.requests.lookup id = some issueId → ∃ peer, s.posted.lookup id = some (peer, issueId)
  counted : ∀ issueId issue, s.issues.lookup issueId = some issue → ∀ id ∈ issue.counted,
    (∃ peer, s.posted.lookup id = some (peer, issueId)) ∧ id ∉ s.requests
  once : ∀ issueId issue, s.issues.lookup issueId = some issue → issue.counted.Nodup

/-- Issues and what came of them agree, up to the `short` that `expected_opinions` is. -/
structure Verdicts (s : EvictionServer C) : Prop where
  requested : ∀ id issueId, s.requests.lookup id = some issueId → issueId ∈ s.put
  put : ∀ issueId peers, s.put.lookup issueId = some peers → ∃ issue, s.issues.lookup issueId = some issue ∧
    issue.expectedOpinions = expectedFor peers ∧ issue.HasOwn
  resolved : ∀ issueId ∈ s.resolutions, ∃ issue, s.issues.lookup issueId = some issue ∧ issue.resolved = true
  resolvedOnce : s.resolutions.Nodup
  evicted : ∀ eviction ∈ s.evictions, ∃ peers, s.put.lookup eviction.issueId = some peers ∧
    (expectedFor peers).toInt ≤ eviction.opinions.countP (·.value) ∧ ∃ opinion ∈ eviction.opinions, opinion.origin = .own

variable {s : EvictionServer C} {issueId : Str} {issue : EvictionIssue C}

theorem insertEvictionIssue_fresh (fresh : issueId ∉ s.issues) :
    s.insertEvictionIssue issueId issue = { s with issues := s.issues.insert issueId issue } := by
  unfold insertEvictionIssue Table.insertNew
  rw [if_neg fresh]

theorem modifyIssue_found (found : s.issues.lookup issueId = some issue) (change : EvictionIssue C → EvictionIssue C) :
    s.modifyIssue issueId change = { s with issues := s.issues.insert issueId (change issue) } := by
  unfold modifyIssue
  rw [found]

theorem modifyIssue_put (change : EvictionIssue C → EvictionIssue C) : (s.modifyIssue issueId change).put = s.put := by
  unfold modifyIssue
  split <;> rfl

/-- An issue may change in all but what was counted for it. -/
theorem Ballots.change (inv : Ballots s) (changed : EvictionIssue C)
    (same : ∀ issue, s.issues.lookup issueId = some issue → changed.counted = issue.counted)
    (fresh : issueId ∉ s.issues → changed.counted = []) :
    Ballots { s with issues := s.issues.insert issueId changed } := by
  have before : ∀ other issue, (s.issues.insert issueId changed).lookup other = some issue →
      issue.counted = [] ∨ ∃ old, s.issues.lookup other = some old ∧ issue.counted = old.counted := by
    intro other issue found
    rw [Table.lookup_insert_eq] at found
    split at found
    · rename_i this
      subst this
      cases found
      cases old : s.issues.lookup other with
      | none => exact .inl (fresh (Finmap.lookup_eq_none.mp old))
      | some issue => exact .inr ⟨issue, rfl, same issue old⟩
    · exact .inr ⟨issue, found, rfl⟩
  refine ⟨inv.posted, inv.requests, fun other issue found id member => ?_, fun other issue found => ?_⟩
  · obtain empty | ⟨old, found, counted⟩ := before other issue found
    · rw [empty] at member
      cases member
    · rw [counted] at member
      exact inv.counted other old found id member
  · obtain empty | ⟨old, found, counted⟩ := before other issue found
    · rw [empty]
      exact List.nodup_nil
    · rw [counted]
      exact inv.once other old found

theorem Ballots.insert (inv : Ballots s) (fresh : issueId ∉ s.issues) (empty : issue.opinions = []) :
    Ballots (s.insertEvictionIssue issueId issue) := by
  have uncounted : issue.counted = [] := by
    unfold EvictionIssue.counted
    rw [empty]
    rfl
  rw [insertEvictionIssue_fresh fresh]
  refine inv.change issue (fun old found => ?_) fun _ => uncounted
  exact absurd (Table.mem_of_lookup found) fresh

theorem Ballots.modify (inv : Ballots s) (issueId : Str) (change : EvictionIssue C → EvictionIssue C)
    (same : ∀ issue, (change issue).counted = issue.counted) : Ballots (s.modifyIssue issueId change) := by
  unfold modifyIssue
  split
  · rename_i issue found
    refine inv.change _ (fun old this => ?_) fun fresh => absurd (Table.mem_of_lookup found) fresh
    rw [found] at this
    cases this
    exact same _
  · exact inv

theorem counted_push_own (value : Bool) : (issue.push ⟨.own, value⟩).counted = issue.counted := by
  unfold EvictionIssue.counted EvictionIssue.push
  rw [List.filterMap_append]
  exact List.append_nil _

theorem counted_push_reply (id : Nat) (sender : C) (value : Bool) :
    (issue.push ⟨.reply id sender, value⟩).counted = issue.counted ++ [id] := by
  unfold EvictionIssue.counted EvictionIssue.push
  rw [List.filterMap_append]
  rfl

theorem putTo_hasOwn (peers : Nat) : (issue.putTo peers).HasOwn :=
  ⟨⟨.own, issue.selfOpinion⟩, List.mem_append_right _ (List.mem_singleton_self _), rfl⟩

theorem Ballots.put (inv : Ballots s) (peers : Nat) : Ballots (s.putIssue issueId peers) := by
  have put := inv.modify issueId (·.putTo peers) fun issue => counted_push_own issue.selfOpinion
  exact ⟨put.posted, put.requests, put.counted, put.once⟩

theorem Ballots.posted_kept (inv : Ballots s) (peer : C) {id : Nat} {entry : C × Str} (found : s.posted.lookup id = some entry) :
    (s.allot issueId peer).posted.lookup id = some entry := by
  change (s.posted.insert s.nextId (peer, issueId)).lookup id = some entry
  rw [Table.lookup_insert_eq, if_neg (Nat.ne_of_lt (inv.posted id entry found))]
  exact found

/-- A post is recorded under an id that was never used. -/
theorem Ballots.allot (inv : Ballots s) (peer : C) : Ballots (s.allot issueId peer) := by
  refine ⟨fun id entry found => ?_, fun id other asked => ?_, fun other issue found id member => ?_, inv.once⟩
  · change (s.posted.insert s.nextId (peer, issueId)).lookup id = some entry at found
    change id < s.nextId + 1
    rw [Table.lookup_insert_eq] at found
    split at found
    · omega
    · have := inv.posted id entry found
      omega
  · obtain ⟨target, posted⟩ := inv.requests id other asked
    exact ⟨target, inv.posted_kept peer posted⟩
  · obtain ⟨⟨target, posted⟩, unasked⟩ := inv.counted other issue found id member
    exact ⟨⟨target, inv.posted_kept peer posted⟩, unasked⟩

theorem Ballots.expect (inv : Ballots s) (id : Nat) (op : PeerOp) : Ballots (s.expectOp id op) :=
  ⟨inv.posted, inv.requests, inv.counted, inv.once⟩

theorem lookup_addRequest {id other : Nat} {otherIssue : Str} (fresh : other ∉ s.requests) :
    (s.addRequest other issueId).requests.lookup id = some otherIssue ↔
      id = other ∧ otherIssue = issueId ∨ id ≠ other ∧ s.requests.lookup id = some otherIssue := by
  unfold addRequest Table.insertNew
  rw [if_neg fresh, Table.lookup_insert_eq]
  by_cases same : id = other
  · simp [same, eq_comm]
  · simp [same]

theorem Ballots.request (inv : Ballots s) {id : Nat} (posted : ∃ peer, s.posted.lookup id = some (peer, issueId))
    (fresh : id ∉ s.requests) (uncounted : ∀ other issue, s.issues.lookup other = some issue → id ∉ issue.counted) :
    Ballots (s.addRequest id issueId) := by
  refine ⟨inv.posted, fun other otherIssue found => ?_, fun other issue found counted member => ?_, inv.once⟩
  · obtain ⟨rfl, rfl⟩ | ⟨_, old⟩ := (lookup_addRequest fresh).mp found
    · exact posted
    · exact inv.requests other otherIssue old
  · refine ⟨(inv.counted other issue found counted member).1, fun requested => ?_⟩
    obtain ⟨otherIssue, requested⟩ := Finmap.mem_iff.mp requested
    obtain ⟨rfl, _⟩ | ⟨_, old⟩ := (lookup_addRequest fresh).mp requested
    · exact uncounted other issue found member
    · exact (inv.counted other issue found counted member).2 (Table.mem_of_lookup old)

theorem Ballots.uncounted_next (inv : Ballots s) (other : Str) (issue : EvictionIssue C)
    (found : s.issues.lookup other = some issue) : s.nextId ∉ issue.counted := by
  intro member
  obtain ⟨⟨target, posted⟩, _⟩ := inv.counted other issue found _ member
  exact Nat.lt_irrefl _ (inv.posted _ _ posted)

theorem Ballots.unasked_next (inv : Ballots s) : s.nextId ∉ s.requests := by
  intro asked
  obtain ⟨other, asked⟩ := Finmap.mem_iff.mp asked
  obtain ⟨target, posted⟩ := inv.requests _ _ asked
  exact Nat.lt_irrefl _ (inv.posted _ _ posted)

theorem Ballots.post (inv : Ballots s) (peer : C) : Ballots (s.postAskEvict issueId peer) :=
  (inv.allot peer).expect s.nextId .askEvict

/-- The post and the request that goes with it. -/
theorem Ballots.ask (inv : Ballots s) (peer : C) : Ballots ((s.postAskEvict issueId peer).addRequest s.nextId issueId) :=
  (inv.post peer).request ⟨peer, Finmap.lookup_insert s.posted⟩ inv.unasked_next inv.uncounted_next

theorem Ballots.pop (inv : Ballots s) (id : Nat) : Ballots { s with requests := s.requests.erase id } := by
  have requests : ∀ other otherIssue, (s.requests.erase id).lookup other = some otherIssue →
      s.requests.lookup other = some otherIssue := by
    intro other otherIssue found
    rw [Table.lookup_erase_eq] at found
    split at found
    · cases found
    · exact found
  refine ⟨inv.posted, fun other otherIssue found => inv.requests other otherIssue (requests other otherIssue found),
    fun other issue found counted member => ?_, inv.once⟩
  refine ⟨(inv.counted other issue found counted member).1, fun requested => ?_⟩
  obtain ⟨third, requested⟩ := Finmap.mem_iff.mp requested
  exact (inv.counted other issue found counted member).2 (Table.mem_of_lookup (requests counted third requested))

/-- The opinion of a message that no request waits for any more. -/
theorem Ballots.count (inv : Ballots s) {id : Nat} (posted : ∃ peer, s.posted.lookup id = some (peer, issueId))
    (unasked : id ∉ s.requests) (uncounted : ∀ issue, s.issues.lookup issueId = some issue → id ∉ issue.counted)
    (sender : C) (value : Bool) : Ballots (s.modifyIssue issueId (·.push ⟨.reply id sender, value⟩)) := by
  unfold modifyIssue
  split
  · rename_i issue found
    refine ⟨inv.posted, inv.requests, fun other changed this counted member => ?_, fun other changed this => ?_⟩
    · rw [Table.lookup_insert_eq] at this
      split at this
      · rename_i same
        subst same
        cases this
        rw [counted_push_reply, List.mem_append, List.mem_singleton] at member
        obtain old | rfl := member
        · exact inv.counted other issue found counted old
        · exact ⟨posted, unasked⟩
      · exact inv.counted other changed this counted member
    · rw [Table.lookup_insert_eq] at this
      split at this
      · cases this
        rw [counted_push_reply]
        refine List.Nodup.append (inv.once issueId issue found) (List.nodup_singleton id) ?_
        rw [List.disjoint_singleton]
        exact uncounted issue found
      · exact inv.once other changed this
  · exact inv

/-- A request is given up for the opinion that it has brought. -/
theorem Ballots.reply (inv : Ballots s) {id : Nat} (asked : s.requests.lookup id = some issueId) (sender : C) (value : Bool)
    (ops : Table Nat PeerOp) :
    Ballots ({ s with expectedOps := ops, requests := s.requests.erase id }.modifyIssue issueId
      (·.push ⟨.reply id sender, value⟩)) := by
  obtain ⟨posted, requests, counted, once⟩ := inv.pop id
  have popped : Ballots { s with expectedOps := ops, requests := s.requests.erase id } := ⟨posted, requests, counted, once⟩
  refine popped.count (inv.requests id issueId asked) Finmap.notMem_erase_self (fun issue found member => ?_) sender value
  exact (inv.counted issueId issue found id member).2 (Table.mem_of_lookup asked)

/-- An issue may change in all but its threshold, as long as it keeps the own opinion and stays resolved. -/
theorem Verdicts.change (inv : Verdicts s) (found : s.issues.lookup issueId = some issue) (changed : EvictionIssue C)
    (expected : changed.expectedOpinions = issue.expectedOpinions) (own : issue.HasOwn → changed.HasOwn)
    (resolved : issue.resolved = true → changed.resolved = true) :
    Verdicts { s with issues := s.issues.insert issueId changed } := by
  have after : ∀ other old, s.issues.lookup other = some old → ∃ new, (s.issues.insert issueId changed).lookup other = some new ∧
      new.expectedOpinions = old.expectedOpinions ∧ (old.HasOwn → new.HasOwn) ∧ (old.resolved = true → new.resolved = true) := by
    intro other old this
    rw [Table.lookup_insert_eq]
    split
    · rename_i same
      subst same
      rw [found] at this
      cases this
      exact ⟨changed, rfl, expected, own, resolved⟩
    · exact ⟨old, this, rfl, id, id⟩
  refine ⟨inv.requested, fun other peers put => ?_, fun other member => ?_, inv.resolvedOnce, inv.evicted⟩
  · obtain ⟨old, this, threshold, has⟩ := inv.put other peers put
    obtain ⟨new, now, expected, own, _⟩ := after other old this
    exact ⟨new, now, expected.trans threshold, own has⟩
  · obtain ⟨old, this, flag⟩ := inv.resolved other member
    obtain ⟨new, now, _, _, resolved⟩ := after other old this
    exact ⟨new, now, resolved flag⟩

theorem Verdicts.known (inv : Verdicts s) (put : issueId ∈ s.put) : issueId ∈ s.issues := by
  obtain ⟨peers, put⟩ := Finmap.mem_iff.mp put
  obtain ⟨issue, found, _⟩ := inv.put issueId peers put
  exact Table.mem_of_lookup found

theorem Verdicts.insert (inv : Verdicts s) (fresh : issueId ∉ s.issues) : Verdicts (s.insertEvictionIssue issueId issue) := by
  have kept : ∀ other old, s.issues.lookup other = some old → (s.issues.insert issueId issue).lookup other = some old := by
    intro other old found
    have different : other ≠ issueId := fun same => fresh (same ▸ Table.mem_of_lookup found)
    rw [Table.lookup_insert_eq, if_neg different]
    exact found
  rw [insertEvictionIssue_fresh fresh]
  refine ⟨inv.requested, fun other peers put => ?_, fun other member => ?_, inv.resolvedOnce, inv.evicted⟩
  · obtain ⟨old, found, rest⟩ := inv.put other peers put
    exact ⟨old, kept other old found, rest⟩
  · obtain ⟨old, found, flag⟩ := inv.resolved other member
    exact ⟨old, kept other old found, flag⟩

theorem Verdicts.putIssue (inv : Verdicts s) (found : s.issues.lookup issueId = some issue) (fresh : issueId ∉ s.put)
    (peers : Nat) : Verdicts (s.putIssue issueId peers) := by
  have kept : ∀ other count, s.put.lookup other = some count → (s.put.insert issueId peers).lookup other = some count := by
    intro other count put
    have different : other ≠ issueId := fun same => fresh (same ▸ Table.mem_of_lookup put)
    rw [Table.lookup_insert_eq, if_neg different]
    exact put
  have unchanged : ∀ other, other ≠ issueId → ∀ changed, (s.issues.insert issueId changed).lookup other = s.issues.lookup other :=
    fun other different changed => Finmap.lookup_insert_of_ne _ different
  unfold EvictionServer.putIssue
  rw [modifyIssue_found found]
  refine ⟨fun id other asked => Finmap.mem_insert.mpr (.inr (inv.requested id other asked)), fun other count put => ?_,
    fun other member => ?_, inv.resolvedOnce, fun eviction member => ?_⟩
  · rw [Table.lookup_insert_eq] at put
    split at put
    · rename_i same
      subst same
      cases put
      exact ⟨_, Finmap.lookup_insert _, rfl, putTo_hasOwn peers⟩
    · rename_i different
      obtain ⟨old, this, rest⟩ := inv.put other count put
      exact ⟨old, (unchanged other different _).trans this, rest⟩
  · obtain ⟨old, this, flag⟩ := inv.resolved other member
    by_cases same : other = issueId
    · subst same
      rw [found] at this
      cases this
      exact ⟨_, Finmap.lookup_insert _, flag⟩
    · exact ⟨old, (unchanged other same _).trans this, flag⟩
  · obtain ⟨count, put, rest⟩ := inv.evicted eviction member
    exact ⟨count, kept _ count put, rest⟩

theorem Verdicts.ask (inv : Verdicts s) (put : issueId ∈ s.put) (peer : C) (id : Nat) :
    Verdicts ((s.postAskEvict issueId peer).addRequest id issueId) := by
  refine ⟨fun other otherIssue asked => ?_, inv.put, inv.resolved, inv.resolvedOnce, inv.evicted⟩
  unfold addRequest Table.insertNew at asked
  split at asked
  · exact inv.requested other otherIssue asked
  · change (s.requests.insert id issueId).lookup other = some otherIssue at asked
    rw [Table.lookup_insert_eq] at asked
    split at asked
    · cases asked
      exact put
    · exact inv.requested other otherIssue asked

theorem Verdicts.reply (inv : Verdicts s) (id : Nat) (sender : C) (value : Bool) (ops : Table Nat PeerOp) :
    Verdicts ({ s with expectedOps := ops, requests := s.requests.erase id }.modifyIssue issueId
      (·.push ⟨.reply id sender, value⟩)) := by
  have popped : Verdicts { s with expectedOps := ops, requests := s.requests.erase id } := by
    refine ⟨fun other otherIssue asked => ?_, inv.put, inv.resolved, inv.resolvedOnce, inv.evicted⟩
    change (s.requests.erase id).lookup other = some otherIssue at asked
    rw [Table.lookup_erase_eq] at asked
    split at asked
    · cases asked
    · exact inv.requested other otherIssue asked
  unfold modifyIssue
  split
  · rename_i issue found
    refine popped.change found _ rfl (fun ⟨opinion, member, own⟩ => ?_) fun flag => flag
    exact ⟨opinion, List.mem_append_left _ member, own⟩
  · exact popped

section
variable {sends : Nat → Bool}

theorem Ballots.askEach (peers : List C) (inv : Ballots s) : Ballots (askEach sends issueId peers s) := by
  induction peers generalizing s with
  | nil => exact inv
  | cons peer rest ih =>
    unfold EvictionServer.askEach
    split
    · exact ih (inv.ask peer)
    · exact inv.post peer

theorem Verdicts.askEach (peers : List C) (inv : Verdicts s) (put : issueId ∈ s.put) :
    Verdicts (askEach sends issueId peers s) := by
  induction peers generalizing s with
  | nil => exact inv
  | cons peer rest ih =>
    unfold EvictionServer.askEach
    split
    · exact ih (inv.ask put peer s.nextId) put
    · exact ⟨inv.requested, inv.put, inv.resolved, inv.resolvedOnce, inv.evicted⟩

/-- Posts leave the issues and their fate alone. -/
theorem askEach_frame (peers : List C) : ∃ requests ops nextId posted, askEach sends issueId peers s =
    { s with requests := requests, expectedOps := ops, nextId := nextId, posted := posted } := by
  induction peers generalizing s with
  | nil => exact ⟨s.requests, s.expectedOps, s.nextId, s.posted, rfl⟩
  | cons peer rest ih =>
    unfold askEach
    split
    · obtain ⟨requests, ops, nextId, posted, same⟩ := ih (s := (s.postAskEvict issueId peer).addRequest s.nextId issueId)
      exact ⟨requests, ops, nextId, posted, same⟩
    · exact ⟨s.requests, _, _, _, rfl⟩

end

/-- All that the tables agree on, in every state. -/
structure Books (s : EvictionServer C) : Prop where
  ballots : Ballots s
  verdicts : Verdicts s

theorem Books.start (peers : Finset C) (sessionId : Table C Str) : Books (start peers sessionId) := by
  have nothing : ∀ {V : Type} (key : Nat) (value : V), ¬ (∅ : Table Nat V).lookup key = some value := nofun
  have nowhere : ∀ {V : Type} (key : Str) (value : V), ¬ (∅ : Table Str V).lookup key = some value := nofun
  exact ⟨⟨fun _ _ found => absurd found (nothing _ _), fun _ _ found => absurd found (nothing _ _),
      fun _ _ found => absurd found (nowhere _ _), fun _ _ found => absurd found (nowhere _ _)⟩,
    ⟨fun _ _ found => absurd found (nothing _ _), fun _ _ found => absurd found (nowhere _ _), nofun, List.nodup_nil, nofun⟩⟩

variable [DecidableEq C]

/-! ### One step -/

/-- What a step does, by what becomes of the issues. -/
inductive Stepped (s : EvictionServer C) (event : EvictionEvent C) : EvictionServer C → Prop
  | puts (order : Order C) (sends : Nat → Bool) (issueId : Str) (issue : EvictionIssue C) (audience : Audience C)
      (asked : s.Puts event) (fresh : issueId ∉ s.issues) (empty : issue.opinions = []) (unresolved : issue.resolved = false) :
      Stepped s event ((s.insertEvictionIssue issueId issue).postAskEvictAll order sends issueId audience)
  | learns (issueId : Str) (issue : EvictionIssue C) (silent : ¬ s.Puts event) (fresh : issueId ∉ s.issues)
      (empty : issue.opinions = []) : Stepped s event (s.insertEvictionIssue issueId issue)
  | counts (order : Order C) (sender : C) (id : Nat) (value : Bool) (issueId : Str) (silent : ¬ s.Puts event)
      (asked : s.requests.lookup id = some issueId) (ops : Table Nat PeerOp) :
      Stepped s event (({ s with expectedOps := ops, requests := s.requests.erase id }.modifyIssue issueId
        (·.push ⟨.reply id sender, value⟩)).tryResolveIssue order issueId)
  | quiet (silent : ¬ s.Puts event) (peers : Finset C) (sessionId : Table C Str) (ops : Table Nat PeerOp)
      (nextId : Nat) (later : s.nextId ≤ nextId) :
      Stepped s event { s with peers, sessionId, expectedOps := ops, nextId }

section
variable {s t : EvictionServer C} {event : EvictionEvent C}

theorem Stepped.same (silent : ¬ s.Puts event) : Stepped s event s :=
  .quiet silent s.peers s.sessionId s.expectedOps s.nextId (Nat.le_refl _)

theorem stepped_reply (order : Order C) (sender : C) (id : Nat) (body : ReplyBody) :
    Stepped s (.reply order sender id body) (s.handleReplyRequest order sender id body) := by
  have silent : ¬ s.Puts (.reply order sender id body) := not_false
  have unasked : ∀ ops, Stepped s (.reply order sender id body) { s with expectedOps := ops } :=
    fun ops => .quiet silent s.peers s.sessionId ops s.nextId (Nat.le_refl _)
  unfold handleReplyRequest
  split
  · exact .same silent
  · dsimp only
    split
    · unfold replyRequestAskEvict
      dsimp only
      split
      · exact unasked _
      · rename_i asked
        exact .counts order sender id _ _ silent asked _
    · exact unasked _

theorem stepped (taken : step s event = some t) : Stepped s event t := by
  cases event with
  | begin_ order sends issueId peer reason =>
    change (if issueId ∈ s.issues then none else some (s.beginEvictProcess order sends issueId peer reason)) = some t at taken
    split at taken
    · cases taken
    · rename_i fresh
      cases taken
      unfold beginEvictProcess
      split
      · rename_i unknown
        refine .same fun puts => ?_
        obtain ⟨peerId, found, _⟩ := puts
        rw [unknown] at found
        cases found
      · rename_i peerId known
        split
        · rename_i similar
          refine .same fun puts => ?_
          obtain ⟨other, found, different⟩ := puts
          rw [known] at found
          cases found
          rw [similar] at different
          cases different
        · rename_i different
          exact .puts order sends issueId _ (.allBut peer) ⟨peerId, known, Bool.eq_false_iff.mpr different⟩ fresh rfl rfl
  | askEvict order judge replies sends issueId peerId reason =>
    cases taken
    unfold postRequestAskEvict
    split
    · rename_i known
      exact .same fun puts => puts.1 known
    · rename_i fresh
      split
      · rename_i failed
        refine .same fun puts => ?_
        have opined := puts.2.1
        rw [failed] at opined
        cases opined
      · rename_i selfOpinion opined
        dsimp only
        split
        · rename_i sent
          exact .puts order sends issueId _ (.otherIds peerId) ⟨fresh, by rw [opined]; rfl, sent⟩ fresh rfl rfl
        · rename_i unsent
          exact .learns issueId _ (fun puts => unsent puts.2.2) fresh rfl
  | reply order sender id body =>
    cases taken
    exact stepped_reply order sender id body
  | post op other =>
    cases taken
    have silent : ¬ s.Puts (.post op other) := not_false
    exact .quiet silent s.peers s.sessionId _ _ (Nat.le_succ _)
  | peers peers sessionId =>
    cases taken
    have silent : ¬ s.Puts (.peers peers sessionId) := not_false
    exact .quiet silent peers sessionId s.expectedOps s.nextId (Nat.le_refl _)

end

/-! ### Handlers -/

section
variable {s : EvictionServer C} {order : Order C} {sends : Nat → Bool} {issueId : Str} {issue : EvictionIssue C}

theorem resolveIssue_eq (s : EvictionServer C) (order : Order C) (issueId : Str) (issue : EvictionIssue C) (verdict : Bool) : ∃ peers evictions, s.resolveIssue order issueId issue verdict =
      { s.modifyIssue issueId (fun issue => { issue with resolved := true }) with
        resolutions := s.resolutions ++ [issueId], peers := peers, evictions := evictions } ∧
    (evictions = s.evictions ∨ verdict = true ∧ evictions = s.evictions ++ [⟨issueId, issue.opinions⟩]) := by
  have kept : (s.modifyIssue issueId fun issue => { issue with resolved := true }).evictions = s.evictions := by
    unfold modifyIssue
    split <;> rfl
  unfold resolveIssue
  dsimp only
  split
  · rename_i upheld
    unfold evictPeer
    split
    · exact ⟨_, _, rfl, .inl kept⟩
    · refine ⟨_, _, rfl, .inr ⟨upheld, ?_⟩⟩
      rw [← kept]
  · exact ⟨_, _, rfl, .inl kept⟩

/-- No more than flags of issues, the peers and what is remembered may change. -/
structure OnlyResolves (s t : EvictionServer C) : Prop where
  frame : ∃ issues peers resolutions evictions,
    t = { s with issues := issues, peers := peers, resolutions := resolutions, evictions := evictions }
  opinions : ∀ issueId issue, t.issues.lookup issueId = some issue →
    ∃ before, s.issues.lookup issueId = some before ∧ issue.opinions = before.opinions
  known : ∀ issueId, issueId ∈ s.issues → issueId ∈ t.issues

omit [DecidableEq C] in
theorem OnlyResolves.refl (s : EvictionServer C) : OnlyResolves s s :=
  ⟨⟨s.issues, s.peers, s.resolutions, s.evictions, rfl⟩, fun _ issue found => ⟨issue, found, rfl⟩, fun _ member => member⟩

theorem onlyResolves (s : EvictionServer C) (order : Order C) (issueId : Str) : OnlyResolves s (s.tryResolveIssue order issueId) := by
  have resolve : ∀ issue verdict, s.issues.lookup issueId = some issue →
      OnlyResolves s (s.resolveIssue order issueId issue verdict) := by
    intro issue verdict known
    obtain ⟨peers, evictions, same, _⟩ := resolveIssue_eq s order issueId issue verdict
    rw [same, modifyIssue_found known]
    refine ⟨⟨_, peers, _, evictions, rfl⟩, fun other changed found => ?_, fun other member => Finmap.mem_insert.mpr (.inr member)⟩
    change (s.issues.insert issueId _).lookup other = some changed at found
    rw [Table.lookup_insert_eq] at found
    split at found
    · rename_i this
      subst this
      cases found
      exact ⟨issue, known, rfl⟩
    · exact ⟨changed, found, rfl⟩
  unfold tryResolveIssue
  split
  · exact .refl s
  · rename_i issue known
    split
    · exact .refl s
    · split
      · exact resolve issue true known
      · split
        · exact resolve issue false known
        · exact .refl s

theorem tryResolveIssue_put : (s.tryResolveIssue order issueId).put = s.put := by
  obtain ⟨⟨issues, peers, resolutions, evictions, same⟩, _, _⟩ := onlyResolves s order issueId
  rw [same]

theorem tryResolveIssue_other {other : Str} (different : other ≠ issueId) :
    (s.tryResolveIssue order issueId).issues.lookup other = s.issues.lookup other := by
  have resolve : ∀ issue verdict, (s.resolveIssue order issueId issue verdict).issues.lookup other = s.issues.lookup other := by
    intro issue verdict
    obtain ⟨peers, evictions, same, _⟩ := resolveIssue_eq s order issueId issue verdict
    rw [same]
    unfold modifyIssue
    dsimp only
    split
    · exact Finmap.lookup_insert_of_ne _ different
    · rfl
  unfold tryResolveIssue
  split
  · rfl
  · split
    · rfl
    · split
      · exact resolve _ true
      · split
        · exact resolve _ false
        · rfl

/-- The issue is resolved if it was, or if it is decided by the comparisons. -/
theorem tryResolveIssue_found (order : Order C) (found : s.issues.lookup issueId = some issue) : ∃ resolved,
    (s.tryResolveIssue order issueId).issues.lookup issueId = some { issue with resolved := resolved } ∧
      (issue.resolved = true ∨ issue.isUpheld = true ∨ issue.isRejected = true → resolved = true) := by
  have resolve : ∀ verdict, (s.resolveIssue order issueId issue verdict).issues.lookup issueId =
      some { issue with resolved := true } := by
    intro verdict
    obtain ⟨peers, evictions, same, _⟩ := resolveIssue_eq s order issueId issue verdict
    rw [same, modifyIssue_found found]
    exact Finmap.lookup_insert _
  unfold tryResolveIssue
  rw [found]
  dsimp only
  split
  · rename_i already
    exact ⟨issue.resolved, found, fun _ => already⟩
  · rename_i unresolved
    split
    · exact ⟨true, resolve true, fun _ => rfl⟩
    · rename_i notUpheld
      split
      · exact ⟨true, resolve false, fun _ => rfl⟩
      · rename_i notRejected
        refine ⟨issue.resolved, found, fun reason => ?_⟩
        obtain already | upheld | rejected := reason
        · exact already
        · exact absurd upheld notUpheld
        · exact absurd rejected notRejected

theorem Ballots.tryResolve (inv : Ballots s) : Ballots (s.tryResolveIssue order issueId) := by
  have resolve : ∀ issue verdict, Ballots (s.resolveIssue order issueId issue verdict) := by
    intro issue verdict
    obtain ⟨peers, evictions, same, _⟩ := resolveIssue_eq s order issueId issue verdict
    have marked := inv.modify issueId (fun issue => { issue with resolved := true }) fun _ => rfl
    rw [same]
    exact ⟨marked.posted, marked.requests, marked.counted, marked.once⟩
  unfold tryResolveIssue
  split
  · exact inv
  · split
    · exact inv
    · split
      · exact resolve _ true
      · split
        · exact resolve _ false
        · exact inv

theorem Verdicts.resolve (inv : Verdicts s) (found : s.issues.lookup issueId = some issue) (unresolved : issue.resolved = false)
    (put : issueId ∈ s.put) (verdict : Bool) (upheld : verdict = true → issue.isUpheld = true) :
    Verdicts (s.resolveIssue order issueId issue verdict) := by
  obtain ⟨peers, evictions, same, history⟩ := resolveIssue_eq s order issueId issue verdict
  have marked := inv.change found { issue with resolved := true } rfl (fun has => has) fun _ => rfl
  rw [same, modifyIssue_found found]
  refine ⟨marked.requested, marked.put, fun other member => ?_, ?_, fun eviction member => ?_⟩
  · obtain old | this := List.mem_append.mp member
    · exact marked.resolved other old
    · rw [List.mem_singleton.mp this]
      exact ⟨_, Finmap.lookup_insert _, rfl⟩
  · refine List.Nodup.append inv.resolvedOnce (List.nodup_singleton issueId) ?_
    rw [List.disjoint_singleton]
    intro member
    obtain ⟨old, this, flag⟩ := inv.resolved issueId member
    rw [found] at this
    cases this
    rw [unresolved] at flag
    cases flag
  · obtain rfl | ⟨isTrue, rfl⟩ := history
    · exact inv.evicted eviction member
    · obtain old | this := List.mem_append.mp member
      · exact inv.evicted eviction old
      · rw [List.mem_singleton.mp this]
        obtain ⟨count, put⟩ := Finmap.mem_iff.mp put
        obtain ⟨old, this, expected, own⟩ := inv.put issueId count put
        rw [found] at this
        cases this
        have reached := of_decide_eq_true (upheld isTrue)
        rw [expected] at reached
        exact ⟨count, put, reached, own⟩

theorem Verdicts.tryResolve (inv : Verdicts s) (put : issueId ∈ s.put) : Verdicts (s.tryResolveIssue order issueId) := by
  unfold tryResolveIssue
  split
  · exact inv
  · rename_i issue found
    split
    · exact inv
    · rename_i unresolved
      have unresolved := Bool.eq_false_iff.mpr unresolved
      split
      · rename_i upheld
        exact inv.resolve found unresolved put true fun _ => upheld
      · split
        · exact inv.resolve found unresolved put false nofun
        · exact inv

end

section
variable {s t : EvictionServer C} {event : EvictionEvent C}

theorem Books.step (inv : Books s) (taken : step s event = some t) : Books t := by
  cases stepped taken with
  | puts order sends issueId issue audience asked fresh empty unresolved =>
    have ballots : Ballots (s.insertEvictionIssue issueId issue) := inv.ballots.insert fresh empty
    have verdicts : Verdicts (s.insertEvictionIssue issueId issue) := inv.verdicts.insert fresh
    have unput : issueId ∉ s.put := fun put => fresh (inv.verdicts.known put)
    have found : (s.insertEvictionIssue issueId issue).issues.lookup issueId = some issue := by
      rw [insertEvictionIssue_fresh fresh]
      exact Finmap.lookup_insert _
    exact ⟨(ballots.put _).askEach _, (verdicts.putIssue found unput _).askEach _ (Finmap.mem_insert.mpr (.inl rfl))⟩
  | learns issueId issue silent fresh empty => exact ⟨inv.ballots.insert fresh empty, inv.verdicts.insert fresh⟩
  | counts order sender id value issueId silent asked ops =>
    refine ⟨(inv.ballots.reply asked sender value ops).tryResolve, (inv.verdicts.reply id sender value ops).tryResolve ?_⟩
    have put := inv.verdicts.requested id issueId asked
    rw [modifyIssue_put]
    exact put
  | quiet silent peers sessionId ops nextId later =>
    obtain ⟨⟨posted, requests, counted, once⟩, requested, put, resolved, resolvedOnce, evicted⟩ := inv
    exact ⟨⟨fun id entry found => Nat.lt_of_lt_of_le (posted id entry found) later, requests, counted, once⟩,
      requested, put, resolved, resolvedOnce, evicted⟩

end

end EvictionServer

end Vanity.Cluster
