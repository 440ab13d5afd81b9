import Vanity.Cluster.Ballots

/-!
# Majorities

A peer is evicted by a majority of those to whom its issue was put, and an issue that is decided is resolved.
Both hold as far as `expected_opinions` is right: it is a `short`, and no less than two, if an own opinion
alone is not to decide.
-/

namespace Vanity.Cluster

open Db (Str)
open Request

/-- Those that the issue is decided for, by the number of its opinions. -/
def EvictionIssue.Decided {C : Type} (issue : EvictionIssue C) : Prop :=
  issue.expectedOpinions.toInt ≤ issue.trueCount ∨ issue.expectedOpinions.toInt ≤ issue.falseCount

theorem expectedFor_toInt (peers : Nat) : (expectedFor peers).toInt = ((peers / 2 + 1 : Nat) : Int).bmod 65536 :=
  Int16.toInt_ofNat'

theorem expectedFor_few {peers : Nat} (few : peers ≤ 65533) : (expectedFor peers).toInt = (peers / 2 + 1 : Nat) := by
  unfold expectedFor
  exact Int16.toInt_ofNat_of_lt (by omega)

namespace EvictionServer

variable {C : Type} [DecidableEq C]

/-- Every message counts once, for the issue it was posted for; an issue is resolved once; and a peer is
evicted by more than half of those to whom its issue was put, the own opinion counted. -/
structure Majority (s : EvictionServer C) : Prop where
  counted : ∀ issueId issue, s.issues.lookup issueId = some issue →
    ∀ id ∈ issue.counted, ∃ peer, s.posted.lookup id = some (peer, issueId)
  once : ∀ issueId issue, s.issues.lookup issueId = some issue → issue.counted.Nodup
  resolvedOnce : s.resolutions.Nodup
  evicted : ∀ eviction ∈ s.evictions, ∃ peers, s.put.lookup eviction.issueId = some peers ∧
    peers / 2 + 1 ≤ eviction.opinions.countP (·.value) ∧ ∃ opinion ∈ eviction.opinions, opinion.origin = .own

/-- An issue is put to no more peers than a `short` has room for half of. -/
def FewPeers (s : EvictionServer C) (event : EvictionEvent C) : Prop := s.Puts event → s.peers.card ≤ 65533

/-- An issue that was put to the peers and has enough opinions of one kind is resolved. -/
def Settled (s : EvictionServer C) : Prop :=
  ∀ issueId ∈ s.put, ∀ issue, s.issues.lookup issueId = some issue → issue.Decided → issue.resolved = true

/-- An issue is put to so many peers that the own opinion does not decide, and a `short` has room. -/
def SeveralPeers (s : EvictionServer C) (event : EvictionEvent C) : Prop :=
  s.Puts event → 0 < s.peers.card / 2 % 65536 ∧ s.peers.card / 2 % 65536 < 32767

/-! ### What the handlers put -/

section
variable {s t : EvictionServer C} {event : EvictionEvent C} {issueId : Str} {issue : EvictionIssue C}

omit [DecidableEq C] in
theorem putIssue_insert (fresh : issueId ∉ s.issues) (peers : Nat) :
    (s.insertEvictionIssue issueId issue).putIssue issueId peers = { s with
      issues := s.issues.insert issueId (issue.putTo peers)
      put := s.put.insert issueId peers } := by
  rw [insertEvictionIssue_fresh fresh]
  unfold putIssue
  rw [modifyIssue_found (Finmap.lookup_insert _)]
  dsimp only
  rw [Finmap.insert_insert]

/-- An issue that is put to the peers has the own opinion. -/
theorem postAskEvictAll_insert (issue : EvictionIssue C) (fresh : issueId ∉ s.issues) (order : Order C) (sends : Nat → Bool) (audience : Audience C) :
    ∃ requests ops nextId posted, (s.insertEvictionIssue issueId issue).postAskEvictAll order sends issueId audience = { s with
      issues := s.issues.insert issueId (issue.putTo s.peers.card)
      put := s.put.insert issueId s.peers.card
      requests := requests, expectedOps := ops, nextId := nextId, posted := posted } := by
  have all : (order.list (s.insertEvictionIssue issueId issue).peers).length = s.peers.card := order.length s.peers
  unfold postAskEvictAll
  dsimp only
  rw [all, putIssue_insert fresh]
  exact askEach_frame _

/-- The number of peers is what an issue is put to; nothing else changes it. -/
theorem put_step (taken : step s event = some t) : t.put = s.put ∨
    s.Puts event ∧ ∃ issueId, t.put = s.put.insert issueId s.peers.card := by
  cases stepped taken with
  | puts order sends issueId issue audience asked fresh empty unresolved =>
    obtain ⟨requests, ops, nextId, posted, same⟩ := postAskEvictAll_insert issue fresh order sends audience
    rw [same]
    exact .inr ⟨asked, issueId, rfl⟩
  | learns issueId issue silent fresh empty =>
    rw [insertEvictionIssue_fresh fresh]
    exact .inl rfl
  | counts order sender id value issueId silent asked ops =>
    rw [tryResolveIssue_put, modifyIssue_put]
    exact .inl rfl
  | quiet silent peers sessionId ops nextId later => exact .inl rfl

/-! ### Majorities -/

/-- The numbers of peers are those that a `short` has room for half of. -/
structure Counted (s : EvictionServer C) : Prop where
  books : Books s
  few : ∀ issueId peers, s.put.lookup issueId = some peers → peers ≤ 65533

omit [DecidableEq C] in
theorem Counted.majority (inv : Counted s) : Majority s := by
  obtain ⟨⟨ballots, verdicts⟩, few⟩ := inv
  refine ⟨fun issueId issue found id member => (ballots.counted issueId issue found id member).1, ballots.once,
    verdicts.resolvedOnce, fun eviction member => ?_⟩
  obtain ⟨peers, put, reached, own⟩ := verdicts.evicted eviction member
  have small := few eviction.issueId peers put
  rw [expectedFor_few small] at reached
  exact ⟨peers, put, Int.ofNat_le.mp reached, own⟩

theorem Counted.step (inv : Counted s) (few : FewPeers s event) (taken : step s event = some t) : Counted t := by
  refine ⟨inv.books.step taken, fun other peers found => ?_⟩
  obtain same | ⟨puts, issueId, same⟩ := put_step taken
  · rw [same] at found
    exact inv.few other peers found
  · rw [same, Table.lookup_insert_eq] at found
    split at found
    · cases found
      exact few puts
    · exact inv.few other peers found

end

/-- However posts, replies and changes of the peers follow each other. -/
theorem evicted_by_majority (peers : Finset C) (sessionId : Table C Str) (run : List (EvictionEvent C))
    (few : EachStep step FewPeers run (start peers sessionId)) : EachState step Majority run (start peers sessionId) :=
  eachState_of_inv (fun _ _ _ inv few taken => Counted.step inv few taken) (fun _ => Counted.majority)
    ⟨Books.start peers sessionId, nofun⟩ few

/-- A majority of the three peers: the issue is put to them, and a reply is enough. -/
theorem two_of_three_evict : EachState step Majority
    [.begin_ (.startingWith 0) (fun _ => true) (ascii "issue") 2 (ascii "dead"), .reply (.startingWith 0) 0 0 (.opinion true)]
    (start {0, 1, 2} ((∅ : Table Nat Str).insert 2 (ascii "two"))) :=
  evicted_by_majority _ _ _ fun _ _ => ⟨fun _ => by
    change Finset.card {0, 1, 2} ≤ 65533
    decide, fun _ _ => ⟨fun puts => puts.elim, trivial⟩⟩

section
variable {s : EvictionServer C} {order : Order C} {sends : Nat → Bool} {issueId : Str} {issue : EvictionIssue C}

theorem beginEvictProcess_new {peer : C} {peerId reason : Str} (known : s.sessionId.lookup peer = some peerId)
    (new : s.similarIssueExists peerId reason = false) : s.beginEvictProcess order sends issueId peer reason =
      (s.insertEvictionIssue issueId { peerId, reason, selfOpinion := true }).postAskEvictAll order sends issueId
        (.allBut peer) := by
  unfold beginEvictProcess
  rw [known]
  dsimp only
  rw [if_neg (by rw [new]; exact Bool.false_ne_true)]

omit [DecidableEq C] in
theorem askEach_requested (peers : List C) {id : Nat} {other : Str} (asked : s.requests.lookup id = some other) :
    (askEach sends issueId peers s).requests.lookup id = some other := by
  induction peers generalizing s with
  | nil => exact asked
  | cons peer rest ih =>
    unfold askEach
    split
    · apply ih
      unfold addRequest Table.insertNew
      dsimp only
      split
      · exact asked
      · rename_i fresh
        have different : id ≠ s.nextId := fun same => fresh (same ▸ Table.mem_of_lookup asked)
        rw [Table.lookup_insert_eq, if_neg different]
        exact asked
    · exact asked

omit [DecidableEq C] in
theorem askEach_expected (peers : List C) {id : Nat} (used : id < s.nextId) :
    (askEach sends issueId peers s).expectedOps.lookup id = s.expectedOps.lookup id := by
  have posted : ∀ (s : EvictionServer C) (peer : C), id < s.nextId →
      (s.postAskEvict issueId peer).expectedOps.lookup id = s.expectedOps.lookup id :=
    fun s peer used => Finmap.lookup_insert_of_ne _ (Nat.ne_of_lt used)
  induction peers generalizing s with
  | nil => rfl
  | cons peer rest ih =>
    unfold askEach
    split
    · have later : id < ((s.postAskEvict issueId peer).addRequest s.nextId issueId).nextId := Nat.lt_succ_of_lt used
      exact (ih later).trans (posted s peer used)
    · exact posted s peer used

theorem resolveIssue_evicts {peer : C} (fromId : s.peerFromId order issue.peerId = some peer) :
    ⟨issueId, issue.opinions⟩ ∈ (s.resolveIssue order issueId issue true).evictions := by
  have same : ∀ change : EvictionIssue C → EvictionIssue C,
      ({ s.modifyIssue issueId change with resolutions := s.resolutions ++ [issueId] }).peerFromId order issue.peerId =
        some peer := by
    intro change
    unfold modifyIssue
    split <;> exact fromId
  unfold resolveIssue evictPeer
  dsimp only
  rw [if_pos rfl, same]
  exact List.mem_append_right _ (List.mem_singleton_self _)

theorem tryResolveIssue_upheld (found : s.issues.lookup issueId = some issue) (unresolved : issue.resolved = false)
    (upheld : issue.isUpheld = true) : s.tryResolveIssue order issueId = s.resolveIssue order issueId issue true := by
  unfold tryResolveIssue
  rw [found]
  dsimp only
  rw [if_neg (by rw [unresolved]; exact Bool.false_ne_true), if_pos upheld]

/-- A reply to an issue that is taken for decided evicts the peer with the opinions there are. -/
theorem reply_evicts (order : Order C) {id : Nat} (expected : s.expectedOps.lookup id = some .askEvict)
    (asked : s.requests.lookup id = some issueId) (found : s.issues.lookup issueId = some issue)
    (unresolved : issue.resolved = false) (sender : C) (value : Bool)
    (upheld : (issue.push ⟨.reply id sender, value⟩).isUpheld = true) {peer : C} (member : peer ∈ s.peers)
    (known : s.sessionId.lookup peer = some issue.peerId) :
    ⟨issueId, (issue.push ⟨.reply id sender, value⟩).opinions⟩ ∈
      (s.handleReplyRequest order sender id (.opinion value)).evictions := by
  let popped : EvictionServer C := { s with expectedOps := s.expectedOps.erase id, requests := s.requests.erase id }
  let pushed := issue.push ⟨.reply id sender, value⟩
  let after : EvictionServer C := { popped with issues := popped.issues.insert issueId pushed }
  have inserted : after.issues.lookup issueId = some pushed := Finmap.lookup_insert _
  obtain ⟨peer, fromId⟩ : ∃ peer, after.peerFromId order issue.peerId = some peer := by
    refine Option.isSome_iff_exists.mp (List.find?_isSome.mpr ⟨peer, (order.mem _ _).mpr member, ?_⟩)
    exact decide_eq_true known
  unfold handleReplyRequest
  rw [expected]
  dsimp only
  unfold replyRequestAskEvict
  dsimp only
  rw [asked]
  change _ ∈ ((popped.modifyIssue issueId (·.push ⟨.reply id sender, value⟩)).tryResolveIssue order issueId).evictions
  rw [modifyIssue_found (s := popped) found]
  change _ ∈ (after.tryResolveIssue order issueId).evictions
  rw [tryResolveIssue_upheld inserted unresolved upheld]
  exact resolveIssue_evicts fromId

end

/-- Half of 65534 peers and one more is a negative `short`: a single reply evicts, whatever it says. -/
theorem negative_reply_evicts : ¬ EachState step Majority
    [.begin_ (.startingWith 0) (fun _ => true) (ascii "issue") 1 (ascii "dead"), .reply (.startingWith 0) 0 0 (.opinion false)]
    (start (Finset.range 65534) ((∅ : Table Nat Str).insert 1 (ascii "one"))) := by
  have large : (Finset.range 65534).card = 65534 := Finset.card_range _
  have one : 1 ∈ Finset.range 65534 := Finset.mem_range.mpr (by omega)
  have zero : 0 ∈ Finset.range 65534 := Finset.mem_range.mpr (by omega)
  generalize Finset.range 65534 = peers at large one zero
  intro each
  let s := start peers ((∅ : Table Nat Str).insert 1 (ascii "one"))
  let issue : EvictionIssue Nat :=
    ⟨ascii "one", ascii "dead", [⟨.own, true⟩], true, false, expectedFor peers.card⟩
  let put : EvictionServer Nat :=
    { s with issues := s.issues.insert (ascii "issue") issue, put := s.put.insert (ascii "issue") peers.card }
  let rest := (peers.erase 0).toList.filter fun peer => decide (peer ≠ 1)
  let t := askEach (fun _ => true) (ascii "issue") rest ((put.postAskEvict (ascii "issue") 0).addRequest 0 (ascii "issue"))
  have fresh : ascii "issue" ∉ s.issues := Finmap.notMem_empty
  have begun : s.beginEvictProcess (.startingWith 0) (fun _ => true) (ascii "issue") 1 (ascii "dead") = t := by
    have first : (Order.startingWith 0).list peers = 0 :: (peers.erase 0).toList := if_pos zero
    rw [beginEvictProcess_new (Finmap.lookup_insert _) rfl]
    unfold postAskEvictAll
    dsimp only
    rw [Order.length, putIssue_insert fresh]
    change askEach _ _ (((Order.startingWith 0).list peers).filter _) put = _
    rw [first]
    rfl
  have taken : step s (.begin_ (.startingWith 0) (fun _ => true) (ascii "issue") 1 (ascii "dead")) = some t := by
    change (if ascii "issue" ∈ s.issues then none else some _) = some t
    rw [if_neg fresh, begun]
  obtain ⟨requests, ops, nextId, posted, same⟩ : ∃ requests ops nextId posted, t =
    { put with requests := requests, expectedOps := ops, nextId := nextId, posted := posted } := askEach_frame rest
  have upheld : (issue.push ⟨.reply 0 0, false⟩).isUpheld = true := by
    change decide ((expectedFor peers.card).toInt ≤ 1) = true
    rw [large]
    decide
  have expected : t.expectedOps.lookup 0 = some .askEvict :=
    (askEach_expected rest (Nat.lt_succ_self 0)).trans (Finmap.lookup_insert _)
  have asked : t.requests.lookup 0 = some (ascii "issue") := askEach_requested rest
    ((lookup_addRequest (s := put.postAskEvict (ascii "issue") 0) Finmap.notMem_empty).mpr (.inl ⟨rfl, rfl⟩))
  have found : t.issues.lookup (ascii "issue") = some issue := by
    rw [same]
    exact Finmap.lookup_insert _
  have member : 1 ∈ t.peers := by
    rw [same]
    exact one
  have known : t.sessionId.lookup 1 = some issue.peerId := by
    rw [same]
    exact Finmap.lookup_insert _
  have evicted := reply_evicts (.startingWith 0) expected asked found rfl 0 false upheld member known
  have replied : step t (.reply (.startingWith 0) 0 0 (.opinion false)) =
      some (t.handleReplyRequest (.startingWith 0) 0 0 (.opinion false)) := rfl
  have majority := (each.2 t taken).2 _ replied
  obtain ⟨count, wasPut, reached, _⟩ := majority.evicted _ evicted
  obtain unchanged | ⟨puts, _⟩ := put_step replied
  · rw [unchanged, same] at wasPut
    have fromPut : some count = some peers.card := wasPut.symm.trans (Finmap.lookup_insert _)
    cases fromPut
    change peers.card / 2 + 1 ≤ 1 at reached
    omega
  · exact puts

/-! ### Decided issues -/

section
variable {s t : EvictionServer C} {event : EvictionEvent C} {issueId : Str} {issue : EvictionIssue C}

omit [DecidableEq C] in
theorem trueCount_add_falseCount (issue : EvictionIssue C) : issue.trueCount + issue.falseCount = issue.opinions.length := by
  have within : issue.trueCount ≤ issue.opinions.length := List.countP_le_length
  unfold EvictionIssue.falseCount
  omega

omit [DecidableEq C] in
/-- An own opinion decides where it is enough. -/
theorem decided_of_own (has : issue.HasOwn) (low : issue.expectedOpinions.toInt ≤ 1) : issue.Decided := by
  obtain ⟨opinion, member, _⟩ := has
  have total := trueCount_add_falseCount issue
  have some := List.length_pos_of_mem member
  unfold EvictionIssue.Decided
  omega

omit [DecidableEq C] in
/-- Where more than one opinion is asked for, the comparisons say what they are meant to. -/
theorem decided_iff (high : 2 ≤ issue.expectedOpinions.toInt) :
    issue.Decided ↔ issue.isUpheld = true ∨ issue.isRejected = true := by
  have small := issue.expectedOpinions.toInt_lt
  have wide : issue.expectedOpinions.toInt % 2 ^ 64 = issue.expectedOpinions.toInt :=
    Int.emod_eq_of_lt (by omega) (by omega)
  unfold EvictionIssue.Decided EvictionIssue.isUpheld EvictionIssue.isRejected
  rw [wide, decide_eq_true_iff, decide_eq_true_iff]
  omega

omit [DecidableEq C] in
/-- An issue that has just been put is undecided exactly if more than one opinion is asked for. -/
theorem undecided_putTo (empty : issue.opinions = []) (peers : Nat) :
    ¬ (issue.putTo peers).Decided ↔ 2 ≤ (expectedFor peers).toInt := by
  have total := trueCount_add_falseCount (issue.putTo peers)
  have one : (issue.putTo peers).opinions.length = 1 := by
    unfold EvictionIssue.putTo EvictionIssue.push
    rw [empty]
    rfl
  change ¬ ((expectedFor peers).toInt ≤ _ ∨ (expectedFor peers).toInt ≤ _) ↔ _
  omega

/-- The own opinion decides nothing where more than one is asked for. -/
theorem severalPeers_iff (peers : Nat) :
    2 ≤ (expectedFor peers).toInt ↔ 0 < peers / 2 % 65536 ∧ peers / 2 % 65536 < 32767 := by
  rw [expectedFor_toInt]
  unfold Int.bmod
  dsimp only
  split <;> omega

theorem counted_settled (inv : Books s) (settled : Settled s) {id : Nat} (asked : s.requests.lookup id = some issueId)
    (sender : C) (value : Bool) (order : Order C) {ops : Table Nat PeerOp} (other : Str) (put : other ∈ s.put)
    (changed : EvictionIssue C)
    (found : ((({ s with expectedOps := ops, requests := s.requests.erase id }.modifyIssue issueId
      (·.push ⟨.reply id sender, value⟩)).tryResolveIssue order issueId)).issues.lookup other = some changed)
    (decided : changed.Decided) : changed.resolved = true := by
  obtain ⟨peers, wasPut⟩ := Finmap.mem_iff.mp (inv.verdicts.requested id issueId asked)
  obtain ⟨issue, known, _, has⟩ := inv.verdicts.put issueId peers wasPut
  rw [modifyIssue_found (s := { s with expectedOps := ops, requests := s.requests.erase id }) known] at found
  by_cases same : other = issueId
  · subst same
    let pushed := issue.push ⟨.reply id sender, value⟩
    let after : EvictionServer C :=
      { s with expectedOps := ops, requests := s.requests.erase id, issues := s.issues.insert other pushed }
    have inserted : after.issues.lookup other = some pushed := Finmap.lookup_insert _
    obtain ⟨resolved, tried, reason⟩ := tryResolveIssue_found order inserted
    have this : some changed = some { pushed with resolved := resolved } := found.symm.trans tried
    cases this
    apply reason
    by_cases low : issue.expectedOpinions.toInt ≤ 1
    · exact .inl (settled other put issue known (decided_of_own has low))
    · exact .inr ((decided_iff (by change 2 ≤ issue.expectedOpinions.toInt; omega)).mp decided)
  · rw [tryResolveIssue_other same] at found
    exact settled other put changed ((Finmap.lookup_insert_of_ne _ same).symm.trans found) decided

theorem settled_step (inv : Books s) (settled : Settled s) (taken : step s event = some t) :
    Settled t ↔ SeveralPeers s event := by
  cases stepped taken with
  | puts order sends issueId issue audience asked fresh empty unresolved =>
    obtain ⟨requests, ops, nextId, posted, same⟩ := postAskEvictAll_insert issue fresh order sends audience
    unfold SeveralPeers
    rw [same, ← severalPeers_iff, ← undecided_putTo empty]
    constructor
    · intro each _ decided
      have resolved := each issueId (Finmap.mem_insert.mpr (.inl rfl)) _ (Finmap.lookup_insert _) decided
      have still : (issue.putTo s.peers.card).resolved = false := unresolved
      rw [still] at resolved
      cases resolved
    · intro undecided other put changed found decided
      change (s.issues.insert issueId (issue.putTo s.peers.card)).lookup other = some changed at found
      rw [Table.lookup_insert_eq] at found
      split at found
      · cases found
        exact absurd decided (undecided asked)
      · rename_i different
        obtain this | old := Finmap.mem_insert.mp put
        · exact absurd this different
        · exact settled other old changed found decided
  | learns issueId issue silent fresh empty =>
    refine iff_of_true (fun other put changed found decided => ?_) fun puts => absurd puts silent
    rw [insertEvictionIssue_fresh fresh] at found put
    have different : other ≠ issueId := fun same => fresh (same ▸ inv.verdicts.known put)
    change (s.issues.insert issueId issue).lookup other = some changed at found
    rw [Table.lookup_insert_eq, if_neg different] at found
    exact settled other put changed found decided
  | counts order sender id value issueId silent asked ops =>
    refine iff_of_true (fun other put changed found decided => ?_) fun puts => absurd puts silent
    rw [tryResolveIssue_put, modifyIssue_put] at put
    exact counted_settled inv settled asked sender value order other put changed found decided
  | quiet silent peers sessionId ops nextId later => exact iff_of_true settled fun puts => absurd puts silent

end

/-- Decided issues are resolved between two handlers exactly as long as issues are put to several peers. -/
theorem settled_iff (peers : Finset C) (sessionId : Table C Str) (run : List (EvictionEvent C)) :
    EachState step Settled run (start peers sessionId) ↔ EachStep step SeveralPeers run (start peers sessionId) :=
  eachState_iff (fun _ _ _ inv taken => Books.step inv taken) (fun _ _ _ inv settled taken => settled_step inv settled taken)
    (Books.start peers sessionId) nofun

/-- A node with a single peer asks nobody, and its own opinion, which is enough, resolves nothing. -/
theorem single_peer_unsettled : ¬ EachState step Settled
    [.begin_ (.startingWith 0) (fun _ => true) (ascii "issue") 0 (ascii "dead")]
    (start {0} ((∅ : Table Nat Str).insert 0 (ascii "zero"))) := by
  intro each
  let s := start {0} ((∅ : Table Nat Str).insert 0 (ascii "zero"))
  have fresh : ascii "issue" ∉ s.issues := Finmap.notMem_empty
  have taken : step s (.begin_ (.startingWith 0) (fun _ => true) (ascii "issue") 0 (ascii "dead")) =
      some (s.beginEvictProcess (.startingWith 0) (fun _ => true) (ascii "issue") 0 (ascii "dead")) := by
    change (if ascii "issue" ∈ s.issues then none else some _) = some _
    rw [if_neg fresh]
  have settled := eachState_head (each.2 _ taken)
  have several := (settled_step (Books.start _ _) (eachState_head each) taken).mp settled
  have one : 0 < 1 / 2 % 65536 := (several ⟨ascii "zero", Finmap.lookup_insert _, rfl⟩).1
  omega

end EvictionServer

end Vanity.Cluster
