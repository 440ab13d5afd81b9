import Vanity.PubSub.Publishing

/-!
# The order of messages

A thread takes all of the queue at once, so what it holds is a stretch of what was appended. But nothing
keeps two threads that hold such stretches from delivering the later one first.
-/

namespace Vanity.Publish

open Db (Str)
open Request (insertSubscription eraseSubscription ascii)

/-- The first elements of a sorted list are those that come before all others. -/
theorem isPrefix_iff_of_sorted {α : Type} [DecidableEq α] (f : α → ℕ) {first whole : List α} {others : Multiset α}
    (sorted : whole.Pairwise (f · < f ·)) (firstSorted : first.Pairwise (f · < f ·))
    (parts : (whole : Multiset α) = first + others) :
    first <+: whole ↔ ∀ a ∈ first, ∀ b ∈ others, f a < f b := by
  constructor
  · rintro ⟨last, rfl⟩ a early b late
    rw [← Multiset.coe_add] at parts
    rw [← add_left_cancel parts] at late
    exact (List.pairwise_append.mp sorted).2.2 a early b late
  · intro before
    have apart : ∀ b ∈ others, b ∉ first := fun b late early => lt_irrefl _ (before b early b late)
    let last := whole.filter (· ∉ first)
    have lastIs : (last : Multiset α) = others := by
      rw [← Multiset.filter_coe, parts, Multiset.filter_add, Multiset.filter_eq_nil.mpr, zero_add,
        Multiset.filter_eq_self.mpr apart]
      simp
    have merged : (first ++ last).Pairwise (f · < f ·) := by
      refine List.pairwise_append.mpr ⟨firstSorted, sorted.filter _, fun a early b late => ?_⟩
      refine before a early b ?_
      rw [← lastIs]
      exact late
    have permuted : (first ++ last).Perm whole := by
      rw [← Multiset.coe_eq_coe, ← Multiset.coe_add, lastIs, parts]
    have same : first ++ last = whole :=
      permuted.eq_of_pairwise (fun a b _ _ less greater => absurd less (lt_asymm greater)) merged sorted
    exact ⟨last, same⟩

def on (channel : Str) (publications : List Publication) : List Publication :=
  publications.filter fun publication => publication.channel = channel

theorem on_append (channel : Str) (first second : List Publication) :
    on channel (first ++ second) = on channel first ++ on channel second :=
  List.filter_append ..

/-- What of the channel was appended without being delivered yet. -/
theorem waiting_on {appended delivered : List Publication} {later : Multiset Publication} (channel : Str)
    (distinct : appended.Nodup) (parts : (appended : Multiset Publication) = delivered + later) :
    (((on channel appended).filter (· ∉ delivered) : List Publication) : Multiset Publication) =
      later.filter fun publication => publication.channel = channel := by
  have apart : ∀ publication ∈ later, publication ∉ delivered := by
    rw [← Multiset.coe_nodup, parts, Multiset.nodup_add] at distinct
    intro publication late early
    exact Multiset.disjoint_left.mp distinct.2.2 early late
  unfold on
  rw [← Multiset.filter_coe, ← Multiset.filter_coe, parts, Multiset.filter_add, Multiset.filter_add,
    Multiset.filter_eq_nil.mpr, zero_add, Multiset.filter_eq_self.mpr]
  · intro publication member
    exact apart publication (Multiset.mem_of_mem_filter member)
  · intro publication member
    exact not_not_intro (Multiset.mem_of_mem_filter member)

variable {T C : Type} [DecidableEq C] [DecidableEq T] {since s t : State T C} {client : C} {channel : Str}

def Subscribes (client : C) (channel : Str) (s : State T C) : Prop := client ∈ s.subscribers channel

instance (client : C) (channel : Str) : DecidablePred (Subscribes (T := T) client channel) :=
  fun s => inferInstanceAs (Decidable (client ∈ s.subscribers channel))

/-- What the client has got on the channel since then are the first of the messages that were appended and
not delivered before, in the order in which they were appended. -/
def InOrder (since : State T C) (client : C) (channel : Str) (s : State T C) : Prop :=
  ∃ news, s.sent client = since.sent client ++ news ∧
    on channel news <+: (on channel s.appended).filter (· ∉ since.delivered)

/-- No thread delivers a message of the channel as long as another thread holds an earlier one. -/
def NotOvertaking (channel : Str) (s : State T C) : Action T C → Prop
  | .deliver thread =>
    ∀ other, other ≠ thread → ∀ late ∈ on channel (s.threads thread).batch,
      ∀ early ∈ on channel (s.threads other).batch, ¬early.serial < late.serial
  | _ => True

instance [Fintype T] (channel : Str) (s : State T C) (action : Action T C) :
    Decidable (NotOvertaking channel s action) :=
  match action with
  | .deliver thread =>
    inferInstanceAs (Decidable (∀ other, other ≠ thread → ∀ late ∈ on channel (s.threads thread).batch,
      ∀ early ∈ on channel (s.threads other).batch, ¬early.serial < late.serial))
  | .append .. | .push _ | .arrive _ | .take _ | .finish _ | .swap _ | .subscribe .. | .unsubscribe .. =>
    .isTrue trivial

/-! ### What threads hold -/

def Cut (s : State T C) : Prop :=
  ∃ taken, s.appended = taken ++ s.queue ∧ ∀ thread, (s.threads thread).batch.Sublist taken

omit [DecidableEq C] in
theorem batch_become {threads : T → Thread} {thread : T} {now : Thread} {taken : List Publication}
    (known : ∀ other, (threads other).batch.Sublist taken) (fits : now.batch.Sublist taken) (other : T) :
    (Function.update threads thread now other).batch.Sublist taken := by
  by_cases same : other = thread
  · subst same
    rwa [Function.update_self]
  · rw [Function.update_of_ne same]
    exact known other

theorem step_cut (action : Action T C) (cut : Cut s) (done : step s action = some t) : Cut t := by
  obtain ⟨taken, appended, known⟩ := cut
  cases action with
  | append publisher channel message =>
    obtain ⟨_, rfl⟩ := step_append done
    exact ⟨taken, by simp [appended], known⟩
  | push publisher =>
    obtain ⟨_, rfl⟩ := step_push done
    exact ⟨taken, appended, known⟩
  | arrive event =>
    obtain rfl := step_arrive done
    exact ⟨taken, appended, known⟩
  | take thread =>
    obtain ⟨event, events, _, _, rfl⟩ := step_take done
    exact ⟨taken, appended, batch_become known (by simp)⟩
  | finish thread =>
    obtain ⟨_, rfl⟩ := step_finish done
    exact ⟨taken, appended, batch_become known (by simp [Thread.batch])⟩
  | swap thread =>
    obtain ⟨_, ⟨_, rfl⟩ | ⟨_, rfl⟩⟩ := step_swap done
    · exact ⟨taken, appended, batch_become known (by simp [Thread.batch])⟩
    · refine ⟨taken ++ s.queue, by simpa [State.become] using appended, batch_become (fun other => ?_) ?_⟩
      · exact (known other).trans (List.sublist_append_left ..)
      · exact List.sublist_append_right ..
  | deliver thread =>
    obtain ⟨batch, _, rfl⟩ := step_deliver done
    exact ⟨taken, appended, batch_become known (by simp [Thread.batch])⟩
  | subscribe client channel =>
    cases done
    exact ⟨taken, appended, known⟩
  | unsubscribe client channels =>
    cases done
    exact ⟨taken, appended, known⟩

theorem step_appended (action : Action T C) (taken : step s action = some t) : s.appended <+: t.appended := by
  cases action with
  | append publisher channel message =>
    obtain ⟨_, rfl⟩ := step_append taken
    exact List.prefix_append ..
  | push publisher =>
    obtain ⟨_, rfl⟩ := step_push taken
    exact List.prefix_rfl
  | arrive event =>
    obtain rfl := step_arrive taken
    exact List.prefix_rfl
  | take thread =>
    obtain ⟨event, events, _, _, rfl⟩ := step_take taken
    exact List.prefix_rfl
  | finish thread =>
    obtain ⟨_, rfl⟩ := step_finish taken
    exact List.prefix_rfl
  | swap thread =>
    obtain ⟨_, ⟨_, rfl⟩ | ⟨_, rfl⟩⟩ := step_swap taken
    · exact List.prefix_rfl
    · exact List.prefix_rfl
  | deliver thread =>
    obtain ⟨batch, _, rfl⟩ := step_deliver taken
    exact List.prefix_rfl
  | subscribe client channel =>
    cases taken
    exact List.prefix_rfl
  | unsubscribe client channels =>
    cases taken
    exact List.prefix_rfl

/-! ### Steps -/

omit [DecidableEq T] in
theorem on_subscribed (subscribed : Subscribes client channel s) (batch : List Publication) :
    on channel (batch.filter fun publication => client ∈ s.subscribers publication.channel) = on channel batch := by
  unfold on
  rw [List.filter_filter]
  apply List.filter_congr
  intro publication _
  by_cases same : publication.channel = channel
  · have subscribed : client ∈ s.subscribers channel := subscribed
    simp [same, subscribed]
  · simp [same]

section
variable [Fintype T]

/-- The client was subscribed to the channel since then. -/
structure Watched (since : State T C) (client : C) (channel : Str) (s : State T C) : Prop where
  inv : Inv s
  cut : Cut s
  news : ∃ news fresh, s.sent client = since.sent client ++ news ∧ s.delivered = since.delivered ++ fresh ∧
    on channel news = on channel fresh

theorem step_watched (action : Action T C) (subscribed : Subscribes client channel s)
    (watched : Watched since client channel s) (taken : step s action = some t) : Watched since client channel t := by
  refine ⟨step_inv action watched.inv taken, step_cut action watched.cut taken, ?_⟩
  obtain ⟨news, fresh, sent, delivered, same⟩ := watched.news
  have delivers := step_delivers s action t taken
  cases action with
  | deliver thread =>
    obtain ⟨allDelivered, allSent⟩ := delivers
    refine ⟨news ++ (s.threads thread).batch.filter fun publication => client ∈ s.subscribers publication.channel,
      fresh ++ (s.threads thread).batch, ?_, ?_, ?_⟩
    · rw [allSent, sent, List.append_assoc]
    · rw [allDelivered, delivered, List.append_assoc]
    · rw [on_append, on_append, on_subscribed subscribed, same]
  | _ =>
    obtain ⟨sameDelivered, sameSent⟩ := delivers
    exact ⟨news, fresh, by rw [sameSent, sent], by rw [sameDelivered, delivered], same⟩

omit [DecidableEq C] [DecidableEq T] in
theorem Inv.sorted (inv : Inv s) : s.appended.Pairwise (·.serial < ·.serial) := by
  have sorted : (s.appended.map (·.serial)).Pairwise (· < ·) := by
    rw [inv.numbered]
    exact List.pairwise_lt_range
  exact List.pairwise_map.mp sorted

omit [DecidableEq C] [DecidableEq T] in
/-- Of the channel, the threads and the queue hold what has not been sent. -/
theorem Watched.left (watched : Watched since client channel s) {news rest : List Publication}
    (sent : s.sent client = since.sent client ++ news)
    (waiting : (on channel s.appended).filter (· ∉ since.delivered) = on channel news ++ rest) :
    (rest : Multiset Publication) = (s.held + s.queue).filter fun publication => publication.channel = channel := by
  obtain ⟨same, fresh, sent', delivered, agree⟩ := watched.news
  obtain rfl : same = news := List.append_cancel_left (sent'.symm.trans sent)
  have parts : (s.appended : Multiset Publication) = since.delivered + (fresh + (s.held + s.queue)) := by
    rw [← watched.inv.conserved, delivered, ← Multiset.coe_add]
    abel
  have counted := waiting_on channel watched.inv.accounted.distinct parts
  rw [waiting, ← Multiset.coe_add, Multiset.filter_add, agree] at counted
  exact add_left_cancel counted

omit [DecidableEq C] in
theorem others_held (s : State T C) (thread : T) {publication : Publication} :
    publication ∈ (s.become thread .idle).held ↔ ∃ other, other ≠ thread ∧ publication ∈ (s.threads other).batch := by
  unfold State.held
  rw [Multiset.mem_sum]
  constructor
  · rintro ⟨other, _, member⟩
    by_cases same : other = thread
    · subst same
      rw [become_same] at member
      cases member
    · rw [become_other s _ same] at member
      exact ⟨other, same, member⟩
  · rintro ⟨other, different, member⟩
    refine ⟨other, Finset.mem_univ other, ?_⟩
    rw [become_other s _ different]
    exact member

theorem serial_ne_of_parts {whole first : List Publication} {others : Multiset Publication}
    (sorted : whole.Pairwise (·.serial < ·.serial)) (parts : (whole : Multiset Publication) = first + others)
    {a b : Publication} (early : a ∈ first) (late : b ∈ others) : a.serial ≠ b.serial := by
  have distinct : (whole.map (·.serial)).Nodup := (List.pairwise_map.mpr sorted).imp fun less => Nat.ne_of_lt less
  rw [← Multiset.coe_nodup, ← Multiset.map_coe, parts, Multiset.map_add, Multiset.nodup_add] at distinct
  intro same
  refine Multiset.disjoint_left.mp distinct.2.2 (Multiset.mem_map_of_mem Publication.serial early) ?_
  rw [same]
  exact Multiset.mem_map_of_mem Publication.serial late

omit [DecidableEq C] in
/-- A batch begins what is left of the channel exactly when nobody else holds something earlier. -/
theorem batch_isPrefix_iff (inv : Inv s) (cut : Cut s) {thread : T} {rest : List Publication}
    (sorted : rest.Pairwise (·.serial < ·.serial))
    (left : (rest : Multiset Publication) = (s.held + s.queue).filter fun publication => publication.channel = channel) :
    on channel (s.threads thread).batch <+: rest ↔ NotOvertaking channel s (.deliver thread) := by
  obtain ⟨taken, appended, known⟩ := cut
  have whole := inv.sorted
  rw [appended] at whole
  have parts : (rest : Multiset Publication) = on channel (s.threads thread).batch +
      ((s.become thread .idle).held + s.queue).filter fun publication => publication.channel = channel := by
    have held := held_become s thread .idle
    have silent : Thread.idle.batch = [] := rfl
    rw [silent, Multiset.coe_nil, add_zero] at held
    rw [left, ← held, on, ← Multiset.filter_coe, ← Multiset.filter_add]
    congr 1
    abel
  have batchSorted : (on channel (s.threads thread).batch).Pairwise (·.serial < ·.serial) :=
    (whole.sublist ((known thread).trans (List.sublist_append_left ..))).filter _
  rw [isPrefix_iff_of_sorted (·.serial) sorted batchSorted parts]
  constructor
  · intro before other different late isLate early isEarly
    have isEarly := List.mem_filter.mp isEarly
    apply Nat.lt_asymm
    apply before late isLate early
    rw [Multiset.mem_filter, Multiset.mem_add]
    exact ⟨.inl ((others_held s thread).mpr ⟨other, different, isEarly.1⟩), by simpa using isEarly.2⟩
  · intro alone a first b other
    have fromBatch := (List.mem_filter.mp first).1
    obtain ⟨place, onChannel⟩ := Multiset.mem_filter.mp other
    rcases Multiset.mem_add.mp place with held | queued
    · obtain ⟨holder, different, holds⟩ := (others_held s thread).mp held
      have notEarlier := alone holder different a first b (List.mem_filter.mpr ⟨holds, by simpa using onChannel⟩)
      have apart := serial_ne_of_parts sorted parts first other
      omega
    · exact (List.pairwise_append.mp whole).2.2 a ((known thread).subset fromBatch) b queued

theorem step_inOrder (action : Action T C) (subscribed : Subscribes client channel s)
    (watched : Watched since client channel s) (inOrder : InOrder since client channel s)
    (taken : step s action = some t) : InOrder since client channel t ↔ NotOvertaking channel s action := by
  obtain ⟨news, sent, rest, waiting⟩ := inOrder
  have delivers := step_delivers s action t taken
  cases action with
  | deliver thread =>
    have sorted : rest.Pairwise (·.serial < ·.serial) := by
      have all : ((on channel s.appended).filter (· ∉ since.delivered)).Pairwise (·.serial < ·.serial) :=
        (watched.inv.sorted.filter _).filter _
      rw [← waiting] at all
      exact (List.pairwise_append.mp all).2.1
    rw [← batch_isPrefix_iff watched.inv watched.cut sorted (watched.left sent waiting.symm)]
    obtain ⟨_, allSent⟩ := delivers
    obtain ⟨batch, _, rfl⟩ := step_deliver taken
    have received := allSent client
    rw [sent, List.append_assoc] at received
    have same : on channel (news ++ (s.threads thread).batch.filter fun publication =>
        client ∈ s.subscribers publication.channel) = on channel news ++ on channel (s.threads thread).batch := by
      rw [on_append, on_subscribed subscribed]
    rw [← List.prefix_append_right_inj (on channel news), waiting, ← same]
    constructor
    · rintro ⟨other, sent', ordered⟩
      rw [List.append_cancel_left (sent'.symm.trans received)] at ordered
      exact ordered
    · intro ordered
      exact ⟨_, received, ordered⟩
  | _ =>
    refine iff_of_true ⟨news, ?_, ?_⟩ trivial
    · rw [delivers.2, sent]
    · exact List.IsPrefix.trans ⟨rest, waiting⟩ (((step_appended _ taken).filter _).filter _)

end

/-- One after the other a client publishes two messages, which two threads take; the second thread is faster. -/
def overtaking : List (Action (Fin 4) Nat) :=
  [.append 0 (ascii "news") (ascii "first"), .push 0, .take 0, .swap 0,
    .append 0 (ascii "news") (ascii "second"), .push 0, .take 1, .swap 1, .deliver 1, .deliver 0]

end Vanity.Publish
