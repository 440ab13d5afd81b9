import Vanity.Library.Fairness
import Vanity.Library.Runs
import Vanity.Request.Handlers
import Mathlib.Algebra.BigOperators.Group.Finset.Basic
import Mathlib.Algebra.Order.Group.Multiset
import Mathlib.Data.Prod.Lex
import Mathlib.Tactic.Abel

/-!
# Publishing

A publisher appends its message to the queue and then pushes an event. A thread that takes such an event
takes all of the queue, and delivers later what it has taken. Any number of publishers and threads go on at
the same time, and the server handles other events in between.
-/

namespace Vanity.Publish

open Db (Str)
open Request (insertSubscription eraseSubscription ascii)

/-- `PublishData`, with the number of its message: the server does not know it. -/
structure Publication where
  serial : Nat
  channel : Str
  message : Str
  deriving DecidableEq

/-- `server_event`, of a server that goes on. -/
inductive ServerEvent where
  | epollReady
  | persist
  | expire
  | publish
  | pulse
  deriving DecidableEq

/-- A thread of the event loop: it waits, it is in the handler of another event, or it is in
`event_publish`, before or after it has taken the queue. -/
inductive Thread where
  | idle
  | busy
  | handling
  | delivering (batch : List Publication)
  deriving DecidableEq

def Thread.batch : Thread → List Publication
  | .delivering batch => batch
  | _ => []

/-- The switch of `event_loop`. -/
def Thread.handle : ServerEvent → Thread
  | .publish => .handling
  | _ => .busy

variable {T C : Type}

structure State (T C : Type) where
  queue : List Publication
  events : List ServerEvent
  /-- Those who have appended a message and not yet pushed their event. -/
  publishers : Finset Nat
  threads : T → Thread
  subscriptions : Table Str (Finset C)
  /-- The messages sent to each client. -/
  sent : C → List Publication
  appended : List Publication
  delivered : List Publication

inductive Action (T C : Type) where
  | append (publisher : Nat) (channel message : Str)
  | push (publisher : Nat)
  | arrive (event : ServerEvent)
  | take (thread : T)
  | finish (thread : T)
  | swap (thread : T)
  | deliver (thread : T)
  | subscribe (client : C) (channel : Str)
  | unsubscribe (client : C) (channels : List Str)

def State.subscribers (s : State T C) (channel : Str) : Finset C := (s.subscriptions.lookup channel).getD ∅

section
variable [DecidableEq T]

def State.become (s : State T C) (thread : T) (now : Thread) : State T C :=
  { s with threads := Function.update s.threads thread now }

@[simp] theorem become_same (s : State T C) (thread : T) (now : Thread) : (s.become thread now).threads thread = now :=
  Function.update_self ..

@[simp] theorem become_other (s : State T C) {thread other : T} (now : Thread) (different : other ≠ thread) :
    (s.become thread now).threads other = s.threads other :=
  Function.update_of_ne different ..

variable [Fintype T]

/-- What threads have taken and not yet delivered. -/
def State.held (s : State T C) : Multiset Publication := ∑ thread, ((s.threads thread).batch : Multiset Publication)

theorem held_become (s : State T C) (thread : T) (now : Thread) :
    (s.become thread now).held + ((s.threads thread).batch : Multiset Publication) = s.held + now.batch := by
  unfold State.held
  rw [← Finset.add_sum_erase _ _ (Finset.mem_univ thread), become_same,
    ← Finset.add_sum_erase (Finset.univ) (fun thread => ((s.threads thread).batch : Multiset Publication))
      (Finset.mem_univ thread)]
  have rest : ∀ other ∈ Finset.univ.erase thread,
      (((s.become thread now).threads other).batch : Multiset Publication) = (s.threads other).batch := by
    intro other member
    rw [become_other s now (Finset.ne_of_mem_erase member)]
  rw [Finset.sum_congr rfl rest]
  abel

theorem held_become_silent {s : State T C} {thread : T} {now : Thread} (before : (s.threads thread).batch = [])
    (after : now.batch = []) : (s.become thread now).held = s.held := by
  have moved := held_become s thread now
  rwa [before, after, Multiset.coe_nil, add_zero, add_zero] at moved

end

variable [DecidableEq C]

/-- `publish`. -/
def State.publish (s : State T C) (publication : Publication) : State T C :=
  { s with
    sent := fun client =>
      if client ∈ s.subscribers publication.channel then s.sent client ++ [publication] else s.sent client
    delivered := s.delivered ++ [publication] }

theorem publish_all (batch : List Publication) (s : State T C) :
    batch.foldl State.publish s =
      { s with
        sent := fun client => s.sent client ++ batch.filter fun publication => client ∈ s.subscribers publication.channel
        delivered := s.delivered ++ batch } := by
  induction batch generalizing s with
  | nil => simp
  | cons publication rest ih =>
    rw [List.foldl_cons, ih]
    have same : (s.publish publication).subscribers = s.subscribers := rfl
    rw [same]
    simp only [State.publish, List.append_assoc, List.singleton_append, List.filter_cons]
    congr 1
    funext client
    by_cases subscribed : client ∈ s.subscribers publication.channel
    · simp [subscribed]
    · simp [subscribed]

variable [DecidableEq T]

def step (s : State T C) : Action T C → Option (State T C)
  | .append publisher channel message =>
    if publisher ∈ s.publishers then none
    else
      let publication := ⟨s.appended.length, channel, message⟩
      some { s with
        queue := s.queue ++ [publication]
        publishers := insert publisher s.publishers
        appended := s.appended ++ [publication] }
  | .push publisher =>
    if publisher ∈ s.publishers then
      some { s with events := s.events ++ [.publish], publishers := s.publishers.erase publisher }
    else none
  | .arrive event => if event = .publish then none else some { s with events := s.events ++ [event] }
  | .take thread =>
    match s.threads thread, s.events with
    | .idle, event :: events =>
      some ({ s with events }.become thread (.handle event))
    | _, _ => none
  | .finish thread =>
    match s.threads thread with
    | .busy => some (s.become thread .idle)
    | _ => none
  | .swap thread =>
    match s.threads thread with
    | .handling =>
      if s.queue = [] then some (s.become thread .idle)
      else some ({ s with queue := [] }.become thread (.delivering s.queue))
    | _ => none
  | .deliver thread =>
    match s.threads thread with
    | .delivering batch => some (batch.foldl State.publish (s.become thread .idle))
    | _ => none
  | .subscribe client channel => some { s with subscriptions := insertSubscription client s.subscriptions channel }
  | .unsubscribe client channels =>
    some { s with subscriptions := channels.foldl (eraseSubscription client) s.subscriptions }

def start (subscriptions : Table Str (Finset C)) : State T C where
  queue := []
  events := []
  publishers := ∅
  threads _ := .idle
  subscriptions
  sent _ := []
  appended := []
  delivered := []

/-- Who is bound to take the action sooner or later: the second half of a publisher, and the threads. -/
def actor : Action T C → Option (Nat ⊕ T)
  | .push publisher => some (.inl publisher)
  | .take thread => some (.inr thread)
  | .finish thread => some (.inr thread)
  | .swap thread => some (.inr thread)
  | .deliver thread => some (.inr thread)
  | _ => none

/-- No event to publish is queued or handled, and no publisher is between its two steps. -/
def Quiet (s : State T C) : Prop :=
  s.publishers = ∅ ∧ .publish ∉ s.events ∧
    ∀ thread, s.threads thread ≠ .handling ∧ ∀ batch, s.threads thread ≠ .delivering batch

/-! ### What a step does -/

variable {s t : State T C}

theorem step_append {publisher : Nat} {channel message : Str} (taken : step s (.append publisher channel message) = some t) :
    publisher ∉ s.publishers ∧
      t = { s with
        queue := s.queue ++ [⟨s.appended.length, channel, message⟩]
        publishers := insert publisher s.publishers
        appended := s.appended ++ [⟨s.appended.length, channel, message⟩] } := by
  simp only [step] at taken
  split at taken
  · cases taken
  · rename_i free
    exact ⟨free, (Option.some.inj taken).symm⟩

def Publication.data (publication : Publication) : Str × Str := (publication.channel, publication.message)

/-- The first step of a publisher is that of `request_publish`. -/
theorem append_queue {publisher : Nat} {channel message : Str} (taken : step s (.append publisher channel message) = some t)
    (world : Request.World) {server : Request.Server} (same : server.publishQueue = s.queue.map Publication.data) :
    t.queue.map Publication.data = (Request.requestPublish channel message world server).2.publishQueue := by
  obtain ⟨_, rfl⟩ := step_append taken
  show (s.queue ++ [_]).map Publication.data = server.publishQueue ++ [(channel, message)]
  rw [List.map_append, same]
  rfl

theorem step_push {publisher : Nat} (taken : step s (.push publisher) = some t) :
    publisher ∈ s.publishers ∧
      t = { s with events := s.events ++ [.publish], publishers := s.publishers.erase publisher } := by
  simp only [step] at taken
  split at taken
  · rename_i half
    exact ⟨half, (Option.some.inj taken).symm⟩
  · cases taken

theorem step_arrive {event : ServerEvent} (taken : step s (.arrive event) = some t) :
    t = { s with events := s.events ++ [event] } := by
  simp only [step] at taken
  split at taken
  · cases taken
  · exact (Option.some.inj taken).symm

theorem step_take {thread : T} (taken : step s (.take thread) = some t) :
    ∃ (event : ServerEvent) (events : List ServerEvent), s.threads thread = .idle ∧ s.events = event :: events ∧
      t = { s with events }.become thread (.handle event) := by
  simp only [step] at taken
  split at taken
  · rename_i event events idle queued
    exact ⟨event, events, idle, queued, (Option.some.inj taken).symm⟩
  · cases taken

theorem step_finish {thread : T} (taken : step s (.finish thread) = some t) :
    s.threads thread = .busy ∧ t = s.become thread .idle := by
  simp only [step] at taken
  split at taken
  · rename_i busy
    exact ⟨busy, (Option.some.inj taken).symm⟩
  · cases taken

theorem step_swap {thread : T} (taken : step s (.swap thread) = some t) :
    s.threads thread = .handling ∧
      ((s.queue = [] ∧ t = s.become thread .idle) ∨
        (s.queue ≠ [] ∧ t = { s with queue := [] }.become thread (.delivering s.queue))) := by
  simp only [step] at taken
  split at taken
  · rename_i handling
    refine ⟨handling, ?_⟩
    split at taken
    · rename_i empty
      exact .inl ⟨empty, (Option.some.inj taken).symm⟩
    · rename_i waiting
      exact .inr ⟨waiting, (Option.some.inj taken).symm⟩
  · cases taken

theorem step_deliver {thread : T} (taken : step s (.deliver thread) = some t) :
    ∃ batch, s.threads thread = .delivering batch ∧
      t = { s.become thread .idle with
        sent := fun client => s.sent client ++ batch.filter fun publication => client ∈ s.subscribers publication.channel
        delivered := s.delivered ++ batch } := by
  simp only [step] at taken
  split at taken
  · rename_i batch delivering
    rw [publish_all] at taken
    exact ⟨batch, delivering, (Option.some.inj taken).symm⟩
  · cases taken

@[simp] theorem handle_batch (event : ServerEvent) : (Thread.handle event).batch = [] := by
  cases event <;> rfl

/-! ### Nothing is lost -/

section
variable [Fintype T]

structure Inv (s : State T C) : Prop where
  numbered : s.appended.map (·.serial) = List.range s.appended.length
  conserved : (s.delivered : Multiset Publication) + s.held + s.queue = s.appended
  /-- What is in the queue has an event that comes for it. -/
  covered : s.queue ≠ [] → s.publishers.Nonempty ∨ .publish ∈ s.events ∨ ∃ thread, s.threads thread = .handling

omit [DecidableEq C] in
theorem Inv.become {s : State T C} {thread : T} {now : Thread} (inv : Inv s)
    (before : (s.threads thread).batch = []) (after : now.batch = [])
    (covered : s.queue ≠ [] → s.publishers.Nonempty ∨ .publish ∈ s.events ∨ ∃ other, (s.become thread now).threads other = .handling) :
    Inv (s.become thread now) where
  numbered := inv.numbered
  conserved := by
    rw [held_become_silent before after]
    exact inv.conserved
  covered := covered

theorem append_inv (inv : Inv s) {publisher : Nat} {channel message : Str}
    (taken : step s (.append publisher channel message) = some t) : Inv t := by
  obtain ⟨_, rfl⟩ := step_append taken
  refine ⟨?_, ?_, fun _ => .inl ⟨publisher, Finset.mem_insert_self ..⟩⟩
  · simp [inv.numbered, List.range_succ]
  · have conserved := inv.conserved
    simp only [← Multiset.coe_add]
    rw [← conserved, add_assoc (_ + _)]
    rfl

theorem push_inv (inv : Inv s) {publisher : Nat} (taken : step s (.push publisher) = some t) : Inv t := by
  obtain ⟨_, rfl⟩ := step_push taken
  exact ⟨inv.numbered, inv.conserved, fun _ => .inr (.inl (List.mem_append_right _ List.mem_cons_self))⟩

theorem arrive_inv (inv : Inv s) {event : ServerEvent} (taken : step s (.arrive event) = some t) : Inv t := by
  obtain rfl := step_arrive taken
  refine ⟨inv.numbered, inv.conserved, fun waiting => ?_⟩
  rcases inv.covered waiting with half | queued | handled
  · exact .inl half
  · exact .inr (.inl (List.mem_append_left _ queued))
  · exact .inr (.inr handled)

theorem take_inv (inv : Inv s) {thread : T} (taken : step s (.take thread) = some t) : Inv t := by
  obtain ⟨event, events, idle, queued, rfl⟩ := step_take taken
  have silent : (s.threads thread).batch = [] := by rw [idle]; rfl
  refine ⟨inv.numbered, ?_, fun waiting => ?_⟩
  · have held : ({ s with events }.become thread (.handle event)).held = { s with events }.held :=
      held_become_silent silent (handle_batch event)
    rw [held]
    exact inv.conserved
  · rcases inv.covered waiting with half | listed | ⟨other, handling⟩
    · exact .inl half
    · rw [queued, List.mem_cons] at listed
      rcases listed with rfl | later
      · exact .inr (.inr ⟨thread, become_same ..⟩)
      · exact .inr (.inl later)
    · have different : other ≠ thread := by
        rintro rfl
        rw [idle] at handling
        cases handling
      exact .inr (.inr ⟨other, (become_other _ _ different).trans handling⟩)

theorem finish_inv (inv : Inv s) {thread : T} (taken : step s (.finish thread) = some t) : Inv t := by
  obtain ⟨busy, rfl⟩ := step_finish taken
  refine inv.become (by rw [busy]; rfl) rfl fun waiting => ?_
  rcases inv.covered waiting with half | queued | ⟨other, handling⟩
  · exact .inl half
  · exact .inr (.inl queued)
  · have different : other ≠ thread := by
      rintro rfl
      rw [busy] at handling
      cases handling
    exact .inr (.inr ⟨other, (become_other _ _ different).trans handling⟩)

theorem swap_inv (inv : Inv s) {thread : T} (taken : step s (.swap thread) = some t) : Inv t := by
  obtain ⟨handling, ⟨empty, rfl⟩ | ⟨_, rfl⟩⟩ := step_swap taken
  · exact inv.become (by rw [handling]; rfl) rfl fun waiting => absurd empty waiting
  · refine ⟨inv.numbered, ?_, fun waiting => absurd rfl waiting⟩
    have held := held_become { s with queue := [] } thread (.delivering s.queue)
    have silent : (s.threads thread).batch = [] := by rw [handling]; rfl
    rw [silent, Multiset.coe_nil, add_zero] at held
    rw [held]
    show _ + (s.held + (s.queue : Multiset Publication)) + 0 = _
    rw [add_zero, ← add_assoc]
    exact inv.conserved

theorem deliver_inv (inv : Inv s) {thread : T} (taken : step s (.deliver thread) = some t) : Inv t := by
  obtain ⟨batch, delivering, rfl⟩ := step_deliver taken
  refine ⟨inv.numbered, ?_, fun waiting => ?_⟩
  · have held := held_become s thread .idle
    rw [delivering] at held
    have conserved := inv.conserved
    show ((s.delivered ++ batch : List Publication) : Multiset Publication) + (s.become thread .idle).held + s.queue =
      s.appended
    rw [← conserved, ← Multiset.coe_add]
    have moved : (batch : Multiset Publication) + (s.become thread .idle).held = s.held := by
      rw [add_comm]
      simpa [Thread.batch] using held
    rw [add_assoc (s.delivered : Multiset Publication), moved]
  · rcases inv.covered waiting with half | queued | ⟨other, handling⟩
    · exact .inl half
    · exact .inr (.inl queued)
    · have different : other ≠ thread := by
        rintro rfl
        rw [delivering] at handling
        cases handling
      exact .inr (.inr ⟨other, (become_other s _ different).trans handling⟩)

theorem step_inv (action : Action T C) (inv : Inv s) (taken : step s action = some t) : Inv t := by
  cases action with
  | append publisher channel message => exact append_inv inv taken
  | push publisher => exact push_inv inv taken
  | arrive event => exact arrive_inv inv taken
  | take thread => exact take_inv inv taken
  | finish thread => exact finish_inv inv taken
  | swap thread => exact swap_inv inv taken
  | deliver thread => exact deliver_inv inv taken
  | subscribe client channel =>
    cases taken
    exact ⟨inv.numbered, inv.conserved, inv.covered⟩
  | unsubscribe client channels =>
    cases taken
    exact ⟨inv.numbered, inv.conserved, inv.covered⟩

omit [DecidableEq C] [DecidableEq T] in
theorem start_inv (subscriptions : Table Str (Finset C)) : Inv (start subscriptions : State T C) where
  numbered := rfl
  conserved := by simp [start, State.held, Thread.batch]
  covered waiting := absurd rfl waiting

/-- No message is lost and none is there twice. -/
structure Accounted (s : State T C) : Prop where
  distinct : s.appended.Nodup
  conserved : (s.delivered : Multiset Publication) + s.held + s.queue = s.appended
  quiet : Quiet s → s.queue = [] ∧ s.held = 0 ∧ s.delivered.Perm s.appended

omit [DecidableEq C] [DecidableEq T] in
theorem Inv.accounted (inv : Inv s) : Accounted s where
  distinct := by
    apply List.Nodup.of_map (·.serial)
    rw [inv.numbered]
    exact List.nodup_range
  conserved := inv.conserved
  quiet := by
    rintro ⟨none, unqueued, threads⟩
    have empty : s.queue = [] := by
      by_contra waiting
      rcases inv.covered waiting with half | queued | ⟨thread, handling⟩
      · exact half.ne_empty none
      · exact unqueued queued
      · exact (threads thread).1 handling
    have unheld : s.held = 0 := by
      apply Finset.sum_eq_zero
      intro thread _
      cases now : s.threads thread with
      | delivering batch => exact absurd now ((threads thread).2 batch)
      | idle => rfl
      | busy => rfl
      | handling => rfl
    refine ⟨empty, unheld, ?_⟩
    have conserved := inv.conserved
    rw [empty, unheld, Multiset.coe_nil, add_zero, add_zero] at conserved
    exact Multiset.coe_eq_coe.mp conserved

end

/-- A message goes to those who are subscribed to its channel when it is delivered, and only then. -/
def Delivers (s : State T C) (action : Action T C) : Prop :=
  ∀ t, step s action = some t →
    match action with
    | .deliver thread =>
      t.delivered = s.delivered ++ (s.threads thread).batch ∧
        ∀ client, t.sent client =
          s.sent client ++ (s.threads thread).batch.filter fun publication => client ∈ s.subscribers publication.channel
    | _ => t.delivered = s.delivered ∧ t.sent = s.sent

theorem step_delivers (s : State T C) (action : Action T C) : Delivers s action := by
  intro t taken
  cases action with
  | append publisher channel message =>
    obtain ⟨_, rfl⟩ := step_append taken
    exact ⟨rfl, rfl⟩
  | push publisher =>
    obtain ⟨_, rfl⟩ := step_push taken
    exact ⟨rfl, rfl⟩
  | arrive event =>
    obtain rfl := step_arrive taken
    exact ⟨rfl, rfl⟩
  | take thread =>
    obtain ⟨_, _, _, _, rfl⟩ := step_take taken
    exact ⟨rfl, rfl⟩
  | finish thread =>
    obtain ⟨_, rfl⟩ := step_finish taken
    exact ⟨rfl, rfl⟩
  | swap thread =>
    obtain ⟨_, ⟨_, rfl⟩ | ⟨_, rfl⟩⟩ := step_swap taken
    · exact ⟨rfl, rfl⟩
    · exact ⟨rfl, rfl⟩
  | deliver thread =>
    obtain ⟨batch, delivering, rfl⟩ := step_deliver taken
    dsimp only
    rw [delivering]
    exact ⟨rfl, fun _ => rfl⟩
  | subscribe client channel =>
    cases taken
    exact ⟨rfl, rfl⟩
  | unsubscribe client channels =>
    cases taken
    exact ⟨rfl, rfl⟩

/-! ### Everything is delivered -/

/-- How far a message is from being delivered: its publisher has to push, the event has to be taken, the
queue to be taken, or the batch to be delivered. Of the threads `first` is one that comes back to the
events; `turns` is how often it acts before that. -/
inductive Phase (T : Type) where
  | appended (publisher : Nat)
  | queued (position turns : Nat)
  | handled (thread : T)
  | held (thread : T)

def Thread.turns : Thread → Nat
  | .idle => 0
  | .busy => 1
  | .handling => 2
  | .delivering _ => 1

def Phase.stage : Phase T → ℕ
  | .appended _ => 3
  | .queued _ _ => 2
  | .handled _ => 1
  | .held _ => 0

def Phase.rank (phase : Phase T) : ℕ ×ₗ ℕ ×ₗ ℕ :=
  match phase with
  | .queued position turns => toLex (phase.stage, toLex (position, turns))
  | _ => toLex (phase.stage, toLex (0, 0))

def Phase.helper (first : T) : Phase T → Nat ⊕ T
  | .appended publisher => .inl publisher
  | .queued _ _ => .inr first
  | .handled thread => .inr thread
  | .held thread => .inr thread

def Phase.Is (first : T) (publication : Publication) (s : State T C) : Phase T → Prop
  | .appended publisher => publication ∈ s.queue ∧ publisher ∈ s.publishers
  | .queued position turns =>
    publication ∈ s.queue ∧ s.events[position]? = some ServerEvent.publish ∧ (s.threads first).turns = turns
  | .handled thread => publication ∈ s.queue ∧ s.threads thread = .handling
  | .held thread => publication ∈ (s.threads thread).batch

section
variable {first thread : T} {publication : Publication} {action : Action T C} {publisher : Nat}

omit [DecidableEq C] [DecidableEq T] in
theorem actor_thread (acts : actor action = some (.inr thread)) :
    action = .take thread ∨ action = .finish thread ∨ action = .swap thread ∨ action = .deliver thread := by
  cases action <;> simp_all [actor]

theorem step_frame (acts : actor action ≠ some (.inr thread)) (taken : step s action = some t) :
    t.threads thread = s.threads thread := by
  have other : ∀ {acting : T}, actor action = some (.inr acting) → thread ≠ acting := by
    rintro acting is rfl
    exact acts is
  cases action with
  | append publisher channel message =>
    obtain ⟨_, rfl⟩ := step_append taken
    rfl
  | push publisher =>
    obtain ⟨_, rfl⟩ := step_push taken
    rfl
  | arrive event =>
    obtain rfl := step_arrive taken
    rfl
  | take acting =>
    obtain ⟨event, events, _, _, rfl⟩ := step_take taken
    exact become_other _ _ (other rfl)
  | finish acting =>
    obtain ⟨_, rfl⟩ := step_finish taken
    exact become_other _ _ (other rfl)
  | swap acting =>
    obtain ⟨_, ⟨_, rfl⟩ | ⟨_, rfl⟩⟩ := step_swap taken
    · exact become_other _ _ (other rfl)
    · exact become_other _ _ (other rfl)
  | deliver acting =>
    obtain ⟨batch, _, rfl⟩ := step_deliver taken
    exact become_other s _ (other rfl)
  | subscribe client channel =>
    cases taken
    rfl
  | unsubscribe client channels =>
    cases taken
    rfl

theorem step_queue (waiting : publication ∈ s.queue) (taken : step s action = some t) :
    (∃ thread, action = .swap thread ∧ publication ∈ (t.threads thread).batch) ∨
      ((∀ thread, action ≠ .swap thread) ∧ publication ∈ t.queue) := by
  cases action with
  | append publisher channel message =>
    obtain ⟨_, rfl⟩ := step_append taken
    exact .inr ⟨by simp, List.mem_append_left _ waiting⟩
  | push publisher =>
    obtain ⟨_, rfl⟩ := step_push taken
    exact .inr ⟨by simp, waiting⟩
  | arrive event =>
    obtain rfl := step_arrive taken
    exact .inr ⟨by simp, waiting⟩
  | take acting =>
    obtain ⟨event, events, _, _, rfl⟩ := step_take taken
    exact .inr ⟨by simp, waiting⟩
  | finish acting =>
    obtain ⟨_, rfl⟩ := step_finish taken
    exact .inr ⟨by simp, waiting⟩
  | swap acting =>
    obtain ⟨_, ⟨empty, _⟩ | ⟨_, rfl⟩⟩ := step_swap taken
    · rw [empty] at waiting
      cases waiting
    · refine .inl ⟨acting, rfl, ?_⟩
      rw [become_same]
      exact waiting
  | deliver acting =>
    obtain ⟨batch, _, rfl⟩ := step_deliver taken
    exact .inr ⟨by simp, waiting⟩
  | subscribe client channel =>
    cases taken
    exact .inr ⟨by simp, waiting⟩
  | unsubscribe client channels =>
    cases taken
    exact .inr ⟨by simp, waiting⟩

theorem step_events (taken : step s action = some t) :
    (∃ more, t.events = s.events ++ more ∧ ∀ thread, action ≠ .take thread) ∨
      ∃ thread event, action = .take thread ∧ s.events = event :: t.events ∧ t.threads thread = .handle event := by
  cases action with
  | append publisher channel message =>
    obtain ⟨_, rfl⟩ := step_append taken
    exact .inl ⟨[], by simp⟩
  | push publisher =>
    obtain ⟨_, rfl⟩ := step_push taken
    exact .inl ⟨[.publish], by simp⟩
  | arrive event =>
    obtain rfl := step_arrive taken
    exact .inl ⟨[event], by simp⟩
  | take acting =>
    obtain ⟨event, events, _, queued, rfl⟩ := step_take taken
    exact .inr ⟨acting, event, rfl, queued, become_same ..⟩
  | finish acting =>
    obtain ⟨_, rfl⟩ := step_finish taken
    exact .inl ⟨[], by simp [State.become]⟩
  | swap acting =>
    obtain ⟨_, ⟨_, rfl⟩ | ⟨_, rfl⟩⟩ := step_swap taken
    · exact .inl ⟨[], by simp [State.become]⟩
    · exact .inl ⟨[], by simp [State.become]⟩
  | deliver acting =>
    obtain ⟨batch, _, rfl⟩ := step_deliver taken
    exact .inl ⟨[], by simp [State.become]⟩
  | subscribe client channel =>
    cases taken
    exact .inl ⟨[], by simp⟩
  | unsubscribe client channels =>
    cases taken
    exact .inl ⟨[], by simp⟩

theorem step_publishers (half : publisher ∈ s.publishers) (taken : step s action = some t) :
    (action = .push publisher ∧ t.events = s.events ++ [.publish]) ∨
      (actor action ≠ some (.inl publisher) ∧ publisher ∈ t.publishers) := by
  cases action with
  | append other channel message =>
    obtain ⟨_, rfl⟩ := step_append taken
    exact .inr ⟨by simp [actor], Finset.mem_insert_of_mem half⟩
  | push other =>
    obtain ⟨_, rfl⟩ := step_push taken
    by_cases same : publisher = other
    · subst same
      exact .inl ⟨rfl, rfl⟩
    · exact .inr ⟨by simpa [actor] using Ne.symm same, Finset.mem_erase.mpr ⟨same, half⟩⟩
  | arrive event =>
    obtain rfl := step_arrive taken
    exact .inr ⟨by simp [actor], half⟩
  | take acting =>
    obtain ⟨event, events, _, queued, rfl⟩ := step_take taken
    exact .inr ⟨by simp [actor], half⟩
  | finish acting =>
    obtain ⟨_, rfl⟩ := step_finish taken
    exact .inr ⟨by simp [actor], half⟩
  | swap acting =>
    obtain ⟨_, ⟨_, rfl⟩ | ⟨_, rfl⟩⟩ := step_swap taken
    · exact .inr ⟨by simp [actor], half⟩
    · exact .inr ⟨by simp [actor], half⟩
  | deliver acting =>
    obtain ⟨batch, _, rfl⟩ := step_deliver taken
    exact .inr ⟨by simp [actor], half⟩
  | subscribe client channel =>
    cases taken
    exact .inr ⟨by simp [actor], half⟩
  | unsubscribe client channels =>
    cases taken
    exact .inr ⟨by simp [actor], half⟩

theorem step_handling (handling : s.threads thread = .handling) (acts : actor action = some (.inr thread))
    (taken : step s action = some t) : action = .swap thread := by
  rcases actor_thread acts with rfl | rfl | rfl | rfl
  · obtain ⟨_, _, idle, _⟩ := step_take taken
    rw [handling] at idle
    cases idle
  · have busy := (step_finish taken).1
    rw [handling] at busy
    cases busy
  · rfl
  · obtain ⟨_, delivering, _⟩ := step_deliver taken
    rw [handling] at delivering
    cases delivering

theorem step_holding (held : publication ∈ (s.threads thread).batch) (acts : actor action = some (.inr thread))
    (taken : step s action = some t) : publication ∈ t.delivered := by
  rcases actor_thread acts with rfl | rfl | rfl | rfl
  · obtain ⟨_, _, idle, _⟩ := step_take taken
    rw [idle] at held
    cases held
  · rw [(step_finish taken).1] at held
    cases held
  · rw [(step_swap taken).1] at held
    cases held
  · obtain ⟨batch, delivering, rfl⟩ := step_deliver taken
    rw [delivering] at held
    exact List.mem_append_right _ held

theorem step_turns (acts : actor action = some (.inr thread)) (unswapped : ∀ other, action ≠ .swap other)
    (untaken : ∀ other, action ≠ .take other) (taken : step s action = some t) :
    (t.threads thread).turns < (s.threads thread).turns := by
  rcases actor_thread acts with rfl | rfl | rfl | rfl
  · exact absurd rfl (untaken thread)
  · obtain ⟨busy, rfl⟩ := step_finish taken
    rw [become_same, busy]
    decide
  · exact absurd rfl (unswapped thread)
  · obtain ⟨batch, delivering, rfl⟩ := step_deliver taken
    have idle : (s.become thread .idle).threads thread = .idle := become_same ..
    show ((s.become thread .idle).threads thread).turns < _
    rw [idle, delivering]
    exact Nat.zero_lt_one

theorem thread_enabled (work : s.threads thread = .idle → s.events ≠ []) : Enabled actor step (.inr thread) s := by
  cases now : s.threads thread with
  | idle =>
    obtain ⟨event, events, queued⟩ := List.exists_cons_of_ne_nil (work now)
    exact ⟨.take thread, { s with events }.become thread (.handle event), rfl, by simp [step, now, queued]⟩
  | busy => exact ⟨.finish thread, s.become thread .idle, rfl, by simp [step, now]⟩
  | handling =>
    by_cases empty : s.queue = []
    · exact ⟨.swap thread, s.become thread .idle, rfl, by simp [step, now, empty]⟩
    · exact ⟨.swap thread, { s with queue := [] }.become thread (.delivering s.queue), rfl, by simp [step, now, empty]⟩
  | delivering batch =>
    exact ⟨.deliver thread, batch.foldl State.publish (s.become thread .idle), rfl, by simp [step, now]⟩

theorem Phase.enabled (phase : Phase T) (is : phase.Is first publication s) :
    Enabled actor step (phase.helper first) s := by
  cases phase with
  | appended publisher =>
    exact ⟨.push publisher, { s with events := s.events ++ [.publish], publishers := s.publishers.erase publisher },
      rfl, by simp [step, is.2]⟩
  | queued position turns =>
    apply thread_enabled
    intro _ none
    have found := is.2.1
    rw [none] at found
    cases found
  | handled thread =>
    apply thread_enabled
    intro idle
    rw [is.2] at idle
    cases idle
  | held thread =>
    apply thread_enabled
    intro idle
    have held : publication ∈ (s.threads thread).batch := is
    rw [idle] at held
    cases held

omit [DecidableEq T] in
theorem Phase.rank_lt_of_stage {next phase : Phase T} (smaller : next.stage < phase.stage) : next.rank < phase.rank := by
  have fst : ∀ phase : Phase T, (ofLex phase.rank).1 = phase.stage := by
    intro phase
    cases phase <;> rfl
  apply Prod.Lex.lt_iff.mpr
  rw [fst, fst]
  exact .inl smaller

theorem Phase.progress (phase : Phase T) (is : phase.Is first publication s) (taken : step s action = some t) :
    publication ∈ t.delivered ∨ (∃ next : Phase T, next.rank < phase.rank ∧ next.Is first publication t) ∨
      (phase.Is first publication t ∧ actor action ≠ some (phase.helper first)) := by
  cases phase with
  | appended publisher =>
    rcases step_queue is.1 taken with ⟨thread, _, held⟩ | ⟨_, waiting⟩
    · exact .inr (.inl ⟨.held thread, Phase.rank_lt_of_stage (by simp [Phase.stage]), held⟩)
    · rcases step_publishers is.2 taken with ⟨_, pushed⟩ | ⟨other, half⟩
      · refine .inr (.inl ⟨.queued s.events.length (t.threads first).turns, ?_, waiting, ?_, rfl⟩)
        · exact Phase.rank_lt_of_stage (by simp [Phase.stage])
        · simp [pushed]
      · exact .inr (.inr ⟨⟨waiting, half⟩, other⟩)
  | queued position turns =>
    obtain ⟨waiting, listed, rfl⟩ := is
    rcases step_queue waiting taken with ⟨thread, _, held⟩ | ⟨unswapped, waiting⟩
    · refine .inr (.inl ⟨.held thread, ?_, held⟩)
      exact Phase.rank_lt_of_stage (by simp [Phase.stage])
    · rcases step_events taken with ⟨more, grown, untaken⟩ | ⟨thread, event, _, popped, handles⟩
      · have listed : t.events[position]? = some .publish := by
          rw [grown, List.getElem?_append_left (List.getElem?_eq_some_iff.mp listed).1]
          exact listed
        by_cases acts : actor action = some (.inr first)
        · refine .inr (.inl ⟨.queued position (t.threads first).turns, ?_, waiting, listed, rfl⟩)
          refine Prod.Lex.toLex_lt_toLex.mpr (.inr ⟨rfl, Prod.Lex.toLex_lt_toLex.mpr (.inr ⟨rfl, ?_⟩)⟩)
          exact step_turns acts unswapped untaken taken
        · refine .inr (.inr ⟨⟨waiting, listed, ?_⟩, acts⟩)
          rw [step_frame acts taken]
      · rw [popped] at listed
        cases position with
        | zero =>
          cases listed
          refine .inr (.inl ⟨.handled thread, ?_, waiting, handles⟩)
          exact Phase.rank_lt_of_stage (by simp [Phase.stage])
        | succ position =>
          refine .inr (.inl ⟨.queued position (t.threads first).turns, ?_, waiting, by simpa using listed, rfl⟩)
          refine Prod.Lex.toLex_lt_toLex.mpr (.inr ⟨rfl, Prod.Lex.toLex_lt_toLex.mpr (.inl ?_)⟩)
          exact Nat.lt_succ_self position
  | handled thread =>
    rcases step_queue is.1 taken with ⟨other, _, held⟩ | ⟨unswapped, waiting⟩
    · exact .inr (.inl ⟨.held other, Phase.rank_lt_of_stage (by simp [Phase.stage]), held⟩)
    · have acts : actor action ≠ some (.inr thread) := fun acts => unswapped thread (step_handling is.2 acts taken)
      exact .inr (.inr ⟨⟨waiting, (step_frame acts taken).trans is.2⟩, acts⟩)
  | held thread =>
    by_cases acts : actor action = some (.inr thread)
    · exact .inl (step_holding is acts taken)
    · refine .inr (.inr ⟨?_, acts⟩)
      show publication ∈ (t.threads thread).batch
      rw [step_frame acts taken]
      exact is

variable [Fintype T]

omit [DecidableEq C] [DecidableEq T] in
/-- A message that has been appended is on its way or delivered. -/
theorem Inv.phase (inv : Inv s) (first : T) (appended : publication ∈ s.appended) :
    publication ∈ s.delivered ∨ ∃ phase : Phase T, phase.Is first publication s := by
  have counted : publication ∈ (s.delivered : Multiset Publication) + s.held + s.queue := by
    rw [inv.conserved]
    exact appended
  rcases Multiset.mem_add.mp counted with counted | waiting
  · rcases Multiset.mem_add.mp counted with delivered | held
    · exact .inl delivered
    · obtain ⟨thread, _, held⟩ := Multiset.mem_sum.mp held
      exact .inr ⟨.held thread, held⟩
  · have waiting : publication ∈ s.queue := waiting
    rcases inv.covered (List.ne_nil_of_mem waiting) with ⟨publisher, half⟩ | queued | ⟨thread, handling⟩
    · exact .inr ⟨.appended publisher, waiting, half⟩
    · obtain ⟨position, found⟩ := List.mem_iff_getElem?.mp queued
      exact .inr ⟨.queued position (s.threads first).turns, waiting, found, rfl⟩
    · exact .inr ⟨.handled thread, waiting, handling⟩

theorem delivered_eventually (first : T) {execution : Execution (step (T := T) (C := C))}
    (always : ∀ n, Inv (execution.state n)) (fair : execution.Fair actor) {n : ℕ}
    (appended : publication ∈ (execution.state n).appended) : ∃ m, publication ∈ (execution.state m).delivered := by
  rcases (always n).phase first appended with delivered | ⟨phase, now⟩
  · exact ⟨n, delivered⟩
  · obtain ⟨m, _, reached⟩ := Execution.eventually Phase.rank always fair
      (fun phase _ _ is => phase.enabled is) (fun phase _ _ _ _ is taken => phase.progress is taken) now
    exact ⟨m, reached⟩

end

/-- Whatever publishers and threads do, in whatever order: every message is in one place, delivered or on
its way there; nothing is left when nothing goes on; and when everyone who can go on does so in the end,
every message is delivered. -/
theorem published_exactly_once [Fintype T] [Nonempty T] (subscriptions : Table Str (Finset C)) :
    (∀ run : List (Action T C),
      EachState step Accounted run (start subscriptions) ∧ EachStep step Delivers run (start subscriptions)) ∧
    ∀ execution : Execution (step (T := T) (C := C)), execution.state 0 = start subscriptions →
      execution.Fair actor → ∀ n, ∀ publication ∈ (execution.state n).appended,
        ∃ m, publication ∈ (execution.state m).delivered := by
  refine ⟨fun run => ⟨?_, ?_⟩, ?_⟩
  · exact eachState_of_always (fun _ action _ inv taken => step_inv action inv taken) (fun _ inv => inv.accounted)
      (start_inv subscriptions)
  · exact eachStep_of_always (fun _ _ _ _ _ => trivial) (fun s action _ => step_delivers s action) trivial
  · intro execution begins fair n publication appended
    obtain ⟨first⟩ := ‹Nonempty T›
    have always := execution.invariant (fun _ action _ inv taken => step_inv action inv taken)
      (begins ▸ start_inv subscriptions)
    exact delivered_eventually first always fair appended

instance neZero_threads : NeZero 4 := inferInstance

/-- One message is published, and then nothing happens any more. -/
def onePublished : List (Action (Fin 4) Nat) :=
  [.append 0 (ascii "news") (ascii "hello"), .push 0, .take 1, .swap 1, .deliver 1]

def oneSubscriber : Table Str (Finset Nat) := insertSubscription 7 ∅ (ascii "news")

theorem onePublished_goes : (runAll step onePublished (start oneSubscriber)).isSome := rfl

theorem onePublished_rests (agent : Nat ⊕ Fin 4) :
    ¬Enabled actor step agent ((runAll step onePublished (start oneSubscriber)).get onePublished_goes) := by
  rintro ⟨action, t, acts, taken⟩
  have idle : ∀ thread, ((runAll step onePublished (start oneSubscriber)).get onePublished_goes).threads thread = .idle := by
    decide +kernel
  cases action with
  | push publisher => exact absurd (step_push taken).1 (Finset.notMem_empty publisher)
  | take thread =>
    obtain ⟨_, _, _, queued, _⟩ := step_take taken
    cases queued
  | finish thread =>
    have busy := (step_finish taken).1
    rw [idle] at busy
    cases busy
  | swap thread =>
    have handling := (step_swap taken).1
    rw [idle] at handling
    cases handling
  | deliver thread =>
    obtain ⟨_, delivering, _⟩ := step_deliver taken
    rw [idle] at delivering
    cases delivering
  | _ => cases acts

theorem one_message_delivered :
    ∃ execution : Execution (step (T := Fin 4) (C := Nat)), execution.state 0 = start oneSubscriber ∧
      execution.Fair actor ∧ ∃ publication m, publication ∈ (execution.state 1).appended ∧
        publication ∈ (execution.state m).delivered := by
  refine ⟨.ofRun onePublished (start oneSubscriber) onePublished_goes, rfl,
    Execution.ofRun_fair _ _ _ onePublished_rests, ⟨0, ascii "news", ascii "hello"⟩, ?_⟩
  obtain ⟨m, delivered⟩ := (published_exactly_once oneSubscriber).2 _ rfl
    (Execution.ofRun_fair _ _ onePublished_goes onePublished_rests) 1 ⟨0, ascii "news", ascii "hello"⟩
    List.mem_cons_self
  exact ⟨m, List.mem_cons_self, delivered⟩

end Vanity.Publish
