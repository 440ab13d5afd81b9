import Vanity.Library.Fairness
import Vanity.Library.Runs
import Mathlib.Algebra.BigOperators.Group.Finset.Basic
import Mathlib.Algebra.Order.BigOperators.Group.Finset
import Mathlib.Data.Fintype.Card

/-!
# The event loop

The threads of `event_loop` take events from one queue. One more thread waits for the epoll: it pushes an
event when there is something to read, and goes on when a thread has set `m_polled`. The main thread leaves
`run` when all threads have ended, and then waits in `stop` for the thread that polls.
-/

namespace Vanity.Events

/-- `server_event`. -/
inductive ServerEvent where
  | epollReady
  | persist
  | terminate
  | expire
  | publish
  | pulse
  deriving DecidableEq

/-- A thread in `event_loop`: it waits in `get`, it is in the handler of an event, it has returned from
`epoll_ready` and goes to set `m_polled`, it goes to push the `terminate` that it has taken, or it is done. -/
inductive Worker where
  | waiting
  | handling (event : ServerEvent)
  | reporting
  | leaving
  | ended
  deriving DecidableEq

/-- The switch of `event_loop`. -/
def Worker.take : ServerEvent → Worker
  | .terminate => .leaving
  | event => .handling event

/-- What follows the handler: only `event_epoll_ready` has more to do. -/
def Worker.finish : ServerEvent → Worker
  | .epollReady => .reporting
  | _ => .waiting

/-- The thread in `poll`. -/
inductive Poller where
  | polling
  | pushing
  | awaiting
  | clearing
  | ended
  deriving DecidableEq

/-- The main thread: in `run`, on its way to `PollServer::stop`, in it, and after it. -/
inductive Phase where
  | running
  | returned
  | joining
  | stopped
  deriving DecidableEq

variable {T : Type}

structure State (T : Type) where
  events : List ServerEvent
  workers : T → Worker
  poller : Poller
  polled : Bool
  running : Bool
  phase : Phase
  /-- All that was ever pushed, taken, and cleared away. -/
  pushed : List ServerEvent
  taken : List ServerEvent
  dropped : List ServerEvent

inductive Action (T : Type) where
  | push (event : ServerEvent)
  | take (worker : T)
  | finish (worker : T)
  | set (worker : T)
  | leave (worker : T)
  | ready
  | quiet
  | failed
  | report
  | wake
  | clear
  | return_
  | stop
  | join

def State.pushEvent (s : State T) (event : ServerEvent) : State T :=
  { s with events := s.events ++ [event], pushed := s.pushed ++ [event] }

variable [DecidableEq T]

def State.become (s : State T) (worker : T) (now : Worker) : State T :=
  { s with workers := Function.update s.workers worker now }

@[simp] theorem become_same (s : State T) (worker : T) (now : Worker) : (s.become worker now).workers worker = now :=
  Function.update_self ..

@[simp] theorem become_other (s : State T) {worker other : T} (now : Worker) (different : other ≠ worker) :
    (s.become worker now).workers other = s.workers other :=
  Function.update_of_ne different ..

/-- Only `poll` pushes `epoll_ready`; the other events come from anywhere at any time. -/
def step [Fintype T] (s : State T) : Action T → Option (State T)
  | .push event => if event = .epollReady then none else some (s.pushEvent event)
  | .take worker =>
    match s.workers worker, s.events with
    | .waiting, event :: events =>
      some ({ s with events, taken := s.taken ++ [event] }.become worker (.take event))
    | _, _ => none
  | .finish worker =>
    match s.workers worker with
    | .handling event => some (s.become worker (.finish event))
    | _ => none
  | .set worker =>
    match s.workers worker with
    | .reporting => some ({ s with polled := true }.become worker .waiting)
    | _ => none
  | .leave worker =>
    match s.workers worker with
    | .leaving => some ((s.pushEvent .terminate).become worker .ended)
    | _ => none
  | .ready => if s.poller = .polling then some { s with poller := .pushing } else none
  | .quiet =>
    if s.poller = .polling then some { s with poller := if s.running then .polling else .ended } else none
  | .failed => if s.poller = .polling then some s else none
  | .report => if s.poller = .pushing then some { s.pushEvent .epollReady with poller := .awaiting } else none
  | .wake => if s.poller = .awaiting ∧ s.polled then some { s with poller := .clearing } else none
  | .clear => if s.poller = .clearing then some { s with poller := .polling, polled := false } else none
  | .return_ =>
    if s.phase = .running ∧ ∀ worker, s.workers worker = .ended then
      some { s with phase := .returned, events := [], dropped := s.dropped ++ s.events }
    else none
  | .stop => if s.phase = .returned then some { s with phase := .joining, running := false } else none
  | .join => if s.phase = .joining ∧ s.poller = .ended then some { s with phase := .stopped } else none

def start : State T where
  events := []
  workers _ := .waiting
  poller := .polling
  polled := false
  running := true
  phase := .running
  pushed := []
  taken := []
  dropped := []

/-- Who takes the action sooner or later. That `epoll_wait` returns 0 some time if it is not ready is up to
the clock; what it reports, and what others push, is up to nobody. -/
inductive Agent (T : Type) where
  | worker (worker : T)
  | poller
  | clock
  | main
  deriving DecidableEq

def actor : Action T → Option (Agent T)
  | .take worker => some (.worker worker)
  | .finish worker => some (.worker worker)
  | .set worker => some (.worker worker)
  | .leave worker => some (.worker worker)
  | .report => some .poller
  | .wake => some .poller
  | .clear => some .poller
  | .quiet => some .clock
  | .return_ => some .main
  | .stop => some .main
  | .join => some .main
  | _ => none

/-! ### What a step does -/

variable [Fintype T] {s t : State T}

theorem step_take {worker : T} (taken : step s (.take worker) = some t) :
    ∃ event events, s.workers worker = .waiting ∧ s.events = event :: events ∧
      t = { s with events, taken := s.taken ++ [event] }.become worker (.take event) := by
  simp only [step] at taken
  split at taken
  · rename_i event events waiting queued
    exact ⟨event, events, waiting, queued, (Option.some.inj taken).symm⟩
  · cases taken

theorem step_finish {worker : T} (taken : step s (.finish worker) = some t) :
    ∃ event, s.workers worker = .handling event ∧ t = s.become worker (.finish event) := by
  simp only [step] at taken
  split at taken
  · rename_i event handling
    exact ⟨event, handling, (Option.some.inj taken).symm⟩
  · cases taken

theorem step_set {worker : T} (taken : step s (.set worker) = some t) :
    s.workers worker = .reporting ∧ t = { s with polled := true }.become worker .waiting := by
  simp only [step] at taken
  split at taken
  · rename_i reporting
    exact ⟨reporting, (Option.some.inj taken).symm⟩
  · cases taken

theorem step_leave {worker : T} (taken : step s (.leave worker) = some t) :
    s.workers worker = .leaving ∧ t = (s.pushEvent .terminate).become worker .ended := by
  simp only [step] at taken
  split at taken
  · rename_i leaving
    exact ⟨leaving, (Option.some.inj taken).symm⟩
  · cases taken

/-- The steps that touch no worker. -/
inductive Elsewhere (s : State T) : Action T → State T → Prop where
  | push (event : ServerEvent) (other : event ≠ .epollReady) : Elsewhere s (.push event) (s.pushEvent event)
  | ready (polling : s.poller = .polling) : Elsewhere s .ready { s with poller := .pushing }
  | quiet (polling : s.poller = .polling) :
      Elsewhere s .quiet { s with poller := if s.running then .polling else .ended }
  | failed (polling : s.poller = .polling) : Elsewhere s .failed s
  | report (pushing : s.poller = .pushing) :
      Elsewhere s .report { s.pushEvent .epollReady with poller := .awaiting }
  | wake (awaiting : s.poller = .awaiting) (polled : s.polled = true) :
      Elsewhere s .wake { s with poller := .clearing }
  | clear (clearing : s.poller = .clearing) : Elsewhere s .clear { s with poller := .polling, polled := false }
  | return_ (running : s.phase = .running) (ended : ∀ worker, s.workers worker = .ended) :
      Elsewhere s .return_ { s with phase := .returned, events := [], dropped := s.dropped ++ s.events }
  | stop (returned : s.phase = .returned) : Elsewhere s .stop { s with phase := .joining, running := false }
  | join (joining : s.phase = .joining) (ended : s.poller = .ended) : Elsewhere s .join { s with phase := .stopped }

/-- The steps of a worker. -/
inductive Works (s : State T) : Action T → State T → Prop where
  | take (worker : T) (event : ServerEvent) (events : List ServerEvent) (waiting : s.workers worker = .waiting)
      (queued : s.events = event :: events) :
      Works s (.take worker) ({ s with events, taken := s.taken ++ [event] }.become worker (.take event))
  | finish (worker : T) (event : ServerEvent) (handling : s.workers worker = .handling event) :
      Works s (.finish worker) (s.become worker (.finish event))
  | set (worker : T) (reporting : s.workers worker = .reporting) :
      Works s (.set worker) ({ s with polled := true }.become worker .waiting)
  | leave (worker : T) (leaving : s.workers worker = .leaving) :
      Works s (.leave worker) ((s.pushEvent .terminate).become worker .ended)

theorem step_cases {action : Action T} (taken : step s action = some t) : Works s action t ∨ Elsewhere s action t := by
  cases action with
  | take worker =>
    obtain ⟨event, events, waiting, queued, rfl⟩ := step_take taken
    exact .inl (.take worker event events waiting queued)
  | finish worker =>
    obtain ⟨event, handling, rfl⟩ := step_finish taken
    exact .inl (.finish worker event handling)
  | set worker =>
    obtain ⟨reporting, rfl⟩ := step_set taken
    exact .inl (.set worker reporting)
  | leave worker =>
    obtain ⟨leaving, rfl⟩ := step_leave taken
    exact .inl (.leave worker leaving)
  | push event =>
    simp only [step, Option.ite_none_left_eq_some] at taken
    obtain ⟨other, taken⟩ := taken
    cases taken
    exact .inr (.push event other)
  | _ =>
    simp only [step, Option.ite_none_right_eq_some] at taken
    obtain ⟨enabled, taken⟩ := taken
    cases taken
    right
    first
      | exact .ready enabled
      | exact .quiet enabled
      | exact .failed enabled
      | exact .report enabled
      | exact .wake enabled.1 enabled.2
      | exact .clear enabled
      | exact .return_ enabled.1 enabled.2
      | exact .stop enabled
      | exact .join enabled.1 enabled.2

/-! ### The report of the poll thread -/

theorem sum_become (weight : Worker → ℕ) (s : State T) (worker : T) (now : Worker) :
    ∑ other, weight ((s.become worker now).workers other) + weight (s.workers worker) =
      ∑ other, weight (s.workers other) + weight now := by
  rw [← Finset.add_sum_erase _ _ (Finset.mem_univ worker), become_same,
    ← Finset.add_sum_erase Finset.univ (fun other => weight (s.workers other)) (Finset.mem_univ worker)]
  have rest : ∀ other ∈ Finset.univ.erase worker,
      weight ((s.become worker now).workers other) = weight (s.workers other) := by
    intro other member
    rw [become_other s now (Finset.ne_of_mem_erase member)]
  rw [Finset.sum_congr rfl rest]
  omega

/-- Whether the worker has the report of the poll thread. -/
def Worker.carries : Worker → ℕ
  | .handling .epollReady => 1
  | .reporting => 1
  | _ => 0

def State.carried (s : State T) : ℕ := ∑ worker, (s.workers worker).carries

theorem carried_become (s : State T) (worker : T) (now : Worker) :
    (s.become worker now).carried + (s.workers worker).carries = s.carried + now.carries :=
  sum_become Worker.carries s worker now

/-- How often the last report of the poll thread is on its way back to it: in the queue, with a worker, or
in `m_polled`. -/
def State.reports (s : State T) : ℕ := s.events.count .epollReady + s.carried + s.polled.toNat

structure Inv (s : State T) : Prop where
  /-- There is no report but the one the poll thread waits for. -/
  answered : s.poller ≠ .awaiting → s.poller ≠ .clearing → s.reports = 0
  once : s.reports ≤ 1
  woken : s.poller = .clearing → s.polled = true
  /-- The report is not lost before the queue is cleared. -/
  kept : s.phase = .running → s.poller = .awaiting → s.reports = 1

omit [DecidableEq T] in
theorem start_inv : Inv (start : State T) where
  answered _ _ := by simp [State.reports, State.carried, start, Worker.carries]
  once := by simp [State.reports, State.carried, start, Worker.carries]
  woken clearing := by cases clearing
  kept _ awaiting := by cases awaiting

omit [DecidableEq T] in
theorem Inv.frame (inv : Inv s) (reports : t.reports = s.reports) (poller : t.poller = s.poller)
    (polled : s.polled = true → t.polled = true) (phase : t.phase = .running → s.phase = .running) : Inv t where
  answered idle other := by
    rw [reports]
    exact inv.answered (poller ▸ idle) (poller ▸ other)
  once := reports ▸ inv.once
  woken clearing := polled (inv.woken (poller ▸ clearing))
  kept running awaiting := by
    rw [reports]
    exact inv.kept (phase running) (poller ▸ awaiting)

omit [DecidableEq T] in
theorem pushEvent_reports {event : ServerEvent} (other : event ≠ .epollReady) : (s.pushEvent event).reports = s.reports := by
  simp [State.reports, State.carried, State.pushEvent, other]

@[simp] theorem carries_take (event : ServerEvent) : (Worker.take event).carries = [event].count .epollReady := by
  cases event <;> rfl

@[simp] theorem carries_finish (event : ServerEvent) : (Worker.finish event).carries = (Worker.handling event).carries := by
  cases event <;> rfl

theorem works_reports {action : Action T} (works : Works s action t) (once : s.reports ≤ 1) : t.reports = s.reports := by
  cases works with
  | take worker event events waiting queued =>
    have moved := carried_become { s with events, taken := s.taken ++ [event] } worker (.take event)
    have before : (s.workers worker).carries = 0 := by rw [waiting]; rfl
    have split : s.events.count .epollReady = [event].count .epollReady + events.count .epollReady := by
      rw [queued, ← List.count_append]
      rfl
    rw [carries_take] at moved
    simp only [State.reports, State.become, State.carried] at *
    omega
  | finish worker event handling =>
    have moved := carried_become s worker (.finish event)
    rw [handling, carries_finish] at moved
    simp only [State.reports, State.become] at *
    omega
  | set worker reporting =>
    have moved := carried_become { s with polled := true } worker .waiting
    have before : (s.workers worker).carries = 1 := by rw [reporting]; rfl
    have after : Worker.waiting.carries = 0 := rfl
    simp only [State.reports, State.become, State.carried, Bool.toNat_true] at *
    omega
  | leave worker leaving =>
    have moved := carried_become (s.pushEvent .terminate) worker .ended
    have before : (s.workers worker).carries = 0 := by rw [leaving]; rfl
    have after : Worker.ended.carries = 0 := rfl
    have other : [ServerEvent.terminate].count .epollReady = 0 := rfl
    simp only [State.reports, State.become, State.carried, State.pushEvent, List.count_append] at *
    omega

theorem works_inv {action : Action T} (works : Works s action t) (inv : Inv s) : Inv t := by
  have same := works_reports works inv.once
  cases works with
  | take worker event events waiting queued => exact inv.frame same rfl id id
  | finish worker event handling => exact inv.frame same rfl id id
  | set worker reporting => exact inv.frame same rfl (fun _ => rfl) id
  | leave worker leaving => exact inv.frame same rfl id id

omit [DecidableEq T] in
theorem elsewhere_inv {action : Action T} (elsewhere : Elsewhere s action t) (inv : Inv s) : Inv t := by
  cases elsewhere with
  | push event other => exact inv.frame (pushEvent_reports other) rfl id id
  | ready polling =>
    have none_ := inv.answered (by rw [polling]; decide) (by rw [polling]; decide)
    exact ⟨fun _ _ => none_, inv.once, (nomatch ·), fun _ => (nomatch ·)⟩
  | quiet polling =>
    have none_ := inv.answered (by rw [polling]; decide) (by rw [polling]; decide)
    refine ⟨fun _ _ => none_, inv.once, ?_, ?_⟩
    · intro clearing
      dsimp only at clearing
      split at clearing <;> cases clearing
    · intro _ awaiting
      dsimp only at awaiting
      split at awaiting <;> cases awaiting
  | failed polling => exact inv
  | report pushing =>
    have none_ := inv.answered (by rw [pushing]; decide) (by rw [pushing]; decide)
    have one : ({ s.pushEvent .epollReady with poller := .awaiting } : State T).reports = 1 := by
      simp only [State.reports, State.carried] at none_
      simp only [State.reports, State.carried, State.pushEvent, List.count_append, List.count_singleton_self]
      omega
    exact ⟨fun idle _ => absurd rfl idle, one.le, (nomatch ·), fun _ _ => one⟩
  | wake awaiting polled =>
    exact ⟨fun _ other => absurd rfl other, inv.once, fun _ => polled, fun _ => (nomatch ·)⟩
  | clear clearing =>
    have polled := inv.woken clearing
    have once := inv.once
    have none_ : ({ s with poller := .polling, polled := false } : State T).reports = 0 := by
      simp only [State.reports, State.carried, polled, Bool.toNat_true] at once
      simp only [State.reports, State.carried, Bool.toNat_false]
      omega
    exact ⟨fun _ _ => none_, none_ ▸ Nat.zero_le 1, (nomatch ·), fun _ => (nomatch ·)⟩
  | return_ running ended =>
    have fewer : ({ s with phase := .returned, events := [], dropped := s.dropped ++ s.events } : State T).reports ≤
        s.reports := by
      simp only [State.reports, State.carried, List.count_nil]
      omega
    exact ⟨fun idle other => Nat.le_zero.mp (inv.answered idle other ▸ fewer), fewer.trans inv.once, inv.woken, (nomatch ·)⟩
  | stop returned => exact inv.frame rfl rfl id (nomatch ·)
  | join joining ended => exact inv.frame rfl rfl id (nomatch ·)

theorem step_inv {action : Action T} (inv : Inv s) (taken : step s action = some t) : Inv t := by
  rcases step_cases taken with works | elsewhere
  · exact works_inv works inv
  · exact elsewhere_inv elsewhere inv

omit [DecidableEq T] in
theorem carries_le (s : State T) (worker : T) : (s.workers worker).carries ≤ s.carried :=
  Finset.single_le_sum (f := fun worker => (s.workers worker).carries) (fun _ _ => Nat.zero_le _) (Finset.mem_univ worker)

theorem two_carry {worker other : T} (different : other ≠ worker) (first : (s.workers worker).carries = 1)
    (second : (s.workers other).carries = 1) : 2 ≤ s.carried := by
  have moved := carried_become s worker .waiting
  have left := carries_le (s.become worker .waiting) other
  have after : Worker.waiting.carries = 0 := rfl
  rw [become_other s _ different] at left
  omega

/-- The poll thread waits while a worker has its report, and there is no other one. -/
theorem Inv.exclusive (inv : Inv s) {worker : T} (carries : (s.workers worker).carries = 1) :
    s.poller = .awaiting ∧ .epollReady ∉ s.events ∧ ∀ other, (s.workers other).carries = 1 → other = worker := by
  have once := inv.once
  have carried := carries_le s worker
  simp only [State.reports] at once
  have unset : s.polled = false := by
    cases polled : s.polled with
    | false => rfl
    | true =>
      rw [polled, Bool.toNat_true] at once
      omega
  refine ⟨?_, List.count_eq_zero.mp (by omega), ?_⟩
  · by_contra other
    have awake : s.poller ≠ .clearing := by
      intro clearing
      have set_ := inv.woken clearing
      rw [unset] at set_
      cases set_
    have none_ := inv.answered other awake
    simp only [State.reports] at none_
    omega
  · intro other second
    by_contra different
    have both := two_carry different carries second
    omega

variable (T) in
/-- `epoll_ready` is never run by two workers at once, nor while the poll thread is in `epoll_wait`; and when
one runs it no other is in the queue. -/
theorem epollReady_exclusive (run : List (Action T)) :
    EachState step (fun s => s.events.count .epollReady ≤ 1 ∧
      ∀ worker, s.workers worker = .handling .epollReady →
        s.poller = .awaiting ∧ .epollReady ∉ s.events ∧
          ∀ other, s.workers other = .handling .epollReady → other = worker) run start := by
  refine eachState_of_always (fun _ _ _ inv taken => step_inv inv taken) (fun s inv => ⟨?_, ?_⟩) start_inv
  · have once := inv.once
    simp only [State.reports] at once
    omega
  · intro worker handling
    have carries : (s.workers worker).carries = 1 := by rw [handling]; rfl
    obtain ⟨awaiting, unqueued, alone⟩ := inv.exclusive carries
    exact ⟨awaiting, unqueued, fun other also => alone other (by rw [also]; rfl)⟩

end Vanity.Events
