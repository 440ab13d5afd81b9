import Vanity.Events.Loop
import Mathlib.Data.Prod.Lex

/-!
# How the server stops

A thread that takes `terminate` pushes it again for the others and ends. Other events are pushed meanwhile,
and those before the `terminate` are taken by the threads that are left.
-/

namespace Vanity.Events

variable {T : Type} [DecidableEq T] [Fintype T] {s t : State T}

/-! ### What each step does to one worker and to the queue -/

theorem step_frame {action : Action T} {worker : T} (other : actor action ≠ some (.worker worker))
    (taken : step s action = some t) : t.workers worker = s.workers worker := by
  rcases step_cases taken with works | elsewhere
  · have different : ∀ who, actor action = some (.worker who) → worker ≠ who := by
      rintro who acts rfl
      exact other acts
    cases works with
    | take who event events waiting queued => exact become_other _ _ (different who rfl)
    | finish who event handling => exact become_other _ _ (different who rfl)
    | set who reporting => exact become_other _ _ (different who rfl)
    | leave who leaving => exact become_other _ _ (different who rfl)
  · cases elsewhere <;> rfl

/-- While the server runs, a step takes the first event or leaves the queue as it is, up to new events. -/
theorem step_events {action : Action T} (taken : step s action = some t) (running : t.phase = .running) :
    (∃ worker event, action = .take worker ∧ s.workers worker = .waiting ∧ s.events = event :: t.events ∧
      t.workers worker = .take event ∧ t.taken = s.taken ++ [event]) ∨
      (∀ worker, action ≠ .take worker) ∧ ∃ more, t.events = s.events ++ more ∧ t.taken = s.taken := by
  rcases step_cases taken with works | elsewhere
  · cases works with
    | take worker event events waiting queued =>
      exact .inl ⟨worker, event, rfl, waiting, queued, become_same .., rfl⟩
    | finish worker event handling => exact .inr ⟨fun _ => (nomatch ·), [], (List.append_nil _).symm, rfl⟩
    | set worker reporting => exact .inr ⟨fun _ => (nomatch ·), [], (List.append_nil _).symm, rfl⟩
    | leave worker leaving => exact .inr ⟨fun _ => (nomatch ·), [.terminate], rfl, rfl⟩
  · right
    cases elsewhere with
    | push event other => exact ⟨fun _ => (nomatch ·), [event], rfl, rfl⟩
    | report pushing => exact ⟨fun _ => (nomatch ·), [.epollReady], rfl, rfl⟩
    | return_ _ ended => cases running
    | _ => exact ⟨fun _ => (nomatch ·), [], (List.append_nil _).symm, rfl⟩

/-- The steps a worker takes before it comes back for the next event. -/
def Worker.pending : Worker → Option ℕ
  | .waiting => some 0
  | .reporting => some 1
  | .handling _ => some 2
  | .leaving => none
  | .ended => none

theorem step_turns {action : Action T} {worker : T} {turns : ℕ} (acts : actor action = some (.worker worker))
    (untaken : action ≠ .take worker) (pending : (s.workers worker).pending = some turns)
    (taken : step s action = some t) : ∃ fewer < turns, (t.workers worker).pending = some fewer := by
  rcases step_cases taken with works | elsewhere
  · cases works with
    | take who event events waiting queued =>
      cases acts
      exact absurd rfl untaken
    | finish who event handling =>
      cases acts
      rw [handling] at pending
      cases pending
      rw [become_same]
      cases event with
      | epollReady => exact ⟨1, by omega, rfl⟩
      | _ => exact ⟨0, by omega, rfl⟩
    | set who reporting =>
      cases acts
      rw [reporting] at pending
      cases pending
      rw [become_same]
      exact ⟨0, by omega, rfl⟩
    | leave who leaving =>
      cases acts
      rw [leaving] at pending
      cases pending
  · cases elsewhere <;> cases acts

theorem pending_take {event : ServerEvent} (other : event ≠ .terminate) : (Worker.take event).pending = some 2 := by
  cases event with
  | terminate => exact absurd rfl other
  | _ => rfl

/-- A worker with something to do comes back for the next event, unless it has taken a `terminate`. -/
theorem step_pending {action : Action T} {worker : T} {turns : ℕ} (pending : (s.workers worker).pending = some turns)
    (taken : step s action = some t) (running : t.phase = .running) :
    t.workers worker = .leaving ∨ ∃ turns, (t.workers worker).pending = some turns := by
  by_cases acts : actor action = some (.worker worker)
  · rcases step_events taken running with ⟨who, event, rfl, _, _, takes, _⟩ | ⟨untaken, _⟩
    · cases acts
      rw [takes]
      by_cases last : event = .terminate
      · subst last
        exact .inl rfl
      · exact .inr ⟨2, pending_take last⟩
    · obtain ⟨fewer, _, pending⟩ := step_turns acts (untaken worker) pending taken
      exact .inr ⟨fewer, pending⟩
  · right
    rw [step_frame acts taken]
    exact ⟨turns, pending⟩

/-! ### First in, first out -/

structure History (s : State T) : Prop where
  fifo : s.taken ++ s.dropped ++ s.events = s.pushed
  whole : s.phase = .running → s.dropped = []
  ended : s.phase ≠ .running → ∀ worker, s.workers worker = .ended
  told : ∀ worker, s.workers worker = .leaving ∨ s.workers worker = .ended → .terminate ∈ s.taken
  /-- There is a `terminate` for those that are left. -/
  signal : s.phase = .running → .terminate ∈ s.pushed → .terminate ∈ s.events ∨ ∃ worker, s.workers worker = .leaving

omit [DecidableEq T] [Fintype T] in
theorem start_history : History (start : State T) where
  fifo := rfl
  whole _ := rfl
  ended stopped := absurd rfl stopped
  told _ gone := by rcases gone with gone | gone <;> cases gone
  signal _ listed := by cases listed

omit [DecidableEq T] [Fintype T] in
theorem History.running (history : History s) {worker : T} (alive : s.workers worker ≠ .ended) : s.phase = .running := by
  by_contra stopped
  exact alive (history.ended stopped worker)

omit [Fintype T] in
/-- What a worker does when it takes no `terminate`. -/
theorem History.become (history : History s) {worker : T} {now : Worker} (alive : s.workers worker ≠ .ended)
    (stays : s.workers worker ≠ .leaving) (remains : now ≠ .leaving ∧ now ≠ .ended) : History (s.become worker now) where
  fifo := history.fifo
  whole := history.whole
  ended stopped := absurd (history.running alive) stopped
  told other gone := by
    by_cases same : other = worker
    · subst same
      rw [become_same] at gone
      exact absurd gone (not_or.mpr remains)
    · rw [become_other _ _ same] at gone
      exact history.told other gone
  signal running listed := by
    rcases history.signal running listed with queued | ⟨other, leaving⟩
    · exact .inl queued
    · have different : other ≠ worker := by
        rintro rfl
        exact stays leaving
      exact .inr ⟨other, (become_other _ _ different).trans leaving⟩

omit [DecidableEq T] [Fintype T] in
theorem History.pushEvent (history : History s) (event : ServerEvent) : History (s.pushEvent event) where
  fifo := by
    show s.taken ++ s.dropped ++ (s.events ++ [event]) = s.pushed ++ [event]
    rw [← List.append_assoc, history.fifo]
  whole := history.whole
  ended := history.ended
  told := history.told
  signal running listed := by
    rcases List.mem_append.mp listed with listed | new
    · rcases history.signal running listed with queued | leaving
      · exact .inl (List.mem_append_left _ queued)
      · exact .inr leaving
    · exact .inl (List.mem_append_right _ new)

omit [Fintype T] in
theorem take_history (history : History s) {worker : T} {event : ServerEvent} {events : List ServerEvent}
    (waiting : s.workers worker = .waiting) (queued : s.events = event :: events) :
    History ({ s with events, taken := s.taken ++ [event] }.become worker (.take event)) := by
  have alive : s.workers worker ≠ .ended := by rw [waiting]; decide
  have running := history.running alive
  have fifo := history.fifo
  rw [history.whole running, List.append_nil, queued] at fifo
  constructor
  case fifo =>
    show s.taken ++ [event] ++ s.dropped ++ events = s.pushed
    rw [history.whole running, List.append_nil, List.append_assoc]
    exact fifo
  case whole => exact history.whole
  case ended => exact fun stopped => absurd running stopped
  case told =>
    intro other gone
    by_cases same : other = worker
    · subst same
      rw [become_same] at gone
      cases event with
      | terminate => exact List.mem_append_right _ List.mem_cons_self
      | _ => rcases gone with gone | gone <;> cases gone
    · rw [become_other _ _ same] at gone
      exact List.mem_append_left _ (history.told other gone)
  case signal =>
    intro _ listed
    by_cases last : event = .terminate
    · subst last
      exact .inr ⟨worker, become_same ..⟩
    · rcases history.signal running listed with waits | ⟨other, leaving⟩
      · rw [queued] at waits
        exact .inl (List.mem_of_ne_of_mem (Ne.symm last) waits)
      · have different : other ≠ worker := by
          rintro rfl
          rw [waiting] at leaving
          cases leaving
        exact .inr ⟨other, (become_other _ _ different).trans leaving⟩

omit [Fintype T] in
theorem leave_history (history : History s) {worker : T} (leaving : s.workers worker = .leaving) :
    History ((s.pushEvent .terminate).become worker .ended) := by
  have alive : s.workers worker ≠ .ended := by rw [leaving]; decide
  have running := history.running alive
  have pushed := history.pushEvent .terminate
  refine ⟨pushed.fifo, pushed.whole, fun stopped => absurd running stopped, ?_, ?_⟩
  · intro other gone
    by_cases same : other = worker
    · subst same
      exact history.told other (.inl leaving)
    · rw [become_other _ _ same] at gone
      exact history.told other gone
  · intro _ _
    exact .inl (List.mem_append_right _ List.mem_cons_self)

theorem step_history {action : Action T} (history : History s) (taken : step s action = some t) : History t := by
  rcases step_cases taken with works | elsewhere
  · cases works with
    | take worker event events waiting queued => exact take_history history waiting queued
    | finish worker event handling =>
      refine history.become (by rw [handling]; nofun) (by rw [handling]; nofun) ?_
      cases event <;> exact ⟨nofun, nofun⟩
    | set worker reporting =>
      have same : History { s with polled := true } := ⟨history.1, history.2, history.3, history.4, history.5⟩
      exact same.become (by show s.workers worker ≠ _; rw [reporting]; nofun)
        (by show s.workers worker ≠ _; rw [reporting]; nofun) ⟨nofun, nofun⟩
    | leave worker leaving => exact leave_history history leaving
  · cases elsewhere with
    | push event other => exact history.pushEvent event
    | report pushing =>
      have pushed := history.pushEvent .epollReady
      exact ⟨pushed.1, pushed.2, pushed.3, pushed.4, pushed.5⟩
    | return_ running ended =>
      refine ⟨?_, (nomatch ·), fun _ => ended, history.told, (nomatch ·)⟩
      show s.taken ++ (s.dropped ++ s.events) ++ [] = s.pushed
      rw [List.append_nil, ← List.append_assoc]
      exact history.fifo
    | stop returned =>
      exact ⟨history.fifo, (nomatch ·), fun _ => history.ended (by rw [returned]; decide), history.told, (nomatch ·)⟩
    | join joining ended =>
      exact ⟨history.fifo, (nomatch ·), fun _ => history.ended (by rw [joining]; decide), history.told, (nomatch ·)⟩
    | failed => exact history
    | _ => exact ⟨history.1, history.2, history.3, history.4, history.5⟩

theorem step_pushed {action : Action T} (taken : step s action = some t) : s.pushed <+: t.pushed := by
  rcases step_cases taken with works | elsewhere
  · cases works with
    | leave worker leaving => exact List.prefix_append ..
    | _ => exact List.prefix_rfl
  · cases elsewhere with
    | push event other => exact List.prefix_append ..
    | report pushing => exact List.prefix_append ..
    | _ => exact List.prefix_rfl

omit [DecidableEq T] [Fintype T] in
/-- All that was pushed before the first `terminate` has been taken before it. -/
theorem History.before (history : History s) {worker : T} (ended : s.workers worker = .ended) :
    ∃ rest, s.taken = s.pushed.takeWhile (· ≠ .terminate) ++ .terminate :: rest := by
  obtain ⟨earlier, rest, split, free⟩ := List.eq_append_cons_of_mem (history.told worker (.inr ended))
  refine ⟨rest, ?_⟩
  have skipped : s.pushed.takeWhile (· ≠ .terminate) = earlier := by
    have others : ∀ event ∈ earlier, decide (event ≠ .terminate) = true := by
      intro event member
      exact decide_eq_true (ne_of_mem_of_not_mem member free)
    rw [← history.fifo, split, List.append_assoc, List.append_assoc, List.cons_append,
      List.takeWhile_append_of_pos others]
    simp
  rw [skipped, split]

/-! ### All threads end -/

def Worker.alive : Worker → ℕ
  | .ended => 0
  | _ => 1

def State.live (s : State T) : ℕ := ∑ worker, (s.workers worker).alive

theorem live_become (s : State T) (worker : T) (now : Worker) :
    (s.become worker now).live + (s.workers worker).alive = s.live + now.alive :=
  sum_become Worker.alive s worker now

omit [DecidableEq T] in
theorem live_zero (none_ : s.live = 0) (worker : T) : s.workers worker = .ended := by
  have zero := (Finset.sum_eq_zero_iff.mp none_) worker (Finset.mem_univ worker)
  cases is : s.workers worker with
  | ended => rfl
  | _ =>
    rw [is] at zero
    cases zero

omit [DecidableEq T] in
theorem live_some (some_ : s.live ≠ 0) : ∃ worker, s.workers worker ≠ .ended := by
  obtain ⟨worker, _, alive⟩ := Finset.exists_ne_zero_of_sum_ne_zero some_
  refine ⟨worker, fun ended => alive ?_⟩
  rw [ended]
  rfl

omit [DecidableEq T] [Fintype T] in
theorem alive_take (event : ServerEvent) : (Worker.take event).alive = 1 := by cases event <;> rfl

omit [DecidableEq T] [Fintype T] in
theorem alive_finish (event : ServerEvent) : (Worker.finish event).alive = 1 := by cases event <;> rfl

theorem leave_live {worker : T} (leaving : s.workers worker = .leaving) :
    ((s.pushEvent .terminate).become worker .ended).live + 1 = s.live := by
  have moved := live_become (s.pushEvent .terminate) worker .ended
  rw [show (s.pushEvent .terminate).workers worker = .leaving from leaving] at moved
  exact moved

theorem step_live {action : Action T} (taken : step s action = some t) : t.live ≤ s.live := by
  rcases step_cases taken with works | elsewhere
  · cases works with
    | take worker event events waiting queued =>
      have moved := live_become { s with events, taken := s.taken ++ [event] } worker (.take event)
      rw [show ({ s with events, taken := s.taken ++ [event] } : State T).workers worker = .waiting from waiting,
        alive_take] at moved
      exact (Nat.add_right_cancel moved).le
    | finish worker event handling =>
      have moved := live_become s worker (.finish event)
      rw [handling, alive_finish] at moved
      exact (Nat.add_right_cancel moved).le
    | set worker reporting =>
      have moved := live_become { s with polled := true } worker .waiting
      rw [show ({ s with polled := true } : State T).workers worker = .reporting from reporting] at moved
      exact (Nat.add_right_cancel moved).le
    | leave worker leaving =>
      have fewer := leave_live leaving
      omega
  · cases elsewhere <;> exact le_rfl

/-- How far the server is from the end of `run`: a worker has a `terminate` to push, or a `terminate` is at
this place in the queue and the worker has so many steps to do before it comes for an event, or all have
ended. -/
inductive Stage (T : Type) where
  | leaving (live : ℕ) (worker : T)
  | queued (live : ℕ) (worker : T) (position turns : ℕ)
  | alone
  deriving DecidableEq

def Stage.live : Stage T → ℕ
  | .leaving live _ => live
  | .queued live _ _ _ => live
  | .alone => 0

def Stage.helper : Stage T → Agent T
  | .leaving _ worker => .worker worker
  | .queued _ worker _ _ => .worker worker
  | .alone => .main

def Stage.rank : Stage T → ℕ ×ₗ ℕ ×ₗ ℕ ×ₗ ℕ
  | .leaving live _ => toLex (live, toLex (0, toLex (0, 0)))
  | .queued live _ position turns => toLex (live, toLex (1, toLex (position, turns)))
  | .alone => toLex (0, toLex (0, toLex (0, 0)))

def Stage.Is (s : State T) : Stage T → Prop
  | .leaving live worker => s.phase = .running ∧ s.live = live ∧ s.workers worker = .leaving
  | .queued live worker position turns =>
    s.phase = .running ∧ s.live = live ∧ s.events[position]? = some .terminate ∧
      (s.workers worker).pending = some turns
  | .alone => s.phase = .running ∧ s.live = 0

omit [DecidableEq T] [Fintype T] in
theorem Stage.rank_lt_of_live {stage other : Stage T} (fewer : stage.live < other.live) : stage.rank < other.rank := by
  cases stage <;> cases other <;> exact Prod.Lex.toLex_lt_toLex.mpr (.inl fewer)

omit [DecidableEq T] in
theorem Stage.live_eq {stage : Stage T} (is : stage.Is s) : s.live = stage.live := by
  cases stage with
  | leaving live worker => exact is.2.1
  | queued live worker position turns => exact is.2.1
  | alone => exact is.2

omit [DecidableEq T] [Fintype T] in
theorem pending_or_leaving {worker : T} (alive : s.workers worker ≠ .ended) :
    s.workers worker = .leaving ∨ ∃ turns, (s.workers worker).pending = some turns := by
  cases is : s.workers worker with
  | waiting => exact .inr ⟨0, rfl⟩
  | handling event => exact .inr ⟨2, rfl⟩
  | reporting => exact .inr ⟨1, rfl⟩
  | leaving => exact .inl rfl
  | ended => exact absurd is alive

omit [DecidableEq T] in
theorem History.stage (history : History s) (running : s.phase = .running) (told : .terminate ∈ s.pushed) :
    ∃ stage : Stage T, stage.Is s := by
  by_cases none_ : s.live = 0
  · exact ⟨.alone, running, none_⟩
  · rcases history.signal running told with queued | ⟨worker, leaving⟩
    · obtain ⟨worker, alive⟩ := live_some none_
      obtain ⟨position, found⟩ := List.mem_iff_getElem?.mp queued
      rcases pending_or_leaving alive with leaving | ⟨turns, pending⟩
      · exact ⟨.leaving s.live worker, running, rfl, leaving⟩
      · exact ⟨.queued s.live worker position turns, running, rfl, found, pending⟩
    · exact ⟨.leaving s.live worker, running, rfl, leaving⟩

/-- A worker can go on as long as there are events. -/
theorem worker_enabled {worker : T} {turns : ℕ} (pending : (s.workers worker).pending = some turns)
    (waits : s.events ≠ []) : Enabled actor step (.worker worker) s := by
  cases at_ : s.workers worker with
  | waiting =>
    obtain ⟨event, events, queue⟩ := List.exists_cons_of_ne_nil waits
    exact enabled_of_isSome actor (a := .take worker) rfl (by simp [step, at_, queue])
  | handling event => exact enabled_of_isSome actor (a := .finish worker) rfl (by simp [step, at_])
  | reporting => exact enabled_of_isSome actor (a := .set worker) rfl (by simp [step, at_])
  | leaving =>
    rw [at_] at pending
    cases pending
  | ended =>
    rw [at_] at pending
    cases pending

theorem Stage.enabled {stage : Stage T} (is : stage.Is s) : Enabled actor step stage.helper s := by
  cases stage with
  | leaving live worker =>
    obtain ⟨_, _, leaving⟩ := is
    exact enabled_of_isSome actor (a := .leave worker) rfl (by simp [step, leaving])
  | queued live worker position turns =>
    obtain ⟨_, _, found, pending⟩ := is
    refine worker_enabled pending fun empty => ?_
    rw [empty] at found
    cases found
  | alone =>
    obtain ⟨running, none_⟩ := is
    exact enabled_of_isSome actor (a := .return_) rfl (by simp [step, running, live_zero none_])

/-- The steps of the main thread lead out of `run`. -/
theorem main_returns {action : Action T} (acts : actor action = some .main) (taken : step s action = some t) :
    t.phase ≠ .running := by
  rcases step_cases taken with works | elsewhere
  · cases works <;> cases acts
  · cases elsewhere <;> cases acts <;> nofun

theorem leaving_leaves {action : Action T} {worker : T} (leaving : s.workers worker = .leaving)
    (acts : actor action = some (.worker worker)) (taken : step s action = some t) : t.live < s.live := by
  rcases step_cases taken with works | elsewhere
  · cases works with
    | take who event events waiting queued =>
      cases acts
      rw [leaving] at waiting
      cases waiting
    | finish who event handling =>
      cases acts
      rw [leaving] at handling
      cases handling
    | set who reporting =>
      cases acts
      rw [leaving] at reporting
      cases reporting
    | leave who leaving =>
      have fewer := leave_live leaving
      omega
  · cases elsewhere <;> cases acts

theorem Stage.progress {stage : Stage T} {action : Action T} (history : History s) (told : .terminate ∈ s.pushed)
    (is : stage.Is s) (taken : step s action = some t) :
    t.phase ≠ .running ∨ (∃ next : Stage T, next.rank < stage.rank ∧ next.Is t) ∨
      (stage.Is t ∧ actor action ≠ some stage.helper) := by
  by_cases running : t.phase = .running
  case neg => exact .inl running
  right
  rcases (step_live taken).lt_or_eq with fewer | same
  · -- a thread has ended, and the others go on with what it has pushed
    obtain ⟨next, begins⟩ := (step_history history taken).stage running ((step_pushed taken).subset told)
    refine .inl ⟨next, Stage.rank_lt_of_live ?_, begins⟩
    rwa [← Stage.live_eq begins, ← Stage.live_eq is]
  cases stage with
  | leaving live worker =>
    obtain ⟨_, exact_, leaving⟩ := is
    have other : actor action ≠ some (.worker worker) := fun acts => (leaving_leaves leaving acts taken).ne same
    exact .inr ⟨⟨running, same.trans exact_, (step_frame other taken).trans leaving⟩, other⟩
  | queued live worker position turns =>
    obtain ⟨_, exact_, found, pending⟩ := is
    have exact_ : t.live = live := same.trans exact_
    rcases step_events taken running with ⟨who, event, rfl, _, queue, takes, _⟩ | ⟨untaken, more, grown, _⟩
    · by_cases last : event = .terminate
      · subst last
        refine .inl ⟨.leaving live who, ?_, running, exact_, takes⟩
        exact Prod.Lex.toLex_lt_toLex.mpr (.inr ⟨rfl, Prod.Lex.toLex_lt_toLex.mpr (.inl Nat.zero_lt_one)⟩)
      · rw [queue] at found
        cases position with
        | zero => exact absurd (Option.some.inj found) last
        | succ position =>
          rcases step_pending pending taken running with leaving | ⟨turns, pending⟩
          · refine .inl ⟨.leaving live worker, ?_, running, exact_, leaving⟩
            exact Prod.Lex.toLex_lt_toLex.mpr (.inr ⟨rfl, Prod.Lex.toLex_lt_toLex.mpr (.inl Nat.zero_lt_one)⟩)
          · refine .inl ⟨.queued live worker position turns, ?_, running, exact_, by simpa using found, pending⟩
            exact Prod.Lex.toLex_lt_toLex.mpr (.inr ⟨rfl, Prod.Lex.toLex_lt_toLex.mpr (.inr ⟨rfl,
              Prod.Lex.toLex_lt_toLex.mpr (.inl (Nat.lt_succ_self position))⟩)⟩)
    · have found : t.events[position]? = some .terminate := by
        rw [grown, List.getElem?_append_left (List.getElem?_eq_some_iff.mp found).1]
        exact found
      by_cases acts : actor action = some (.worker worker)
      · obtain ⟨fewer, less, pending⟩ := step_turns acts (untaken worker) pending taken
        refine .inl ⟨.queued live worker position fewer, ?_, running, exact_, found, pending⟩
        exact Prod.Lex.toLex_lt_toLex.mpr (.inr ⟨rfl, Prod.Lex.toLex_lt_toLex.mpr (.inr ⟨rfl,
          Prod.Lex.toLex_lt_toLex.mpr (.inr ⟨rfl, less⟩)⟩)⟩)
      · refine .inr ⟨⟨running, exact_, found, ?_⟩, acts⟩
        rw [step_frame acts taken]
        exact pending
  | alone => exact .inr ⟨⟨running, same.trans is.2⟩, fun acts => main_returns acts taken running⟩

variable {execution : Execution (step (T := T))}

theorem always_history (begins : execution.state 0 = start) (n : ℕ) : History (execution.state n) :=
  execution.invariant (fun _ _ _ history taken => step_history history taken) (begins ▸ start_history) n

theorem returns_eventually (begins : execution.state 0 = start) (fair : execution.Fair actor) {n : ℕ}
    (told : .terminate ∈ (execution.state n).pushed) : ∃ m, n ≤ m ∧ (execution.state m).phase ≠ .running := by
  by_cases running : (execution.state n).phase = .running
  case neg => exact ⟨n, le_rfl, running⟩
  obtain ⟨stage, now⟩ := (always_history begins n).stage running told
  have enabled : ∀ (stage : Stage T) (s : State T), History s → stage.Is s ∧ .terminate ∈ s.pushed →
      Enabled actor step stage.helper s := fun _ _ _ is => Stage.enabled is.1
  have progress : ∀ (stage : Stage T) (s : State T) (action : Action T) (t : State T), History s →
      stage.Is s ∧ .terminate ∈ s.pushed → step s action = some t →
        t.phase ≠ .running ∨ (∃ next : Stage T, next.rank < stage.rank ∧ next.Is t ∧ .terminate ∈ t.pushed) ∨
          ((stage.Is t ∧ .terminate ∈ t.pushed) ∧ actor action ≠ some stage.helper) := by
    intro stage s action t history is taken
    have told := (step_pushed taken).subset is.2
    rcases Stage.progress history is.2 is.1 taken with done | ⟨next, smaller, begins⟩ | ⟨same, other⟩
    · exact .inl done
    · exact .inr (.inl ⟨next, smaller, begins, told⟩)
    · exact .inr (.inr ⟨⟨same, told⟩, other⟩)
  exact Execution.eventually Stage.rank (always_history begins) fair enabled progress ⟨now, told⟩

variable (T) in
/-- A thread ends only after a `terminate`, and not before all that was pushed earlier has been taken; and
once there is a `terminate` all threads end and `run` returns, whatever else is pushed. -/
theorem terminate_ends_run :
    (∀ run : List (Action T), EachState step (fun s => ∀ worker, s.workers worker = .ended →
      ∃ rest, s.taken = s.pushed.takeWhile (· ≠ .terminate) ++ .terminate :: rest) run start) ∧
    ∀ execution : Execution (step (T := T)), execution.state 0 = start → execution.Fair actor →
      ∀ n, .terminate ∈ (execution.state n).pushed →
        ∃ m, n ≤ m ∧ (execution.state m).phase ≠ .running ∧ ∀ worker, (execution.state m).workers worker = .ended := by
  refine ⟨fun run => ?_, fun execution begins fair n told => ?_⟩
  · exact eachState_of_always (fun _ _ _ history taken => step_history history taken)
      (fun _ history _ ended => history.before ended) start_history
  · obtain ⟨m, later, returned⟩ := returns_eventually begins fair told
    exact ⟨m, later, returned, (always_history begins m).ended returned⟩

/-- Four threads end one after the other, and then the poll thread. -/
def wholeStop : List (Action (Fin 4)) :=
  [.push .terminate, .take 0, .leave 0, .take 1, .leave 1, .take 2, .leave 2, .take 3, .leave 3, .return_, .stop, .quiet,
    .join]

theorem wholeStop_goes : (runAll step wholeStop (start : State (Fin 4))).isSome := by decide +kernel

/-- When everything has stopped nobody goes on. -/
theorem stopped_rests (ended : ∀ worker, s.workers worker = .ended) (poller : s.poller = .ended)
    (stopped : s.phase = .stopped) (agent : Agent T) : ¬Enabled actor step agent s := by
  rintro ⟨action, t, acts, taken⟩
  rcases step_cases taken with works | elsewhere
  · cases works with
    | take worker event events waiting queued => cases (ended worker).symm.trans waiting
    | finish worker event handling => cases (ended worker).symm.trans handling
    | set worker reporting => cases (ended worker).symm.trans reporting
    | leave worker leaving => cases (ended worker).symm.trans leaving
  · cases elsewhere with
    | push event other => cases acts
    | ready polling => cases acts
    | quiet polling => cases poller.symm.trans polling
    | failed polling => cases acts
    | report pushing => cases poller.symm.trans pushing
    | wake awaiting polled => cases poller.symm.trans awaiting
    | clear clearing => cases poller.symm.trans clearing
    | return_ running _ => cases stopped.symm.trans running
    | stop returned => cases stopped.symm.trans returned
    | join joining _ => cases stopped.symm.trans joining

theorem wholeStop_rests (agent : Agent (Fin 4)) :
    ¬Enabled actor step agent ((runAll step wholeStop start).get wholeStop_goes) :=
  stopped_rests (by decide +kernel) rfl rfl agent

theorem four_threads_end :
    ∃ execution : Execution (step (T := Fin 4)), execution.state 0 = start ∧ execution.Fair actor ∧
      .terminate ∈ (execution.state 1).pushed ∧ ∃ m, ∀ worker, (execution.state m).workers worker = .ended := by
  refine ⟨.ofRun wholeStop start wholeStop_goes, rfl, Execution.ofRun_fair _ _ _ wholeStop_rests,
    List.mem_cons_self, ?_⟩
  obtain ⟨m, _, _, ended⟩ := (terminate_ends_run (Fin 4)).2 _ rfl
    (Execution.ofRun_fair _ _ wholeStop_goes wholeStop_rests) 1 List.mem_cons_self
  exact ⟨m, ended⟩

end Vanity.Events
