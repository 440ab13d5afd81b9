import Vanity.Events.Shutdown
import Mathlib.Algebra.GroupWithZero.Nat

/-!
# The poll thread

Without a `terminate` every event is taken some time, and the poll thread gets its answer and polls again.
After `run` nobody answers any more: a report made too late keeps the poll thread waiting, and `stop` waits
for the poll thread.
-/

namespace Vanity.Events

variable {T : Type} [DecidableEq T] [Fintype T] {s t : State T}

/-! ### Every event is taken -/

/-- No `terminate` has come. -/
structure Calm (s : State T) : Prop where
  inv : Inv s
  history : History s
  untold : .terminate ∉ s.pushed

omit [DecidableEq T] in
theorem Calm.pending (calm : Calm s) (worker : T) : ∃ turns, (s.workers worker).pending = some turns := by
  have stays : ∀ now, now = .leaving ∨ now = .ended → s.workers worker ≠ now := by
    rintro now gone rfl
    have told := calm.history.told worker gone
    refine calm.untold ?_
    rw [← calm.history.fifo, List.append_assoc]
    exact List.mem_append_left _ told
  rcases pending_or_leaving (stays .ended (.inr rfl)) with leaving | pending
  · exact absurd leaving (stays .leaving (.inl rfl))
  · exact pending

omit [DecidableEq T] in
theorem Calm.running (calm : Calm s) (first : T) : s.phase = .running := by
  obtain ⟨turns, pending⟩ := calm.pending first
  have alive : s.workers first ≠ .ended := by
    intro ended
    rw [ended] at pending
    cases pending
  exact calm.history.running alive

omit [DecidableEq T] in
theorem Calm.fifo (calm : Calm s) (first : T) : s.taken ++ s.events = s.pushed := by
  have fifo := calm.history.fifo
  rwa [calm.history.whole (calm.running first), List.append_nil] at fifo

theorem step_untold {action : Action T} (calm : Calm s) (other : action ≠ .push .terminate)
    (taken : step s action = some t) : Calm t := by
  refine ⟨step_inv calm.inv taken, step_history calm.history taken, ?_⟩
  have untold := calm.untold
  rcases step_cases taken with works | elsewhere
  · cases works with
    | leave worker leaving =>
      obtain ⟨turns, pending⟩ := calm.pending worker
      rw [leaving] at pending
      cases pending
    | _ => exact untold
  · cases elsewhere with
    | push event _ =>
      have different : event ≠ .terminate := fun same => other (same ▸ rfl)
      simpa [State.pushEvent, Ne.symm different] using untold
    | report pushing => simpa [State.pushEvent] using untold
    | _ => exact untold

variable {execution : Execution (step (T := T))}

theorem always_calm (begins : execution.state 0 = start)
    (untold : ∀ n, execution.action n ≠ some (.push .terminate)) (n : ℕ) : Calm (execution.state n) := by
  refine execution.stays Calm (n := 0) (begins ▸ ⟨start_inv, start_history, List.not_mem_nil⟩) ?_ (Nat.zero_le n)
  intro m action _ happens calm taken
  exact step_untold calm (fun same => untold m (happens.trans (congrArg some same))) taken

/-- The workers come back for the next event, and `run` goes on. -/
theorem Calm.goes_on {action : Action T} (calm : Calm s) (first : T) (taken : step s action = some t) :
    t.phase = .running ∧ ∃ turns, (t.workers first).pending = some turns := by
  have running : t.phase = .running := by
    rcases step_cases taken with works | elsewhere
    · cases works <;> exact calm.running first
    · cases elsewhere with
      | return_ _ ended =>
        obtain ⟨turns, pending⟩ := calm.pending first
        rw [ended first] at pending
        cases pending
      | stop returned => cases (calm.running first).symm.trans returned
      | join joining _ => cases (calm.running first).symm.trans joining
      | _ => exact calm.running first
  obtain ⟨turns, pending⟩ := calm.pending first
  refine ⟨running, ?_⟩
  rcases step_pending pending taken running with leaving | later
  · -- it would have taken a `terminate`
    have told := (step_history calm.history taken).told first (.inl leaving)
    rcases step_events taken running with ⟨_, event, _, _, queue, _, counted⟩ | ⟨_, _, _, same⟩
    · have pushed : .terminate ∈ s.taken ++ s.events := by
        rw [counted] at told
        rw [queue, List.append_cons]
        exact List.mem_append_left _ told
      exact absurd (calm.fifo first ▸ pushed) calm.untold
    · rw [same] at told
      exact absurd (calm.fifo first ▸ List.mem_append_left _ told) calm.untold
  · exact later

/-- So many events are before the one at this number, and the worker has so many steps to do before it takes
one. -/
def Approaches (number : ℕ) (first : T) (way : ℕ × ℕ) (s : State T) : Prop :=
  s.taken.length + way.1 = number ∧ number < s.pushed.length ∧ (s.workers first).pending = some way.2

theorem approaches_enabled {number : ℕ} {first : T} {way : ℕ × ℕ} (calm : Calm s) (is : Approaches number first way s) :
    Enabled actor step (.worker first) s := by
  obtain ⟨distance, pushed, pending⟩ := is
  refine worker_enabled pending fun empty => ?_
  rw [← calm.fifo first, empty, List.append_nil] at pushed
  omega

theorem approaches_progress {number : ℕ} {first : T} {way : ℕ × ℕ} {action : Action T} (calm : Calm s)
    (is : Approaches number first way s) (taken : step s action = some t) :
    number < t.taken.length ∨ (∃ next : ℕ × ℕ, toLex next < toLex way ∧ Approaches number first next t) ∨
      (Approaches number first way t ∧ actor action ≠ some (.worker first)) := by
  obtain ⟨distance, pushed, pending⟩ := is
  have pushed : number < t.pushed.length := pushed.trans_le (step_pushed taken).length_le
  obtain ⟨running, turns, later⟩ := calm.goes_on first taken
  rcases step_events taken running with ⟨who, event, rfl, _, queue, takes, counted⟩ | ⟨untaken, _, _, same⟩
  · have longer : t.taken.length = s.taken.length + 1 := by rw [counted, List.length_append, List.length_singleton]
    by_cases reached : number < t.taken.length
    · exact .inl reached
    · refine .inr (.inl ⟨(way.1 - 1, turns), Prod.Lex.toLex_lt_toLex.mpr (.inl ?_), ?_, pushed, later⟩)
      · show way.1 - 1 < way.1
        omega
      · show t.taken.length + (way.1 - 1) = number
        omega
  · by_cases acts : actor action = some (.worker first)
    · obtain ⟨fewer, less, later⟩ := step_turns acts (untaken first) pending taken
      exact .inr (.inl ⟨(way.1, fewer), Prod.Lex.toLex_lt_toLex.mpr (.inr ⟨rfl, less⟩), same ▸ distance, pushed, later⟩)
    · refine .inr (.inr ⟨⟨same ▸ distance, pushed, ?_⟩, acts⟩)
      rw [step_frame acts taken]
      exact pending

theorem taken_eventually (first : T) (always : ∀ n, Calm (execution.state n)) (fair : execution.Fair actor) {number n : ℕ}
    (pushed : number < (execution.state n).pushed.length) :
    ∃ m, n ≤ m ∧ number < (execution.state m).taken.length := by
  by_cases reached : number < (execution.state n).taken.length
  case pos => exact ⟨n, le_rfl, reached⟩
  obtain ⟨turns, pending⟩ := (always n).pending first
  have now : Approaches number first (number - (execution.state n).taken.length, turns) (execution.state n) :=
    ⟨by omega, pushed, pending⟩
  have enabled : ∀ (way : ℕ × ℕ) (s : State T), Calm s → Approaches number first way s →
      Enabled actor step (Agent.worker first) s := fun _ _ calm is => approaches_enabled calm is
  exact Execution.eventually toLex always fair enabled
    (fun _ _ _ _ calm is taken => approaches_progress calm is taken) now

/-! ### The poll thread gets its answer -/

/-- Where the report of the poll thread is. -/
inductive Trip (T : Type) where
  | queued (position turns : ℕ)
  | carried (worker : T) (turns : ℕ)
  | set
  | clearing

def Trip.helper (first : T) : Trip T → Agent T
  | .queued _ _ => .worker first
  | .carried worker _ => .worker worker
  | .set => .poller
  | .clearing => .poller

def Trip.rank : Trip T → ℕ ×ₗ ℕ ×ₗ ℕ
  | .queued position turns => toLex (3, toLex (position, turns))
  | .carried _ turns => toLex (2, toLex (turns, 0))
  | .set => toLex (1, toLex (0, 0))
  | .clearing => toLex (0, toLex (0, 0))

def Trip.Is (first : T) (s : State T) : Trip T → Prop
  | .queued position turns =>
    s.poller = .awaiting ∧ s.events[position]? = some .epollReady ∧ (s.workers first).pending = some turns
  | .carried worker turns =>
    s.poller = .awaiting ∧ (s.workers worker).carries = 1 ∧ (s.workers worker).pending = some turns
  | .set => s.poller = .awaiting ∧ s.polled = true
  | .clearing => s.poller = .clearing

omit [DecidableEq T] in
theorem Calm.trip (calm : Calm s) (first : T) (awaiting : s.poller = .awaiting) : ∃ trip : Trip T, trip.Is first s := by
  have one := calm.inv.kept (calm.running first) awaiting
  by_cases polled : s.polled = true
  · exact ⟨.set, awaiting, polled⟩
  by_cases queued : .epollReady ∈ s.events
  · obtain ⟨position, found⟩ := List.mem_iff_getElem?.mp queued
    obtain ⟨turns, pending⟩ := calm.pending first
    exact ⟨.queued position turns, awaiting, found, pending⟩
  have carried : s.carried ≠ 0 := by
    simp only [State.reports, List.count_eq_zero.mpr queued, Bool.not_eq_true _ ▸ polled, Bool.toNat_false] at one
    omega
  obtain ⟨worker, _, carries⟩ := Finset.exists_ne_zero_of_sum_ne_zero carried
  obtain ⟨turns, pending⟩ := calm.pending worker
  refine ⟨.carried worker turns, awaiting, ?_, pending⟩
  have few := carries_le s worker
  have once := calm.inv.once
  simp only [State.reports] at once
  omega

theorem step_awaiting {action : Action T} (awaiting : s.poller = .awaiting) (taken : step s action = some t) :
    t.poller = .clearing ∨ (t.poller = .awaiting ∧ actor action ≠ some .poller ∧ (s.polled = true → t.polled = true)) := by
  rcases step_cases taken with works | elsewhere
  · right
    cases works with
    | set worker reporting => exact ⟨awaiting, nofun, fun _ => rfl⟩
    | _ => exact ⟨awaiting, nofun, id⟩
  · cases elsewhere with
    | ready polling => cases awaiting.symm.trans polling
    | quiet polling => cases awaiting.symm.trans polling
    | report pushing => cases awaiting.symm.trans pushing
    | wake _ polled => exact .inl rfl
    | clear clearing => cases awaiting.symm.trans clearing
    | _ => exact .inr ⟨awaiting, nofun, id⟩

theorem step_clearing {action : Action T} (clearing : s.poller = .clearing) (taken : step s action = some t) :
    t.poller = .polling ∨ (t.poller = .clearing ∧ actor action ≠ some .poller) := by
  rcases step_cases taken with works | elsewhere
  · cases works <;> exact .inr ⟨clearing, nofun⟩
  · cases elsewhere with
    | ready polling => cases clearing.symm.trans polling
    | quiet polling => cases clearing.symm.trans polling
    | report pushing => cases clearing.symm.trans pushing
    | wake awaiting _ => cases clearing.symm.trans awaiting
    | clear _ => exact .inl rfl
    | _ => exact .inr ⟨clearing, nofun⟩

/-- The worker with the report goes on to set `m_polled`. -/
theorem step_carries {action : Action T} {worker : T} {turns : ℕ} (carries : (s.workers worker).carries = 1)
    (pending : (s.workers worker).pending = some turns) (acts : actor action = some (.worker worker))
    (taken : step s action = some t) :
    t.polled = true ∨ ((t.workers worker).carries = 1 ∧ ∃ fewer < turns, (t.workers worker).pending = some fewer) := by
  rcases step_cases taken with works | elsewhere
  · cases works with
    | take who event events waiting queued =>
      cases acts
      rw [waiting] at carries
      cases carries
    | finish who event handling =>
      cases acts
      have acts : actor (.finish worker) = some (.worker worker) := rfl
      refine .inr ⟨?_, step_turns acts nofun pending taken⟩
      rw [become_same, carries_finish, ← handling]
      exact carries
    | set who reporting => exact .inl rfl
    | leave who leaving =>
      cases acts
      rw [leaving] at carries
      cases carries
  · cases elsewhere <;> cases acts

theorem Trip.enabled {first : T} {trip : Trip T} (is : trip.Is first s) : Enabled actor step (trip.helper first) s := by
  cases trip with
  | queued position turns =>
    refine worker_enabled is.2.2 fun empty => ?_
    have found := is.2.1
    rw [empty] at found
    cases found
  | carried worker turns =>
    obtain ⟨_, carries, pending⟩ := is
    cases at_ : s.workers worker with
    | handling event => exact enabled_of_isSome actor (a := .finish worker) rfl (by simp [step, at_])
    | reporting => exact enabled_of_isSome actor (a := .set worker) rfl (by simp [step, at_])
    | _ =>
      rw [at_] at carries
      cases carries
  | set => exact enabled_of_isSome actor (a := .wake) rfl (by simp [step, is.1, is.2])
  | clearing =>
    have clearing : s.poller = .clearing := is
    exact enabled_of_isSome actor (a := .clear) rfl (by simp [step, clearing])

theorem Trip.progress {first : T} {trip : Trip T} {action : Action T} (calm : Calm s) (is : trip.Is first s)
    (taken : step s action = some t) :
    t.poller = .polling ∨ (∃ next : Trip T, next.rank < trip.rank ∧ next.Is first t) ∨
      (trip.Is first t ∧ actor action ≠ some (trip.helper first)) := by
  -- the poll thread stays where it is but for the two last stages
  have woken : ∀ {trip : Trip T}, 0 < trip.rank.1 → t.poller = .clearing →
      ∃ next : Trip T, next.rank < trip.rank ∧ next.Is first t := by
    intro trip behind clearing
    exact ⟨.clearing, Prod.Lex.lt_iff.mpr (.inl behind), clearing⟩
  cases trip with
  | queued position turns =>
    obtain ⟨awaiting, found, pending⟩ := is
    rcases step_awaiting awaiting taken with clearing | ⟨awaiting, _, _⟩
    · exact .inr (.inl (woken (Nat.succ_pos 2) clearing))
    obtain ⟨running, later, returns⟩ := calm.goes_on first taken
    rcases step_events taken running with ⟨who, event, rfl, _, queue, takes, _⟩ | ⟨untaken, more, grown, _⟩
    · rw [queue] at found
      by_cases report : event = .epollReady
      · subst report
        refine .inr (.inl ⟨.carried who 2, Prod.Lex.toLex_lt_toLex.mpr (.inl (Nat.lt_succ_self 2)), awaiting, ?_, ?_⟩)
        · rw [takes]
          rfl
        · rw [takes]
          rfl
      · cases position with
        | zero => exact absurd (Option.some.inj found) report
        | succ position =>
          refine .inr (.inl ⟨.queued position later, ?_, awaiting, by simpa using found, returns⟩)
          exact Prod.Lex.toLex_lt_toLex.mpr (.inr ⟨rfl,
            Prod.Lex.toLex_lt_toLex.mpr (.inl (Nat.lt_succ_self position))⟩)
    · have found : t.events[position]? = some .epollReady := by
        rw [grown, List.getElem?_append_left (List.getElem?_eq_some_iff.mp found).1]
        exact found
      by_cases acts : actor action = some (.worker first)
      · obtain ⟨fewer, less, pending⟩ := step_turns acts (untaken first) pending taken
        refine .inr (.inl ⟨.queued position fewer, ?_, awaiting, found, pending⟩)
        exact Prod.Lex.toLex_lt_toLex.mpr (.inr ⟨rfl, Prod.Lex.toLex_lt_toLex.mpr (.inr ⟨rfl, less⟩)⟩)
      · refine .inr (.inr ⟨⟨awaiting, found, ?_⟩, acts⟩)
        rw [step_frame acts taken]
        exact pending
  | carried worker turns =>
    obtain ⟨awaiting, carries, pending⟩ := is
    rcases step_awaiting awaiting taken with clearing | ⟨awaiting, _, _⟩
    · exact .inr (.inl (woken (Nat.succ_pos 1) clearing))
    by_cases acts : actor action = some (.worker worker)
    · rcases step_carries carries pending acts taken with polled | ⟨carries, fewer, less, pending⟩
      · exact .inr (.inl ⟨.set, Prod.Lex.toLex_lt_toLex.mpr (.inl (Nat.lt_succ_self 1)), awaiting, polled⟩)
      · refine .inr (.inl ⟨.carried worker fewer, ?_, awaiting, carries, pending⟩)
        exact Prod.Lex.toLex_lt_toLex.mpr (.inr ⟨rfl, Prod.Lex.toLex_lt_toLex.mpr (.inl less)⟩)
    · refine .inr (.inr ⟨⟨awaiting, ?_, ?_⟩, acts⟩)
      · rw [step_frame acts taken]
        exact carries
      · rw [step_frame acts taken]
        exact pending
  | set =>
    obtain ⟨awaiting, polled⟩ := is
    rcases step_awaiting awaiting taken with clearing | ⟨awaiting, other, keeps⟩
    · exact .inr (.inl (woken Nat.zero_lt_one clearing))
    · exact .inr (.inr ⟨⟨awaiting, keeps polled⟩, other⟩)
  | clearing =>
    rcases step_clearing is taken with polling | ⟨clearing, other⟩
    · exact .inl polling
    · exact .inr (.inr ⟨clearing, other⟩)

variable (T) in
/-- Unless the server is told to stop, every event is taken some time, in the order in which they were pushed,
and a poll thread that has reported polls again. -/
theorem reports_answered [Nonempty T] (execution : Execution (step (T := T))) (begins : execution.state 0 = start)
    (fair : execution.Fair actor) (untold : ∀ n, execution.action n ≠ some (.push .terminate)) (n : ℕ) :
    (execution.state n).taken <+: (execution.state n).pushed ∧
      (∀ number < (execution.state n).pushed.length, ∃ m, n ≤ m ∧ number < (execution.state m).taken.length) ∧
      ((execution.state n).poller = .awaiting → ∃ m, n ≤ m ∧ (execution.state m).poller = .polling) := by
  obtain ⟨first⟩ := ‹Nonempty T›
  have always := always_calm begins untold
  refine ⟨⟨_, (always n).fifo first⟩, fun number pushed => taken_eventually first always fair pushed, fun awaiting => ?_⟩
  obtain ⟨trip, now⟩ := (always n).trip first awaiting
  exact Execution.eventually Trip.rank always fair (fun _ _ _ is => Trip.enabled is)
    (fun _ _ _ _ calm is taken => Trip.progress calm is taken) now

local instance neZero_threads : NeZero 4 := inferInstance

/-- The poll thread reports once, is answered, and has nothing to report any more. -/
def oneReport : List (Action (Fin 4)) := [.ready, .report, .take 2, .finish 2, .set 2, .wake, .clear]

theorem oneReport_goes : (runAll step oneReport (start : State (Fin 4))).isSome := by decide +kernel

theorem oneReport_rests (agent : Agent (Fin 4)) (other : actor (T := Fin 4) .quiet ≠ some agent) :
    ¬Enabled actor step agent ((runAll step oneReport start).get oneReport_goes) := by
  rintro ⟨action, t, acts, taken⟩
  have waiting : ∀ worker, ((runAll step oneReport start).get oneReport_goes).workers worker = .waiting := by
    decide +kernel
  rcases step_cases taken with works | elsewhere
  · cases works with
    | take worker event events _ queued => cases queued
    | finish worker event handling => cases (waiting worker).symm.trans handling
    | set worker reporting => cases (waiting worker).symm.trans reporting
    | leave worker leaving => cases (waiting worker).symm.trans leaving
  · cases elsewhere with
    | quiet polling => exact other acts
    | report pushing => cases pushing
    | wake awaiting _ => cases awaiting
    | clear clearing => cases clearing
    | return_ _ ended => cases (waiting 0).symm.trans (ended 0)
    | stop returned => cases returned
    | join joining _ => cases joining
    | _ => cases acts

theorem oneReport_untold (n : ℕ) : some (oneReport[n]?.getD .quiet) ≠ some (.push .terminate) := by
  have others : ∀ action ∈ oneReport, action ≠ .push .terminate := by simp [oneReport]
  cases found : oneReport[n]? with
  | none => nofun
  | some action => exact fun same => others action (List.mem_of_getElem? found) (Option.some.inj same)

theorem one_report_answered :
    ∃ execution : Execution (step (T := Fin 4)), execution.state 0 = start ∧ execution.Fair actor ∧
      (execution.state 2).poller = .awaiting ∧ ∃ m, 2 ≤ m ∧ (execution.state m).poller = .polling := by
  refine ⟨.ofLoop oneReport start oneReport_goes .quiet rfl, rfl,
    Execution.ofLoop_fair _ _ _ _ rfl oneReport_rests, rfl, ?_⟩
  exact (reports_answered (Fin 4) (.ofLoop oneReport start oneReport_goes .quiet rfl) rfl
    (Execution.ofLoop_fair _ _ _ _ rfl oneReport_rests) oneReport_untold 2).2.2 rfl

/-! ### The end of `stop` -/

/-- What `stop` relies on. -/
structure Closing (s : State T) : Prop where
  inv : Inv s
  history : History s
  told : s.phase = .joining → s.running = false
  joined : s.phase = .stopped → s.poller = .ended

omit [DecidableEq T] in
theorem start_closing : Closing (start : State T) := ⟨start_inv, start_history, (nomatch ·), (nomatch ·)⟩

theorem step_closing {action : Action T} (closing : Closing s) (taken : step s action = some t) : Closing t := by
  refine ⟨step_inv closing.inv taken, step_history closing.history taken, ?_, ?_⟩
  · have told := closing.told
    rcases step_cases taken with works | elsewhere
    · cases works <;> exact told
    · cases elsewhere with
      | return_ _ _ => exact (nomatch ·)
      | stop _ => exact fun _ => rfl
      | join _ _ => exact (nomatch ·)
      | _ => exact told
  · have joined := closing.joined
    rcases step_cases taken with works | elsewhere
    · cases works <;> exact joined
    · cases elsewhere with
      | ready polling => exact fun stopped => nomatch (joined stopped).symm.trans polling
      | quiet polling => exact fun stopped => nomatch (joined stopped).symm.trans polling
      | report pushing => exact fun stopped => nomatch (joined stopped).symm.trans pushing
      | wake awaiting _ => exact fun stopped => nomatch (joined stopped).symm.trans awaiting
      | clear clearing => exact fun stopped => nomatch (joined stopped).symm.trans clearing
      | return_ _ _ => exact (nomatch ·)
      | stop _ => exact (nomatch ·)
      | join _ ended => exact fun _ => ended
      | _ => exact joined

/-- The poll thread waits, or is about to wait, for an answer that nobody has given. -/
def Unanswered (s : State T) : Prop := s.poller = .pushing ∨ (s.poller = .awaiting ∧ s.polled = false)

instance decidableUnanswered (s : State T) : Decidable (Unanswered s) := inferInstanceAs (Decidable (_ ∨ _))

theorem step_over {action : Action T} (stopped : s.phase ≠ .running) (taken : step s action = some t) :
    t.phase ≠ .running := by
  rcases step_cases taken with works | elsewhere
  · cases works <;> exact stopped
  · cases elsewhere with
    | return_ _ _ => nofun
    | stop _ => nofun
    | join _ _ => nofun
    | _ => exact stopped

/-- All workers have ended: nobody sets `m_polled`. -/
theorem step_unanswered {action : Action T} (closing : Closing s) (over_ : s.phase ≠ .running)
    (unanswered : Unanswered s) (taken : step s action = some t) : Unanswered t := by
  have ended := closing.history.ended over_
  rcases step_cases taken with works | elsewhere
  · cases works with
    | set worker reporting => cases (ended worker).symm.trans reporting
    | _ => exact unanswered
  · cases elsewhere with
    | ready polling => exact .inl rfl
    | quiet polling => rcases unanswered with other | ⟨other, _⟩ <;> cases other.symm.trans polling
    | report pushing =>
      have none_ := closing.inv.answered (by rw [pushing]; decide) (by rw [pushing]; decide)
      refine .inr ⟨rfl, ?_⟩
      show s.polled = false
      cases polled : s.polled with
      | false => rfl
      | true =>
        simp only [State.reports, polled, Bool.toNat_true] at none_
        omega
    | wake awaiting polled =>
      rcases unanswered with other | ⟨_, unset⟩
      · cases awaiting.symm.trans other
      · cases unset.symm.trans polled
    | clear clearing => rcases unanswered with other | ⟨other, _⟩ <;> cases other.symm.trans clearing
    | _ => exact unanswered

theorem step_returned {action : Action T} (returned : s.phase = .returned) (taken : step s action = some t) :
    t.phase = .joining ∨ (t.phase = .returned ∧ actor action ≠ some .main) := by
  rcases step_cases taken with works | elsewhere
  · cases works <;> exact .inr ⟨returned, nofun⟩
  · cases elsewhere with
    | return_ running _ => cases returned.symm.trans running
    | stop _ => exact .inl rfl
    | join joining _ => cases returned.symm.trans joining
    | _ => exact .inr ⟨returned, nofun⟩

theorem step_joining {action : Action T} (joining : s.phase = .joining) (taken : step s action = some t) :
    t.phase = .stopped ∨ (t.phase = .joining ∧ actor action ≠ some .main) := by
  rcases step_cases taken with works | elsewhere
  · cases works <;> exact .inr ⟨joining, nofun⟩
  · cases elsewhere with
    | return_ running _ => cases joining.symm.trans running
    | stop returned => cases joining.symm.trans returned
    | join _ _ => exact .inl rfl
    | _ => exact .inr ⟨joining, nofun⟩

theorem step_stopped {action : Action T} (stopped : s.phase = .stopped) (taken : step s action = some t) :
    t.phase = .stopped := by
  rcases step_cases taken with works | elsewhere
  · cases works <;> exact stopped
  · cases elsewhere with
    | return_ running _ => cases stopped.symm.trans running
    | stop returned => cases stopped.symm.trans returned
    | join _ _ => rfl
    | _ => exact stopped

theorem step_polling {action : Action T} (polling : s.poller = .polling) (told : s.running = false)
    (taken : step s action = some t) :
    t.poller = .pushing ∨ t.poller = .ended ∨ (t.poller = .polling ∧ actor action ≠ some .clock) := by
  rcases step_cases taken with works | elsewhere
  · cases works <;> exact .inr (.inr ⟨polling, nofun⟩)
  · cases elsewhere with
    | ready _ => exact .inl rfl
    | quiet _ => exact .inr (.inl (by rw [told]; rfl))
    | report pushing => cases polling.symm.trans pushing
    | wake awaiting _ => cases polling.symm.trans awaiting
    | clear clearing => cases polling.symm.trans clearing
    | _ => exact .inr (.inr ⟨polling, nofun⟩)

theorem step_ended {action : Action T} (ended : s.poller = .ended) (taken : step s action = some t) : t.poller = .ended := by
  rcases step_cases taken with works | elsewhere
  · cases works <;> exact ended
  · cases elsewhere with
    | ready polling => cases ended.symm.trans polling
    | quiet polling => cases ended.symm.trans polling
    | report pushing => cases ended.symm.trans pushing
    | wake awaiting _ => cases ended.symm.trans awaiting
    | clear clearing => cases ended.symm.trans clearing
    | _ => exact ended

/-- What is left to do in `stop`. -/
inductive Ending where
  | returned
  | awaiting
  | clearing
  | polling
  | ended

def Ending.rank : Ending → ℕ
  | .returned => 4
  | .awaiting => 3
  | .clearing => 2
  | .polling => 1
  | .ended => 0

def Ending.helper : Ending → Agent T
  | .returned => .main
  | .awaiting => .poller
  | .clearing => .poller
  | .polling => .clock
  | .ended => .main

def Ending.Is (s : State T) : Ending → Prop
  | .returned => s.phase = .returned
  | .awaiting => s.phase = .joining ∧ s.poller = .awaiting ∧ s.polled = true
  | .clearing => s.phase = .joining ∧ s.poller = .clearing
  | .polling => s.phase = .joining ∧ s.poller = .polling
  | .ended => s.phase = .joining ∧ s.poller = .ended

omit [DecidableEq T] [Fintype T] in
theorem joining_ending (joining : s.phase = .joining) (answered : ¬Unanswered s) :
    ∃ ending : Ending, ending.rank < 4 ∧ ending.Is s := by
  cases poller : s.poller with
  | polling => exact ⟨.polling, by decide, joining, poller⟩
  | pushing => exact absurd (.inl poller) answered
  | awaiting =>
    have polled : s.polled = true := by
      by_contra unset
      exact answered (.inr ⟨poller, Bool.not_eq_true _ ▸ unset⟩)
    exact ⟨.awaiting, by decide, joining, poller, polled⟩
  | clearing => exact ⟨.clearing, by decide, joining, poller⟩
  | ended => exact ⟨.ended, by decide, joining, poller⟩

theorem Ending.enabled {ending : Ending} (is : ending.Is s) : Enabled actor step ending.helper s := by
  cases ending with
  | returned =>
    have returned : s.phase = .returned := is
    exact enabled_of_isSome actor (a := .stop) rfl (by simp [step, returned])
  | awaiting => exact enabled_of_isSome actor (a := .wake) rfl (by simp [step, is.2.1, is.2.2])
  | clearing => exact enabled_of_isSome actor (a := .clear) rfl (by simp [step, is.2])
  | polling => exact enabled_of_isSome actor (a := .quiet) rfl (by simp [step, is.2])
  | ended => exact enabled_of_isSome actor (a := .join) rfl (by simp [step, is.1, is.2])

theorem Ending.progress {ending : Ending} {action : Action T} (closing : Closing s) (is : ending.Is s)
    (taken : step s action = some t) :
    (t.phase = .stopped ∨ Unanswered t) ∨ (∃ next : Ending, next.rank < ending.rank ∧ next.Is t) ∨
      (ending.Is t ∧ actor action ≠ some ending.helper) := by
  by_cases unanswered : Unanswered t
  case pos => exact .inl (.inr unanswered)
  cases ending with
  | returned =>
    rcases step_returned is taken with joining | same
    · exact .inr (.inl (joining_ending joining unanswered))
    · exact .inr (.inr same)
  | awaiting =>
    obtain ⟨joining, awaiting, polled⟩ := is
    rcases step_joining joining taken with stopped | ⟨joining, _⟩
    · exact .inl (.inl stopped)
    rcases step_awaiting awaiting taken with clearing | ⟨awaiting, other, keeps⟩
    · exact .inr (.inl ⟨.clearing, by decide, joining, clearing⟩)
    · exact .inr (.inr ⟨⟨joining, awaiting, keeps polled⟩, other⟩)
  | clearing =>
    obtain ⟨joining, clearing⟩ := is
    rcases step_joining joining taken with stopped | ⟨joining, _⟩
    · exact .inl (.inl stopped)
    rcases step_clearing clearing taken with polling | ⟨clearing, other⟩
    · exact .inr (.inl ⟨.polling, by decide, joining, polling⟩)
    · exact .inr (.inr ⟨⟨joining, clearing⟩, other⟩)
  | polling =>
    obtain ⟨joining, polling⟩ := is
    have told := closing.told joining
    rcases step_joining joining taken with stopped | ⟨joining, _⟩
    · exact .inl (.inl stopped)
    rcases step_polling polling told taken with pushing | ended | ⟨polling, other⟩
    · exact absurd (.inl pushing) unanswered
    · exact .inr (.inl ⟨.ended, by decide, joining, ended⟩)
    · exact .inr (.inr ⟨⟨joining, polling⟩, other⟩)
  | ended =>
    obtain ⟨joining, ended⟩ := is
    rcases step_joining joining taken with stopped | ⟨joining, other⟩
    · exact .inl (.inl stopped)
    · exact .inr (.inr ⟨⟨joining, step_ended ended taken⟩, other⟩)

theorem stop_ends (always : ∀ n, Closing (execution.state n)) (fair : execution.Fair actor) {n : ℕ}
    (over_ : (execution.state n).phase ≠ .running) (answered : ¬Unanswered (execution.state n)) :
    ∃ m, n ≤ m ∧ ((execution.state m).phase = .stopped ∨ Unanswered (execution.state m)) := by
  have rule : ∀ ending : Ending, ending.Is (execution.state n) →
      ∃ m, n ≤ m ∧ ((execution.state m).phase = .stopped ∨ Unanswered (execution.state m)) := by
    intro ending now
    exact Execution.eventually Ending.rank always fair (fun _ _ _ is => Ending.enabled is)
      (fun _ _ _ _ closing is taken => Ending.progress closing is taken) now
  cases at_ : (execution.state n).phase with
  | running => exact absurd at_ over_
  | returned => exact rule .returned at_
  | joining =>
    obtain ⟨ending, _, now⟩ := joining_ending at_ answered
    exact rule ending now
  | stopped => exact ⟨n, le_rfl, .inl at_⟩

theorem step_answered {action : Action T} (other : action ≠ .ready) (answered : ¬Unanswered s)
    (taken : step s action = some t) : ¬Unanswered t := by
  rcases step_cases taken with works | elsewhere
  · cases works with
    | set worker reporting =>
      rintro (pushing | ⟨_, unset⟩)
      · exact answered (.inl pushing)
      · cases unset
    | _ => exact answered
  · cases elsewhere with
    | ready _ => exact absurd rfl other
    | quiet _ =>
      rintro (pushing | ⟨awaiting, _⟩)
      · dsimp only at pushing
        split at pushing <;> cases pushing
      · dsimp only at awaiting
        split at awaiting <;> cases awaiting
    | report pushing => exact absurd (.inl pushing) answered
    | wake _ _ => exact fun unanswered => by rcases unanswered with other | ⟨other, _⟩ <;> cases other
    | clear _ => exact fun unanswered => by rcases unanswered with other | ⟨other, _⟩ <;> cases other
    | _ => exact answered

theorem ready_unanswered (taken : step s .ready = some t) : s.poller = .polling ∧ Unanswered t := by
  rcases step_cases taken with works | elsewhere
  · cases works
  · cases elsewhere with
    | ready polling => exact ⟨polling, .inl rfl⟩

variable (T) in
/-- After `run` the server comes to the end of `stop` exactly when the poll thread is not left with a report
that nobody has answered, and finds nothing more to report. -/
theorem stop_returns_iff (execution : Execution (step (T := T))) (begins : execution.state 0 = start)
    (fair : execution.Fair actor) (n : ℕ) (over_ : (execution.state n).phase ≠ .running) :
    (∃ m, (execution.state m).phase = .stopped) ↔
      ¬Unanswered (execution.state n) ∧ ∀ m, n ≤ m → execution.action m ≠ some .ready := by
  have always : ∀ m, Closing (execution.state m) :=
    execution.invariant (fun _ _ _ closing taken => step_closing closing taken) (begins ▸ start_closing)
  have remains : ∀ {m}, n ≤ m → (execution.state m).phase ≠ .running :=
    fun later => execution.stays (·.phase ≠ .running) over_ (fun _ _ _ _ stopped taken => step_over stopped taken) later
  constructor
  · rintro ⟨last, stopped⟩
    -- from any time after `run` on, the poll thread does not wait in vain
    have never : ∀ m, n ≤ m → ¬Unanswered (execution.state m) := by
      intro m later unanswered
      have still : Unanswered (execution.state (max m last)) :=
        execution.stays Unanswered unanswered (fun k _ after _ waits taken =>
          step_unanswered (always k) (remains (later.trans after)) waits taken) (le_max_left ..)
      have done : (execution.state (max m last)).phase = .stopped :=
        execution.stays (·.phase = .stopped) stopped (fun _ _ _ _ stopped taken => step_stopped stopped taken) (le_max_right ..)
      rcases still with other | ⟨other, _⟩ <;> cases ((always _).joined done).symm.trans other
    refine ⟨never n le_rfl, fun m later happens => ?_⟩
    have taken := execution.next m
    rw [happens] at taken
    exact never (m + 1) (by omega) (ready_unanswered taken).2
  · rintro ⟨answered, nothing⟩
    obtain ⟨m, later, stopped | unanswered⟩ := stop_ends always fair over_ answered
    · exact ⟨m, stopped⟩
    · refine absurd unanswered (execution.stays (¬Unanswered ·) answered (fun k action after happens answered taken => ?_) later)
      refine step_answered ?_ answered taken
      rintro rfl
      exact nothing k after happens

/-- A client connects when all threads have ended. -/
def lateReport : List (Action (Fin 4)) :=
  [.push .terminate, .take 0, .leave 0, .take 1, .leave 1, .take 2, .leave 2, .take 3, .leave 3, .return_, .ready, .report,
    .stop]

theorem lateReport_goes : (runAll step lateReport (start : State (Fin 4))).isSome := by decide +kernel

theorem lateReport_rests (agent : Agent (Fin 4)) :
    ¬Enabled actor step agent ((runAll step lateReport start).get lateReport_goes) := by
  rintro ⟨action, t, acts, taken⟩
  have ended : ∀ worker, ((runAll step lateReport start).get lateReport_goes).workers worker = .ended := by
    decide +kernel
  rcases step_cases taken with works | elsewhere
  · cases works with
    | take worker event events waiting _ => cases (ended worker).symm.trans waiting
    | finish worker event handling => cases (ended worker).symm.trans handling
    | set worker reporting => cases (ended worker).symm.trans reporting
    | leave worker leaving => cases (ended worker).symm.trans leaving
  · cases elsewhere with
    | quiet polling => cases polling
    | report pushing => cases pushing
    | wake _ polled => cases polled
    | clear clearing => cases clearing
    | return_ running _ => cases running
    | stop returned => cases returned
    | join _ ended => cases ended
    | _ => cases acts

theorem late_report_blocks_stop :
    (∃ execution : Execution (step (T := Fin 4)), execution.state 0 = start ∧ execution.Fair actor ∧
      (execution.state 10).phase ≠ .running ∧ ∃ m, (execution.state m).phase = .stopped) ∧
    ∃ execution : Execution (step (T := Fin 4)), execution.state 0 = start ∧ execution.Fair actor ∧
      (execution.state 10).phase ≠ .running ∧ ¬∃ m, (execution.state m).phase = .stopped := by
  constructor
  · refine ⟨.ofRun wholeStop start wholeStop_goes, rfl, Execution.ofRun_fair _ _ _ wholeStop_rests, nofun, ?_⟩
    refine (stop_returns_iff (Fin 4) _ rfl (Execution.ofRun_fair _ _ _ wholeStop_rests) 10 nofun).mpr
      ⟨?_, fun m _ ready => ?_⟩
    · rintro (other | ⟨other, _⟩) <;> cases other
    have others : ∀ action ∈ wholeStop, action ≠ .ready := by simp [wholeStop]
    exact others _ (List.mem_of_getElem? ready) rfl
  · refine ⟨.ofRun lateReport start lateReport_goes, rfl, Execution.ofRun_fair _ _ _ lateReport_rests, nofun, fun ends => ?_⟩
    exact ((stop_returns_iff (Fin 4) _ rfl (Execution.ofRun_fair _ _ _ lateReport_rests) 10 nofun).mp ends).2 10 le_rfl rfl

end Vanity.Events
