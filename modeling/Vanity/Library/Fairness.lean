import Vanity.Library.Runs
import Mathlib.Order.WellFounded

/-!
# Fair executions

An execution goes on for ever; at any time nothing may happen. Some actions are those of an agent, and an
execution is fair when an agent that can act does so after a while. `Execution.eventually` is the rule to
show that something happens in fair executions.
-/

namespace Vanity

variable {S A G : Type}

structure Execution (step : S → A → Option S) where
  state : ℕ → S
  action : ℕ → Option A
  next : ∀ n, (action n).elim (some (state n)) (step (state n)) = some (state (n + 1))

variable {step : S → A → Option S} (actor : A → Option G)

def Enabled (step : S → A → Option S) (agent : G) (s : S) : Prop := ∃ a t, actor a = some agent ∧ step s a = some t

theorem enabled_of_isSome {agent : G} {s : S} {a : A} (acts : actor a = some agent) (goes : (step s a).isSome) :
    Enabled actor step agent s :=
  let ⟨t, taken⟩ := Option.isSome_iff_exists.mp goes
  ⟨a, t, acts, taken⟩

namespace Execution

variable (execution : Execution step)

def Acts (agent : G) (n : ℕ) : Prop := ∃ a, execution.action n = some a ∧ actor a = some agent

/-- At no time is there an agent that could act from then on and never does. -/
def Fair : Prop :=
  ∀ agent n, ∃ m, n ≤ m ∧ (execution.Acts actor agent m ∨ ¬Enabled actor step agent (execution.state m))

variable {execution}

theorem next_cases (n : ℕ) :
    (execution.action n = none ∧ execution.state (n + 1) = execution.state n) ∨
      ∃ a, execution.action n = some a ∧ step (execution.state n) a = some (execution.state (n + 1)) := by
  have next := execution.next n
  cases happens : execution.action n with
  | none =>
    rw [happens] at next
    exact .inl ⟨rfl, (Option.some.inj next).symm⟩
  | some a =>
    rw [happens] at next
    exact .inr ⟨a, rfl, next⟩

theorem invariant {inv : S → Prop} (preserved : ∀ s a t, inv s → step s a = some t → inv t)
    (start : inv (execution.state 0)) (n : ℕ) : inv (execution.state n) := by
  induction n with
  | zero => exact start
  | succ n ih =>
    rcases next_cases n with ⟨_, same⟩ | ⟨a, _, taken⟩
    · rwa [same]
    · exact preserved _ a _ ih taken

/-- What holds now and is kept by the steps that are really taken holds from now on. -/
theorem stays (holds : S → Prop) {n : ℕ} (now : holds (execution.state n))
    (keeps : ∀ m a, n ≤ m → execution.action m = some a → holds (execution.state m) →
      step (execution.state m) a = some (execution.state (m + 1)) → holds (execution.state (m + 1)))
    {m : ℕ} (later : n ≤ m) : holds (execution.state m) := by
  induction m, later using Nat.le_induction with
  | base => exact now
  | succ m later ih =>
    rcases next_cases m with ⟨_, same⟩ | ⟨a, happens, taken⟩
    · rwa [same]
    · exact keeps m a later happens ih taken

variable {W O : Type} [Preorder O] [WellFoundedLT O] {helper : W → G} {phase : W → S → Prop}
  {inv goal : S → Prop} {actor}

/-- Each phase has an agent that can act as long as the phase lasts. A phase ends in one of smaller rank or
at the goal, and it ends when its agent acts. -/
theorem eventually (rank : W → O) (always : ∀ n, inv (execution.state n)) (fair : execution.Fair actor)
    (enabled : ∀ w s, inv s → phase w s → Enabled actor step (helper w) s)
    (progress : ∀ w s a t, inv s → phase w s → step s a = some t →
      goal t ∨ (∃ v, rank v < rank w ∧ phase v t) ∨ (phase w t ∧ actor a ≠ some (helper w)))
    {w : W} {n : ℕ} (now : phase w (execution.state n)) : ∃ m, n ≤ m ∧ goal (execution.state m) := by
  induction w using (InvImage.wf rank (wellFounded_lt (α := O))).induction generalizing n with
  | _ w ih =>
    obtain ⟨m, later, acts⟩ := fair (helper w) n
    -- up to `m` the phase has either lasted or come to an end
    have walk : ∀ k, n ≤ k → (∃ m, n ≤ m ∧ goal (execution.state m)) ∨ phase w (execution.state k) := by
      intro k reached
      induction k, reached using Nat.le_induction with
      | base => exact .inr now
      | succ k reached lasted =>
        rcases lasted with done | lasted
        · exact .inl done
        · rcases next_cases k with ⟨_, same⟩ | ⟨a, _, taken⟩
          · rw [same]
            exact .inr lasted
          · rcases progress w _ a _ (always k) lasted taken with reaches | ⟨v, smaller, next⟩ | ⟨still, _⟩
            · exact .inl ⟨k + 1, by omega, reaches⟩
            · obtain ⟨m, after, reaches⟩ := ih v smaller next
              exact .inl ⟨m, by omega, reaches⟩
            · exact .inr still
    rcases walk m later with done | lasted
    · exact done
    · rcases acts with ⟨a, happens, helps⟩ | disabled
      · rcases next_cases m with ⟨nothing, _⟩ | ⟨b, something, taken⟩
        · rw [happens] at nothing
          cases nothing
        · rw [happens] at something
          cases something
          rcases progress w _ a _ (always m) lasted taken with reaches | ⟨v, smaller, next⟩ | ⟨_, idle⟩
          · exact ⟨m + 1, by omega, reaches⟩
          · obtain ⟨k, after, reaches⟩ := ih v smaller next
            exact ⟨k, by omega, reaches⟩
          · exact absurd helps idle
      · exact absurd (enabled w _ (always m) lasted) disabled

/-! ### A run that comes to an end -/

section
variable (run : List A) (s : S) (goes : (runAll step run s).isSome)

include goes in
theorem goes_take (n : ℕ) : (runAll step (run.take n) s).isSome := by
  rw [← List.take_append_drop n run, runAll_append] at goes
  exact Option.isSome_of_isSome_bind goes

/-- The execution that takes the steps of the run, and then none. -/
def ofRun : Execution step where
  state n := (runAll step (run.take n) s).get (goes_take run s goes n)
  action n := run[n]?
  next n := by
    cases found : run[n]? with
    | none =>
      have ended := List.getElem?_eq_none_iff.mp found
      simp [List.take_of_length_le ended, List.take_of_length_le (Nat.le_succ_of_le ended)]
    | some a =>
      have longer : run.take (n + 1) = run.take n ++ [a] := by rw [List.take_add_one, found, Option.toList_some]
      simp [longer, runAll_append, runAll, Option.get_bind]

theorem ofRun_fair (rests : ∀ agent, ¬Enabled actor step agent ((runAll step run s).get goes)) :
    (ofRun run s goes).Fair actor := by
  intro agent n
  refine ⟨max n run.length, le_max_left .., .inr ?_⟩
  have whole : run.take (max n run.length) = run := List.take_of_length_le (le_max_right ..)
  simpa [ofRun, whole] using rests agent

/-- The execution that takes the steps of the run, and then one that changes nothing, for ever. -/
def ofLoop (again : A)
    (same : step ((runAll step run s).get goes) again = some ((runAll step run s).get goes)) : Execution step where
  state := (ofRun run s goes).state
  action n := some (run[n]?.getD again)
  next n := by
    have next := (ofRun run s goes).next n
    cases found : run[n]? with
    | none =>
      have ended := List.getElem?_eq_none_iff.mp found
      have now : (ofRun run s goes).state n = (runAll step run s).get goes := by
        simp [ofRun, List.take_of_length_le ended]
      have later : (ofRun run s goes).state (n + 1) = (runAll step run s).get goes := by
        simp [ofRun, List.take_of_length_le (Nat.le_succ_of_le ended)]
      simpa [now, later] using same
    | some a => simpa [ofRun, found] using next

theorem ofLoop_fair (again : A) (same : step ((runAll step run s).get goes) again = some ((runAll step run s).get goes))
    (rests : ∀ agent, actor again ≠ some agent → ¬Enabled actor step agent ((runAll step run s).get goes)) :
    (ofLoop run s goes again same).Fair actor := by
  intro agent n
  refine ⟨max n run.length, le_max_left .., ?_⟩
  by_cases acts : actor again = some agent
  · exact .inl ⟨again, by simp [ofLoop], acts⟩
  · have whole : run.take (max n run.length) = run := List.take_of_length_le (le_max_right ..)
    exact .inr (by simpa [ofLoop, ofRun, whole] using rests agent acts)

end

end Execution

end Vanity
