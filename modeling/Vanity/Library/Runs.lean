import Mathlib.Logic.Basic

/-!
# Runs of a partial step function

A run is a list of actions; it goes on as long as the next action is enabled. `EachStep` says what the
actions meet when they are taken, `EachState` what the states satisfy.
-/

namespace Vanity

variable {S A : Type} (step : S → A → Option S)

def runAll : List A → S → Option S
  | [], s => some s
  | a :: rest, s => (step s a).bind (runAll rest)

def EachStep (ok : S → A → Prop) : List A → S → Prop
  | [], _ => True
  | a :: rest, s => ∀ t, step s a = some t → ok s a ∧ EachStep ok rest t

def EachState (holds : S → Prop) : List A → S → Prop
  | [], s => holds s
  | a :: rest, s => holds s ∧ ∀ t, step s a = some t → EachState holds rest t

instance decidableEachStep (ok : S → A → Prop) [∀ s a, Decidable (ok s a)] :
    (run : List A) → (s : S) → Decidable (EachStep step ok run s)
  | [], _ => .isTrue trivial
  | a :: rest, s =>
    match taken : step s a with
    | none => .isTrue fun t other => by rw [taken] at other; cases other
    | some t =>
      have := decidableEachStep ok rest t
      decidable_of_iff (ok s a ∧ EachStep step ok rest t) ⟨fun both u other => by
        rw [taken] at other; cases other; exact both, fun each => each t taken⟩

instance decidableEachState (holds : S → Prop) [DecidablePred holds] :
    (run : List A) → (s : S) → Decidable (EachState step holds run s)
  | [], s => inferInstanceAs (Decidable (holds s))
  | a :: rest, s =>
    match taken : step s a with
    | none => decidable_of_iff (holds s) ⟨fun now => ⟨now, fun t other => by rw [taken] at other; cases other⟩, And.left⟩
    | some t =>
      have := decidableEachState holds rest t
      decidable_of_iff (holds s ∧ EachState step holds rest t) ⟨fun both => ⟨both.1, fun u other => by
        rw [taken] at other; cases other; exact both.2⟩, fun each => ⟨each.1, each.2 t taken⟩⟩

variable {step} {ok : S → A → Prop} {inv holds : S → Prop} {run : List A} {s : S}

theorem runAll_append (first second : List A) (s : S) :
    runAll step (first ++ second) s = (runAll step first s).bind (runAll step second) := by
  induction first generalizing s with
  | nil => rfl
  | cons a rest ih =>
    simp only [List.cons_append, runAll]
    cases step s a with
    | none => rfl
    | some t => exact ih t

theorem eachState_head (each : EachState step holds run s) : holds s := by
  cases run with
  | nil => exact each
  | cons a rest => exact each.1

theorem eachState_last (each : EachState step holds run s) {t : S} (runs : runAll step run s = some t) : holds t := by
  induction run generalizing s with
  | nil =>
    cases runs
    exact each
  | cons a rest ih =>
    obtain ⟨next, taken, runs⟩ := Option.bind_eq_some_iff.mp runs
    exact ih (each.2 next taken) runs

theorem eachStep_of_always (preserved : ∀ s a t, inv s → step s a = some t → inv t) (allows : ∀ s a, inv s → ok s a)
    (start : inv s) : EachStep step ok run s := by
  induction run generalizing s with
  | nil => trivial
  | cons a rest ih => exact fun t taken => ⟨allows s a start, ih (preserved s a t start taken)⟩

theorem eachStep_of_members (preserved : ∀ s a t, a ∈ run → inv s → step s a = some t → inv t)
    (allows : ∀ s a t, a ∈ run → inv s → step s a = some t → ok s a) (start : inv s) : EachStep step ok run s := by
  induction run generalizing s with
  | nil => trivial
  | cons a rest ih =>
    intro t taken
    refine ⟨allows s a t List.mem_cons_self start taken, ?_⟩
    exact ih (fun s a t member => preserved s a t (List.mem_cons_of_mem _ member))
      (fun s a t member => allows s a t (List.mem_cons_of_mem _ member))
      (preserved s a t List.mem_cons_self start taken)

theorem eachState_of_inv (preserved : ∀ s a t, inv s → ok s a → step s a = some t → inv t)
    (implies : ∀ s, inv s → holds s) (start : inv s) (each : EachStep step ok run s) : EachState step holds run s := by
  induction run generalizing s with
  | nil => exact implies s start
  | cons a rest ih =>
    refine ⟨implies s start, fun t taken => ?_⟩
    obtain ⟨allowed, later⟩ := each t taken
    exact ih (preserved s a t start allowed taken) later

theorem eachState_of_always (preserved : ∀ s a t, inv s → step s a = some t → inv t)
    (implies : ∀ s, inv s → holds s) (start : inv s) : EachState step holds run s := by
  induction run generalizing s with
  | nil => exact implies s start
  | cons a rest ih => exact ⟨implies s start, fun t taken => ih (preserved s a t start taken)⟩

/-- If a step leads from a good state to a good state exactly when it is allowed, then a run stays good
exactly when all its steps are allowed. Here this is so as long as something lasts. -/
theorem eachState_iff_during {during : S → Prop}
    (preserved : ∀ s a t, during s → inv s → step s a = some t → inv t)
    (tight : ∀ s a t, during s → inv s → holds s → step s a = some t → (holds t ↔ ok s a))
    (lasts : EachState step during run s) (start : inv s) (good : holds s) :
    EachState step holds run s ↔ EachStep step ok run s := by
  induction run generalizing s with
  | nil => exact iff_of_true good trivial
  | cons a rest ih =>
    obtain ⟨now, lasts⟩ := lasts
    constructor
    · intro each t taken
      have later := each.2 t taken
      have goodNext := eachState_head later
      exact ⟨(tight s a t now start good taken).mp goodNext,
        (ih (lasts t taken) (preserved s a t now start taken) goodNext).mp later⟩
    · intro each
      refine ⟨good, fun t taken => ?_⟩
      obtain ⟨allowed, later⟩ := each t taken
      have goodNext := (tight s a t now start good taken).mpr allowed
      exact (ih (lasts t taken) (preserved s a t now start taken) goodNext).mpr later

theorem eachState_iff (preserved : ∀ s a t, inv s → step s a = some t → inv t)
    (tight : ∀ s a t, inv s → holds s → step s a = some t → (holds t ↔ ok s a)) (start : inv s) (good : holds s) :
    EachState step holds run s ↔ EachStep step ok run s :=
  eachState_iff_during (fun s a t _ => preserved s a t) (fun s a t _ => tight s a t)
    (eachState_of_always preserved (fun _ _ => trivial) start) start good

theorem runAll_inv (preserved : ∀ s a t, inv s → step s a = some t → inv t) (start : inv s) {t : S}
    (runs : runAll step run s = some t) : inv t := by
  induction run generalizing s with
  | nil =>
    cases runs
    exact start
  | cons a rest ih =>
    obtain ⟨next, taken, runs⟩ := Option.bind_eq_some_iff.mp runs
    exact ih (preserved s a next start taken) runs

/-- A property with a memory of the states passed can replace one without. -/
theorem eachState_remembering {small large : S → Prop} (implies : ∀ s, large s → small s)
    (remembered : ∀ s a t, large s → step s a = some t → small t → large t) (start : large s) :
    EachState step small run s ↔ EachState step large run s := by
  induction run generalizing s with
  | nil => exact ⟨fun _ => start, implies s⟩
  | cons a rest ih =>
    constructor
    · intro each
      refine ⟨start, fun t taken => ?_⟩
      have later := each.2 t taken
      exact (ih (remembered s a t start taken (eachState_head later))).mp later
    · intro each
      refine ⟨implies s start, fun t taken => ?_⟩
      have later := each.2 t taken
      exact (ih (eachState_head later)).mpr later

end Vanity
