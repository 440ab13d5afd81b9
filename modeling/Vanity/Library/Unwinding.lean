import Mathlib.Logic.Basic

/-!
# Noninterference by unwinding

A step function with outputs, and a party whose actions are `own`. If states that are alike to the party
give it the same outputs and stay alike, and no action of another changes what they are to it, then a
whole run gives it what it would get if nobody else acted.
-/

namespace Vanity

variable {S A O : Type} (step : S → A → Option (O × S))

/-- A run with the output of each action. -/
def traceAll : List A → S → Option (List (A × O) × S)
  | [], s => some ([], s)
  | a :: rest, s => do
    let (output, t) ← step s a
    let (outputs, u) ← traceAll rest t
    return ((a, output) :: outputs, u)

/-- What the actions of a run meet when their turn comes. -/
def EachTurn (ok : S → A → Prop) : List A → S → Prop
  | [], _ => True
  | a :: rest, s => ok s a ∧ ∀ output t, step s a = some (output, t) → EachTurn ok rest t

structure Unwinding (good : A → Prop) (ok : S → A → Prop) (own : A → Bool) (Alike : S → S → Prop) : Prop where
  mine : ∀ s alone a output t, good a → own a = true → Alike s alone → ok alone a → step s a = some (output, t) →
    ∃ t', step alone a = some (output, t') ∧ Alike t t'
  others : ∀ s alone a output t, good a → own a = false → Alike s alone → step s a = some (output, t) → Alike t alone

variable {step} {good : A → Prop} {ok : S → A → Prop} {own : A → Bool} {Alike : S → S → Prop}

theorem traceAll_cons {a : A} {rest : List A} {s u : S} {outputs : List (A × O)}
    (runs : traceAll step (a :: rest) s = some (outputs, u)) :
    ∃ output t others, step s a = some (output, t) ∧ traceAll step rest t = some (others, u) ∧
      outputs = (a, output) :: others := by
  obtain ⟨⟨output, t⟩, taken, later⟩ := Option.bind_eq_some_iff.mp runs
  obtain ⟨⟨others, last⟩, rest_, same⟩ := Option.bind_eq_some_iff.mp later
  obtain ⟨rfl, rfl⟩ := Prod.mk.inj (Option.some.inj same)
  exact ⟨output, t, others, taken, rest_, rfl⟩

theorem traceAll_step {a : A} {rest : List A} {s t u : S} {output : O} {outputs : List (A × O)}
    (taken : step s a = some (output, t)) (runs : traceAll step rest t = some (outputs, u)) :
    traceAll step (a :: rest) s = some ((a, output) :: outputs, u) := by
  simp [traceAll, taken, runs]

/-- The run without the others gives the outputs that the party got among them. -/
theorem Unwinding.alone (unwinding : Unwinding step good ok own Alike) {run : List A}
    (members : ∀ a ∈ run, good a) {s alone t : S} {outputs : List (A × O)} (alike : Alike s alone)
    (runs : traceAll step run s = some (outputs, t)) (allowed : EachTurn step ok (run.filter own) alone) :
    ∃ t', traceAll step (run.filter own) alone = some (outputs.filter (own ·.1), t') ∧ Alike t t' := by
  induction run generalizing s alone outputs with
  | nil =>
    obtain ⟨rfl, rfl⟩ := Prod.mk.inj (Option.some.inj runs)
    exact ⟨alone, rfl, alike⟩
  | cons a rest ih =>
    obtain ⟨output, next, others, taken, later, rfl⟩ := traceAll_cons runs
    have here := members a List.mem_cons_self
    have there : ∀ b ∈ rest, good b := fun b member => members b (List.mem_cons_of_mem a member)
    cases turn : own a with
    | true =>
      have kept : ((a, output) :: others).filter (own ·.1) = (a, output) :: others.filter (own ·.1) :=
        List.filter_cons_of_pos turn
      rw [List.filter_cons_of_pos turn] at allowed ⊢
      obtain ⟨after, same, alike⟩ := unwinding.mine s alone a output next here turn alike allowed.1 taken
      obtain ⟨last, others_, alike⟩ := ih there alike later (allowed.2 output after same)
      rw [kept]
      exact ⟨last, traceAll_step same others_, alike⟩
    | false =>
      have off : ¬own a = true := by rw [turn]; exact Bool.false_ne_true
      have dropped : ((a, output) :: others).filter (own ·.1) = others.filter (own ·.1) :=
        List.filter_cons_of_neg off
      rw [List.filter_cons_of_neg off] at allowed ⊢
      rw [dropped]
      exact ih there (unwinding.others s alone a output next here turn alike taken) later allowed

end Vanity
