import Mathlib.Data.List.Basic
import Mathlib.Tactic.Common

/-!
# Longest accepted prefixes

An automaton that reads a text as far as it can and answers with the length of the longest prefix
it has accepted.
-/

namespace Vanity

structure Automaton (σ : Type) where
  State : Type
  start : State
  step : State → σ → Option State
  accepting : State → Bool

namespace Automaton

variable {σ : Type} (a : Automaton σ)

def run : a.State → List σ → Option a.State
  | s, [] => some s
  | s, c :: rest => (a.step s c).bind fun t => run t rest

/-- What is accepted if nothing behind this state is. -/
def here (s : a.State) : Option Nat := if a.accepting s then some 0 else none

def longestFrom : a.State → List σ → Option Nat
  | s, [] => a.here s
  | s, c :: rest =>
    match a.step s c with
    | none => a.here s
    | some t =>
      match longestFrom t rest with
      | some n => some (n + 1)
      | none => a.here s

def longest (text : List σ) : Option Nat := a.longestFrom a.start text

/-- From this state no prefix of the text but the empty one is accepted. -/
def Quiet (s : a.State) (text : List σ) : Prop := a.longestFrom s text = a.here s

variable {a}

/-- The accepted prefix leads to an accepting state, and what follows it is quiet. -/
theorem longestFrom_iff {s : a.State} {text rest : List σ} :
    a.longestFrom s (text ++ rest) = some text.length ↔
      ∃ t, a.run s text = some t ∧ a.accepting t = true ∧ a.Quiet t rest := by
  induction text generalizing s with
  | nil =>
    simp only [List.nil_append, List.length_nil, run, Option.some.injEq, exists_eq_left', Quiet, here]
    constructor
    · intro found
      have accepted : a.accepting s = true := by
        by_contra rejected
        cases rest with
        | nil => simp [longestFrom, here, rejected] at found
        | cons c rest =>
          simp only [longestFrom, here, rejected] at found
          split at found
          · cases found
          · split at found
            · simp at found
            · cases found
      exact ⟨accepted, by simp [found, accepted]⟩
    · rintro ⟨accepted, quiet⟩
      simpa [accepted] using quiet
  | cons c text ih =>
    simp only [List.cons_append, longestFrom, List.length_cons, run]
    cases stepped : a.step s c with
    | none => simp [here]
    | some t =>
      simp only [Option.bind_some, ← ih]
      cases a.longestFrom t (text ++ rest) with
      | none => simp [here]
      | some n => simp

theorem run_of_step {s t : a.State} {c : σ} (stepped : a.step s c = some t) (rest : List σ) :
    a.run s (c :: rest) = a.run t rest := by
  rw [run, stepped, Option.bind_some]

theorem quiet_nil (s : a.State) : a.Quiet s [] := rfl

theorem quiet_of_stuck {s : a.State} {c : σ} (stuck : a.step s c = none) (rest : List σ) : a.Quiet s (c :: rest) := by
  simp [Quiet, longestFrom, stuck]

/-- An accepting state that is quiet is not followed by another one. -/
theorem Quiet.rejects {s t : a.State} {c : σ} {rest : List σ} (quiet : a.Quiet s (c :: rest))
    (stepped : a.step s c = some t) : a.accepting t = false := by
  have found : ∀ (u : a.State) (text : List σ), a.accepting u = true → ∃ n, a.longestFrom u text = some n := by
    intro u text accepted
    cases text with
    | nil => exact ⟨0, by simp [longestFrom, here, accepted]⟩
    | cons d text =>
      rw [longestFrom]
      split
      · exact ⟨0, by simp [here, accepted]⟩
      · split
        · exact ⟨_, rfl⟩
        · exact ⟨0, by simp [here, accepted]⟩
  rw [Quiet, longestFrom, stepped] at quiet
  by_contra accepted
  obtain ⟨n, next⟩ := found t rest (by simpa using accepted)
  simp only [next, here] at quiet
  split at quiet
  · simp at quiet
  · cases quiet

theorem longestFrom_le {s : a.State} {text : List σ} {count : Nat} (found : a.longestFrom s text = some count) :
    count ≤ text.length := by
  have here : ∀ (u : a.State) n (len : Nat), a.here u = some n → n ≤ len := by
    intro u n len stopped
    rw [Automaton.here] at stopped
    split at stopped
    · rw [← Option.some.inj stopped]
      exact Nat.zero_le len
    · cases stopped
  induction text generalizing s count with
  | nil => exact here s count 0 found
  | cons c rest ih =>
    rw [longestFrom] at found
    split at found
    · exact here s count _ found
    · split at found
      · rename_i n later
        obtain rfl := Option.some.inj found
        exact Nat.succ_le_succ (ih later)
      · exact here s count _ found

theorem longest_le {text : List σ} {count : Nat} (found : a.longest text = some count) : count ≤ text.length :=
  longestFrom_le found

end Automaton

end Vanity
