import Mathlib.Data.List.Basic
import Mathlib.Tactic.Common

/-!
# Extracting values from a message

An extractor takes a value from a message at a position and moves the position, also when it
throws. `Reads limit read value text rest` says that the text spells the value for the extractor
when the rest follows it, wherever the two stand in a message of less than `limit` symbols. A text
is judged with what follows it in place, since an extractor may look at it before it stops.
-/

namespace Vanity

inductive Extracted (ε α : Type) where
  | ok (value : α) (pos : Nat)
  | thrown (error : ε) (pos : Nat)

def Extracted.pos {ε α : Type} : Extracted ε α → Nat
  | .ok _ pos => pos
  | .thrown _ pos => pos

def Extractor (σ ε α : Type) := List σ → Nat → Extracted ε α

namespace Extractor

variable {σ ε α β : Type}

instance : Monad (Extractor σ ε) where
  pure value := fun _ pos => .ok value pos
  bind read next := fun msg pos =>
    match read msg pos with
    | .ok value pos => next value msg pos
    | .thrown error pos => .thrown error pos

def throw (error : ε) : Extractor σ ε α := fun _ pos => .thrown error pos

@[simp] theorem pure_apply (value : α) (msg : List σ) (pos : Nat) :
    (pure value : Extractor σ ε α) msg pos = .ok value pos := rfl

@[simp] theorem throw_apply (error : ε) (msg : List σ) (pos : Nat) :
    (throw error : Extractor σ ε α) msg pos = .thrown error pos := rfl

theorem bind_apply (read : Extractor σ ε α) (next : α → Extractor σ ε β) (msg : List σ) (pos : Nat) :
    (read >>= next) msg pos = match read msg pos with
      | .ok value pos => next value msg pos
      | .thrown error pos => .thrown error pos := rfl

theorem bind_ok {read : Extractor σ ε α} {next : α → Extractor σ ε β} {msg : List σ} {pos stop : Nat} {value : α}
    (first : read msg pos = .ok value stop) : (read >>= next) msg pos = next value msg stop := by
  rw [bind_apply, first]

theorem bind_inv {read : Extractor σ ε α} {next : α → Extractor σ ε β} {msg : List σ} {pos stop : Nat} {result : β}
    (taken : (read >>= next) msg pos = .ok result stop) :
    ∃ value mid, read msg pos = .ok value mid ∧ next value msg mid = .ok result stop := by
  rw [bind_apply] at taken
  cases first : read msg pos with
  | ok value mid =>
    rw [first] at taken
    exact ⟨value, mid, rfl, taken⟩
  | thrown error mid =>
    rw [first] at taken
    cases taken

/-! ### Texts that spell a value -/

def Reads (limit : Nat) (read : Extractor σ ε α) (value : α) (text rest : List σ) : Prop :=
  ∀ front, (front ++ text ++ rest).length < limit →
    read (front ++ text ++ rest) front.length = .ok value (front ++ text).length

variable {limit : Nat} {text rest : List σ}

theorem Reads.pure (value : α) : Reads limit (Pure.pure value : Extractor σ ε α) value [] rest := by
  intro front _
  simp

theorem Reads.bind {read : Extractor σ ε α} {next : α → Extractor σ ε β} {value : α} {result : β}
    {more : List σ} (first : Reads limit read value text (more ++ rest))
    (second : Reads limit (next value) result more rest) :
    Reads limit (read >>= next) result (text ++ more) rest := by
  intro front short
  have here := first front (by simpa using short)
  have there := second (front ++ text) (by simpa using short)
  simp only [List.append_assoc] at here there short ⊢
  rw [bind_ok here, there]

/-- An extractor that throws at the front of a text. -/
def Refuses (limit : Nat) (read : Extractor σ ε α) (error : ε) (text rest : List σ) : Prop :=
  ∀ front, (front ++ text ++ rest).length < limit →
    read (front ++ text ++ rest) front.length = .thrown error (front ++ text).length

/-! ### Extractors that stay in the message -/

variable {msg : List σ}

/-- From any position in the message the extractor throws or stops at a later one in it. -/
def Stays (msg : List σ) (read : Extractor σ ε α) : Prop :=
  ∀ pos value stop, pos ≤ msg.length → read msg pos = .ok value stop → pos ≤ stop ∧ stop ≤ msg.length

theorem Stays.pure (value : α) : Stays msg (Pure.pure value : Extractor σ ε α) := by
  intro pos result stop inside taken
  obtain ⟨-, rfl⟩ := Extracted.ok.inj taken
  exact ⟨Nat.le_refl _, inside⟩

theorem Stays.throw (error : ε) : Stays msg (Extractor.throw error : Extractor σ ε α) := by
  intro pos result stop inside taken
  cases taken

theorem Stays.bind {read : Extractor σ ε α} {next : α → Extractor σ ε β} (first : Stays msg read)
    (second : ∀ value, Stays msg (next value)) : Stays msg (read >>= next) := by
  intro pos result stop inside taken
  obtain ⟨value, mid, here, there⟩ := bind_inv taken
  obtain ⟨later, within⟩ := first pos value mid inside here
  obtain ⟨last, final⟩ := second value mid result stop within there
  exact ⟨Nat.le_trans later last, final⟩

end Extractor

end Vanity
