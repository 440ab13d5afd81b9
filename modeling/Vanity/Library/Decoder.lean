import Mathlib.Data.List.Basic

/-!
# Decoding from the front of a text

A decoder takes a value from the front of a text and leaves the rest. `Takes read value text rest` says that the text
stands for the value when the rest follows it. Texts that stand for values follow one another as their decoders do.
-/

namespace Vanity

def Decoder (σ ε α : Type) := List σ → Except ε (α × List σ)

namespace Decoder

variable {σ ε α β : Type}

instance : Monad (Decoder σ ε) where
  pure value := fun text => .ok (value, text)
  bind read next := fun text =>
    match read text with
    | .ok (value, rest) => next value rest
    | .error error => .error error

def throw (error : ε) : Decoder σ ε α := fun _ => .error error

/-- The text that is left. -/
def left : Decoder σ ε (List σ) := fun text => .ok (text, text)

def goTo (rest : List σ) : Decoder σ ε Unit := fun _ => .ok ((), rest)

def times (read : Decoder σ ε α) : Nat → Decoder σ ε (List α)
  | 0 => return []
  | count + 1 => do
    let value ← read
    let values ← times read count
    return value :: values

@[simp] theorem pure_apply (value : α) (text : List σ) : (pure value : Decoder σ ε α) text = .ok (value, text) := rfl

theorem bind_apply (read : Decoder σ ε α) (next : α → Decoder σ ε β) (text : List σ) :
    (read >>= next) text = match read text with
      | .ok (value, rest) => next value rest
      | .error error => .error error := rfl

@[simp] theorem left_bind (next : List σ → Decoder σ ε β) (text : List σ) : (left >>= next) text = next text text := rfl

@[simp] theorem goTo_bind (rest : List σ) (next : Unit → Decoder σ ε β) (text : List σ) :
    (goTo rest >>= next) text = next () rest := rfl

/-! ### Texts that stand for a value -/

def Takes (read : Decoder σ ε α) (value : α) (text rest : List σ) : Prop := read (text ++ rest) = .ok (value, rest)

variable {text more rest : List σ}

theorem Takes.pure (value : α) : Takes (Pure.pure value : Decoder σ ε α) value [] rest := rfl

theorem Takes.bind {read : Decoder σ ε α} {next : α → Decoder σ ε β} {value : α} {result : β}
    (first : Takes read value text (more ++ rest)) (second : Takes (next value) result more rest) :
    Takes (read >>= next) result (text ++ more) rest := by
  unfold Takes at *
  rw [List.append_assoc, bind_apply, first]
  exact second

/-- A step that takes nothing. -/
theorem Takes.after {read : Decoder σ ε α} {next : α → Decoder σ ε β} {value : α} {result : β}
    (first : read rest = .ok (value, rest)) (second : Takes (next value) result [] rest) :
    Takes (read >>= next) result [] rest := by
  unfold Takes at *
  rw [List.nil_append, bind_apply, first]
  exact second

section
variable {γ : Type} {read : Decoder σ ε α} {encode : γ → List σ} {decoded : γ → α} {closed : List σ → Prop}

/-- Items are taken one by one if each of them is taken in front of what can follow it. -/
theorem takes_times (items : List γ)
    (each : ∀ item ∈ items, ∀ rest, closed rest → Takes read (decoded item) (encode item) rest)
    (opens : ∀ item rest, closed (encode item ++ rest)) (follows : closed rest) :
    Takes (times read items.length) (items.map decoded) (items.flatMap encode) rest := by
  induction items with
  | nil => exact .pure []
  | cons item items ih =>
    have next : closed (items.flatMap encode ++ rest) := by
      cases items with
      | nil => exact follows
      | cons second items =>
        rw [List.flatMap_cons, List.append_assoc]
        exact opens second _
    refine (each item (by simp) _ next).bind ?_
    rw [← List.append_nil (items.flatMap encode)]
    exact Takes.bind (ih fun other member => each other (by simp [member])) (.pure _)

end

end Decoder

end Vanity
