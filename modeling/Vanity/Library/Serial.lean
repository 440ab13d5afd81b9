import Mathlib.Data.List.Basic

/-!
# Calls in one order

An object with operations that any number of clients call, told by what one call after another does. What
clients that call it side by side get is explained by an order of the calls; the calls of a client stand in
it in the order in which it has made them.
-/

namespace Vanity.Serial

variable {C O R S : Type} (apply : S → C → O → R × S)

/-- What the calls leave, one after the other. -/
def after : S → List (C × O) → S
  | s, [] => s
  | s, (c, o) :: rest => after (apply s c o).2 rest

theorem after_snoc {c : C} {o : O} {s : S} {order : List (C × O)} :
    after apply s (order ++ [(c, o)]) = (apply (after apply s order) c o).2 := by
  induction order generalizing s with
  | nil => rfl
  | cons call order ih => exact ih

variable [DecidableEq C]

def own (c : C) (order : List (C × O)) : List O := (order.filter fun call => call.1 = c).map Prod.snd

/-- What a client gets from its calls. -/
def replies (c : C) : S → List (C × O) → List R
  | _, [] => []
  | s, (d, o) :: rest =>
    let (reply, s) := apply s d o
    if d = c then reply :: replies c s rest else replies c s rest

variable {apply} {c d : C} {o : O} {s : S} {order : List (C × O)}

theorem own_snoc : own c (order ++ [(d, o)]) = own c order ++ if d = c then [o] else [] := by
  by_cases same : d = c <;> simp [own, same]

theorem replies_snoc :
    replies apply c s (order ++ [(d, o)]) =
      replies apply c s order ++ if d = c then [(apply (after apply s order) d o).1] else [] := by
  induction order generalizing s with
  | nil => simp only [List.nil_append, replies, after]
  | cons call order ih =>
    obtain ⟨e, p⟩ := call
    simp only [List.cons_append, replies, after]
    split
    · rw [ih, List.cons_append]
    · exact ih

theorem length_replies : (replies apply c s order).length = (own c order).length := by
  induction order generalizing s with
  | nil => rfl
  | cons call order ih =>
    obtain ⟨d, o⟩ := call
    by_cases same : d = c
    · simpa [replies, own, same] using ih
    · simpa [replies, own, same] using ih

variable (apply) in
/-- An order explains what each client has called and got: it has the first calls of each, and they have these
replies. -/
structure Explains (start : S) (called : C → List O) (got : C → List R) (order : List (C × O)) : Prop where
  called : ∀ c, own c order <+: called c
  got : ∀ c, got c <+: replies apply c start order

end Vanity.Serial
