import Vanity.Db.Checks

/-!
# Slices of a list

What `list_range` reads and `list_trim` keeps. The two ends of a range are turned into iterators one by
one, so that a range whose ends have different signs can be reversed without being rejected; the walk
from the first iterator then never meets the second.
-/

namespace Vanity.Db

/-- The first position of the range, counted from the front. -/
def firstPosition (l : ListT) (start : Int64) : Int :=
  if start.toInt < 0 then max (l.length + start.toInt) 0 else start.toInt

/-- The last position of the range, below 0 if it lies in front of the list. -/
def lastPosition (l : ListT) (stop : Int64) : Int :=
  min (if stop.toInt < 0 then l.length + stop.toInt else stop.toInt) (l.length - 1)

/-- The elements from the first position to the last one. -/
def selected (l : ListT) (start stop : Int64) : ListT :=
  (l.drop (firstPosition l start).toNat).take (lastPosition l stop + 1 - firstPosition l start).toNat

/-- The iterators are in order, each held inside the list. -/
def Ordered (l : ListT) (start stop : Int64) : Prop :=
  min (firstPosition l start) l.length ≤ max (lastPosition l stop) (-1) + 1

/-- A range returns the selected elements, and a trim leaves them unless it rejects the range. -/
structure Selects (env : Env) (db : Database) (key : Str) (l : ListT) (expiry : Option Time) (start stop : Int64) :
    Prop where
  range : (listRange key start stop).Answers env db key (.ok (selected l start stop)) (some (.list l)) expiry
  trim : isInvalidRange start stop = false → (listTrim key start stop).Answers env db key
    (.ok (l.length - (selected l start stop).length))
    (if selected l start stop = [] then none else some (.list (selected l start stop)))
    (if selected l start stop = [] then none else expiry)

section
variable {l : ListT} {start stop : Int64}

theorem negative_iff {n : Int64} : n < 0 ↔ n.toInt < 0 := Int64.lt_iff_toInt_lt

theorem begin_eq (l : ListT) (start stop : Int64) :
    (iteratorPairInclusive l start stop).1 = (min (firstPosition l start) l.length).toNat := by
  simp only [iteratorPairInclusive, iteratorOrEnd, firstPosition, negative_iff]
  split_ifs <;> omega

theorem end_eq (l : ListT) (start stop : Int64) :
    (iteratorPairInclusive l start stop).2 = (max (lastPosition l stop) (-1) + 1).toNat := by
  simp only [iteratorPairInclusive, iteratorOrEnd, lastPosition, negative_iff]
  split_ifs <;> omega

theorem slice_eq (l : ListT) (start stop : Int64) :
    slice l start stop =
      if (min (firstPosition l start) l.length).toNat ≤ (max (lastPosition l stop) (-1) + 1).toNat then
        some ((l.drop (min (firstPosition l start) l.length).toNat).take
          ((max (lastPosition l stop) (-1) + 1).toNat - (min (firstPosition l start) l.length).toNat))
      else none := by
  rw [← begin_eq l start stop, ← end_eq l start stop]
  rfl

theorem slice_ordered (ordered : Ordered l start stop) : slice l start stop = some (selected l start stop) := by
  have front : 0 ≤ firstPosition l start := by
    unfold firstPosition
    split <;> omega
  unfold Ordered at ordered
  rw [slice_eq, if_pos (by omega), selected]
  apply congrArg some
  by_cases inside : firstPosition l start ≤ l.length
  · rw [min_eq_left inside] at ordered ⊢
    congr 1
    omega
  · rw [List.drop_eq_nil_of_le (by omega), List.drop_eq_nil_of_le (by omega), List.take_nil, List.take_nil]

theorem slice_reversed (reversed : ¬Ordered l start stop) : slice l start stop = none := by
  unfold Ordered at reversed
  rw [slice_eq, if_neg (by omega)]

/-- A rejected range selects nothing. -/
theorem selected_invalid (invalid : isInvalidRange start stop = true) : selected l start stop = [] := by
  have zero : (0 : Int64).toInt = 0 := rfl
  simp only [isInvalidRange, decide_eq_true_eq, gt_iff_lt, Int64.lt_iff_toInt_lt, zero] at invalid
  have none : (lastPosition l stop + 1 - firstPosition l start).toNat = 0 := by
    unfold lastPosition firstPosition
    split <;> split <;> omega
  rw [selected, none, List.take_zero]

variable {env : Env} {db : Database} {key : Str} {expiry : Option Time}

theorem listRange_answers (seen : db.view (env.now 0) key = (some (.list l), expiry))
    (ordered : isInvalidRange start stop = true ∨ Ordered l start stop) :
    (listRange key start stop).Answers env db key (.ok (selected l start stop)) (some (.list l)) expiry := by
  have checked := Rebinds.checked seen
  apply (Operation.answers_iff rfl).mpr
  refine ⟨_, ?_, checked⟩
  simp only [listRange, checked.value]
  split
  · rename_i invalid
    rw [selected_invalid invalid]
  · rename_i valid
    rw [slice_ordered (ordered.resolve_left valid), Option.map_some]

theorem listTrim_answers (seen : db.view (env.now 0) key = (some (.list l), expiry))
    (valid : isInvalidRange start stop = false) (ordered : Ordered l start stop) :
    (listTrim key start stop).Answers env db key
      (.ok (l.length - (selected l start stop).length))
      (if selected l start stop = [] then none else some (.list (selected l start stop)))
      (if selected l start stop = [] then none else expiry) := by
  have checked := Rebinds.checked seen
  apply (Operation.answers_iff rfl).mpr
  refine ⟨_, ?_, checked.putOrDel (selected l start stop)⟩
  simp only [listTrim, checked.value]
  rw [if_neg (by simp [valid]), slice_ordered ordered, Option.map_some]

end

/-- A range or trim of a stored list selects the documented slice exactly if the range is rejected or its
ends are in order. -/
theorem selects_iff {env : Env} {db : Database} {key : Str} {l : ListT} {expiry : Option Time} {start stop : Int64}
    (seen : db.view (env.now 0) key = (some (.list l), expiry)) :
    Selects env db key l expiry start stop ↔ isInvalidRange start stop = true ∨ Ordered l start stop := by
  constructor
  · intro selects
    by_contra wrong
    obtain ⟨valid, reversed⟩ := not_or.mp wrong
    obtain ⟨t, body, -⟩ := (Operation.answers_iff rfl).mp selects.range
    simp only [listRange, (Rebinds.checked seen).value] at body
    rw [if_neg valid, slice_reversed reversed] at body
    cases body
  · intro ordered
    exact ⟨listRange_answers seen ordered, fun valid =>
      listTrim_answers seen valid (ordered.resolve_left (by simp [valid]))⟩

theorem letters_selected :
    Selects (.frozen 0) (.holding [107] (.list [[97], [98], [99]])) [107] [[97], [98], [99]] none (-2) 1 ↔
      isInvalidRange (-2) 1 = true ∨ Ordered [[97], [98], [99]] (-2) 1 :=
  selects_iff (Database.holding_view ..)

/-- `LIST_RANGE` from 2 to 0 walks on past the end of a list of three. -/
theorem letters_reversed :
    ¬Selects (.frozen 0) (.holding [107] (.list [[97], [98], [99]])) [107] [[97], [98], [99]] none 2 0 := by
  intro selects
  obtain ⟨t, body, -⟩ := (Operation.answers_iff rfl).mp selects.range
  rw [listRange] at body
  simp only [(Rebinds.checked (Database.holding_view ..)).value] at body
  cases body

end Vanity.Db
