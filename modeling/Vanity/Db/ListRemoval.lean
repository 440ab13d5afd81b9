import Vanity.Db.Checks

/-!
# Removing occurrences

What `list_remove` takes out of a list. From the front this is one walk. From the back it is the same
walk over the reversed list, but for the place at which it ends.
-/

namespace Vanity.Db

/-- The list without the first `n` occurrences of the element. -/
def WithoutFirst (element : Str) (n : Nat) (l kept : ListT) : Prop :=
  ∃ front back, l = front ++ back ∧ front.count element = n ∧ kept = front.filter (· ≠ element) ++ back

def WithoutLast (element : Str) (n : Nat) (l kept : ListT) : Prop :=
  ∃ front back, l = front ++ back ∧ back.count element = n ∧ kept = front ++ back.filter (· ≠ element)

/-- How many occurrences a removal asks for and finds. -/
def occurrences (l : ListT) (element : Str) (count : Int64) : Nat :=
  if count = 0 then l.count element else min count.toInt.natAbs (l.count element)

structure Removes (element : Str) (count : Int64) (l kept : ListT) : Prop where
  first : count > 0 → WithoutFirst element (occurrences l element count) l kept
  last : count < 0 → WithoutLast element (occurrences l element count) l kept
  all : count = 0 → kept = l.filter (· ≠ element)

/-- The removal ends, returns the number of occurrences removed and leaves the rest of the list. -/
def RemovesRequested (env : Env) (db : Database) (key : Str) (l : ListT) (expiry : Option Time) (element : Str)
    (count : Int64) : Prop :=
  ∃ kept, Removes element count l kept ∧ (listRemove key element count).Answers env db key
    (.ok (occurrences l element count)) (if kept = [] then none else some (.list kept))
    (if kept = [] then none else expiry)

/-! ### Counting -/

theorem length_filter_ne (element : Str) (l : ListT) :
    (l.filter (· ≠ element)).length + l.count element = l.length := by
  induction l with
  | nil => rfl
  | cons x xs ih =>
    by_cases same : x = element
    · subst same
      simp only [ne_eq, decide_not, List.filter_cons, decide_true, Bool.not_true, Bool.false_eq_true, if_false,
        List.count_cons_self, List.length_cons]
      simp only [ne_eq, decide_not] at ih
      omega
    · rw [List.filter_cons_of_pos (by simpa using same), List.count_cons_of_ne same, List.length_cons,
        List.length_cons]
      omega

section
variable {element : Str} {n : Nat} {l kept : ListT}

theorem WithoutFirst.length (without : WithoutFirst element n l kept) : kept.length + n = l.length := by
  obtain ⟨front, back, rfl, rfl, rfl⟩ := without
  have counted := length_filter_ne element front
  rw [List.length_append, List.length_append]
  omega

theorem WithoutFirst.reverse (without : WithoutFirst element n l.reverse kept) :
    WithoutLast element n l kept.reverse := by
  obtain ⟨front, back, split, counted, rfl⟩ := without
  refine ⟨back.reverse, front.reverse, ?_, ?_, ?_⟩
  · rw [← List.reverse_append, ← split, List.reverse_reverse]
  · rw [List.count_reverse, counted]
  · rw [List.reverse_append, List.filter_reverse]

theorem WithoutFirst.cons_same (without : WithoutFirst element n l kept) :
    WithoutFirst element (n + 1) (element :: l) kept := by
  obtain ⟨front, back, rfl, counted, rfl⟩ := without
  exact ⟨element :: front, back, rfl, by rw [List.count_cons_self, counted], by simp⟩

theorem WithoutFirst.cons_other (without : WithoutFirst element n l kept) {x : Str} (different : x ≠ element) :
    WithoutFirst element n (x :: l) (x :: kept) := by
  obtain ⟨front, back, rfl, counted, rfl⟩ := without
  exact ⟨x :: front, back, rfl, by rw [List.count_cons_of_ne different, counted], by simp [different]⟩

end

/-! ### The walks -/

theorem eraseForward_without (element : Str) (n : Nat) (l : ListT) :
    WithoutFirst element (min n (l.count element)) l (eraseForward element n l) := by
  induction l generalizing n with
  | nil =>
    have erased : eraseForward element n [] = [] := by cases n <;> rfl
    rw [erased]
    exact ⟨[], [], rfl, by simp, rfl⟩
  | cons x xs ih =>
    cases n with
    | zero => exact ⟨[], x :: xs, rfl, by simp, rfl⟩
    | succ n =>
      rw [eraseForward]
      by_cases same : x = element
      · subst same
        rw [if_pos rfl, List.count_cons_self, Nat.succ_min_succ]
        exact (ih n).cons_same
      · rw [if_neg same, List.count_cons_of_ne same]
        exact (ih (n + 1)).cons_other same

/-- From the back the walk ends like the one from the front, unless it erases the last element it meets
and still looks for more. -/
theorem eraseBackward_eq (element : Str) (n : Nat) (l : ListT) :
    eraseBackward element n l =
      if l.getLast? = some element ∧ l.count element < n then none else some (eraseForward element n l) := by
  induction l generalizing n with
  | nil =>
    rw [if_neg (by simp)]
    cases n <;> rfl
  | cons x xs ih =>
    cases n with
    | zero =>
      rw [if_neg (by omega)]
      rfl
    | succ n =>
      rw [eraseBackward, eraseForward]
      by_cases same : x = element
      · subst same
        rw [if_pos rfl, if_pos rfl, List.count_cons_self]
        cases xs with
        | nil => cases n <;> simp [eraseBackward, eraseForward]
        | cons y ys =>
          rw [if_neg (by simp), ih, List.getLast?_cons_cons]
          simp only [Nat.add_lt_add_iff_right]
      · rw [if_neg same, if_neg same, ih, List.count_cons_of_ne same]
        cases xs with
        | nil => simp [same]
        | cons y ys =>
          rw [List.getLast?_cons_cons]
          split <;> rfl

/-! ### What is removed -/

section
variable {l : ListT} {element : Str} {count : Int64}

/-- The walk from the back erases the first element only as the last of its removals. -/
def Bounded (l : ListT) (element : Str) (count : Int64) : Prop :=
  0 ≤ count.toInt ∨ l.head? ≠ some element ∨ count.toInt.natAbs ≤ l.count element

theorem sign_cases (count : Int64) :
    (count > 0 ∧ 0 < count.toInt) ∨ (count < 0 ∧ count.toInt < 0) ∨ count = 0 := by
  have zero : (0 : Int64).toInt = 0 := rfl
  rcases lt_trichotomy count.toInt 0 with below | none | above
  · exact .inr (.inl ⟨Int64.lt_iff_toInt_lt.mpr (by omega), below⟩)
  · exact .inr (.inr (Int64.toInt_inj.mp (none.trans zero.symm)))
  · exact .inl ⟨Int64.lt_iff_toInt_lt.mpr (by omega), above⟩

theorem nonzero_of_sign (sign : count.toInt ≠ 0) : count ≠ 0 := by
  rintro rfl
  exact sign rfl

theorem occurrences_nonzero (sign : count.toInt ≠ 0) :
    occurrences l element count = min count.toInt.natAbs (l.count element) :=
  if_neg (nonzero_of_sign sign)

theorem removed_all : removed l element 0 = some (l.filter (· ≠ element)) := rfl

theorem removed_positive (positive : count > 0) (sign : 0 < count.toInt) :
    removed l element count = some (eraseForward element count.toInt.natAbs l) := by
  have same : count.toInt.toNat = count.toInt.natAbs := by omega
  rw [removed, if_pos positive, same]

theorem removed_negative (negative : count < 0) (sign : count.toInt < 0) :
    removed l element count =
      if l.head? = some element ∧ l.count element < count.toInt.natAbs then none
      else some (eraseForward element count.toInt.natAbs l.reverse).reverse := by
  have other : ¬count > 0 := by
    intro positive
    have above : 0 < count.toInt := Int64.lt_iff_toInt_lt.mp positive
    omega
  rw [removed, if_neg other, if_pos negative, eraseBackward_eq, List.getLast?_reverse, List.count_reverse]
  split <;> rfl

theorem removed_bounded (bounded : Bounded l element count) :
    ∃ kept, removed l element count = some kept ∧ Removes element count l kept ∧
      kept.length + occurrences l element count = l.length := by
  rcases sign_cases count with ⟨positive, sign⟩ | ⟨negative, sign⟩ | rfl
  · have without := eraseForward_without element count.toInt.natAbs l
    rw [← occurrences_nonzero (by omega)] at without
    refine ⟨_, removed_positive positive sign, ⟨fun _ => without, fun negative => ?_, ?_⟩, without.length⟩
    · have below : count.toInt < 0 := Int64.lt_iff_toInt_lt.mp negative
      omega
    · exact fun zero => absurd zero (nonzero_of_sign (by omega))
  · have possible : ¬(l.head? = some element ∧ l.count element < count.toInt.natAbs) := by
      rintro ⟨front, few⟩
      rcases bounded with positive | other | many
      · omega
      · exact other front
      · omega
    have without := eraseForward_without element count.toInt.natAbs l.reverse
    rw [List.count_reverse, ← occurrences_nonzero (by omega)] at without
    refine ⟨_, (removed_negative negative sign).trans (if_neg possible),
      ⟨fun positive => ?_, fun _ => without.reverse, ?_⟩, ?_⟩
    · have above : 0 < count.toInt := Int64.lt_iff_toInt_lt.mp positive
      omega
    · exact fun zero => absurd zero (nonzero_of_sign (by omega))
    · rw [List.length_reverse, without.length, List.length_reverse]
  · refine ⟨_, removed_all, ⟨fun positive => ?_, fun negative => ?_, fun _ => rfl⟩, length_filter_ne element l⟩
    · exact absurd positive (by decide)
    · exact absurd negative (by decide)

theorem removed_unbounded (unbounded : ¬Bounded l element count) : removed l element count = none := by
  obtain ⟨negative, front, few⟩ :
      count.toInt < 0 ∧ l.head? = some element ∧ l.count element < count.toInt.natAbs := by
    unfold Bounded at unbounded
    push Not at unbounded
    exact unbounded
  rw [removed_negative (Int64.lt_iff_toInt_lt.mpr negative) negative, if_pos ⟨front, few⟩]

end

/-- A removal from a stored list does what it is asked for exactly if it does not go on behind the first
element after erasing it. -/
theorem removesRequested_iff {env : Env} {db : Database} {key : Str} {l : ListT} {expiry : Option Time}
    {element : Str} {count : Int64} (seen : db.view (env.now 0) key = (some (.list l), expiry)) :
    RemovesRequested env db key l expiry element count ↔ Bounded l element count := by
  have checked := Rebinds.checked seen
  constructor
  · rintro ⟨kept, -, answers⟩
    by_contra unbounded
    obtain ⟨t, body, -⟩ := (Operation.answers_iff rfl).mp answers
    simp only [listRemove, checked.value] at body
    rw [removed_unbounded unbounded] at body
    cases body
  · intro bounded
    obtain ⟨kept, computed, removes, counted⟩ := removed_bounded bounded
    refine ⟨kept, removes, (Operation.answers_iff rfl).mpr ⟨_, ?_, checked.putOrDel kept⟩⟩
    have size : l.length - kept.length = occurrences l element count := by omega
    simp only [listRemove, checked.value]
    rw [computed, Option.map_some, size]

theorem doubled_removes :
    RemovesRequested (.frozen 0) (.holding [107] (.list [[97], [98], [97]])) [107] [[97], [98], [97]] none [97] (-2) ↔
      Bounded [[97], [98], [97]] [97] (-2) :=
  removesRequested_iff (Database.holding_view ..)

/-- `LIST_REMOVE` of three occurrences from the back, where there are two and one of them is in front. -/
theorem doubled_overruns : ¬RemovesRequested (.frozen 0) (.holding [107] (.list [[97], [98], [97]])) [107]
    [[97], [98], [97]] none [97] (-3) := by
  rintro ⟨kept, -, answers⟩
  obtain ⟨t, body, -⟩ := (Operation.answers_iff rfl).mp answers
  rw [listRemove] at body
  simp only [(Rebinds.checked (Database.holding_view ..)).value] at body
  cases body

end Vanity.Db
