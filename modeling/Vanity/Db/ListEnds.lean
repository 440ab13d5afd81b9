import Vanity.Db.Checks

/-!
# The ends of a list

Popping from and pushing to either end. A pop splits the stored list in two; a push joins the pushed
elements to it.
-/

namespace Vanity.Db

/-! ### Pops -/

/-- The number of elements that a pop takes: `n` of them, or all but `-n`. -/
def popCount (l : ListT) (n : Int64) : Int :=
  if 0 ≤ n.toInt then min n.toInt l.length
  else if -l.length ≤ n.toInt then l.length + n.toInt
  else 0

/-- The pop takes `popped` and leaves `rest`, without a trace of the key if that is nothing. -/
structure Pops (op : Operation (Except ListErrorKind ListT)) (env : Env) (db : Database) (key : Str) (l : ListT)
    (n : Int64) (expiry : Option Time) (popped rest : ListT) : Prop where
  count : popped.length = popCount l n
  answers : op.Answers env db key (.ok popped) (if rest = [] then none else some (.list rest))
    (if rest = [] then none else expiry)

section
variable {env : Env} {db : Database} {key : Str} {l : ListT} {expiry : Option Time}

theorem iteratorOrEnd_count (l : ListT) {n : Int64} (inside : ¬(iteratorOrEnd l n = l.length ∧ n < 0)) :
    iteratorOrEnd l n = popCount l n := by
  have sign : n < 0 ↔ n.toInt < 0 := Int64.lt_iff_toInt_lt
  rw [sign] at inside
  revert inside
  unfold iteratorOrEnd popCount
  generalize n.toInt = i
  dsimp only
  split_ifs <;> omega

theorem iteratorOrEnd_le (l : ListT) (n : Int64) : iteratorOrEnd l n ≤ l.length := by
  unfold iteratorOrEnd
  generalize n.toInt = i
  dsimp only
  split_ifs <;> omega

theorem popCount_outside {n : Int64} (nonempty : l ≠ []) (outside : iteratorOrEnd l n = l.length ∧ n < 0) :
    popCount l n = 0 := by
  have sign : n < 0 ↔ n.toInt < 0 := Int64.lt_iff_toInt_lt
  have filled := List.length_pos_iff.mpr nonempty
  rw [sign] at outside
  revert outside
  unfold iteratorOrEnd popCount
  generalize n.toInt = i
  dsimp only
  split_ifs <;> omega

/-- A pop that takes as many elements as its iterator has passed, unless that stands for an error. -/
theorem pops_of_body {op : Operation (Except ListErrorKind ListT)} {n : Int64} {popped rest : ListT}
    (nonempty : l ≠ []) (seen : db.view (env.now 0) key = (some (.list l), expiry)) (checks : op.checks = [key])
    (size : popped.length = iteratorOrEnd l n)
    (body : ∀ s, s.data.lookup key = some (.list l) → op.body s =
      some (if iteratorOrEnd l n = l.length ∧ n < 0 then (.ok [], s) else (.ok popped, s.putOrDel key rest))) :
    Pops op env db key l n expiry [] l ∨ Pops op env db key l n expiry popped rest := by
  have checked := Rebinds.checked seen
  have ran := body _ checked.value
  by_cases outside : iteratorOrEnd l n = l.length ∧ n < 0
  · rw [if_pos outside] at ran
    refine .inl ⟨?_, ?_⟩
    · rw [popCount_outside nonempty outside]
      rfl
    · rw [if_neg nonempty, if_neg nonempty]
      exact (Operation.answers_iff checks).mpr ⟨_, ran, checked⟩
  · rw [if_neg outside] at ran
    refine .inr ⟨?_, (Operation.answers_iff checks).mpr ⟨_, ran, checked.putOrDel rest⟩⟩
    rw [size, iteratorOrEnd_count l outside]

theorem listPopLeft_pops (nonempty : l ≠ []) (seen : db.view (env.now 0) key = (some (.list l), expiry)) (n : Int64) :
    ∃ popped rest, popped ++ rest = l ∧ Pops (listPopLeft key n) env db key l n expiry popped rest := by
  have size : (l.take (iteratorOrEnd l n)).length = iteratorOrEnd l n :=
    List.length_take_of_le (iteratorOrEnd_le l n)
  have pops : Pops (listPopLeft key n) env db key l n expiry [] l ∨
      Pops (listPopLeft key n) env db key l n expiry (l.take (iteratorOrEnd l n)) (l.drop (iteratorOrEnd l n)) := by
    apply pops_of_body nonempty seen rfl size
    intro s held
    simp only [listPopLeft, held]
  rcases pops with nothing | some
  · exact ⟨[], l, rfl, nothing⟩
  · exact ⟨_, _, List.take_append_drop .., some⟩

theorem listPopRight_pops (nonempty : l ≠ []) (seen : db.view (env.now 0) key = (some (.list l), expiry)) (n : Int64) :
    ∃ rest popped, rest ++ popped = l ∧ Pops (listPopRight key n) env db key l n expiry popped rest := by
  have within := iteratorOrEnd_le l n
  have size : (l.drop (l.length - iteratorOrEnd l n)).length = iteratorOrEnd l n := by
    rw [List.length_drop]
    omega
  have pops : Pops (listPopRight key n) env db key l n expiry [] l ∨
      Pops (listPopRight key n) env db key l n expiry (l.drop (l.length - iteratorOrEnd l n))
        (l.take (l.length - iteratorOrEnd l n)) := by
    apply pops_of_body nonempty seen rfl size
    intro s held
    simp only [listPopRight, held]
    rfl
  rcases pops with nothing | some
  · exact ⟨l, [], List.append_nil l, nothing⟩
  · exact ⟨_, _, List.take_append_drop .., some⟩

/-- Either pop splits a stored list at the place its count says. -/
theorem pops_partition (nonempty : l ≠ []) (seen : db.view (env.now 0) key = (some (.list l), expiry)) (n : Int64) :
    (∃ popped rest, popped ++ rest = l ∧ Pops (listPopLeft key n) env db key l n expiry popped rest) ∧
      ∃ rest popped, rest ++ popped = l ∧ Pops (listPopRight key n) env db key l n expiry popped rest :=
  ⟨listPopLeft_pops nonempty seen n, listPopRight_pops nonempty seen n⟩

end

theorem letters_partition :
    (∃ popped rest, popped ++ rest = [[97], [98], [99]] ∧ Pops (listPopLeft [107] (-1)) (.frozen 0)
      (.holding [107] (.list [[97], [98], [99]])) [107] [[97], [98], [99]] (-1) none popped rest) ∧
    ∃ rest popped, rest ++ popped = [[97], [98], [99]] ∧ Pops (listPopRight [107] (-1)) (.frozen 0)
      (.holding [107] (.list [[97], [98], [99]])) [107] [[97], [98], [99]] (-1) none popped rest :=
  pops_partition (by decide) (Database.holding_view ..) (-1)

/-! ### Pushes -/

/-- The list at a key, or the error of a key that holds something else. -/
def listAt : Option Data → Except ListErrorKind ListT
  | none => .ok []
  | some (.list l) => .ok l
  | some _ => .error .notList

/-- The push leaves the joined list with the expiry time of the key and returns its length, or it
reports that there is no list and leaves the key as it is. -/
def Pushes (op : Operation (Except ListErrorKind Nat)) (join : ListT → ListT) (env : Env) (db : Database)
    (key : Str) : Prop :=
  match listAt (db.view (env.now 0) key).1 with
  | .ok l => op.Answers env db key (.ok (join l).length) (if join l = [] then none else some (.list (join l)))
      (db.view (env.now 0) key).2
  | .error e => op.Answers env db key (.error e) (db.view (env.now 0) key).1 (db.view (env.now 0) key).2

section
variable {env : Env} {db : Database} {key : Str} {values : ListT} {join : ListT → ListT}

/-- A push of something always answers. -/
theorem listPush_pushes (grows : ∀ l, (join l).length = l.length + values.length) (something : values ≠ []) :
    Pushes (listPush join key values) join env db key := by
  have filled : ∀ l, join l ≠ [] := by
    intro l empty
    have counted := grows l
    have pushed := List.length_pos_iff.mpr something
    rw [empty, List.length_nil] at counted
    omega
  have nonempty : values.isEmpty = false := by simpa using something
  have checked := eraseIfExpired_rebinds db (env.now 0) key
  unfold Pushes
  cases seen : (db.view (env.now 0) key).1 with
  | none =>
    rw [seen] at checked
    simp only [listAt, if_neg (filled _)]
    refine (Operation.answers_iff rfl).mpr ⟨_, ?_, (checked.put (.list [])).put (.list (join []))⟩
    simp only [listPush, nonempty, Store.contains_eq, checked.value, Option.isSome_none, Bool.false_eq_true,
      if_false, Store.put_lookup, if_true]
  | some value =>
    rw [seen] at checked
    cases value with
    | list l =>
      simp only [listAt, if_neg (filled _)]
      refine (Operation.answers_iff rfl).mpr ⟨_, ?_, checked.put (.list (join l))⟩
      simp only [listPush, nonempty, Store.contains_eq, checked.value, Option.isSome_some, Bool.false_eq_true,
        if_false, if_true]
    | _ =>
      refine (Operation.answers_iff rfl).mpr ⟨_, ?_, checked⟩
      simp only [listPush, nonempty, Store.contains_eq, checked.value, Option.isSome_some, Bool.false_eq_true,
        if_false, if_true]

/-- A push of nothing answers 0 before it looks at the key, which is right only if there is no key. -/
theorem listPush_nothing (grows : ∀ l, (join l).length = l.length) :
    Pushes (listPush join key []) join env db key ↔ (db.view (env.now 0) key).1 = none := by
  have checked := eraseIfExpired_rebinds db (env.now 0) key
  have body : (listPush join key []).body (db.eraseIfExpired (env.now 0) key).2.store =
      some (.ok 0, (db.eraseIfExpired (env.now 0) key).2.store) := rfl
  have empty : join [] = [] := List.length_eq_zero_iff.mp (grows [])
  unfold Pushes
  cases seen : (db.view (env.now 0) key).1 with
  | none =>
    rw [seen] at checked
    simp only [listAt, empty, if_true, iff_true]
    exact (Operation.answers_iff rfl).mpr ⟨_, body, checked⟩
  | some value =>
    rw [seen] at checked
    have refuted : ∀ result left, (result = .ok 0 → left = none) →
        ¬(listPush join key []).Answers env db key result left (db.view (env.now 0) key).2 := by
      intro result left gone answers
      obtain ⟨t, same, rebinds⟩ := (Operation.answers_iff rfl).mp answers
      rw [body] at same
      obtain ⟨rfl, rfl⟩ := Prod.mk.inj (Option.some.inj same)
      have held := checked.value.symm.trans (rebinds.value.trans (gone rfl))
      cases held
    simp only [reduceCtorEq, iff_false]
    cases value with
    | list l =>
      apply refuted
      intro zero
      have none : join l = [] := List.length_eq_zero_iff.mp (Except.ok.inj zero)
      exact if_pos none
    | _ =>
      apply refuted
      intro zero
      cases zero

theorem listPush_iff (grows : ∀ l, (join l).length = l.length + values.length) :
    Pushes (listPush join key values) join env db key ↔ values ≠ [] ∨ (db.view (env.now 0) key).1 = none := by
  by_cases empty : values = []
  · subst empty
    rw [listPush_nothing grows]
    simp
  · exact iff_of_true (listPush_pushes grows empty) (.inl empty)

end

/-- Both pushes build the list and report its length, exactly if they push something or there is no key. -/
theorem pushes_iff (env : Env) (db : Database) (key : Str) (values : ListT) :
    (Pushes (listPushLeft key values) (fun l => values.reverse ++ l) env db key ∧
      Pushes (listPushRight key values) (fun l => l ++ values) env db key) ↔
        values ≠ [] ∨ (db.view (env.now 0) key).1 = none := by
  have left : Pushes (listPushLeft key values) (fun l => values.reverse ++ l) env db key ↔
      values ≠ [] ∨ (db.view (env.now 0) key).1 = none := by
    apply listPush_iff
    intro l
    rw [List.length_append, List.length_reverse, Nat.add_comm]
  have right : Pushes (listPushRight key values) (fun l => l ++ values) env db key ↔
      values ≠ [] ∨ (db.view (env.now 0) key).1 = none := by
    apply listPush_iff
    intro l
    rw [List.length_append]
  rw [left, right, and_self_iff]

/-- `LIST_PUSH_RIGHT` of nothing to a list of three returns 0. -/
theorem letters_pushNothing : ¬Pushes (listPushRight [107] []) (fun l => l ++ []) (.frozen 0)
    (.holding [107] (.list [[97], [98], [99]])) [107] := by
  intro pushes
  unfold Pushes at pushes
  rw [Database.holding_view] at pushes
  obtain ⟨t, body, -⟩ := (Operation.answers_iff rfl).mp pushes
  cases body

end Vanity.Db
