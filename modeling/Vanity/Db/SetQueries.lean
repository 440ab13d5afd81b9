import Vanity.Db.Sets

/-!
# What the set queries compute

The collecting loops of `set_union` and `set_intersection` stop at the first operand that decides the
result. Here they are described by which operand that is and by the elements of the others.
-/

namespace Vanity.Db

namespace Store

def elements (s : Store) (key : Str) : SetT :=
  match s.data.lookup key with
  | some (.set set) => set
  | _ => ∅

def isSet (s : Store) (key : Str) : Bool :=
  match s.data.lookup key with
  | some (.set _) => true
  | _ => false

def wrongType (s : Store) (key : Str) : Bool :=
  match s.data.lookup key with
  | none | some (.set _) => false
  | some _ => true

end Store

/-! ### Unions -/

theorem foldl_union (sets : List SetT) (start : SetT) :
    sets.foldl (· ∪ ·) start = start ∪ sets.foldr (· ∪ ·) ∅ := by
  induction sets generalizing start with
  | nil => simp
  | cons set sets ih => rw [List.foldl_cons, ih, List.foldr_cons, Finset.union_assoc]

theorem gatherPresent_finds (s : Store) (keys : List Str) : gatherPresent s keys ≠ .missing := by
  induction keys with
  | nil => simp [gatherPresent]
  | cons key keys ih =>
    rw [gatherPresent]
    split
    · exact ih
    · split
      · simp
      · exact ih
    · simp

theorem unionOf_cons (s : Store) (key : Str) (keys : List Str) :
    unionOf s (key :: keys) = if s.wrongType key then none else (unionOf s keys).map (s.elements key ∪ ·) := by
  have found := gatherPresent_finds s keys
  rw [unionOf, gatherPresent]
  cases stored : s.data.lookup key with
  | none => simp [Store.wrongType, Store.elements, stored, unionOf]
  | some value =>
    cases value with
    | set set =>
      rw [unionOf]
      cases gathered : gatherPresent s keys with
      | sets sets => simp [Store.wrongType, Store.elements, stored, foldl_union sets set, foldl_union sets ∅]
      | missing => exact absurd gathered found
      | notSet => simp [Store.wrongType, stored]
    | _ => simp [Store.wrongType, stored]

/-- An operand that is neither missing nor a set makes the union an error. -/
theorem unionOf_eq (s : Store) (keys : List Str) :
    unionOf s keys =
      if keys.any s.wrongType then none else some (keys.foldr (fun key set => s.elements key ∪ set) ∅) := by
  induction keys with
  | nil => rfl
  | cons key keys ih =>
    rw [unionOf_cons, ih, List.any_cons, List.foldr_cons]
    cases s.wrongType key
    · cases keys.any s.wrongType <;> rfl
    · simp

theorem unionOf_empty {s : Store} {keys : List Str} :
    unionOf s keys = some ∅ ↔ ∀ key ∈ keys, s.wrongType key = false ∧ s.elements key = ∅ := by
  induction keys with
  | nil => simp [unionOf_eq]
  | cons key keys ih =>
    rw [unionOf_cons, List.forall_mem_cons, ← ih]
    cases s.wrongType key
    · simp only [Bool.false_eq_true, if_false, Option.map_eq_some_iff, Finset.union_eq_empty, true_and]
      constructor
      · rintro ⟨set, rest, here, rfl⟩
        exact ⟨here, rest⟩
      · rintro ⟨here, rest⟩
        exact ⟨∅, rest, here, rfl⟩
    · simp

/-! ### Intersections -/

/-- The first operand that is not a set decides; without one the loop collects all operands. -/
theorem gatherAll_eq (s : Store) (keys : List Str) :
    gatherAll s keys = match keys.find? fun key => !s.isSet key with
      | none => .sets (keys.map s.elements)
      | some key => if s.wrongType key then .notSet else .missing := by
  induction keys with
  | nil => rfl
  | cons key keys ih =>
    rw [gatherAll, List.find?_cons]
    cases stored : s.data.lookup key with
    | none => simp [Store.isSet, Store.wrongType, stored]
    | some value =>
      cases value with
      | set set =>
        have here : s.isSet key = true := by simp [Store.isSet, stored]
        simp only [here, Bool.not_true, ih]
        cases keys.find? fun key => !s.isSet key with
        | none => simp [Store.elements, stored]
        | some first =>
          dsimp only
          cases s.wrongType first <;> rfl
      | _ => simp [Store.isSet, Store.wrongType, stored]

theorem smallest_mem {sets : List SetT} (some : sets ≠ []) : smallest sets ∈ sets := by
  cases sets with
  | nil => exact absurd rfl some
  | cons set sets =>
    clear some
    rw [smallest]
    induction sets generalizing set with
    | nil => exact List.mem_cons_self
    | cons other sets ih =>
      rw [List.foldl_cons]
      split
      · exact List.mem_cons_of_mem _ (ih other)
      · rcases List.mem_cons.mp (ih set) with here | later
        · rw [here]
          exact List.mem_cons_self
        · exact List.mem_cons_of_mem _ (List.mem_cons_of_mem _ later)

def common (s : Store) (keys : List Str) : SetT :=
  (smallest (keys.map s.elements)).filter fun value => ∀ set ∈ keys.map s.elements, value ∈ set

theorem mem_common {s : Store} {keys : List Str} {value : Str} :
    value ∈ common s keys ↔ keys ≠ [] ∧ ∀ key ∈ keys, value ∈ s.elements key := by
  rw [common, Finset.mem_filter, List.forall_mem_map]
  constructor
  · rintro ⟨member, all⟩
    refine ⟨?_, all⟩
    rintro rfl
    simp [smallest] at member
  · rintro ⟨some, all⟩
    refine ⟨?_, all⟩
    have nonempty : keys.map s.elements ≠ [] := by simpa using some
    obtain ⟨key, member, same⟩ := List.mem_map.mp (smallest_mem nonempty)
    rw [← same]
    exact all key member

theorem intersectionOf_eq (s : Store) (keys : List Str) :
    intersectionOf s keys = match keys.find? fun key => !s.isSet key with
      | none => some (common s keys)
      | some key => if s.wrongType key then none else some ∅ := by
  rw [intersectionOf, gatherAll_eq]
  cases keys.find? fun key => !s.isSet key with
  | none => rfl
  | some key =>
    dsimp only
    cases s.wrongType key <;> rfl

theorem intersectionOf_empty {s : Store} {keys : List Str} :
    intersectionOf s keys = some ∅ ↔
      match keys.find? fun key => !s.isSet key with
      | none => ∀ value, ¬(keys ≠ [] ∧ ∀ key ∈ keys, value ∈ s.elements key)
      | some key => s.wrongType key = false := by
  rw [intersectionOf_eq]
  cases keys.find? fun key => !s.isSet key with
  | none =>
    simp only [Option.some.injEq, Finset.eq_empty_iff_forall_notMem, mem_common]
  | some key => cases s.wrongType key <;> simp

theorem differenceOf_empty {s : Store} {key1 key2 : Str} :
    differenceOf s key1 key2 = some ∅ ↔
      s.data.lookup key1 = none ∨ s.data.lookup key2 = none ∨
        (s.isSet key1 = true ∧ s.isSet key2 = true ∧ s.elements key1 ⊆ s.elements key2) := by
  unfold differenceOf Store.isSet Store.elements
  cases s.data.lookup key1 with
  | none => simp
  | some first =>
    cases s.data.lookup key2 with
    | none => simp
    | some second => cases first <;> cases second <;> simp [Finset.sdiff_eq_empty_iff_subset]

end Vanity.Db
