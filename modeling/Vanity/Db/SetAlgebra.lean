import Vanity.Db.Checks

/-!
# Unions and intersections of stored sets

What the set queries should compute is said by membership, so that neither the order of the keys nor a
repetition can matter: an element is in the union if it is in the set of some key, in the intersection if
it is in the set of every key, and a key that has expired or is missing has no elements.
-/

namespace Vanity.Db

namespace Database

/-- An unexpired key that is bound to something else than a set. -/
def WrongAt (db : Database) (now : Nat → Time) (keys : List Str) (key : Str) : Prop :=
  ¬db.ExpiredAt now keys key ∧ db.store.wrongType key = true

def BoundAt (db : Database) (now : Nat → Time) (keys : List Str) (key : Str) : Prop :=
  ¬db.ExpiredAt now keys key ∧ db.store.data.lookup key ≠ none

def ElementAt (db : Database) (now : Nat → Time) (keys : List Str) (key value : Str) : Prop :=
  ¬db.ExpiredAt now keys key ∧ value ∈ db.store.elements key

end Database

/-- The result of a set query: a type error, or the set of the elements that belong to it. -/
def Decides (error : Prop) (belongs : Str → Prop) : Option SetT → Prop
  | none => error
  | some set => ¬error ∧ ∀ value, value ∈ set ↔ belongs value

def IsUnion (db : Database) (now : Nat → Time) (keys : List Str) : Option SetT → Prop :=
  Decides (∃ key ∈ keys, db.WrongAt now keys key) fun value => ∃ key ∈ keys, db.ElementAt now keys key value

def IsIntersection (db : Database) (now : Nat → Time) (keys : List Str) : Option SetT → Prop :=
  Decides (∃ key ∈ keys, db.WrongAt now keys key) fun value => ∀ key ∈ keys, db.ElementAt now keys key value

/-- A set query in its three forms: the set, its size, and the set bound to a key. -/
structure SetQuery where
  plain : List Str → Operation (Option SetT)
  len : List Str → Operation (Option Nat)
  into : Str → List Str → Operation (Option Nat)

def SetQuery.union : SetQuery := ⟨setUnion, setUnionLen, setUnionInto⟩

def SetQuery.intersection : SetQuery := ⟨setIntersection, setIntersectionLen, setIntersectionInto⟩

/-- The same keys in any order and number, of which the same have expired. -/
def SameKeys (db : Database) (now : Nat → Time) (keys : List Str) (now' : Nat → Time) (keys' : List Str) : Prop :=
  (∀ key, key ∈ keys' ↔ key ∈ keys) ∧
    ∀ key ∈ keys, db.ExpiredAt now' keys' key ↔ db.ExpiredAt now keys key

/-- The three forms agree on the result, for these keys in any order and number, and change nothing but
what they are for. -/
structure SetQuery.Gives (query : SetQuery) (env : Env) (db : Database) (keys : List Str) (dest : Str)
    (result : Option SetT) : Prop where
  plain : ∃ after, (query.plain keys).run env db = some (result, after) ∧ db.Leaves env.now keys [] after
  len : ∃ after, (query.len keys).run env db = some (result.map Finset.card, after) ∧
    db.Leaves env.now keys [] after
  error : result = none → ∃ after, (query.into dest keys).run env db = some (none, after) ∧
    db.Leaves env.now keys [] after
  into : ∀ set, result = some set → ∃ after, (query.into dest keys).run env db = some (some set.card, after) ∧
    after.store.data.lookup dest = some (.set set) ∧ after.store.expiryTimes.lookup dest = none ∧
    db.Leaves env.now keys [dest] after
  anyOrder : ∀ (env' : Env) keys', SameKeys db env.now keys env'.now keys' →
    ∃ after, (query.plain keys').run env' db = some (result, after)

/-! ### The tables behind the checks -/

section
variable {db : Database} {now now' : Nat → Time} {keys keys' : List Str} {key value : Str}

theorem checked_lookup (db : Database) (now : Nat → Time) (keys : List Str) (key : Str) :
    (db.eraseEach now keys).store.data.lookup key =
      open Classical in if db.ExpiredAt now keys key then none else db.store.data.lookup key := by
  have left := db.eraseEach_leaves now keys key List.not_mem_nil
  split
  · rename_i expired
    exact (left.1 expired).1
  · rename_i fresh
    exact (left.2 fresh).1

theorem checked_wrongType :
    (db.eraseEach now keys).store.wrongType key = true ↔ db.WrongAt now keys key := by
  unfold Database.WrongAt Store.wrongType
  rw [checked_lookup]
  by_cases expired : db.ExpiredAt now keys key <;> simp [expired]

theorem checked_elements :
    value ∈ (db.eraseEach now keys).store.elements key ↔ db.ElementAt now keys key value := by
  unfold Database.ElementAt Store.elements
  rw [checked_lookup]
  by_cases expired : db.ExpiredAt now keys key <;> simp [expired]

theorem checked_isSet :
    (db.eraseEach now keys).store.isSet key = true ↔ db.BoundAt now keys key ∧ ¬db.WrongAt now keys key := by
  unfold Database.BoundAt Database.WrongAt Store.isSet Store.wrongType
  rw [checked_lookup]
  by_cases expired : db.ExpiredAt now keys key
  · simp [expired]
  · cases found : db.store.data.lookup key with
    | none => simp [expired]
    | some stored => cases stored <;> simp [expired]

theorem mem_foldr_elements (s : Store) (keys : List Str) (value : Str) :
    value ∈ keys.foldr (fun key set => s.elements key ∪ set) ∅ ↔ ∃ key ∈ keys, value ∈ s.elements key := by
  induction keys with
  | nil => simp
  | cons key keys ih => rw [List.foldr_cons, Finset.mem_union, ih, List.exists_mem_cons_iff]

theorem unionOf_isUnion (db : Database) (now : Nat → Time) (keys : List Str) :
    IsUnion db now keys (unionOf (db.eraseEach now keys).store keys) := by
  rw [unionOf_eq]
  split
  · rename_i wrong
    obtain ⟨key, member, typed⟩ := List.any_eq_true.mp wrong
    exact ⟨key, member, checked_wrongType.mp typed⟩
  · rename_i fine
    refine ⟨fun ⟨key, member, wrong⟩ => fine ?_, fun value => ?_⟩
    · exact List.any_eq_true.mpr ⟨key, member, checked_wrongType.mpr wrong⟩
    · rw [mem_foldr_elements]
      simp only [checked_elements]

theorem Database.ElementAt.bound (element : db.ElementAt now keys key value) : db.BoundAt now keys key := by
  refine ⟨element.1, fun missing => ?_⟩
  have inside := element.2
  rw [Store.elements, missing] at inside
  exact Finset.notMem_empty _ inside

theorem Database.WrongAt.bound (wrong : db.WrongAt now keys key) : db.BoundAt now keys key := by
  refine ⟨wrong.1, fun missing => ?_⟩
  have typed := wrong.2
  rw [Store.wrongType, missing] at typed
  cases typed

/-- A missing key ends the loop, so that a later key of another type goes unnoticed. -/
theorem intersectionOf_missing (missing : ¬db.BoundAt now keys key) (rest : List Str) :
    intersectionOf (db.eraseEach now keys).store (key :: rest) = some ∅ := by
  have unset : (db.eraseEach now keys).store.isSet key = false := by
    rw [← Bool.not_eq_true, checked_isSet]
    exact fun found => missing found.1
  have fine : (db.eraseEach now keys).store.wrongType key = false := by
    rw [← Bool.not_eq_true, checked_wrongType]
    exact fun wrong => missing wrong.bound
  rw [intersectionOf_eq, List.find?_cons_of_pos (by simp [unset])]
  simp [fine]

theorem intersectionOf_isIntersection (nonempty : keys ≠ [])
    (uniform : (∀ key ∈ keys, ¬db.WrongAt now keys key) ∨ ∀ key ∈ keys, db.BoundAt now keys key) :
    IsIntersection db now keys (intersectionOf (db.eraseEach now keys).store keys) := by
  rw [intersectionOf_eq]
  cases first : keys.find? fun key => !(db.eraseEach now keys).store.isSet key with
  | none =>
    have sets : ∀ key ∈ keys, (db.eraseEach now keys).store.isSet key = true := by
      intro key member
      simpa using List.find?_eq_none.mp first key member
    refine ⟨fun ⟨key, member, wrong⟩ => (checked_isSet.mp (sets key member)).2 wrong, fun value => ?_⟩
    rw [mem_common, and_iff_right nonempty]
    simp only [checked_elements]
  | some key =>
    have member := List.mem_of_find?_eq_some first
    have unset : (db.eraseEach now keys).store.isSet key = false := by simpa using List.find?_some first
    dsimp only
    split
    · rename_i typed
      exact ⟨key, member, checked_wrongType.mp typed⟩
    · rename_i typed
      have fine : ¬db.WrongAt now keys key := fun wrong => typed (checked_wrongType.mpr wrong)
      have missing : ¬db.BoundAt now keys key := by
        intro bound
        have set := checked_isSet.mpr ⟨bound, fine⟩
        rw [unset] at set
        cases set
      have typed : ∀ key ∈ keys, ¬db.WrongAt now keys key := by
        rcases uniform with typed | bound
        · exact typed
        · exact absurd (bound key member) missing
      refine ⟨fun ⟨other, found, wrong⟩ => typed other found wrong, fun value => ?_⟩
      exact iff_of_false (Finset.notMem_empty _) fun all => missing (all key member).bound

/-! ### The order of the keys -/

theorem Decides.unique {error error' : Prop} {belongs belongs' : Str → Prop} {result result' : Option SetT}
    (here : Decides error belongs result) (there : Decides error' belongs' result') (errors : error' ↔ error)
    (same : ∀ value, belongs' value ↔ belongs value) : result' = result := by
  cases result with
  | none =>
    cases result' with
    | none => rfl
    | some set' => exact absurd (errors.mpr here) there.1
  | some set =>
    cases result' with
    | none => exact absurd (errors.mp there) here.1
    | some set' =>
      apply congrArg some
      ext value
      rw [there.2, same, here.2]

namespace SameKeys

theorem expired (same : SameKeys db now keys now' keys') (key : Str) :
    db.ExpiredAt now' keys' key ↔ db.ExpiredAt now keys key := by
  constructor
  · intro expired
    exact (same.2 key ((same.1 key).mp expired.mem)).mp expired
  · intro expired
    exact (same.2 key expired.mem).mpr expired

theorem wrong (same : SameKeys db now keys now' keys') (key : Str) :
    db.WrongAt now' keys' key ↔ db.WrongAt now keys key := by
  unfold Database.WrongAt
  rw [same.expired]

theorem bound (same : SameKeys db now keys now' keys') (key : Str) :
    db.BoundAt now' keys' key ↔ db.BoundAt now keys key := by
  unfold Database.BoundAt
  rw [same.expired]

theorem element (same : SameKeys db now keys now' keys') (key value : Str) :
    db.ElementAt now' keys' key value ↔ db.ElementAt now keys key value := by
  unfold Database.ElementAt
  rw [same.expired]

/-- On a clock that stands still it is enough that the keys are the same. -/
theorem still {t : Time} (same : ∀ key, key ∈ keys' ↔ key ∈ keys) :
    SameKeys db (fun _ => t) keys (fun _ => t) keys' := by
  refine ⟨same, fun key _ => ?_⟩
  rw [Database.expiredAt_still, Database.expiredAt_still, same]

theorem union_eq (same : SameKeys db now keys now' keys') {result result' : Option SetT}
    (here : IsUnion db now keys result) (there : IsUnion db now' keys' result') : result' = result := by
  apply Decides.unique here there
  · simp only [same.1, same.wrong]
  · intro value
    simp only [same.1, same.element]

theorem intersection_eq (same : SameKeys db now keys now' keys') {result result' : Option SetT}
    (here : IsIntersection db now keys result) (there : IsIntersection db now' keys' result') :
    result' = result := by
  apply Decides.unique here there
  · simp only [same.1, same.wrong]
  · intro value
    simp only [same.1, same.element]

end SameKeys

end

/-! ### The three forms of a query -/

/-- The query that computes a set from the tables behind the checks. -/
def SetQuery.of (eval : Store → List Str → Option SetT) : SetQuery where
  plain keys := setQuery keys (eval · keys)
  len keys := setQueryLen keys (eval · keys)
  into dest keys := setQueryInto keys (eval · keys) dest

section
variable {env : Env} {db : Database} {keys : List Str}

theorem plain_run (eval : Store → List Str → Option SetT) (env : Env) (db : Database) (keys : List Str) :
    ((SetQuery.of eval).plain keys).run env db =
      some (eval (db.eraseEach env.now keys).store keys, db.eraseEach env.now keys) := rfl

theorem of_gives (eval : Store → List Str → Option SetT) (dest : Str)
    (anyOrder : ∀ (env' : Env) keys', SameKeys db env.now keys env'.now keys' →
      eval (db.eraseEach env'.now keys').store keys' = eval (db.eraseEach env.now keys).store keys) :
    (SetQuery.of eval).Gives env db keys dest (eval (db.eraseEach env.now keys).store keys) := by
  have leaves := db.eraseEach_leaves env.now keys
  refine ⟨⟨_, plain_run .., leaves⟩, ⟨_, rfl, leaves⟩, fun error => ?_, fun set computed => ?_, ?_⟩
  · refine ⟨db.eraseEach env.now keys, ?_, leaves⟩
    simp [SetQuery.of, Operation.run, setQueryInto, error]
  · refine ⟨{ db.eraseEach env.now keys with store :=
      ((db.eraseEach env.now keys).store.put dest (.set set)).clearExpiry dest }, ?_, ?_, ?_, leaves.within ?_⟩
    · simp [SetQuery.of, Operation.run, setQueryInto, computed]
    · simp
    · simp
    · intro other outside
      have different : other ≠ dest := fun same => outside (List.mem_singleton.mpr same)
      simp [different]
  · intro env' keys' same
    refine ⟨db.eraseEach env'.now keys', ?_⟩
    rw [plain_run, anyOrder env' keys' same]

end

/-- The union of the unexpired sets, in all its forms and for every order of the keys. -/
theorem union_gives (env : Env) (db : Database) (keys : List Str) (dest : Str) :
    ∃ result, IsUnion db env.now keys result ∧ SetQuery.union.Gives env db keys dest result := by
  refine ⟨_, unionOf_isUnion db env.now keys, of_gives unionOf dest fun env' keys' same => ?_⟩
  exact same.union_eq (unionOf_isUnion ..) (unionOf_isUnion ..)

theorem missing_run {env : Env} {db : Database} {key : Str} {rest : List Str}
    (missing : ¬db.BoundAt env.now (key :: rest) key) :
    (SetQuery.intersection.plain (key :: rest)).run env db = some (some ∅, db.eraseEach env.now (key :: rest)) := by
  have ran := plain_run intersectionOf env db (key :: rest)
  rwa [intersectionOf_missing missing] at ran

/-- The readings of the clock with one of them once more in front. -/
def Env.repeating (env : Env) (n : Nat) : Env :=
  { env with now := fun i => if i = 0 then env.now n else env.now (i - 1) }

theorem sameKeys_cons (env : Env) (db : Database) {keys : List Str} {n : Nat} {key : Str}
    (found : keys[n]? = some key) : SameKeys db env.now keys (env.repeating n).now (key :: keys) := by
  have member := List.mem_of_getElem? found
  refine ⟨fun other => ?_, fun other _ => ?_⟩
  · rw [List.mem_cons, or_iff_right_of_imp]
    rintro rfl
    exact member
  · rw [Database.expiredAt_cons]
    refine or_iff_right_of_imp ?_
    rintro ⟨rfl, due⟩
    exact ⟨n, found, due⟩

/-- The intersection is right, in all its forms and for every order of the keys, exactly if no key is of
another type or none is missing. -/
theorem intersection_gives_iff {keys : List Str} (nonempty : keys ≠ []) (env : Env) (db : Database) (dest : Str) :
    (∃ result, IsIntersection db env.now keys result ∧ SetQuery.intersection.Gives env db keys dest result) ↔
      (∀ key ∈ keys, ¬db.WrongAt env.now keys key) ∨ ∀ key ∈ keys, db.BoundAt env.now keys key := by
  constructor
  · rintro ⟨result, intersection, gives⟩
    by_contra mixed
    obtain ⟨typed, bound⟩ := not_or.mp mixed
    push Not at typed bound
    obtain ⟨key, missing, absent⟩ := bound
    -- the missing key is put in front, where it hides the type error
    obtain ⟨n, found⟩ := List.mem_iff_getElem?.mp missing
    have same := sameKeys_cons env db found
    obtain ⟨after, ran⟩ := gives.anyOrder (env.repeating n) (key :: keys) same
    have absent' : ¬db.BoundAt (env.repeating n).now (key :: keys) key := by
      rwa [same.bound]
    rw [missing_run absent'] at ran
    obtain ⟨rfl, -⟩ := Prod.mk.inj (Option.some.inj ran)
    exact intersection.1 typed
  · intro uniform
    refine ⟨_, intersectionOf_isIntersection nonempty uniform, of_gives intersectionOf dest ?_⟩
    intro env' keys' same
    have nonempty' : keys' ≠ [] := by
      rintro rfl
      obtain ⟨key, member⟩ := List.exists_mem_of_ne_nil keys nonempty
      cases (same.1 key).mpr member
    have uniform' : (∀ key ∈ keys', ¬db.WrongAt env'.now keys' key) ∨
        ∀ key ∈ keys', db.BoundAt env'.now keys' key := by
      simpa only [same.1, same.wrong, same.bound] using uniform
    exact same.intersection_eq (intersectionOf_isIntersection nonempty uniform)
      (intersectionOf_isIntersection nonempty' uniform')

def integerKeyed : Database := .holding [97] (.int 1)

theorem integerKeyed_gives :
    (∃ result, IsIntersection integerKeyed (Env.frozen 0).now [[97]] result ∧
      SetQuery.intersection.Gives (.frozen 0) integerKeyed [[97]] [99] result) ↔
    (∀ key ∈ [[97]], ¬integerKeyed.WrongAt (Env.frozen 0).now [[97]] key) ∨
      ∀ key ∈ [[97]], integerKeyed.BoundAt (Env.frozen 0).now [[97]] key :=
  intersection_gives_iff (List.cons_ne_nil _ _) _ _ _

/-- `SET_INTERSECT` of a missing key and an integer reports no type error. -/
theorem integerKeyed_unnoticed :
    ¬∃ result, IsIntersection integerKeyed (Env.frozen 0).now [[98], [97]] result ∧
      SetQuery.intersection.Gives (.frozen 0) integerKeyed [[98], [97]] [99] result := by
  rintro ⟨result, intersection, gives⟩
  have fresh : ∀ key, ¬integerKeyed.ExpiredAt (Env.frozen 0).now [[98], [97]] key := by
    rintro key ⟨n, -, due⟩
    simp [integerKeyed, Database.holding, Database.isExpired] at due
  have missing : ¬integerKeyed.BoundAt (Env.frozen 0).now [[98], [97]] [98] := by
    rintro ⟨-, bound⟩
    simp [integerKeyed, Database.holding, Finmap.lookup_insert_of_ne] at bound
  obtain ⟨after, ran, -⟩ := gives.plain
  rw [missing_run missing] at ran
  obtain ⟨rfl, -⟩ := Prod.mk.inj (Option.some.inj ran)
  refine intersection.1 ⟨[97], by decide, fresh _, ?_⟩
  simp [integerKeyed, Database.holding, Store.wrongType]

end Vanity.Db
