import Vanity.Db.EagerExpiry

/-!
# Missing keys

A missing key is meant to behave as an empty collection. Each operation handles the missing key in a
branch of its own; here that branch is compared with what the rest of the operation does on an empty
collection.
-/

namespace Vanity.Db

namespace Op

/-- The empty collection of the family that a list, set or hash operation belongs to. -/
def emptyValue : Op → Option Data
  | .listLen _ | .listGet .. | .listSet .. | .listPushLeft .. | .listPushRight .. | .listPopLeft ..
  | .listPopRight .. | .listRange .. | .listTrim .. | .listRemove .. => some (.list [])
  | .setAdd .. | .setAll _ | .setRemove .. | .setDiscard .. | .setLen _ | .setContains .. | .setMove ..
  | .setUnion _ | .setUnionInto .. | .setUnionLen _
  | .setIntersection _ | .setIntersectionInto .. | .setIntersectionLen _
  | .setDifference .. | .setDifferenceInto .. | .setDifferenceLen .. => some (.set ∅)
  | .hashSet .. | .hashAll _ | .hashGet .. | .hashContains .. | .hashLen _ | .hashKeyLen .. | .hashRemove ..
  | .hashKeys _ | .hashValues _ | .hashUpdate .. | .hashManyGet .. => some (.hash ∅)
  | _ => none

def operands : Op → List Str
  | .listLen key | .listGet key _ | .listSet key .. | .listPushLeft key _ | .listPushRight key _
  | .listPopLeft key _ | .listPopRight key _ | .listRange key .. | .listTrim key .. | .listRemove key ..
  | .setAdd key _ | .setAll key | .setRemove key _ | .setDiscard key _ | .setLen key | .setContains key _
  | .hashSet key _ | .hashAll key | .hashGet key _ | .hashContains key _ | .hashLen key | .hashKeyLen key _
  | .hashRemove key _ | .hashKeys key | .hashValues key | .hashUpdate key _ | .hashManyGet key _ => [key]
  | .setMove source dest _ => [source, dest]
  | .setUnion ks | .setUnionLen ks | .setIntersection ks | .setIntersectionLen ks => ks
  | .setUnionInto dest ks | .setIntersectionInto dest ks => dest :: ks
  | .setDifference key1 key2 | .setDifferenceLen key1 key2 => [key1, key2]
  | .setDifferenceInto dest key1 key2 => [dest, key1, key2]
  | _ => []

end Op

def Database.fill (db : Database) (key : Str) (value : Data) : Database :=
  { db with store := db.store.put key value }

/-- Equal at every key but one, which holds the same collection when absent counts as empty. -/
structure Store.SameUpTo (k : Str) (empty : Data) (s t : Store) : Prop where
  data : ∀ key, key ≠ k → s.data.lookup key = t.data.lookup key
  expiry : ∀ key, key ≠ k → s.expiryTimes.lookup key = t.expiryTimes.lookup key
  contents : (s.data.lookup k).getD empty = (t.data.lookup k).getD empty

/-- The call does with the key missing what it does with the key bound to an empty collection. -/
def MissingIsEmpty (op : Op) (env : Env) (i : Index) (k : Str) (empty : Data) (dbs : Databases) : Prop :=
  Option.Rel
    (fun missing filled => missing.1 = filled.1 ∧
      (∀ j, j ≠ i → (missing.2 j).store = (filled.2 j).store) ∧
      Store.SameUpTo k empty (missing.2 i).store (filled.2 i).store)
    (exec op env i dbs) (exec op env i (Function.update dbs i ((dbs i).fill k empty)))

/-- The operands of the set queries as their checks leave them, with the key filled in. -/
def filledIn (env : Env) (db : Database) (k : Str) (keys : List Str) : Store :=
  ((db.fill k (.set ∅)).eraseEach env.now keys).store

/-- The intersection returns at the first missing operand: no operand behind `k` may be of the wrong
type before another one is missing. -/
def IntersectionAgrees (k : Str) (ks : List Str) (filled : Store) : Prop :=
  ks.find? (fun key => !filled.isSet key || key == k) = some k →
    ∀ key, ks.find? (fun key => !filled.isSet key) = some key → filled.wrongType key = false

/-- The difference is empty if either operand is missing. -/
def DifferenceAgrees (k key1 key2 : Str) (filled : Store) : Prop :=
  (k = key1 → filled.wrongType key2 = false ∨ filled.isSet k = false) ∧
  (k = key2 → filled.wrongType key1 = false ∧ filled.elements key1 = ∅ ∨ filled.isSet k = false)

/-- The operations whose branch for a missing key does something else than the code after it. A key
that is missing but has an expiry time is erased by the checks, if this time has passed, whether it
is filled or not. -/
def HandlesMissing (env : Env) (db : Database) (k : Str) : Op → Prop
  | .hashUpdate .. => db.isExpired (env.now 0) k = true
  | .setDiscard .. | .hashRemove .. => db.isExpired (env.now 0) k = true ∨ env.staleSize % 2 ^ 64 = 0
  | .setIntersection ks | .setIntersectionLen ks | .setIntersectionInto _ ks =>
    IntersectionAgrees k ks (filledIn env db k ks)
  | .setDifference key1 key2 | .setDifferenceLen key1 key2 | .setDifferenceInto _ key1 key2 =>
    DifferenceAgrees k key1 key2 (filledIn env db k [key1, key2])
  | _ => True

/-! ### The two stores behind the checks -/

section
variable {k : Str} {empty : Data}

theorem fill_isExpired (db : Database) (k : Str) (value : Data) (t : Time) (key : Str) :
    (db.fill k value).isExpired t key = db.isExpired t key := rfl

/-- The filled key is erased with the other one, or else stays filled. -/
theorem eraseEach_fill (now : Nat → Time) (keys : List Str) (db : Database) (k : Str) (value : Data) :
    (db.fill k value).eraseEach now keys = db.eraseEach now keys ∨
      (db.fill k value).eraseEach now keys = (db.eraseEach now keys).fill k value := by
  induction keys generalizing now db with
  | nil => exact .inr rfl
  | cons key keys ih =>
    rw [Database.eraseEach, Database.eraseEach, Database.eraseIfExpired, Database.eraseIfExpired, fill_isExpired]
    split
    · by_cases same : key = k
      · subst same
        left
        have erased : (db.fill key value).expire key = db.expire key := by
          simp [Database.expire, Database.fill, Store.put_doExpire]
        rw [erased]
      · have kept : (db.fill k value).expire key = (db.expire key).fill k value := by
          have swapped : (db.store.put k value).doExpire key = (db.store.doExpire key).put k value := by
            apply Store.ext_lookup
            · intro other
              by_cases here : other = key
              · simp [here, same]
              · simp [here]
            · intro other
              rfl
          simp [Database.expire, Database.fill, swapped]
        rw [kept]
        exact ih _ _
    · exact ih _ _

theorem eraseEach_absent {db : Database} (now : Nat → Time) (keys : List Str)
    (absent : db.store.data.lookup k = none) : (db.eraseEach now keys).store.data.lookup k = none := by
  obtain ⟨expired, erased, -⟩ := Database.eraseEach_expired now keys db
  rw [erased.store, Store.foldl_doExpire_data, absent, ite_self]

def BodyMissing (operation : Operation Reply) (k : Str) (empty : Data) (s t : Store) : Prop :=
  Option.Rel (fun missing filled => missing.1 = filled.1 ∧ Store.SameUpTo k empty missing.2 filled.2)
    (operation.body s) (operation.body t)

theorem missing_iff {op : Op} {env : Env} {operation : Operation Reply} (here : op.action env = .here operation)
    (i : Index) (dbs : Databases) :
    MissingIsEmpty op env i k empty dbs ↔
      BodyMissing operation k empty ((dbs i).eraseEach env.now operation.checks).store
        (((dbs i).fill k empty).eraseEach env.now operation.checks).store := by
  rw [MissingIsEmpty, exec_here i _ here, exec_here i _ here, Function.update_self, BodyMissing]
  cases operation.body ((dbs i).eraseEach env.now operation.checks).store with
  | none =>
    cases operation.body (((dbs i).fill k empty).eraseEach env.now operation.checks).store with
    | none => exact iff_of_true .none .none
    | some outcome => simp
  | some outcome =>
    cases operation.body (((dbs i).fill k empty).eraseEach env.now operation.checks).store with
    | none => simp
    | some outcome' =>
      simp only [Option.map_some, Option.rel_some_some, Function.update_self]
      refine and_congr_right fun _ => ⟨And.right, fun same => ⟨fun j different => ?_, same⟩⟩
      simp [different]

theorem Store.SameUpTo.refl (s : Store) : SameUpTo k empty s s := ⟨fun _ _ => rfl, fun _ _ => rfl, rfl⟩

theorem BodyMissing.refl (operation : Operation Reply) (s : Store) : BodyMissing operation k empty s s := by
  unfold BodyMissing
  cases operation.body s with
  | none => exact .none
  | some outcome => exact .some ⟨rfl, .refl _⟩

theorem Store.SameUpTo.fill {s : Store} (absent : s.data.lookup k = none) : SameUpTo k empty s (s.put k empty) where
  data key different := by simp [different]
  expiry key _ := rfl
  contents := by simp [absent]

theorem Store.SameUpTo.drop {s : Store} (absent : s.data.lookup k = none) :
    SameUpTo k empty s ((s.put k empty).doExpire k) where
  data key different := by simp [different]
  expiry key different := by simp [different]
  contents := by simp [absent]

theorem missing_of_body {op : Op} {env : Env} {operation : Operation Reply} (here : op.action env = .here operation)
    {i : Index} {dbs : Databases} (absent : (dbs i).store.data.lookup k = none)
    (each : ∀ s, s.data.lookup k = none → BodyMissing operation k empty s (s.put k empty)) :
    MissingIsEmpty op env i k empty dbs := by
  rw [missing_iff here]
  have gone := eraseEach_absent env.now operation.checks absent
  rcases eraseEach_fill env.now operation.checks (dbs i) k empty with same | filled
  · rw [same]
    exact .refl operation _
  · rw [filled]
    exact each _ gone

end

/-! ### Lists -/

section
variable {s : Store} {k : Str}

theorem iteratorOrEnd_nil (index : Int64) : iteratorOrEnd [] index = 0 := by
  unfold iteratorOrEnd
  dsimp only
  split
  · rfl
  · rename_i inside
    simp at inside
    omega

theorem slice_nil (start stop : Int64) : slice [] start stop = some [] := by
  simp [slice, iteratorPairInclusive, iteratorOrEnd_nil]

theorem removed_nil (element : Str) (count : Int64) : removed [] element count = some [] := by
  unfold removed
  split
  · cases count.toInt.toNat <;> rfl
  · split
    · cases count.toInt.natAbs <;> rfl
    · rfl

theorem iteratorOrError_missing (absent : s.data.lookup k = none) (index : Int64) :
    iteratorOrError s k index = .error .outOfRange ∧
      iteratorOrError (s.put k (.list [])) k index = .error .outOfRange := by
  simp [iteratorOrError, absent, iteratorOrEnd_nil]

theorem listPush_missing (join : ListT → ListT) (values : ListT) (absent : s.data.lookup k = none) :
    BodyMissing ((listPush join k values).map .listSize) k (.list []) s (s.put k (.list [])) := by
  simp only [BodyMissing, Operation.map, listPush, Store.contains_eq, absent, Store.put_lookup, if_true,
    Option.isSome_none, Option.isSome_some, Bool.false_eq_true, if_false, Store.put_put]
  split
  · exact .some ⟨rfl, .fill absent⟩
  · exact .some ⟨rfl, .refl _⟩

theorem listPopLeft_missing (n : Int64) (absent : s.data.lookup k = none) :
    BodyMissing ((listPopLeft k n).map .list) k (.list []) s (s.put k (.list [])) := by
  simp only [BodyMissing, Operation.map, listPopLeft, absent, Store.put_lookup, if_true, iteratorOrEnd_nil]
  split
  · exact .some ⟨rfl, .fill absent⟩
  · exact .some ⟨rfl, .drop absent⟩

theorem listPopRight_missing (n : Int64) (absent : s.data.lookup k = none) :
    BodyMissing ((listPopRight k n).map .list) k (.list []) s (s.put k (.list [])) := by
  simp only [BodyMissing, Operation.map, listPopRight, absent, Store.put_lookup, if_true, reverseIteratorOrRend,
    iteratorOrEnd_nil]
  split
  · exact .some ⟨rfl, .fill absent⟩
  · exact .some ⟨rfl, .drop absent⟩

theorem listRange_missing (start stop : Int64) (absent : s.data.lookup k = none) :
    BodyMissing ((listRange k start stop).map .list) k (.list []) s (s.put k (.list [])) := by
  simp only [BodyMissing, Operation.map, listRange, absent, Store.put_lookup, if_true, slice_nil]
  split <;> exact .some ⟨rfl, .fill absent⟩

theorem listTrim_missing (start stop : Int64) (absent : s.data.lookup k = none) :
    BodyMissing ((listTrim k start stop).map .listSize) k (.list []) s (s.put k (.list [])) := by
  simp only [BodyMissing, Operation.map, listTrim, absent, Store.put_lookup, if_true, slice_nil]
  split
  · exact .some ⟨rfl, .fill absent⟩
  · exact .some ⟨rfl, .drop absent⟩

theorem listRemove_missing (element : Str) (count : Int64) (absent : s.data.lookup k = none) :
    BodyMissing ((listRemove k element count).map .listSize) k (.list []) s (s.put k (.list [])) := by
  simp only [BodyMissing, Operation.map, listRemove, absent, Store.put_lookup, if_true, removed_nil]
  exact .some ⟨rfl, .drop absent⟩

theorem lists_missing {op : Op} {env : Env} {operation : Operation Reply} (here : op.action env = .here operation)
    (family : op.emptyValue = some (.list [])) (operand : k ∈ op.operands) (absent : s.data.lookup k = none) :
    BodyMissing operation k (.list []) s (s.put k (.list [])) := by
  cases op with
  | listLen key =>
    obtain rfl := Action.here.inj here
    obtain rfl := List.mem_singleton.mp operand
    simp only [BodyMissing, Operation.map, listLen, absent, Store.put_lookup, if_true, Option.map_some]
    exact .some ⟨rfl, .fill absent⟩
  | listGet key index =>
    obtain rfl := Action.here.inj here
    obtain rfl := List.mem_singleton.mp operand
    simp only [BodyMissing, Operation.map, listGet, (iteratorOrError_missing absent index).1,
      (iteratorOrError_missing absent index).2]
    exact .some ⟨rfl, .fill absent⟩
  | listSet key index value =>
    obtain rfl := Action.here.inj here
    obtain rfl := List.mem_singleton.mp operand
    simp only [BodyMissing, Operation.map, listSet, (iteratorOrError_missing absent index).1,
      (iteratorOrError_missing absent index).2]
    exact .some ⟨rfl, .fill absent⟩
  | listPushLeft key values | listPushRight key values =>
    obtain rfl := Action.here.inj here
    obtain rfl := List.mem_singleton.mp operand
    exact listPush_missing _ values absent
  | listPopLeft key n =>
    obtain rfl := Action.here.inj here
    obtain rfl := List.mem_singleton.mp operand
    exact listPopLeft_missing n absent
  | listPopRight key n =>
    obtain rfl := Action.here.inj here
    obtain rfl := List.mem_singleton.mp operand
    exact listPopRight_missing n absent
  | listRange key start stop =>
    obtain rfl := Action.here.inj here
    obtain rfl := List.mem_singleton.mp operand
    exact listRange_missing start stop absent
  | listTrim key start stop =>
    obtain rfl := Action.here.inj here
    obtain rfl := List.mem_singleton.mp operand
    exact listTrim_missing start stop absent
  | listRemove key element count =>
    obtain rfl := Action.here.inj here
    obtain rfl := List.mem_singleton.mp operand
    exact listRemove_missing element count absent
  | _ => simp [Op.emptyValue] at family

end

/-! ### Sets -/

section
variable {s : Store} {k : Str}

theorem elements_fill (absent : s.data.lookup k = none) (key : Str) :
    (s.put k (.set ∅)).elements key = s.elements key := by
  by_cases same : key = k
  · subst same
    simp [Store.elements, absent]
  · simp [Store.elements, same]

theorem wrongType_fill (absent : s.data.lookup k = none) (key : Str) :
    (s.put k (.set ∅)).wrongType key = s.wrongType key := by
  by_cases same : key = k
  · subst same
    simp [Store.wrongType, absent]
  · simp [Store.wrongType, same]

theorem isSet_fill (absent : s.data.lookup k = none) (key : Str) :
    s.isSet key = ((s.put k (.set ∅)).isSet key && !(key == k)) := by
  by_cases same : key = k
  · subst same
    simp [Store.isSet, absent]
  · simp [Store.isSet, same]

theorem unionOf_fill (absent : s.data.lookup k = none) (keys : List Str) :
    unionOf s keys = unionOf (s.put k (.set ∅)) keys := by
  rw [unionOf_eq, unionOf_eq]
  simp only [funext (elements_fill absent), funext (wrongType_fill absent)]

theorem setAdd_missing (values : SetT) (absent : s.data.lookup k = none) :
    BodyMissing ((setAdd k values).map .length) k (.set ∅) s (s.put k (.set ∅)) := by
  simp only [BodyMissing, Operation.map, setAdd, Store.contains_eq, absent, Store.put_lookup, if_true,
    Option.isSome_none, Option.isSome_some, Bool.false_eq_true, if_false, Store.put_put]
  split
  · exact .some ⟨rfl, .fill absent⟩
  · exact .some ⟨rfl, .refl _⟩

theorem setRemove_missing (env : Env) (count : UInt64) (absent : s.data.lookup k = none) :
    BodyMissing ((setRemove env k count).map .set) k (.set ∅) s (s.put k (.set ∅)) := by
  simp only [BodyMissing, Operation.map, setRemove, absent, Store.put_lookup, if_true, Finset.card_empty,
    Nat.min_zero, drawOut]
  exact .some ⟨rfl, .drop absent⟩

theorem setMove_missing_source (dest value : Str) (absent : s.data.lookup k = none) :
    BodyMissing ((setMove k dest value).map .setFlag) k (.set ∅) s (s.put k (.set ∅)) := by
  simp only [BodyMissing, Operation.map, setMove, absent, Store.put_lookup, if_true, Finset.notMem_empty, if_false]
  exact .some ⟨rfl, .fill absent⟩

theorem setMove_missing_dest {source : Str} (value : Str) (different : source ≠ k) (absent : s.data.lookup k = none) :
    BodyMissing ((setMove source k value).map .setFlag) k (.set ∅) s (s.put k (.set ∅)) := by
  have read : (s.put k (.set ∅)).data.lookup source = s.data.lookup source := by simp [different]
  simp only [BodyMissing, Operation.map, setMove, read]
  cases stored : s.data.lookup source with
  | none => exact .some ⟨rfl, .fill absent⟩
  | some held =>
    cases held with
    | set set =>
      dsimp only
      split
      · rename_i member
        rw [moveElement_eq stored member, moveElement_eq (read.trans stored) member]
        simp only [different, if_false, absent, Store.put_lookup, if_true, elements_fill absent, Store.put_put]
        exact .some ⟨rfl, .refl _⟩
      · exact .some ⟨rfl, .fill absent⟩
    | _ => exact .some ⟨rfl, .fill absent⟩

theorem sizeDiff_zero (size : Nat) : 0 = sizeDiff 0 size ↔ size % 2 ^ 64 = 0 := by
  unfold sizeDiff
  rw [UInt64.toNat_sub, UInt64.toNat_ofNat', UInt64.toNat_ofNat']
  omega

theorem setDiscard_missing_iff (env : Env) (values : SetT) (absent : s.data.lookup k = none) :
    BodyMissing ((setDiscard env k values).map .length) k (.set ∅) s (s.put k (.set ∅)) ↔
      env.staleSize % 2 ^ 64 = 0 := by
  simp only [BodyMissing, Operation.map, setDiscard, absent, Store.put_lookup, if_true, Finset.empty_sdiff,
    Finset.card_empty, Option.map_some, Option.rel_some_some, Reply.length.injEq, Option.some.injEq]
  rw [sizeDiff_zero]
  exact and_iff_left (.drop absent)

/-! ### Set queries -/

theorem Store.SameUpTo.bind {s t : Store} {empty : Data} (same : SameUpTo k empty s t) (dest : Str) (value : Data) :
    SameUpTo k empty ((s.put dest value).clearExpiry dest) ((t.put dest value).clearExpiry dest) where
  data key different := by simp [same.data key different]
  expiry key different := by simp [same.expiry key different]
  contents := by
    by_cases here : k = dest
    · simp [here]
    · simpa [here] using same.contents

section
variable {checks : List Str} {eval : Store → Option SetT}

/-- Where the query of a missing key is empty or agrees, all three forms of it show whether it agrees. -/
theorem setQuery_missing_iff (absent : s.data.lookup k = none) :
    BodyMissing ((setQuery checks eval).map .set) k (.set ∅) s (s.put k (.set ∅)) ↔
      eval s = eval (s.put k (.set ∅)) := by
  simp only [BodyMissing, Operation.map, setQuery, Option.map_some, Option.rel_some_some, Reply.set.injEq]
  exact and_iff_left (.fill absent)

theorem card_eq_iff {first second : Option SetT} (known : first = second ∨ first = some ∅) :
    first.map Finset.card = second.map Finset.card ↔ first = second := by
  rcases known with rfl | rfl
  · simp
  · cases second with
    | none => simp
    | some set => simp [eq_comm]

theorem setQueryLen_missing_iff (absent : s.data.lookup k = none)
    (known : eval s = eval (s.put k (.set ∅)) ∨ eval s = some ∅) :
    BodyMissing ((setQueryLen checks eval).map .length) k (.set ∅) s (s.put k (.set ∅)) ↔
      eval s = eval (s.put k (.set ∅)) := by
  simp only [BodyMissing, Operation.map, setQueryLen, Option.map_some, Option.rel_some_some, Reply.length.injEq]
  rw [card_eq_iff known]
  exact and_iff_left (.fill absent)

theorem setQueryInto_missing_iff (dest : Str) (absent : s.data.lookup k = none)
    (known : eval s = eval (s.put k (.set ∅)) ∨ eval s = some ∅) :
    BodyMissing ((setQueryInto checks eval dest).map .length) k (.set ∅) s (s.put k (.set ∅)) ↔
      eval s = eval (s.put k (.set ∅)) := by
  simp only [BodyMissing, Operation.map, setQueryInto]
  constructor
  · intro same
    rw [← card_eq_iff known]
    generalize eval s = here at same
    generalize eval (s.put k (.set ∅)) = there at same
    have replies := Reply.length.inj (Option.rel_some_some.mp same).1
    cases here with
    | none =>
      cases there with
      | none => rfl
      | some set => cases replies
    | some set =>
      cases there with
      | none => cases replies
      | some other => exact replies
  · intro same
    rw [same]
    cases eval (s.put k (.set ∅)) with
    | none => exact .some ⟨rfl, .fill absent⟩
    | some set => exact .some ⟨rfl, (Store.SameUpTo.fill absent).bind dest _⟩

end

/-- The operands up to the first one that is not a set, when `k` is not one and when it is. -/
theorem find_fill (absent : s.data.lookup k = none) (keys : List Str) :
    keys.find? (fun key => !s.isSet key) = keys.find? fun key => !(s.put k (.set ∅)).isSet key || key == k := by
  congr 1
  funext key
  rw [isSet_fill absent, Bool.not_and, Bool.not_not]

theorem common_fill (absent : s.data.lookup k = none) (keys : List Str) :
    common (s.put k (.set ∅)) keys = common s keys := by
  rw [common, funext (elements_fill absent), common]

theorem intersectionOf_fill (absent : s.data.lookup k = none) (keys : List Str) :
    (intersectionOf s keys = intersectionOf (s.put k (.set ∅)) keys ∨ intersectionOf s keys = some ∅) ∧
    (intersectionOf s keys = intersectionOf (s.put k (.set ∅)) keys ↔
      IntersectionAgrees k keys (s.put k (.set ∅))) := by
  rw [IntersectionAgrees, intersectionOf_eq, intersectionOf_eq, find_fill absent]
  simp only [common_fill absent, wrongType_fill absent]
  cases first : keys.find? fun key => !(s.put k (.set ∅)).isSet key || key == k with
  | none =>
    have none : keys.find? (fun key => !(s.put k (.set ∅)).isSet key) = none := by
      rw [List.find?_eq_none] at first ⊢
      intro key member
      have neither := first key member
      simp at neither ⊢
      exact neither.1
    rw [none]
    simp
  | some key =>
    by_cases same : key = k
    · subst same
      have missing : s.wrongType key = false := by simp [Store.wrongType, absent]
      have member : key ∈ keys := List.mem_of_find?_eq_some first
      have nothing : common (s.put key (.set ∅)) keys = ∅ := by
        rw [Finset.eq_empty_iff_forall_notMem]
        intro value common
        have held := (mem_common.mp common).2 key member
        simp [Store.elements] at held
      rw [common_fill absent] at nothing
      simp only [missing, Bool.false_eq_true, if_false, or_true, true_and, forall_const]
      cases keys.find? fun other => !(s.put key (.set ∅)).isSet other with
      | none => simp [nothing]
      | some other => simp
    · have other : keys.find? (fun key => !(s.put k (.set ∅)).isSet key) = some key := by
        rw [List.find?_eq_some_iff_append] at first ⊢
        obtain ⟨stops, before, after, split, passes⟩ := first
        refine ⟨by simpa [same] using stops, before, after, split, fun key member => ?_⟩
        have neither := passes key member
        simp at neither ⊢
        exact neither.1
      rw [other]
      simp [same]

theorem differenceOf_fill (absent : s.data.lookup k = none) (key1 key2 : Str) :
    (differenceOf s key1 key2 = differenceOf (s.put k (.set ∅)) key1 key2 ∨ differenceOf s key1 key2 = some ∅) ∧
    (differenceOf s key1 key2 = differenceOf (s.put k (.set ∅)) key1 key2 ↔
      DifferenceAgrees k key1 key2 (s.put k (.set ∅))) := by
  have bound : (s.put k (.set ∅)).isSet k = true := by simp [Store.isSet]
  simp only [DifferenceAgrees, wrongType_fill absent, elements_fill absent, bound, Bool.true_eq_false, or_false]
  by_cases first : k = key1
  · subst first
    have missing : differenceOf s k key2 = some ∅ := by simp [differenceOf, absent]
    refine ⟨.inr missing, ?_⟩
    rw [missing]
    by_cases second : k = key2
    · subst second
      simp [differenceOf, Store.wrongType, Store.elements, absent]
    · have other : ¬key2 = k := fun same => second same.symm
      cases stored : s.data.lookup key2 with
      | none => simp [differenceOf, Store.wrongType, stored, other, second]
      | some value => cases value <;> simp [differenceOf, Store.wrongType, stored, other, second]
  · have other : ¬key1 = k := fun same => first same.symm
    by_cases second : k = key2
    · subst second
      have missing : differenceOf s key1 k = some ∅ := by
        unfold differenceOf
        cases s.data.lookup key1 <;> simp [absent]
      refine ⟨.inr missing, ?_⟩
      rw [missing]
      cases stored : s.data.lookup key1 with
      | none => simp [differenceOf, Store.wrongType, Store.elements, stored, other, first]
      | some value =>
        cases value with
        | set held =>
          simp only [differenceOf, Store.wrongType, Store.elements, stored, other, first, Store.put_lookup, if_false,
            if_true, Finset.sdiff_empty, Option.some.injEq, false_implies, true_and, forall_const]
          exact eq_comm
        | _ => simp [differenceOf, Store.wrongType, stored, other]
    · have another : ¬key2 = k := fun same => second same.symm
      have same : differenceOf s key1 key2 = differenceOf (s.put k (.set ∅)) key1 key2 := by
        simp [differenceOf, other, another]
      exact ⟨.inl same, by simp [same, first, second]⟩

end

/-! ### Hashes -/

section
variable {s : Store} {k : Str}

theorem hashQuery_missing {α : Type} {missing : Except HashError α} {read : HashT → Except HashError α}
    (wrap : Except HashError α → Reply) (same : missing = read ∅) (absent : s.data.lookup k = none) :
    BodyMissing ((hashQuery k missing read).map wrap) k (.hash ∅) s (s.put k (.hash ∅)) := by
  simp only [BodyMissing, Operation.map, hashQuery, absent, Store.put_lookup, if_true, same]
  exact .some ⟨rfl, .fill absent⟩

theorem hashRemove_missing_iff (env : Env) (fields : List Str) (absent : s.data.lookup k = none) :
    BodyMissing ((hashRemove env k fields).map .hashSize) k (.hash ∅) s (s.put k (.hash ∅)) ↔
      env.staleSize % 2 ^ 64 = 0 := by
  have nothing : ∀ field, (∅ : HashT).erase field = ∅ := fun field =>
    Finmap.ext_lookup fun other => by simp [Table.lookup_erase_eq]
  have left : fields.foldl (fun (hash : HashT) field => hash.erase field) ∅ = ∅ := by
    induction fields with
    | nil => rfl
    | cons field fields ih => rw [List.foldl_cons, nothing, ih]
  simp only [BodyMissing, Operation.map, hashRemove, absent, Store.put_lookup, if_true, left, Finmap.keys_empty,
    Finset.card_empty, Option.map_some, Option.rel_some_some, Reply.hashSize.injEq, Except.ok.injEq]
  rw [sizeDiff_zero]
  exact and_iff_left (.drop absent)

theorem hashUpdate_missing_fails (env : Env) (values : HashT) (absent : s.data.lookup k = none) :
    ¬BodyMissing ((hashUpdate env k values).map .hashSize) k (.hash ∅) s (s.put k (.hash ∅)) := by
  simp [BodyMissing, Operation.map, hashUpdate, Store.contains_eq, absent]

end

/-! ### Every operation -/

section
variable {op : Op} {env : Env} {operation : Operation Reply} {i : Index} {dbs : Databases} {k : Str} {empty : Data}

theorem single_missing_iff (here : op.action env = .here operation) (checks : operation.checks = [k])
    (absent : (dbs i).store.data.lookup k = none) {agrees : Prop}
    (each : ∀ s, s.data.lookup k = none → (BodyMissing operation k empty s (s.put k empty) ↔ agrees)) :
    MissingIsEmpty op env i k empty dbs ↔ (dbs i).isExpired (env.now 0) k = true ∨ agrees := by
  rw [missing_iff here, checks]
  simp only [Database.eraseEach, Database.eraseIfExpired, fill_isExpired]
  by_cases gone : (dbs i).isExpired (env.now 0) k = true
  · have erased : ((dbs i).fill k empty).expire k = (dbs i).expire k := by
      simp [Database.expire, Database.fill, Store.put_doExpire]
    simp only [gone, if_true, erased, true_or, iff_true]
    exact .refl operation _
  · simp only [gone, Bool.false_eq_true, if_false, false_or]
    exact each _ absent

theorem query_missing_iff (here : op.action env = .here operation) (absent : (dbs i).store.data.lookup k = none)
    (agrees : Store → Prop) (erased : ∀ s : Store, s.data.lookup k = none → agrees s)
    (each : ∀ s, s.data.lookup k = none →
      (BodyMissing operation k (.set ∅) s (s.put k (.set ∅)) ↔ agrees (s.put k (.set ∅)))) :
    MissingIsEmpty op env i k (.set ∅) dbs ↔ agrees (filledIn env (dbs i) k operation.checks) := by
  rw [missing_iff here, filledIn]
  have gone := eraseEach_absent env.now operation.checks absent
  rcases eraseEach_fill env.now operation.checks (dbs i) k (.set ∅) with same | filled
  · rw [same]
    exact iff_of_true (.refl operation _) (erased _ gone)
  · rw [filled]
    exact each _ gone

theorem intersection_erased {s : Store} (absent : s.data.lookup k = none) (keys : List Str) :
    IntersectionAgrees k keys s := by
  have missing : s.isSet k = false := by simp [Store.isSet, absent]
  have same : (fun key => !s.isSet key || key == k) = fun key => !s.isSet key := by
    funext key
    by_cases here : key = k
    · simp [here, missing]
    · simp [here]
  intro first key found
  rw [same, found] at first
  obtain rfl := Option.some.inj first
  simp [Store.wrongType, absent]

theorem difference_erased {s : Store} (absent : s.data.lookup k = none) (key1 key2 : Str) :
    DifferenceAgrees k key1 key2 s := by
  have unset : s.isSet k = false := by simp [Store.isSet, absent]
  exact ⟨fun _ => .inr unset, fun _ => .inr unset⟩

theorem sets_missing_iff (here : op.action env = .here operation) (family : op.emptyValue = some (.set ∅))
    (operand : k ∈ op.operands) (absent : (dbs i).store.data.lookup k = none) :
    MissingIsEmpty op env i k (.set ∅) dbs ↔ HandlesMissing env (dbs i) k op := by
  cases op with
  | setAdd key values =>
    obtain rfl := List.mem_singleton.mp operand
    exact iff_of_true (missing_of_body rfl absent fun s => setAdd_missing values) trivial
  | setAll key =>
    obtain rfl := List.mem_singleton.mp operand
    refine iff_of_true (missing_of_body rfl absent fun s gone => ?_) trivial
    simp only [BodyMissing, Operation.map, setAll, gone, Store.put_lookup, if_true]
    exact .some ⟨rfl, .fill gone⟩
  | setRemove key count =>
    obtain rfl := List.mem_singleton.mp operand
    exact iff_of_true (missing_of_body rfl absent fun s => setRemove_missing env count) trivial
  | setDiscard key values =>
    obtain rfl := List.mem_singleton.mp operand
    exact single_missing_iff rfl rfl absent fun s => setDiscard_missing_iff env values
  | setLen key =>
    obtain rfl := List.mem_singleton.mp operand
    refine iff_of_true (missing_of_body rfl absent fun s gone => ?_) trivial
    simp only [BodyMissing, Operation.map, setLen, gone, Store.put_lookup, if_true]
    exact .some ⟨rfl, .fill gone⟩
  | setContains key value =>
    obtain rfl := List.mem_singleton.mp operand
    refine iff_of_true (missing_of_body rfl absent fun s gone => ?_) trivial
    simp only [BodyMissing, Operation.map, setContains, gone, Store.put_lookup, if_true]
    exact .some ⟨rfl, .fill gone⟩
  | setMove source dest value =>
    refine iff_of_true (missing_of_body rfl absent fun s gone => ?_) trivial
    by_cases same : source = k
    · subst same
      exact setMove_missing_source dest value gone
    · obtain rfl : k = dest := by simpa [Op.operands, Ne.symm same] using operand
      exact setMove_missing_dest value same gone
  | setUnion ks =>
    refine iff_of_true (missing_of_body rfl absent fun s gone => ?_) trivial
    exact (setQuery_missing_iff gone).mpr (unionOf_fill gone ks)
  | setUnionLen ks =>
    refine iff_of_true (missing_of_body rfl absent fun s gone => ?_) trivial
    exact (setQueryLen_missing_iff gone (.inl (unionOf_fill gone ks))).mpr (unionOf_fill gone ks)
  | setUnionInto dest ks =>
    refine iff_of_true (missing_of_body rfl absent fun s gone => ?_) trivial
    exact (setQueryInto_missing_iff dest gone (.inl (unionOf_fill gone ks))).mpr (unionOf_fill gone ks)
  | setIntersection ks =>
    obtain rfl := Action.here.inj here
    refine query_missing_iff here absent (IntersectionAgrees k ks) (fun s gone => intersection_erased gone ks)
      fun s gone => ?_
    exact (setQuery_missing_iff gone).trans (intersectionOf_fill gone ks).2
  | setIntersectionLen ks =>
    obtain rfl := Action.here.inj here
    refine query_missing_iff here absent (IntersectionAgrees k ks) (fun s gone => intersection_erased gone ks)
      fun s gone => ?_
    obtain ⟨known, agrees⟩ := intersectionOf_fill gone ks
    exact (setQueryLen_missing_iff gone known).trans agrees
  | setIntersectionInto dest ks =>
    obtain rfl := Action.here.inj here
    refine query_missing_iff here absent (IntersectionAgrees k ks) (fun s gone => intersection_erased gone ks)
      fun s gone => ?_
    obtain ⟨known, agrees⟩ := intersectionOf_fill gone ks
    exact (setQueryInto_missing_iff dest gone known).trans agrees
  | setDifference key1 key2 =>
    obtain rfl := Action.here.inj here
    refine query_missing_iff here absent (DifferenceAgrees k key1 key2)
      (fun s gone => difference_erased gone key1 key2) fun s gone => ?_
    exact (setQuery_missing_iff gone).trans (differenceOf_fill gone key1 key2).2
  | setDifferenceLen key1 key2 =>
    obtain rfl := Action.here.inj here
    refine query_missing_iff here absent (DifferenceAgrees k key1 key2)
      (fun s gone => difference_erased gone key1 key2) fun s gone => ?_
    obtain ⟨known, agrees⟩ := differenceOf_fill gone key1 key2
    exact (setQueryLen_missing_iff gone known).trans agrees
  | setDifferenceInto dest key1 key2 =>
    obtain rfl := Action.here.inj here
    refine query_missing_iff here absent (DifferenceAgrees k key1 key2)
      (fun s gone => difference_erased gone key1 key2) fun s gone => ?_
    obtain ⟨known, agrees⟩ := differenceOf_fill gone key1 key2
    exact (setQueryInto_missing_iff dest gone known).trans agrees
  | _ => simp [Op.emptyValue] at family

theorem hashes_missing_iff (here : op.action env = .here operation) (family : op.emptyValue = some (.hash ∅))
    (operand : k ∈ op.operands) (absent : (dbs i).store.data.lookup k = none) :
    MissingIsEmpty op env i k (.hash ∅) dbs ↔ HandlesMissing env (dbs i) k op := by
  cases op with
  | hashSet key values =>
    obtain rfl := List.mem_singleton.mp operand
    refine iff_of_true (missing_of_body rfl absent fun s gone => ?_) trivial
    exact .some ⟨rfl, (Store.SameUpTo.fill gone).bind k _⟩
  | hashAll key | hashContains key field | hashLen key | hashKeys key | hashValues key | hashManyGet key fields =>
    obtain rfl := List.mem_singleton.mp operand
    refine iff_of_true (missing_of_body rfl absent fun s gone => ?_) trivial
    exact hashQuery_missing _ rfl gone
  | hashGet key field | hashKeyLen key field =>
    obtain rfl := List.mem_singleton.mp operand
    refine iff_of_true (missing_of_body rfl absent fun s gone => ?_) trivial
    exact hashQuery_missing _ (by simp [HashT.at, Except.map]) gone
  | hashRemove key fields =>
    obtain rfl := List.mem_singleton.mp operand
    exact single_missing_iff rfl rfl absent fun s => hashRemove_missing_iff env fields
  | hashUpdate key values =>
    obtain rfl := List.mem_singleton.mp operand
    obtain rfl := Action.here.inj here
    exact (single_missing_iff here rfl absent fun s gone =>
      iff_of_false (hashUpdate_missing_fails env values gone) not_false).trans (iff_of_eq (or_false _))
  | _ => simp [Op.emptyValue] at family

theorem emptyValue_here (env : Env) (family : op.emptyValue = some empty) :
    ∃ operation, op.action env = .here operation ∧ (empty = .list [] ∨ empty = .set ∅ ∨ empty = .hash ∅) := by
  cases op with
  | listLen | listGet | listSet | listPushLeft | listPushRight | listPopLeft | listPopRight | listRange | listTrim
  | listRemove => exact ⟨_, rfl, .inl (Option.some.inj family).symm⟩
  | setAdd | setAll | setRemove | setDiscard | setLen | setContains | setMove | setUnion | setUnionInto | setUnionLen
  | setIntersection | setIntersectionInto | setIntersectionLen | setDifference | setDifferenceInto
  | setDifferenceLen => exact ⟨_, rfl, .inr (.inl (Option.some.inj family).symm)⟩
  | hashSet | hashAll | hashGet | hashContains | hashLen | hashKeyLen | hashRemove | hashKeys | hashValues
  | hashUpdate | hashManyGet => exact ⟨_, rfl, .inr (.inr (Option.some.inj family).symm)⟩
  | _ => cases family

theorem lists_handle (family : op.emptyValue = some (.list [])) (db : Database) : HandlesMissing env db k op := by
  cases op with
  | hashUpdate | setDiscard | hashRemove | setIntersection | setIntersectionLen | setIntersectionInto
  | setDifference | setDifferenceLen | setDifferenceInto => cases family
  | _ => trivial

/-- Where a missing key behaves as an empty collection. -/
theorem missing_is_empty_iff (family : op.emptyValue = some empty) (operand : k ∈ op.operands)
    (absent : (dbs i).store.data.lookup k = none) :
    MissingIsEmpty op env i k empty dbs ↔ HandlesMissing env (dbs i) k op := by
  obtain ⟨operation, here, list | set | hash⟩ := emptyValue_here env family
  · subst list
    exact iff_of_true (missing_of_body here absent fun s gone => lists_missing here family operand gone)
      (lists_handle family (dbs i))
  · subst set
    exact sets_missing_iff here family operand absent
  · subst hash
    exact hashes_missing_iff here family operand absent

theorem setDifference_missing_is_empty :
    MissingIsEmpty (.setDifference [97] [98]) (.frozen 0) 0 [97] (.set ∅) (fun _ => {}) ↔
      HandlesMissing (.frozen 0) {} [97] (.setDifference [97] [98]) :=
  missing_is_empty_iff rfl List.mem_cons_self rfl

/-- One element at `a`, nothing at `b`. -/
def singleSet : Databases := fun _ => { store := { data := (∅ : Table Str Data).insert [97] (.set {[120]}) } }

/-- `SET_DIFF a b` is empty if `b` is missing, not the set at `a`. -/
theorem setDifference_missing_differs :
    ¬MissingIsEmpty (.setDifference [97] [98]) (.frozen 0) 0 [98] (.set ∅) singleSet := by
  rw [sets_missing_iff rfl rfl (by simp [Op.operands]) (by simp [singleSet])]
  intro agrees
  have fresh : ((singleSet 0).fill [98] (.set ∅)).eraseEach (Env.frozen 0).now [[97], [98]] =
      (singleSet 0).fill [98] (.set ∅) :=
    Database.eraseEach_fresh ⟨by simp [singleSet, Database.fill, Database.isExpired],
      by simp [singleSet, Database.fill, Database.isExpired], trivial⟩
  have second := agrees.2 rfl
  rw [filledIn, fresh] at second
  simp [Store.elements, Store.isSet, Database.fill, singleSet] at second

end

end Vanity.Db
