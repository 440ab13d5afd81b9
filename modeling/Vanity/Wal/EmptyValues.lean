import Vanity.Wal.Reachable

/-!
# Empty collections

An empty list is never stored. Empty sets and hashes are: `hash_set` stores what it is given, and the
operations that store a computed set do not look whether it is empty.
-/

namespace Vanity.Wal
open Db

/-! ### Lists -/

def EmptyList (value : Data) : Prop := value = .list []

/-- The arguments of a trim or of a removal from the back do not make the code walk off the list. -/
def InsideList (s : Store) : Op → Prop
  | .listTrim key start stop => ∀ l, s.data.lookup key = some (.list l) →
      (iteratorPairInclusive l start stop).1 ≤ (iteratorPairInclusive l start stop).2
  | .listRemove key element count => ∀ l, s.data.lookup key = some (.list l) → count < 0 →
      count.toInt.natAbs ≤ l.count element
  | _ => False

theorem eraseBackward_defined (element : Str) (n : Nat) (l : ListT) (enough : n ≤ l.count element) :
    (eraseBackward element n l).isSome := by
  fun_induction eraseBackward element n l with
  | case1 | case2 => rfl
  | case3 n xs last =>
    obtain ⟨none, more⟩ := last
    rw [List.isEmpty_iff.mp none] at enough
    simp at enough
    exact absurd enough more
  | case4 n xs last ih =>
    apply ih
    simpa using enough
  | case5 n x xs different ih =>
    rw [Option.isSome_map]
    apply ih
    rwa [List.count_cons_of_ne different] at enough

theorem removed_defined {l : ListT} {element : Str} {count : Int64}
    (enough : count < 0 → count.toInt.natAbs ≤ l.count element) : (removed l element count).isSome := by
  unfold removed
  split
  · rfl
  · split
    · rename_i negative
      rw [Option.isSome_map]
      apply eraseBackward_defined
      rw [List.count_reverse]
      exact enough negative
    · rfl

theorem eraseEach_lookup {db : Database} {now : Nat → Time} {keys : List Str} {key : Str} {value : Data}
    (stored : (db.eraseEach now keys).store.data.lookup key = some value) : db.store.data.lookup key = some value := by
  obtain ⟨expired, erased, -⟩ := Database.eraseEach_expired now keys db
  rw [erased.store, Store.foldl_doExpire_data] at stored
  split at stored
  · cases stored
  · exact stored

theorem liveCall_isSome {env : Env} {i : Index} {op : Op} {operation : Operation Reply}
    (here : op.action env = .here operation) (trn : UInt64) (stores : Stores)
    (defined : (operation.effect ((live stores i).eraseEach env.now operation.checks).store).isSome) :
    (liveCall env i trn op stores).isSome := by
  rw [liveCall, exec_here i _ here, Option.isSome_map, Option.isSome_map]
  rwa [Operation.effect, Option.isSome_map] at defined

/-- A call that stays inside the list has defined behaviour, whether or not the list expires first. -/
theorem inside_defined (env : Env) (trn : UInt64) {i : Index} {op : Op} {m : Lifetime}
    (inside : InsideList (m.stores i) op) : (m.step (.event (.call env i trn op))).isSome := by
  rw [Lifetime.step, Option.isSome_map, liveStep]
  cases op with
  | listTrim key start stop =>
    refine liveCall_isSome rfl trn m.stores (listTrim_defined fun l stored => .inr ?_)
    have bounds := inside l (eraseEach_lookup stored)
    simp [slice, bounds]
  | listRemove key element count =>
    refine liveCall_isSome rfl trn m.stores (listRemove_defined fun l stored => ?_)
    exact removed_defined (inside l (eraseEach_lookup stored))
  | _ => cases inside

/-- No empty list is ever stored, and the trims and removals that the code defines are among the
moves this holds for. -/
theorem no_empty_list (run : List Move) :
    EachState Lifetime.step (fun m => ∀ i key, (m.stores i).data.lookup key ≠ some (.list [])) run {} ∧
      ∀ (m : Lifetime) env i trn op, InsideList (m.stores i) op →
        (m.step (.event (.call env i trn op))).isSome := by
  refine ⟨?_, fun m env i trn op inside => inside_defined env trn inside⟩
  have empty : Lifetime.All (Store.Without EmptyList) {} := all_empty fun key value stored => by simp at stored
  refine eachState_of_always ?_ (fun m all i key stored => all.stores i key _ stored rfl) empty
  intro m move after all taken
  refine all.remember taken (all.moved (without_persistent EmptyList) ?_ taken)
  intro op env db _ operation here result t without ran
  refine here_without here ?_ ?_ without ran
  · rintro value rfl
    rfl
  · rintro - value rfl
    exact ⟨[], rfl⟩

/-! ### Sets and hashes -/

def EmptySetOrHash (value : Data) : Prop := value = .set ∅ ∨ value = .hash ∅

/-- The call stores an empty hash that it was given, or a set computed from operands that, as the
checks leave them, have nothing to put into it. -/
def StoresEmpty (env : Env) (db : Database) : Op → Prop
  | .hashSet _ values => values = ∅
  | .setUnionInto _ ks =>
    let s := (db.eraseEach env.now ks).store
    ∀ key ∈ ks, s.wrongType key = false ∧ s.elements key = ∅
  | .setIntersectionInto _ ks =>
    let s := (db.eraseEach env.now ks).store
    match ks.find? fun key => !s.isSet key with
    | none => ∀ value, ¬(ks ≠ [] ∧ ∀ key ∈ ks, value ∈ s.elements key)
    | some key => s.wrongType key = false
  | .setDifferenceInto _ key1 key2 =>
    let s := (db.eraseEach env.now [key1, key2]).store
    s.data.lookup key1 = none ∨ s.data.lookup key2 = none ∨
      (s.isSet key1 = true ∧ s.isSet key2 = true ∧ s.elements key1 ⊆ s.elements key2)
  | _ => False

theorem storesEmpty_iff {env : Env} {op : Op} {operation : Operation Reply} (here : op.action env = .here operation)
    (db : Database) : StoresEmpty env db op ↔ op.bindsEmpty (db.eraseEach env.now operation.checks).store := by
  cases op with
  | setUnionInto dest ks => obtain rfl := Action.here.inj here; exact unionOf_empty.symm
  | setIntersectionInto dest ks => obtain rfl := Action.here.inj here; exact intersectionOf_empty.symm
  | setDifferenceInto dest key1 key2 => obtain rfl := Action.here.inj here; exact differenceOf_empty.symm
  | _ => exact Iff.rfl

/-- Such a call leaves an empty set or hash behind. -/
theorem bindsEmpty_stored {env : Env} {op : Op} {operation : Operation Reply} (here : op.action env = .here operation)
    {s t : Store} {reply : Reply} (binds : op.bindsEmpty s) (ran : operation.body s = some (reply, t)) :
    ∃ key value, t.data.lookup key = some value ∧ EmptySetOrHash value := by
  have into : ∀ {checks : List Str} {eval : Store → Option SetT} {dest : Str},
      ((setQueryInto checks eval dest).map Reply.length).body s = some (reply, t) → eval s = some ∅ →
      ∃ key value, t.data.lookup key = some value ∧ EmptySetOrHash value := by
    intro checks eval dest stored computed
    simp only [Operation.map, setQueryInto, computed, Option.map_some, Option.some.injEq, Prod.mk.injEq] at stored
    obtain ⟨-, rfl⟩ := stored
    exact ⟨dest, .set ∅, by simp, .inl rfl⟩
  cases op with
  | hashSet key values =>
    obtain rfl := Action.here.inj here
    obtain ⟨-, rfl⟩ := Prod.mk.inj (Option.some.inj ran)
    obtain rfl : values = ∅ := binds
    exact ⟨key, .hash ∅, by simp, .inr rfl⟩
  | setUnionInto | setIntersectionInto | setDifferenceInto =>
    obtain rfl := Action.here.inj here
    exact into ran binds
  | _ => cases binds

theorem exec_stored {op : Op} {env : Env} {i : Index} {dbs after : Databases} {reply : Reply}
    {operation : Operation Reply} (here : op.action env = .here operation)
    (ran : exec op env i dbs = some (reply, after)) :
    operation.body ((dbs i).eraseEach env.now operation.checks).store = some (reply, (after i).store) := by
  rw [exec_here i dbs here] at ran
  obtain ⟨⟨result, t⟩, computed, finished⟩ := Option.map_eq_some_iff.mp ran
  obtain ⟨rfl, rfl⟩ := Prod.mk.inj finished
  simpa using computed

theorem call_stored {m after : Lifetime} {move : Move} {op : Op} {env : Env} {db : Database}
    {operation : Operation Reply} (call : m.call move = some (op, env, db)) (here : op.action env = .here operation)
    (taken : m.step move = some after) : ∃ i reply,
      operation.body (db.eraseEach env.now operation.checks).store = some (reply, after.stores i) := by
  cases move with
  | event event =>
    cases event with
    | call env i trn op =>
      obtain ⟨rfl, rfl, rfl⟩ : op = _ ∧ env = _ ∧ live m.stores i = db := by simpa [Lifetime.call] using call
      obtain ⟨⟨entries, stores⟩, ran, rfl⟩ := Option.map_eq_some_iff.mp taken
      obtain ⟨⟨reply, dbs⟩, called, finished⟩ := Option.map_eq_some_iff.mp ran
      obtain ⟨-, rfl⟩ := Prod.mk.inj finished
      exact ⟨i, reply, exec_stored here called⟩
    | shallowPurge | deepPurge => cases call
  | redo env entry =>
    cases entry with
    | dbOp i trn op =>
      obtain ⟨rfl, rfl, rfl⟩ : op = _ ∧ env = _ ∧ redoing m.stores i = db := by simpa [Lifetime.call] using call
      obtain ⟨dbs, ran, rfl⟩ := Option.map_eq_some_iff.mp taken
      obtain ⟨⟨reply, dbs⟩, called, rfl⟩ := Option.map_eq_some_iff.mp ran
      exact ⟨i, reply, exec_stored here called⟩
    | expire => cases call
  | copy | write | load => cases call

theorem storesEmpty_here {env : Env} {db : Database} {op : Op} (empty : StoresEmpty env db op) :
    ∃ operation, op.action env = .here operation := by
  cases op with
  | hashSet | setUnionInto | setIntersectionInto | setDifferenceInto => exact ⟨_, rfl⟩
  | _ => cases empty

/-- The move stores no empty set or hash. -/
def Fills (m : Lifetime) (move : Move) : Prop :=
  ∀ op env db, m.call move = some (op, env, db) → ¬StoresEmpty env db op

theorem fills_iff {m after : Lifetime} {move : Move} (all : m.All (Store.Without EmptySetOrHash))
    (taken : m.step move = some after) : after.All (Store.Without EmptySetOrHash) ↔ Fills m move := by
  constructor
  · intro good op env db call empty
    obtain ⟨operation, here⟩ := storesEmpty_here empty
    obtain ⟨i, reply, computed⟩ := call_stored call here taken
    obtain ⟨key, value, stored, bad⟩ := bindsEmpty_stored here ((storesEmpty_iff here db).mp empty) computed
    exact good.stores i key value stored bad
  · intro fills
    refine all.remember taken (all.moved (without_persistent EmptySetOrHash) ?_ taken)
    intro op env db call operation here result t without ran
    refine here_without here ?_ ?_ without ran
    · rintro value (rfl | rfl)
      · rfl
      · rfl
    · intro binds
      exact absurd ((storesEmpty_iff here db).mpr binds) (fills op env db call)

/-- No empty set and no empty hash is stored in a run exactly when no call of it stores one. -/
theorem no_empty_set_or_hash_iff (run : List Move) :
    EachState Lifetime.step
        (fun m => ∀ i key, (m.stores i).data.lookup key ≠ some (.set ∅) ∧
          (m.stores i).data.lookup key ≠ some (.hash ∅)) run {} ↔
      EachStep Lifetime.step Fills run {} := by
  have empty : Lifetime.All (Store.Without EmptySetOrHash) {} := all_empty fun key value stored => by simp at stored
  rw [eachState_remembering ?_ ?_ empty]
  · exact eachState_iff (fun _ _ _ _ _ => trivial) (fun m move after _ all taken => fills_iff all taken) trivial empty
  · intro m all i key
    exact ⟨fun stored => all.stores i key _ stored (.inl rfl), fun stored => all.stores i key _ stored (.inr rfl)⟩
  · intro m move after all taken good
    refine all.remember taken fun i key value stored => ?_
    rintro (rfl | rfl)
    · exact (good i key).1 stored
    · exact (good i key).2 stored

/-- `HASH_SET` with an empty hash. -/
theorem hashSet_stores_empty :
    ¬∀ run, EachState Lifetime.step
      (fun m => ∀ i key, (m.stores i).data.lookup key ≠ some (.set ∅) ∧
        (m.stores i).data.lookup key ≠ some (.hash ∅)) run {} := by
  intro always
  have each := always [.event (.call (.frozen 0) 0 0 (.hashSet [104] ∅))]
  have after := each.2 _ rfl
  exact (after 0 [104]).2 (by simp [storesOf])

end Vanity.Wal
