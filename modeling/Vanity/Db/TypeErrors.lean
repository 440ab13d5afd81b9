import Vanity.Db.EagerExpiry

/-!
# Type errors

A call that reports a type error changes nothing, apart from erasing keys that it finds expired. The
exception is `hash_update`, which binds a missing key to a string before it finds that the key does
not hold a hash.
-/

namespace Vanity.Db

/-- Nothing is different, except that keys whose time had passed at one of the clock readings of the
call are gone. -/
def OnlyExpires (env : Env) (dbs after : Databases) : Prop :=
  ∀ j key,
    ((after j).store.data.lookup key = (dbs j).store.data.lookup key ∧
      (after j).store.expiryTimes.lookup key = (dbs j).store.expiryTimes.lookup key) ∨
    (∃ n, (dbs j).isExpired (env.now n) key = true) ∧ (after j).store.data.lookup key = none ∧
      (after j).store.expiryTimes.lookup key = none

def UpdatesMissing (env : Env) (db : Database) : Op → Prop
  | .hashUpdate key _ => db.store.data.lookup key = none ∨ db.isExpired (env.now 0) key = true
  | _ => False

theorem updatesMissing_iff {env : Env} {op : Op} {operation : Operation Reply}
    (here : op.action env = .here operation) (db : Database) :
    UpdatesMissing env db op ↔ op.updatesMissing (db.eraseEach env.now operation.checks).store := by
  cases op with
  | hashUpdate key values =>
    obtain rfl := Action.here.inj here
    change _ ↔ ((db.eraseIfExpired (env.now 0) key).2.store.data.lookup key = none)
    unfold Database.eraseIfExpired
    split
    · rename_i gone
      simp [UpdatesMissing, gone, Database.expire]
    · rename_i alive
      simp [UpdatesMissing, alive]
  | _ => exact Iff.rfl

theorem eraseEach_onlyExpires (env : Env) (keys : List Str) (i : Index) (dbs : Databases) :
    OnlyExpires env dbs (Function.update dbs i ((dbs i).eraseEach env.now keys)) := by
  intro j key
  by_cases same : j = i
  · subst same
    obtain ⟨expired, erased, due⟩ := Database.eraseEach_was_due env.now keys (dbs j)
    rw [Function.update_self, erased.store, Store.foldl_doExpire_data, Store.foldl_doExpire_expiry]
    by_cases member : key ∈ expired
    · exact .inr ⟨due key member, by simp [member], by simp [member]⟩
    · exact .inl (by simp [member])
  · exact .inl (by simp [same])

/-- Only an operation on the database itself reports a type error, and never one that is direct. -/
theorem typeError_here {op : Op} {env : Env} {i : Index} {dbs after : Databases} {reply : Reply}
    (ran : exec op env i dbs = some (reply, after)) (error : reply.typeError = true) :
    ∃ operation, op.action env = .here operation ∧ op.direct = false := by
  cases op with
  | begin | commit | discard =>
    rw [exec_idle i dbs rfl] at ran
    obtain ⟨rfl, -⟩ := Prod.mk.inj (Option.some.inj ran)
    cases error
  | keys | manyGet =>
    rw [exec_reading i dbs rfl] at ran
    obtain ⟨rfl, -⟩ := Prod.mk.inj (Option.some.inj ran)
    cases error
  | copyToDb | moveToDb =>
    rw [exec_across i dbs rfl] at ran
    obtain ⟨rfl, -⟩ := Prod.mk.inj (Option.some.inj ran)
    cases error
  | reset | del | moveTo | setExpiry | clearExpiry | clearAllExpiry =>
    rw [exec_here i dbs rfl] at ran
    obtain ⟨rfl, -⟩ := Prod.mk.inj (Option.some.inj ran)
    cases error
  | _ => exact ⟨_, rfl, rfl⟩

theorem hashUpdate_missing {env : Env} {key : Str} {values : HashT} {s t : Store} {reply : Reply}
    (missing : s.data.lookup key = none) (ran : ((hashUpdate env key values).map Reply.hashSize).body s = some (reply, t)) :
    t = s.put key (.str []) := by
  simp only [Operation.map, hashUpdate, Store.contains_eq, missing, Option.isSome_none, Bool.false_eq_true, if_false,
    Store.put_lookup, if_true, Option.map_some, Option.some.injEq, Prod.mk.injEq] at ran
  exact ran.2.symm

/-- The tables after a type error are those before it, but for expired keys, exactly if the call is
not an update of a missing hash. -/
theorem type_error_keeps_iff {op : Op} {env : Env} {i : Index} {dbs after : Databases} {reply : Reply}
    (ran : exec op env i dbs = some (reply, after)) (error : reply.typeError = true) :
    OnlyExpires env dbs after ↔ ¬UpdatesMissing env (dbs i) op := by
  obtain ⟨operation, here, plain⟩ := typeError_here ran error
  rw [exec_here i dbs here] at ran
  obtain ⟨⟨result, t⟩, computed, finished⟩ := Option.map_eq_some_iff.mp ran
  obtain ⟨rfl, rfl⟩ := Prod.mk.inj finished
  constructor
  · intro kept updates
    cases op with
    | hashUpdate key values =>
      have missing := (updatesMissing_iff here (dbs i)).mp updates
      obtain rfl := Action.here.inj here
      obtain rfl := hashUpdate_missing missing computed
      have checked : (dbs i).eraseEach env.now ((hashUpdate env key values).map Reply.hashSize).checks =
          ((dbs i).eraseIfExpired (env.now 0) key).2 := rfl
      rcases kept i key with ⟨data, expiry⟩ | ⟨-, gone, -⟩
      · rw [Function.update_self] at data expiry
        rcases updates with absent | due
        · simp [absent] at data
        · rw [checked, Database.eraseIfExpired, if_pos due] at expiry
          simp only [Database.expire, Store.put_expiryTimes, Store.doExpire_expiry, if_true] at expiry
          simp [Database.isExpired, ← expiry] at due
      · simp at gone
    | _ => cases updates
  · intro safe
    rcases here_uniform here plain _ _ (fun _ _ => ⟨rfl, rfl⟩) with ⟨undefined, -⟩ | ⟨_, edits, edited, -, -, post⟩
    · rw [computed] at undefined
      cases undefined
    · rw [computed] at edited
      obtain ⟨rfl, rfl⟩ := Prod.mk.inj (Option.some.inj edited)
      rcases post.error error with missing | none
      · exact absurd ((updatesMissing_iff here (dbs i)).mpr missing) safe
      · subst none
        exact eraseEach_onlyExpires env operation.checks i dbs

def integerKey : Databases := fun _ => { store := { data := (∅ : Table Str Data).insert [107] (.int 7) } }

theorem listLen_integer_keeps :
    ∃ reply after, exec (.listLen [107]) (.frozen 0) 0 integerKey = some (reply, after) ∧ reply.typeError = true ∧
      (OnlyExpires (.frozen 0) integerKey after ↔ ¬UpdatesMissing (.frozen 0) (integerKey 0) (.listLen [107])) := by
  have fresh : (integerKey 0).eraseEach (Env.frozen 0).now [[107]] = integerKey 0 :=
    Database.eraseEach_fresh ⟨by simp [integerKey, Database.isExpired], trivial⟩
  have stored : (integerKey 0).store.data.lookup [107] = some (.int 7) := by simp [integerKey]
  have ran : exec (.listLen [107]) (.frozen 0) 0 integerKey =
      some (.listSize (.error .notList), Function.update integerKey 0 (integerKey 0)) := by
    rw [exec_here 0 integerKey rfl]
    simp [Operation.map, listLen, fresh, stored]
  exact ⟨_, _, ran, rfl, type_error_keeps_iff ran rfl⟩

/-- `HASH_UPDATE` of a key that does not exist reports that it is not a hash and leaves a string. -/
theorem hashUpdate_missing_differs : ∃ reply after,
    exec (.hashUpdate [104] ∅) (.frozen 0) 0 (fun _ => {}) = some (reply, after) ∧ reply.typeError = true ∧
      ¬OnlyExpires (.frozen 0) (fun _ => {}) after := by
  have fresh : ({} : Database).eraseEach (Env.frozen 0).now [[104]] = {} :=
    Database.eraseEach_fresh ⟨by simp [Database.isExpired], trivial⟩
  have ran : exec (.hashUpdate [104] ∅) (.frozen 0) 0 (fun _ => {}) =
      some (.hashSize (.error .notHash),
        Function.update (fun _ => {}) 0 { store := ({} : Store).put [104] (.str []) }) := by
    rw [exec_here 0 _ rfl]
    simp [Operation.map, hashUpdate, fresh, Store.contains_eq]
  refine ⟨_, _, ran, rfl, fun kept => ?_⟩
  rcases kept 0 [104] with ⟨data, -⟩ | ⟨-, gone, -⟩
  · simp at data
  · simp at gone

end Vanity.Db
