import Vanity.Db.Edits

/-!
# Invariants of the tables

A property of one database's tables that survives expiry, the transfers between databases and the
bodies of the operations survives every call. The two properties here: an expiry time has a key to
belong to, and a stored value comes from somewhere.
-/

namespace Vanity.Db

/-- What a property of the tables must survive outside the bodies of the operations. -/
structure Persistent (inv : Store → Prop) : Prop where
  expire : ∀ s key, inv s → inv (s.doExpire key)
  copyToDb : ∀ key s t, inv s → inv t → inv (copyToDb key s t).2.1 ∧ inv (copyToDb key s t).2.2
  moveToDb : ∀ key s t, inv s → inv t → inv (moveToDb key s t).2.1 ∧ inv (moveToDb key s t).2.2

section
variable {inv : Store → Prop} (persistent : Persistent inv)
include persistent

theorem Persistent.expired {db after : Database} {keys : List Str} (expired : Database.Expired db after keys)
    (start : inv db.store) : inv after.store := by
  rw [expired.store]
  clear expired
  generalize db.store = s at start
  induction keys generalizing s with
  | nil => exact start
  | cons key keys ih => exact ih _ (persistent.expire s key start)

theorem Persistent.eraseEach {db : Database} (now : Nat → Time) (keys : List Str) (start : inv db.store) :
    inv (db.eraseEach now keys).store := by
  obtain ⟨expired, erased, -⟩ := Database.eraseEach_expired now keys db
  exact persistent.expired erased start

theorem Persistent.across {env : Env} {op : Op} {transfer : Str → Store → Store → Bool × Store × Store}
    {key : Str} {to_ : Index} (action : op.action env = .across transfer key to_) {s t : Store} (first : inv s)
    (second : inv t) : inv (transfer key s t).2.1 ∧ inv (transfer key s t).2.2 := by
  cases op with
  | copyToDb =>
    obtain ⟨rfl, rfl, rfl⟩ := Action.across.inj action
    exact persistent.copyToDb _ s t first second
  | moveToDb =>
    obtain ⟨rfl, rfl, rfl⟩ := Action.across.inj action
    exact persistent.moveToDb _ s t first second
  | _ => cases action

theorem Persistent.reading {env : Env} {op : Op} {read : Env → Database → Reply × Database}
    (action : op.action env = .reading read) {db : Database} (start : inv db.store) :
    inv (read env db).2.store := by
  cases op with
  | keys =>
    obtain rfl := Action.reading.inj action
    obtain ⟨expired, purged⟩ := db.deepPurge_expired env
    exact persistent.expired purged start
  | manyGet ks =>
    obtain rfl := Action.reading.inj action
    obtain ⟨expired, read⟩ := manyGet_expired ks env db
    exact persistent.expired read start
  | _ => cases action

/-- Every call keeps the property if the body of its operation does, on the store that the checks
have left. -/
theorem Persistent.exec {op : Op} {env : Env} {i : Index} {dbs after : Databases} {reply : Reply}
    (body : ∀ operation, op.action env = .here operation → ∀ result t,
      inv ((dbs i).eraseEach env.now operation.checks).store →
      operation.body ((dbs i).eraseEach env.now operation.checks).store = some (result, t) → inv t)
    (start : ∀ j, inv (dbs j).store) (ran : exec op env i dbs = some (reply, after)) (j : Index) :
    inv (after j).store := by
  have updated : ∀ {dbs : Databases} {db : Database}, (∀ j, inv (dbs j).store) → inv db.store →
      ∀ i j, inv (Function.update dbs i db j).store := by
    intro dbs db others here i
    exact (Function.forall_update_iff dbs fun _ db => inv db.store).mpr ⟨here, fun j _ => others j⟩
  cases action : op.action env with
  | idle =>
    rw [exec_idle i dbs action] at ran
    obtain ⟨-, rfl⟩ := Prod.mk.inj (Option.some.inj ran)
    exact start j
  | here operation =>
    rw [exec_here i dbs action] at ran
    obtain ⟨⟨result, t⟩, computed, finished⟩ := Option.map_eq_some_iff.mp ran
    obtain ⟨-, rfl⟩ := Prod.mk.inj finished
    have checked := persistent.eraseEach env.now operation.checks (start i)
    exact updated start (body operation action result t checked computed) i j
  | across transfer key to_ =>
    rw [exec_across i dbs action] at ran
    obtain ⟨-, rfl⟩ := Prod.mk.inj (Option.some.inj ran)
    have checked : inv ((dbs i).eraseIfExpired (env.now 0) key).2.store :=
      persistent.eraseEach env.now [key] (start i)
    have first := updated start checked i
    rw [transferDb]
    dsimp only
    split
    · exact first j
    · obtain ⟨source, dest⟩ := persistent.across action checked (first to_)
      exact updated (fun j => updated first source i j) dest to_ j
  | reading read =>
    rw [exec_reading i dbs action] at ran
    obtain ⟨-, rfl⟩ := Prod.mk.inj (Option.some.inj ran)
    exact updated start (persistent.reading action (start i)) i j

end

/-! ### Expiry times belong to keys -/

def Store.Covered (s : Store) : Prop := ∀ key, key ∈ s.expiryTimes → key ∈ s.data

namespace Store

theorem Covered.put {s : Store} (covered : s.Covered) (key : Str) (value : Data) : (s.put key value).Covered :=
  fun other timed => Finmap.mem_insert.mpr (.inr (covered other timed))

theorem Covered.clearExpiry {s : Store} (covered : s.Covered) (key : Str) : (s.clearExpiry key).Covered :=
  fun other timed => covered other (Finmap.mem_erase.mp timed).2

theorem Covered.doExpire {s : Store} (covered : s.Covered) (key : Str) : (s.doExpire key).Covered := by
  intro other timed
  obtain ⟨different, timed⟩ := Finmap.mem_erase.mp timed
  exact Finmap.mem_erase.mpr ⟨different, covered other timed⟩

theorem Covered.copyExpiry {s t : Store} {source dest : Str} (covered : t.Covered) (present : dest ∈ t.data) :
    (s.copyExpiry source t dest).Covered := by
  unfold Store.copyExpiry
  split
  · exact covered
  · intro other timed
    rcases Finmap.mem_insert.mp timed with rfl | before
    · exact present
    · exact covered other before

theorem Covered.applyAll {s : Store} (covered : s.Covered) (edits : List Edit) : (applyAll edits s).Covered := by
  induction edits generalizing s with
  | nil => exact covered
  | cons edit edits ih =>
    apply ih
    cases edit with
    | put key value => exact covered.put key value
    | bind key value => exact (covered.put key value).clearExpiry key
    | remove key => exact covered.doExpire key

end Store

theorem covered_persistent : Persistent Store.Covered where
  expire _ key covered := covered.doExpire key
  copyToDb key s t first second := by
    unfold copyToDb
    split
    · exact ⟨first, second⟩
    · exact ⟨first, (second.put key _).clearExpiry key⟩
  moveToDb key s t first second := by
    unfold moveToDb
    split
    · exact ⟨first, second⟩
    · exact ⟨first.doExpire key, (second.put key _).copyExpiry (Finmap.mem_insert.mpr (.inl rfl))⟩

theorem moveTo_covered {source dest : Str} {s t : Store} (covered : s.Covered)
    (effect : (moveTo source dest).effect s = some t) : t.Covered := by
  obtain rfl := Option.some.inj effect
  split
  · exact covered
  · split
    · exact covered
    · exact ((covered.put dest _).copyExpiry (Finmap.mem_insert.mpr (.inl rfl))).doExpire source

theorem here_covered {env : Env} {op : Op} {operation : Operation Reply} (here : op.action env = .here operation)
    {s t : Store} (covered : s.Covered) {reply : Reply} (ran : operation.body s = some (reply, t)) : t.Covered := by
  cases direct : op.direct with
  | false =>
    rcases here_uniform here direct s s fun _ _ => ⟨rfl, rfl⟩ with ⟨undefined, -⟩ | ⟨_, edits, computed, -⟩
    · rw [ran] at undefined
      cases undefined
    · rw [ran] at computed
      obtain ⟨-, rfl⟩ := Prod.mk.inj (Option.some.inj computed)
      exact covered.applyAll edits
  | true =>
    cases op with
    | reset =>
      obtain rfl := Action.here.inj here
      obtain ⟨-, rfl⟩ := Prod.mk.inj (Option.some.inj ran)
      exact fun key timed => absurd timed Finmap.notMem_empty
    | del key =>
      obtain rfl := Action.here.inj here
      obtain ⟨-, rfl⟩ := Prod.mk.inj (Option.some.inj ran)
      exact covered.doExpire key
    | moveTo source dest =>
      obtain rfl := Action.here.inj here
      have effect : (moveTo source dest).effect s = some t := by
        rw [← Operation.map_effect Reply.flag, Operation.effect, ran, Option.map_some]
      exact moveTo_covered covered effect
    | setExpiry key time =>
      obtain rfl := Action.here.inj here
      obtain ⟨-, rfl⟩ := Prod.mk.inj (Option.some.inj ran)
      split
      · rename_i present
        intro other timed
        rcases Finmap.mem_insert.mp timed with rfl | before
        · exact Store.contains_iff.mp present
        · exact covered other before
      · exact covered
    | clearExpiry key =>
      obtain rfl := Action.here.inj here
      obtain ⟨-, rfl⟩ := Prod.mk.inj (Option.some.inj ran)
      exact covered.clearExpiry key
    | clearAllExpiry =>
      obtain rfl := Action.here.inj here
      obtain ⟨-, rfl⟩ := Prod.mk.inj (Option.some.inj ran)
      exact fun key timed => absurd timed Finmap.notMem_empty
    | _ => cases direct

/-! ### Where stored values come from -/

def Store.Without (bad : Data → Prop) (s : Store) : Prop :=
  ∀ key value, s.data.lookup key = some value → ¬bad value

section
variable {bad : Data → Prop}

theorem Store.Without.put {s : Store} (without : s.Without bad) (key : Str) {value : Data} (fine : ¬bad value) :
    (s.put key value).Without bad := by
  intro other held stored
  rw [put_lookup] at stored
  split at stored
  · obtain rfl := Option.some.inj stored
    exact fine
  · exact without other held stored

theorem Store.Without.doExpire {s : Store} (without : s.Without bad) (key : Str) : (s.doExpire key).Without bad := by
  intro other held stored
  rw [doExpire_lookup] at stored
  split at stored
  · cases stored
  · exact without other held stored

theorem Store.Without.copyExpiry {s t : Store} {source dest : Str} (without : t.Without bad) :
    (s.copyExpiry source t dest).Without bad := by
  unfold Store.copyExpiry
  split <;> exact without

theorem Store.Without.applyAll {s : Store} (without : s.Without bad) {edits : List Edit}
    (fine : ∀ edit ∈ edits, ∀ value, edit.value = some value → ¬bad value) : (applyAll edits s).Without bad := by
  induction edits generalizing s with
  | nil => exact without
  | cons edit edits ih =>
    refine ih ?_ fun other member => fine other (List.mem_cons_of_mem _ member)
    have here := fine edit List.mem_cons_self
    cases edit with
    | put key value => exact without.put key (here value rfl)
    | bind key value => exact without.put key (here value rfl)
    | remove key => exact without.doExpire key

theorem without_persistent (bad : Data → Prop) : Persistent (Store.Without bad) where
  expire _ key without := without.doExpire key
  copyToDb key s t first second := by
    unfold copyToDb
    split
    · exact ⟨first, second⟩
    · rename_i value stored
      exact ⟨first, second.put key (first key value stored)⟩
  moveToDb key s t first second := by
    unfold moveToDb
    split
    · exact ⟨first, second⟩
    · rename_i value stored
      exact ⟨first.doExpire key, (second.put key (first key value stored)).copyExpiry⟩

theorem direct_without {env : Env} {op : Op} {operation : Operation Reply} (here : op.action env = .here operation)
    (direct : op.direct = true) {s t : Store} (without : s.Without bad) {reply : Reply}
    (ran : operation.body s = some (reply, t)) : t.Without bad := by
  cases op with
  | reset =>
    obtain rfl := Action.here.inj here
    obtain ⟨-, rfl⟩ := Prod.mk.inj (Option.some.inj ran)
    exact fun key value stored => by simp at stored
  | del key =>
    obtain rfl := Action.here.inj here
    obtain ⟨-, rfl⟩ := Prod.mk.inj (Option.some.inj ran)
    exact without.doExpire key
  | moveTo source dest =>
    obtain rfl := Action.here.inj here
    have effect : (moveTo source dest).effect s = some t := by
      rw [← Operation.map_effect Reply.flag, Operation.effect, ran, Option.map_some]
    obtain rfl := Option.some.inj effect
    split
    · exact without
    · rename_i value stored
      split
      · exact without
      · exact ((without.put dest (without source value stored)).copyExpiry).doExpire source
  | setExpiry =>
    obtain rfl := Action.here.inj here
    obtain ⟨-, rfl⟩ := Prod.mk.inj (Option.some.inj ran)
    split <;> exact without
  | clearExpiry | clearAllExpiry =>
    obtain rfl := Action.here.inj here
    obtain ⟨-, rfl⟩ := Prod.mk.inj (Option.some.inj ran)
    exact without
  | _ => cases direct

/-- An operation stores an empty collection of a bad kind only if it has one to bind. -/
theorem here_without {env : Env} {op : Op} {operation : Operation Reply} (here : op.action env = .here operation)
    (empty : ∀ value, bad value → value.isEmpty = true) {s t : Store}
    (fine : op.bindsEmpty s → ∀ value, bad value → ∃ l, value = .list l) (without : s.Without bad) {reply : Reply}
    (ran : operation.body s = some (reply, t)) : t.Without bad := by
  cases direct : op.direct with
  | true => exact direct_without here direct without ran
  | false =>
    rcases here_uniform here direct s s fun _ _ => ⟨rfl, rfl⟩ with ⟨undefined, -⟩ | ⟨_, edits, computed, -, -, post⟩
    · rw [ran] at undefined
      cases undefined
    · rw [ran] at computed
      obtain ⟨-, rfl⟩ := Prod.mk.inj (Option.some.inj computed)
      refine without.applyAll fun edit member value stored isBad => ?_
      rcases post.filled edit member value stored (empty value isBad) with ⟨key, before⟩ | ⟨binds, notList⟩
      · exact without key value before isBad
      · obtain ⟨l, list⟩ := fine binds value isBad
        exact notList l list

end

end Vanity.Db
