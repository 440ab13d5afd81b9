import Vanity.Db.Moves
import Vanity.Db.Purges

/-!
# What a call reads and writes

The places that the reply of a call depends on, and those that it changes. Every other place it leaves,
or removes because its time has passed.
-/

namespace Vanity.Db

namespace Op

/-- The places that the reply depends on, and what is stored elsewhere. -/
def reads (i : Index) : Op → Set Place
  | .begin | .commit | .discard | .reset | .clearAllExpiry => ∅
  | .strSet .. | .intSet .. | .floatSet .. | .hashSet .. | .clearExpiry _ => ∅
  | .keys => {place | place.1 = i}
  | .manyGet ks | .setUnion ks | .setUnionInto _ ks | .setUnionLen ks
  | .setIntersection ks | .setIntersectionInto _ ks | .setIntersectionLen ks => {place | place.1 = i ∧ place.2 ∈ ks}
  | .setMove first second _ | .setDifference first second | .setDifferenceInto _ first second
  | .setDifferenceLen first second => {(i, first), (i, second)}
  | .has key | .del key | .get key | .type key | .copyTo key _ | .moveTo key _
  | .copyToDb key _ | .moveToDb key _ | .setExpiry key _ | .getExpiry key
  | .incrInt key _ | .incrFloat key _ | .strLen key
  | .listLen key | .listGet key _ | .listSet key _ _ | .listPushLeft key _ | .listPushRight key _
  | .listPopLeft key _ | .listPopRight key _ | .listRange key _ _ | .listTrim key _ _ | .listRemove key _ _
  | .setAdd key _ | .setAll key | .setRemove key _ | .setDiscard key _ | .setLen key | .setContains key _
  | .hashAll key | .hashGet key _ | .hashContains key _ | .hashLen key | .hashKeyLen key _
  | .hashRemove key _ | .hashKeys key | .hashValues key | .hashUpdate key _ | .hashManyGet key _ => {(i, key)}

def writes (i : Index) : Op → Set Place
  | .reset | .clearAllExpiry => {place | place.1 = i}
  | .copyTo _ dest | .setUnionInto dest _ | .setIntersectionInto dest _ | .setDifferenceInto dest _ _ => {(i, dest)}
  | .moveTo source dest | .setMove source dest _ => {(i, source), (i, dest)}
  | .copyToDb key to_ => {(to_, key)}
  | .moveToDb key to_ => {(i, key), (to_, key)}
  | .del key | .setExpiry key _ | .clearExpiry key
  | .strSet key _ | .intSet key _ | .floatSet key _ | .incrInt key _ | .incrFloat key _
  | .listSet key _ _ | .listPushLeft key _ | .listPushRight key _
  | .listPopLeft key _ | .listPopRight key _ | .listTrim key _ _ | .listRemove key _ _
  | .setAdd key _ | .setRemove key _ | .setDiscard key _
  | .hashSet key _ | .hashRemove key _ | .hashUpdate key _ => {(i, key)}
  | _ => ∅

end Op

/-! ### What a call leaves -/

/-- What is stored at a key: the value and the expiry time. -/
def Store.held (s : Store) (key : Str) : Option Data × Option Time := (s.data.lookup key, s.expiryTimes.lookup key)

theorem Store.SameExcept.held {keys : List Str} {s t : Store} (same : Store.SameExcept keys s t) {key : Str}
    (other : key ∉ keys) : t.held key = s.held key :=
  Prod.ext (same key other).1.symm (same key other).2.symm

theorem Store.sameExcept_bind (s : Store) (key : Str) (value : Data) :
    Store.SameExcept [key] s ((s.put key value).clearExpiry key) := by
  intro other outside
  have different : other ≠ key := fun same => outside (List.mem_singleton.mpr same)
  simp [different]

section
variable {key other : Str} {s t : Store}

theorem incrInt_within {n : Int64} (effect : (incrInt key n).effect s = some t) : Store.SameExcept [key] s t := by
  simp only [Operation.effect, incrInt] at effect
  split at effect
  · obtain rfl := Option.some.inj effect
    exact s.sameExcept_put key _
  · obtain rfl := Option.some.inj effect
    exact .refl _ s
  · obtain rfl := Option.some.inj effect
    exact s.sameExcept_put key _

theorem incrFloat_within {x : Float64} (effect : (incrFloat key x).effect s = some t) :
    Store.SameExcept [key] s t := by
  simp only [Operation.effect, incrFloat] at effect
  split at effect
  · obtain rfl := Option.some.inj effect
    exact s.sameExcept_put key _
  · obtain rfl := Option.some.inj effect
    exact .refl _ s
  · obtain rfl := Option.some.inj effect
    exact s.sameExcept_put key _

theorem listPush_within {join : ListT → ListT} {values : ListT} (effect : (listPush join key values).effect s = some t) :
    Store.SameExcept [key] s t := by
  have created : Store.SameExcept [key] s (if s.contains key then s else s.put key (.list [])) := by
    split
    · exact .refl _ s
    · exact s.sameExcept_put key _
  obtain rfl := Option.some.inj effect
  dsimp only
  split
  · exact .refl _ s
  · split
    · exact created.trans (Store.sameExcept_put _ key _)
    · exact created

theorem setAdd_within {values : SetT} (effect : (setAdd key values).effect s = some t) : Store.SameExcept [key] s t := by
  have created : Store.SameExcept [key] s (if s.contains key then s else s.put key (.set ∅)) := by
    split
    · exact .refl _ s
    · exact s.sameExcept_put key _
  obtain rfl := Option.some.inj effect
  dsimp only
  split
  · exact .refl _ s
  · split
    · exact created.trans (Store.sameExcept_put _ key _)
    · exact created

theorem hashUpdate_within {env : Env} {values : HashT} (effect : (hashUpdate env key values).effect s = some t) :
    Store.SameExcept [key] s t := by
  have created : Store.SameExcept [key] s (if s.contains key then s else s.put key (.str [])) := by
    split
    · exact .refl _ s
    · exact s.sameExcept_put key _
  obtain rfl := Option.some.inj effect
  dsimp only
  split
  · exact created.trans (Store.sameExcept_put _ key _)
  · exact created

theorem setQueryInto_within {checks : List Str} {eval : Store → Option SetT}
    (effect : (setQueryInto checks eval key).effect s = some t) : Store.SameExcept [key] s t := by
  simp only [Operation.effect, setQueryInto] at effect
  split at effect
  · obtain rfl := Option.some.inj effect
    exact .refl _ s
  · obtain rfl := Option.some.inj effect
    exact s.sameExcept_bind key _

theorem setExpiry_held {time : Time} (s : Store) (different : other ≠ key) :
    Store.held (if s.contains key then { s with expiryTimes := s.expiryTimes.insert key time } else s) other =
      s.held other := by
  split
  · simp [Store.held, Finmap.lookup_insert_of_ne _ different]
  · rfl

theorem copyTo_within {source dest : Str} (effect : (copyTo source dest).effect s = some t) :
    Store.SameExcept [dest] s t := by
  simp only [Operation.effect, copyTo] at effect
  split at effect
  · obtain rfl := Option.some.inj effect
    exact .refl _ s
  · split at effect
    · obtain rfl := Option.some.inj effect
      exact .refl _ s
    · obtain rfl := Option.some.inj effect
      exact s.sameExcept_bind dest _

/-- What a move that finds a value leaves at each key. -/
theorem movedTo_held {source dest : Str} {value : Data} (stored : s.data.lookup source = some value)
    (different : source ≠ dest) (other : Str) :
    (movedTo source dest s).2.held other =
      if other = source then (none, none)
      else if other = dest then (some value, (s.expiryTimes.lookup source).or (s.expiryTimes.lookup dest))
      else s.held other := by
  rw [Store.held, movedTo, stored]
  by_cases first : other = source
  · simp [different, first]
  · by_cases second : other = dest
    · subst second
      simp [different, first, copyExpiry_data, copyExpiry_expiry]
    · simp [different, first, second, copyExpiry_data, copyExpiry_expiry, Store.held]

theorem moveTo_effect (source dest : Str) (s : Store) :
    (moveTo source dest).effect s = some (movedTo source dest s).2 := rfl

end

/-- The body of a call leaves the keys that the call does not write. -/
theorem here_within {env : Env} {op : Op} {operation : Operation Reply} {i : Index} {key : Str} {s t : Store}
    (here : op.action env = .here operation) (apart : (i, key) ∉ op.writes i) (effect : operation.effect s = some t) :
    t.held key = s.held key := by
  by_cases unlogged : op.kind.shouldWal = false
  · rw [unlogged_keeps unlogged here s t effect]
  have only : ∀ {written : Str}, Store.SameExcept [written] s t → (i, key) ∉ ({(i, written)} : Set Place) →
      t.held key = s.held key := by
    intro written same apart
    refine same.held fun member => apart ?_
    rw [List.mem_singleton.mp member]
    rfl
  cases op with
  | reset | clearAllExpiry => exact absurd rfl apart
  | del written =>
    obtain rfl := Action.here.inj here
    obtain rfl := Option.some.inj effect
    exact only (s.sameExcept_doExpire written) apart
  | clearExpiry written =>
    obtain rfl := Action.here.inj here
    obtain rfl := Option.some.inj effect
    have different : key ≠ written := fun same => apart (by rw [same]; rfl)
    simp [Store.held, different]
  | setExpiry written time =>
    obtain rfl := Action.here.inj here
    obtain rfl := Option.some.inj effect
    exact setExpiry_held s fun same => apart (by rw [same]; rfl)
  | copyTo source dest =>
    obtain rfl := Action.here.inj here
    rw [Operation.map_effect] at effect
    exact only (copyTo_within effect) apart
  | moveTo source dest =>
    obtain rfl := Action.here.inj here
    rw [Operation.map_effect, moveTo_effect] at effect
    obtain rfl := Option.some.inj effect
    have fromSource : key ≠ source := fun same => apart (by rw [same]; exact .inl rfl)
    have toDest : key ≠ dest := fun same => apart (by rw [same]; exact .inr rfl)
    cases stored : s.data.lookup source with
    | none => rw [movedTo, stored]
    | some value =>
      by_cases same : source = dest
      · rw [movedTo, stored]
        simp [same]
      · rw [movedTo_held stored same, if_neg fromSource, if_neg toDest]
  | setMove source dest value =>
    obtain rfl := Action.here.inj here
    rw [Operation.map_effect] at effect
    refine (setMove_within effect).held fun member => apart ?_
    rcases List.mem_pair.mp member with rfl | rfl
    · exact .inl rfl
    · exact .inr rfl
  | strSet written | intSet written | floatSet written | hashSet written =>
    obtain rfl := Action.here.inj here
    obtain rfl := Option.some.inj effect
    exact only (s.sameExcept_bind written _) apart
  | incrInt written =>
    obtain rfl := Action.here.inj here
    rw [Operation.map_effect] at effect
    exact only (incrInt_within effect) apart
  | incrFloat written =>
    obtain rfl := Action.here.inj here
    rw [Operation.map_effect] at effect
    exact only (incrFloat_within effect) apart
  | listPushLeft written | listPushRight written =>
    obtain rfl := Action.here.inj here
    rw [Operation.map_effect] at effect
    exact only (listPush_within effect) apart
  | setAdd written =>
    obtain rfl := Action.here.inj here
    rw [Operation.map_effect] at effect
    exact only (setAdd_within effect) apart
  | hashUpdate written =>
    obtain rfl := Action.here.inj here
    rw [Operation.map_effect] at effect
    exact only (hashUpdate_within effect) apart
  | setUnionInto dest | setIntersectionInto dest | setDifferenceInto dest =>
    obtain rfl := Action.here.inj here
    rw [Operation.map_effect] at effect
    exact only (setQueryInto_within effect) apart
  | listSet written index value =>
    obtain rfl := Action.here.inj here
    exact only (((listSet_local written index value).map _).within s t effect) apart
  | listPopLeft written n =>
    obtain rfl := Action.here.inj here
    exact only (((listPopLeft_local written n).map _).within s t effect) apart
  | listPopRight written n =>
    obtain rfl := Action.here.inj here
    exact only (((listPopRight_local written n).map _).within s t effect) apart
  | listTrim written start stop =>
    obtain rfl := Action.here.inj here
    exact only (((listTrim_local written start stop).map _).within s t effect) apart
  | listRemove written element count =>
    obtain rfl := Action.here.inj here
    exact only (((listRemove_local written element count).map _).within s t effect) apart
  | setRemove written count =>
    obtain rfl := Action.here.inj here
    exact only (((setRemove_local env written count).map _).within s t effect) apart
  | setDiscard written values =>
    obtain rfl := Action.here.inj here
    exact only (((setDiscard_local env written values).map _).within s t effect) apart
  | hashRemove written fields =>
    obtain rfl := Action.here.inj here
    exact only (((hashRemove_local env written fields).map _).within s t effect) apart
  | begin | commit | discard | copyToDb | moveToDb => cases here
  | _ => exact absurd rfl unlogged

/-- The key is as it was, or it was removed when its time had passed at one of the readings. -/
def Spared (now : Nat → Time) (db after : Database) (key : Str) : Prop :=
  after.store.held key = db.store.held key ∨
    after.store.held key = (none, none) ∧ ∃ n, db.isExpired (now n) key = true

namespace Database

theorem Expired.held {db after : Database} {keys : List Str} (expired : Expired db after keys) (key : Str) :
    after.store.held key = if key ∈ keys then (none, none) else db.store.held key := by
  rw [Store.held, expired.store, Store.foldl_doExpire_data, Store.foldl_doExpire_expiry]
  split
  · rfl
  · rfl

theorem Expired.spared {db after : Database} {keys : List Str} {now : Nat → Time} (expired : Expired db after keys)
    (due : ∀ key ∈ keys, ∃ n, db.isExpired (now n) key = true) (key : Str) : Spared now db after key := by
  rw [Spared, expired.held]
  by_cases member : key ∈ keys
  · exact .inr ⟨if_pos member, due key member⟩
  · exact .inl (if_neg member)

theorem eraseEach_spared (now : Nat → Time) (keys : List Str) (db : Database) (key : Str) :
    Spared now db (db.eraseEach now keys) key := by
  obtain ⟨expired, effect, due⟩ := eraseEach_was_due now keys db
  exact effect.spared due key

theorem shallowPurge_spared (env : Env) (db : Database) :
    (∀ key, Spared env.now db (db.shallowPurge env) key) ∧ (db.shallowPurge env).expiryEnabled = db.expiryEnabled := by
  obtain ⟨rounds, after, purging⟩ := purging_ends env db 0 0
  obtain ⟨expired, effect, due⟩ := purging.onlyExpired
  have ends : db.shallowPurge env = after := purging.loop_eq _ (Nat.lt_succ_self _)
  rw [ends]
  refine ⟨effect.spared fun key member => ?_, effect.enabled⟩
  obtain ⟨n, -, gone⟩ := due key member
  exact ⟨n, gone⟩

theorem deepPurge_spared (env : Env) (db : Database) :
    (∀ key, Spared env.now db (db.deepPurge env) key) ∧ (db.deepPurge env).expiryEnabled = db.expiryEnabled := by
  have effect : Expired db (db.deepPurge env) _ := foldl_expire_expired _ db
  refine ⟨effect.spared fun key member => ?_, effect.enabled⟩
  obtain ⟨n, -, gone⟩ := expiredAmong_expired member
  exact ⟨n, gone⟩

theorem manyGetLoop_was_due (now : Nat → Time) (keys : List Str) (db : Database) :
    ∃ expired, Expired db (manyGetLoop now keys db).2 expired ∧ ∀ key ∈ expired, ∃ n, db.isExpired (now n) key = true := by
  induction keys generalizing now db with
  | nil => exact ⟨[], .refl db, nofun⟩
  | cons first keys ih =>
    obtain ⟨expired, later, due⟩ := ih (fun n => now (n + 1)) (db.eraseIfExpired (now 0) first).2
    refine ⟨_, (eraseIfExpired_expired db (now 0) first).trans later, fun key member => ?_⟩
    rcases List.mem_append.mp member with here | there
    · split at here
      · rename_i gone
        rw [List.mem_singleton.mp here]
        exact ⟨0, gone⟩
      · cases here
    · obtain ⟨n, gone⟩ := due key there
      exact ⟨n + 1, expire_later gone⟩

end Database

theorem Spared.refl (now : Nat → Time) (db : Database) (key : Str) : Spared now db db key := .inl rfl

theorem manyGet_spared (keys : List Str) (env : Env) (db : Database) :
    (∀ key, Spared env.now db (manyGet keys env db).2 key) ∧
      (manyGet keys env db).2.expiryEnabled = db.expiryEnabled := by
  obtain ⟨first, checked, due⟩ := Database.eraseEach_was_due env.now keys db
  obtain ⟨second, read, dueThen⟩ := Database.manyGetLoop_was_due (fun n => env.now (keys.length + n)) keys
    (db.eraseEach env.now keys)
  have effect : Database.Expired db (manyGet keys env db).2 _ := checked.trans read
  refine ⟨effect.spared fun key member => ?_, effect.enabled⟩
  rcases List.mem_append.mp member with here | there
  · exact due key here
  · obtain ⟨n, gone⟩ := dueThen key there
    refine ⟨keys.length + n, ?_⟩
    unfold Database.isExpired at gone ⊢
    rw [checked.enabled, checked.store, Store.foldl_doExpire_expiry] at gone
    split at gone
    · cases gone
    · rename_i enabled
      rw [if_neg enabled]
      by_cases member : key ∈ first
      · simp [member] at gone
      · simpa [member] using gone

section
variable {key other : Str}

theorem copyToDb_source (s t : Store) : (copyToDb key s t).2.1 = s := by
  rw [copyToDb]
  cases s.data.lookup key <;> rfl

theorem copyToDb_dest (s t : Store) (different : other ≠ key) : (copyToDb key s t).2.2.held other = t.held other := by
  rw [copyToDb]
  cases s.data.lookup key with
  | none => rfl
  | some value => simp [Store.held, different]

theorem moveToDb_source (s t : Store) (different : other ≠ key) : (moveToDb key s t).2.1.held other = s.held other := by
  rw [moveToDb]
  cases s.data.lookup key with
  | none => rfl
  | some value => simp [Store.held, different]

theorem moveToDb_dest (s t : Store) (different : other ≠ key) : (moveToDb key s t).2.2.held other = t.held other := by
  rw [moveToDb]
  cases s.data.lookup key with
  | none => rfl
  | some value => simp [Store.held, copyExpiry_data, copyExpiry_expiry, different]

variable {transfer : Str → Store → Store → Bool × Store × Store} {i j n : Index} {env : Env} {dbs : Databases}

theorem transferDb_self : transferDb transfer key i i env dbs =
    (((dbs i).eraseIfExpired (env.now 0) key).2.store.contains key,
      Function.update dbs i ((dbs i).eraseIfExpired (env.now 0) key).2) := by
  rw [transferDb, if_pos rfl]

theorem transferDb_other (different : i ≠ j) : transferDb transfer key i j env dbs =
    ((transfer key ((dbs i).eraseIfExpired (env.now 0) key).2.store (dbs j).store).1,
      Function.update (Function.update dbs i { ((dbs i).eraseIfExpired (env.now 0) key).2 with
        store := (transfer key ((dbs i).eraseIfExpired (env.now 0) key).2.store (dbs j).store).2.1 }) j
        { dbs j with
          store := (transfer key ((dbs i).eraseIfExpired (env.now 0) key).2.store (dbs j).store).2.2 }) := by
  simp [transferDb, different, Ne.symm different]

/-- A transfer leaves what its two halves leave. -/
theorem transferDb_spared (source : n = i → ∀ s t, (transfer key s t).2.1.held other = s.held other)
    (dest : n = j → ∀ s t, (transfer key s t).2.2.held other = t.held other) :
    Spared env.now (dbs n) ((transferDb transfer key i j env dbs).2 n) other := by
  have checked : Spared env.now (dbs i) ((dbs i).eraseIfExpired (env.now 0) key).2 other :=
    Database.eraseEach_spared env.now [key] (dbs i) other
  by_cases self : i = j
  · subst self
    rw [transferDb_self]
    by_cases here : n = i
    · subst here
      simpa only [Function.update_self] using checked
    · simpa only [Function.update_of_ne here] using .refl ..
  · rw [transferDb_other self]
    by_cases there : n = j
    · subst there
      simp only [Function.update_self]
      exact .inl (dest rfl _ _)
    · by_cases here : n = i
      · subst here
        simp only [Function.update_of_ne there, Function.update_self]
        unfold Spared at checked ⊢
        rwa [← source rfl _ (dbs j).store] at checked
      · simpa only [Function.update_of_ne there, Function.update_of_ne here] using .refl ..

theorem update_enabled {db : Database} (same : db.expiryEnabled = (dbs i).expiryEnabled) (j : Index) :
    (Function.update dbs i db j).expiryEnabled = (dbs j).expiryEnabled := by
  by_cases here : j = i
  · subst here
    rw [Function.update_self, same]
  · rw [Function.update_of_ne here]

theorem transferDb_enabled (n : Index) :
    ((transferDb transfer key i j env dbs).2 n).expiryEnabled = (dbs n).expiryEnabled := by
  have enabled := ((dbs i).eraseIfExpired_expired (env.now 0) key).enabled
  by_cases self : i = j
  · subst self
    rw [transferDb_self]
    exact update_enabled enabled n
  · rw [transferDb_other self]
    by_cases there : n = j
    · subst there
      simp only [Function.update_self]
    · simp only [Function.update_of_ne there]
      exact update_enabled (by exact enabled) n

end

section
variable {op : Op} {env : Env} {i : Index} {dbs after : Databases} {reply : Reply}

/-- No call enables or disables expiry. -/
theorem exec_enabled (runs : exec op env i dbs = some (reply, after)) (j : Index) :
    (after j).expiryEnabled = (dbs j).expiryEnabled := by
  cases action : op.action env with
  | idle =>
    rw [exec_idle i dbs action] at runs
    obtain ⟨-, rfl⟩ := Prod.mk.inj (Option.some.inj runs)
    rfl
  | here operation =>
    rw [exec_here i dbs action] at runs
    obtain ⟨result, -, same⟩ := Option.map_eq_some_iff.mp runs
    obtain ⟨-, rfl⟩ := Prod.mk.inj same
    obtain ⟨expired, checked, -⟩ := Database.eraseEach_expired env.now operation.checks (dbs i)
    exact update_enabled (by exact checked.enabled) j
  | across transfer key to_ =>
    rw [exec_across i dbs action] at runs
    obtain ⟨-, rfl⟩ := Prod.mk.inj (Option.some.inj runs)
    exact transferDb_enabled j
  | reading read =>
    rw [exec_reading i dbs action] at runs
    obtain ⟨-, rfl⟩ := Prod.mk.inj (Option.some.inj runs)
    refine update_enabled ?_ j
    cases op with
    | keys =>
      obtain rfl := Action.reading.inj action
      exact (Database.deepPurge_spared env (dbs i)).2
    | manyGet ks =>
      obtain rfl := Action.reading.inj action
      exact (manyGet_spared ks env (dbs i)).2
    | _ => cases action

/-- A call leaves the places that it does not write. -/
theorem exec_spared (runs : exec op env i dbs = some (reply, after)) {place : Place} (apart : place ∉ op.writes i) :
    Spared env.now (dbs place.1) (after place.1) place.2 := by
  obtain ⟨j, key⟩ := place
  have updated : ∀ {db : Database}, (j = i → Spared env.now (dbs i) db key) →
      Spared env.now (dbs j) (Function.update dbs i db j) key := by
    intro db here
    by_cases same : j = i
    · subst same
      rw [Function.update_self]
      exact here rfl
    · rw [Function.update_of_ne same]
      exact .refl ..
  cases action : op.action env with
  | idle =>
    rw [exec_idle i dbs action] at runs
    obtain ⟨-, rfl⟩ := Prod.mk.inj (Option.some.inj runs)
    exact .refl ..
  | here operation =>
    rw [exec_here i dbs action] at runs
    obtain ⟨⟨result, t⟩, body, same⟩ := Option.map_eq_some_iff.mp runs
    obtain ⟨-, rfl⟩ := Prod.mk.inj same
    refine updated fun at_ => ?_
    subst at_
    have effect : operation.effect ((dbs j).eraseEach env.now operation.checks).store = some t := by
      rw [Operation.effect, body]
      rfl
    have before := Database.eraseEach_spared env.now operation.checks (dbs j) key
    unfold Spared at before ⊢
    rwa [← here_within action apart effect] at before
  | across transfer moved to_ =>
    rw [exec_across i dbs action] at runs
    obtain ⟨-, rfl⟩ := Prod.mk.inj (Option.some.inj runs)
    cases op with
    | copyToDb moved to_ =>
      obtain ⟨rfl, rfl, rfl⟩ := Action.across.inj action
      refine transferDb_spared (fun _ s t => ?_) fun there s t => copyToDb_dest s t fun same => apart (Prod.ext there same)
      rw [copyToDb_source]
    | moveToDb moved to_ =>
      obtain ⟨rfl, rfl, rfl⟩ := Action.across.inj action
      exact transferDb_spared (fun here s t => moveToDb_source s t fun same => apart (.inl (Prod.ext here same)))
        fun there s t => moveToDb_dest s t fun same => apart (.inr (Prod.ext there same))
    | _ => cases action
  | reading read =>
    rw [exec_reading i dbs action] at runs
    obtain ⟨-, rfl⟩ := Prod.mk.inj (Option.some.inj runs)
    refine updated fun _ => ?_
    cases op with
    | keys =>
      obtain rfl := Action.reading.inj action
      exact (Database.deepPurge_spared env (dbs i)).1 key
    | manyGet ks =>
      obtain rfl := Action.reading.inj action
      exact (manyGet_spared ks env (dbs i)).1 key
    | _ => cases action

end

end Vanity.Db
