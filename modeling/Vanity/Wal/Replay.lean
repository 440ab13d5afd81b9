import Vanity.Wal.Live
import Vanity.Db.Effects

/-!
# Replaying the log of a run

A mutating call is logged before its keys are checked, so the log holds the expire entries of a
call behind the call itself, while the call ran with the keys already erased. `ReplaySafe` says
when this does not matter, and `liveRun_replays` that the log of a run of such calls restores what
the run left.
-/

namespace Vanity.Wal
open Db

/-- When the log of a call leads the recovery to the state that the call left: a call that gives its
key a new value, or another key the value of its key, must not find the key expired. -/
def ReplaySafe (env : Env) (i : Index) (stores : Stores) (op : Op) : Prop :=
  let db := live stores i
  match op with
  | .incrInt key _ | .incrFloat key _ => db.Fresh env.now [key]
  | .listPushLeft key values | .listPushRight key values => values = [] ∨ db.Fresh env.now [key]
  | .setAdd key values => values = ∅ ∨ db.Fresh env.now [key]
  | .copyTo source dest | .moveTo source dest =>
    source = dest ∨ db.store.data.lookup source = none ∨ db.Fresh env.now [source]
  | .copyToDb key to_ | .moveToDb key to_ =>
    i = to_ ∨ db.store.data.lookup key = none ∨ db.Fresh env.now [key]
  -- the stored list may be one on which the call has no defined behaviour
  | .listTrim key start stop =>
    db.Fresh env.now [key] ∨ ∀ l, db.store.data.lookup key = some (.list l) →
      isInvalidRange start stop = true ∨ (slice l start stop).isSome
  | .listRemove key element count =>
    db.Fresh env.now [key] ∨ ∀ l, db.store.data.lookup key = some (.list l) → (removed l element count).isSome
  | .setMove source dest value =>
    source = dest ∨ (∀ set, db.store.data.lookup source = some (.set set) → value ∉ set) ∨
      db.Fresh env.now [source, dest] ∨
      (db.isExpired (env.now 0) source = true ∧ db.isExpired (env.now 1) dest = true)
  | .setUnionInto _ ks | .setIntersectionInto _ ks => db.Fresh env.now ks
  | .setDifferenceInto _ key1 key2 => db.Fresh env.now [key1, key2]
  | .setRemove .. => False
  | .hashUpdate key values =>
    db.Fresh env.now [key] ∧ ∀ hash, db.store.data.lookup key = some (.hash hash) → OrderFree hash values
  | _ => True

/-! ### Operations on one database -/

/-- Replaying `operation'` and then the expiries of `operation` leads to what `operation` left. -/
def Agrees (now : Nat → Time) (operation operation' : Operation Reply) (db : Database) : Prop :=
  ∀ (expired : List Str) t, Database.Expired db (db.eraseEach now operation.checks) expired → expired ⊆ operation.checks →
    operation.effect (expired.foldl Store.doExpire db.store) = some t →
    ∃ u, operation'.effect db.store = some u ∧ expired.foldl Store.doExpire u = t

variable {now : Nat → Time} {operation operation' : Operation Reply} {db : Database}

theorem fresh_expired {expired : List Str} (fresh : db.Fresh now operation.checks)
    (effect : Database.Expired db (db.eraseEach now operation.checks) expired) : expired = [] := by
  have logged := effect.logged
  rw [Database.eraseEach_fresh fresh] at logged
  simpa using logged

theorem agrees_fresh (fresh : db.Fresh now operation.checks)
    (same : operation'.effect db.store = operation.effect db.store) : Agrees now operation operation' db := by
  intro expired t effect _ run
  rw [fresh_expired fresh effect] at run ⊢
  exact ⟨t, same.trans run, rfl⟩

theorem agrees_idle (stored : operation'.effect db.store = some db.store)
    (erased : ∀ expired : List Str, operation.effect (expired.foldl Store.doExpire db.store) =
      some (expired.foldl Store.doExpire db.store)) : Agrees now operation operation' db := by
  intro expired t _ _ run
  rw [erased expired] at run
  exact ⟨db.store, stored, Option.some.inj run⟩

/-- A key that expires afterwards takes with it whatever an operation on this key alone did. -/
theorem agrees_local {key : Str} (only : ∀ other ∈ operation.checks, other = key)
    (first : operation.Local key) (second : operation'.Local key)
    (same : operation'.effect db.store = operation.effect db.store)
    (defined : db.Fresh now operation.checks ∨ (operation'.effect db.store).isSome) :
    Agrees now operation operation' db := by
  intro expired t effect within run
  by_cases none : expired = []
  · rw [none] at run ⊢
    exact ⟨t, same.trans run, rfl⟩
  · obtain ⟨other, member⟩ := List.exists_mem_of_ne_nil _ none
    have present : key ∈ expired := only other (within member) ▸ member
    have absent : (expired.foldl Store.doExpire db.store).data.lookup key = Option.none := by
      rw [Store.foldl_doExpire_data, if_pos present]
    rcases defined with fresh | defined
    · exact (none (fresh_expired fresh effect)).elim
    · obtain ⟨u, found⟩ := Option.isSome_iff_exists.mp defined
      rw [first.inert _ absent] at run
      refine ⟨u, found, ?_⟩
      rw [← Option.some.inj run]
      exact (Store.SameExcept.foldl_doExpire (second.within _ _ found)
        (by simpa using present)).symm

theorem liveCall_here {env : Env} {i : Index} {trn : UInt64} {op : Op} {stores after : Stores}
    {entries : List Entry} (here : op.action env = .here operation)
    (run : liveCall env i trn op stores = some (entries, after)) :
    ∃ expired t, Database.Expired (live stores i) ((live stores i).eraseEach env.now operation.checks) expired ∧
      expired ⊆ operation.checks ∧
      operation.effect (expired.foldl Store.doExpire (stores i)) = some t ∧
      entries = walLog i trn op ++ expired.map (.expire i) ∧ after = Function.update stores i t := by
  obtain ⟨expired, effect, within⟩ := Database.eraseEach_expired env.now operation.checks (live stores i)
  have logged : ((live stores i).eraseEach env.now operation.checks).preExpired = expired := effect.logged
  have erased : ((live stores i).eraseEach env.now operation.checks).store =
      expired.foldl Store.doExpire (stores i) := effect.store
  simp only [liveCall, exec, here, Operation.run, Option.bind_eq_bind, erased] at run
  cases body : operation.body (expired.foldl Store.doExpire (stores i)) with
  | none => simp [body] at run
  | some pair =>
    simp only [body, Option.bind_some] at run
    obtain ⟨rfl, rfl⟩ := run
    refine ⟨expired, pair.2, effect, within, by simp [Operation.effect, body], ?_, ?_⟩
    · rw [expiries_update, logged]
    · rw [storesOf_update]

theorem liveCall_defined {env : Env} {op : Op} (here : op.action env = .here operation)
    (total : ∀ s, (operation.effect s).isSome) (i : Index) (trn : UInt64) (stores : Stores) :
    ∃ entries after, liveCall env i trn op stores = some (entries, after) := by
  obtain ⟨t, effect⟩ := Option.isSome_iff_exists.mp
    (total ((live stores i).eraseEach env.now operation.checks).store)
  obtain ⟨pair, body, -⟩ := Option.map_eq_some_iff.mp effect
  simp [liveCall, exec, here, Operation.run, body]

theorem redo_here {env : Env} {i : Index} {trn : UInt64} {op : Op} {stores : Stores} {u : Store}
    (here : op.action env = .here operation) (effect : operation.effect (stores i) = some u) :
    redo env (redoing stores) (.dbOp i trn op) = some (redoing (Function.update stores i u)) := by
  obtain ⟨pair, body, rfl⟩ := Option.map_eq_some_iff.mp effect
  have quiet : (redoing stores i).eraseEach env.now operation.checks = redoing stores i :=
    Database.eraseEach_disabled rfl _ _
  have stored : (redoing stores i).store = stores i := rfl
  simp only [redo, exec, here, Operation.run, quiet, stored, body, Option.bind_eq_bind, Option.bind_some]
  rw [← update_redoing]
  rfl

theorem here_replays {env : Env} {i : Index} {trn : UInt64} {op : Op} {stores after : Stores}
    {entries : List Entry} {envs : Nat → Env} (logged : op.kind.shouldWal = true)
    (here : op.action env = .here operation) (here' : op.action (envs 0) = .here operation')
    (agrees : Agrees env.now operation operation' (live stores i))
    (run : liveCall env i trn op stores = some (entries, after)) :
    replay envs entries (redoing stores) = some (redoing after) := by
  obtain ⟨expired, t, effect, within, body, rfl, rfl⟩ := liveCall_here here run
  obtain ⟨u, replayed, expires⟩ := agrees expired t effect within body
  rw [walLog, if_pos logged, List.singleton_append, replay, redo_here here' replayed]
  simp only [Option.bind_eq_bind, Option.bind_some]
  rw [replay_expiries, Function.update_self, expires, Function.update_idem]

theorem unlogged_here_replays {env : Env} {i : Index} {trn : UInt64} {op : Op} {stores after : Stores}
    {entries : List Entry} (unlogged : op.kind.shouldWal = false) (here : op.action env = .here operation)
    (run : liveCall env i trn op stores = some (entries, after)) (envs : Nat → Env) :
    replay envs entries (redoing stores) = some (redoing after) := by
  obtain ⟨expired, t, -, -, body, rfl, rfl⟩ := liveCall_here here run
  rw [unlogged_keeps unlogged here _ t body, walLog, if_neg (by rw [unlogged]; exact Bool.false_ne_true),
    List.nil_append, replay_expiries]

theorem reading_replays {env : Env} {i : Index} {trn : UInt64} {op : Op} {stores after : Stores}
    {entries : List Entry} {read : Env → Database → Reply × Database} (unlogged : op.kind.shouldWal = false)
    (reading : op.action env = .reading read)
    (expires : ∀ db, ∃ expired, Database.Expired db (read env db).2 expired)
    (run : liveCall env i trn op stores = some (entries, after)) (envs : Nat → Env) :
    replay envs entries (redoing stores) = some (redoing after) := by
  have purged : replay envs (livePurge (fun db => (read env db).2) i stores).1 (redoing stores) = _ :=
    livePurge_replays expires i stores envs
  simp only [liveCall, exec, reading, Option.map_some, Option.some.injEq, Prod.mk.injEq, walLog, unlogged,
    Bool.false_eq_true, if_false, List.nil_append] at run
  obtain ⟨rfl, rfl⟩ := run
  exact purged

/-! ### Two databases -/

def TransferInert (transfer : Str → Store → Store → Bool × Store × Store) : Prop :=
  ∀ key s t, s.data.lookup key = none → transfer key s t = (false, s, t)

theorem copyToDb_inert : TransferInert copyToDb := by
  intro key s t absent
  simp [copyToDb, absent]

theorem moveToDb_inert : TransferInert moveToDb := by
  intro key s t absent
  simp [moveToDb, absent]

def transferStores (transfer : Str → Store → Store → Bool × Store × Store) (key : Str) (i j : Index)
    (stores : Stores) : Stores :=
  if i = j then stores
  else
    let (_, s, t) := transfer key (stores i) (stores j)
    Function.update (Function.update stores i s) j t

theorem transferStores_inert {transfer : Str → Store → Store → Bool × Store × Store}
    (inert : TransferInert transfer) {key : Str} {i : Index} {stores : Stores}
    (absent : (stores i).data.lookup key = none) (j : Index) :
    transferStores transfer key i j stores = stores := by
  unfold transferStores
  split
  · rfl
  · rw [inert key _ _ absent]
    simp

variable {transfer : Str → Store → Store → Bool × Store × Store} {key : Str} {i j : Index} {trn : UInt64}
  {op : Op} {stores after : Stores} {entries : List Entry}

theorem liveCall_across {env : Env} (across : op.action env = .across transfer key j)
    (run : liveCall env i trn op stores = some (entries, after)) :
    ∃ expired, Database.Expired (live stores i) ((live stores i).eraseEach env.now [key]) expired ∧
      entries = walLog i trn op ++ expired.map (.expire i) ∧
      after = transferStores transfer key i j
        (Function.update stores i (expired.foldl Store.doExpire (stores i))) := by
  obtain ⟨expired, effect, -⟩ := Database.eraseEach_expired env.now [key] (live stores i)
  have logged : ((live stores i).eraseIfExpired (env.now 0) key).2.preExpired = expired := effect.logged
  have erased : ((live stores i).eraseIfExpired (env.now 0) key).2.store =
      expired.foldl Store.doExpire (stores i) := effect.store
  refine ⟨expired, effect, ?_⟩
  simp only [liveCall, exec, across, Option.map_some, Option.some.injEq, Prod.mk.injEq, transferDb] at run
  by_cases same : i = j
  · subst same
    simp only [if_true, expiries_update, storesOf_update, logged, erased] at run
    rw [transferStores, if_pos rfl]
    exact ⟨run.1.symm, run.2.symm⟩
  · simp only [same, if_false] at run
    obtain ⟨rfl, rfl⟩ := run
    refine ⟨?_, ?_⟩
    · simp [expiries, same, logged]
    · have stored : ∀ n, (live stores n).store = stores n := fun _ => rfl
      rw [transferStores, if_neg same]
      funext n
      by_cases target : n = j
      · subst target
        simp [storesOf, erased, Ne.symm same, stored]
      · by_cases source : n = i
        · subst source
          simp [storesOf, erased, same, Ne.symm same, stored]
        · simp [storesOf, target, source, stored]

theorem redo_across {env : Env} (across : op.action env = .across transfer key j) :
    redo env (redoing stores) (.dbOp i trn op) = some (redoing (transferStores transfer key i j stores)) := by
  have quiet : (redoing stores i).eraseIfExpired (env.now 0) key = (false, redoing stores i) :=
    Database.eraseIfExpired_disabled rfl _ _
  simp only [redo, exec, across, transferDb, quiet, Function.update_eq_self, Option.map_some, Option.some.injEq]
  by_cases same : i = j
  · rw [if_pos same, transferStores, if_pos same]
  · rw [if_neg same, transferStores, if_neg same]
    rw [← update_redoing, ← update_redoing]
    rfl

theorem across_replays {env : Env} {envs : Nat → Env} (inert : TransferInert transfer)
    (logged : op.kind.shouldWal = true) (across : op.action env = .across transfer key j)
    (across' : op.action (envs 0) = .across transfer key j)
    (safe : i = j ∨ (stores i).data.lookup key = none ∨ (live stores i).Fresh env.now [key])
    (run : liveCall env i trn op stores = some (entries, after)) :
    replay envs entries (redoing stores) = some (redoing after) := by
  obtain ⟨expired, effect, rfl, rfl⟩ := liveCall_across across run
  rw [walLog, if_pos logged, List.singleton_append, replay, redo_across across']
  simp only [Option.bind_eq_bind, Option.bind_some]
  rw [replay_expiries]
  rcases safe with same | absent | fresh
  · simp only [transferStores, same, if_true]
  · have erased : (Function.update stores i (expired.foldl Store.doExpire (stores i)) i).data.lookup key = none := by
      rw [Function.update_self, Store.foldl_doExpire_data, absent, ite_self]
    rw [transferStores_inert inert absent, transferStores_inert inert erased]
  · have none : expired = [] := by
      have log := effect.logged
      rw [Database.eraseEach_fresh fresh] at log
      simpa using log
    simp [none]

/-! ### Every call -/

theorem agrees_push {join : ListT → ListT} {key : Str} {values : ListT}
    (safe : values = [] ∨ db.Fresh now [key]) :
    Agrees now ((listPush join key values).map .listSize) ((listPush join key values).map .listSize) db := by
  rcases safe with empty | fresh
  · have idle : ∀ s, ((listPush join key values).map Reply.listSize).effect s = some s := by
      intro s
      rw [Operation.map_effect]
      simp [Operation.effect, listPush, empty]
    exact agrees_idle (idle _) fun expired => idle _
  · exact agrees_fresh fresh rfl

theorem agrees_setAdd {key : Str} {values : SetT} (safe : values = ∅ ∨ db.Fresh now [key]) :
    Agrees now ((setAdd key values).map .length) ((setAdd key values).map .length) db := by
  rcases safe with empty | fresh
  · have idle : ∀ s, ((setAdd key values).map Reply.length).effect s = some s := by
      intro s
      rw [Operation.map_effect]
      simp [Operation.effect, setAdd, empty]
    exact agrees_idle (idle _) fun expired => idle _
  · exact agrees_fresh fresh rfl

theorem agrees_transfer {source dest : Str} (checks : operation.checks = [source])
    (onto : source = dest → ∀ s, operation.effect s = some s)
    (missing : ∀ s, s.data.lookup source = none → operation.effect s = some s)
    (safe : source = dest ∨ db.store.data.lookup source = none ∨ db.Fresh now [source]) :
    Agrees now operation operation db := by
  rcases safe with same | absent | fresh
  · exact agrees_idle (onto same _) fun expired => onto same _
  · refine agrees_idle (missing _ absent) fun expired => missing _ ?_
    rw [Store.foldl_doExpire_data, absent, ite_self]
  · exact agrees_fresh (by rwa [checks]) rfl

theorem agrees_copyTo {source dest : Str}
    (safe : source = dest ∨ db.store.data.lookup source = none ∨ db.Fresh now [source]) :
    Agrees now ((copyTo source dest).map .flag) ((copyTo source dest).map .flag) db := by
  refine agrees_transfer rfl (fun same s => ?_) (fun s absent => ?_) safe
  · rw [Operation.map_effect]
    simp only [Operation.effect, copyTo, same, Option.map_some, Option.some.injEq, if_true]
    split <;> rfl
  · rw [Operation.map_effect]
    simp [Operation.effect, copyTo, absent]

theorem agrees_moveTo {source dest : Str}
    (safe : source = dest ∨ db.store.data.lookup source = none ∨ db.Fresh now [source]) :
    Agrees now ((moveTo source dest).map .flag) ((moveTo source dest).map .flag) db := by
  refine agrees_transfer rfl (fun same s => ?_) (fun s absent => ?_) safe
  · rw [Operation.map_effect]
    simp only [Operation.effect, moveTo, same, Option.map_some, Option.some.injEq, if_true]
    split <;> rfl
  · rw [Operation.map_effect]
    simp [Operation.effect, moveTo, absent]

theorem agrees_setMove {source dest value : Str}
    (safe : source = dest ∨ (∀ set, db.store.data.lookup source = some (.set set) → value ∉ set) ∨
      db.Fresh now [source, dest] ∨
      (db.isExpired (now 0) source = true ∧ db.isExpired (now 1) dest = true)) :
    Agrees now ((setMove source dest value).map .setFlag) ((setMove source dest value).map .setFlag) db := by
  -- both keys expire: the source is gone when the call looks at it, and the replay only touched the two
  have erased : ∀ (expired : List Str) t, source ∈ expired → dest ∈ expired →
      ((setMove source dest value).map Reply.setFlag).effect (expired.foldl Store.doExpire db.store) = some t →
      ∃ u, ((setMove source dest value).map Reply.setFlag).effect db.store = some u ∧
        expired.foldl Store.doExpire u = t := by
    intro expired t first second run
    obtain ⟨u, moved⟩ := setMove_defined db.store source dest value
    rw [Operation.map_effect] at run ⊢
    rw [setMove_lacks dest (by simp [Store.foldl_doExpire_data, first])] at run
    refine ⟨u, moved, ?_⟩
    rw [← Option.some.inj run]
    refine (Store.SameExcept.foldl_doExpire (setMove_within moved) ?_).symm
    simp [first, second]
  by_cases same : source = dest
  · intro expired t effect within run
    by_cases none : expired = []
    · rw [none] at run ⊢
      exact ⟨t, run, rfl⟩
    · obtain ⟨other, member⟩ := List.exists_mem_of_ne_nil _ none
      have here : other = source := by simpa [setMove, same] using within member
      rw [here] at member
      exact erased expired t member (same ▸ member) run
  rcases safe with equal | lacks | fresh | ⟨one, two⟩
  · exact (same equal).elim
  · refine agrees_idle ?_ fun expired => ?_
    · rw [Operation.map_effect, setMove_lacks dest lacks]
    · rw [Operation.map_effect, setMove_lacks dest]
      intro set stored
      rw [Store.foldl_doExpire_data] at stored
      split at stored
      · cases stored
      · exact lacks set stored
  · exact agrees_fresh fresh rfl
  · intro expired t effect within run
    have both := Database.eraseEach_both (Ne.symm same) one two
    have logged : expired = [source, dest] := List.append_cancel_left (effect.logged.symm.trans both.logged)
    exact erased expired t (by simp [logged]) (by simp [logged]) run

theorem liveCall_replays {env : Env} {envs : Nat → Env} (safe : ReplaySafe env i stores op)
    (run : liveCall env i trn op stores = some (entries, after)) :
    replay envs entries (redoing stores) = some (redoing after) := by
  have single : ∀ {key other : Str}, other ∈ [key] → other = key := List.mem_singleton.mp
  cases op with
  | begin | commit | discard =>
    simp only [liveCall, exec, Op.action, Option.map_some, Option.some.injEq, Prod.mk.injEq] at run
    obtain ⟨rfl, rfl⟩ := run
    rfl
  | reset | del | setExpiry | clearExpiry | clearAllExpiry | strSet | intSet | floatSet | hashSet =>
    refine here_replays rfl rfl rfl ?_ run
    exact agrees_fresh trivial rfl
  | incrInt | incrFloat | setUnionInto | setIntersectionInto | setDifferenceInto =>
    refine here_replays rfl rfl rfl ?_ run
    exact agrees_fresh safe rfl
  | listPushLeft | listPushRight =>
    refine here_replays rfl rfl rfl ?_ run
    exact agrees_push safe
  | setAdd =>
    refine here_replays rfl rfl rfl ?_ run
    exact agrees_setAdd safe
  | copyTo =>
    refine here_replays rfl rfl rfl ?_ run
    exact agrees_copyTo safe
  | moveTo =>
    refine here_replays rfl rfl rfl ?_ run
    exact agrees_moveTo safe
  | copyToDb => exact across_replays copyToDb_inert rfl rfl rfl safe run
  | moveToDb => exact across_replays moveToDb_inert rfl rfl rfl safe run
  | listSet key index value =>
    have local_ := (listSet_local key index value).map Reply.listElement
    refine here_replays rfl rfl rfl ?_ run
    exact agrees_local (by simp [Db.listSet]) local_ local_ rfl (.inr rfl)
  | listPopLeft key n =>
    have local_ := (listPopLeft_local key n).map Reply.list
    refine here_replays rfl rfl rfl ?_ run
    exact agrees_local (fun _ => single) local_ local_ rfl (.inr rfl)
  | listPopRight key n =>
    have local_ := (listPopRight_local key n).map Reply.list
    refine here_replays rfl rfl rfl ?_ run
    exact agrees_local (fun _ => single) local_ local_ rfl (.inr rfl)
  | listTrim key start stop =>
    have local_ := (listTrim_local key start stop).map Reply.listSize
    refine here_replays rfl rfl rfl ?_ run
    exact agrees_local (fun _ => single) local_ local_ rfl (safe.imp_right listTrim_defined)
  | listRemove key element count =>
    have local_ := (listRemove_local key element count).map Reply.listSize
    refine here_replays rfl rfl rfl ?_ run
    exact agrees_local (fun _ => single) local_ local_ rfl (safe.imp_right listRemove_defined)
  | setDiscard key values =>
    refine here_replays rfl rfl rfl ?_ run
    refine agrees_local (fun _ => single) ((setDiscard_local env key values).map _)
      ((setDiscard_local (envs 0) key values).map _) ?_ (.inr rfl)
    simp only [Operation.map_effect]
    exact setDiscard_effect _ _ key values _
  | hashRemove key fields =>
    refine here_replays rfl rfl rfl ?_ run
    refine agrees_local (fun _ => single) ((hashRemove_local env key fields).map _)
      ((hashRemove_local (envs 0) key fields).map _) ?_ (.inr rfl)
    simp only [Operation.map_effect]
    exact hashRemove_effect _ _ key fields _
  | setMove =>
    refine here_replays rfl rfl rfl ?_ run
    exact agrees_setMove safe
  | hashUpdate key values =>
    refine here_replays rfl rfl rfl ?_ run
    refine agrees_fresh safe.1 ?_
    simp only [Operation.map_effect]
    exact hashUpdate_effect _ _ safe.2
  | setRemove => exact safe.elim
  | keys => exact reading_replays rfl rfl (fun db => db.deepPurge_expired env) run envs
  | manyGet ks => exact reading_replays rfl rfl (manyGet_expired ks env) run envs
  | _ => exact unlogged_here_replays rfl rfl run envs

/-! ### Whole runs -/

def Event.Safe (stores : Stores) : Event → Prop
  | .call env i _ op => ReplaySafe env i stores op
  | .shallowPurge .. | .deepPurge .. => True

def SafeRun : List Event → Stores → Prop
  | [], _ => True
  | event :: events, stores =>
    event.Safe stores ∧ ∀ entries after, liveStep event stores = some (entries, after) → SafeRun events after

theorem liveStep_replays {event : Event} (safe : event.Safe stores)
    (run : liveStep event stores = some (entries, after)) (envs : Nat → Env) :
    replay envs entries (redoing stores) = some (redoing after) := by
  cases event with
  | call env i trn op => exact liveCall_replays safe run
  | shallowPurge env i =>
    have purged := livePurge_replays (fun db => db.shallowPurge_expired env) i stores envs
    rwa [Option.some.inj run] at purged
  | deepPurge env i =>
    have purged := livePurge_replays (fun db => db.deepPurge_expired env) i stores envs
    rwa [Option.some.inj run] at purged

theorem liveRun_replays {events : List Event} (safe : SafeRun events stores)
    (run : liveRun events stores = some (entries, after)) (envs : Nat → Env) :
    replay envs entries (redoing stores) = some (redoing after) := by
  induction events generalizing stores entries envs with
  | nil =>
    obtain ⟨rfl, rfl⟩ := Prod.mk.inj (Option.some.inj run)
    rfl
  | cons event events ih =>
    simp only [liveRun, Option.bind_eq_bind, Option.bind_eq_some_iff] at run
    obtain ⟨⟨first, middle⟩, step, ⟨others, final⟩, rest, finished⟩ := run
    obtain ⟨rfl, rfl⟩ := Prod.mk.inj (Option.some.inj finished)
    rw [replay_append, liveStep_replays safe.1 step envs]
    exact ih (safe.2 first middle step) rest _

/-- Recovery from the log of a run of replay-safe calls restores the tables that the run left. -/
theorem doRecover_liveRun {events : List Event} (safe : SafeRun events stores)
    (run : liveRun events stores = some (entries, after)) {records : List Record}
    (written : records.map Record.entry = entries) (envs : Nat → Env) (junk : Nat → UInt8) :
    doRecover envs junk (log records) (redoing stores) = .ok (redoing after) := by
  rw [doRecover_replay, written, liveRun_replays safe run envs]
  rfl

def expiring : Store where
  data := Finmap.insert [107] (.int 5) ∅
  expiryTimes := Finmap.insert [107] 10 ∅

theorem doRecover_expired_get :
    ∃ records after, liveRun [.call (.frozen 20) 0 4 (.get [107])] (fun _ => expiring) =
        some (records.map Record.entry, after) ∧ (after 0).data.lookup [107] = none ∧
      doRecover (fun _ => .frozen 20) (fun _ => 0) (log records) (redoing fun _ => expiring) =
        .ok (redoing after) := by
  have sized : SizedStr [107] := by decide
  have safe : SafeRun [.call (.frozen 20) 0 4 (.get [107])] (fun _ => expiring) :=
    ⟨trivial, fun _ _ _ => trivial⟩
  exact ⟨[⟨.expire 0 [107], .startingWith [], rfl, sized⟩], _, rfl, rfl, doRecover_liveRun safe rfl rfl _ _⟩

/-- The increment of an expired key starts over at 1; the recovery increments the old value and then
expires the key. -/
theorem replay_expired_incr :
    ∃ entries after restored,
      liveRun [.call (.frozen 20) 0 4 (.incrInt [107] 1)] (fun _ => expiring) = some (entries, after) ∧
      replay (fun _ => .frozen 20) entries (redoing fun _ => expiring) = some restored ∧
      (after 0).data.lookup [107] = some (.int 1) ∧ (restored 0).store.data.lookup [107] = none :=
  ⟨_, _, _, rfl, rfl, rfl, rfl⟩

end Vanity.Wal
