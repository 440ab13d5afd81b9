import Vanity.Wal.Recovery

/-!
# A running server and its log

The calls of `LockedDatabase`: `wal_log` writes the entry of a mutating call before the call runs,
`pre_expire` writes an expire entry for every key the call then finds expired. A run is a list of
calls and purges; `liveRun` gives the entries it appends and the tables it leaves.
-/

namespace Vanity.Wal
open Db

abbrev Stores := Index → Store

def live (stores : Stores) : Databases := fun i => { store := stores i }

/-- The databases while the log is replayed: expiry is off. -/
def redoing (stores : Stores) : Databases := fun i => { store := stores i, expiryEnabled := false }

def storesOf (dbs : Databases) : Stores := fun i => (dbs i).store

inductive Event where
  | call (env : Env) (i : Index) (trn : UInt64) (op : Op)
  | shallowPurge (env : Env) (i : Index)
  | deepPurge (env : Env) (i : Index)

def walLog (i : Index) (trn : UInt64) (op : Op) : List Entry :=
  if op.kind.shouldWal then [.dbOp i trn op] else []

def expiries (i : Index) (dbs : Databases) : List Entry := (dbs i).preExpired.map (.expire i)

def liveCall (env : Env) (i : Index) (trn : UInt64) (op : Op) (stores : Stores) :
    Option (List Entry × Stores) :=
  (exec op env i (live stores)).map fun (_, dbs) => (walLog i trn op ++ expiries i dbs, storesOf dbs)

def livePurge (purge : Database → Database) (i : Index) (stores : Stores) : List Entry × Stores :=
  let dbs := Function.update (live stores) i (purge (live stores i))
  (expiries i dbs, storesOf dbs)

def liveStep : Event → Stores → Option (List Entry × Stores)
  | .call env i trn op, stores => liveCall env i trn op stores
  | .shallowPurge env i, stores => some (livePurge (·.shallowPurge env) i stores)
  | .deepPurge env i, stores => some (livePurge (·.deepPurge env) i stores)

def liveRun : List Event → Stores → Option (List Entry × Stores)
  | [], stores => some ([], stores)
  | event :: events, stores => do
    let (first, stores) ← liveStep event stores
    let (others, stores) ← liveRun events stores
    return (first ++ others, stores)

/-! ### Replaying expire entries -/

theorem update_redoing (stores : Stores) (i : Index) (s : Store) :
    Function.update (redoing stores) i { store := s, expiryEnabled := false } =
      redoing (Function.update stores i s) := by
  funext j
  by_cases same : j = i
  · subst same
    simp [redoing]
  · simp [redoing, same]

theorem replay_append (first second : List Entry) (envs : Nat → Env) (dbs : Databases) :
    replay envs (first ++ second) dbs =
      (replay envs first dbs).bind (replay (fun n => envs (n + first.length)) second) := by
  induction first generalizing envs dbs with
  | nil => rfl
  | cons entry rest ih =>
    simp only [List.cons_append, replay, Option.bind_eq_bind, List.length_cons, Option.bind_assoc]
    congr 1
    funext after
    rw [ih]
    simp only [Nat.add_assoc]

theorem replay_expiries (i : Index) (keys : List Str) (envs : Nat → Env) (stores : Stores) :
    replay envs (keys.map (.expire i)) (redoing stores) =
      some (redoing (Function.update stores i (keys.foldl Store.doExpire (stores i)))) := by
  induction keys generalizing envs stores with
  | nil => simp [replay]
  | cons key keys ih =>
    rw [List.map_cons, replay]
    change replay _ _ (Function.update (redoing stores) i
      { store := (stores i).doExpire key, expiryEnabled := false }) = _
    rw [update_redoing, ih]
    simp

/-! ### One step -/

theorem storesOf_update (stores : Stores) (i : Index) (db : Database) :
    storesOf (Function.update (live stores) i db) = Function.update stores i db.store := by
  funext j
  by_cases same : j = i
  · subst same
    simp [storesOf]
  · simp [storesOf, live, same]

theorem expiries_update (stores : Stores) (i : Index) (db : Database) :
    expiries i (Function.update (live stores) i db) = db.preExpired.map (.expire i) := by
  simp [expiries]

theorem livePurge_replays {purge : Database → Database}
    (purges : ∀ db, ∃ expired, Database.Expired db (purge db) expired) (i : Index) (stores : Stores)
    (envs : Nat → Env) :
    replay envs (livePurge purge i stores).1 (redoing stores) = some (redoing (livePurge purge i stores).2) := by
  obtain ⟨expired, effect⟩ := purges (live stores i)
  have logged : (purge (live stores i)).preExpired = expired := effect.logged
  unfold livePurge
  dsimp only
  rw [expiries_update, storesOf_update, logged, replay_expiries, effect.store]
  rfl

end Vanity.Wal
