import Vanity.Library.Runs
import Vanity.Db.Invariants
import Vanity.Wal.Live
import Vanity.Wal.Snapshot

/-!
# Everything that can happen to the tables

Calls and purges of a running server, the writing of a database file, one database at a time, the
loading of a file that was written and the redoing of log entries, in any order. A property of the
tables that survives all of them holds in every state reached from empty databases.
-/

namespace Vanity.Wal
open Db

structure Lifetime where
  stores : Stores := fun _ => {}
  /-- What the persister has last read of each database. -/
  copies : Stores := fun _ => {}
  files : List Bytes := []

inductive Move where
  | event (event : Event)
  | copy (i : Index)
  | write (orders : Index → DbOrder) (contents : Index → Contents)
  | load (n : Nat) (junk : Nat → UInt8)
  | redo (env : Env) (entry : Entry)

def Lifetime.step (m : Lifetime) : Move → Option Lifetime
  | .event event => (liveStep event m.stores).map fun (_, stores) => { m with stores }
  | .copy i => some { m with copies := Function.update m.copies i (m.stores i) }
  | .write orders contents =>
    if ∀ i, (contents i).store = m.copies i then
      some { m with files := m.files ++ [doPersist orders fun i => (contents i).store] }
    else none
  | .load n junk =>
    match m.files[n]? with
    | none => none
    | some file =>
      match loadDatabases junk (some file) (live m.stores) with
      | .error _ => none
      | .ok dbs => some { m with stores := storesOf dbs }
  | .redo env entry => (Wal.redo env (redoing m.stores) entry).map fun dbs => { m with stores := storesOf dbs }

/-- The call that a move makes, with its environment and the database it is made on. -/
def Lifetime.call (m : Lifetime) : Move → Option (Op × Env × Database)
  | .event (.call env i _ op) => some (op, env, live m.stores i)
  | .redo env (.dbOp i _ op) => some (op, env, redoing m.stores i)
  | _ => none

/-- The property holds of the databases, and of what was written of them. -/
structure Lifetime.All (inv : Store → Prop) (m : Lifetime) : Prop where
  stores : ∀ i, inv (m.stores i)
  copies : ∀ i, inv (m.copies i)
  files : ∀ file ∈ m.files, ∃ (orders : Index → DbOrder) (contents : Index → Contents),
    (file = doPersist orders fun i => (contents i).store) ∧ ∀ i, inv (contents i).store

section
variable {inv : Store → Prop}

theorem all_empty (empty : inv {}) : Lifetime.All inv {} := by
  exact ⟨fun _ => empty, fun _ => empty, by simp⟩

/-- Only the tables themselves have to be looked at: copies and files were tables before. -/
theorem Lifetime.All.remember {m after : Lifetime} {move : Move} (all : m.All inv) (taken : m.step move = some after)
    (good : ∀ i, inv (after.stores i)) : after.All inv := by
  cases move with
  | event event =>
    obtain ⟨⟨entries, stores⟩, -, rfl⟩ := Option.map_eq_some_iff.mp taken
    exact ⟨good, all.copies, all.files⟩
  | copy i =>
    obtain rfl := Option.some.inj taken
    refine ⟨good, ?_, all.files⟩
    exact (Function.forall_update_iff m.copies fun _ s => inv s).mpr ⟨all.stores i, fun j _ => all.copies j⟩
  | write orders contents =>
    simp only [Lifetime.step] at taken
    split at taken
    · rename_i written
      obtain rfl := Option.some.inj taken
      refine ⟨good, all.copies, fun file member => ?_⟩
      rcases List.mem_append.mp member with before | now
      · exact all.files file before
      · refine ⟨orders, contents, List.mem_singleton.mp now, fun i => ?_⟩
        rw [written i]
        exact all.copies i
    · cases taken
  | load n junk =>
    simp only [Lifetime.step] at taken
    split at taken
    · cases taken
    · split at taken
      · cases taken
      · obtain rfl := Option.some.inj taken
        exact ⟨good, all.copies, all.files⟩
  | redo env entry =>
    obtain ⟨dbs, -, rfl⟩ := Option.map_eq_some_iff.mp taken
    exact ⟨good, all.copies, all.files⟩

theorem purge_kept (persistent : Persistent inv) {stores : Stores} (purge : Database → Database) (i : Index)
    (purges : ∀ db, ∃ expired, Database.Expired db (purge db) expired) (start : ∀ j, inv (stores j)) :
    ∀ j, inv ((livePurge purge i stores).2 j) := by
  obtain ⟨expired, purged⟩ := purges (live stores i)
  rw [livePurge, storesOf_update]
  exact (Function.forall_update_iff stores fun _ s => inv s).mpr
    ⟨persistent.expired purged (start i), fun j _ => start j⟩

/-- The step lemma: a move keeps the property if the body of the operation that it calls does. -/
theorem Lifetime.All.moved (persistent : Persistent inv) {m after : Lifetime} {move : Move} (all : m.All inv)
    (body : ∀ op env db, m.call move = some (op, env, db) → ∀ operation, op.action env = .here operation →
      ∀ result t, inv (db.eraseEach env.now operation.checks).store →
        operation.body (db.eraseEach env.now operation.checks).store = some (result, t) → inv t)
    (taken : m.step move = some after) : ∀ i, inv (after.stores i) := by
  cases move with
  | event event =>
    obtain ⟨⟨entries, stores⟩, ran, rfl⟩ := Option.map_eq_some_iff.mp taken
    cases event with
    | call env i trn op =>
      obtain ⟨⟨reply, dbs⟩, called, finished⟩ := Option.map_eq_some_iff.mp ran
      obtain ⟨-, rfl⟩ := Prod.mk.inj finished
      exact persistent.exec (body op env _ rfl) all.stores called
    | shallowPurge env i =>
      obtain ⟨-, rfl⟩ := Prod.mk.inj (Option.some.inj ran)
      exact purge_kept persistent (·.shallowPurge env) i (fun db => db.shallowPurge_expired env) all.stores
    | deepPurge env i =>
      obtain ⟨-, rfl⟩ := Prod.mk.inj (Option.some.inj ran)
      exact purge_kept persistent (·.deepPurge env) i (fun db => db.deepPurge_expired env) all.stores
  | copy i =>
    obtain rfl := Option.some.inj taken
    exact all.stores
  | write orders contents =>
    simp only [Lifetime.step] at taken
    split at taken
    · obtain rfl := Option.some.inj taken
      exact all.stores
    · cases taken
  | load n junk =>
    simp only [Lifetime.step] at taken
    split at taken
    · cases taken
    · rename_i file found
      obtain ⟨orders, contents, rfl, good⟩ := all.files file (List.mem_of_getElem? found)
      rw [loadDatabases_persisted] at taken
      obtain rfl := Option.some.inj taken
      exact good
  | redo env entry =>
    obtain ⟨dbs, ran, rfl⟩ := Option.map_eq_some_iff.mp taken
    cases entry with
    | dbOp i trn op =>
      obtain ⟨⟨reply, dbs⟩, called, rfl⟩ := Option.map_eq_some_iff.mp ran
      exact persistent.exec (body op env _ rfl) all.stores called
    | expire i key =>
      obtain rfl := Option.some.inj ran
      exact (Function.forall_update_iff _ fun _ db => inv (Database.store db)).mpr
        ⟨persistent.expire _ key (all.stores i), fun j _ => all.stores j⟩

end

/-- An expiry time never outlives its key. -/
theorem expiry_time_has_key (run : List Move) :
    EachState Lifetime.step (fun m => ∀ i key, key ∈ (m.stores i).expiryTimes → key ∈ (m.stores i).data) run {} := by
  have empty : Lifetime.All Store.Covered {} := all_empty fun key timed => absurd timed Finmap.notMem_empty
  refine eachState_of_always ?_ (fun m all => all.stores) empty
  intro m move after all taken
  refine all.remember taken (all.moved covered_persistent ?_ taken)
  intro op env db _ operation here result t covered ran
  exact here_covered here covered ran

end Vanity.Wal
