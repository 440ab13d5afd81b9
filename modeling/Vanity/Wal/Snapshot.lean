import Vanity.Wal.Entry
import Mathlib.Data.List.FinRange

/-!
# The database file

`Database::persist` and `Database::from` of `database.cpp`, `do_persist` and `load_databases` of
`persist_journal_server.cpp`. The file is the sixteen databases one after the other, without any
separator.
-/

namespace Vanity.Wal
open Db

structure DbOrder where
  data : Order Str
  values : Str → Order Str
  expiry : Order Str

noncomputable def DbOrder.fixed : DbOrder := ⟨.startingWith [], fun _ => .startingWith [], .startingWith []⟩

/-! ### Writing -/

def writeDataEntry (orders : DbOrder) (entry : Str × Data) : Bytes :=
  writeStr entry.1 ++ writeData (orders.values entry.1) entry.2

def writeTimeEntry (entry : Str × Time) : Bytes := writeStr entry.1 ++ writeI64 entry.2

def writeTable {V : Type} (order : Order Str) (write : Str × V → Bytes) (table : Table Str V) : Bytes :=
  writeSize table.keys.card ++ (table.entries order).flatMap write

def persist (i : Index) (orders : DbOrder) (s : Store) : Bytes :=
  writeIndex i ++
    (writeTable orders.data (writeDataEntry orders) s.data ++
      writeTable orders.expiry writeTimeEntry s.expiryTimes)

def doPersist (orders : Index → DbOrder) (stores : Index → Store) : Bytes :=
  (List.finRange numDatabases).flatMap fun i => persist i (orders i) (stores i)

/-! ### Reading -/

def readDataEntry : ReadM (Str × Data) := do return (← readStr, ← readData)

def readTimeEntry : ReadM (Str × Time) := do return (← readStr, ← readI64)

def readTable {V : Type} (read : ReadM (Str × V)) : ReadM (Table Str V) := do
  let size ← readU64
  return (← readMany read size.toNat).foldl Table.insertNew ∅

-- the move assignment that follows does not take the index over
def readDb : ReadM Store := do
  let _index ← readU32
  return ⟨← readTable readDataEntry, ← readTable readTimeEntry⟩

def readDatabases : ReadM (List Store) := readMany readDb numDatabases

/-- `load_databases`, with `none` for a file that does not exist. -/
def loadDatabases (junk : Nat → UInt8) (file : Option Bytes) (dbs : Databases) : Except Exception Databases :=
  match file with
  | none => .ok dbs
  | some bytes => do
    let (stores, _) ← readDatabases ⟨bytes, false, junk⟩
    return fun i => { store := stores.getD i.val {}, preExpired := (dbs i).preExpired }

/-! ### The round trip -/

structure SizedStore (s : Store) : Prop where
  keys : s.data.keys.card ≤ maxSize
  data : ∀ key value, s.data.lookup key = some value → SizedStr key ∧ SizedData value
  times : s.expiryTimes.keys.card ≤ maxSize
  expiry : ∀ key time, s.expiryTimes.lookup key = some time → SizedStr key

/-- The tables of a database as the program can hold them. -/
structure Contents where
  store : Store
  sized : SizedStore store

def Contents.empty : Contents where
  store := {}
  sized := ⟨by decide, by simp, by decide, by simp⟩

theorem sticky_table {V : Type} {read : ReadM (Str × V)} (sticky : Sticky read) : Sticky (readTable read) :=
  sticky_bind sticky_u64 fun _ => sticky_map _ (sticky_many sticky _)

theorem frames_table {V : Type} {order : Order Str} {read : ReadM (Str × V)} {write : Str × V → Bytes}
    {table : Table Str V} (sized : table.keys.card ≤ maxSize) (sticky : Sticky read)
    (each : ∀ key value, table.lookup key = some value → Frames read (write (key, value)) (key, value)) :
    Frames (readTable read) (writeTable order write table) table := by
  have run : Frames (readMany read (table.entries order).length) ((table.entries order).flatMap write)
      (table.entries order) :=
    frames_items sticky fun entry member => each entry.1 entry.2 (Table.mem_entries.mp member)
  have filled := frames_map (fun entries => entries.foldl Table.insertNew ∅) run
  rw [Table.rebuild_entries_new, Table.entries_length] at filled
  refine frames_bind (frames_u64 (UInt64.ofNat table.keys.card)) ?_ fun _ => sticky_map _ (sticky_many sticky _)
  rw [size_toNat sized]
  exact filled

theorem sticky_dataEntry : Sticky readDataEntry := sticky_two _ sticky_str sticky_data

theorem sticky_timeEntry : Sticky readTimeEntry := sticky_two _ sticky_str sticky_i64

theorem sticky_stores : Sticky (do return ⟨← readTable readDataEntry, ← readTable readTimeEntry⟩ : ReadM Store) :=
  sticky_two Store.mk (sticky_table sticky_dataEntry) (sticky_table sticky_timeEntry)

theorem sticky_db : Sticky readDb := sticky_bind (frames_u32 0).sticky fun _ => sticky_stores

theorem frames_db (i : Index) (orders : DbOrder) {s : Store} (sized : SizedStore s) :
    Frames readDb (persist i orders s) s := by
  have data : Frames (readTable readDataEntry) (writeTable orders.data (writeDataEntry orders) s.data) s.data := by
    refine frames_table sized.keys sticky_dataEntry fun key value found => ?_
    obtain ⟨keySized, valueSized⟩ := sized.data key value found
    exact frames_two Prod.mk (frames_str keySized) (frames_data _ valueSized)
  have times : Frames (readTable readTimeEntry) (writeTable orders.expiry writeTimeEntry s.expiryTimes)
      s.expiryTimes := by
    refine frames_table sized.times sticky_timeEntry fun key time found => ?_
    exact frames_two Prod.mk (frames_str (sized.expiry key time found)) (frames_i64 time)
  exact frames_bind (frames_u32 _) (frames_two Store.mk data times) fun _ => sticky_stores

theorem frames_databases (orders : Index → DbOrder) (contents : Index → Contents) :
    Frames readDatabases (doPersist orders fun i => (contents i).store)
      ((List.finRange numDatabases).map fun i => (contents i).store) := by
  have run : Frames (readMany readDb (List.finRange numDatabases).length)
      (doPersist orders fun i => (contents i).store)
      ((List.finRange numDatabases).map fun i => (contents i).store) :=
    frames_many sticky_db fun i _ => frames_db i (orders i) (contents i).sized
  rwa [List.length_finRange] at run

theorem readDatabases_persisted (orders : Index → DbOrder) (contents : Index → Contents) (junk : Nat → UInt8) :
    readDatabases ⟨doPersist orders fun i => (contents i).store, false, junk⟩ =
      .ok ((List.finRange numDatabases).map fun i => (contents i).store, ⟨[], false, junk⟩) := by
  have read := (frames_databases orders contents).reads [] junk
  rwa [List.append_nil] at read

theorem loadDatabases_persisted (orders : Index → DbOrder) (contents : Index → Contents) (junk : Nat → UInt8)
    (dbs : Databases) :
    loadDatabases junk (some (doPersist orders fun i => (contents i).store)) dbs =
      .ok fun i => { store := (contents i).store, preExpired := (dbs i).preExpired } := by
  unfold loadDatabases
  dsimp only
  rw [readDatabases_persisted]
  refine congrArg Except.ok (funext fun i => ?_)
  have stored : ((List.finRange numDatabases).map fun i => (contents i).store).getD i.val {} =
      (contents i).store := by
    simp [List.getD]
  rw [stored]

/-- Loading the file that `do_persist` writes restores both tables of every database and ends at the
end of the file. -/
theorem snapshot_round_trip (orders : Index → DbOrder) (contents : Index → Contents) (junk : Nat → UInt8)
    (dbs : Databases) :
    (∃ stores, readDatabases ⟨doPersist orders fun i => (contents i).store, false, junk⟩ =
      .ok (stores, ⟨[], false, junk⟩)) ∧
    ∃ loaded, loadDatabases junk (some (doPersist orders fun i => (contents i).store)) dbs = .ok loaded ∧
      ∀ i, (loaded i).store.data = (contents i).store.data ∧
        (loaded i).store.expiryTimes = (contents i).store.expiryTimes :=
  ⟨⟨_, readDatabases_persisted orders contents junk⟩, _, loadDatabases_persisted orders contents junk dbs,
    fun _ => ⟨rfl, rfl⟩⟩

end Vanity.Wal
