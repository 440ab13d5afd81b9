import Vanity.Wal.Serializer
import Vanity.Db.Calls

/-!
# Entries of the write-ahead log

`write_ahead_logger.h`, the `wal_log` calls and `wal_redo_db_op` of `locked_database.cpp`, and
`do_recover` of `persist_journal_server.cpp`. The writer's table of argument layouts is `args`,
the reader's is `readArgs`.
-/

namespace Vanity.Wal
open Db

inductive Entry where
  | dbOp (db : Index) (trn : UInt64) (op : Op)
  | expire (db : Index) (key : Str)

/-! ### Writing -/

def writeIndex (i : Index) : Bytes := writeU32 (UInt32.ofNat i.val)

def args (order : Order Str) : Op → Bytes
  | .begin | .commit | .discard | .reset | .keys | .clearAllExpiry => []
  | .has key | .del key | .get key | .type key | .getExpiry key | .clearExpiry key | .strLen key
  | .listLen key | .setAll key | .setLen key | .hashAll key | .hashLen key | .hashKeys key
  | .hashValues key => writeStr key
  | .copyTo source dest | .moveTo source dest => writeStr source ++ writeStr dest
  | .copyToDb key to_ | .moveToDb key to_ => writeStr key ++ writeIndex to_
  | .setExpiry key time => writeStr key ++ writeI64 time
  | .strSet key value => writeStr key ++ writeStr value
  | .intSet key value | .incrInt key value => writeStr key ++ writeI64 value
  | .floatSet key value | .incrFloat key value => writeStr key ++ writeU64 value
  | .manyGet ks | .setUnion ks | .setUnionLen ks | .setIntersection ks | .setIntersectionLen ks => writeList ks
  | .listGet key index => writeStr key ++ writeI64 index
  | .listSet key index value => writeStr key ++ (writeI64 index ++ writeStr value)
  | .listPushLeft key values | .listPushRight key values => writeStr key ++ writeList values
  | .listPopLeft key n | .listPopRight key n => writeStr key ++ writeI64 n
  | .listRange key start stop | .listTrim key start stop => writeStr key ++ (writeI64 start ++ writeI64 stop)
  | .listRemove key element count => writeStr key ++ (writeStr element ++ writeI64 count)
  | .setAdd key values | .setDiscard key values => writeStr key ++ writeSet order values
  | .setRemove key count => writeStr key ++ writeU64 count
  | .setContains key value => writeStr key ++ writeStr value
  | .setMove source dest value => writeStr source ++ (writeStr dest ++ writeStr value)
  | .setUnionInto dest ks | .setIntersectionInto dest ks => writeStr dest ++ writeList ks
  | .setDifference key1 key2 | .setDifferenceLen key1 key2 => writeStr key1 ++ writeStr key2
  | .setDifferenceInto dest key1 key2 => writeStr dest ++ (writeStr key1 ++ writeStr key2)
  | .hashSet key values | .hashUpdate key values => writeStr key ++ writeHash order values
  | .hashGet key field | .hashContains key field | .hashKeyLen key field => writeStr key ++ writeStr field
  | .hashRemove key fields | .hashManyGet key fields => writeStr key ++ writeList fields

def entryBytes (order : Order Str) : Entry → Bytes
  | .dbOp db trn op =>
    writeU8 0 ++ (writeIndex db ++ (writeU64 trn ++ (writeU8 op.kind.code ++ args order op)))
  | .expire db key => writeU8 1 ++ (writeIndex db ++ writeStr key)

def newline : UInt8 := 10

/-- `wal` on an open log: the entry and the newline of `std::endl`. -/
def wal (order : Order Str) (entry : Entry) : Bytes := entryBytes order entry ++ [newline]

/-! ### Reading -/

/-- `database_obj`: the subscript of the array is not checked. -/
def readDatabase (index : UInt32) : ReadM Index :=
  if bound : index.toNat < numDatabases then pure ⟨index.toNat, bound⟩ else throw .undefinedBehaviour

def readIndex : ReadM Index := do readDatabase (← readU32)

/-- The operation that `wal_redo_db_op` calls, with the arguments it reads for it. -/
def readArgs : DbOpT → ReadM Op
  | .has | .get | .type | .keys | .getExpiry | .strLen | .manyGet | .listLen | .listGet | .listRange
  | .setAll | .setLen | .setContains | .setUnion | .setUnionLen | .setIntersection | .setIntersectionLen
  | .setDifference | .setDifferenceLen
  | .hashAll | .hashGet | .hashContains | .hashLen | .hashKeyLen | .hashKeys | .hashValues
  | .hashManyGet => throw (.runtimeError "unexpected db_op_t")
  | .begin => pure .begin
  | .commit => pure .commit
  | .discard => pure .discard
  | .reset => pure .reset
  | .del => do return .del (← readStr)
  | .copyTo => do return .copyTo (← readStr) (← readStr)
  | .moveTo => do return .moveTo (← readStr) (← readStr)
  | .copyToDb => do return .copyToDb (← readStr) (← readIndex)
  | .moveToDb => do return .moveToDb (← readStr) (← readIndex)
  | .setExpiry => do return .setExpiry (← readStr) (← readI64)
  | .clearExpiry => do return .clearExpiry (← readStr)
  | .clearAllExpiry => pure .clearAllExpiry
  | .strSet => do return .strSet (← readStr) (← readStr)
  | .intSet => do return .intSet (← readStr) (← readI64)
  | .floatSet => do return .floatSet (← readStr) (← readU64)
  | .incrInt => do return .incrInt (← readStr) (← readI64)
  | .incrFloat => do return .incrFloat (← readStr) (← readU64)
  | .listSet => do return .listSet (← readStr) (← readI64) (← readStr)
  | .listPushLeft => do return .listPushLeft (← readStr) (← readList)
  | .listPushRight => do return .listPushRight (← readStr) (← readList)
  | .listPopLeft => do return .listPopLeft (← readStr) (← readI64)
  | .listPopRight => do return .listPopRight (← readStr) (← readI64)
  | .listTrim => do return .listTrim (← readStr) (← readI64) (← readI64)
  | .listRemove => do return .listRemove (← readStr) (← readStr) (← readI64)
  | .setAdd => do return .setAdd (← readStr) (← readSet)
  | .setRemove => do return .setRemove (← readStr) (← readU64)
  | .setDiscard => do return .setDiscard (← readStr) (← readSet)
  | .setMove => do return .setMove (← readStr) (← readStr) (← readStr)
  | .setUnionInto => do return .setUnionInto (← readStr) (← readVector)
  | .setIntersectionInto => do return .setIntersectionInto (← readStr) (← readVector)
  | .setDifferenceInto => do return .setDifferenceInto (← readStr) (← readStr) (← readStr)
  | .hashSet => do return .hashSet (← readStr) (← readHash)
  | .hashRemove => do return .hashRemove (← readStr) (← readVector)
  | .hashUpdate => do return .hashUpdate (← readStr) (← readHash)
  -- the switch has no case for it
  | .manySet => throw (.runtimeError "unknown db_op_t")

/-- The switch of `wal_redo_db_op` on a value that need not be one of the enumerators. -/
def readOp (code : UInt8) : ReadM Op :=
  match DbOpT.ofCode code with
  | some op => readArgs op
  | none => throw (.runtimeError "unknown db_op_t")

def readDbOp (db : UInt32) : ReadM Entry := do
  let trn ← readU64
  let code ← readU8
  let db ← readDatabase db
  return .dbOp db trn (← readOp code)

def readExpire (db : UInt32) : ReadM Entry := do
  let key ← readStr
  return .expire (← readDatabase db) key

/-- The body of the loop of `do_recover` up to the newline. -/
def readEntry : ReadM Entry := do
  let kind ← readU8
  let db ← readU32
  if kind = 0 then readDbOp db
  else if kind = 1 then readExpire db
  else throw (.walError "Bad wal_entry_t")

/-! ### Recovery -/

def redo (env : Env) (dbs : Databases) : Entry → Option Databases
  | .dbOp i _ op => (exec op env i dbs).map Prod.snd
  | .expire i key => some (Function.update dbs i ((dbs i).forceExpire key))

def replay : (Nat → Env) → List Entry → Databases → Option Databases
  | _, [], dbs => some dbs
  | envs, entry :: rest, dbs => do replay (fun n => envs (n + 1)) rest (← redo (envs 0) dbs entry)

def noNewline : Exception := .walError "WAL file is corrupted: no newline after entry"

/-- The loop of `do_recover`. Every round takes at least the newline from the stream, so that `fuel`
above the size of the file is never exhausted. -/
def recoverLoop : Nat → (Nat → Env) → Stream → Databases → Except Exception Databases
  | 0, _, _, _ => .error .diverges
  | fuel + 1, envs, s, dbs =>
    match s.peek with
    | none => .ok dbs
    | some _ => do
      let (entry, s) ← readEntry s
      match redo (envs 0) dbs entry with
      | none => throw .undefinedBehaviour
      | some dbs =>
        let (next, s) ← getByte s
        if next = some newline then recoverLoop fuel (fun n => envs (n + 1)) s dbs
        else throw noNewline

def doRecover (envs : Nat → Env) (junk : Nat → UInt8) (file : Bytes) (dbs : Databases) :
    Except Exception Databases :=
  recoverLoop (file.length + 1) envs ⟨file, false, junk⟩ dbs

/-! ### Records

What a running server appends: an entry whose operation is logged, with arguments that fit the
containers of the program, and the iteration order its sets and hashes are written in. -/

def SizedOp : Op → Prop
  | .begin | .commit | .discard | .reset | .keys | .clearAllExpiry => True
  | .has key | .del key | .get key | .type key | .getExpiry key | .clearExpiry key | .strLen key
  | .listLen key | .setAll key | .setLen key | .hashAll key | .hashLen key | .hashKeys key
  | .hashValues key | .copyToDb key _ | .moveToDb key _ | .setExpiry key _ | .intSet key _
  | .incrInt key _ | .floatSet key _ | .incrFloat key _ | .listGet key _ | .listPopLeft key _
  | .listPopRight key _ | .listRange key _ _ | .listTrim key _ _ | .setRemove key _ => SizedStr key
  | .copyTo a b | .moveTo a b | .strSet a b | .listSet a _ b | .listRemove a b _ | .setContains a b
  | .setDifference a b | .setDifferenceLen a b | .hashGet a b | .hashContains a b
  | .hashKeyLen a b => SizedStr a ∧ SizedStr b
  | .setMove a b c | .setDifferenceInto a b c => SizedStr a ∧ SizedStr b ∧ SizedStr c
  | .manyGet ks | .setUnion ks | .setUnionLen ks | .setIntersection ks | .setIntersectionLen ks => SizedVector ks
  | .listPushLeft key values | .listPushRight key values => SizedStr key ∧ SizedList values
  | .setAdd key values | .setDiscard key values => SizedStr key ∧ SizedSet values
  | .setUnionInto key ks | .setIntersectionInto key ks | .hashRemove key ks
  | .hashManyGet key ks => SizedStr key ∧ SizedVector ks
  | .hashSet key values | .hashUpdate key values => SizedStr key ∧ SizedHash values

def SizedEntry : Entry → Prop
  | .dbOp _ _ op => SizedOp op
  | .expire _ key => SizedStr key

def Entry.logged : Entry → Bool
  | .dbOp _ _ op => op.kind.shouldWal
  | .expire .. => true

structure Record where
  entry : Entry
  order : Order Str
  logged : entry.logged = true
  sized : SizedEntry entry

def Record.bytes (record : Record) : Bytes := wal record.order record.entry

end Vanity.Wal
