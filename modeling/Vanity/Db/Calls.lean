import Vanity.Db.Keys
import Vanity.Db.Lists
import Vanity.Db.Sets
import Vanity.Db.Hashes

/-!
# Database calls

`db_operations.h` and the calls that `LockedDatabase` makes on its base classes. `Op` is a call
with its arguments, `Op.action` the code it runs and `exec` its effect on the sixteen databases.
-/

namespace Vanity.Db

/-- `db_op_t`, in the order of the enumerators. -/
inductive DbOpT where
  | begin | commit | discard
  | reset | has | del | get | type | keys | copyTo | moveTo | copyToDb | moveToDb
  | clearExpiry | setExpiry | getExpiry | clearAllExpiry
  | strSet | intSet | floatSet | incrInt | incrFloat | strLen | manyGet | manySet
  | listLen | listGet | listSet | listPushLeft | listPushRight | listPopLeft | listPopRight
  | listRange | listTrim | listRemove
  | setAdd | setAll | setRemove | setDiscard | setLen | setContains | setMove
  | setUnion | setUnionInto | setUnionLen
  | setIntersection | setIntersectionInto | setIntersectionLen
  | setDifference | setDifferenceInto | setDifferenceLen
  | hashSet | hashAll | hashGet | hashContains | hashLen | hashKeyLen | hashRemove
  | hashKeys | hashValues | hashUpdate | hashManyGet
  deriving DecidableEq

namespace DbOpT

def all : List DbOpT :=
  [.begin, .commit, .discard,
   .reset, .has, .del, .get, .type, .keys, .copyTo, .moveTo, .copyToDb, .moveToDb,
   .clearExpiry, .setExpiry, .getExpiry, .clearAllExpiry,
   .strSet, .intSet, .floatSet, .incrInt, .incrFloat, .strLen, .manyGet, .manySet,
   .listLen, .listGet, .listSet, .listPushLeft, .listPushRight, .listPopLeft, .listPopRight,
   .listRange, .listTrim, .listRemove,
   .setAdd, .setAll, .setRemove, .setDiscard, .setLen, .setContains, .setMove,
   .setUnion, .setUnionInto, .setUnionLen,
   .setIntersection, .setIntersectionInto, .setIntersectionLen,
   .setDifference, .setDifferenceInto, .setDifferenceLen,
   .hashSet, .hashAll, .hashGet, .hashContains, .hashLen, .hashKeyLen, .hashRemove,
   .hashKeys, .hashValues, .hashUpdate, .hashManyGet]

def code (op : DbOpT) : UInt8 := UInt8.ofNat (all.idxOf op)

def ofCode (code : UInt8) : Option DbOpT := all[code.toNat]?

theorem ofCode_code (op : DbOpT) : ofCode op.code = some op := by
  cases op <;> rfl

def shouldWal : DbOpT → Bool
  | .has | .get | .type | .keys
  | .getExpiry
  | .strLen | .manyGet
  | .listLen | .listGet | .listRange
  | .setAll | .setLen | .setContains | .setUnion | .setUnionLen
  | .setIntersection | .setIntersectionLen | .setDifference | .setDifferenceLen
  | .hashAll | .hashGet | .hashContains | .hashLen | .hashKeyLen
  | .hashKeys | .hashValues | .hashManyGet => false
  | .begin | .commit | .discard
  | .reset | .del | .copyTo | .moveTo | .copyToDb | .moveToDb
  | .setExpiry | .clearExpiry | .clearAllExpiry
  | .strSet | .intSet | .floatSet | .incrInt | .incrFloat | .manySet
  | .listSet | .listPushLeft | .listPushRight | .listPopLeft | .listPopRight | .listTrim | .listRemove
  | .setAdd | .setRemove | .setDiscard | .setMove
  | .setUnionInto | .setIntersectionInto | .setDifferenceInto
  | .hashSet | .hashRemove | .hashUpdate => true

end DbOpT

/-- A call of `LockedDatabase`, without its transaction id. -/
inductive Op where
  | begin
  | commit
  | discard
  | reset
  | has (key : Str)
  | del (key : Str)
  | get (key : Str)
  | type (key : Str)
  | keys
  | copyTo (source dest : Str)
  | moveTo (source dest : Str)
  | copyToDb (key : Str) (to_ : Index)
  | moveToDb (key : Str) (to_ : Index)
  | setExpiry (key : Str) (time : Time)
  | getExpiry (key : Str)
  | clearExpiry (key : Str)
  | clearAllExpiry
  | strSet (key value : Str)
  | intSet (key : Str) (value : Int64)
  | floatSet (key : Str) (value : Float64)
  | incrInt (key : Str) (value : Int64)
  | incrFloat (key : Str) (value : Float64)
  | strLen (key : Str)
  | manyGet (keys : List Str)
  | listLen (key : Str)
  | listGet (key : Str) (index : Int64)
  | listSet (key : Str) (index : Int64) (value : Str)
  | listPushLeft (key : Str) (values : ListT)
  | listPushRight (key : Str) (values : ListT)
  | listPopLeft (key : Str) (n : Int64)
  | listPopRight (key : Str) (n : Int64)
  | listRange (key : Str) (start stop : Int64)
  | listTrim (key : Str) (start stop : Int64)
  | listRemove (key element : Str) (count : Int64)
  | setAdd (key : Str) (values : SetT)
  | setAll (key : Str)
  | setRemove (key : Str) (count : UInt64)
  | setDiscard (key : Str) (values : SetT)
  | setLen (key : Str)
  | setContains (key value : Str)
  | setMove (source dest value : Str)
  | setUnion (keys : List Str)
  | setUnionInto (dest : Str) (keys : List Str)
  | setUnionLen (keys : List Str)
  | setIntersection (keys : List Str)
  | setIntersectionInto (dest : Str) (keys : List Str)
  | setIntersectionLen (keys : List Str)
  | setDifference (key1 key2 : Str)
  | setDifferenceInto (dest key1 key2 : Str)
  | setDifferenceLen (key1 key2 : Str)
  | hashSet (key : Str) (values : HashT)
  | hashAll (key : Str)
  | hashGet (key field : Str)
  | hashContains (key field : Str)
  | hashLen (key : Str)
  | hashKeyLen (key field : Str)
  | hashRemove (key : Str) (fields : List Str)
  | hashKeys (key : Str)
  | hashValues (key : Str)
  | hashUpdate (key : Str) (values : HashT)
  | hashManyGet (key : Str) (fields : List Str)

inductive Reply where
  | done
  | flag (found : Bool)
  | value (value : Option Data)
  | values (values : List (Option Data))
  | typeIndex (index : Option Nat)
  | keys (keys : Finset Str)
  | time (time : Option Time)
  | int (n : Option Int64)
  | float (x : Option Float64)
  | length (n : Option Nat)
  | listSize (result : Except ListErrorKind Nat)
  | listElement (result : Except ListErrorKind Str)
  | list (result : Except ListErrorKind ListT)
  | set (result : Option SetT)
  | setFlag (result : Option Bool)
  | hash (result : Except HashError HashT)
  | hashElement (result : Except HashError Str)
  | hashFlag (result : Except HashError Bool)
  | hashSize (result : Except HashError Nat)
  | hashFields (result : Except HashError (Finset Str))
  | hashElements (result : Except HashError (Multiset Str))
  | hashMany (result : Except HashError (List (Option Str)))

def Operation.map {α β : Type} (f : α → β) (op : Operation α) : Operation β where
  checks := op.checks
  body s := (op.body s).map fun (result, s) => (f result, s)

/-- The code behind a call: nothing yet, an operation on the database itself, an operation on the
tables of two databases, or a traversal that reads while keys expire. -/
inductive Action where
  | idle
  | here (op : Operation Reply)
  | across (transfer : Str → Store → Store → Bool × Store × Store) (key : Str) (to_ : Index)
  | reading (read : Env → Database → Reply × Database)

namespace Op

def kind : Op → DbOpT
  | .begin => .begin
  | .commit => .commit
  | .discard => .discard
  | .reset => .reset
  | .has .. => .has
  | .del .. => .del
  | .get .. => .get
  | .type .. => .type
  | .keys => .keys
  | .copyTo .. => .copyTo
  | .moveTo .. => .moveTo
  | .copyToDb .. => .copyToDb
  | .moveToDb .. => .moveToDb
  | .setExpiry .. => .setExpiry
  | .getExpiry .. => .getExpiry
  | .clearExpiry .. => .clearExpiry
  | .clearAllExpiry => .clearAllExpiry
  | .strSet .. => .strSet
  | .intSet .. => .intSet
  | .floatSet .. => .floatSet
  | .incrInt .. => .incrInt
  | .incrFloat .. => .incrFloat
  | .strLen .. => .strLen
  | .manyGet .. => .manyGet
  | .listLen .. => .listLen
  | .listGet .. => .listGet
  | .listSet .. => .listSet
  | .listPushLeft .. => .listPushLeft
  | .listPushRight .. => .listPushRight
  | .listPopLeft .. => .listPopLeft
  | .listPopRight .. => .listPopRight
  | .listRange .. => .listRange
  | .listTrim .. => .listTrim
  | .listRemove .. => .listRemove
  | .setAdd .. => .setAdd
  | .setAll .. => .setAll
  | .setRemove .. => .setRemove
  | .setDiscard .. => .setDiscard
  | .setLen .. => .setLen
  | .setContains .. => .setContains
  | .setMove .. => .setMove
  | .setUnion .. => .setUnion
  | .setUnionInto .. => .setUnionInto
  | .setUnionLen .. => .setUnionLen
  | .setIntersection .. => .setIntersection
  | .setIntersectionInto .. => .setIntersectionInto
  | .setIntersectionLen .. => .setIntersectionLen
  | .setDifference .. => .setDifference
  | .setDifferenceInto .. => .setDifferenceInto
  | .setDifferenceLen .. => .setDifferenceLen
  | .hashSet .. => .hashSet
  | .hashAll .. => .hashAll
  | .hashGet .. => .hashGet
  | .hashContains .. => .hashContains
  | .hashLen .. => .hashLen
  | .hashKeyLen .. => .hashKeyLen
  | .hashRemove .. => .hashRemove
  | .hashKeys .. => .hashKeys
  | .hashValues .. => .hashValues
  | .hashUpdate .. => .hashUpdate
  | .hashManyGet .. => .hashManyGet

def action (env : Env) : Op → Action
  -- the bodies of begin, commit and discard are still to be written in the source
  | .begin | .commit | .discard => .idle
  | .reset => .here (Db.reset.map fun _ => .done)
  | .has key => .here ((Db.has key).map .flag)
  | .del key => .here ((Db.del key).map .flag)
  | .get key => .here ((Db.get key).map .value)
  | .type key => .here ((Db.type key).map .typeIndex)
  | .keys => .reading fun env db => let (found, db) := Db.keys db env; (.keys found, db)
  | .copyTo source dest => .here ((Db.copyTo source dest).map .flag)
  | .moveTo source dest => .here ((Db.moveTo source dest).map .flag)
  | .copyToDb key to_ => .across Db.copyToDb key to_
  | .moveToDb key to_ => .across Db.moveToDb key to_
  | .setExpiry key time => .here ((Db.setExpiry key time).map fun _ => .done)
  | .getExpiry key => .here ((Db.getExpiry key).map .time)
  | .clearExpiry key => .here ((Db.clearExpiry key).map fun _ => .done)
  | .clearAllExpiry => .here (Db.clearAllExpiry.map fun _ => .done)
  | .strSet key value => .here ((Db.strSet key value).map fun _ => .done)
  | .intSet key value => .here ((Db.intSet key value).map fun _ => .done)
  | .floatSet key value => .here ((Db.floatSet key value).map fun _ => .done)
  | .incrInt key value => .here ((Db.incrInt key value).map .int)
  | .incrFloat key value => .here ((Db.incrFloat key value).map .float)
  | .strLen key => .here ((Db.strLen key).map .length)
  | .manyGet ks => .reading fun env db => let (found, db) := Db.manyGet ks env db; (.values found, db)
  | .listLen key => .here ((Db.listLen key).map .listSize)
  | .listGet key index => .here ((Db.listGet key index).map .listElement)
  | .listSet key index value => .here ((Db.listSet key index value).map .listElement)
  | .listPushLeft key values => .here ((Db.listPushLeft key values).map .listSize)
  | .listPushRight key values => .here ((Db.listPushRight key values).map .listSize)
  | .listPopLeft key n => .here ((Db.listPopLeft key n).map .list)
  | .listPopRight key n => .here ((Db.listPopRight key n).map .list)
  | .listRange key start stop => .here ((Db.listRange key start stop).map .list)
  | .listTrim key start stop => .here ((Db.listTrim key start stop).map .listSize)
  | .listRemove key element count => .here ((Db.listRemove key element count).map .listSize)
  | .setAdd key values => .here ((Db.setAdd key values).map .length)
  | .setAll key => .here ((Db.setAll key).map .set)
  | .setRemove key count => .here ((Db.setRemove env key count).map .set)
  | .setDiscard key values => .here ((Db.setDiscard env key values).map .length)
  | .setLen key => .here ((Db.setLen key).map .length)
  | .setContains key value => .here ((Db.setContains key value).map .setFlag)
  | .setMove source dest value => .here ((Db.setMove source dest value).map .setFlag)
  | .setUnion ks => .here ((Db.setUnion ks).map .set)
  | .setUnionInto dest ks => .here ((Db.setUnionInto dest ks).map .length)
  | .setUnionLen ks => .here ((Db.setUnionLen ks).map .length)
  | .setIntersection ks => .here ((Db.setIntersection ks).map .set)
  | .setIntersectionInto dest ks => .here ((Db.setIntersectionInto dest ks).map .length)
  | .setIntersectionLen ks => .here ((Db.setIntersectionLen ks).map .length)
  | .setDifference key1 key2 => .here ((Db.setDifference key1 key2).map .set)
  | .setDifferenceInto dest key1 key2 => .here ((Db.setDifferenceInto dest key1 key2).map .length)
  | .setDifferenceLen key1 key2 => .here ((Db.setDifferenceLen key1 key2).map .length)
  | .hashSet key values => .here ((Db.hashSet key values).map fun _ => .done)
  | .hashAll key => .here ((Db.hashAll key).map .hash)
  | .hashGet key field => .here ((Db.hashGet key field).map .hashElement)
  | .hashContains key field => .here ((Db.hashContains key field).map .hashFlag)
  | .hashLen key => .here ((Db.hashLen key).map .hashSize)
  | .hashKeyLen key field => .here ((Db.hashKeyLen key field).map .hashSize)
  | .hashRemove key fields => .here ((Db.hashRemove env key fields).map .hashSize)
  | .hashKeys key => .here ((Db.hashKeys key).map .hashFields)
  | .hashValues key => .here ((Db.hashValues key).map .hashElements)
  | .hashUpdate key values => .here ((Db.hashUpdate env key values).map .hashSize)
  | .hashManyGet key fields => .here ((Db.hashManyGet key fields).map .hashMany)

end Op

/-- `copy_to_db` and `move_to_db`: the source key is checked first, and a database is left as it is
when it is its own destination. -/
def transferDb (transfer : Str → Store → Store → Bool × Store × Store) (key : Str) (i j : Index)
    (env : Env) (dbs : Databases) : Bool × Databases :=
  let db := ((dbs i).eraseIfExpired (env.now 0) key).2
  let dbs := Function.update dbs i db
  if i = j then (db.store.contains key, dbs)
  else
    let (moved, s, t) := transfer key db.store (dbs j).store
    (moved, Function.update (Function.update dbs i { db with store := s }) j { dbs j with store := t })

def exec (op : Op) (env : Env) (i : Index) (dbs : Databases) : Option (Reply × Databases) :=
  match op.action env with
  | .idle => some (.done, dbs)
  | .here operation => (operation.run env (dbs i)).map fun (reply, db) => (reply, Function.update dbs i db)
  | .across transfer key to_ =>
    let (moved, dbs) := transferDb transfer key i to_ env dbs
    some (.flag moved, dbs)
  | .reading read =>
    let (reply, db) := read env (dbs i)
    some (reply, Function.update dbs i db)

section
variable {op : Op} {env : Env} (i : Index) (dbs : Databases)

theorem exec_idle (action : op.action env = .idle) : exec op env i dbs = some (.done, dbs) := by
  rw [exec, action]

theorem exec_here {operation : Operation Reply} (action : op.action env = .here operation) :
    exec op env i dbs = (operation.body ((dbs i).eraseEach env.now operation.checks).store).map fun outcome =>
      (outcome.1,
        Function.update dbs i { (dbs i).eraseEach env.now operation.checks with store := outcome.2 }) := by
  simp only [exec, action, Operation.run]
  cases operation.body ((dbs i).eraseEach env.now operation.checks).store <;> rfl

theorem exec_across {transfer : Str → Store → Store → Bool × Store × Store} {key : Str} {to_ : Index}
    (action : op.action env = .across transfer key to_) :
    exec op env i dbs =
      some (.flag (transferDb transfer key i to_ env dbs).1, (transferDb transfer key i to_ env dbs).2) := by
  rw [exec, action]

theorem exec_reading {read : Env → Database → Reply × Database} (action : op.action env = .reading read) :
    exec op env i dbs = some ((read env (dbs i)).1, Function.update dbs i (read env (dbs i)).2) := by
  rw [exec, action]

end

end Vanity.Db
