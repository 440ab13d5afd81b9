import Vanity.Db.Expiry

/-!
# General and primitive operations

`general_database.cpp` and `primitive_database.cpp`. `copy_to_db` and `move_to_db` work on the
tables of two different databases; the case of one database is settled by their caller.
-/

namespace Vanity.Db

def has (key : Str) : Operation Bool where
  checks := [key]
  body s := some (s.contains key, s)

def get (key : Str) : Operation (Option Data) where
  checks := [key]
  body s := some (s.data.lookup key, s)

def reset : Operation Unit where
  checks := []
  body _ := some ((), {})

def del (key : Str) : Operation Bool where
  checks := []
  body s := some (s.expiryAwareDel key)

def type (key : Str) : Operation (Option Nat) where
  checks := [key]
  body s := some ((s.data.lookup key).map Data.index, s)

-- the vector of keys is in iteration order, so only its elements are determined
def keys (db : Database) (env : Env) : Finset Str × Database :=
  let db := db.deepPurge env
  (db.store.data.keys, db)

def copyTo (source dest : Str) : Operation Bool where
  checks := [source]
  body s := some (match s.data.lookup source with
    | none => (false, s)
    | some value => if source = dest then (true, s) else (true, (s.put dest value).clearExpiry dest))

def Store.copyExpiry (s : Store) (source : Str) (t : Store) (dest : Str) : Store :=
  match s.expiryTimes.lookup source with
  | none => t
  | some time => { t with expiryTimes := t.expiryTimes.insert dest time }

def moveTo (source dest : Str) : Operation Bool where
  checks := [source]
  body s := some (match s.data.lookup source with
    | none => (false, s)
    | some value =>
      if source = dest then (true, s)
      else
        let s := s.put dest value
        (true, ((s.copyExpiry source s dest).expiryAwareDel source).2))

def copyToDb (key : Str) (s t : Store) : Bool × Store × Store :=
  match s.data.lookup key with
  | none => (false, s, t)
  | some value => (true, s, (t.put key value).clearExpiry key)

def moveToDb (key : Str) (s t : Store) : Bool × Store × Store :=
  match s.data.lookup key with
  | none => (false, s, t)
  | some value => (true, (s.expiryAwareDel key).2, s.copyExpiry key (t.put key value) key)

/-! ### Primitives -/

def strSet (key : Str) (value : Str) : Operation Unit where
  checks := []
  body s := some ((), (s.put key (.str value)).clearExpiry key)

def intSet (key : Str) (value : Int64) : Operation Unit where
  checks := []
  body s := some ((), (s.put key (.int value)).clearExpiry key)

def floatSet (key : Str) (value : Float64) : Operation Unit where
  checks := []
  body s := some ((), (s.put key (.float value)).clearExpiry key)

-- the sum wraps around as the machine's addition does
def incrInt (key : Str) (value : Int64) : Operation (Option Int64) where
  checks := [key]
  body s := some (match s.data.lookup key with
    | some (.int n) => (some (n + value), s.put key (.int (n + value)))
    | some _ => (none, s)
    | none => (some value, s.put key (.int value)))

def incrFloat (key : Str) (value : Float64) : Operation (Option Float64) where
  checks := [key]
  body s := some (match s.data.lookup key with
    | some (.float x) => (some (x.add value), s.put key (.float (x.add value)))
    | some _ => (none, s)
    | none => (some value, s.put key (.float value)))

def strLen (key : Str) : Operation (Option Nat) where
  checks := [key]
  body s := some (match s.data.lookup key with
    | some (.str value) => (some value.length, s)
    | _ => (none, s))

/-- The second loop of `many_get`, which checks and reads one key after the other. -/
def manyGetLoop (now : Nat → Time) : List Str → Database → List (Option Data) × Database
  | [], db => ([], db)
  | key :: keys, db =>
    let (value, db) := expiryAwareGet (now 0) key db
    let (values, db) := manyGetLoop (fun i => now (i + 1)) keys db
    (value :: values, db)

def manyGet (keys : List Str) (env : Env) (db : Database) : List (Option Data) × Database :=
  manyGetLoop (fun i => env.now (keys.length + i)) keys (db.eraseEach env.now keys)

end Vanity.Db
