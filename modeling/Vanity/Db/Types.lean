import Mathlib.Algebra.GroupWithZero.Nat
import Vanity.Library.Table
import Vanity.Library.Stream

/-!
# The data model of a database

`types.h`, `base_map.h` and the state of `ExpiryDatabase`. A `std::string` is its bytes, a
`double` is its bit pattern and a time point is its count of clock ticks. The hash tables are
`Table`s and `Finset`s; the order in which a loop visits them comes from the environment of the
call.
-/

namespace Vanity.Db

abbrev Str := List UInt8
abbrev Float64 := UInt64
abbrev Time := Int64

abbrev ListT := List Str
abbrev SetT := Finset Str
abbrev HashT := Table Str Str

/-- `db_data_type`, the alternatives in the order of the variant. -/
inductive Data where
  | str (s : Str)
  | int (n : Int64)
  | float (x : Float64)
  | list (l : ListT)
  | set (s : SetT)
  | hash (h : HashT)
  deriving DecidableEq

def Data.index : Data → Nat
  | .str _ => 0
  | .int _ => 1
  | .float _ => 2
  | .list _ => 3
  | .set _ => 4
  | .hash _ => 5

def Float64.add (x y : Float64) : Float64 := (Float.ofBits x + Float.ofBits y).toBits

-- the difference of two `size_t`
def sizeDiff (size left : Nat) : Nat := (UInt64.ofNat size - UInt64.ofNat left).toNat

def maxSampleSize : Nat := 100

/-- What one call takes from outside the databases: the readings of the clock, one for each
`now()`, the random draws, the iteration order of the hash tables, the samples of
`shallow_purge` and the size found in a collection that has already been destroyed. -/
structure Env where
  now : Nat → Time
  order : Order Str
  draw : Nat → Nat
  sample : Nat → Finset Str → List Str
  sample_nodup : ∀ round keys, (sample round keys).Nodup
  sample_subset : ∀ round keys, ∀ key ∈ sample round keys, key ∈ keys
  sample_length : ∀ round keys, (sample round keys).length = min maxSampleSize keys.card
  staleSize : Nat

def Env.make (now : Nat → Time) (order : Order Str) (draw : Nat → Nat) : Env where
  now := now
  order := order
  draw := draw
  sample _ keys := (order.list keys).take maxSampleSize
  sample_nodup _ keys := (order.nodup keys).sublist (List.take_sublist _ _)
  sample_subset _ keys key member := (order.mem keys key).mp (List.mem_of_mem_take member)
  sample_length _ keys := by rw [List.length_take, order.length]
  staleSize := 0

noncomputable def Env.frozen (time : Time) : Env := .make (fun _ => time) (.startingWith []) fun _ => 0

structure Store where
  data : Table Str Data := ∅
  expiryTimes : Table Str Time := ∅
  deriving DecidableEq

/-- The two tables of a database, whether keys expire, and the keys that `pre_expire` has been
called with, in order. -/
structure Database where
  store : Store := {}
  expiryEnabled : Bool := true
  preExpired : List Str := []
  deriving DecidableEq

def numDatabases : Nat := 16

instance : NeZero numDatabases := ⟨by decide⟩

abbrev Index := Fin numDatabases
abbrev Databases := Index → Database

namespace Store

def contains (s : Store) (key : Str) : Bool := decide (key ∈ s.data)

def put (s : Store) (key : Str) (value : Data) : Store := { s with data := s.data.insert key value }

def clearExpiry (s : Store) (key : Str) : Store := { s with expiryTimes := s.expiryTimes.erase key }

/-- `_do_expire`: erase the key from both tables. -/
def doExpire (s : Store) (key : Str) : Store :=
  { data := s.data.erase key, expiryTimes := s.expiryTimes.erase key }

def expiryAwareDel (s : Store) (key : Str) : Bool × Store :=
  let s := s.clearExpiry key
  (s.contains key, { s with data := s.data.erase key })

@[ext] theorem ext_lookup {s t : Store} (data : ∀ key, s.data.lookup key = t.data.lookup key)
    (expiry : ∀ key, s.expiryTimes.lookup key = t.expiryTimes.lookup key) : s = t := by
  cases s
  cases t
  rw [Store.mk.injEq]
  exact ⟨Finmap.ext_lookup data, Finmap.ext_lookup expiry⟩

@[simp] theorem contains_iff {s : Store} {key : Str} : s.contains key = true ↔ key ∈ s.data := by
  simp [contains]

@[simp] theorem put_lookup (s : Store) (key other : Str) (value : Data) :
    (s.put key value).data.lookup other = if other = key then some value else s.data.lookup other :=
  Table.lookup_insert_eq _ _ _ _

@[simp] theorem put_expiryTimes (s : Store) (key : Str) (value : Data) :
    (s.put key value).expiryTimes = s.expiryTimes := rfl

@[simp] theorem clearExpiry_data (s : Store) (key : Str) : (s.clearExpiry key).data = s.data := rfl

@[simp] theorem clearExpiry_lookup (s : Store) (key other : Str) :
    (s.clearExpiry key).expiryTimes.lookup other =
      if other = key then none else s.expiryTimes.lookup other :=
  Table.lookup_erase_eq _ _ _

@[simp] theorem doExpire_lookup (s : Store) (key other : Str) :
    (s.doExpire key).data.lookup other = if other = key then none else s.data.lookup other :=
  Table.lookup_erase_eq _ _ _

@[simp] theorem doExpire_expiry (s : Store) (key other : Str) :
    (s.doExpire key).expiryTimes.lookup other =
      if other = key then none else s.expiryTimes.lookup other :=
  Table.lookup_erase_eq _ _ _

@[simp] theorem expiryAwareDel_store (s : Store) (key : Str) : (s.expiryAwareDel key).2 = s.doExpire key := rfl

@[simp] theorem doExpire_contains (s : Store) (key : Str) : (s.doExpire key).contains key = false := by
  simp [contains, doExpire]

end Store

end Vanity.Db
