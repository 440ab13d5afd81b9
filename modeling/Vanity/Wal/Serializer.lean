import Vanity.Db.Types

/-!
# The serializer

`utils/serializer.h`. Sizes are written as `size_t`; a string, a list, a set or a hash reads its
size back as `streamsize`, a vector as `size_t`. A container of the program holds at most
`max_size()` elements, which is what `Sized` says of a value: on such values every reader frames
the bytes of its writer.
-/

namespace Vanity.Wal
open Db

/-- What the code of this directory throws. Behaviour that the language leaves undefined and a loop
that does not end stand beside the exceptions. -/
inductive Exception where
  | walError (what : String)
  | corruptJournal (what : String)
  | runtimeError (what : String)
  | lengthError
  | filesystemError
  | undefinedBehaviour
  | diverges
  deriving DecidableEq

abbrev ReadM (α : Type) := Reader Exception α

/-- `max_size()` of a string, an upper bound for every container but the vector. -/
def maxSize : Nat := 2 ^ 63 - 2

/-- `max_size()` of a vector of strings, which take 32 bytes each. -/
def maxVectorSize : Nat := (2 ^ 63 - 1) / 32

/-! ### Writing -/

def writeSize (n : Nat) : Bytes := writeU64 (UInt64.ofNat n)

def writeStr (s : Str) : Bytes := writeSize s.length ++ s

def writeList (l : List Str) : Bytes := writeSize l.length ++ l.flatMap writeStr

def writeSet (order : Order Str) (s : SetT) : Bytes :=
  writeSize s.card ++ (order.list s).flatMap writeStr

def writePair (entry : Str × Str) : Bytes := writeStr entry.1 ++ writeStr entry.2

def writeHash (order : Order Str) (h : HashT) : Bytes :=
  writeSize h.keys.card ++ (Table.entries order h).flatMap writePair

def writeData (order : Order Str) (d : Data) : Bytes :=
  writeU8 (UInt8.ofNat d.index) ++
    match d with
    | .str s => writeStr s
    | .int n => writeI64 n
    | .float x => writeU64 x
    | .list l => writeList l
    | .set s => writeSet order s
    | .hash h => writeHash order h

/-! ### Reading -/

-- `resize` takes the signed size as a `size_t`
def readStr : ReadM Str := do
  let size ← readI64
  if size.toUInt64.toNat > maxSize then throw .lengthError
  else readInto size.toUInt64.toNat

def readList : ReadM ListT := do
  let size ← readI64
  readMany readStr size.toInt.toNat

def readSet : ReadM SetT := do
  let size ← readI64
  return (← readMany readStr size.toInt.toNat).foldl (fun set s => insert s set) ∅

def readPair : ReadM (Str × Str) := do return (← readStr, ← readStr)

def readHash : ReadM HashT := do
  let size ← readI64
  return (← readMany readPair size.toInt.toNat).foldl Table.assign ∅

def readVector : ReadM (List Str) := do
  let size ← readU64
  if size.toNat > maxVectorSize then throw .lengthError
  else readMany readStr size.toNat

def readAlternative (index : Nat) : ReadM Data :=
  match index with
  | 0 => do return .str (← readStr)
  | 1 => do return .int (← readI64)
  | 2 => do return .float (← readU64)
  | 3 => do return .list (← readList)
  | 4 => do return .set (← readSet)
  | 5 => do return .hash (← readHash)
  | _ => throw (.runtimeError "invalid type")

def readData : ReadM Data := do readAlternative (← readU8).toNat

/-! ### Sizes -/

def SizedStr (s : Str) : Prop := s.length ≤ maxSize

def SizedList (l : List Str) : Prop := l.length ≤ maxSize ∧ ∀ s ∈ l, SizedStr s

def SizedVector (l : List Str) : Prop := l.length ≤ maxVectorSize ∧ ∀ s ∈ l, SizedStr s

def SizedSet (s : SetT) : Prop := s.card ≤ maxSize ∧ ∀ x ∈ s, SizedStr x

def SizedHash (h : HashT) : Prop :=
  h.keys.card ≤ maxSize ∧ ∀ key value, h.lookup key = some value → SizedStr key ∧ SizedStr value

def SizedData : Data → Prop
  | .str s => SizedStr s
  | .int _ | .float _ => True
  | .list l => SizedList l
  | .set s => SizedSet s
  | .hash h => SizedHash h

instance (s : Str) : Decidable (SizedStr s) := inferInstanceAs (Decidable (_ ≤ _))

theorem size_toNat {n : Nat} (sized : n ≤ maxSize) : (UInt64.ofNat n).toNat = n := by
  rw [UInt64.toNat_ofNat']
  unfold maxSize at sized
  omega

theorem size_toInt {n : Nat} (sized : n ≤ maxSize) : (UInt64.ofNat n).toInt64.toInt.toNat = n := by
  have small : n < 2 ^ 63 := by
    unfold maxSize at sized
    omega
  rw [UInt64.toInt64_ofNat', Int64.toInt_ofNat_of_lt small]
  rfl

/-! ### Reading back what was written -/

theorem frames_streamsize (n : Nat) : Frames (readI64 : ReadM Int64) (writeSize n) (UInt64.ofNat n).toInt64 :=
  frames_i64 (UInt64.ofNat n).toInt64

theorem sticky_i64 : Sticky (readI64 : ReadM Int64) := (frames_i64 0).sticky

theorem sticky_u64 : Sticky (readU64 : ReadM UInt64) := (frames_u64 0).sticky

theorem sticky_str : Sticky readStr :=
  sticky_bind sticky_i64 fun _ => sticky_ite (sticky_throw _) (sticky_over _ _)

theorem frames_str {s : Str} (sized : SizedStr s) : Frames readStr (writeStr s) s := by
  have bits : (UInt64.ofNat s.length).toInt64.toUInt64.toNat = s.length := by
    rw [UInt64.toUInt64_toInt64, size_toNat sized]
  have body := frames_over (ε := Exception) s fun _ => 0
  refine frames_bind (frames_streamsize s.length) ?_ fun _ => sticky_ite (sticky_throw _) (sticky_over _ _)
  rw [bits, if_neg (Nat.not_lt.mpr sized)]
  exact body

theorem frames_counted {α β : Type} {r : ReadM α} {write : α → Bytes} {items : List α} {n : Nat}
    (f : List α → β) (sticky : Sticky r) (each : ∀ item ∈ items, Frames r (write item) item)
    (length : items.length = n) (sized : n ≤ maxSize) :
    Frames (do
      let size ← readI64
      return f (← readMany r size.toInt.toNat)) (writeSize n ++ items.flatMap write) (f items) := by
  refine frames_bind (frames_streamsize n) ?_ fun _ => sticky_map f (sticky_many sticky _)
  rw [size_toInt sized, ← length]
  exact frames_map f (frames_items sticky each)

theorem sticky_list : Sticky readList :=
  sticky_bind sticky_i64 fun _ => sticky_many sticky_str _

theorem frames_list {l : ListT} (sized : SizedList l) : Frames readList (writeList l) l := by
  refine frames_bind (frames_streamsize l.length) ?_ fun _ => sticky_many sticky_str _
  rw [size_toInt sized.1]
  exact frames_items sticky_str fun s member => frames_str (sized.2 s member)

theorem foldl_insert_eq (l : List Str) (set : SetT) :
    l.foldl (fun set s => insert s set) set = l.toFinset ∪ set := by
  induction l generalizing set with
  | nil => simp
  | cons s l ih =>
    rw [List.foldl_cons, ih, List.toFinset_cons, Finset.union_insert, Finset.insert_union]

theorem sticky_set : Sticky readSet :=
  sticky_bind sticky_i64 fun _ => sticky_map _ (sticky_many sticky_str _)

theorem frames_set (order : Order Str) {s : SetT} (sized : SizedSet s) :
    Frames readSet (writeSet order s) s := by
  have each : ∀ x ∈ order.list s, Frames readStr (writeStr x) x :=
    fun x member => frames_str (sized.2 x ((order.mem s x).mp member))
  have run := frames_counted (fun l => l.foldl (fun set x => insert x set) (∅ : SetT)) sticky_str each
    (order.length s) sized.1
  rwa [foldl_insert_eq, order.toFinset, Finset.union_empty] at run

theorem sticky_pair : Sticky readPair := sticky_two _ sticky_str sticky_str

theorem frames_pair {entry : Str × Str} (key : SizedStr entry.1) (value : SizedStr entry.2) :
    Frames readPair (writePair entry) entry :=
  frames_two Prod.mk (frames_str key) (frames_str value)

theorem sticky_hash : Sticky readHash :=
  sticky_bind sticky_i64 fun _ => sticky_map _ (sticky_many sticky_pair _)

theorem frames_hash (order : Order Str) {h : HashT} (sized : SizedHash h) :
    Frames readHash (writeHash order h) h := by
  have each : ∀ entry ∈ Table.entries order h, Frames readPair (writePair entry) entry := by
    intro entry member
    obtain ⟨key, value⟩ := sized.2 entry.1 entry.2 (Table.mem_entries.mp member)
    exact frames_pair key value
  have run := frames_counted (fun entries => entries.foldl Table.assign ∅) sticky_pair each
    (Table.entries_length order h) sized.1
  rwa [Table.rebuild_entries] at run

theorem sticky_vector : Sticky readVector :=
  sticky_bind sticky_u64 fun _ => sticky_ite (sticky_throw _) (sticky_many sticky_str _)

theorem frames_vector {l : List Str} (sized : SizedVector l) : Frames readVector (writeList l) l := by
  have small : l.length ≤ maxSize := Nat.le_trans sized.1 (by decide)
  refine frames_bind (frames_u64 (UInt64.ofNat l.length)) ?_ fun _ =>
    sticky_ite (sticky_throw _) (sticky_many sticky_str _)
  rw [size_toNat small, if_neg (Nat.not_lt.mpr sized.1)]
  exact frames_items sticky_str fun s member => frames_str (sized.2 s member)

theorem sticky_alternative (index : Nat) : Sticky (readAlternative index) := by
  unfold readAlternative
  split
  · exact sticky_map Data.str sticky_str
  · exact sticky_map Data.int sticky_i64
  · exact sticky_map Data.float sticky_u64
  · exact sticky_map Data.list sticky_list
  · exact sticky_map Data.set sticky_set
  · exact sticky_map Data.hash sticky_hash
  · exact sticky_throw _

theorem sticky_data : Sticky readData :=
  sticky_bind (frames_u8 0).sticky fun _ => sticky_alternative _

theorem frames_data (order : Order Str) {d : Data} (sized : SizedData d) :
    Frames readData (writeData order d) d := by
  refine frames_bind (frames_u8 _) ?_ fun _ => sticky_alternative _
  cases d with
  | str s => exact frames_map Data.str (frames_str sized)
  | int n => exact frames_map Data.int (frames_i64 n)
  | float x => exact frames_map Data.float (frames_u64 x)
  | list l => exact frames_map Data.list (frames_list sized)
  | set s => exact frames_map Data.set (frames_set order sized)
  | hash h => exact frames_map Data.hash (frames_hash order sized)

end Vanity.Wal
