import Vanity.Db.Expiry
import Mathlib.Data.Multiset.Basic

/-!
# Hash operations

`hash_database.cpp`.
-/

namespace Vanity.Db

inductive HashError where
  | notHash
  | badKey
  deriving DecidableEq

def hashSet (key : Str) (values : HashT) : Operation Unit where
  checks := []
  body s := some ((), (s.put key (.hash values)).clearExpiry key)

/-- A read-only hash operation: its result for a missing key and for a stored hash. -/
def hashQuery {α : Type} (key : Str) (missing : Except HashError α) (read : HashT → Except HashError α) :
    Operation (Except HashError α) where
  checks := [key]
  body s := some (match s.data.lookup key with
    | none => (missing, s)
    | some (.hash hash) => (read hash, s)
    | some _ => (.error .notHash, s))

def HashT.at (hash : HashT) (field : Str) : Except HashError Str :=
  match hash.lookup field with
  | none => .error .badKey
  | some value => .ok value

def hashAll (key : Str) := hashQuery key (.ok (∅ : HashT)) fun hash => .ok hash

def hashGet (key field : Str) := hashQuery key (.error .badKey) fun hash => HashT.at hash field

def hashContains (key field : Str) := hashQuery key (.ok false) fun hash => .ok (decide (field ∈ hash))

def hashLen (key : Str) := hashQuery key (.ok 0) fun hash => .ok hash.keys.card

def hashKeyLen (key field : Str) :=
  hashQuery key (.error .badKey) fun hash => (HashT.at hash field).map List.length

-- the vectors of fields and of values are in iteration order
def hashKeys (key : Str) := hashQuery key (.ok (∅ : Finset Str)) fun hash => .ok hash.keys

def hashValues (key : Str) :=
  hashQuery key (.ok (0 : Multiset Str)) fun hash => .ok ((Finmap.entries hash).map fun entry => entry.2)

def hashManyGet (key : Str) (fields : List Str) :=
  hashQuery key (.ok (fields.map fun _ => none)) fun hash => .ok (fields.map hash.lookup)

-- as in `set_discard`, the result reads the size of a destroyed hash when nothing is left
def hashRemove (env : Env) (key : Str) (fields : List Str) : Operation (Except HashError Nat) where
  checks := [key]
  body s := some (match s.data.lookup key with
    | none => (.ok 0, s)
    | some (.hash hash) =>
      let left := fields.foldl (fun hash field => hash.erase field) hash
      let size := if left = ∅ then env.staleSize else left.keys.card
      (.ok (sizeDiff hash.keys.card size),
        if left = ∅ then (s.expiryAwareDel key).2 else s.put key (.hash left))
    | some _ => (.error .notHash, s))

/-- The loop of `hash_update`. A field that the stored hash has is assigned; the first one that it
does not have moves over with its node, and the iterator goes on from there in the stored hash,
where it meets only fields that it assigns to themselves. -/
def updateLoop (hash : HashT) : List (Str × Str) → HashT
  | [] => hash
  | (field, value) :: rest =>
    if field ∈ hash then updateLoop (hash.insert field value) rest else hash.insert field value

-- `m_data[key] = {}` binds a missing key to the first alternative of the variant, a string
def hashUpdate (env : Env) (key : Str) (values : HashT) : Operation (Except HashError Nat) where
  checks := [key]
  body s := some (
    let s := if s.contains key then s else s.put key (.str [])
    match s.data.lookup key with
    | some (.hash hash) =>
      let updated := updateLoop hash (values.entries env.order)
      (.ok (updated.keys.card - hash.keys.card), s.put key (.hash updated))
    | _ => (.error .notHash, s))

/-! ### The order of an update -/

/-- No field is new, or there is a single new one and the others have their values already. -/
def OrderFree (hash values : HashT) : Prop :=
  ∀ field, field ∈ values → field ∉ hash → ∀ other, other ∈ values → other ≠ field →
    hash.lookup other = values.lookup other

theorem updateLoop_present {hash : HashT} {entries : List (Str × Str)}
    (present : ∀ entry ∈ entries, entry.1 ∈ hash) : updateLoop hash entries = entries.foldl Table.assign hash := by
  induction entries generalizing hash with
  | nil => rfl
  | cons entry rest ih =>
    rw [updateLoop, if_pos (present entry List.mem_cons_self), List.foldl_cons]
    apply ih
    intro other member
    exact Finmap.mem_insert.mpr (.inr (present other (List.mem_cons_of_mem _ member)))

theorem updateLoop_new {hash : HashT} {entries : List (Str × Str)} {field value : Str}
    (new : field ∉ hash) (member : (field, value) ∈ entries) (unique : (entries.map Prod.fst).Nodup)
    (others : ∀ entry ∈ entries, entry.1 ≠ field → hash.lookup entry.1 = some entry.2) :
    updateLoop hash entries = hash.insert field value := by
  induction entries with
  | nil => cases member
  | cons entry rest ih =>
    rw [List.map_cons, List.nodup_cons] at unique
    rcases List.mem_cons.mp member with rfl | later
    · rw [updateLoop, if_neg new]
    · have different : entry.1 ≠ field := by
        intro same
        exact unique.1 (List.mem_map.mpr ⟨_, later, same.symm⟩)
      have bound := others entry List.mem_cons_self different
      have same : hash.insert entry.1 entry.2 = hash := by
        apply Finmap.ext_lookup
        intro key
        rw [Table.lookup_insert_eq]
        split
        · rename_i equal
          rw [equal, bound]
        · rfl
      rw [updateLoop, if_pos (Table.mem_of_lookup bound), same]
      exact ih later unique.2 fun entry member => others entry (List.mem_cons_of_mem _ member)

theorem updateLoop_order {hash values : HashT} (free : OrderFree hash values) (first second : Order Str) :
    updateLoop hash (values.entries first) = updateLoop hash (values.entries second) := by
  by_cases fresh : ∃ field, field ∈ values ∧ field ∉ hash
  · obtain ⟨field, present, new⟩ := fresh
    obtain ⟨value, bound⟩ := Finmap.mem_iff.mp present
    have inserted : ∀ order : Order Str, updateLoop hash (values.entries order) = hash.insert field value := by
      intro order
      refine updateLoop_new new (Table.mem_entries.mpr bound) (Table.entries_unique order values) ?_
      intro entry member different
      have read := Table.mem_entries.mp member
      rw [free field present new entry.1 (Table.mem_of_lookup read) different, read]
    rw [inserted first, inserted second]
  · have present : ∀ (order : Order Str), ∀ entry ∈ values.entries order, entry.1 ∈ hash := by
      intro order entry member
      by_contra absent
      exact fresh ⟨entry.1, Table.mem_of_lookup (Table.mem_entries.mp member), absent⟩
    rw [updateLoop_present (present first), updateLoop_present (present second)]
    apply Finmap.ext_lookup
    intro key
    rw [Table.lookup_foldl_entries, Table.lookup_foldl_entries]

end Vanity.Db
