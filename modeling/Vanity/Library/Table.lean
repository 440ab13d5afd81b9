import Mathlib.Data.Finmap
import Mathlib.Data.Finset.Card
import Mathlib.Data.Finset.Dedup

/-!
# Finite tables

A hash table is a `Finmap`: two tables are equal when they bind the same keys to the same
values. What a loop over a table sees depends on its buckets, so every traversal takes the
order of its keys as an argument. `rebuild_entries` says that inserting the entries of a
traversal, in whatever order, gives the table back.
-/

namespace Vanity

variable {K V : Type} [DecidableEq K]

abbrev Table (K V : Type) := Finmap (fun _ : K => V)

/-- An iteration order: for every set of keys a list that visits each of them once. -/
structure Order (K : Type) where
  list : Finset K → List K
  nodup : ∀ keys, (list keys).Nodup
  mem : ∀ keys key, key ∈ list keys ↔ key ∈ keys

theorem Order.toFinset (order : Order K) (keys : Finset K) : (order.list keys).toFinset = keys := by
  ext key
  rw [List.mem_toFinset, order.mem]

omit [DecidableEq K] in
theorem Order.length (order : Order K) (keys : Finset K) : (order.list keys).length = keys.card := by
  classical
  rw [← List.toFinset_card_of_nodup (order.nodup keys), order.toFinset]

/-- The keys in the order of a list of all. -/
def Order.listing (all : List K) (nodup : all.Nodup) (complete : ∀ key, key ∈ all) : Order K where
  list keys := all.filter fun key => decide (key ∈ keys)
  nodup _ := nodup.filter _
  mem keys key := by
    rw [List.mem_filter, decide_eq_true_iff]
    exact and_iff_right (complete key)

noncomputable def Order.startingWith (first : K) : Order K where
  list keys := if first ∈ keys then first :: (keys.erase first).toList else keys.toList
  nodup keys := by
    split
    · exact List.nodup_cons.mpr ⟨by simp, Finset.nodup_toList _⟩
    · exact Finset.nodup_toList _
  mem keys key := by
    split
    · rename_i present
      by_cases same : key = first
      · simp [same, present]
      · simp [same]
    · exact Finset.mem_toList

namespace Table

theorem lookup_insert_eq (table : Table K V) (key other : K) (value : V) :
    (table.insert key value).lookup other = if other = key then some value else table.lookup other := by
  split
  · rename_i same
    subst same
    exact Finmap.lookup_insert table
  · rename_i different
    exact Finmap.lookup_insert_of_ne table different

theorem lookup_erase_eq (table : Table K V) (key other : K) :
    (table.erase key).lookup other = if other = key then none else table.lookup other := by
  split
  · rename_i same
    subst same
    exact Finmap.lookup_erase _ table
  · rename_i different
    exact Finmap.lookup_erase_ne different

theorem mem_of_lookup {table : Table K V} {key : K} {value : V}
    (found : table.lookup key = some value) : key ∈ table :=
  Finmap.mem_of_lookup_eq_some found

/-- The entries a loop over the table meets when it visits the keys in this order. -/
def entries (order : Order K) (table : Table K V) : List (K × V) :=
  (order.list table.keys).filterMap fun key => (table.lookup key).map fun value => (key, value)

/-- A table filled by `insert`, which leaves a key that is already bound alone. -/
def insertNew (table : Table K V) (entry : K × V) : Table K V :=
  if entry.1 ∈ table then table else table.insert entry.1 entry.2

def assign (table : Table K V) (entry : K × V) : Table K V := table.insert entry.1 entry.2

theorem mem_entries {order : Order K} {table : Table K V} {key : K} {value : V} :
    (key, value) ∈ table.entries order ↔ table.lookup key = some value := by
  simp only [entries, List.mem_filterMap, Option.map_eq_some_iff, Prod.mk.injEq]
  constructor
  · rintro ⟨_, _, _, found, rfl, rfl⟩
    exact found
  · intro found
    exact ⟨key, (order.mem _ _).mpr (Finmap.mem_keys.mpr (mem_of_lookup found)), value, found, rfl, rfl⟩

theorem entries_keys (order : Order K) (table : Table K V) :
    (table.entries order).map Prod.fst = order.list table.keys := by
  have present : ∀ key ∈ order.list table.keys, key ∈ table :=
    fun key member => Finmap.mem_keys.mp ((order.mem _ _).mp member)
  unfold entries
  generalize order.list table.keys = keys at present
  induction keys with
  | nil => rfl
  | cons key rest ih =>
    obtain ⟨value, found⟩ := Finmap.mem_iff.mp (present key List.mem_cons_self)
    rw [List.filterMap_cons_some (by rw [found]; rfl), List.map_cons,
      ih fun other member => present other (List.mem_cons_of_mem _ member)]

theorem entries_length (order : Order K) (table : Table K V) :
    (table.entries order).length = table.keys.card := by
  rw [← List.length_map, entries_keys, order.length]

theorem entries_unique (order : Order K) (table : Table K V) :
    ((table.entries order).map Prod.fst).Nodup := by
  rw [entries_keys]
  exact order.nodup _

/-! ### Filling a table -/

theorem lookup_foldl_assign (entries : List (K × V)) (table : Table K V) (key : K)
    (unique : (entries.map Prod.fst).Nodup) :
    (entries.foldl assign table).lookup key =
      ((entries.find? fun entry => entry.1 = key).map Prod.snd).or (table.lookup key) := by
  induction entries generalizing table with
  | nil => simp
  | cons entry rest ih =>
    rw [List.map_cons, List.nodup_cons] at unique
    rw [List.foldl_cons, ih _ unique.2, List.find?_cons, assign, lookup_insert_eq]
    by_cases same : entry.1 = key
    · subst same
      have absent : rest.find? (fun other => other.1 = entry.1) = none := by
        apply List.find?_eq_none.mpr
        intro other member equal
        exact unique.1 (List.mem_map.mpr ⟨other, member, by simpa using equal⟩)
      simp [absent]
    · simp [same, Ne.symm same]

theorem foldl_insertNew (entries : List (K × V)) (table : Table K V)
    (unique : (entries.map Prod.fst).Nodup) (fresh : ∀ entry ∈ entries, entry.1 ∉ table) :
    entries.foldl insertNew table = entries.foldl assign table := by
  induction entries generalizing table with
  | nil => rfl
  | cons entry rest ih =>
    rw [List.map_cons, List.nodup_cons] at unique
    rw [List.foldl_cons, List.foldl_cons, insertNew, if_neg (fresh entry List.mem_cons_self), ← assign]
    apply ih _ unique.2
    intro other member bound
    rcases Finmap.mem_insert.mp bound with same | old
    · exact unique.1 (List.mem_map.mpr ⟨other, member, same⟩)
    · exact fresh other (List.mem_cons_of_mem _ member) old

theorem find?_key {entries : List (K × V)} (unique : (entries.map Prod.fst).Nodup) {key : K} {value : V} :
    (entries.find? fun entry => entry.1 = key).map Prod.snd = some value ↔ (key, value) ∈ entries := by
  rw [Option.map_eq_some_iff]
  constructor
  · rintro ⟨entry, found, rfl⟩
    have same : entry.1 = key := by simpa using List.find?_some found
    rw [← same]
    exact List.mem_of_find?_eq_some found
  · intro member
    cases found : entries.find? (fun entry => entry.1 = key) with
    | none => simpa using List.find?_eq_none.mp found _ member
    | some entry =>
      have same : entry.1 = key := by simpa using List.find?_some found
      have whole := List.inj_on_of_nodup_map unique (List.mem_of_find?_eq_some found) member same
      exact ⟨entry, rfl, by rw [whole]⟩

theorem lookup_foldl_insertNew {entries : List (K × V)} (unique : (entries.map Prod.fst).Nodup) {key : K} {value : V} :
    (entries.foldl insertNew ∅).lookup key = some value ↔ (key, value) ∈ entries := by
  rw [foldl_insertNew _ _ unique fun _ _ => Finmap.notMem_empty, lookup_foldl_assign _ _ _ unique, Finmap.lookup_empty,
    Option.or_none, find?_key unique]

theorem lookup_foldl_entries (order : Order K) (values table : Table K V) (key : K) :
    ((values.entries order).foldl assign table).lookup key = (values.lookup key).or (table.lookup key) := by
  have unique := entries_unique order values
  have found : ((values.entries order).find? fun entry => entry.1 = key).map Prod.snd = values.lookup key := by
    ext value
    rw [find?_key unique, mem_entries]
  rw [lookup_foldl_assign _ _ _ unique, found]

theorem rebuild_entries (order : Order K) (table : Table K V) :
    (table.entries order).foldl assign ∅ = table := by
  apply Finmap.ext_lookup
  intro key
  rw [lookup_foldl_entries, Finmap.lookup_empty, Option.or_none]

theorem rebuild_entries_new (order : Order K) (table : Table K V) :
    (table.entries order).foldl insertNew ∅ = table := by
  rw [foldl_insertNew _ _ (entries_unique order table) fun _ _ => Finmap.notMem_empty, rebuild_entries]

end Table

end Vanity
