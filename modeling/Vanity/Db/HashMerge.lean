import Vanity.Db.Checks

/-!
# Merging into a hash

What `hash_update` leaves. The first new field takes the iterator with it into the stored hash, so the
fields behind it in the order of the loop are never visited.
-/

namespace Vanity.Db

/-- The entries behind the first one whose field the hash does not have. -/
def unvisited (hash : HashT) (entries : List (Str × Str)) : List (Str × Str) :=
  (entries.dropWhile fun entry => decide (entry.1 ∈ hash)).tail

/-- The stored hash takes all fields of `values` and keeps its others, and the result counts the new ones. -/
def Merges (env : Env) (db : Database) (key : Str) (hash values : HashT) (expiry : Option Time) : Prop :=
  ∃ merged : HashT, (∀ field, merged.lookup field = (values.lookup field).or (hash.lookup field)) ∧
    (hashUpdate env key values).Answers env db key (.ok (values.keys \ hash.keys).card) (some (.hash merged)) expiry

section
variable {hash values : HashT} {field value : Str} {entry : Str × Str} {rest entries : List (Str × Str)}

theorem mem_insert_present (present : field ∈ hash) (other : Str) :
    other ∈ hash.insert field value ↔ other ∈ hash := by
  rw [Finmap.mem_insert]
  constructor
  · rintro (rfl | bound)
    · exact present
    · exact bound
  · exact .inr

theorem unvisited_present (present : entry.1 ∈ hash) :
    unvisited hash (entry :: rest) = unvisited (hash.insert entry.1 entry.2) rest := by
  have same : (fun other : Str × Str => decide (other.1 ∈ hash.insert entry.1 entry.2)) =
      fun other => decide (other.1 ∈ hash) := by
    funext other
    rw [decide_eq_decide, mem_insert_present present]
  rw [unvisited, unvisited, same, List.dropWhile_cons_of_pos (by simpa using present)]

theorem unvisited_new (new : entry.1 ∉ hash) : unvisited hash (entry :: rest) = rest := by
  rw [unvisited, List.dropWhile_cons_of_neg (by simpa using new), List.tail_cons]

theorem mem_of_unvisited (member : entry ∈ unvisited hash entries) : entry ∈ entries :=
  (List.dropWhile_suffix _).subset (List.mem_of_mem_tail member)

theorem find_none_of_notMem (absent : field ∉ entries.map Prod.fst) :
    entries.find? (fun other => other.1 = field) = none := by
  apply List.find?_eq_none.mpr
  intro other member same
  exact absent (List.mem_map.mpr ⟨other, member, by simpa using same⟩)

/-- A field behind the first new one keeps its old value; every other one gets its new value. -/
theorem updateLoop_lookup (unique : (entries.map Prod.fst).Nodup) (field : Str) :
    (updateLoop hash entries).lookup field =
      if field ∈ (unvisited hash entries).map Prod.fst then hash.lookup field
      else ((entries.find? fun entry => entry.1 = field).map Prod.snd).or (hash.lookup field) := by
  induction entries generalizing hash with
  | nil => simp [updateLoop, unvisited]
  | cons entry rest ih =>
    rw [List.map_cons, List.nodup_cons] at unique
    rw [updateLoop, List.find?_cons]
    by_cases present : entry.1 ∈ hash
    · rw [if_pos present, ih unique.2, ← unvisited_present present, Table.lookup_insert_eq]
      by_cases same : field = entry.1
      · subst same
        have behind : entry.1 ∉ (unvisited hash (entry :: rest)).map Prod.fst := by
          rw [unvisited_present present]
          intro member
          obtain ⟨other, later, equal⟩ := List.mem_map.mp member
          exact unique.1 (List.mem_map.mpr ⟨other, mem_of_unvisited later, equal⟩)
        simp [behind, find_none_of_notMem unique.1]
      · simp [same, Ne.symm same]
    · rw [if_neg present, unvisited_new present, Table.lookup_insert_eq]
      by_cases same : field = entry.1
      · subst same
        simp [unique.1]
      · by_cases later : field ∈ rest.map Prod.fst
        · simp [same, later]
        · simp [same, Ne.symm same, later, find_none_of_notMem later]

theorem find_entries (order : Order Str) (values : HashT) (field : Str) :
    ((values.entries order).find? fun entry => entry.1 = field).map Prod.snd = values.lookup field := by
  have filled := Table.lookup_foldl_assign (values.entries order) ∅ field (Table.entries_unique order values)
  rw [Table.rebuild_entries, Finmap.lookup_empty, Option.or_none] at filled
  exact filled.symm

/-- The loop merges exactly if it misses only fields that already have their values. -/
theorem updateLoop_merges_iff (order : Order Str) :
    (∀ field, (updateLoop hash (values.entries order)).lookup field = (values.lookup field).or (hash.lookup field)) ↔
      ∀ entry ∈ unvisited hash (values.entries order), hash.lookup entry.1 = some entry.2 := by
  have unique := Table.entries_unique order values
  have new : ∀ entry ∈ unvisited hash (values.entries order), values.lookup entry.1 = some entry.2 :=
    fun entry member => Table.mem_entries.mp (mem_of_unvisited member)
  constructor
  · intro merged entry member
    have listed : entry.1 ∈ (unvisited hash (values.entries order)).map Prod.fst := List.mem_map_of_mem member
    have kept := merged entry.1
    rw [updateLoop_lookup unique, if_pos listed, new entry member, Option.some_or] at kept
    exact kept
  · intro held field
    rw [updateLoop_lookup unique, find_entries]
    split
    · rename_i listed
      obtain ⟨entry, member, rfl⟩ := List.mem_map.mp listed
      rw [held entry member, new entry member, Option.some_or]
    · rfl

theorem merged_card {merged : HashT}
    (merges : ∀ field, merged.lookup field = (values.lookup field).or (hash.lookup field)) :
    merged.keys.card - hash.keys.card = (values.keys \ hash.keys).card := by
  have bound : ∀ (table : HashT) field, field ∈ table.keys ↔ table.lookup field ≠ none := by
    intro table field
    rw [Finmap.mem_keys, ne_eq, Finmap.lookup_eq_none, not_not]
  have union : merged.keys = values.keys ∪ hash.keys := by
    ext field
    rw [Finset.mem_union, bound, bound, bound, merges]
    cases values.lookup field <;> simp
  have counted := Finset.card_sdiff_add_card values.keys hash.keys
  rw [union]
  omega

end

section
variable {env : Env} {db : Database} {key : Str} {hash : HashT} {expiry : Option Time}

theorem merges_iff_loop (values : HashT) (seen : db.view (env.now 0) key = (some (.hash hash), expiry)) :
    Merges env db key hash values expiry ↔ ∀ field,
      (updateLoop hash (values.entries env.order)).lookup field = (values.lookup field).or (hash.lookup field) := by
  have checked := Rebinds.checked seen
  have body : (hashUpdate env key values).body (db.eraseIfExpired (env.now 0) key).2.store =
      some (.ok ((updateLoop hash (values.entries env.order)).keys.card - hash.keys.card),
        (db.eraseIfExpired (env.now 0) key).2.store.put key (.hash (updateLoop hash (values.entries env.order)))) := by
    simp only [hashUpdate, Store.contains_eq, checked.value, Option.isSome_some, if_true]
  constructor
  · rintro ⟨merged, merges, answers⟩
    obtain ⟨t, same, rebinds⟩ := (Operation.answers_iff rfl).mp answers
    rw [body] at same
    obtain ⟨-, rfl⟩ := Prod.mk.inj (Option.some.inj same)
    have stored := (checked.put (.hash (updateLoop hash (values.entries env.order)))).value.symm.trans rebinds.value
    obtain rfl := Data.hash.inj (Option.some.inj stored)
    exact merges
  · intro merges
    refine ⟨_, merges, (Operation.answers_iff rfl).mpr ⟨_, ?_, checked.put _⟩⟩
    rw [body, merged_card merges]

/-- An update of a stored hash merges exactly if every field behind the first new one, in the order of the
loop, is already in the hash with the same value. -/
theorem merges_iff (values : HashT) (seen : db.view (env.now 0) key = (some (.hash hash), expiry)) :
    Merges env db key hash values expiry ↔
      ∀ entry ∈ unvisited hash (values.entries env.order), hash.lookup entry.1 = some entry.2 :=
  (merges_iff_loop values seen).trans (updateLoop_merges_iff env.order)

end

def oneField : HashT := (∅ : HashT).insert [97] [1]

def newFields : HashT := ((∅ : HashT).insert [98] [2]).insert [99] [3]

theorem oneField_merges :
    Merges (.frozen 0) (.holding [104] (.hash oneField)) [104] oneField newFields none ↔
      ∀ entry ∈ unvisited oneField (Table.entries (Env.frozen 0).order newFields),
        oneField.lookup entry.1 = some entry.2 :=
  merges_iff newFields (Database.holding_view ..)

/-- Of two new fields only one gets into the hash, in whatever order they are visited. -/
theorem newFields_lost : ¬Merges (.frozen 0) (.holding [104] (.hash oneField)) [104] oneField newFields none := by
  intro merges
  have held := (updateLoop_merges_iff _).mp ((merges_iff_loop newFields (Database.holding_view ..)).mp merges)
  have new : ∀ entry ∈ Table.entries (Env.frozen 0).order newFields, oneField.lookup entry.1 = none := by
    intro entry member
    have bound := Table.mem_entries.mp member
    rw [newFields, Table.lookup_insert_eq, Table.lookup_insert_eq] at bound
    have other : entry.1 ≠ [97] := by
      intro same
      simp [same] at bound
    rw [oneField, Table.lookup_insert_eq, if_neg other, Finmap.lookup_empty]
  have size : (Table.entries (Env.frozen 0).order newFields).length = 2 := Table.entries_length ..
  obtain ⟨first, second, listed⟩ := List.length_eq_two.mp size
  rw [listed] at held new
  rw [unvisited_new (Finmap.lookup_eq_none.mp (new first List.mem_cons_self))] at held
  have lost := held second List.mem_cons_self
  rw [new second (List.mem_cons_of_mem _ List.mem_cons_self)] at lost
  cases lost

end Vanity.Db
