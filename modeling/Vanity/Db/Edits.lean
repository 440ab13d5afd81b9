import Vanity.Db.Effects
import Vanity.Db.SetQueries

/-!
# Operations as edits

What the body of an operation can do: it looks at the keys it has checked and edits single keys, and
two stores that agree on the checked keys get the same reply and the same edits. The operations that
act on an unchecked key, or on all keys at once, are listed in `Op.direct`; each is a line or two of
code and needs no normal form.
-/

namespace Vanity.Db

inductive Edit where
  | put (key : Str) (value : Data)
  | bind (key : Str) (value : Data)
  | remove (key : Str)

namespace Edit

/-- `put` keeps the expiry time of the key, `bind` clears it. -/
def apply : Edit → Store → Store
  | .put key value, s => s.put key value
  | .bind key value, s => (s.put key value).clearExpiry key
  | .remove key, s => s.doExpire key

def value : Edit → Option Data
  | .put _ value | .bind _ value => some value
  | .remove _ => none

/-- Only a checked key keeps its expiry time when it gets a value. -/
def Within (checks : List Str) : Edit → Prop
  | .put key _ => key ∈ checks
  | .bind .. | .remove _ => True

end Edit

def applyAll (edits : List Edit) (s : Store) : Store := edits.foldl (fun s edit => edit.apply s) s

@[simp] theorem applyAll_nil (s : Store) : applyAll [] s = s := rfl

@[simp] theorem applyAll_cons (edit : Edit) (edits : List Edit) (s : Store) :
    applyAll (edit :: edits) s = applyAll edits (edit.apply s) := rfl

def Data.isEmpty : Data → Bool
  | .list l => l.isEmpty
  | .set s => decide (s = ∅)
  | .hash h => decide (h = ∅)
  | .str _ | .int _ | .float _ => false

def Reply.typeError : Reply → Bool
  | .int none | .float none | .length none | .set none | .setFlag none => true
  | .listSize (.error .notList) | .listElement (.error .notList) | .list (.error .notList) => true
  | .hash (.error .notHash) | .hashElement (.error .notHash) | .hashFlag (.error .notHash)
  | .hashSize (.error .notHash) | .hashFields (.error .notHash) | .hashElements (.error .notHash)
  | .hashMany (.error .notHash) => true
  | _ => false

def Store.SameAt (keys : List Str) (s t : Store) : Prop :=
  ∀ key ∈ keys, t.data.lookup key = s.data.lookup key ∧ t.expiryTimes.lookup key = s.expiryTimes.lookup key

namespace Op

def direct : Op → Bool
  | .reset | .del _ | .moveTo .. | .setExpiry .. | .clearExpiry _ | .clearAllExpiry => true
  | _ => false

/-- A missing key that `hash_update` is about to bind to a string. -/
def updatesMissing (s : Store) : Op → Prop
  | .hashUpdate key _ => s.data.lookup key = none
  | _ => False

def bindsEmpty (s : Store) : Op → Prop
  | .hashSet _ values => values = ∅
  | .setUnionInto _ ks => unionOf s ks = some ∅
  | .setIntersectionInto _ ks => intersectionOf s ks = some ∅
  | .setDifferenceInto _ key1 key2 => differenceOf s key1 key2 = some ∅
  | _ => False

end Op

/-- What the edits of a call are like: a type error makes none, and an empty collection is stored
only where it was before or where the call has computed or received one. -/
structure Post (op : Op) (s : Store) (reply : Reply) (edits : List Edit) : Prop where
  error : reply.typeError = true → op.updatesMissing s ∨ edits = []
  filled : ∀ edit ∈ edits, ∀ value, edit.value = some value → value.isEmpty = true →
    (∃ key, s.data.lookup key = some value) ∨ (op.bindsEmpty s ∧ ∀ l, value ≠ .list l)

def Outcome (checks : List Str) (post : Reply → List Edit → Prop) (s t : Store)
    (here there : Option (Reply × Store)) : Prop :=
  (here = none ∧ there = none) ∨
    ∃ reply edits, here = some (reply, applyAll edits s) ∧ there = some (reply, applyAll edits t) ∧
      (∀ edit ∈ edits, edit.Within checks) ∧ post reply edits

def Operation.Uniform (operation : Operation Reply) (op : Op) : Prop :=
  ∀ s t, Store.SameAt operation.checks s t →
    Outcome operation.checks (Post op s) s t (operation.body s) (operation.body t)

theorem Store.contains_eq (s : Store) (key : Str) : s.contains key = (s.data.lookup key).isSome := by
  cases found : s.data.lookup key with
  | none => simpa [contains] using Finmap.lookup_eq_none.mp found
  | some value => simpa [contains] using Table.mem_of_lookup found

theorem Store.put_put (s : Store) (key : Str) (first second : Data) :
    (s.put key first).put key second = s.put key second := by
  simp [put, Finmap.insert_insert]

/-! ### Outcomes -/

section
variable {checks : List Str} {op : Op} {s t : Store} {key : Str}

theorem Outcome.same (reply : Reply) : Outcome checks (Post op s) s t (some (reply, s)) (some (reply, t)) :=
  .inr ⟨reply, [], rfl, rfl, by simp, fun _ => .inr rfl, by simp⟩

theorem Outcome.edit (reply : Reply) (edit : Edit) (within : edit.Within checks) (fine : reply.typeError = false)
    (filled : ∀ value, edit.value = some value → value.isEmpty = true →
      (∃ key, s.data.lookup key = some value) ∨ (op.bindsEmpty s ∧ ∀ l, value ≠ .list l)) :
    Outcome checks (Post op s) s t (some (reply, edit.apply s)) (some (reply, edit.apply t)) := by
  refine .inr ⟨reply, [edit], rfl, rfl, by simpa using within, fun error => ?_, by simpa using filled⟩
  rw [fine] at error
  cases error

theorem Outcome.put (reply : Reply) {value : Data} (within : key ∈ checks) (fine : reply.typeError = false)
    (filled : value.isEmpty = false) :
    Outcome checks (Post op s) s t (some (reply, s.put key value)) (some (reply, t.put key value)) := by
  refine .edit reply (.put key value) within fine fun stored same empty => ?_
  obtain rfl := Option.some.inj same
  rw [filled] at empty
  cases empty

theorem Outcome.bind (reply : Reply) {value : Data} (fine : reply.typeError = false)
    (filled : value.isEmpty = false) :
    Outcome checks (Post op s) s t (some (reply, (s.put key value).clearExpiry key))
      (some (reply, (t.put key value).clearExpiry key)) := by
  refine .edit reply (.bind key value) trivial fine fun stored same empty => ?_
  obtain rfl := Option.some.inj same
  rw [filled] at empty
  cases empty

theorem Outcome.remove (reply : Reply) (fine : reply.typeError = false) :
    Outcome checks (Post op s) s t (some (reply, s.doExpire key)) (some (reply, t.doExpire key)) :=
  .edit reply (.remove key) trivial fine fun _ none => by cases none

theorem Outcome.putOrDel (reply : Reply) (l : ListT) (within : key ∈ checks) (fine : reply.typeError = false) :
    Outcome checks (Post op s) s t (some (reply, s.putOrDel key l)) (some (reply, t.putOrDel key l)) := by
  unfold Store.putOrDel
  split
  · exact .remove reply fine
  · rename_i filled
    exact .put reply within fine (by simpa [Data.isEmpty] using filled)

theorem Outcome.putSetOrDel (reply : Reply) (set : SetT) (within : key ∈ checks) (fine : reply.typeError = false) :
    Outcome checks (Post op s) s t (some (reply, s.putSetOrDel key set)) (some (reply, t.putSetOrDel key set)) := by
  unfold Store.putSetOrDel
  split
  · exact .remove reply fine
  · rename_i filled
    exact .put reply within fine (by simpa [Data.isEmpty] using filled)

theorem Outcome.move {source dest : Str} (reply : Reply) (filled left : SetT) (fromSource : source ∈ checks)
    (toDest : dest ∈ checks) (fine : reply.typeError = false) (nonempty : filled ≠ ∅) :
    Outcome checks (Post op s) s t (some (reply, (s.put dest (.set filled)).putSetOrDel source left))
      (some (reply, (t.put dest (.set filled)).putSetOrDel source left)) := by
  have stored : (Data.set filled).isEmpty = false := by simpa [Data.isEmpty] using nonempty
  by_cases none : left = ∅
  · refine .inr ⟨reply, [.put dest (.set filled), .remove source], ?_, ?_, ?_, ?_, ?_⟩
    · simp [Store.putSetOrDel, none, Edit.apply]
    · simp [Store.putSetOrDel, none, Edit.apply]
    · simp [Edit.Within, toDest]
    · simp [fine]
    · simp [Edit.value, stored]
  · have kept : (Data.set left).isEmpty = false := by simpa [Data.isEmpty] using none
    refine .inr ⟨reply, [.put dest (.set filled), .put source (.set left)], ?_, ?_, ?_, ?_, ?_⟩
    · simp [Store.putSetOrDel, none, Edit.apply]
    · simp [Store.putSetOrDel, none, Edit.apply]
    · simp [Edit.Within, toDest, fromSource]
    · simp [fine]
    · simp [Edit.value, stored, kept]

end

/-! ### Reads -/

/-- A call whose reply is a function of the checked keys and which leaves the tables alone. -/
theorem uniform_read {op : Op} {checks : List Str} {read : Store → Reply}
    (blind : ∀ s t, Store.SameAt checks s t → read t = read s) :
    Operation.Uniform ⟨checks, fun s => some (read s, s)⟩ op := by
  intro s t same
  dsimp only
  rw [blind s t same]
  exact .same _

theorem gatherPresent_same {s t : Store} {keys : List Str} (same : Store.SameAt keys s t) :
    gatherPresent t keys = gatherPresent s keys := by
  induction keys with
  | nil => rfl
  | cons key keys ih =>
    have rest := ih fun other member => same other (List.mem_cons_of_mem _ member)
    simp only [gatherPresent, (same key List.mem_cons_self).1, rest]

theorem gatherAll_same {s t : Store} {keys : List Str} (same : Store.SameAt keys s t) :
    gatherAll t keys = gatherAll s keys := by
  induction keys with
  | nil => rfl
  | cons key keys ih =>
    have rest := ih fun other member => same other (List.mem_cons_of_mem _ member)
    simp only [gatherAll, (same key List.mem_cons_self).1, rest]

theorem unionOf_same {s t : Store} {keys : List Str} (same : Store.SameAt keys s t) :
    unionOf t keys = unionOf s keys := by
  rw [unionOf, gatherPresent_same same, unionOf]

theorem intersectionOf_same {s t : Store} {keys : List Str} (same : Store.SameAt keys s t) :
    intersectionOf t keys = intersectionOf s keys := by
  rw [intersectionOf, gatherAll_same same, intersectionOf]

theorem differenceOf_same {s t : Store} {key1 key2 : Str} (same : Store.SameAt [key1, key2] s t) :
    differenceOf t key1 key2 = differenceOf s key1 key2 := by
  rw [differenceOf, (same key1 (by simp)).1, (same key2 (by simp)).1, differenceOf]

/-! ### Operations on one key -/

theorem uniform_at {operation : Operation Reply} {op : Op} (key : Str) (checked : key ∈ operation.checks)
    (each : ∀ s t, t.data.lookup key = s.data.lookup key →
      Outcome operation.checks (Post op s) s t (operation.body s) (operation.body t)) : operation.Uniform op :=
  fun s t same => each s t (same key checked).1

theorem listLen_uniform (key : Str) {op : Op} : ((listLen key).map .listSize).Uniform op := by
  refine uniform_at key List.mem_cons_self fun s t read => ?_
  simp only [Operation.map, listLen, read]
  cases s.data.lookup key with
  | none => exact .same _
  | some value => cases value <;> exact .same _

theorem strLen_uniform (key : Str) {op : Op} : ((strLen key).map .length).Uniform op := by
  refine uniform_at key List.mem_cons_self fun s t read => ?_
  simp only [Operation.map, strLen, read]
  cases s.data.lookup key with
  | none => exact .same _
  | some value => cases value <;> exact .same _

theorem incrInt_uniform (key : Str) (n : Int64) {op : Op} : ((incrInt key n).map .int).Uniform op := by
  refine uniform_at key List.mem_cons_self fun s t read => ?_
  simp only [Operation.map, incrInt, read]
  cases s.data.lookup key with
  | none => exact .put _ List.mem_cons_self rfl rfl
  | some value =>
    cases value with
    | int => exact .put _ List.mem_cons_self rfl rfl
    | _ => exact .same _

theorem incrFloat_uniform (key : Str) (x : Float64) {op : Op} : ((incrFloat key x).map .float).Uniform op := by
  refine uniform_at key List.mem_cons_self fun s t read => ?_
  simp only [Operation.map, incrFloat, read]
  cases s.data.lookup key with
  | none => exact .put _ List.mem_cons_self rfl rfl
  | some value =>
    cases value with
    | float => exact .put _ List.mem_cons_self rfl rfl
    | _ => exact .same _

/-! ### Lists -/

theorem iteratorOrError_same {s t : Store} {key : Str} (read : t.data.lookup key = s.data.lookup key)
    (index : Int64) : iteratorOrError t key index = iteratorOrError s key index := by
  rw [iteratorOrError, read, iteratorOrError]

theorem iteratorOrError_inside {s : Store} {key : Str} {index : Int64} {l : ListT} {it : Nat}
    (found : iteratorOrError s key index = .ok (l, it)) : l ≠ [] := by
  unfold iteratorOrError at found
  split at found
  · cases found
  · rename_i stored _
    dsimp only at found
    split at found
    · cases found
    · rename_i inside
      obtain ⟨rfl, rfl⟩ := Prod.mk.inj (Except.ok.inj found)
      rintro rfl
      apply inside
      unfold iteratorOrEnd
      dsimp only
      split
      · rfl
      · split <;> rename_i h <;> simp at * <;> omega
  · cases found

theorem listGet_uniform (key : Str) (index : Int64) {op : Op} :
    ((listGet key index).map .listElement).Uniform op := by
  refine uniform_at key List.mem_cons_self fun s t read => ?_
  simp only [Operation.map, listGet, iteratorOrError_same read]
  cases iteratorOrError s key index with
  | error => exact .same _
  | ok => exact .same _

theorem listSet_uniform (key : Str) (index : Int64) (value : Str) {op : Op} :
    ((listSet key index value).map .listElement).Uniform op := by
  refine uniform_at key List.mem_cons_self fun s t read => ?_
  simp only [Operation.map, listSet, iteratorOrError_same read]
  cases found : iteratorOrError s key index with
  | error => exact .same _
  | ok pair =>
    have inside := iteratorOrError_inside found
    refine .put _ List.mem_cons_self rfl ?_
    simpa [Data.isEmpty] using inside

theorem listPush_uniform {join : ListT → ListT} (key : Str) {values : ListT}
    (filled : ∀ l, values ≠ [] → join l ≠ []) {op : Op} : ((listPush join key values).map .listSize).Uniform op := by
  refine uniform_at key List.mem_cons_self fun s t read => ?_
  simp only [Operation.map, listPush, Store.contains_eq, read]
  by_cases none : values = []
  · simp only [none, List.isEmpty_nil, if_true]
    exact .same _
  · have stored : ∀ l, (Data.list (join l)).isEmpty = false := fun l => by simpa [Data.isEmpty] using filled l none
    cases found : s.data.lookup key with
    | none =>
      simp only [none, List.isEmpty_iff, if_false, Option.isSome_none, Bool.false_eq_true, Store.put_lookup, if_true,
        Store.put_put, Option.map_some]
      exact .put _ List.mem_cons_self rfl (stored [])
    | some value =>
      rw [found] at read
      simp only [none, List.isEmpty_iff, if_false, Option.isSome_some, if_true, found, read]
      cases value with
      | list l => exact .put _ List.mem_cons_self rfl (stored l)
      | _ => exact .same _

theorem listPopLeft_uniform (key : Str) (n : Int64) {op : Op} : ((listPopLeft key n).map .list).Uniform op := by
  refine uniform_at key List.mem_cons_self fun s t read => ?_
  simp only [Operation.map, listPopLeft, read]
  cases s.data.lookup key with
  | none => exact .same _
  | some value =>
    cases value with
    | list l =>
      dsimp only
      split
      · exact .same _
      · exact .putOrDel _ _ List.mem_cons_self rfl
    | _ => exact .same _

theorem listPopRight_uniform (key : Str) (n : Int64) {op : Op} : ((listPopRight key n).map .list).Uniform op := by
  refine uniform_at key List.mem_cons_self fun s t read => ?_
  simp only [Operation.map, listPopRight, read]
  cases s.data.lookup key with
  | none => exact .same _
  | some value =>
    cases value with
    | list l =>
      dsimp only
      split
      · exact .same _
      · exact .putOrDel _ _ List.mem_cons_self rfl
    | _ => exact .same _

theorem listRange_uniform (key : Str) (start stop : Int64) {op : Op} :
    ((listRange key start stop).map .list).Uniform op := by
  refine uniform_at key List.mem_cons_self fun s t read => ?_
  simp only [Operation.map, listRange, read]
  cases s.data.lookup key with
  | none => exact .same _
  | some value =>
    cases value with
    | list l =>
      dsimp only
      split
      · exact .same _
      · cases slice l start stop with
        | none => exact .inl ⟨rfl, rfl⟩
        | some kept => exact .same _
    | _ => exact .same _

theorem listTrim_uniform (key : Str) (start stop : Int64) {op : Op} :
    ((listTrim key start stop).map .listSize).Uniform op := by
  refine uniform_at key List.mem_cons_self fun s t read => ?_
  simp only [Operation.map, listTrim, read]
  cases s.data.lookup key with
  | none => exact .same _
  | some value =>
    cases value with
    | list l =>
      dsimp only
      split
      · exact .same _
      · cases slice l start stop with
        | none => exact .inl ⟨rfl, rfl⟩
        | some kept => exact .putOrDel _ kept List.mem_cons_self rfl
    | _ => exact .same _

theorem listRemove_uniform (key element : Str) (count : Int64) {op : Op} :
    ((listRemove key element count).map .listSize).Uniform op := by
  refine uniform_at key List.mem_cons_self fun s t read => ?_
  simp only [Operation.map, listRemove, read]
  cases s.data.lookup key with
  | none => exact .same _
  | some value =>
    cases value with
    | list l =>
      dsimp only
      cases removed l element count with
      | none => exact .inl ⟨rfl, rfl⟩
      | some kept => exact .putOrDel _ kept List.mem_cons_self rfl
    | _ => exact .same _

/-! ### Sets -/

theorem setAdd_uniform (key : Str) (values : SetT) {op : Op} : ((setAdd key values).map .length).Uniform op := by
  refine uniform_at key List.mem_cons_self fun s t read => ?_
  simp only [Operation.map, setAdd, Store.contains_eq, read]
  by_cases none : values = ∅
  · simp only [none, if_true]
    exact .same _
  · have stored : ∀ set : SetT, (Data.set (set ∪ values)).isEmpty = false := fun set => by
      simp [Data.isEmpty, Finset.union_eq_empty, none]
    cases found : s.data.lookup key with
    | none =>
      simp only [none, if_false, Option.isSome_none, Bool.false_eq_true, Store.put_lookup, if_true, Store.put_put,
        Option.map_some]
      exact .put _ List.mem_cons_self rfl (stored ∅)
    | some value =>
      rw [found] at read
      simp only [none, if_false, Option.isSome_some, if_true, found, read]
      cases value with
      | set set => exact .put _ List.mem_cons_self rfl (stored set)
      | _ => exact .same _

theorem setAll_uniform (key : Str) {op : Op} : ((setAll key).map .set).Uniform op := by
  refine uniform_at key List.mem_cons_self fun s t read => ?_
  simp only [Operation.map, setAll, read]
  cases s.data.lookup key with
  | none => exact .same _
  | some value => cases value <;> exact .same _

theorem setRemove_uniform (env : Env) (key : Str) (count : UInt64) {op : Op} :
    ((setRemove env key count).map .set).Uniform op := by
  refine uniform_at key List.mem_cons_self fun s t read => ?_
  simp only [Operation.map, setRemove, read]
  cases s.data.lookup key with
  | none => exact .same _
  | some value =>
    cases value with
    | set set => exact .putSetOrDel _ _ List.mem_cons_self rfl
    | _ => exact .same _

theorem setDiscard_uniform (env : Env) (key : Str) (values : SetT) {op : Op} :
    ((setDiscard env key values).map .length).Uniform op := by
  refine uniform_at key List.mem_cons_self fun s t read => ?_
  simp only [Operation.map, setDiscard, read]
  cases s.data.lookup key with
  | none => exact .same _
  | some value =>
    cases value with
    | set set => exact .putSetOrDel _ _ List.mem_cons_self rfl
    | _ => exact .same _

theorem setLen_uniform (key : Str) {op : Op} : ((setLen key).map .length).Uniform op := by
  refine uniform_at key List.mem_cons_self fun s t read => ?_
  simp only [Operation.map, setLen, read]
  cases s.data.lookup key with
  | none => exact .same _
  | some value => cases value <;> exact .same _

theorem setContains_uniform (key value : Str) {op : Op} : ((setContains key value).map .setFlag).Uniform op := by
  refine uniform_at key List.mem_cons_self fun s t read => ?_
  simp only [Operation.map, setContains, read]
  cases s.data.lookup key with
  | none => exact .same _
  | some stored => cases stored <;> exact .same _

theorem Store.put_comm (s : Store) {key other : Str} (different : key ≠ other) (first second : Data) :
    (s.put key first).put other second = (s.put other second).put key first := by
  apply ext_lookup
  · intro at_
    by_cases same : at_ = key
    · simp [same, different]
    · simp [same]
  · intro at_
    rfl

theorem Store.put_doExpire (s : Store) (key : Str) (value : Data) : (s.put key value).doExpire key = s.doExpire key := by
  apply ext_lookup
  · intro other
    by_cases same : other = key <;> simp [same]
  · intro other
    rfl

/-- What the steps of `set_move` come to: the destination gains the element and the source loses it. -/
theorem moveElement_eq {s : Store} {source dest value : Str} {set : SetT}
    (stored : s.data.lookup source = some (.set set)) (member : value ∈ set) :
    s.moveElement source dest value set =
      if source = dest then (some true, s.put source (.set set))
      else match s.data.lookup dest with
        | none | some (.set _) =>
          (some true, (s.put dest (.set (insert value (s.elements dest)))).putSetOrDel source (set.erase value))
        | some _ => (none, s) := by
  by_cases same : source = dest
  · subst same
    have nonempty : set ≠ ∅ := Finset.ne_empty_of_mem member
    simp [Store.moveElement, Store.contains_eq, stored, Store.put_put, Finset.insert_erase member, nonempty]
  · have other : ¬dest = source := fun equal => same equal.symm
    have moved : ∀ (destSet : SetT),
        (if set.erase value = ∅ then
          (((s.put source (.set (set.erase value))).put dest (.set (insert value destSet))).expiryAwareDel source).2
        else (s.put source (.set (set.erase value))).put dest (.set (insert value destSet))) =
        (s.put dest (.set (insert value destSet))).putSetOrDel source (set.erase value) := by
      intro destSet
      rw [Store.put_comm s same, Store.putSetOrDel]
      split
      · rw [Store.expiryAwareDel_store, Store.expiryAwareDel_store, Store.put_doExpire]
      · rfl
    cases found : s.data.lookup dest with
    | none =>
      simpa [Store.moveElement, Store.contains_eq, found, same, Store.elements, Store.put_comm s other, Store.put_put]
        using moved ∅
    | some held =>
      cases held with
      | set held => simp [Store.moveElement, Store.contains_eq, found, same, other, Store.elements, ← moved]
      | _ => simp [Store.moveElement, Store.contains_eq, found, same]

theorem setMove_uniform (source dest value : Str) {op : Op} :
    ((setMove source dest value).map .setFlag).Uniform op := by
  intro s t same
  have read := (same source (by simp [setMove])).1
  have readDest := (same dest (by simp [setMove])).1
  simp only [Operation.map, setMove, read]
  cases stored : s.data.lookup source with
  | none => exact .same _
  | some held =>
    cases held with
    | set set =>
      dsimp only
      split
      · rename_i member
        rw [moveElement_eq stored member, moveElement_eq (read.trans stored) member, readDest]
        have there : t.elements dest = s.elements dest := by rw [Store.elements, readDest, Store.elements]
        rw [there]
        by_cases equal : source = dest
        · simp only [equal, if_true]
          exact .put _ (by simp) rfl (by simp [Data.isEmpty, Finset.ne_empty_of_mem member])
        · simp only [equal, if_false]
          have moved : ∀ filled : SetT, filled ≠ ∅ → Outcome [source, dest] (Post op s) s t
              (some (.setFlag (some true), (s.put dest (.set filled)).putSetOrDel source (set.erase value)))
              (some (.setFlag (some true), (t.put dest (.set filled)).putSetOrDel source (set.erase value))) :=
            fun filled nonempty => .move _ filled _ (by simp) (by simp) rfl nonempty
          cases s.data.lookup dest with
          | none => exact moved _ (by simp)
          | some held =>
            cases held with
            | set => exact moved _ (by simp)
            | _ => exact .same _
      · exact .same _
    | _ => exact .same _

theorem setQuery_uniform {checks : List Str} {eval : Store → Option SetT} {op : Op}
    (blind : ∀ s t, Store.SameAt checks s t → eval t = eval s) : ((setQuery checks eval).map .set).Uniform op :=
  uniform_read fun s t same => by rw [blind s t same]

theorem setQueryLen_uniform {checks : List Str} {eval : Store → Option SetT} {op : Op}
    (blind : ∀ s t, Store.SameAt checks s t → eval t = eval s) : ((setQueryLen checks eval).map .length).Uniform op :=
  uniform_read fun s t same => by rw [blind s t same]

theorem setQueryInto_uniform {checks : List Str} {eval : Store → Option SetT} {dest : Str} {op : Op}
    (blind : ∀ s t, Store.SameAt checks s t → eval t = eval s)
    (binds : ∀ s, eval s = some ∅ → op.bindsEmpty s) :
    ((setQueryInto checks eval dest).map .length).Uniform op := by
  intro s t same
  simp only [Operation.map, setQueryInto, blind s t same]
  cases computed : eval s with
  | none => exact .same _
  | some set =>
    refine .edit _ (.bind dest (.set set)) trivial rfl fun value stored empty => .inr ⟨?_, ?_⟩
    · obtain rfl := Option.some.inj stored
      have none : set = ∅ := by simpa [Data.isEmpty] using empty
      exact binds s (none ▸ computed)
    · obtain rfl := Option.some.inj stored
      intro l equal
      cases equal

/-! ### Hashes -/

theorem hashQuery_uniform {α : Type} (key : Str) (missing : Except HashError α) (read : HashT → Except HashError α)
    (wrap : Except HashError α → Reply) {op : Op} : ((hashQuery key missing read).map wrap).Uniform op := by
  refine uniform_at key List.mem_cons_self fun s t same => ?_
  simp only [Operation.map, hashQuery, same]
  cases s.data.lookup key with
  | none => exact .same _
  | some value => cases value <;> exact .same _

theorem hashSet_uniform (key : Str) (values : HashT) :
    ((hashSet key values).map fun _ => .done).Uniform (.hashSet key values) := by
  intro s t same
  refine .edit .done (.bind key (.hash values)) trivial rfl fun value stored empty => .inr ⟨?_, ?_⟩
  · obtain rfl := Option.some.inj stored
    have none : values = ∅ := of_decide_eq_true empty
    exact none
  · obtain rfl := Option.some.inj stored
    intro l equal
    cases equal

theorem hashRemove_uniform (env : Env) (key : Str) (fields : List Str) {op : Op} :
    ((hashRemove env key fields).map .hashSize).Uniform op := by
  refine uniform_at key List.mem_cons_self fun s t read => ?_
  simp only [Operation.map, hashRemove, read]
  cases s.data.lookup key with
  | none => exact .same _
  | some value =>
    cases value with
    | hash hash =>
      dsimp only [Option.map_some]
      split
      · exact .remove _ rfl
      · rename_i left
        exact .put _ List.mem_cons_self rfl (by simpa [Data.isEmpty] using left)
    | _ => exact .same _

theorem updateLoop_empty {hash : HashT} {entries : List (Str × Str)} (empty : updateLoop hash entries = ∅) :
    hash = ∅ := by
  have lost : ∀ (h : HashT) field value, h.insert field value ≠ ∅ := by
    intro h field value none
    have bound := Finmap.lookup_insert (a := field) (b := value) h
    rw [none] at bound
    cases bound
  induction entries generalizing hash with
  | nil => exact empty
  | cons entry rest ih =>
    obtain ⟨field, value⟩ := entry
    rw [updateLoop] at empty
    split at empty
    · exact absurd (ih empty) (lost _ _ _)
    · exact absurd empty (lost _ _ _)

theorem hashUpdate_uniform (env : Env) (key : Str) (values : HashT) :
    ((hashUpdate env key values).map .hashSize).Uniform (.hashUpdate key values) := by
  refine uniform_at key List.mem_cons_self fun s t read => ?_
  simp only [Operation.map, hashUpdate, Store.contains_eq, read]
  cases found : s.data.lookup key with
  | none =>
    simp only [Option.isSome_none, Bool.false_eq_true, if_false, Store.put_lookup, if_true, Option.map_some]
    refine .inr ⟨_, [.put key (.str [])], rfl, rfl, by simp [Edit.Within], fun _ => .inl found, ?_⟩
    simp [Edit.value, Data.isEmpty]
  | some value =>
    rw [found] at read
    simp only [Option.isSome_some, if_true, found, read]
    cases value with
    | hash hash =>
      refine .edit _ (.put key (.hash _)) List.mem_cons_self rfl fun value stored empty => .inl ⟨key, ?_⟩
      obtain rfl := Option.some.inj stored
      have none := of_decide_eq_true empty
      rw [found, none, updateLoop_empty none]
    | _ => exact .same _

/-! ### Every call -/

theorem copyTo_uniform (source dest : Str) {op : Op} : ((copyTo source dest).map .flag).Uniform op := by
  refine uniform_at source List.mem_cons_self fun s t read => ?_
  simp only [Operation.map, copyTo, read]
  cases stored : s.data.lookup source with
  | none => exact .same _
  | some value =>
    dsimp only [Option.map_some]
    split
    · exact .same _
    · refine .edit _ (.bind dest value) trivial rfl fun held same _ => .inl ⟨source, ?_⟩
      rw [stored, Option.some.inj same]

theorem here_uniform {env : Env} {op : Op} {operation : Operation Reply} (here : op.action env = .here operation)
    (plain : op.direct = false) : operation.Uniform op := by
  cases op with
  | has key =>
    obtain rfl := Action.here.inj here
    exact uniform_read fun s t same => by rw [Store.contains_eq, (same key List.mem_cons_self).1, Store.contains_eq]
  | get key =>
    obtain rfl := Action.here.inj here
    exact uniform_read fun s t same => by rw [(same key List.mem_cons_self).1]
  | type key =>
    obtain rfl := Action.here.inj here
    exact uniform_read fun s t same => by rw [(same key List.mem_cons_self).1]
  | getExpiry key =>
    obtain rfl := Action.here.inj here
    exact uniform_read fun s t same => by rw [(same key List.mem_cons_self).2]
  | copyTo source dest => obtain rfl := Action.here.inj here; exact copyTo_uniform source dest
  | strSet | intSet | floatSet => obtain rfl := Action.here.inj here; exact fun s t _ => .bind .done rfl rfl
  | incrInt key n => obtain rfl := Action.here.inj here; exact incrInt_uniform key n
  | incrFloat key x => obtain rfl := Action.here.inj here; exact incrFloat_uniform key x
  | strLen key => obtain rfl := Action.here.inj here; exact strLen_uniform key
  | listLen key => obtain rfl := Action.here.inj here; exact listLen_uniform key
  | listGet key index => obtain rfl := Action.here.inj here; exact listGet_uniform key index
  | listSet key index value => obtain rfl := Action.here.inj here; exact listSet_uniform key index value
  | listPushLeft key values => obtain rfl := Action.here.inj here; exact listPush_uniform key fun l some => by simp [some]
  | listPushRight key values => obtain rfl := Action.here.inj here; exact listPush_uniform key fun l some => by simp [some]
  | listPopLeft key n => obtain rfl := Action.here.inj here; exact listPopLeft_uniform key n
  | listPopRight key n => obtain rfl := Action.here.inj here; exact listPopRight_uniform key n
  | listRange key start stop => obtain rfl := Action.here.inj here; exact listRange_uniform key start stop
  | listTrim key start stop => obtain rfl := Action.here.inj here; exact listTrim_uniform key start stop
  | listRemove key element count => obtain rfl := Action.here.inj here; exact listRemove_uniform key element count
  | setAdd key values => obtain rfl := Action.here.inj here; exact setAdd_uniform key values
  | setAll key => obtain rfl := Action.here.inj here; exact setAll_uniform key
  | setRemove key count => obtain rfl := Action.here.inj here; exact setRemove_uniform env key count
  | setDiscard key values => obtain rfl := Action.here.inj here; exact setDiscard_uniform env key values
  | setLen key => obtain rfl := Action.here.inj here; exact setLen_uniform key
  | setContains key value => obtain rfl := Action.here.inj here; exact setContains_uniform key value
  | setMove source dest value => obtain rfl := Action.here.inj here; exact setMove_uniform source dest value
  | setUnion => obtain rfl := Action.here.inj here; exact setQuery_uniform fun s t => unionOf_same
  | setUnionLen => obtain rfl := Action.here.inj here; exact setQueryLen_uniform fun s t => unionOf_same
  | setIntersection => obtain rfl := Action.here.inj here; exact setQuery_uniform fun s t => intersectionOf_same
  | setIntersectionLen => obtain rfl := Action.here.inj here; exact setQueryLen_uniform fun s t => intersectionOf_same
  | setDifference => obtain rfl := Action.here.inj here; exact setQuery_uniform fun s t => differenceOf_same
  | setDifferenceLen => obtain rfl := Action.here.inj here; exact setQueryLen_uniform fun s t => differenceOf_same
  | setUnionInto =>
    obtain rfl := Action.here.inj here
    exact setQueryInto_uniform (fun s t => unionOf_same) fun s empty => empty
  | setIntersectionInto =>
    obtain rfl := Action.here.inj here
    exact setQueryInto_uniform (fun s t => intersectionOf_same) fun s empty => empty
  | setDifferenceInto =>
    obtain rfl := Action.here.inj here
    exact setQueryInto_uniform (fun s t => differenceOf_same) fun s empty => empty
  | hashSet key values => obtain rfl := Action.here.inj here; exact hashSet_uniform key values
  | hashAll | hashGet | hashContains | hashLen | hashKeyLen | hashKeys | hashValues | hashManyGet =>
    obtain rfl := Action.here.inj here
    exact hashQuery_uniform _ _ _ _
  | hashRemove key fields => obtain rfl := Action.here.inj here; exact hashRemove_uniform env key fields
  | hashUpdate key values => obtain rfl := Action.here.inj here; exact hashUpdate_uniform env key values
  | reset | del | moveTo | setExpiry | clearExpiry | clearAllExpiry => cases plain
  | _ => cases here

end Vanity.Db
