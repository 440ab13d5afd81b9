import Vanity.Db.Calls

/-!
# What the operations touch

The effect of an operation on the tables, without its result: which operations only read, and which
change at most the key they are called with.
-/

namespace Vanity.Db

variable {α β : Type}

def Operation.effect (op : Operation α) (s : Store) : Option Store := (op.body s).map Prod.snd

@[simp] theorem Operation.map_effect (f : α → β) (op : Operation α) (s : Store) :
    (op.map f).effect s = op.effect s := by
  simp [effect, map, Function.comp_def]

@[simp] theorem Operation.map_checks (f : α → β) (op : Operation α) : (op.map f).checks = op.checks := rfl

def Operation.Keeps (op : Operation α) : Prop := ∀ s t, op.effect s = some t → t = s

/-- The operation changes at most one key, and does nothing without it. -/
structure Operation.Local (op : Operation α) (key : Str) : Prop where
  within : ∀ s t, op.effect s = some t → Store.SameExcept [key] s t
  inert : ∀ s, s.data.lookup key = none → op.effect s = some s

theorem Operation.Keeps.map {op : Operation α} (keeps : op.Keeps) (f : α → β) : (op.map f).Keeps := by
  intro s t effect
  rw [map_effect] at effect
  exact keeps s t effect

theorem Operation.Local.map {op : Operation α} {key : Str} (local_ : op.Local key) (f : α → β) :
    (op.map f).Local key where
  within s t effect := local_.within s t (by rwa [map_effect] at effect)
  inert s absent := by rw [map_effect, local_.inert s absent]

namespace Store

theorem SameExcept.refl (keys : List Str) (s : Store) : SameExcept keys s s := fun _ _ => ⟨rfl, rfl⟩

theorem sameExcept_put (s : Store) (key : Str) (value : Data) : SameExcept [key] s (s.put key value) := by
  intro other outside
  have different : other ≠ key := fun same => outside (List.mem_singleton.mpr same)
  simp [different]

theorem sameExcept_doExpire (s : Store) (key : Str) : SameExcept [key] s (s.doExpire key) := by
  intro other outside
  have different : other ≠ key := fun same => outside (List.mem_singleton.mpr same)
  simp [different]

theorem SameExcept.trans {keys : List Str} {s t u : Store} (first : SameExcept keys s t)
    (second : SameExcept keys t u) : SameExcept keys s u := fun other outside =>
  ⟨(first other outside).1.trans (second other outside).1, (first other outside).2.trans (second other outside).2⟩

theorem SameExcept.mono {keys more : List Str} {s t : Store} (same : SameExcept keys s t)
    (covered : keys ⊆ more) : SameExcept more s t :=
  fun other outside => same other fun member => outside (covered member)

theorem sameExcept_putOrDel (s : Store) (key : Str) (l : ListT) : SameExcept [key] s (s.putOrDel key l) := by
  unfold putOrDel
  split
  · exact sameExcept_doExpire s key
  · exact sameExcept_put s key _

theorem sameExcept_putSetOrDel (s : Store) (key : Str) (set : SetT) :
    SameExcept [key] s (s.putSetOrDel key set) := by
  unfold putSetOrDel
  split
  · exact sameExcept_doExpire s key
  · exact sameExcept_put s key _

end Store

/-! ### Operations that only read -/

theorem listLen_keeps (key : Str) : (listLen key).Keeps := by
  intro s t effect
  simp only [Operation.effect, listLen] at effect
  split at effect <;> simpa using effect.symm

theorem listGet_keeps (key : Str) (index : Int64) : (listGet key index).Keeps := by
  intro s t effect
  simp only [Operation.effect, listGet] at effect
  split at effect <;> simpa using effect.symm

theorem listRange_keeps (key : Str) (start stop : Int64) : (listRange key start stop).Keeps := by
  intro s t effect
  simp only [Operation.effect, listRange] at effect
  split at effect
  · simpa using effect.symm
  · split at effect
    · simpa using effect.symm
    · rw [Option.map_map, Option.map_eq_some_iff] at effect
      obtain ⟨kept, -, rfl⟩ := effect
      rfl
  · simpa using effect.symm

theorem strLen_keeps (key : Str) : (strLen key).Keeps := by
  intro s t effect
  simp only [Operation.effect, strLen] at effect
  split at effect <;> simpa using effect.symm

theorem setAll_keeps (key : Str) : (setAll key).Keeps := by
  intro s t effect
  simp only [Operation.effect, setAll] at effect
  split at effect <;> simpa using effect.symm

theorem setLen_keeps (key : Str) : (setLen key).Keeps := by
  intro s t effect
  simp only [Operation.effect, setLen] at effect
  split at effect <;> simpa using effect.symm

theorem setContains_keeps (key value : Str) : (setContains key value).Keeps := by
  intro s t effect
  simp only [Operation.effect, setContains] at effect
  split at effect <;> simpa using effect.symm

theorem hashQuery_keeps (key : Str) (missing : Except HashError α) (read : HashT → Except HashError α) :
    (hashQuery key missing read).Keeps := by
  intro s t effect
  simp only [Operation.effect, hashQuery] at effect
  split at effect <;> simpa using effect.symm

/-- A call that is not logged does not change the tables behind its checks. -/
theorem unlogged_keeps {env : Env} {op : Op} {operation : Operation Reply}
    (unlogged : op.kind.shouldWal = false) (here : op.action env = .here operation) : operation.Keeps := by
  have plain : ∀ {γ : Type} (read : Store → γ) (checks : List Str),
      (⟨checks, fun s => some (read s, s)⟩ : Operation γ).Keeps :=
    fun read checks s t effect => (Option.some.inj effect).symm
  cases op with
  | has | get | type | getExpiry | setUnion | setUnionLen | setIntersection | setIntersectionLen
  | setDifference | setDifferenceLen =>
    obtain rfl := Action.here.inj here
    exact Operation.Keeps.map (plain _ _) _
  | strLen key => obtain rfl := Action.here.inj here; exact (strLen_keeps key).map _
  | listLen key => obtain rfl := Action.here.inj here; exact (listLen_keeps key).map _
  | listGet key index => obtain rfl := Action.here.inj here; exact (listGet_keeps key index).map _
  | listRange key start stop => obtain rfl := Action.here.inj here; exact (listRange_keeps key start stop).map _
  | setAll key => obtain rfl := Action.here.inj here; exact (setAll_keeps key).map _
  | setLen key => obtain rfl := Action.here.inj here; exact (setLen_keeps key).map _
  | setContains key value => obtain rfl := Action.here.inj here; exact (setContains_keeps key value).map _
  | hashAll | hashGet | hashContains | hashLen | hashKeyLen | hashKeys | hashValues | hashManyGet =>
    obtain rfl := Action.here.inj here
    exact (hashQuery_keeps _ _ _).map _
  | keys | manyGet => cases here
  | _ => cases unlogged

theorem manyGetLoop_expired (now : Nat → Time) (keys : List Str) (db : Database) :
    ∃ expired, Database.Expired db (manyGetLoop now keys db).2 expired := by
  induction keys generalizing now db with
  | nil => exact ⟨[], .refl db⟩
  | cons key keys ih =>
    obtain ⟨expired, later⟩ := ih (fun i => now (i + 1)) (db.eraseIfExpired (now 0) key).2
    exact ⟨_, (Database.eraseIfExpired_expired db (now 0) key).trans later⟩

theorem manyGet_expired (keys : List Str) (env : Env) (db : Database) :
    ∃ expired, Database.Expired db (manyGet keys env db).2 expired := by
  obtain ⟨first, checked, -⟩ := Database.eraseEach_expired env.now keys db
  obtain ⟨second, read⟩ := manyGetLoop_expired (fun i => env.now (keys.length + i)) keys
    (db.eraseEach env.now keys)
  exact ⟨first ++ second, checked.trans read⟩

/-! ### Operations that shrink what one key holds -/

theorem listSet_local (key : Str) (index : Int64) (value : Str) : (listSet key index value).Local key where
  within s t effect := by
    simp only [Operation.effect, listSet] at effect
    split at effect
    · obtain rfl := Option.some.inj effect
      exact .refl _ s
    · obtain rfl := Option.some.inj effect
      exact s.sameExcept_put key _
  inert s absent := by simp [Operation.effect, listSet, iteratorOrError, absent]

theorem listPopLeft_local (key : Str) (n : Int64) : (listPopLeft key n).Local key where
  within s t effect := by
    simp only [Operation.effect, listPopLeft] at effect
    split at effect
    · obtain rfl := Option.some.inj effect
      exact .refl _ s
    · split at effect
      · obtain rfl := Option.some.inj effect
        exact .refl _ s
      · obtain rfl := Option.some.inj effect
        exact s.sameExcept_putOrDel key _
    · obtain rfl := Option.some.inj effect
      exact .refl _ s
  inert s absent := by simp [Operation.effect, listPopLeft, absent]

theorem listPopRight_local (key : Str) (n : Int64) : (listPopRight key n).Local key where
  within s t effect := by
    simp only [Operation.effect, listPopRight] at effect
    split at effect
    · obtain rfl := Option.some.inj effect
      exact .refl _ s
    · split at effect
      · obtain rfl := Option.some.inj effect
        exact .refl _ s
      · obtain rfl := Option.some.inj effect
        exact s.sameExcept_putOrDel key _
    · obtain rfl := Option.some.inj effect
      exact .refl _ s
  inert s absent := by simp [Operation.effect, listPopRight, absent]

theorem listTrim_local (key : Str) (start stop : Int64) : (listTrim key start stop).Local key where
  within s t effect := by
    simp only [Operation.effect, listTrim] at effect
    split at effect
    · obtain rfl := Option.some.inj effect
      exact .refl _ s
    · split at effect
      · obtain rfl := Option.some.inj effect
        exact .refl _ s
      · rw [Option.map_map, Option.map_eq_some_iff] at effect
        obtain ⟨kept, -, rfl⟩ := effect
        exact s.sameExcept_putOrDel key kept
    · obtain rfl := Option.some.inj effect
      exact .refl _ s
  inert s absent := by simp [Operation.effect, listTrim, absent]

theorem listRemove_local (key element : Str) (count : Int64) : (listRemove key element count).Local key where
  within s t effect := by
    simp only [Operation.effect, listRemove] at effect
    split at effect
    · obtain rfl := Option.some.inj effect
      exact .refl _ s
    · rw [Option.map_map, Option.map_eq_some_iff] at effect
      obtain ⟨kept, -, rfl⟩ := effect
      exact s.sameExcept_putOrDel key kept
    · obtain rfl := Option.some.inj effect
      exact .refl _ s
  inert s absent := by simp [Operation.effect, listRemove, absent]

theorem setRemove_local (env : Env) (key : Str) (count : UInt64) : (setRemove env key count).Local key where
  within s t effect := by
    simp only [Operation.effect, setRemove] at effect
    split at effect
    · obtain rfl := Option.some.inj effect
      exact .refl _ s
    · obtain rfl := Option.some.inj effect
      exact s.sameExcept_putSetOrDel key _
    · obtain rfl := Option.some.inj effect
      exact .refl _ s
  inert s absent := by simp [Operation.effect, setRemove, absent]

theorem setDiscard_local (env : Env) (key : Str) (values : SetT) : (setDiscard env key values).Local key where
  within s t effect := by
    simp only [Operation.effect, setDiscard] at effect
    split at effect
    · obtain rfl := Option.some.inj effect
      exact .refl _ s
    · obtain rfl := Option.some.inj effect
      exact s.sameExcept_putSetOrDel key _
    · obtain rfl := Option.some.inj effect
      exact .refl _ s
  inert s absent := by simp [Operation.effect, setDiscard, absent]

theorem hashRemove_local (env : Env) (key : Str) (fields : List Str) : (hashRemove env key fields).Local key where
  within s t effect := by
    simp only [Operation.effect, hashRemove] at effect
    split at effect
    · obtain rfl := Option.some.inj effect
      exact .refl _ s
    · obtain rfl := Option.some.inj effect
      dsimp only
      split
      · exact s.sameExcept_doExpire key
      · exact s.sameExcept_put key _
    · obtain rfl := Option.some.inj effect
      exact .refl _ s
  inert s absent := by simp [Operation.effect, hashRemove, absent]

/-! ### Trims and removals that stay inside the list -/

theorem listTrim_defined {key : Str} {start stop : Int64} {s : Store}
    (defined : ∀ l, s.data.lookup key = some (.list l) →
      isInvalidRange start stop = true ∨ (slice l start stop).isSome) :
    (((listTrim key start stop).map Reply.listSize).effect s).isSome := by
  rw [Operation.map_effect]
  simp only [Operation.effect, listTrim]
  split
  · rfl
  · rename_i l stored
    rcases defined l stored with invalid | cut
    · rw [if_pos invalid]
      rfl
    · split
      · rfl
      · simpa using cut
  · rfl

theorem listRemove_defined {key element : Str} {count : Int64} {s : Store}
    (defined : ∀ l, s.data.lookup key = some (.list l) → (removed l element count).isSome) :
    (((listRemove key element count).map Reply.listSize).effect s).isSome := by
  rw [Operation.map_effect]
  simp only [Operation.effect, listRemove]
  split
  · rfl
  · rename_i l stored
    simpa using defined l stored
  · rfl

/-! ### Moving an element -/

theorem moveElement_within (s : Store) (source dest value : Str) (set : SetT) :
    Store.SameExcept [source, dest] s (s.moveElement source dest value set).2 := by
  have atSource : ∀ (t : Store) v, Store.SameExcept [source, dest] t (t.put source v) := fun t v =>
    (t.sameExcept_put source v).mono (by simp)
  have atDest : ∀ (t : Store) v, Store.SameExcept [source, dest] t (t.put dest v) := fun t v =>
    (t.sameExcept_put dest v).mono (by simp)
  have created : Store.SameExcept [source, dest] s (if s.contains dest then s else s.put dest (.set ∅)) := by
    split
    · exact .refl _ s
    · exact atDest s _
  unfold Store.moveElement
  dsimp only
  split
  · split
    · split
      · dsimp only
        split
        · exact ((created.trans (atSource _ _)).trans (atDest _ _)).trans
            ((Store.sameExcept_doExpire _ source).mono (by simp))
        · exact (created.trans (atSource _ _)).trans (atDest _ _)
      · exact (created.trans (atSource _ _)).trans (atDest _ _)
    · exact created.trans (atSource _ _)
  · exact created

theorem setMove_within {s t : Store} {source dest value : Str}
    (effect : (setMove source dest value).effect s = some t) : Store.SameExcept [source, dest] s t := by
  simp only [Operation.effect, setMove] at effect
  split at effect
  · obtain rfl := Option.some.inj effect
    exact .refl _ s
  · split at effect
    · obtain rfl := Option.some.inj effect
      exact moveElement_within s source dest value _
    · obtain rfl := Option.some.inj effect
      exact .refl _ s
  · obtain rfl := Option.some.inj effect
    exact .refl _ s

theorem setMove_defined (s : Store) (source dest value : Str) :
    ∃ t, (setMove source dest value).effect s = some t := ⟨_, rfl⟩

theorem setMove_lacks {s : Store} {source value : Str} (dest : Str)
    (lacks : ∀ set, s.data.lookup source = some (.set set) → value ∉ set) :
    (setMove source dest value).effect s = some s := by
  simp only [Operation.effect, setMove, Option.map_some, Option.some.injEq]
  split
  · rfl
  · rename_i set stored
    rw [if_neg (lacks set stored)]
  · rfl

/-! ### Operations that take part of their result from the environment -/

theorem setDiscard_effect (env env' : Env) (key : Str) (values : SetT) (s : Store) :
    (setDiscard env' key values).effect s = (setDiscard env key values).effect s := by
  simp only [Operation.effect, setDiscard, Option.map_some, Option.some.injEq]
  split <;> rfl

theorem hashRemove_effect (env env' : Env) (key : Str) (fields : List Str) (s : Store) :
    (hashRemove env' key fields).effect s = (hashRemove env key fields).effect s := by
  simp only [Operation.effect, hashRemove, Option.map_some, Option.some.injEq]
  split <;> rfl

theorem hashUpdate_effect (env env' : Env) {key : Str} {values : HashT} {s : Store}
    (free : ∀ hash, s.data.lookup key = some (.hash hash) → OrderFree hash values) :
    (hashUpdate env' key values).effect s = (hashUpdate env key values).effect s := by
  simp only [Operation.effect, hashUpdate, Option.map_some, Option.some.injEq]
  by_cases present : s.contains key
  · simp only [present, if_true]
    split
    · rename_i hash stored
      rw [updateLoop_order (free hash stored) env'.order env.order]
    · rfl
  · simp [present]

end Vanity.Db
