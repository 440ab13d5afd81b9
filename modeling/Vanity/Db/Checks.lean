import Vanity.Db.EagerExpiry

/-!
# What the checks of an operation leave

An operation that checks a single key works on what can be seen of that key at the first reading of the
clock, and leaves that key with some value and some expiry time and every other key as it was. An
operation that checks several keys works on those that had not expired when their turn came.
-/

namespace Vanity.Db

/-- The key now has this value and this expiry time, every other key what it had. -/
structure Rebinds (before after : Database) (key : Str) (value : Option Data) (expiry : Option Time) : Prop where
  value : after.store.data.lookup key = value
  expiry : after.store.expiryTimes.lookup key = expiry
  others : Store.SameExcept [key] before.store after.store

/-- The call returns this result and rebinds the key. -/
def Operation.Answers {α : Type} (op : Operation α) (env : Env) (db : Database) (key : Str) (result : α)
    (value : Option Data) (expiry : Option Time) : Prop :=
  ∃ after, op.run env db = some (result, after) ∧ Rebinds db after key value expiry

section
variable {before after : Database} {key : Str} {value : Option Data} {expiry : Option Time}

theorem Rebinds.put (rebinds : Rebinds before after key value expiry) (v : Data) :
    Rebinds before { after with store := after.store.put key v } key (some v) expiry where
  value := by
    show (after.store.put key v).data.lookup key = some v
    rw [Store.put_lookup, if_pos rfl]
  expiry := rebinds.expiry
  others := rebinds.others.trans (after.store.sameExcept_put key v)

theorem Rebinds.doExpire (rebinds : Rebinds before after key value expiry) :
    Rebinds before { after with store := after.store.doExpire key } key none none where
  value := by
    show (after.store.doExpire key).data.lookup key = none
    rw [Store.doExpire_lookup, if_pos rfl]
  expiry := by
    show (after.store.doExpire key).expiryTimes.lookup key = none
    rw [Store.doExpire_expiry, if_pos rfl]
  others := rebinds.others.trans (after.store.sameExcept_doExpire key)

theorem Rebinds.putOrDel (rebinds : Rebinds before after key value expiry) (l : ListT) :
    Rebinds before { after with store := after.store.putOrDel key l } key
      (if l = [] then none else some (.list l)) (if l = [] then none else expiry) := by
  unfold Store.putOrDel
  by_cases empty : l = []
  · rw [if_pos empty, if_pos empty, if_pos (List.isEmpty_iff.mpr empty)]
    exact rebinds.doExpire
  · rw [if_neg empty, if_neg empty, if_neg fun none => empty (List.isEmpty_iff.mp none)]
    exact rebinds.put (.list l)

theorem Rebinds.putSetOrDel (rebinds : Rebinds before after key value expiry) (set : SetT) :
    Rebinds before { after with store := after.store.putSetOrDel key set } key
      (if set = ∅ then none else some (.set set)) (if set = ∅ then none else expiry) := by
  unfold Store.putSetOrDel
  by_cases empty : set = ∅
  · rw [if_pos empty, if_pos empty, if_pos empty]
    exact rebinds.doExpire
  · rw [if_neg empty, if_neg empty, if_neg empty]
    exact rebinds.put (.set set)

end

section
variable {α : Type} {op : Operation α} {env : Env} {db : Database} {key : Str} {result : α}
  {value : Option Data} {expiry : Option Time}

/-- The check of a key leaves what its view shows. -/
theorem eraseIfExpired_rebinds (db : Database) (now : Time) (key : Str) :
    Rebinds db (db.eraseIfExpired now key).2 key (db.view now key).1 (db.view now key).2 := by
  unfold Database.eraseIfExpired
  cases gone : db.isExpired now key with
  | true =>
    have before : Rebinds db db key _ _ := ⟨rfl, rfl, .refl _ _⟩
    have erased := before.doExpire
    rw [Database.view_expired gone, if_pos rfl]
    exact ⟨erased.value, erased.expiry, erased.others⟩
  | false =>
    rw [Database.view_fresh gone, if_neg Bool.false_ne_true]
    exact ⟨rfl, rfl, .refl _ _⟩

theorem Rebinds.checked (seen : db.view (env.now 0) key = (value, expiry)) :
    Rebinds db (db.eraseIfExpired (env.now 0) key).2 key value expiry := by
  have rebinds := eraseIfExpired_rebinds db (env.now 0) key
  rwa [seen] at rebinds

theorem Operation.run_checked (checks : op.checks = [key]) :
    op.run env db = (op.body (db.eraseIfExpired (env.now 0) key).2.store).map fun outcome =>
      (outcome.1, { (db.eraseIfExpired (env.now 0) key).2 with store := outcome.2 }) := by
  have checked : db.eraseEach env.now op.checks = (db.eraseIfExpired (env.now 0) key).2 := by
    rw [checks]
    rfl
  simp only [run, checked]
  cases op.body (db.eraseIfExpired (env.now 0) key).2.store <;> rfl

theorem Operation.run_of_body {t : Store}
    (body : op.body (db.eraseEach env.now op.checks).store = some (result, t)) :
    op.run env db = some (result, { db.eraseEach env.now op.checks with store := t }) := by
  simp only [run, body]
  rfl

theorem Operation.answers_iff (checks : op.checks = [key]) :
    op.Answers env db key result value expiry ↔
      ∃ t, op.body (db.eraseIfExpired (env.now 0) key).2.store = some (result, t) ∧
        Rebinds db { (db.eraseIfExpired (env.now 0) key).2 with store := t } key value expiry := by
  rw [Answers, run_checked checks]
  constructor
  · rintro ⟨after, ran, rebinds⟩
    obtain ⟨⟨_, t⟩, body, same⟩ := Option.map_eq_some_iff.mp ran
    obtain ⟨rfl, rfl⟩ := Prod.mk.inj same
    exact ⟨t, body, rebinds⟩
  · rintro ⟨t, body, rebinds⟩
    exact ⟨_, by rw [body]; rfl, rebinds⟩

end

/-- A database with one key, which does not expire. -/
def Database.holding (key : Str) (value : Data) : Database :=
  { store := { data := (∅ : Table Str Data).insert key value } }

theorem Database.holding_view (key : Str) (value : Data) (now : Time) :
    (holding key value).view now key = (some value, none) := by
  have fresh : (holding key value).isExpired now key = false := by simp [holding, isExpired]
  rw [view_fresh fresh]
  simp [holding]

/-! ### Several keys -/

/-- The key has expired at one of the readings of the clock at which it is checked. -/
def Database.ExpiredAt (db : Database) (now : Nat → Time) (keys : List Str) (key : Str) : Prop :=
  ∃ n, keys[n]? = some key ∧ db.isExpired (now n) key = true

/-- Nothing but the given keys has changed, apart from the erasure of keys that have expired. -/
def Database.Leaves (db : Database) (now : Nat → Time) (keys touched : List Str) (after : Database) : Prop :=
  ∀ other, other ∉ touched →
    (db.ExpiredAt now keys other →
      after.store.data.lookup other = none ∧ after.store.expiryTimes.lookup other = none) ∧
    (¬db.ExpiredAt now keys other → after.store.data.lookup other = db.store.data.lookup other ∧
      after.store.expiryTimes.lookup other = db.store.expiryTimes.lookup other)

namespace Database

variable {db : Database} {now : Nat → Time} {keys : List Str} {key : Str}

theorem expiredAt_nil : ¬db.ExpiredAt now [] key := by
  rintro ⟨n, found, -⟩
  cases found

theorem expiredAt_cons {first : Str} :
    db.ExpiredAt now (first :: keys) key ↔
      (first = key ∧ db.isExpired (now 0) key = true) ∨ db.ExpiredAt (fun n => now (n + 1)) keys key := by
  constructor
  · rintro ⟨n, found, due⟩
    cases n with
    | zero => exact .inl ⟨Option.some.inj found, due⟩
    | succ n => exact .inr ⟨n, found, due⟩
  · rintro (⟨rfl, due⟩ | ⟨n, found, due⟩)
    · exact ⟨0, rfl, due⟩
    · exact ⟨n + 1, found, due⟩

theorem ExpiredAt.mem (expired : db.ExpiredAt now keys key) : key ∈ keys := by
  obtain ⟨n, found, -⟩ := expired
  exact List.mem_of_getElem? found

/-- On a clock that stands still a key expires wherever it stands in the list. -/
theorem expiredAt_still {t : Time} :
    db.ExpiredAt (fun _ => t) keys key ↔ key ∈ keys ∧ db.isExpired t key = true := by
  constructor
  · intro expired
    obtain ⟨n, found, due⟩ := expired
    exact ⟨List.mem_of_getElem? found, due⟩
  · rintro ⟨member, due⟩
    obtain ⟨n, found⟩ := List.mem_iff_getElem?.mp member
    exact ⟨n, found, due⟩

theorem eraseEach_leaves (db : Database) (now : Nat → Time) (keys : List Str) :
    db.Leaves now keys [] (db.eraseEach now keys) := by
  induction keys generalizing db now with
  | nil => exact fun other _ => ⟨fun expired => absurd expired expiredAt_nil, fun _ => ⟨rfl, rfl⟩⟩
  | cons key keys ih =>
    intro other outside
    obtain ⟨gone, kept⟩ := ih (db.eraseIfExpired (now 0) key).2 (fun n => now (n + 1)) other outside
    rw [expiredAt_cons, eraseEach]
    cases due : db.isExpired (now 0) key with
    | true =>
      rw [eraseIfExpired, if_pos due] at gone kept ⊢
      by_cases same : key = other
      · subst same
        have erased : ∀ t, (db.expire key).isExpired t key = false := by
          intro t
          simp [isExpired, expire]
        have never : ¬(db.expire key).ExpiredAt (fun n => now (n + 1)) keys key := by
          rintro ⟨n, -, again⟩
          rw [erased] at again
          cases again
        have left := kept never
        refine ⟨fun _ => ⟨left.1.trans ?_, left.2.trans ?_⟩, fun fresh => absurd (.inl ⟨rfl, due⟩) fresh⟩
        · simp [expire]
        · simp [expire]
      · have later : (db.expire key).ExpiredAt (fun n => now (n + 1)) keys other ↔
            db.ExpiredAt (fun n => now (n + 1)) keys other := by
          unfold ExpiredAt
          simp only [expire_isExpired (Ne.symm same)]
        rw [later] at gone kept
        constructor
        · rintro (⟨first, -⟩ | expired)
          · exact absurd first same
          · exact gone expired
        · intro fresh
          have left := kept fun expired => fresh (.inr expired)
          exact ⟨left.1.trans (by simp [expire, Ne.symm same]), left.2.trans (by simp [expire, Ne.symm same])⟩
    | false =>
      rw [eraseIfExpired, if_neg (by simp [due])] at gone kept ⊢
      constructor
      · rintro (⟨rfl, again⟩ | expired)
        · rw [due] at again
          cases again
        · exact gone expired
      · exact fun fresh => kept fun expired => fresh (.inr expired)

theorem Leaves.within {touched : List Str} {after : Database} {t : Store} (leaves : db.Leaves now keys [] after)
    (same : Store.SameExcept touched after.store t) : db.Leaves now keys touched { after with store := t } := by
  intro other outside
  obtain ⟨gone, kept⟩ := leaves other List.not_mem_nil
  obtain ⟨data, expiry⟩ := same other outside
  constructor
  · intro expired
    exact ⟨data.symm.trans (gone expired).1, expiry.symm.trans (gone expired).2⟩
  · intro fresh
    exact ⟨data.symm.trans (kept fresh).1, expiry.symm.trans (kept fresh).2⟩

end Database

end Vanity.Db
