import Vanity.Db.Checks

/-!
# Moving a key

`move_to` and `move_to_db`. A move brings the value of the source to the destination, and its expiry time
if it has one. It does not clear the one that the destination had before.
-/

namespace Vanity.Db

/-- A key of one of the databases. -/
abbrev Place := Index × Str

/-- A move to another key of the same database, or to the same key of another one. -/
inductive Relocation where
  | toKey (i : Index) (from_ to_ : Str) (different : from_ ≠ to_)
  | toDb (key : Str) (i j : Index) (different : i ≠ j)

namespace Relocation

def op : Relocation → Op
  | .toKey _ from_ to_ _ => .moveTo from_ to_
  | .toDb key _ j _ => .moveToDb key j

def source : Relocation → Place
  | .toKey i from_ _ _ => (i, from_)
  | .toDb key i _ _ => (i, key)

def dest : Relocation → Place
  | .toKey i _ to_ _ => (i, to_)
  | .toDb key _ j _ => (j, key)

theorem dest_ne (move : Relocation) : move.dest ≠ move.source := by
  cases move with
  | toKey i from_ to_ different => exact fun same => different (Prod.mk.inj same).2.symm
  | toDb key i j different => exact fun same => different (Prod.mk.inj same).1.symm

end Relocation

/-- What is stored at a place: the value and the expiry time. -/
def stored (dbs : Databases) (place : Place) : Option Data × Option Time :=
  ((dbs place.1).store.data.lookup place.2, (dbs place.1).store.expiryTimes.lookup place.2)

/-- What the call can see of the source. -/
def Relocation.seen (move : Relocation) (env : Env) (dbs : Databases) : Option Data × Option Time :=
  (dbs move.source.1).view (env.now 0) move.source.2

/-- The move carries the value with its own expiry time, or finds no value and leaves the destination. -/
def CarriesExpiry (move : Relocation) (env : Env) (dbs : Databases) : Prop :=
  ∃ moved after, exec move.op env move.source.1 dbs = some (.flag moved, after) ∧
    match move.seen env dbs with
    | (none, _) => moved = false ∧ stored after move.dest = stored dbs move.dest
    | (some value, expiry) => moved = true ∧ stored after move.dest = (some value, expiry) ∧
      stored after move.source = (none, none) ∧
      ∀ place, place ≠ move.source → place ≠ move.dest → stored after place = stored dbs place

theorem stored_update (i : Index) (dbs : Databases) (db : Database) (place : Place) :
    stored (Function.update dbs i db) place =
      if place.1 = i then (db.store.data.lookup place.2, db.store.expiryTimes.lookup place.2)
      else stored dbs place := by
  unfold stored
  split
  · rename_i same
    rw [same, Function.update_self]
  · rename_i other
    rw [Function.update_of_ne other]

section
variable {s t : Store} {source dest : Str} {value : Data}

theorem moveTo_lookups (held : s.data.lookup source = some value) (different : source ≠ dest) :
    ∃ after, (moveTo source dest).body s = some (true, after) ∧ ∀ other,
      (after.data.lookup other, after.expiryTimes.lookup other) =
        if other = source then (none, none)
        else if other = dest then (some value, (s.expiryTimes.lookup source).or (s.expiryTimes.lookup dest))
        else (s.data.lookup other, s.expiryTimes.lookup other) := by
  refine ⟨((s.put dest value).copyExpiry source (s.put dest value) dest).doExpire source, ?_, fun other => ?_⟩
  · simp only [moveTo, held, if_neg different, Store.expiryAwareDel_store]
  · rw [Store.doExpire_lookup, Store.doExpire_expiry, copyExpiry_data, copyExpiry_expiry, Store.put_lookup]
    by_cases first : other = source
    · simp [first]
    · by_cases second : other = dest
      · simp [second, Ne.symm different]
      · simp [first, second]

theorem moveToDb_lookups (held : s.data.lookup source = some value) :
    ∃ t', moveToDb source s t = (true, s.doExpire source, t') ∧ ∀ other,
      (t'.data.lookup other, t'.expiryTimes.lookup other) =
        if other = source then (some value, (s.expiryTimes.lookup source).or (t.expiryTimes.lookup source))
        else (t.data.lookup other, t.expiryTimes.lookup other) := by
  refine ⟨s.copyExpiry source (t.put source value) source, ?_, fun other => ?_⟩
  · simp only [moveToDb, held, Store.expiryAwareDel_store]
  · rw [copyExpiry_data, copyExpiry_expiry, Store.put_lookup]
    by_cases same : other = source
    · simp [same]
    · simp [same]

end

section
variable {env : Env} {dbs : Databases} {i j : Index} {key from_ to_ : Str} {value : Data} {expiry : Option Time}

/-- The check of a key changes nothing at another place. -/
theorem stored_checked (env : Env) (dbs : Databases) (i : Index) (key : Str) {place : Place}
    (other : place ≠ (i, key)) :
    stored (Function.update dbs i ((dbs i).eraseIfExpired (env.now 0) key).2) place = stored dbs place := by
  obtain ⟨k, name⟩ := place
  rw [stored_update]
  split
  · rename_i same
    obtain rfl : k = i := same
    have outside : name ∉ [key] := by
      intro member
      rw [List.mem_singleton.mp member] at other
      exact other rfl
    have kept := (eraseIfExpired_rebinds (dbs k) (env.now 0) key).others name outside
    exact Prod.ext kept.1.symm kept.2.symm
  · rfl

theorem checked_stored (env : Env) {other : Str} (different : other ≠ key) :
    (((dbs i).eraseIfExpired (env.now 0) key).2.store.data.lookup other,
      ((dbs i).eraseIfExpired (env.now 0) key).2.store.expiryTimes.lookup other) = stored dbs (i, other) := by
  have kept := stored_checked env dbs i key (fun same : (i, other) = (i, key) => different (Prod.mk.inj same).2)
  rwa [stored_update, if_pos rfl] at kept

/-- The database behind the check of a key, with these tables. -/
theorem exec_checked {α : Type} {op : Op} {operation : Operation α} (reply : α → Reply) {result : α} {t : Store}
    (action : op.action env = .here (operation.map reply)) (checks : operation.checks = [key])
    (body : operation.body ((dbs i).eraseIfExpired (env.now 0) key).2.store = some (result, t)) :
    exec op env i dbs = some (reply result,
      Function.update dbs i { ((dbs i).eraseIfExpired (env.now 0) key).2 with store := t }) := by
  have checked : (dbs i).eraseEach env.now operation.checks = ((dbs i).eraseIfExpired (env.now 0) key).2 := by
    rw [checks]
    rfl
  have mapped : (operation.map reply).body ((dbs i).eraseIfExpired (env.now 0) key).2.store =
      some (reply result, t) := by
    show Option.map _ (operation.body _) = _
    rw [body]
    rfl
  rw [exec_here i dbs action, Operation.map_checks, checked, mapped]
  rfl

theorem moveTo_present (seen : (dbs i).view (env.now 0) from_ = (some value, expiry)) (different : from_ ≠ to_) :
    ∃ after, exec (.moveTo from_ to_) env i dbs = some (.flag true, after) ∧ ∀ place, stored after place =
      if place = (i, from_) then (none, none)
      else if place = (i, to_) then (some value, expiry.or (stored dbs (i, to_)).2)
      else stored dbs place := by
  have checked := Rebinds.checked seen
  obtain ⟨t, body, left⟩ := moveTo_lookups checked.value different
  refine ⟨_, exec_checked .flag rfl rfl body, fun place => ?_⟩
  obtain ⟨k, other⟩ := place
  rw [stored_update]
  by_cases here : k = i
  · subst here
    simp only [Prod.mk.injEq, true_and, if_true]
    rw [left, checked.expiry, ← checked_stored env (Ne.symm different)]
    by_cases first : other = from_
    · rw [if_pos first, if_pos first]
    · rw [if_neg first, if_neg first, ← checked_stored env first]
  · simp [here]

theorem moveToDb_present (seen : (dbs i).view (env.now 0) key = (some value, expiry)) (different : i ≠ j) :
    ∃ after, exec (.moveToDb key j) env i dbs = some (.flag true, after) ∧ ∀ place, stored after place =
      if place = (i, key) then (none, none)
      else if place = (j, key) then (some value, expiry.or (stored dbs (j, key)).2)
      else stored dbs place := by
  have checked := Rebinds.checked seen
  obtain ⟨t', moved, left⟩ := moveToDb_lookups (t := (dbs j).store) checked.value
  have ran : exec (.moveToDb key j) env i dbs = some (.flag true,
      Function.update (Function.update dbs i { ((dbs i).eraseIfExpired (env.now 0) key).2 with
        store := ((dbs i).eraseIfExpired (env.now 0) key).2.store.doExpire key }) j { dbs j with store := t' }) := by
    rw [exec_across i dbs rfl]
    simp [transferDb, different, Ne.symm different, moved]
  refine ⟨_, ran, fun place => ?_⟩
  obtain ⟨k, other⟩ := place
  rw [stored_update, stored_update]
  by_cases there : k = j
  · subst there
    simp only [Prod.mk.injEq, true_and, if_true, Ne.symm different, false_and, if_false]
    rw [left, checked.expiry]
    rfl
  · by_cases here : k = i
    · subst here
      simp only [there, if_false, if_true, Prod.mk.injEq, true_and, false_and]
      rw [Store.doExpire_lookup, Store.doExpire_expiry]
      by_cases same : other = key
      · simp [same]
      · rw [if_neg same, if_neg same, if_neg same, checked_stored env same]
    · simp [there, here]

theorem moveTo_absent (to_ : Str) (absent : ((dbs i).view (env.now 0) from_).1 = none) :
    exec (.moveTo from_ to_) env i dbs =
      some (.flag false, Function.update dbs i ((dbs i).eraseIfExpired (env.now 0) from_).2) := by
  have found := (eraseIfExpired_rebinds (dbs i) (env.now 0) from_).value.trans absent
  have body : (moveTo from_ to_).body ((dbs i).eraseIfExpired (env.now 0) from_).2.store =
      some (false, ((dbs i).eraseIfExpired (env.now 0) from_).2.store) := by
    simp only [moveTo, found]
  exact exec_checked .flag rfl rfl body

theorem moveToDb_absent (different : i ≠ j) (absent : ((dbs i).view (env.now 0) key).1 = none) :
    exec (.moveToDb key j) env i dbs =
      some (.flag false, Function.update dbs i ((dbs i).eraseIfExpired (env.now 0) key).2) := by
  have found := (eraseIfExpired_rebinds (dbs i) (env.now 0) key).value.trans absent
  have kept : Function.update (Function.update dbs i ((dbs i).eraseIfExpired (env.now 0) key).2) j (dbs j) =
      Function.update dbs i ((dbs i).eraseIfExpired (env.now 0) key).2 := by
    rw [Function.update_eq_self_iff, Function.update_of_ne (Ne.symm different)]
  rw [exec_across i dbs rfl, ← kept]
  simp [transferDb, moveToDb, different, Ne.symm different, found]

end

namespace Relocation

variable {move : Relocation} {env : Env} {dbs : Databases} {value : Data} {expiry : Option Time}

theorem exec_absent (absent : (move.seen env dbs).1 = none) :
    ∃ after, exec move.op env move.source.1 dbs = some (.flag false, after) ∧
      ∀ place, place ≠ move.source → stored after place = stored dbs place := by
  cases move with
  | toKey i from_ to_ _ => exact ⟨_, moveTo_absent to_ absent, fun place => stored_checked env dbs i from_⟩
  | toDb key i j different => exact ⟨_, moveToDb_absent different absent, fun place => stored_checked env dbs i key⟩

/-- A value arrives with the expiry time of the source, or else with the one that it finds. -/
theorem exec_present (seen : move.seen env dbs = (some value, expiry)) :
    ∃ after, exec move.op env move.source.1 dbs = some (.flag true, after) ∧ ∀ place, stored after place =
      if place = move.source then (none, none)
      else if place = move.dest then (some value, expiry.or (stored dbs move.dest).2)
      else stored dbs place := by
  cases move with
  | toKey i from_ to_ different => exact moveTo_present seen different
  | toDb key i j different => exact moveToDb_present seen different

end Relocation

/-- A move carries exactly the expiry time of the source if it finds no value, if the source has an expiry
time, or if the destination has none. -/
theorem carriesExpiry_iff (move : Relocation) (env : Env) (dbs : Databases) :
    CarriesExpiry move env dbs ↔
      (move.seen env dbs).1 = none ∨ (move.seen env dbs).2 ≠ none ∨ (stored dbs move.dest).2 = none := by
  unfold CarriesExpiry
  rcases seen : move.seen env dbs with ⟨found, expiry⟩
  cases found with
  | none =>
    obtain ⟨after, ran, left⟩ := Relocation.exec_absent (congrArg Prod.fst seen)
    exact iff_of_true ⟨false, after, ran, rfl, left move.dest move.dest_ne⟩ (.inl rfl)
  | some value =>
    obtain ⟨after, ran, left⟩ := Relocation.exec_present seen
    have arrived : stored after move.dest = (some value, expiry.or (stored dbs move.dest).2) := by
      rw [left, if_neg move.dest_ne, if_pos rfl]
    have carried : expiry.or (stored dbs move.dest).2 = expiry ↔
        expiry ≠ none ∨ (stored dbs move.dest).2 = none := by
      cases expiry <;> simp
    simp only [reduceCtorEq, false_or]
    rw [← carried]
    constructor
    · rintro ⟨moved, after', ran', -, dest, -⟩
      rw [ran] at ran'
      obtain ⟨-, rfl⟩ := Prod.mk.inj (Option.some.inj ran')
      exact (Prod.mk.inj (arrived.symm.trans dest)).2
    · intro same
      rw [same] at arrived
      refine ⟨true, after, ran, rfl, arrived, ?_, fun place notSource notDest => ?_⟩
      · rw [left, if_pos rfl]
      · rw [left, if_neg notSource, if_neg notDest]

/-- The second key expires at time 5. -/
def expiringDest : Databases := fun _ =>
  { store := { data := ((∅ : Table Str Data).insert [97] (.int 1)).insert [98] (.int 2)
               expiryTimes := (∅ : Table Str Time).insert [98] 5 } }

def ontoExpiring : Relocation := .toKey 0 [97] [98] (by decide)

/-- A value without an expiry time that is moved onto a key with one will expire. -/
theorem ontoExpiring_inherits : ¬CarriesExpiry ontoExpiring (.frozen 0) expiringDest := by
  rintro ⟨moved, after, ran, carried⟩
  have fresh : (expiringDest 0).isExpired 0 [97] = false := by simp [expiringDest, Database.isExpired]
  have seen : ontoExpiring.seen (.frozen 0) expiringDest = (some (.int 1), none) := by
    show (expiringDest 0).view 0 [97] = _
    rw [Database.view_fresh fresh]
    simp [expiringDest, Finmap.lookup_insert_of_ne]
  obtain ⟨after', ran', left⟩ := Relocation.exec_present seen
  obtain ⟨-, rfl⟩ := Prod.mk.inj (Option.some.inj (ran'.symm.trans ran))
  rw [seen] at carried
  have arrived := carried.2.1.symm.trans (left ontoExpiring.dest)
  rw [if_neg ontoExpiring.dest_ne, if_pos rfl] at arrived
  have expiry := congrArg Prod.snd arrived
  simp [stored, expiringDest, ontoExpiring, Relocation.dest] at expiry

end Vanity.Db
