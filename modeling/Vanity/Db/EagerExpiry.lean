import Vanity.Db.Edits

/-!
# Lazy and eager expiry

An expired key stays in the tables until somebody looks at it. What a client can tell about a
database is its view at the time of the call, in which expired keys do not exist; a call should not
do anything else than it would after a purge.
-/

namespace Vanity.Db

/-- The same random choices, with a clock that stands still. -/
def Env.at (env : Env) (t : Time) : Env := { env with now := fun _ => t }

theorem Env.at_now (env : Env) (t : Time) : (env.at t).now = fun _ => t := rfl

def passed (t : Time) (enabled : Bool) (expiry : Option Time) : Bool :=
  enabled && match expiry with
    | none => false
    | some time => decide (t > time)

def visible (t : Time) (enabled : Bool) (value : Option Data) (expiry : Option Time) : Option Data × Option Time :=
  if passed t enabled expiry then (none, none) else (value, expiry)

/-- The value and the expiry time of a key, both absent once the key has expired. -/
def Store.view (t : Time) (enabled : Bool) (s : Store) (key : Str) : Option Data × Option Time :=
  visible t enabled (s.data.lookup key) (s.expiryTimes.lookup key)

def Database.view (t : Time) (db : Database) (key : Str) : Option Data × Option Time :=
  db.store.view t db.expiryEnabled key

def purged (env : Env) (dbs : Databases) : Databases := fun i => (dbs i).deepPurge env

/-- The call gives the reply and the views that it would give if all expired keys were removed
before it. -/
def LazyIsEager (op : Op) (env : Env) (t : Time) (i : Index) (dbs : Databases) : Prop :=
  Option.Rel
    (fun lazy eager => lazy.1 = eager.1 ∧ ∀ j key, (lazy.2 j).view t key = (eager.2 j).view t key)
    (exec op (env.at t) i dbs) (exec op (env.at t) i (purged (env.at t) dbs))

def Database.dead (db : Database) (t : Time) (key : Str) : Prop :=
  db.isExpired t key = true ∧ key ∈ db.store.data

/-- The calls that act on a key without looking whether it has expired. -/
def ExpirySafe (t : Time) (i : Index) (dbs : Databases) : Op → Prop
  | .del key | .clearExpiry key => ¬(dbs i).dead t key
  | .setExpiry key time => (dbs i).dead t key → t > time
  | .clearAllExpiry => ∀ key, ¬(dbs i).dead t key
  | .moveTo source dest =>
    source = dest ∨ (dbs i).isExpired t source = true ∨ source ∉ (dbs i).store.data ∨
      source ∈ (dbs i).store.expiryTimes ∨ (dbs i).isExpired t dest = false
  | .moveToDb key to_ =>
    i = to_ ∨ (dbs i).isExpired t key = true ∨ key ∉ (dbs i).store.data ∨
      key ∈ (dbs i).store.expiryTimes ∨ (dbs to_).isExpired t key = false
  | _ => True

/-! ### Views -/

@[simp] theorem passed_none (t : Time) (enabled : Bool) : passed t enabled none = false := by
  cases enabled <;> rfl

@[simp] theorem visible_none (t : Time) (enabled : Bool) (value : Option Data) :
    visible t enabled value none = (value, none) := by
  simp [visible]

namespace Database

theorem isExpired_eq (db : Database) (t : Time) (key : Str) :
    db.isExpired t key = passed t db.expiryEnabled (db.store.expiryTimes.lookup key) := by
  unfold isExpired passed
  cases db.expiryEnabled
  · rfl
  · rfl

structure Sim (t : Time) (db db' : Database) : Prop where
  enabled : db.expiryEnabled = db'.expiryEnabled
  view : ∀ key, db.view t key = db'.view t key

theorem Sim.refl (t : Time) (db : Database) : Sim t db db := ⟨rfl, fun _ => rfl⟩

theorem Sim.trans {t : Time} {a b c : Database} (first : Sim t a b) (second : Sim t b c) : Sim t a c :=
  ⟨first.enabled.trans second.enabled, fun key => (first.view key).trans (second.view key)⟩

theorem Sim.symm {t : Time} {a b : Database} (sim : Sim t a b) : Sim t b a :=
  ⟨sim.enabled.symm, fun key => (sim.view key).symm⟩

/-- Expiring keys that have expired is not visible. -/
theorem Expired.sim {t : Time} {db after : Database} {keys : List Str} (expired : Expired db after keys)
    (due : ∀ key ∈ keys, db.isExpired t key = true) : Sim t db after := by
  refine ⟨expired.enabled.symm, fun key => ?_⟩
  rw [view, view, Store.view, Store.view, expired.store, expired.enabled, Store.foldl_doExpire_data, Store.foldl_doExpire_expiry]
  by_cases member : key ∈ keys
  · have gone := due key member
    rw [isExpired_eq] at gone
    simp [visible, member, gone]
  · simp [member]

theorem expire_later {db : Database} {key other : Str} {now t : Time}
    (due : (db.eraseIfExpired now key).2.isExpired t other = true) : db.isExpired t other = true := by
  unfold eraseIfExpired at due
  split at due
  · by_cases same : other = key
    · subst same
      simp [isExpired, expire] at due
    · rwa [expire_isExpired same] at due
  · exact due

theorem eraseEach_was_due (now : Nat → Time) (keys : List Str) (db : Database) :
    ∃ expired, Expired db (db.eraseEach now keys) expired ∧
      ∀ key ∈ expired, ∃ n, db.isExpired (now n) key = true := by
  induction keys generalizing now db with
  | nil => exact ⟨[], .refl db, by simp⟩
  | cons key keys ih =>
    obtain ⟨expired, later, due⟩ := ih (fun n => now (n + 1)) (db.eraseIfExpired (now 0) key).2
    refine ⟨_, (eraseIfExpired_expired db (now 0) key).trans later, fun other member => ?_⟩
    rcases List.mem_append.mp member with first | rest
    · split at first
      · rename_i gone
        rw [List.mem_singleton.mp first]
        exact ⟨0, gone⟩
      · cases first
    · obtain ⟨n, gone⟩ := due other rest
      exact ⟨n + 1, expire_later gone⟩

theorem eraseEach_due (t : Time) (keys : List Str) (db : Database) :
    ∃ expired, Expired db (db.eraseEach (fun _ => t) keys) expired ∧
      (∀ key ∈ expired, db.isExpired t key = true) ∧ ∀ key ∈ keys, db.isExpired t key = true → key ∈ expired := by
  induction keys generalizing db with
  | nil => exact ⟨[], .refl db, by simp, by simp⟩
  | cons key keys ih =>
    obtain ⟨expired, later, due, all⟩ := ih (db.eraseIfExpired t key).2
    refine ⟨_, (eraseIfExpired_expired db t key).trans later, ?_, ?_⟩
    · intro other member
      rcases List.mem_append.mp member with first | rest
      · split at first
        · rename_i gone
          rwa [List.mem_singleton.mp first]
        · cases first
      · exact expire_later (due other rest)
    · intro other member gone
      by_cases same : other = key
      · subst same
        simp [gone]
      · have rest : other ∈ keys := (List.mem_cons.mp member).resolve_left same
        refine List.mem_append.mpr (.inr (all other rest ?_))
        unfold eraseIfExpired
        split
        · rwa [expire_isExpired same]
        · exact gone

/-- What the checks leave: the same view, in which the checked keys are as they are stored. -/
theorem eraseEach_sim (t : Time) (keys : List Str) (db : Database) :
    Sim t db (db.eraseEach (fun _ => t) keys) ∧
      ∀ key ∈ keys, (db.eraseEach (fun _ => t) keys).isExpired t key = false := by
  obtain ⟨expired, erased, due, all⟩ := eraseEach_due t keys db
  refine ⟨erased.sim due, fun key member => ?_⟩
  rw [isExpired_eq, erased.store, erased.enabled, Store.foldl_doExpire_expiry]
  by_cases gone : db.isExpired t key = true
  · simp [all key member gone]
  · rw [isExpired_eq] at gone
    split
    · exact passed_none _ _
    · simpa using gone

theorem mem_expiredAmong {db : Database} {t : Time} {keys : List Str} {key : Str} :
    key ∈ db.expiredAmong (fun _ => t) keys ↔ key ∈ keys ∧ db.isExpired t key = true := by
  induction keys with
  | nil => simp [expiredAmong]
  | cons first keys ih =>
    rw [expiredAmong]
    split
    · rename_i gone
      rw [List.mem_cons, List.mem_cons, ih]
      constructor
      · rintro (rfl | rest)
        · exact ⟨.inl rfl, gone⟩
        · exact ⟨.inr rest.1, rest.2⟩
      · rintro ⟨rfl | rest, due⟩
        · exact .inl rfl
        · exact .inr ⟨rest, due⟩
    · rename_i alive
      rw [List.mem_cons, ih]
      constructor
      · rintro ⟨rest, due⟩
        exact ⟨.inr rest, due⟩
      · rintro ⟨rfl | rest, due⟩
        · exact absurd due alive
        · exact ⟨rest, due⟩

theorem deepPurge_sim (env : Env) (t : Time) (db : Database) :
    Sim t db (db.deepPurge (env.at t)) ∧ ∀ key, (db.deepPurge (env.at t)).isExpired t key = false := by
  have effect : Expired db (db.deepPurge (env.at t)) (db.expiredAmong (fun _ => t) (env.order.list db.store.expiryTimes.keys)) :=
    foldl_expire_expired _ db
  refine ⟨effect.sim fun key member => (mem_expiredAmong.mp member).2, fun key => ?_⟩
  rw [isExpired_eq, effect.store, effect.enabled, Store.foldl_doExpire_expiry]
  split
  · exact passed_none _ _
  · rename_i kept
    rw [← isExpired_eq]
    by_contra due
    apply kept
    have gone : db.isExpired t key = true := by simpa using due
    refine mem_expiredAmong.mpr ⟨(env.order.mem _ _).mpr ?_, gone⟩
    rw [isExpired_eq] at gone
    cases timed : db.store.expiryTimes.lookup key with
    | none => simp [timed] at gone
    | some time => exact Finmap.mem_keys.mpr (Table.mem_of_lookup timed)

theorem view_fresh {db : Database} {t : Time} {key : Str} (fresh : db.isExpired t key = false) :
    db.view t key = (db.store.data.lookup key, db.store.expiryTimes.lookup key) := by
  rw [isExpired_eq] at fresh
  simp [view, Store.view, visible, fresh]

theorem view_expired {db : Database} {t : Time} {key : Str} (gone : db.isExpired t key = true) :
    db.view t key = (none, none) := by
  rw [isExpired_eq] at gone
  simp [view, Store.view, visible, gone]

/-- A key that has expired in neither is stored alike in both. -/
theorem Sim.fresh {t : Time} {db db' : Database} {key : Str} (sim : Sim t db db')
    (here : db.isExpired t key = false) (there : db'.isExpired t key = false) :
    db'.store.data.lookup key = db.store.data.lookup key ∧
      db'.store.expiryTimes.lookup key = db.store.expiryTimes.lookup key := by
  have same := sim.view key
  rw [view_fresh here, view_fresh there] at same
  exact ⟨(Prod.mk.inj same).1.symm, (Prod.mk.inj same).2.symm⟩

end Database

/-! ### Edits -/

theorem Edit.sim {t : Time} {db db' : Database} {checks : List Str} (edit : Edit) (sim : Database.Sim t db db')
    (same : Store.SameAt checks db.store db'.store) (within : edit.Within checks) :
    Database.Sim t { db with store := edit.apply db.store } { db' with store := edit.apply db'.store } ∧
      Store.SameAt checks (edit.apply db.store) (edit.apply db'.store) := by
  refine ⟨⟨sim.enabled, fun key => ?_⟩, fun key member => ?_⟩
  · have before := sim.view key
    cases edit with
    | put at_ value =>
      by_cases equal : key = at_
      · subst equal
        simp [Database.view, Store.view, Edit.apply, (same key within).2, sim.enabled]
      · simpa [Database.view, Store.view, Edit.apply, equal] using before
    | bind at_ value =>
      by_cases equal : key = at_
      · simp [Database.view, Store.view, Edit.apply, equal]
      · simpa [Database.view, Store.view, Edit.apply, equal] using before
    | remove at_ =>
      by_cases equal : key = at_
      · simp [Database.view, Store.view, Edit.apply, equal]
      · simpa [Database.view, Store.view, Edit.apply, equal] using before
  · have before := same key member
    cases edit with
    | put at_ value => simp [Edit.apply, before.1, before.2]
    | bind at_ value => simp [Edit.apply, before.1, before.2]
    | remove at_ => simp [Edit.apply, before.1, before.2]

theorem applyAll_sim {t : Time} {db db' : Database} {checks : List Str} {edits : List Edit}
    (sim : Database.Sim t db db') (same : Store.SameAt checks db.store db'.store)
    (within : ∀ edit ∈ edits, edit.Within checks) :
    Database.Sim t { db with store := applyAll edits db.store } { db' with store := applyAll edits db'.store } := by
  induction edits generalizing db db' with
  | nil => exact sim
  | cons edit edits ih =>
    obtain ⟨simNext, sameNext⟩ := Edit.sim edit sim same (within edit List.mem_cons_self)
    exact ih simNext sameNext fun other member => within other (List.mem_cons_of_mem _ member)

/-! ### Calls on one database -/

section
variable (env : Env) (t : Time) (i : Index) (dbs : Databases)

theorem purged_sim (j : Index) : Database.Sim t (dbs j) (purged (env.at t) dbs j) :=
  (Database.deepPurge_sim env t (dbs j)).1

theorem update_views {dbs dbs' : Databases} {db db' : Database} (others : ∀ j, Database.Sim t (dbs j) (dbs' j)) :
    (∀ j key, (Function.update dbs i db j).view t key = (Function.update dbs' i db' j).view t key) ↔
      ∀ key, db.view t key = db'.view t key := by
  constructor
  · intro all key
    simpa using all i key
  · intro here j key
    by_cases same : j = i
    · subst same
      simpa using here key
    · simpa [same] using (others j).view key

/-- The two databases behind the checks of a call, without and with a purge before it. -/
theorem checked_sim (checks : List Str) :
    Database.Sim t ((dbs i).eraseEach (fun _ => t) checks)
      ((purged (env.at t) dbs i).eraseEach (fun _ => t) checks) ∧
    Store.SameAt checks ((dbs i).eraseEach (fun _ => t) checks).store
      ((purged (env.at t) dbs i).eraseEach (fun _ => t) checks).store := by
  obtain ⟨lazy, lazyFresh⟩ := Database.eraseEach_sim t checks (dbs i)
  obtain ⟨eager, eagerFresh⟩ := Database.eraseEach_sim t checks (purged (env.at t) dbs i)
  have sim := lazy.symm.trans ((purged_sim env t dbs i).trans eager)
  exact ⟨sim, fun key member => sim.fresh (lazyFresh key member) (eagerFresh key member)⟩

theorem purged_lookups (key : Str) :
    (purged (env.at t) dbs i).store.data.lookup key =
        (if (dbs i).isExpired t key then none else (dbs i).store.data.lookup key) ∧
      (purged (env.at t) dbs i).store.expiryTimes.lookup key =
        if (dbs i).isExpired t key then none else (dbs i).store.expiryTimes.lookup key := by
  obtain ⟨sim, fresh⟩ := Database.deepPurge_sim env t (dbs i)
  cases gone : (dbs i).isExpired t key with
  | true =>
    have same := sim.view key
    rw [Database.view_expired gone, Database.view_fresh (fresh key)] at same
    exact ⟨(Prod.mk.inj same).1.symm, (Prod.mk.inj same).2.symm⟩
  | false => exact sim.fresh gone (fresh key)

theorem purged_enabled : (purged (env.at t) dbs i).expiryEnabled = (dbs i).expiryEnabled :=
  (purged_sim env t dbs i).enabled.symm

theorem purged_unchecked (checks : List Str) :
    (purged (env.at t) dbs i).eraseEach (fun _ => t) checks = purged (env.at t) dbs i := by
  apply Database.eraseEach_fresh
  have fresh := (Database.deepPurge_sim env t (dbs i)).2
  induction checks with
  | nil => trivial
  | cons key keys ih => exact ⟨fresh key, ih⟩

theorem here_iff {op : Op} {operation : Operation Reply} (here : op.action (env.at t) = .here operation)
    (checks : List Str) (checked : operation.checks = checks) (reply : Store → Reply) (after : Store → Store)
    (body : ∀ s, operation.body s = some (reply s, after s)) :
    LazyIsEager op env t i dbs ↔
      reply ((dbs i).eraseEach (fun _ => t) checks).store = reply (purged (env.at t) dbs i).store ∧
      ∀ key, (after ((dbs i).eraseEach (fun _ => t) checks).store).view t (dbs i).expiryEnabled key =
        (after (purged (env.at t) dbs i).store).view t (dbs i).expiryEnabled key := by
  rw [LazyIsEager, exec_here i _ here, exec_here i _ here, body, body, Option.map_some, Option.map_some,
    Option.rel_some_some, checked, Env.at_now, purged_unchecked]
  refine and_congr_right fun _ => (update_views t i (purged_sim env t dbs)).trans ?_
  simp only [Database.view, (Database.eraseEach_sim t checks (dbs i)).1.enabled.symm, purged_enabled]

theorem plain_lazy {op : Op} {operation : Operation Reply} (here : op.action (env.at t) = .here operation)
    (plain : op.direct = false) : LazyIsEager op env t i dbs := by
  obtain ⟨sim, same⟩ := checked_sim env t i dbs operation.checks
  rw [LazyIsEager, exec_here i _ here, exec_here i _ here, Env.at_now]
  rcases here_uniform here plain _ _ same with ⟨lazy, eager⟩ | ⟨reply, edits, lazy, eager, within, -⟩
  · rw [lazy, eager]
    exact .none
  · rw [lazy, eager, Option.map_some, Option.map_some, Option.rel_some_some]
    exact ⟨rfl, (update_views t i (purged_sim env t dbs)).mpr (applyAll_sim sim same within).view⟩

/-! ### Calls that do not check their key -/

theorem dead_iff {db : Database} {key : Str} :
    db.dead t key ↔ db.isExpired t key = true ∧ db.store.data.lookup key ≠ none := by
  rw [Database.dead, Ne, Finmap.lookup_eq_none, not_not]

/-- The key has a value after the purge exactly if it has one before, unless it is dead. -/
theorem purged_same_iff (key : Str) :
    (dbs i).store.data.lookup key = (purged (env.at t) dbs i).store.data.lookup key ↔ ¬(dbs i).dead t key := by
  rw [(purged_lookups env t i dbs key).1, dead_iff]
  cases (dbs i).isExpired t key <;> simp

theorem unchecked_iff {op : Op} {operation : Operation Reply} (here : op.action (env.at t) = .here operation)
    (none : operation.checks = []) (reply : Store → Reply) (after : Store → Store)
    (body : ∀ s, operation.body s = some (reply s, after s)) :
    LazyIsEager op env t i dbs ↔
      reply (dbs i).store = reply (purged (env.at t) dbs i).store ∧
      ∀ key, (after (dbs i).store).view t (dbs i).expiryEnabled key =
        (after (purged (env.at t) dbs i).store).view t (dbs i).expiryEnabled key :=
  here_iff env t i dbs here [] none reply after body

theorem reset_lazy : LazyIsEager .reset env t i dbs :=
  (unchecked_iff env t i dbs rfl rfl (fun _ => .done) (fun _ => {}) fun _ => rfl).mpr ⟨rfl, fun _ => rfl⟩

/-- The views of the other keys, in a call that changes one key. -/
theorem purged_view (key : Str) : (dbs i).store.view t (dbs i).expiryEnabled key =
    (purged (env.at t) dbs i).store.view t (dbs i).expiryEnabled key := by
  have same := (purged_sim env t dbs i).view key
  rwa [Database.view, Database.view, purged_enabled] at same

theorem del_lazy_iff (key : Str) : LazyIsEager (.del key) env t i dbs ↔ ¬(dbs i).dead t key := by
  rw [unchecked_iff env t i dbs rfl rfl (fun s => .flag (s.contains key)) (fun s => s.doExpire key) fun s => rfl]
  constructor
  · rintro ⟨same, -⟩ dead
    obtain ⟨gone, present⟩ := (dead_iff t).mp dead
    have contained := Reply.flag.inj same
    rw [Store.contains_eq, Store.contains_eq, (purged_lookups env t i dbs key).1, if_pos gone,
      Option.isSome_none, Option.isSome_eq_false_iff, Option.isNone_iff_eq_none] at contained
    exact present contained
  · intro alive
    refine ⟨congrArg Reply.flag ?_, fun other => ?_⟩
    · rw [Store.contains_eq, Store.contains_eq, ← (purged_same_iff env t i dbs key).mpr alive]
    · by_cases equal : other = key
      · simp [Store.view, equal]
      · simpa [Store.view, equal] using purged_view env t i dbs other

theorem clearExpiry_lazy_iff (key : Str) : LazyIsEager (.clearExpiry key) env t i dbs ↔ ¬(dbs i).dead t key := by
  rw [unchecked_iff env t i dbs rfl rfl (fun _ => .done) (fun s => s.clearExpiry key) fun s => rfl,
    ← purged_same_iff env t i dbs key]
  constructor
  · rintro ⟨-, views⟩
    simpa [Store.view] using views key
  · intro same
    refine ⟨rfl, fun other => ?_⟩
    by_cases equal : other = key
    · subst equal
      simpa [Store.view] using same
    · simpa [Store.view, equal] using purged_view env t i dbs other

theorem clearAllExpiry_lazy_iff : LazyIsEager .clearAllExpiry env t i dbs ↔ ∀ key, ¬(dbs i).dead t key := by
  rw [unchecked_iff env t i dbs rfl rfl (fun _ => .done) (fun s => { s with expiryTimes := ∅ }) fun s => rfl]
  simp only [true_and, ← purged_same_iff env t i dbs]
  simp [Store.view]

theorem isExpired_enabled {db : Database} {key : Str} (gone : db.isExpired t key = true) :
    db.expiryEnabled = true := by
  by_contra disabled
  rw [Database.disabled_isExpired (by simpa using disabled)] at gone
  cases gone

def Store.setTime (s : Store) (key : Str) (time : Time) : Store :=
  if s.contains key then { s with expiryTimes := s.expiryTimes.insert key time } else s

theorem setTime_data (s : Store) (key other : Str) (time : Time) :
    (s.setTime key time).data.lookup other = s.data.lookup other := by
  unfold Store.setTime
  split <;> rfl

theorem setTime_expiry (s : Store) (key other : Str) (time : Time) :
    (s.setTime key time).expiryTimes.lookup other =
      if other = key ∧ s.contains key then some time else s.expiryTimes.lookup other := by
  unfold Store.setTime
  by_cases present : s.contains key
  · simp [present, Table.lookup_insert_eq]
  · simp [present]

theorem setTime_view_iff (key : Str) (time : Time) :
    ((dbs i).store.setTime key time).view t (dbs i).expiryEnabled key =
        ((purged (env.at t) dbs i).store.setTime key time).view t (dbs i).expiryEnabled key ↔
      ((dbs i).dead t key → t > time) := by
  obtain ⟨data, expiry⟩ := purged_lookups env t i dbs key
  rw [dead_iff, Store.view, Store.view, setTime_data, setTime_data, setTime_expiry, setTime_expiry,
    Store.contains_eq, Store.contains_eq, data, expiry]
  cases gone : (dbs i).isExpired t key with
  | false => simp
  | true =>
    have enabled := isExpired_enabled t gone
    rw [Database.isExpired_eq] at gone
    cases (dbs i).store.data.lookup key with
    | none => simp [visible, gone]
    | some value => simp [visible, passed, enabled]

theorem setExpiry_lazy_iff (key : Str) (time : Time) :
    LazyIsEager (.setExpiry key time) env t i dbs ↔ ((dbs i).dead t key → t > time) := by
  rw [unchecked_iff env t i dbs rfl rfl (fun _ => .done) (fun s => s.setTime key time) fun s => rfl,
    ← setTime_view_iff env t i dbs key time]
  constructor
  · rintro ⟨-, views⟩
    exact views key
  · intro same
    refine ⟨rfl, fun other => ?_⟩
    by_cases equal : other = key
    · subst equal
      exact same
    · simpa [Store.view, setTime_data, setTime_expiry, equal] using purged_view env t i dbs other

/-! ### Moves -/

theorem copyExpiry_data (s : Store) (source : Str) (u : Store) (dest : Str) :
    (s.copyExpiry source u dest).data = u.data := by
  unfold Store.copyExpiry
  split <;> rfl

theorem copyExpiry_expiry (s : Store) (source : Str) (u : Store) (dest other : Str) :
    (s.copyExpiry source u dest).expiryTimes.lookup other =
      if other = dest then (s.expiryTimes.lookup source).or (u.expiryTimes.lookup dest)
      else u.expiryTimes.lookup other := by
  unfold Store.copyExpiry
  cases timed : s.expiryTimes.lookup source with
  | none =>
    by_cases same : other = dest
    · subst same
      simp
    · simp [same]
  | some time => simp [Table.lookup_insert_eq]

/-- A moved value brings its expiry time along, or else gets the one that it finds, which may have
passed. -/
theorem visible_moved_iff (enabled : Bool) (value : Data) (brought found : Option Time) :
    visible t enabled (some value) (brought.or found) =
        visible t enabled (some value) (brought.or (if passed t enabled found then none else found)) ↔
      brought ≠ none ∨ passed t enabled found = false := by
  cases brought with
  | some time => simp
  | none =>
    cases past : passed t enabled found with
    | false => simp
    | true => simp [visible, past]

def movedTo (source dest : Str) (s : Store) : Bool × Store :=
  match s.data.lookup source with
  | none => (false, s)
  | some value =>
    if source = dest then (true, s)
    else (true, ((s.put dest value).copyExpiry source (s.put dest value) dest).doExpire source)

theorem movedTo_view {s : Store} {source dest : Str} {value : Data} (stored : s.data.lookup source = some value)
    (different : source ≠ dest) (enabled : Bool) (other : Str) :
    (movedTo source dest s).2.view t enabled other =
      if other = source then (none, none)
      else if other = dest then
        visible t enabled (some value) ((s.expiryTimes.lookup source).or (s.expiryTimes.lookup dest))
      else s.view t enabled other := by
  rw [Store.view, movedTo, stored]
  by_cases first : other = source
  · simp [different, first]
  · by_cases second : other = dest
    · subst second
      simp [different, first, copyExpiry_data, copyExpiry_expiry]
    · simp [different, first, second, copyExpiry_data, copyExpiry_expiry, Store.view]

theorem purged_absent_iff (key : Str) :
    (purged (env.at t) dbs i).store.data.lookup key = none ↔
      (dbs i).isExpired t key = true ∨ key ∉ (dbs i).store.data := by
  rw [(purged_lookups env t i dbs key).1, ← Finmap.lookup_eq_none]
  cases (dbs i).isExpired t key <;> simp

theorem checked_view (checks : List Str) (key : Str) :
    ((dbs i).eraseEach (fun _ => t) checks).store.view t (dbs i).expiryEnabled key =
      (purged (env.at t) dbs i).store.view t (dbs i).expiryEnabled key := by
  have same := (Database.eraseEach_sim t checks (dbs i)).1
  have before := same.view key
  rw [Database.view, Database.view, ← same.enabled] at before
  rw [← before, purged_view]

theorem checked_absent {key : Str} (absent : (purged (env.at t) dbs i).store.data.lookup key = none) :
    ((dbs i).eraseEach (fun _ => t) [key]).store.data.lookup key = none := by
  have same := ((checked_sim env t i dbs [key]).2 key List.mem_cons_self).1
  rw [purged_unchecked, absent] at same
  exact same.symm

theorem purged_present {key : Str} {value : Data}
    (stored : (purged (env.at t) dbs i).store.data.lookup key = some value) :
    (dbs i).isExpired t key = false ∧ (dbs i).store.data.lookup key = some value ∧
      (purged (env.at t) dbs i).store.expiryTimes.lookup key = (dbs i).store.expiryTimes.lookup key := by
  obtain ⟨data, expiry⟩ := purged_lookups env t i dbs key
  rw [stored] at data
  cases gone : (dbs i).isExpired t key with
  | true => simp [gone] at data
  | false =>
    rw [gone, if_neg Bool.false_ne_true] at data expiry
    exact ⟨rfl, data.symm, expiry⟩

/-- The views of a key that a value was moved to. -/
theorem moved_view_iff (value : Data) (brought : Option Time) (key : Str) :
    visible t (dbs i).expiryEnabled (some value) (brought.or ((dbs i).store.expiryTimes.lookup key)) =
        visible t (dbs i).expiryEnabled (some value)
          (brought.or ((purged (env.at t) dbs i).store.expiryTimes.lookup key)) ↔
      brought ≠ none ∨ (dbs i).isExpired t key = false := by
  rw [(purged_lookups env t i dbs key).2, Database.isExpired_eq]
  exact visible_moved_iff t _ value brought _

theorem moveTo_lazy_iff (source dest : Str) :
    LazyIsEager (.moveTo source dest) env t i dbs ↔ ExpirySafe t i dbs (.moveTo source dest) := by
  rw [here_iff env t i dbs rfl [source] rfl (fun s => .flag (movedTo source dest s).1)
    (fun s => (movedTo source dest s).2) fun s => rfl]
  cases stored : (purged (env.at t) dbs i).store.data.lookup source with
  | none =>
    have stays : ∀ s : Store, s.data.lookup source = none → movedTo source dest s = (false, s) := by
      intro s absent
      simp [movedTo, absent]
    rw [stays _ stored, stays _ (checked_absent env t i dbs stored)]
    refine iff_of_true ⟨rfl, checked_view env t i dbs [source]⟩ (.inr ?_)
    exact (purged_absent_iff env t i dbs source).mp stored |>.imp id .inl
  | some value =>
    obtain ⟨alive, present, times⟩ := purged_present env t i dbs stored
    have unchecked : (dbs i).eraseEach (fun _ => t) [source] = dbs i := Database.eraseEach_fresh ⟨alive, trivial⟩
    rw [unchecked]
    by_cases same : source = dest
    · have stays : ∀ s : Store, s.data.lookup source = some value → movedTo source dest s = (true, s) := by
        intro s held
        simp [movedTo, held, same]
      rw [stays _ stored, stays _ present]
      exact iff_of_true ⟨rfl, purged_view env t i dbs⟩ (.inl same)
    · have flags : ∀ s : Store, s.data.lookup source = some value → (movedTo source dest s).1 = true := by
        intro s held
        simp [movedTo, held, same]
      have atDest := moved_view_iff env t i dbs value ((dbs i).store.expiryTimes.lookup source) dest
      rw [flags _ stored, flags _ present]
      simp only [movedTo_view t stored same, movedTo_view t present same, times, true_and]
      have safe : ExpirySafe t i dbs (.moveTo source dest) ↔
          (dbs i).store.expiryTimes.lookup source ≠ none ∨ (dbs i).isExpired t dest = false := by
        simp [ExpirySafe, same, alive, Table.mem_of_lookup present, Finmap.lookup_eq_none]
      rw [safe, ← atDest]
      constructor
      · intro views
        simpa [Ne.symm same] using views dest
      · intro here other
        split
        · rfl
        · split
          · exact here
          · exact purged_view env t i dbs other

/-! ### Transfers -/

theorem transferDb_apart (transfer : Str → Store → Store → Bool × Store × Store) (key : Str) {i j : Index}
    (different : i ≠ j) (dbs : Databases) :
    transferDb transfer key i j (env.at t) dbs =
      ((transfer key ((dbs i).eraseEach (fun _ => t) [key]).store (dbs j).store).1,
        Function.update (Function.update dbs i { (dbs i).eraseEach (fun _ => t) [key] with
          store := (transfer key ((dbs i).eraseEach (fun _ => t) [key]).store (dbs j).store).2.1 }) j
          { dbs j with store := (transfer key ((dbs i).eraseEach (fun _ => t) [key]).store (dbs j).store).2.2 }) := by
  simp [transferDb, different, Ne.symm different, Database.eraseEach, Env.at_now]

theorem across_iff {op : Op} {transfer : Str → Store → Store → Bool × Store × Store} {key : Str} {j : Index}
    (across : op.action (env.at t) = .across transfer key j) (different : i ≠ j) :
    LazyIsEager op env t i dbs ↔
      (transfer key ((dbs i).eraseEach (fun _ => t) [key]).store (dbs j).store).1 =
        (transfer key (purged (env.at t) dbs i).store (purged (env.at t) dbs j).store).1 ∧
      (∀ other,
        (transfer key ((dbs i).eraseEach (fun _ => t) [key]).store (dbs j).store).2.1.view t (dbs i).expiryEnabled other =
          (transfer key (purged (env.at t) dbs i).store (purged (env.at t) dbs j).store).2.1.view t
            (dbs i).expiryEnabled other) ∧
      ∀ other,
        (transfer key ((dbs i).eraseEach (fun _ => t) [key]).store (dbs j).store).2.2.view t (dbs j).expiryEnabled other =
          (transfer key (purged (env.at t) dbs i).store (purged (env.at t) dbs j).store).2.2.view t
            (dbs j).expiryEnabled other := by
  rw [LazyIsEager, exec_across i _ across, exec_across i _ across, Option.rel_some_some,
    transferDb_apart env t transfer key different, transferDb_apart env t transfer key different, purged_unchecked,
    Reply.flag.injEq]
  refine and_congr_right fun _ => ?_
  have enabled := (Database.eraseEach_sim t [key] (dbs i)).1.enabled.symm
  constructor
  · intro views
    constructor
    · intro other
      simpa [different, Database.view, purged_enabled, enabled] using views i other
    · intro other
      simpa [Database.view, purged_enabled] using views j other
  · rintro ⟨source, dest⟩ n other
    by_cases there : n = j
    · subst there
      simpa [Database.view, purged_enabled] using dest other
    · by_cases here : n = i
      · subst here
        simpa [different, Database.view, purged_enabled, enabled] using source other
      · simpa [here, there] using (purged_sim env t dbs n).view other

theorem transfer_self {op : Op} {transfer : Str → Store → Store → Bool × Store × Store} {key : Str}
    (across : op.action (env.at t) = .across transfer key i) : LazyIsEager op env t i dbs := by
  obtain ⟨sim, same⟩ := checked_sim env t i dbs [key]
  have read := (same key List.mem_cons_self).1
  rw [LazyIsEager, exec_across i _ across, exec_across i _ across, Option.rel_some_some]
  refine ⟨congrArg Reply.flag ?_, ?_⟩
  · simpa [transferDb, Store.contains_eq, Env.at_now, Database.eraseEach] using congrArg Option.isSome read.symm
  · simpa [transferDb, Env.at_now, Database.eraseEach] using (update_views t i (purged_sim env t dbs)).mpr sim.view

theorem copyToDb_lazy (key : Str) (j : Index) : LazyIsEager (.copyToDb key j) env t i dbs := by
  by_cases same : i = j
  · subst same
    exact transfer_self env t i dbs rfl
  · rw [across_iff env t i dbs rfl same]
    cases stored : (purged (env.at t) dbs i).store.data.lookup key with
    | none =>
      simp only [copyToDb, stored, checked_absent env t i dbs stored, true_and]
      exact ⟨checked_view env t i dbs [key], purged_view env t j dbs⟩
    | some value =>
      obtain ⟨alive, present, -⟩ := purged_present env t i dbs stored
      have unchecked : (dbs i).eraseEach (fun _ => t) [key] = dbs i := Database.eraseEach_fresh ⟨alive, trivial⟩
      simp only [copyToDb, stored, unchecked, present, true_and]
      refine ⟨purged_view env t i dbs, fun other => ?_⟩
      by_cases equal : other = key
      · simp [Store.view, equal]
      · simpa [Store.view, equal] using purged_view env t j dbs other

theorem moveToDb_lazy_iff (key : Str) (j : Index) :
    LazyIsEager (.moveToDb key j) env t i dbs ↔ ExpirySafe t i dbs (.moveToDb key j) := by
  by_cases same : i = j
  · subst same
    exact iff_of_true (transfer_self env t i dbs rfl) (.inl rfl)
  · rw [across_iff env t i dbs rfl same]
    cases stored : (purged (env.at t) dbs i).store.data.lookup key with
    | none =>
      simp only [moveToDb, stored, checked_absent env t i dbs stored, true_and]
      refine iff_of_true ⟨checked_view env t i dbs [key], purged_view env t j dbs⟩ (.inr ?_)
      exact (purged_absent_iff env t i dbs key).mp stored |>.imp id .inl
    | some value =>
      obtain ⟨alive, present, times⟩ := purged_present env t i dbs stored
      have unchecked : (dbs i).eraseEach (fun _ => t) [key] = dbs i := Database.eraseEach_fresh ⟨alive, trivial⟩
      have atKey := moved_view_iff env t j dbs value ((dbs i).store.expiryTimes.lookup key) key
      have safe : ExpirySafe t i dbs (.moveToDb key j) ↔
          (dbs i).store.expiryTimes.lookup key ≠ none ∨ (dbs j).isExpired t key = false := by
        simp [ExpirySafe, same, alive, Table.mem_of_lookup present, Finmap.lookup_eq_none]
      rw [safe, ← atKey]
      simp only [moveToDb, stored, unchecked, present, true_and, Store.view, copyExpiry_data, copyExpiry_expiry, times]
      constructor
      · rintro ⟨-, views⟩
        simpa using views key
      · intro here
        constructor
        · intro other
          by_cases equal : other = key
          · simp [equal]
          · simpa [equal, Store.view] using purged_view env t i dbs other
        · intro other
          by_cases equal : other = key
          · subst equal
            simpa using here
          · simpa [equal, Store.view] using purged_view env t j dbs other

/-! ### Traversals -/

theorem Database.Sim.check (db : Database) (key : Str) :
    Sim t db (db.eraseIfExpired t key).2 ∧
      (db.eraseIfExpired t key).2.store.data.lookup key = (db.view t key).1 := by
  obtain ⟨sim, fresh⟩ := Database.eraseEach_sim t [key] db
  refine ⟨sim, ?_⟩
  have same := sim.view key
  rw [view_fresh (fresh key List.mem_cons_self)] at same
  rw [same]
  rfl

theorem manyGetLoop_view (keys : List Str) (db : Database) :
    (manyGetLoop (fun _ => t) keys db).1 = keys.map (fun key => (db.view t key).1) ∧
      Database.Sim t db (manyGetLoop (fun _ => t) keys db).2 := by
  induction keys generalizing db with
  | nil => exact ⟨rfl, .refl t db⟩
  | cons key keys ih =>
    obtain ⟨sim, read⟩ := Database.Sim.check t db key
    obtain ⟨values, later⟩ := ih (db.eraseIfExpired t key).2
    refine ⟨?_, sim.trans later⟩
    rw [List.map_cons, manyGetLoop, expiryAwareGet]
    dsimp only
    rw [read, values]
    simp only [sim.view]

theorem manyGet_view (env : Env) (keys : List Str) (db : Database) :
    (manyGet keys (env.at t) db).1 = keys.map (fun key => (db.view t key).1) ∧
      Database.Sim t db (manyGet keys (env.at t) db).2 := by
  have checked := (Database.eraseEach_sim t keys db).1
  obtain ⟨values, read⟩ := manyGetLoop_view t keys (db.eraseEach (fun _ => t) keys)
  refine ⟨?_, checked.trans read⟩
  simp only [checked.view]
  exact values

theorem reading_lazy {op : Op} {read : Env → Database → Reply × Database}
    (reading : op.action (env.at t) = .reading read)
    (blind : ∀ db db', Database.Sim t db db' → (read (env.at t) db).1 = (read (env.at t) db').1 ∧
      Database.Sim t (read (env.at t) db).2 (read (env.at t) db').2) : LazyIsEager op env t i dbs := by
  obtain ⟨reply, sim⟩ := blind _ _ (purged_sim env t dbs i)
  rw [LazyIsEager, exec_reading i _ reading, exec_reading i _ reading, Option.rel_some_some]
  exact ⟨reply, (update_views t i (purged_sim env t dbs)).mpr sim.view⟩

theorem manyGet_lazy (ks : List Str) : LazyIsEager (.manyGet ks) env t i dbs := by
  refine reading_lazy env t i dbs rfl fun db db' sim => ?_
  obtain ⟨values, after⟩ := manyGet_view t env ks db
  obtain ⟨values', after'⟩ := manyGet_view t env ks db'
  refine ⟨congrArg Reply.values ?_, after.symm.trans (sim.trans after')⟩
  rw [values, values']
  simp only [sim.view]

theorem keys_lazy : LazyIsEager .keys env t i dbs := by
  refine reading_lazy env t i dbs rfl fun db db' sim => ?_
  obtain ⟨after, fresh⟩ := Database.deepPurge_sim env t db
  obtain ⟨after', fresh'⟩ := Database.deepPurge_sim env t db'
  have both := after.symm.trans (sim.trans after')
  refine ⟨congrArg Reply.keys (Finset.ext fun key => ?_), both⟩
  simp only [keys, Finmap.mem_keys]
  rw [← Finmap.lookup_isSome, ← Finmap.lookup_isSome, (both.fresh (fresh key) (fresh' key)).1]

/-- A call is blind to the keys that have expired but are still stored exactly if it is not one of
those that act on such a key without checking it. -/
theorem lazy_is_eager_iff (op : Op) : LazyIsEager op env t i dbs ↔ ExpirySafe t i dbs op := by
  cases op with
  | reset => exact iff_of_true (reset_lazy env t i dbs) trivial
  | del key => exact del_lazy_iff env t i dbs key
  | clearExpiry key => exact clearExpiry_lazy_iff env t i dbs key
  | clearAllExpiry => exact clearAllExpiry_lazy_iff env t i dbs
  | setExpiry key time => exact setExpiry_lazy_iff env t i dbs key time
  | moveTo source dest => exact moveTo_lazy_iff env t i dbs source dest
  | copyToDb key j => exact iff_of_true (copyToDb_lazy env t i dbs key j) trivial
  | moveToDb key j => exact moveToDb_lazy_iff env t i dbs key j
  | keys => exact iff_of_true (keys_lazy env t i dbs) trivial
  | manyGet ks => exact iff_of_true (manyGet_lazy env t i dbs ks) trivial
  | begin | commit | discard =>
    refine iff_of_true ?_ trivial
    rw [LazyIsEager, exec_idle i _ rfl, exec_idle i _ rfl, Option.rel_some_some]
    exact ⟨rfl, fun j => (purged_sim env t dbs j).view⟩
  | _ => exact iff_of_true (plain_lazy env t i dbs rfl rfl) trivial

end

/-- A key that expired at time 1. -/
def expiredKey : Databases := fun _ =>
  { store := { data := (∅ : Table Str Data).insert [107] (.int 7)
               expiryTimes := (∅ : Table Str Time).insert [107] 1 } }

/-- At time 2 `DEL` reports the deletion of a key that no longer exists. -/
theorem del_expired_differs : ¬LazyIsEager (.del [107]) (.frozen 2) 2 0 expiredKey := by
  rw [del_lazy_iff, not_not]
  exact ⟨by simp [expiredKey, Database.isExpired], by simp [expiredKey]⟩

end Vanity.Db
