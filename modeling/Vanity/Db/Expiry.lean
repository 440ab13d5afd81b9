import Vanity.Db.Types

/-!
# Expiry

`expiry_database.cpp`. Every operation on a key first calls `erase_if_expired` on it, so an
`Operation` is a list of keys to check and a body that runs on the two tables afterwards. The
clock is read once for each check. A body is `none` where the source runs into undefined
behaviour.
-/

namespace Vanity.Db

namespace Database

/-- `expire`: report the key to `pre_expire` and erase it. -/
def expire (db : Database) (key : Str) : Database :=
  { db with store := db.store.doExpire key, preExpired := db.preExpired ++ [key] }

def isExpired (db : Database) (now : Time) (key : Str) : Bool :=
  if !db.expiryEnabled then false
  else match db.store.expiryTimes.lookup key with
    | none => false
    | some time => decide (now > time)

def eraseIfExpired (db : Database) (now : Time) (key : Str) : Bool × Database :=
  if db.isExpired now key then (true, db.expire key) else (false, db)

def eraseEach (now : Nat → Time) : List Str → Database → Database
  | [], db => db
  | key :: keys, db => eraseEach (fun i => now (i + 1)) keys (db.eraseIfExpired (now 0) key).2

def forceExpire (db : Database) (key : Str) : Database := { db with store := db.store.doExpire key }

def setEnabled (db : Database) (enable : Bool) : Database := { db with expiryEnabled := enable }

def expiredAmong (db : Database) (now : Nat → Time) : List Str → List Str
  | [] => []
  | key :: keys =>
    let rest := expiredAmong db (fun i => now (i + 1)) keys
    if db.isExpired (now 0) key then key :: rest else rest

def deepPurge (db : Database) (env : Env) : Database :=
  (db.expiredAmong env.now (env.order.list db.store.expiryTimes.keys)).foldl expire db

/-- One round of `shallow_purge`: how many of the sampled keys it expired. -/
def purgeSample (now : Nat → Time) : List Str → Database → Nat × Database
  | [], db => (0, db)
  | key :: keys, db =>
    let (erased, db) := db.eraseIfExpired (now 0) key
    let (count, db) := purgeSample (fun i => now (i + 1)) keys db
    ((if erased then 1 else 0) + count, db)

/-- The loop of `shallow_purge`. The quotient is of two `size_t`, so it is below 0.25 exactly when
it is 0. Each round that goes on has expired its whole sample, so the number of expiry times
bounds the number of rounds. -/
def shallowPurgeLoop (env : Env) : Nat → Nat → Nat → Database → Database
  | 0, _, _, db => db
  | fuel + 1, round, tick, db =>
    if db.store.expiryTimes.keys = ∅ then db
    else
      let keys := env.sample round db.store.expiryTimes.keys
      let size := min maxSampleSize db.store.expiryTimes.keys.card
      let (expired, db) := db.purgeSample (fun i => env.now (tick + i)) keys
      if expired / size = 0 then db else shallowPurgeLoop env fuel (round + 1) (tick + size) db

def shallowPurge (db : Database) (env : Env) : Database :=
  shallowPurgeLoop env (db.store.expiryTimes.keys.card + 1) 0 0 db

end Database

/-- A database operation: the keys it checks for expiry, then what it does. -/
structure Operation (α : Type) where
  checks : List Str
  body : Store → Option (α × Store)

def Operation.run {α : Type} (op : Operation α) (env : Env) (db : Database) : Option (α × Database) := do
  let db := db.eraseEach env.now op.checks
  let (result, store) ← op.body db.store
  return (result, { db with store })

/-! ### The operations of `ExpiryDatabase` -/

def clearExpiry (key : Str) : Operation Unit where
  checks := []
  body s := some ((), s.clearExpiry key)

def setExpiry (key : Str) (time : Time) : Operation Unit where
  checks := []
  body s := some ((), if s.contains key then { s with expiryTimes := s.expiryTimes.insert key time } else s)

def getExpiry (key : Str) : Operation (Option Time) where
  checks := [key]
  body s := some (s.expiryTimes.lookup key, s)

def clearAllExpiry : Operation Unit where
  checks := []
  body s := some ((), { s with expiryTimes := ∅ })

def expiryAwareGet (now : Time) (key : Str) (db : Database) : Option Data × Database :=
  let db := (db.eraseIfExpired now key).2
  (db.store.data.lookup key, db)

/-! ### What the checks do -/

def Store.SameExcept (keys : List Str) (s t : Store) : Prop :=
  ∀ other, other ∉ keys →
    s.data.lookup other = t.data.lookup other ∧ s.expiryTimes.lookup other = t.expiryTimes.lookup other

namespace Store

theorem foldl_doExpire_data (keys : List Str) (s : Store) (other : Str) :
    (keys.foldl doExpire s).data.lookup other = if other ∈ keys then none else s.data.lookup other := by
  induction keys generalizing s with
  | nil => rfl
  | cons key keys ih =>
    rw [List.foldl_cons, ih, doExpire_lookup]
    by_cases same : other = key
    · simp [same]
    · simp [same]

theorem foldl_doExpire_expiry (keys : List Str) (s : Store) (other : Str) :
    (keys.foldl doExpire s).expiryTimes.lookup other =
      if other ∈ keys then none else s.expiryTimes.lookup other := by
  induction keys generalizing s with
  | nil => rfl
  | cons key keys ih =>
    rw [List.foldl_cons, ih, doExpire_expiry]
    by_cases same : other = key
    · simp [same]
    · simp [same]

theorem SameExcept.foldl_doExpire {keys expired : List Str} {s t : Store} (same : SameExcept keys s t)
    (covered : keys ⊆ expired) : expired.foldl doExpire s = expired.foldl doExpire t := by
  apply ext_lookup
  · intro other
    rw [foldl_doExpire_data, foldl_doExpire_data]
    split
    · rfl
    · rename_i kept
      exact (same other fun member => kept (covered member)).1
  · intro other
    rw [foldl_doExpire_expiry, foldl_doExpire_expiry]
    split
    · rfl
    · rename_i kept
      exact (same other fun member => kept (covered member)).2

end Store

namespace Database

theorem disabled_isExpired {db : Database} (disabled : db.expiryEnabled = false) (now : Time) (key : Str) :
    db.isExpired now key = false := by
  simp [isExpired, disabled]

theorem eraseIfExpired_disabled {db : Database} (disabled : db.expiryEnabled = false) (now : Time) (key : Str) :
    db.eraseIfExpired now key = (false, db) := by
  simp [eraseIfExpired, disabled_isExpired disabled]

theorem eraseEach_disabled {db : Database} (disabled : db.expiryEnabled = false) (now : Nat → Time)
    (keys : List Str) : db.eraseEach now keys = db := by
  induction keys generalizing now with
  | nil => rfl
  | cons key keys ih => rw [eraseEach, eraseIfExpired_disabled disabled, ih]

def Fresh (db : Database) (now : Nat → Time) : List Str → Prop
  | [] => True
  | key :: keys => db.isExpired (now 0) key = false ∧ Fresh db (fun i => now (i + 1)) keys

theorem eraseEach_fresh {db : Database} {now : Nat → Time} {keys : List Str} (fresh : db.Fresh now keys) :
    db.eraseEach now keys = db := by
  induction keys generalizing now with
  | nil => rfl
  | cons key keys ih =>
    have kept : db.eraseIfExpired (now 0) key = (false, db) := by simp [eraseIfExpired, fresh.1]
    rw [eraseEach, kept]
    exact ih fresh.2

/-- The keys `expired` were reported to `pre_expire` and erased, in this order, and nothing else
changed. -/
structure Expired (before after : Database) (expired : List Str) : Prop where
  store : after.store = expired.foldl Store.doExpire before.store
  logged : after.preExpired = before.preExpired ++ expired
  enabled : after.expiryEnabled = before.expiryEnabled

theorem Expired.refl (db : Database) : Expired db db [] := ⟨rfl, by simp, rfl⟩

theorem Expired.trans {a b c : Database} {first second : List Str} (h : Expired a b first)
    (h' : Expired b c second) : Expired a c (first ++ second) :=
  ⟨by rw [h'.store, h.store, List.foldl_append], by rw [h'.logged, h.logged, List.append_assoc],
    h'.enabled.trans h.enabled⟩

theorem expire_expired (db : Database) (key : Str) : Expired db (db.expire key) [key] := ⟨rfl, rfl, rfl⟩

theorem eraseIfExpired_expired (db : Database) (now : Time) (key : Str) :
    Expired db (db.eraseIfExpired now key).2 (if db.isExpired now key then [key] else []) := by
  unfold eraseIfExpired
  split
  · exact expire_expired db key
  · exact .refl db

theorem foldl_expire_expired (keys : List Str) (db : Database) : Expired db (keys.foldl expire db) keys := by
  induction keys generalizing db with
  | nil => exact .refl db
  | cons key keys ih => exact (expire_expired db key).trans (ih _)

theorem eraseEach_expired (now : Nat → Time) (keys : List Str) (db : Database) :
    ∃ expired, Expired db (db.eraseEach now keys) expired ∧ expired ⊆ keys := by
  induction keys generalizing now db with
  | nil => exact ⟨[], .refl db, List.Subset.refl _⟩
  | cons key keys ih =>
    obtain ⟨expired, later, within⟩ := ih (fun i => now (i + 1)) (db.eraseIfExpired (now 0) key).2
    refine ⟨_, (eraseIfExpired_expired db (now 0) key).trans later, ?_⟩
    intro other member
    rcases List.mem_append.mp member with first | rest
    · split at first
      · rw [List.mem_singleton.mp first]
        exact List.mem_cons_self
      · cases first
    · exact List.mem_cons_of_mem _ (within rest)

theorem expire_isExpired {db : Database} {key other : Str} (different : other ≠ key) (now : Time) :
    (db.expire key).isExpired now other = db.isExpired now other := by
  simp [isExpired, expire, different]

theorem eraseEach_both {db : Database} {now : Nat → Time} {first second : Str} (different : second ≠ first)
    (one : db.isExpired (now 0) first = true) (two : db.isExpired (now 1) second = true) :
    Expired db (db.eraseEach now [first, second]) [first, second] := by
  have next : (db.expire first).isExpired (now 1) second = true := by rw [expire_isExpired different, two]
  have both : db.eraseEach now [first, second] = (db.expire first).expire second := by
    simp [eraseEach, eraseIfExpired, one, next]
  rw [both]
  exact (expire_expired db first).trans (expire_expired _ second)

/-! ### What the purges do -/

theorem purgeSample_expired (now : Nat → Time) (keys : List Str) (db : Database) :
    ∃ expired, Expired db (db.purgeSample now keys).2 expired := by
  induction keys generalizing now db with
  | nil => exact ⟨[], .refl db⟩
  | cons key keys ih =>
    obtain ⟨expired, later⟩ := ih (fun i => now (i + 1)) (db.eraseIfExpired (now 0) key).2
    exact ⟨_, (eraseIfExpired_expired db (now 0) key).trans later⟩

theorem shallowPurgeLoop_expired (env : Env) (fuel round tick : Nat) (db : Database) :
    ∃ expired, Expired db (shallowPurgeLoop env fuel round tick db) expired := by
  induction fuel generalizing round tick db with
  | zero => exact ⟨[], .refl db⟩
  | succ fuel ih =>
    unfold shallowPurgeLoop
    split
    · exact ⟨[], .refl db⟩
    · obtain ⟨sampled, first⟩ := purgeSample_expired (fun i => env.now (tick + i))
        (env.sample round db.store.expiryTimes.keys) db
      dsimp only
      split
      · exact ⟨sampled, first⟩
      · obtain ⟨others, later⟩ := ih (round + 1) (tick + min maxSampleSize db.store.expiryTimes.keys.card)
          (db.purgeSample (fun i => env.now (tick + i)) (env.sample round db.store.expiryTimes.keys)).2
        exact ⟨sampled ++ others, first.trans later⟩

theorem shallowPurge_expired (db : Database) (env : Env) :
    ∃ expired, Expired db (db.shallowPurge env) expired :=
  shallowPurgeLoop_expired env _ 0 0 db

theorem deepPurge_expired (db : Database) (env : Env) : ∃ expired, Expired db (db.deepPurge env) expired :=
  ⟨_, foldl_expire_expired _ db⟩

end Database

end Vanity.Db
