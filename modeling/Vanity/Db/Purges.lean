import Vanity.Db.EagerExpiry

/-!
# Where the shallow purge stops

`shallow_purge` takes samples of the keys with an expiry time and expires what has expired of them, until a
sample has few expired keys. It compares a quotient of two integers with a quarter, so that it goes on only
after a sample that had expired as a whole.
-/

namespace Vanity.Db

/-- A round of the loop: how many keys were sampled, and how many of them had expired. -/
structure Round where
  size : Nat
  expired : Nat

def Database.expiring (db : Database) : Finset Str := db.store.expiryTimes.keys

def Database.sampleSize (db : Database) : Nat := min maxSampleSize db.expiring.card

/-- The loop of `shallow_purge` with the rounds it makes, however many they are. -/
inductive Purging (env : Env) : Nat → Nat → Database → List Round → Database → Prop
  | finished {round tick : Nat} {db : Database} (none_ : db.expiring = ∅) : Purging env round tick db [] db
  | stop {round tick expired : Nat} {db after : Database} (some_ : db.expiring ≠ ∅)
      (sampled : db.purgeSample (fun i => env.now (tick + i)) (env.sample round db.expiring) = (expired, after))
      (few : expired / db.sampleSize = 0) : Purging env round tick db [⟨db.sampleSize, expired⟩] after
  | again {round tick expired : Nat} {db next after : Database} {rounds : List Round} (some_ : db.expiring ≠ ∅)
      (sampled : db.purgeSample (fun i => env.now (tick + i)) (env.sample round db.expiring) = (expired, next))
      (many : expired / db.sampleSize ≠ 0)
      (later : Purging env (round + 1) (tick + db.sampleSize) next rounds after) :
      Purging env round tick db (⟨db.sampleSize, expired⟩ :: rounds) after

/-- No expiry time is left, or less than a quarter of the last sample had expired. -/
def Calm (rounds : List Round) (after : Database) : Prop :=
  after.expiring = ∅ ∨ ∃ last, rounds.getLast? = some last ∧ 4 * last.expired < last.size

/-- The purge ends, has expired nothing but expired keys, and could end. -/
structure StopsInTime (env : Env) (db : Database) (rounds : List Round) (after : Database) : Prop where
  purging : Purging env 0 0 db rounds after
  result : db.shallowPurge env = after
  onlyExpired : ∃ expired, db.Expired after expired ∧ ∀ key ∈ expired,
    ∃ n < (rounds.map Round.size).sum, db.isExpired (env.now n) key = true
  calm : Calm rounds after

/-! ### The samples -/

/-- The sample that comes so many rounds later, and the number of readings before it, if each sample is
taken out as a whole. -/
def Env.sampleAfter (env : Env) : Nat → Nat → Nat → Finset Str → List Str × Nat
  | 0, round, tick, keys => (env.sample round keys, tick)
  | more + 1, round, tick, keys =>
    env.sampleAfter more (round + 1) (tick + (env.sample round keys).length) (keys \ (env.sample round keys).toFinset)

section
variable (env : Env) (db : Database)

def Database.expiredOf (sample : List Str × Nat) : List Str :=
  db.expiredAmong (fun i => env.now (sample.2 + i)) sample.1

def Wholly (sample : List Str × Nat) : Prop := (db.expiredOf env sample).length = sample.1.length

def Barely (sample : List Str × Nat) : Prop := 4 * (db.expiredOf env sample).length < sample.1.length

/-- No sample behind others that had expired as a whole has expired by a quarter or more and not as a
whole. -/
def Decided (round tick : Nat) (keys : Finset Str) : Prop :=
  ∀ n, (∀ m < n, Wholly env db (env.sampleAfter m round tick keys)) →
    Wholly env db (env.sampleAfter n round tick keys) ∨ Barely env db (env.sampleAfter n round tick keys)

end

namespace Database

variable {env : Env} {db other : Database} {now : Nat → Time} {keys erased : List Str} {key : Str}

theorem expiredAmong_sublist (db : Database) (now : Nat → Time) (keys : List Str) :
    (db.expiredAmong now keys).Sublist keys := by
  induction keys generalizing now with
  | nil => exact List.Sublist.refl _
  | cons key keys ih =>
    rw [expiredAmong]
    split
    · exact (ih _).cons_cons key
    · exact (ih _).cons key

theorem expiredAmong_expired (member : key ∈ db.expiredAmong now keys) :
    ∃ n < keys.length, db.isExpired (now n) key = true := by
  induction keys generalizing now with
  | nil => cases member
  | cons first keys ih =>
    rw [expiredAmong] at member
    have rest : key ∈ db.expiredAmong (fun i => now (i + 1)) keys →
        ∃ n < (first :: keys).length, db.isExpired (now n) key = true := by
      intro member
      obtain ⟨n, inside, gone⟩ := ih member
      exact ⟨n + 1, Nat.succ_lt_succ inside, gone⟩
    split at member
    · rename_i gone
      rcases List.mem_cons.mp member with rfl | member
      · exact ⟨0, Nat.zero_lt_succ _, gone⟩
      · exact rest member
    · exact rest member

theorem expiredAmong_congr (same : ∀ key ∈ keys, ∀ t, other.isExpired t key = db.isExpired t key) :
    other.expiredAmong now keys = db.expiredAmong now keys := by
  induction keys generalizing now with
  | nil => rfl
  | cons key keys ih =>
    rw [expiredAmong, expiredAmong, same key List.mem_cons_self,
      ih fun other member => same other (List.mem_cons_of_mem _ member)]

theorem foldl_expire_isExpired (db : Database) (erased : List Str) (t : Time) (key : Str) :
    (erased.foldl expire db).isExpired t key = if key ∈ erased then false else db.isExpired t key := by
  have left := foldl_expire_expired erased db
  unfold isExpired
  rw [left.enabled, left.store, Store.foldl_doExpire_expiry]
  by_cases gone : key ∈ erased <;> simp [gone]

theorem foldl_expire_expiring (db : Database) (erased : List Str) :
    (erased.foldl expire db).expiring = db.expiring \ erased.toFinset := by
  ext key
  unfold expiring
  rw [(foldl_expire_expired erased db).store, Finset.mem_sdiff, Finmap.mem_keys, Finmap.mem_keys, List.mem_toFinset,
    ← Finmap.lookup_isSome, ← Finmap.lookup_isSome, Store.foldl_doExpire_expiry]
  by_cases gone : key ∈ erased <;> simp [gone]

/-- A round counts and expires the expired keys of its sample. -/
theorem purgeSample_eq (nodup : keys.Nodup) (now : Nat → Time) (db : Database) :
    db.purgeSample now keys = ((db.expiredAmong now keys).length, (db.expiredAmong now keys).foldl expire db) := by
  induction keys generalizing now db with
  | nil => rfl
  | cons key keys ih =>
    obtain ⟨outside, nodup⟩ := List.nodup_cons.mp nodup
    rw [purgeSample, expiredAmong]
    cases gone : db.isExpired (now 0) key with
    | true =>
      have apart : (db.expire key).expiredAmong (fun i => now (i + 1)) keys =
          db.expiredAmong (fun i => now (i + 1)) keys := by
        apply expiredAmong_congr
        intro other member t
        apply expire_isExpired
        rintro rfl
        exact outside member
      simp [eraseIfExpired, gone, ih nodup, apart, Nat.add_comm]
    | false => simp [eraseIfExpired, gone, ih nodup]

end Database

section
variable {env : Env} {db next after : Database} {round tick expired : Nat} {rounds : List Round} {keys : Finset Str}

theorem sampleAfter_subset (n round tick : Nat) (keys : Finset Str) :
    ∀ key ∈ (env.sampleAfter n round tick keys).1, key ∈ keys := by
  induction n generalizing round tick keys with
  | zero => exact env.sample_subset round keys
  | succ n ih =>
    intro key member
    exact (Finset.mem_sdiff.mp (ih _ _ _ key member)).1

theorem decided_congr (db : Database) (same : ∀ key ∈ keys, ∀ t, next.isExpired t key = db.isExpired t key) :
    Decided env next round tick keys ↔ Decided env db round tick keys := by
  have equal : ∀ n, next.expiredOf env (env.sampleAfter n round tick keys) =
      db.expiredOf env (env.sampleAfter n round tick keys) := by
    intro n
    exact Database.expiredAmong_congr fun key member => same key (sampleAfter_subset n round tick keys key member)
  simp only [Decided, Wholly, Barely, equal]

theorem decided_empty : Decided env db round tick ∅ := by
  intro n _
  have nothing : (env.sampleAfter n round tick ∅).1 = [] := by
    apply List.eq_nil_iff_forall_not_mem.mpr
    intro key member
    exact Finset.notMem_empty key (sampleAfter_subset n round tick ∅ key member)
  left
  rw [Wholly, Database.expiredOf, nothing]
  rfl

/-- The first sample, and if it has expired as a whole the rest. -/
theorem decided_iff (env : Env) (db : Database) (round tick : Nat) (keys : Finset Str) :
    Decided env db round tick keys ↔
      (Wholly env db (env.sample round keys, tick) ∨ Barely env db (env.sample round keys, tick)) ∧
        (Wholly env db (env.sample round keys, tick) →
          Decided env db (round + 1) (tick + (env.sample round keys).length)
            (keys \ (env.sample round keys).toFinset)) := by
  constructor
  · intro decided
    refine ⟨decided 0 nofun, fun wholly n before => decided (n + 1) ?_⟩
    intro m earlier
    cases m with
    | zero => exact wholly
    | succ m => exact before m (Nat.lt_of_succ_lt_succ earlier)
  · rintro ⟨first, rest⟩ n before
    cases n with
    | zero => exact first
    | succ n => exact rest (before 0 n.succ_pos) n fun m earlier => before (m + 1) (Nat.succ_lt_succ earlier)

/-! ### One round -/

theorem sample_length_eq : (env.sample round db.expiring).length = db.sampleSize := env.sample_length round _

theorem sampleSize_pos (some_ : db.expiring ≠ ∅) : 0 < db.sampleSize := by
  have keys := Finset.card_pos.mpr (Finset.nonempty_iff_ne_empty.mpr some_)
  exact Nat.lt_min.mpr ⟨by decide, keys⟩

/-- What a round leaves and counts. -/
theorem round_eq
    (sampled : db.purgeSample (fun i => env.now (tick + i)) (env.sample round db.expiring) = (expired, next)) :
    expired = (db.expiredOf env (env.sample round db.expiring, tick)).length ∧
      next = (db.expiredOf env (env.sample round db.expiring, tick)).foldl Database.expire db := by
  rw [Database.purgeSample_eq (env.sample_nodup round _)] at sampled
  obtain ⟨rfl, rfl⟩ := Prod.mk.inj sampled
  exact ⟨rfl, rfl⟩

theorem expiredOf_le : (db.expiredOf env (env.sample round db.expiring, tick)).length ≤ db.sampleSize := by
  have size : (env.sample round db.expiring).length = db.sampleSize := sample_length_eq
  rw [← size]
  exact (db.expiredAmong_sublist _ _).length_le

/-- The quotient of the two sizes is zero unless the whole sample has expired. -/
theorem goesOn_iff (some_ : db.expiring ≠ ∅)
    (sampled : db.purgeSample (fun i => env.now (tick + i)) (env.sample round db.expiring) = (expired, next)) :
    expired / db.sampleSize ≠ 0 ↔ Wholly env db (env.sample round db.expiring, tick) := by
  have most : (db.expiredOf env (env.sample round db.expiring, tick)).length ≤ db.sampleSize := expiredOf_le
  have size := sampleSize_pos some_
  rw [(round_eq sampled).1, Ne, Nat.div_eq_zero_iff_lt size, Wholly, sample_length_eq]
  omega

theorem wholly_eq (wholly : Wholly env db (env.sample round db.expiring, tick)) :
    db.expiredOf env (env.sample round db.expiring, tick) = env.sample round db.expiring :=
  (db.expiredAmong_sublist _ _).eq_of_length wholly

/-- A round that goes on has taken its sample out. -/
theorem again_expiring (wholly : Wholly env db (env.sample round db.expiring, tick))
    (sampled : db.purgeSample (fun i => env.now (tick + i)) (env.sample round db.expiring) = (expired, next)) :
    next.expiring = db.expiring \ (env.sample round db.expiring).toFinset := by
  rw [(round_eq sampled).2, Database.foldl_expire_expiring, wholly_eq wholly]

theorem again_card (some_ : db.expiring ≠ ∅) (wholly : Wholly env db (env.sample round db.expiring, tick))
    (sampled : db.purgeSample (fun i => env.now (tick + i)) (env.sample round db.expiring) = (expired, next)) :
    next.expiring.card < db.expiring.card := by
  have size := sampleSize_pos some_
  have within : (env.sample round db.expiring).toFinset ⊆ db.expiring := by
    intro key member
    exact env.sample_subset round _ key (List.mem_toFinset.mp member)
  have whole := Finset.card_sdiff_add_card_eq_card within
  rw [List.toFinset_card_of_nodup (env.sample_nodup round _), sample_length_eq] at whole
  rw [again_expiring wholly sampled]
  omega

theorem again_decided (wholly : Wholly env db (env.sample round db.expiring, tick))
    (sampled : db.purgeSample (fun i => env.now (tick + i)) (env.sample round db.expiring) = (expired, next)) :
    Decided env next (round + 1) (tick + db.sampleSize) next.expiring ↔ Decided env db round tick db.expiring := by
  rw [decided_iff env db, sample_length_eq, ← again_expiring wholly sampled, decided_congr db]
  · exact ⟨fun decided => ⟨.inl wholly, fun _ => decided⟩, fun decided => decided.2 wholly⟩
  · intro key member t
    rw [(round_eq sampled).2, wholly_eq wholly, Database.foldl_expire_isExpired, if_neg]
    rw [again_expiring wholly sampled, Finset.mem_sdiff, List.mem_toFinset] at member
    exact member.2

/-! ### The loop -/

/-- Every round that goes on leaves fewer keys, so that the loop ends. -/
theorem purging_ends (env : Env) (db : Database) (round tick : Nat) :
    ∃ rounds after, Purging env round tick db rounds after := by
  induction size : db.expiring.card using Nat.strong_induction_on generalizing db round tick with
  | h size ih =>
    subst size
    by_cases none_ : db.expiring = ∅
    · exact ⟨[], db, .finished none_⟩
    · rcases sampled : db.purgeSample (fun i => env.now (tick + i)) (env.sample round db.expiring) with ⟨expired, next⟩
      by_cases few : expired / db.sampleSize = 0
      · exact ⟨_, next, .stop none_ sampled few⟩
      · have wholly := (goesOn_iff none_ sampled).mp few
        have fewer := again_card none_ wholly sampled
        obtain ⟨rounds, after, later⟩ := ih _ fewer next (round + 1) (tick + db.sampleSize) rfl
        exact ⟨_, after, .again none_ sampled few later⟩

theorem shallowPurgeLoop_round (fuel : Nat) (some_ : db.expiring ≠ ∅)
    (sampled : db.purgeSample (fun i => env.now (tick + i)) (env.sample round db.expiring) = (expired, next)) :
    db.shallowPurgeLoop env (fuel + 1) round tick = if expired / db.sampleSize = 0 then next
      else next.shallowPurgeLoop env fuel (round + 1) (tick + db.sampleSize) := by
  unfold Database.expiring at some_ sampled
  rw [Database.shallowPurgeLoop, if_neg some_]
  dsimp only
  rw [sampled]
  rfl

theorem Purging.loop_eq (purging : Purging env round tick db rounds after) (fuel : Nat)
    (enough : db.expiring.card < fuel) : db.shallowPurgeLoop env fuel round tick = after := by
  induction purging generalizing fuel with
  | finished none_ =>
    obtain ⟨fuel, rfl⟩ := Nat.exists_eq_succ_of_ne_zero (Nat.ne_of_gt (Nat.zero_lt_of_lt enough))
    exact if_pos none_
  | stop some_ sampled few =>
    obtain ⟨fuel, rfl⟩ := Nat.exists_eq_succ_of_ne_zero (Nat.ne_of_gt (Nat.zero_lt_of_lt enough))
    rw [shallowPurgeLoop_round fuel some_ sampled, if_pos few]
  | again some_ sampled many later ih =>
    obtain ⟨fuel, rfl⟩ := Nat.exists_eq_succ_of_ne_zero (Nat.ne_of_gt (Nat.zero_lt_of_lt enough))
    have fewer := again_card some_ ((goesOn_iff some_ sampled).mp many) sampled
    rw [shallowPurgeLoop_round fuel some_ sampled, if_neg many]
    exact ih fuel (by omega)

theorem expiredOf_expired {key : Str} (member : key ∈ db.expiredOf env (env.sample round db.expiring, tick)) :
    ∃ n < tick + db.sampleSize, db.isExpired (env.now n) key = true := by
  obtain ⟨n, inside, gone⟩ := Database.expiredAmong_expired member
  rw [sample_length_eq] at inside
  exact ⟨tick + n, Nat.add_lt_add_left inside tick, gone⟩

/-- What is erased had expired at a reading that the loop makes. -/
theorem Purging.onlyExpired (purging : Purging env round tick db rounds after) :
    ∃ expired, db.Expired after expired ∧ ∀ key ∈ expired,
      ∃ n < tick + (rounds.map Round.size).sum, db.isExpired (env.now n) key = true := by
  induction purging with
  | finished none_ => exact ⟨[], .refl _, nofun⟩
  | stop some_ sampled few =>
    rw [(round_eq sampled).2]
    exact ⟨_, Database.foldl_expire_expired _ _, fun key member => expiredOf_expired member⟩
  | again some_ sampled many later ih =>
    obtain ⟨expired, left, gone⟩ := ih
    rw [(round_eq sampled).2] at left gone
    refine ⟨_, (Database.foldl_expire_expired _ _).trans left, fun key member => ?_⟩
    rw [List.map_cons, List.sum_cons, ← Nat.add_assoc]
    rcases List.mem_append.mp member with here | there
    · obtain ⟨n, before, gone⟩ := expiredOf_expired here
      exact ⟨n, Nat.lt_add_right _ before, gone⟩
    · obtain ⟨n, before, gone⟩ := gone key there
      rw [Database.foldl_expire_isExpired] at gone
      split at gone
      · cases gone
      · exact ⟨n, before, gone⟩

/-- A round that ends the loop leaves a key of its sample. -/
theorem stop_expiring (some_ : db.expiring ≠ ∅)
    (sampled : db.purgeSample (fun i => env.now (tick + i)) (env.sample round db.expiring) = (expired, next))
    (few : expired / db.sampleSize = 0) : next.expiring ≠ ∅ := by
  intro none_
  have short : ¬Wholly env db _ := fun wholly => (goesOn_iff some_ sampled).mpr wholly few
  rw [(round_eq sampled).2, Database.foldl_expire_expiring, Finset.sdiff_eq_empty_iff_subset] at none_
  have covered : env.sample round db.expiring ⊆ db.expiredOf env (env.sample round db.expiring, tick) := by
    intro key member
    exact List.mem_toFinset.mp (none_ (env.sample_subset round _ key member))
  have most := (db.expiredAmong_sublist (fun i => env.now (tick + i)) (env.sample round db.expiring)).length_le
  have least := (List.subperm_of_subset (env.sample_nodup round _) covered).length_le
  exact short (Nat.le_antisymm most least)

theorem calm_cons {first : Round} (purging : Purging env round tick db rounds after) :
    Calm (first :: rounds) after ↔ Calm rounds after := by
  cases purging with
  | finished none_ => exact iff_of_true (.inl none_) (.inl none_)
  | stop | again => rw [Calm, Calm, List.getLast?_cons_cons]

/-- The loop ends as it should exactly if the samples are decided. -/
theorem Purging.calm_iff (purging : Purging env round tick db rounds after) :
    Calm rounds after ↔ Decided env db round tick db.expiring := by
  induction purging with
  | finished none_ =>
    rw [none_]
    exact iff_of_true (.inl none_) decided_empty
  | stop some_ sampled few =>
    have short : ¬Wholly env _ _ := fun wholly => (goesOn_iff some_ sampled).mpr wholly few
    have left := stop_expiring some_ sampled few
    rw [Calm, or_iff_right left, decided_iff, or_iff_right short, and_iff_left fun wholly => absurd wholly short]
    rw [Barely, sample_length_eq, ← (round_eq sampled).1]
    constructor
    · rintro ⟨last, same, few⟩
      obtain rfl := Option.some.inj same
      exact few
    · exact fun few => ⟨_, rfl, few⟩
  | again some_ sampled many later ih =>
    have wholly := (goesOn_iff some_ sampled).mp many
    rw [← again_decided wholly sampled, ← ih]
    exact calm_cons later

end

/-- The purge stops only when it should exactly if every sample that it comes to has expired as a whole or
by less than a quarter. -/
theorem stopsInTime_iff (env : Env) (db : Database) :
    (∃ rounds after, StopsInTime env db rounds after) ↔ Decided env db 0 0 db.expiring := by
  constructor
  · rintro ⟨rounds, after, stops⟩
    exact stops.purging.calm_iff.mp stops.calm
  · intro decided
    obtain ⟨rounds, after, purging⟩ := purging_ends env db 0 0
    have onlyExpired := purging.onlyExpired
    rw [Nat.zero_add] at onlyExpired
    exact ⟨rounds, after, purging, purging.loop_eq _ (Nat.lt_succ_self _), onlyExpired, purging.calm_iff.mpr decided⟩

/-- The first key has expired at time 5, the second one has not. -/
def halfExpired : Database :=
  { store := { expiryTimes := ((∅ : Table Str Time).insert [97] 0).insert [98] 10 } }

/-- A sample of two keys of which one has expired ends the purge. -/
theorem halfExpired_stopsEarly : ¬∃ rounds after, StopsInTime (.frozen 5) halfExpired rounds after := by
  rintro ⟨rounds, after, stops⟩
  have two : halfExpired.expiring = {[98], [97]} := by
    ext key
    simp [halfExpired, Database.expiring, Finmap.mem_keys, Finmap.notMem_empty]
  have sampled : ∀ key ∈ halfExpired.expiring, key ∈ (Env.frozen 5).sample 0 halfExpired.expiring := by
    intro key member
    have few : ((Order.startingWith []).list halfExpired.expiring).length ≤ maxSampleSize := by
      rw [Order.length, two]
      decide
    show key ∈ ((Order.startingWith []).list halfExpired.expiring).take maxSampleSize
    rw [List.take_of_length_le few]
    exact ((Order.startingWith []).mem _ _).mpr member
  rcases stops.purging.calm_iff.mp stops.calm 0 nofun with wholly | barely
  · have whole : [98] ∈ halfExpired.expiredOf (.frozen 5) ((Env.frozen 5).sample 0 halfExpired.expiring, 0) := by
      rw [wholly_eq wholly]
      exact sampled [98] (by simp [two])
    have gone := (Database.mem_expiredAmong.mp whole).2
    simp only [halfExpired, Database.isExpired, Finmap.lookup_insert] at gone
    exact absurd gone (by decide)
  · have gone : halfExpired.isExpired 5 [97] = true := by
      simp [halfExpired, Database.isExpired, Finmap.lookup_insert_of_ne]
    have first : [97] ∈ halfExpired.expiredOf (.frozen 5) ((Env.frozen 5).sample 0 halfExpired.expiring, 0) :=
      Database.mem_expiredAmong.mpr ⟨sampled [97] (by simp [two]), gone⟩
    have some_ := List.length_pos_of_mem first
    have size : halfExpired.sampleSize = 2 := by
      rw [Database.sampleSize, two]
      rfl
    change 4 * _ < ((Env.frozen 5).sample 0 halfExpired.expiring).length at barely
    rw [sample_length_eq, size] at barely
    change 4 * (halfExpired.expiredOf (.frozen 5) ((Env.frozen 5).sample 0 halfExpired.expiring, 0)).length < 2 at barely
    omega

end Vanity.Db
