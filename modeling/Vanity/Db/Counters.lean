import Vanity.Library.Runs
import Vanity.Db.Checks

/-!
# Integer counters

`INT_SET` and `INCR_INT` on one key, over any number of requests. Beside the database runs the exact sum,
an integer without bounds, which an increment changes only if the new sum is an `int64_t`.
-/

namespace Vanity.Db

inductive CounterRequest where
  | intSet (env : Env) (value : Int64)
  | incrInt (env : Env) (value : Int64)

/-- The database after some requests, with the last reply of an increment, the exact sum and the reply that
the increment should have given. -/
structure Counter where
  db : Database
  total : Int
  reply : Option Int64 := none
  owed : Option Int := none

def Fits (n : Int) : Prop := -2 ^ 63 ≤ n ∧ n < 2 ^ 63

instance (n : Int) : Decidable (Fits n) := inferInstanceAs (Decidable (_ ∧ _))

namespace Counter

/-- Before the first request the sum is the integer that is stored. -/
def start (key : Str) (db : Database) : Counter where
  db := db
  total := match db.store.data.lookup key with
    | some (.int n) => n.toInt
    | _ => 0

/-- The sum that an increment asks for. It starts from 0 for a missing or expired key, and there is none
for a key of another type. -/
def sum (key : Str) (env : Env) (value : Int64) (c : Counter) : Option Int :=
  match (c.db.view (env.now 0) key).1 with
  | none => some value.toInt
  | some (.int _) => some (c.total + value.toInt)
  | some _ => none

def step (key : Str) (c : Counter) : CounterRequest → Option Counter
  | .intSet env value => ((intSet key value).run env c.db).map fun (_, db) => { db, total := value.toInt }
  | .incrInt env value => ((incrInt key value).run env c.db).map fun (reply, db) =>
    match c.sum key env value with
    | none => { db, total := c.total, reply }
    | some n => if Fits n then { db, total := n, reply, owed := some n } else { db, total := c.total, reply }

/-- The key holds the exact sum, and the last increment returned it or was refused. -/
structure Exact (key : Str) (c : Counter) : Prop where
  stored : ∀ n, c.db.store.data.lookup key = some (.int n) → n.toInt = c.total
  replied : c.reply.map Int64.toInt = c.owed

/-- The sum that the request asks for is an `int64_t`. -/
def Admits (key : Str) (c : Counter) : CounterRequest → Prop
  | .intSet .. => True
  | .incrInt env value => ∀ n, c.sum key env value = some n → Fits n

theorem start_exact (key : Str) (db : Database) : Exact key (start key db) where
  stored n held := by
    change db.store.data.lookup key = some (.int n) at held
    simp only [start, held]
  replied := rfl

theorem fits_toInt (n : Int64) : Fits n.toInt := ⟨Int64.le_toInt n, Int64.toInt_lt n⟩

/-- The machine adds exactly as long as the sum fits. -/
theorem add_exact {n value : Int64} (fits : Fits (n.toInt + value.toInt)) :
    (n + value).toInt = n.toInt + value.toInt := by
  obtain ⟨low, high⟩ := fits
  rw [Int64.toInt_add]
  apply Int.bmod_eq_of_le
  · omega
  · omega

section
variable {key : Str} {c t : Counter} {env : Env} {value : Int64}

theorem view_lookup {db : Database} {now : Time} {found : Data} (seen : (db.view now key).1 = some found) :
    db.store.data.lookup key = some found := by
  cases gone : db.isExpired now key with
  | true =>
    rw [Database.view_expired gone] at seen
    cases seen
  | false =>
    rw [Database.view_fresh gone] at seen
    exact seen

theorem sum_int {n : Int64} (seen : (c.db.view (env.now 0) key).1 = some (.int n)) :
    c.sum key env value = some (c.total + value.toInt) := by
  rw [sum, seen]

theorem intSet_exact (taken : c.step key (.intSet env value) = some t) : Exact key t := by
  obtain rfl := Option.some.inj taken
  refine ⟨fun n held => ?_, rfl⟩
  change ((c.db.store.put key (.int value)).clearExpiry key).data.lookup key = some (.int n) at held
  rw [Store.clearExpiry_data, Store.put_lookup, if_pos rfl] at held
  obtain rfl := Data.int.inj (Option.some.inj held)
  rfl

/-- What an increment leaves, without the exact sum. -/
theorem incrInt_run (db : Database) (env : Env) (key : Str) (value : Int64) :
    ∃ reply after, (incrInt key value).run env db = some (reply, after) ∧
      match (db.view (env.now 0) key).1 with
      | none => reply = some value ∧ after.store.data.lookup key = some (.int value)
      | some (.int n) => reply = some (n + value) ∧ after.store.data.lookup key = some (.int (n + value))
      | some other => reply = none ∧ after.store.data.lookup key = some other := by
  have checked := eraseIfExpired_rebinds db (env.now 0) key
  rw [Operation.run_checked rfl]
  cases seen : (db.view (env.now 0) key).1 with
  | none =>
    rw [seen] at checked
    refine ⟨some value, _, ?_, rfl, (checked.put (.int value)).value⟩
    simp only [incrInt, checked.value, Option.map_some]
  | some found =>
    rw [seen] at checked
    cases found with
    | int n =>
      refine ⟨some (n + value), _, ?_, rfl, (checked.put (.int (n + value))).value⟩
      simp only [incrInt, checked.value, Option.map_some]
    | _ =>
      refine ⟨none, _, ?_, rfl, checked.value⟩
      simp only [incrInt, checked.value, Option.map_some]

/-- An increment is exact exactly if it does not ask for more than fits. -/
theorem incrInt_exact_iff (exact : Exact key c) (taken : c.step key (.incrInt env value) = some t) :
    Exact key t ↔ Admits key c (.incrInt env value) := by
  obtain ⟨reply, after, ran, left⟩ := incrInt_run c.db env key value
  rw [step, ran, Option.map_some, Option.some.injEq] at taken
  unfold Admits
  dsimp only [sum] at taken ⊢
  cases seen : (c.db.view (env.now 0) key).1 with
  | none =>
    rw [seen] at taken left
    obtain ⟨rfl, held⟩ := left
    simp only [if_pos (fits_toInt value)] at taken
    subst taken
    refine iff_of_true ⟨fun n stored => ?_, rfl⟩ ?_
    · obtain rfl := Data.int.inj (Option.some.inj (held.symm.trans stored))
      rfl
    · intro n asked
      obtain rfl := Option.some.inj asked
      exact fits_toInt value
  | some found =>
    rw [seen] at taken left
    cases found with
    | int n =>
      obtain ⟨rfl, held⟩ := left
      have base := exact.stored n (view_lookup seen)
      simp only [Option.some.injEq, forall_eq']
      by_cases fits : Fits (c.total + value.toInt)
      · have same : (n + value).toInt = c.total + value.toInt := by
          rw [← base] at fits ⊢
          exact add_exact fits
        simp only [if_pos fits] at taken
        subst taken
        refine iff_of_true ⟨fun m stored => ?_, congrArg some same⟩ fits
        obtain rfl := Data.int.inj (Option.some.inj (held.symm.trans stored))
        exact same
      · simp only [if_neg fits] at taken
        subst taken
        refine iff_of_false (fun exact => ?_) fits
        cases exact.replied
    | _ =>
      obtain ⟨rfl, held⟩ := left
      subst taken
      refine iff_of_true ⟨fun n stored => ?_, rfl⟩ ?_
      · cases held.symm.trans stored
      · intro n none
        cases none

theorem step_taken (key : Str) (c : Counter) (request : CounterRequest) : ∃ t, c.step key request = some t := by
  cases request with
  | intSet env value => exact ⟨_, rfl⟩
  | incrInt env value =>
    obtain ⟨reply, after, ran, -⟩ := incrInt_run c.db env key value
    exact ⟨_, by rw [step, ran]; rfl⟩

theorem exact_iff_admits {request : CounterRequest} (exact : Exact key c) (taken : c.step key request = some t) :
    Exact key t ↔ Admits key c request := by
  cases request with
  | intSet env value => exact iff_of_true (intSet_exact taken) trivial
  | incrInt env value => exact incrInt_exact_iff exact taken

end

/-- Over any run of requests the counter is exact in every state exactly if no increment asks for a sum that
does not fit. -/
theorem exact_iff (key : Str) (db : Database) (run : List CounterRequest) :
    EachState (step key) (Exact key) run (start key db) ↔ EachStep (step key) (Admits key) run (start key db) := by
  have preserved : ∀ c request t, True → step key c request = some t → True := fun _ _ _ _ _ => trivial
  apply eachState_iff preserved _ trivial (start_exact key db)
  intro c request t _ exact taken
  exact exact_iff_admits exact taken

/-- A key is set to the largest integer, and then incremented. -/
noncomputable def brimming : List CounterRequest :=
  [.intSet (.frozen 0) 9223372036854775807, .incrInt (.frozen 0) 1]

def full : Counter where
  db := { store := (({} : Store).put [99] (.int 9223372036854775807)).clearExpiry [99] }
  total := 9223372036854775807

theorem brimming_inexact : ¬EachState (step [99]) (Exact [99]) brimming (start [99] {}) := by
  intro each
  have set : step [99] (start [99] {}) (.intSet (.frozen 0) 9223372036854775807) = some full := rfl
  have later := each.2 full set
  obtain ⟨t, taken⟩ := step_taken [99] full (.incrInt (.frozen 0) 1)
  have fresh : full.db.isExpired 0 [99] = false := by simp [full, Database.isExpired]
  have seen : (full.db.view 0 [99]).1 = some (.int 9223372036854775807) := by
    rw [Database.view_fresh fresh]
    simp [full]
  have fits := (exact_iff_admits (eachState_head later) taken).mp (later.2 t taken) _ (sum_int seen)
  exact absurd fits (by decide)

end Counter

end Vanity.Db
