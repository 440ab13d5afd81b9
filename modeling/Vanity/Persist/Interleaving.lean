import Vanity.Library.Runs
import Vanity.Wal.Live

/-!
# Persisting beside running clients

One thread persists, the others run calls and purges. A call is one step, taken while the persister
holds no mutex of a database that it touches; the persister goes through `persist_with_wal` or
`persist_without_wal` one database at a time.
-/

namespace Vanity.Persist
open Db Wal

/-- The databases whose mutexes a call or a purge takes. -/
def touched : Event → List Index
  | .call _ i _ op =>
    match op with
    | .copyToDb _ to_ | .moveToDb _ to_ => [i, to_]
    | _ => [i]
  | .shallowPurge _ i | .deepPurge _ i => [i]

theorem touched_self (env : Env) (i : Index) (trn : UInt64) (op : Op) : i ∈ touched (.call env i trn op) := by
  cases op <;> simp [touched]

theorem touched_some (event : Event) : ∃ i, i ∈ touched event := by
  cases event with
  | call env i trn op => exact ⟨i, touched_self env i trn op⟩
  | shallowPurge env i | deepPurge env i => exact ⟨i, List.mem_singleton_self i⟩

theorem touched_across {env : Env} {op : Op} {transfer : Str → Store → Store → Bool × Store × Store} {key : Str}
    {to_ : Index} (across : op.action env = .across transfer key to_) (i : Index) (trn : UInt64) :
    to_ ∈ touched (.call env i trn op) := by
  cases op <;> simp_all [Op.action, touched]

theorem exec_untouched {env : Env} {i j : Index} {trn : UInt64} {op : Op} {dbs after : Databases} {reply : Reply}
    (ran : exec op env i dbs = some (reply, after)) (free : j ∉ touched (.call env i trn op)) : after j = dbs j := by
  have here : j ≠ i := fun same => free (same ▸ touched_self env i trn op)
  unfold exec at ran
  cases action : op.action env with
  | idle =>
    rw [action] at ran
    obtain ⟨-, rfl⟩ := Prod.mk.inj (Option.some.inj ran)
    rfl
  | here operation =>
    rw [action] at ran
    obtain ⟨⟨result, db⟩, -, finished⟩ := Option.map_eq_some_iff.mp ran
    obtain ⟨-, rfl⟩ := Prod.mk.inj finished
    exact Function.update_of_ne here _ _
  | across transfer key to_ =>
    have there : j ≠ to_ := fun same => free (same ▸ touched_across action i trn)
    have result : after = (transferDb transfer key i to_ env dbs).2 := by
      rw [action] at ran
      exact (congrArg Prod.snd (Option.some.inj ran)).symm
    rw [result]
    unfold transferDb
    dsimp only
    split <;> simp [here, there]
  | reading read =>
    rw [action] at ran
    obtain ⟨-, rfl⟩ := Prod.mk.inj (Option.some.inj ran)
    exact Function.update_of_ne here _ _

theorem liveStep_untouched {event : Event} {stores after : Stores} {entries : List Entry} {j : Index}
    (ran : liveStep event stores = some (entries, after)) (free : j ∉ touched event) : after j = stores j := by
  cases event with
  | call env i trn op =>
    obtain ⟨⟨reply, dbs⟩, called, finished⟩ := Option.map_eq_some_iff.mp ran
    obtain ⟨-, rfl⟩ := Prod.mk.inj finished
    exact congrArg Database.store (exec_untouched called free)
  | shallowPurge env i | deepPurge env i =>
    obtain ⟨-, rfl⟩ := Prod.mk.inj (Option.some.inj ran)
    rw [storesOf_update, Function.update_of_ne fun same => free (List.mem_singleton.mpr same)]

def mutates : Event → Bool
  | .call _ _ _ op => op.kind.shouldWal
  | .shallowPurge .. | .deepPurge .. => false

/-- A database with the numbers of the events that have been applied to it. The program does not keep
these. -/
structure Copy where
  store : Store
  applied : List Nat := []

inductive Stage where
  | idle
  /-- `persist_with_wal` has closed the log and takes the mutexes. -/
  | locking
  /-- It holds them all and has these databases still to write. -/
  | writing (rest : List Index)
  /-- The files are exchanged and the mutexes are given back. -/
  | unlocking
  /-- `persist_without_wal` has these databases still to write. -/
  | copying (rest : List Index)
  deriving DecidableEq

structure Machine where
  dbs : Index → Copy
  /-- The events so far; an event is acknowledged when its step is over. -/
  events : List Event := []
  /-- The contents of the databases at each moment so far. -/
  seen : List Stores
  logging : Bool
  walOpen : Bool
  /-- The records of the log on disk, each with the number of its event. -/
  log : List (Nat × Entry) := []
  tmp : Index → Option Copy := fun _ => none
  file : Option (Index → Option Copy) := none
  held : Index → Bool := fun _ => false
  stage : Stage := .idle

def Machine.stores (m : Machine) : Stores := fun i => (m.dbs i).store

def Machine.start (logging : Bool) (stores : Stores) : Machine where
  dbs i := { store := stores i }
  seen := [stores]
  logging := logging
  walOpen := logging

inductive Action where
  | event (event : Event)
  | closeWal | lock (i : Index) | create | write | switch | unlock (i : Index) | reopenWal

def Machine.perform (m : Machine) (event : Event) (entries : List Entry) (after : Stores) : Machine :=
  { m with
    dbs := fun i => ⟨after i, (m.dbs i).applied ++ if i ∈ touched event then [m.events.length] else []⟩
    events := m.events ++ [event]
    seen := after :: m.seen
    log := m.log ++ if m.walOpen then entries.map fun entry => (m.events.length, entry) else [] }

/-- `LockedDatabase::persist` of one database. -/
def Machine.writeSection (m : Machine) (i : Index) : Machine := { m with tmp := Function.update m.tmp i (some (m.dbs i)) }

def Machine.step (m : Machine) : Action → Option Machine
  | .event event =>
    if ∀ i ∈ touched event, m.held i = false then
      (liveStep event m.stores).map fun (entries, after) => m.perform event entries after
    else none
  | .closeWal =>
    if m.logging ∧ m.stage = .idle then some { m with stage := .locking, walOpen := false } else none
  | .lock i =>
    if m.stage = .locking ∧ m.held i = false then some { m with held := Function.update m.held i true } else none
  | .create =>
    match m.stage with
    | .locking =>
      if ∀ i, m.held i = true then
        some { m with stage := .writing (List.finRange numDatabases), tmp := fun _ => none }
      else none
    | .idle =>
      if m.logging then none
      else some { m with stage := .copying (List.finRange numDatabases), tmp := fun _ => none }
    | _ => none
  | .write =>
    match m.stage with
    | .writing (i :: rest) => some { m.writeSection i with stage := .writing rest }
    | .copying (i :: rest) => some { m.writeSection i with stage := .copying rest }
    | _ => none
  | .switch =>
    match m.stage with
    | .writing [] => some { m with stage := .unlocking, file := some m.tmp, log := [] }
    | .copying [] => some { m with stage := .idle, file := some m.tmp }
    | _ => none
  | .unlock i =>
    if m.stage = .unlocking ∧ m.held i = true then some { m with held := Function.update m.held i false } else none
  | .reopenWal =>
    if m.stage = .unlocking ∧ ∀ i, m.held i = false then some { m with stage := .idle, walOpen := true } else none

/-! ### What a step can do -/

variable {m t : Machine} {a : Action}

inductive Machine.Steps (m : Machine) : Action → Machine → Prop where
  | event {event : Event} {entries : List Entry} {after : Stores} (free : ∀ i ∈ touched event, m.held i = false)
      (ran : liveStep event m.stores = some (entries, after)) :
      m.Steps (.event event) (m.perform event entries after)
  | closeWal (logging : m.logging = true) (idle : m.stage = .idle) :
      m.Steps .closeWal { m with stage := .locking, walOpen := false }
  | lock {i : Index} (locking : m.stage = .locking) :
      m.Steps (.lock i) { m with held := Function.update m.held i true }
  | create (locking : m.stage = .locking) (all : ∀ i, m.held i = true) :
      m.Steps .create { m with stage := .writing (List.finRange numDatabases), tmp := fun _ => none }
  | createAlone (alone : m.logging = false) (idle : m.stage = .idle) :
      m.Steps .create { m with stage := .copying (List.finRange numDatabases), tmp := fun _ => none }
  | write {i : Index} {rest : List Index} (writing : m.stage = .writing (i :: rest)) :
      m.Steps .write { m.writeSection i with stage := .writing rest }
  | writeAlone {i : Index} {rest : List Index} (copying : m.stage = .copying (i :: rest)) :
      m.Steps .write { m.writeSection i with stage := .copying rest }
  | switch (writing : m.stage = .writing []) :
      m.Steps .switch { m with stage := .unlocking, file := some m.tmp, log := [] }
  | rename (copying : m.stage = .copying []) : m.Steps .switch { m with stage := .idle, file := some m.tmp }
  | unlock {i : Index} (unlocking : m.stage = .unlocking) :
      m.Steps (.unlock i) { m with held := Function.update m.held i false }
  | reopenWal (unlocking : m.stage = .unlocking) : m.Steps .reopenWal { m with stage := .idle, walOpen := true }

theorem step_steps (taken : m.step a = some t) : m.Steps a t := by
  cases a with
  | event event =>
    simp only [Machine.step] at taken
    split at taken
    · rename_i free
      obtain ⟨⟨entries, after⟩, ran, rfl⟩ := Option.map_eq_some_iff.mp taken
      exact .event free ran
    · cases taken
  | closeWal =>
    obtain ⟨⟨logging, idle⟩, ⟨⟩⟩ := Option.ite_none_right_eq_some.mp taken
    exact .closeWal logging idle
  | lock i =>
    obtain ⟨⟨locking, -⟩, ⟨⟩⟩ := Option.ite_none_right_eq_some.mp taken
    exact .lock locking
  | create =>
    simp only [Machine.step] at taken
    split at taken
    · rename_i locking
      obtain ⟨all, ⟨⟩⟩ := Option.ite_none_right_eq_some.mp taken
      exact .create locking all
    · rename_i idle
      obtain ⟨alone, ⟨⟩⟩ := Option.ite_none_left_eq_some.mp taken
      exact .createAlone (Bool.eq_false_iff.mpr alone) idle
    · cases taken
  | write =>
    simp only [Machine.step] at taken
    split at taken
    · rename_i writing
      obtain rfl := Option.some.inj taken
      exact .write writing
    · rename_i copying
      obtain rfl := Option.some.inj taken
      exact .writeAlone copying
    · cases taken
  | switch =>
    simp only [Machine.step] at taken
    split at taken
    · rename_i writing
      obtain rfl := Option.some.inj taken
      exact .switch writing
    · rename_i copying
      obtain rfl := Option.some.inj taken
      exact .rename copying
    · cases taken
  | unlock i =>
    obtain ⟨⟨unlocking, -⟩, ⟨⟩⟩ := Option.ite_none_right_eq_some.mp taken
    exact .unlock unlocking
  | reopenWal =>
    obtain ⟨⟨unlocking, -⟩, ⟨⟩⟩ := Option.ite_none_right_eq_some.mp taken
    exact .reopenWal unlocking

/-! ### What the numbers say -/

def Copy.Below (copy : Copy) (n : Nat) : Prop := ∀ k ∈ copy.applied, k < n

structure Machine.Inv (m : Machine) : Prop where
  dbsBelow : ∀ i, (m.dbs i).Below m.events.length
  tmpBelow : ∀ i copy, m.tmp i = some copy → copy.Below m.events.length
  fileBelow : ∀ file i copy, m.file = some file → file i = some copy → copy.Below m.events.length
  logBelow : ∀ record ∈ m.log, record.1 < m.events.length
  applied : ∀ n event, m.events[n]? = some event → ∀ i ∈ touched event, n ∈ (m.dbs i).applied
  /-- While the snapshot is written no event is enabled, so what has been written is still current. -/
  writing : ∀ rest, m.stage = .writing rest → (∀ i, m.held i = true) ∧ ∀ i, i ∈ rest ∨ m.tmp i = some (m.dbs i)
  copying : ∀ rest, m.stage = .copying rest → m.logging = false

theorem Copy.Below.mono {copy : Copy} {n k : Nat} (below : copy.Below n) (le : n ≤ k) : copy.Below k :=
  fun j member => Nat.lt_of_lt_of_le (below j member) le

theorem event_cases {events : List Event} {event other : Event} {n : Nat}
    (done : (events ++ [event])[n]? = some other) : events[n]? = some other ∨ n = events.length ∧ other = event := by
  rw [List.getElem?_append] at done
  split at done
  · exact .inl done
  · obtain ⟨bound, new⟩ := List.getElem?_eq_some_iff.mp done
    simp only [List.length_singleton] at bound
    refine .inr ⟨by omega, ?_⟩
    simpa using new.symm

theorem start_inv (logging : Bool) (stores : Stores) : (Machine.start logging stores).Inv where
  dbsBelow _ := nofun
  tmpBelow _ _ := nofun
  fileBelow _ _ _ := nofun
  logBelow _ := nofun
  applied _ _ := nofun
  writing _ := nofun
  copying _ := nofun

theorem perform_inv (inv : m.Inv) {event : Event} (free : ∀ i ∈ touched event, m.held i = false)
    (entries : List Entry) (after : Stores) : (m.perform event entries after).Inv := by
  have longer : m.events.length ≤ (m.events ++ [event]).length := by simp
  have current : m.events.length < (m.events ++ [event]).length := by simp
  refine { dbsBelow := ?_, tmpBelow := ?_, fileBelow := ?_, logBelow := ?_, applied := ?_, writing := ?_, copying := ?_ }
  · intro i k member
    rcases List.mem_append.mp member with old | new
    · exact (inv.dbsBelow i).mono longer k old
    · split at new
      · rw [List.mem_singleton.mp new]
        exact current
      · cases new
  · exact fun i copy stored => (inv.tmpBelow i copy stored).mono longer
  · exact fun file i copy present stored => (inv.fileBelow file i copy present stored).mono longer
  · intro record member
    rcases List.mem_append.mp member with old | new
    · exact Nat.lt_of_lt_of_le (inv.logBelow record old) longer
    · split at new
      · obtain ⟨entry, -, rfl⟩ := List.mem_map.mp new
        exact current
      · cases new
  · intro n other done i member
    apply List.mem_append.mpr
    rcases event_cases done with old | ⟨rfl, rfl⟩
    · exact .inl (inv.applied n other old i member)
    · rw [if_pos member]
      exact .inr (List.mem_singleton_self _)
  · intro rest writing
    obtain ⟨i, member⟩ := touched_some event
    have held := (inv.writing rest writing).1 i
    rw [free i member] at held
    cases held
  · exact inv.copying

theorem writeSection_inv (inv : m.Inv) (i : Index) {copy : Copy} {j : Index}
    (stored : (m.writeSection i).tmp j = some copy) : copy.Below m.events.length := by
  change Function.update m.tmp i (some (m.dbs i)) j = some copy at stored
  by_cases same : j = i
  · rw [same, Function.update_self] at stored
    rw [← Option.some.inj stored]
    exact inv.dbsBelow i
  · rw [Function.update_of_ne same] at stored
    exact inv.tmpBelow j copy stored

theorem Machine.Inv.step (inv : m.Inv) (taken : m.step a = some t) : t.Inv := by
  cases step_steps taken with
  | event free ran => exact perform_inv inv free _ _
  | closeWal => exact { inv with writing := nofun, copying := nofun }
  | lock locking =>
    refine { inv with writing := ?_ }
    intro rest writing
    cases locking.symm.trans writing
  | create locking all =>
    refine { inv with tmpBelow := nofun, writing := ?_, copying := nofun }
    rintro rest ⟨⟩
    exact ⟨all, fun i => .inl (List.mem_finRange i)⟩
  | createAlone alone => exact { inv with tmpBelow := nofun, writing := nofun, copying := fun _ _ => alone }
  | @write i rest writing =>
    obtain ⟨all, written⟩ := inv.writing _ writing
    refine { inv with tmpBelow := fun _ _ => writeSection_inv inv i, writing := ?_, copying := nofun }
    rintro _ ⟨⟩
    refine ⟨all, fun j => ?_⟩
    change j ∈ rest ∨ Function.update m.tmp i (some (m.dbs i)) j = some (m.dbs j)
    by_cases same : j = i
    · rw [same, Function.update_self]
      exact .inr rfl
    · rw [Function.update_of_ne same]
      exact (written j).imp_left fun member => (List.mem_cons.mp member).resolve_left same
  | writeAlone copying =>
    exact { inv with
      tmpBelow := fun _ _ => writeSection_inv inv _
      writing := nofun
      copying := fun _ _ => inv.copying _ copying }
  | switch =>
    refine { inv with fileBelow := ?_, logBelow := nofun, writing := nofun, copying := nofun }
    rintro file i copy ⟨⟩ stored
    exact inv.tmpBelow i copy stored
  | rename =>
    refine { inv with fileBelow := ?_, writing := nofun, copying := nofun }
    rintro file i copy ⟨⟩ stored
    exact inv.tmpBelow i copy stored
  | unlock unlocking =>
    refine { inv with writing := ?_ }
    intro rest writing
    cases unlocking.symm.trans writing
  | reopenWal => exact { inv with writing := nofun, copying := nofun }

theorem step_logging (taken : m.step a = some t) : t.logging = m.logging := by
  cases step_steps taken <;> rfl

end Vanity.Persist
