import Vanity.Persist.Interleaving

/-!
# Acknowledged writes

`persist_with_wal` closes the log before it takes the mutexes and opens it again after it has given
them back. A mutating call that runs in between is applied and acknowledged without a record.
-/

namespace Vanity.Persist
open Db Wal

/-- The event is in the database file, in each database that it touched, or has a record in the log. -/
def Machine.Recoverable (m : Machine) (n : Nat) (event : Event) : Prop :=
  (∃ file, m.file = some file ∧ ∀ i ∈ touched event, ∃ copy, file i = some copy ∧ n ∈ copy.applied) ∨
    ∃ entry, (n, entry) ∈ m.log

def Machine.Durable (m : Machine) : Prop :=
  ∀ n event, m.events[n]? = some event → mutates event = true → m.Recoverable n event

def Machine.Logged (m : Machine) : Action → Prop
  | .event event => mutates event = true → m.walOpen = true
  | _ => True

variable {m t : Machine} {a : Action} {event : Event} {entries : List Entry} {after : Stores}

theorem mutates_writes {stores : Stores} (mutating : mutates event = true)
    (ran : liveStep event stores = some (entries, after)) : ∃ entry, entry ∈ entries := by
  cases event with
  | call env i trn op =>
    obtain ⟨⟨reply, dbs⟩, -, finished⟩ := Option.map_eq_some_iff.mp ran
    obtain ⟨rfl, -⟩ := Prod.mk.inj finished
    have logged : op.kind.shouldWal = true := mutating
    refine ⟨.dbOp i trn op, List.mem_append_left _ ?_⟩
    rw [walLog, if_pos logged]
    exact List.mem_singleton_self _
  | shallowPurge | deepPurge => cases mutating

theorem recoverable_perform {n : Nat} {other : Event} (recoverable : m.Recoverable n other) :
    (m.perform event entries after).Recoverable n other := by
  rcases recoverable with saved | ⟨entry, member⟩
  · exact .inl saved
  · exact .inr ⟨entry, List.mem_append_left _ member⟩

theorem recoverable_new (inv : m.Inv) (ran : liveStep event m.stores = some (entries, after))
    (mutating : mutates event = true) :
    (m.perform event entries after).Recoverable m.events.length event ↔ m.walOpen = true := by
  constructor
  · rintro (⟨file, present, saved⟩ | ⟨entry, member⟩)
    · obtain ⟨i, member⟩ := touched_some event
      obtain ⟨copy, stored, late⟩ := saved i member
      exact absurd (inv.fileBelow file i copy present stored _ late) (Nat.lt_irrefl _)
    · rcases List.mem_append.mp member with old | new
      · exact absurd (inv.logBelow _ old) (Nat.lt_irrefl _)
      · by_contra closed
        rw [if_neg closed] at new
        cases new
  · intro opened
    obtain ⟨entry, written⟩ := mutates_writes mutating ran
    refine .inr ⟨entry, List.mem_append_right _ ?_⟩
    rw [if_pos opened]
    exact List.mem_map_of_mem written

theorem durable_perform (inv : m.Inv) (durable : m.Durable) (ran : liveStep event m.stores = some (entries, after)) :
    (m.perform event entries after).Durable ↔ m.Logged (.event event) := by
  constructor
  · intro durableNext mutating
    exact (recoverable_new inv ran mutating).mp (durableNext _ event List.getElem?_concat_length mutating)
  · intro logged n other done mutating
    rcases event_cases done with old | ⟨rfl, rfl⟩
    · exact recoverable_perform (durable n other old mutating)
    · exact (recoverable_new inv ran mutating).mpr (logged mutating)

theorem durable_switch (inv : m.Inv) (writing : m.stage = .writing []) :
    Machine.Durable { m with stage := .unlocking, file := some m.tmp, log := [] } := by
  intro n event done _
  refine .inl ⟨m.tmp, rfl, fun i member => ⟨m.dbs i, ?_, inv.applied n event done i member⟩⟩
  exact ((inv.writing _ writing).2 i).resolve_left (List.not_mem_nil)

theorem durable_step (inv : m.Inv) (logging : m.logging = true) (durable : m.Durable) (taken : m.step a = some t) :
    t.Durable ↔ m.Logged a := by
  cases step_steps taken with
  | event free ran => exact durable_perform inv durable ran
  | closeWal | lock | create | write | unlock | reopenWal => exact ⟨fun _ => trivial, fun _ => durable⟩
  | switch writing => exact ⟨fun _ => trivial, fun _ => durable_switch inv writing⟩
  | createAlone alone =>
    rw [logging] at alone
    cases alone
  | writeAlone copying | rename copying =>
    have alone := inv.copying _ copying
    rw [logging] at alone
    cases alone

/-- Every acknowledged mutating call is on disk throughout a run exactly when none of them runs while
the log is closed. -/
theorem acked_durable_iff (stores : Stores) (run : List Action) :
    EachState Machine.step Machine.Durable run (.start true stores) ↔
      EachStep Machine.step Machine.Logged run (.start true stores) := by
  have preserved : ∀ (m : Machine) a t, m.Inv ∧ m.logging = true → m.step a = some t → t.Inv ∧ t.logging = true := by
    intro m a t both taken
    exact ⟨both.1.step taken, (step_logging taken).trans both.2⟩
  refine eachState_iff preserved ?_ ⟨start_inv true stores, rfl⟩ nofun
  intro m a t both durable taken
  exact durable_step both.1 both.2 durable taken

/-- `persist_with_wal` up to the point where all mutexes are given back. -/
def lockedPersist : List Action :=
  [.closeWal] ++ (List.finRange numDatabases).map .lock ++ [.create] ++ List.replicate numDatabases .write ++
    [.switch] ++ (List.finRange numDatabases).map .unlock

noncomputable def lateSet : Event := .call (.frozen 0) 0 4 (.strSet [107] [118])

/-- A `SET` between the last mutex and the reopening of the log is in neither file, also when the persist
is over. -/
theorem late_set_lost :
    ∃ final, runAll Machine.step (lockedPersist ++ [.event lateSet, .reopenWal]) (.start true fun _ => {}) =
        some final ∧ final.stage = .idle ∧ final.walOpen = true ∧ ¬final.Durable := by
  have outcome : (runAll Machine.step (lockedPersist ++ [.event lateSet, .reopenWal]) (.start true fun _ => {})).map
      (fun m => (m.stage, m.walOpen, m.events, m.log, m.file.map fun file => (file 0).map Copy.applied)) =
      some (.idle, true, [lateSet], [], some (some [])) := rfl
  obtain ⟨final, ran, facts⟩ := Option.map_eq_some_iff.mp outcome
  simp only [Prod.mk.injEq] at facts
  obtain ⟨idle, opened, events, log, saved⟩ := facts
  refine ⟨final, ran, idle, opened, fun durable => ?_⟩
  rcases durable 0 lateSet (by rw [events]; rfl) rfl with ⟨file, present, copies⟩ | ⟨entry, member⟩
  · obtain ⟨copy, stored, late⟩ := copies 0 (List.mem_singleton_self 0)
    rw [present, Option.map_some, stored] at saved
    have none : copy.applied = [] := Option.some.inj (Option.some.inj saved)
    rw [none] at late
    cases late
  · rw [log] at member
    cases member

end Vanity.Persist
