import Vanity.Persist.Interleaving

/-!
# The database file as a cut

`persist_with_wal` writes all databases under all mutexes. `persist_without_wal` takes one mutex at a
time, so a call can change databases that it has written and databases that it has yet to write.
-/

namespace Vanity.Persist
open Db Wal

/-- The database file holds what the databases held at one moment. -/
def Machine.Consistent (m : Machine) : Prop :=
  ∀ file, m.file = some file → ∃ moment ∈ m.seen, ∀ i, (file i).map Copy.store = some (moment i)

/-- While `persist_without_wal` has the databases `rest` still to write, an event changes only those that
it has written, or only those that it has not, and then the written ones are still as they were written. -/
def Machine.Orderly (m : Machine) : Action → Prop
  | .event event =>
    match m.stage with
    | .copying rest =>
      ∀ entries after, liveStep event m.stores = some (entries, after) →
        (∀ i ∈ rest, after i = m.stores i) ∨
          ∀ i, i ∉ rest → after i = m.stores i ∧ (m.tmp i).map Copy.store = some (m.stores i)
    | _ => True
  | _ => True

/-- There is a moment of which the written databases are copies, and the others are still as they were
then. -/
def Machine.Splits (m : Machine) (rest : List Index) : Prop :=
  ∃ moment ∈ m.seen, (∀ i, i ∉ rest → (m.tmp i).map Copy.store = some (moment i)) ∧ ∀ i ∈ rest, m.stores i = moment i

structure Machine.Cut (m : Machine) : Prop where
  current : m.stores ∈ m.seen
  consistent : m.Consistent
  splits : ∀ rest, m.stage = .copying rest → m.Splits rest

variable {m t : Machine} {a : Action} {event : Event} {entries : List Entry} {after : Stores}

theorem start_cut (logging : Bool) (stores : Stores) : (Machine.start logging stores).Cut where
  current := List.mem_singleton_self _
  consistent := nofun
  splits := nofun

theorem splits_perform {rest : List Index} (splits : m.Splits rest)
    (orderly : (∀ i ∈ rest, after i = m.stores i) ∨
      ∀ i, i ∉ rest → after i = m.stores i ∧ (m.tmp i).map Copy.store = some (m.stores i)) :
    (m.perform event entries after).Splits rest := by
  rcases orderly with kept | moved
  · obtain ⟨moment, member, written, others⟩ := splits
    refine ⟨moment, List.mem_cons_of_mem _ member, written, fun i unwritten => ?_⟩
    exact (kept i unwritten).trans (others i unwritten)
  · refine ⟨after, List.mem_cons_self, fun i written => ?_, fun _ _ => rfl⟩
    obtain ⟨same, copied⟩ := moved i written
    rw [same]
    exact copied

theorem perform_cut (cut : m.Cut) (orderly : m.Orderly (.event event))
    (ran : liveStep event m.stores = some (entries, after)) : (m.perform event entries after).Cut where
  current := List.mem_cons_self
  consistent file present := by
    obtain ⟨moment, member, saved⟩ := cut.consistent file present
    exact ⟨moment, List.mem_cons_of_mem _ member, saved⟩
  splits rest copying := by
    have stage : m.stage = .copying rest := copying
    simp only [Machine.Orderly, stage] at orderly
    exact splits_perform (cut.splits rest stage) (orderly entries after ran)

theorem splits_write {i : Index} {rest : List Index} (splits : m.Splits (i :: rest)) :
    Machine.Splits { m.writeSection i with stage := .copying rest } rest := by
  obtain ⟨moment, member, written, others⟩ := splits
  refine ⟨moment, member, fun j left => ?_, fun j later => others j (List.mem_cons_of_mem _ later)⟩
  change (Function.update m.tmp i (some (m.dbs i)) j).map Copy.store = _
  by_cases same : j = i
  · rw [same, Function.update_self]
    exact congrArg some (others i List.mem_cons_self)
  · rw [Function.update_of_ne same]
    exact written j fun member => left ((List.mem_cons.mp member).resolve_left same)

theorem Machine.Cut.step (inv : m.Inv) (cut : m.Cut) (orderly : m.Orderly a) (taken : m.step a = some t) : t.Cut := by
  cases step_steps taken with
  | event free ran => exact perform_cut cut orderly ran
  | closeWal | create | reopenWal => exact { cut with splits := nofun }
  | lock | unlock => exact { cut with }
  | createAlone =>
    refine { cut with splits := ?_ }
    rintro _ ⟨⟩
    refine ⟨m.stores, cut.current, fun i written => ?_, fun _ _ => rfl⟩
    exact absurd (List.mem_finRange i) written
  | write writing => exact { cut with splits := nofun }
  | writeAlone copying =>
    refine { cut with splits := ?_ }
    rintro _ ⟨⟩
    exact splits_write (cut.splits _ copying)
  | switch writing =>
    refine { cut with consistent := ?_, splits := nofun }
    rintro _ ⟨⟩
    refine ⟨m.stores, cut.current, fun i => ?_⟩
    rw [((inv.writing _ writing).2 i).resolve_left List.not_mem_nil]
    rfl
  | rename copying =>
    refine { cut with consistent := ?_, splits := nofun }
    rintro _ ⟨⟩
    obtain ⟨moment, member, written, -⟩ := cut.splits _ copying
    exact ⟨moment, member, fun i => written i List.not_mem_nil⟩

theorem orderly_logging (inv : m.Inv) (logging : m.logging = true) (a : Action) : m.Orderly a := by
  cases a with
  | event event =>
    simp only [Machine.Orderly]
    split
    · rename_i rest copying
      have alone := inv.copying rest copying
      rw [logging] at alone
      cases alone
    · trivial
  | closeWal | lock | create | write | switch | unlock | reopenWal => trivial

noncomputable def setFirst : Event := .call (.frozen 0) 0 4 (.strSet [107] [118])

def keyInOne : Stores := Function.update (fun _ => {}) 1 (({} : Store).put [107] (.str []))

/-- The key moves to database 0 when that one has been written. -/
noncomputable def moveBehind : List Action :=
  [.create, .write, .event (.call (.frozen 0) 1 4 (.moveToDb [107] 0))] ++ List.replicate 15 .write ++ [.switch]

def keyAt (moment : Stores) : Option Data × Option Data := ((moment 0).data.lookup [107], (moment 1).data.lookup [107])

end Vanity.Persist
