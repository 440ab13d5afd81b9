import Vanity.Persist.Repair
import Vanity.Wal.Live

/-!
# One persist is crash-atomic

A crash anywhere in `persist_with_wal` leaves, after the repair, either the database file and the log
from before or the new snapshot without a log. Never the snapshot together with the old log, and never
the old file without it.
-/

namespace Vanity.Persist
open Db Wal

def enableExpiry (enable : Bool) (dbs : Databases) : Databases := fun i => (dbs i).setEnabled enable

/-- The databases that a start loads from the database file and the log. -/
def restore (cfg : Config) (envs : Nat → Env) (junk : Nat → UInt8) (disk : Disk Str) : Except Exception Stores := do
  let dbs ← loadDatabases junk (disk (cfg.path .db)) fun _ => {}
  match disk (cfg.path .wal) with
  | none => return storesOf dbs
  | some log => return storesOf (← doRecover envs junk log (enableExpiry false dbs))

/-- The database file and the log are both those from before, or the snapshot stands alone. -/
def Paired (before : Files) (snapshot : Bytes) (after : Files) : Prop :=
  (after.db = before.db ∧ after.wal = before.wal) ∨
    (after.db = some snapshot ∧ (after.wal = none ∨ after.wal = some []))

theorem journals_state (cfg : Config) {files : Files} {state : JournalState}
    (written : files.journal = some (journalBytes (cfg.path .old) state)) : files.Journals cfg state := .inl written

theorem journals_missing (cfg : Config) {files : Files} (missing : files.journal = none) :
    files.Journals cfg .emptyJournal := .inr ⟨missing, rfl⟩

/-- The crashes, after `k` file steps of a persist, whose journal can be read twice: none between the
`MOVED_EXISTING_DB_FILE` entry and the removal of the journal, nor between the arrival of a first
database file and that removal, nor before the move if an old file was left behind. -/
def GoodCrash (files : Files) (k : Nat) : Prop :=
  if files.db.isSome then k ≤ 4 ∨ k = 5 ∧ files.old = none ∨ k = 6 ∨ 11 ≤ k else k ≤ 4 ∨ 7 ≤ k

/-- What the next start makes of the files `left` by the first `k` steps of a persist. Only an old file
from before can stop it, at the one step where the journal announces a move that has not happened. -/
structure Outcome (cfg : Config) (files : Files) (snapshot : Bytes) (k : Nat) (left : Files)
    (state : JournalState) : Prop where
  journals : left.Journals cfg state
  starts : (repair state left).isSome ↔ (files.db.isSome → k = 5 → files.old = none)
  repaired : ∀ repaired, repair state left = some repaired →
    Paired files snapshot repaired ∧ (Lasting state repaired ↔ GoodCrash files k)

variable {files left repaired : Files} {snapshot : Bytes} {k : Nat} {state : JournalState}

theorem goodCrash_old (good : GoodCrash files k) : files.db.isSome → k = 5 → files.old = none := by
  rintro present rfl
  rw [GoodCrash, if_pos present] at good
  simpa using good

theorem outcome_repaired (cfg : Config) (journals : left.Journals cfg state) (repairs : repair state left = some repaired)
    (anyway : files.db.isSome → k ≠ 5) (paired : Paired files snapshot repaired)
    (lasting : Lasting state repaired ↔ GoodCrash files k) : Outcome cfg files snapshot k left state where
  journals := journals
  starts := by
    rw [repairs]
    exact ⟨fun _ present five => absurd five (anyway present), fun _ => rfl⟩
  repaired other found := by
    rw [repairs] at found
    obtain rfl := Option.some.inj found
    exact ⟨paired, lasting⟩

theorem outcome_exist (cfg : Config) {db : Bytes} (present : files.db = some db) (snapshot : Bytes)
    (begun : files.journal = none ∨ 0 < k) :
    ∃ state, Outcome cfg files snapshot k (existAfter (cfg.path .old) files db snapshot k) state := by
  have good : GoodCrash files k ↔ k ≤ 4 ∨ k = 5 ∧ files.old = none ∨ k = 6 ∨ 11 ≤ k := by
    rw [GoodCrash, present]
    rfl
  match k with
  | 0 =>
    have missing : files.journal = none := begun.resolve_right (Nat.lt_irrefl 0)
    exact ⟨_, outcome_repaired cfg (journals_missing cfg missing) rfl (by simp) (.inl ⟨rfl, rfl⟩) (by simp [Lasting, good])⟩
  | 1 | 2 | 3 =>
    exact ⟨.emptyJournal, outcome_repaired cfg (journals_state cfg rfl) rfl (by simp) (.inl ⟨rfl, rfl⟩)
      (by simp [Lasting, good])⟩
  | 4 =>
    exact ⟨.dbFileExist, outcome_repaired cfg (journals_state cfg rfl) rfl (by simp) (.inl ⟨rfl, rfl⟩)
      (by simp [Lasting, good])⟩
  | 5 =>
    refine ⟨.movingExistingDbFile, journals_state cfg rfl, ?_, ?_⟩
    · cases leftover : files.old <;> simp [existAfter, repair, present, leftover]
    · intro repaired repairs
      cases leftover : files.old with
      | none =>
        simp only [existAfter, repair, present, leftover, Option.some.injEq] at repairs
        rw [← repairs]
        exact ⟨.inl ⟨present.symm, rfl⟩, by simp [Lasting, good, leftover]⟩
      | some old => simp [existAfter, repair, present, leftover] at repairs
  | 6 =>
    exact ⟨.movingExistingDbFile, outcome_repaired cfg (journals_state cfg rfl) rfl (by simp) (.inl ⟨present.symm, rfl⟩)
      (by simp [Lasting, good])⟩
  | 7 | 8 =>
    exact ⟨.movedExistingDbFile, outcome_repaired cfg (journals_state cfg rfl) rfl (by simp) (.inl ⟨present.symm, rfl⟩)
      (by simp [Lasting, good])⟩
  | 9 | 10 =>
    exact ⟨.movedNewDbFile, outcome_repaired cfg (journals_state cfg rfl) rfl (by simp) (.inr ⟨rfl, .inl rfl⟩)
      (by simp [Lasting, good])⟩
  | 11 | 12 =>
    exact ⟨_, outcome_repaired cfg (journals_missing cfg rfl) rfl (by simp) (.inr ⟨rfl, .inl rfl⟩) (by simp [Lasting, good])⟩
  | _ + 13 =>
    exact ⟨_, outcome_repaired cfg (journals_missing cfg rfl) rfl (by omega) (.inr ⟨rfl, .inr rfl⟩)
      (by simp [Lasting, good])⟩

theorem outcome_noExist (cfg : Config) (absent : files.db = none) (snapshot : Bytes)
    (begun : files.journal = none ∨ 0 < k) :
    ∃ state, Outcome cfg files snapshot k (noExistAfter (cfg.path .old) files snapshot k) state := by
  have good : GoodCrash files k ↔ k ≤ 4 ∨ 7 ≤ k := by
    rw [GoodCrash, absent]
    rfl
  have anyway : files.db.isSome → k ≠ 5 := by
    rw [absent]
    exact nofun
  match k with
  | 0 =>
    have missing : files.journal = none := begun.resolve_right (Nat.lt_irrefl 0)
    exact ⟨_, outcome_repaired cfg (journals_missing cfg missing) rfl anyway (.inl ⟨rfl, rfl⟩)
      (by simp [Lasting, good])⟩
  | 1 | 2 | 3 =>
    exact ⟨.emptyJournal, outcome_repaired cfg (journals_state cfg rfl) rfl anyway (.inl ⟨rfl, rfl⟩)
      (by simp [Lasting, good])⟩
  | 4 =>
    have kept : repair .dbFileNoExist (noExistAfter (cfg.path .old) files snapshot 4) =
        some (noExistAfter (cfg.path .old) files snapshot 4) := by
      simp [noExistAfter, repair, absent]
    exact ⟨.dbFileNoExist, outcome_repaired cfg (journals_state cfg rfl) kept anyway (.inl ⟨rfl, rfl⟩)
      (by simp [Lasting, good, noExistAfter, absent])⟩
  | 5 | 6 =>
    exact ⟨.dbFileNoExist, outcome_repaired cfg (journals_state cfg rfl) rfl anyway (.inr ⟨rfl, .inl rfl⟩)
      (by simp [Lasting, good, noExistAfter])⟩
  | 7 =>
    exact ⟨_, outcome_repaired cfg (journals_missing cfg rfl) rfl anyway (.inr ⟨rfl, .inl rfl⟩)
      (by simp [Lasting, good])⟩
  | _ + 8 =>
    exact ⟨_, outcome_repaired cfg (journals_missing cfg rfl) rfl anyway (.inr ⟨rfl, .inr rfl⟩)
      (by simp [Lasting, good])⟩

theorem outcome_after (cfg : Config) (files : Files) (snapshot : Bytes) (begun : files.journal = none ∨ 0 < k) :
    ∃ state, Outcome cfg files snapshot k (persistAfter (cfg.path .old) files snapshot k) state := by
  unfold persistAfter
  cases present : files.db with
  | none => exact outcome_noExist cfg present snapshot begun
  | some db => exact outcome_exist cfg present snapshot begun

theorem preDatabaseLoad_repair {cfg : Config} {disk : Disk Str} {state : JournalState} {files : Files}
    (journals : (filesOf cfg disk).Journals cfg state) (repairs : repair state (filesOf cfg disk) = some files)
    (junk : Nat → UInt8) : ∃ repaired, preDatabaseLoad cfg junk disk = .ok repaired ∧ filesOf cfg repaired = files := by
  have run := preDatabaseLoad_files journals junk
  rw [repairs] at run
  cases loaded : preDatabaseLoad cfg junk disk with
  | error e =>
    rw [loaded] at run
    cases run
  | ok repaired =>
    rw [loaded] at run
    exact ⟨repaired, rfl, Option.some.inj run⟩

theorem restore_same {cfg : Config} {disk other : Disk Str} (db : (filesOf cfg other).db = (filesOf cfg disk).db)
    (wal : (filesOf cfg other).wal = (filesOf cfg disk).wal) (envs : Nat → Env) (junk : Nat → UInt8) :
    restore cfg envs junk other = restore cfg envs junk disk := by
  have dbRead : other (cfg.path .db) = disk (cfg.path .db) := db
  have walRead : other (cfg.path .wal) = disk (cfg.path .wal) := wal
  unfold restore
  rw [dbRead, walRead]

theorem restore_snapshot {cfg : Config} {disk : Disk Str} {orders : Index → DbOrder} {contents : Index → Contents}
    (db : (filesOf cfg disk).db = some (doPersist orders fun i => (contents i).store))
    (wal : (filesOf cfg disk).wal = none ∨ (filesOf cfg disk).wal = some []) (envs : Nat → Env)
    (junk : Nat → UInt8) : restore cfg envs junk disk = .ok fun i => (contents i).store := by
  have dbRead : disk (cfg.path .db) = some (doPersist orders fun i => (contents i).store) := db
  unfold restore
  rw [dbRead, loadDatabases_persisted]
  rcases wal with missing | empty
  · have walRead : disk (cfg.path .wal) = none := missing
    rw [walRead]
    rfl
  · have walRead : disk (cfg.path .wal) = some [] := empty
    rw [walRead]
    rfl

/-- A crash between any two file steps of a persist, followed by the repair, loses nothing and replays
nothing twice. -/
theorem persist_crash_atomic {cfg : Config} {disk : Disk Str} (noJournal : disk (cfg.path .journal) = none)
    (noOld : disk (cfg.path .old) = none) (orders : Index → DbOrder) (contents : Index → Contents)
    (envs : Nat → Env) (junk : Nat → UInt8) (consistent : restore cfg envs junk disk = .ok fun i => (contents i).store) (k : Nat) :
    ∃ crashed repaired,
      FileOp.execAll ((persistWithWal cfg (doPersist orders fun i => (contents i).store) disk).take k) disk =
        some crashed ∧
      preDatabaseLoad cfg junk crashed = .ok repaired ∧
      Paired (filesOf cfg disk) (doPersist orders fun i => (contents i).store) (filesOf cfg repaired) ∧
      restore cfg envs junk repaired = .ok fun i => (contents i).store := by
  obtain ⟨crashed, ran, files⟩ := crashed_files cfg (doPersist orders fun i => (contents i).store) disk k
  obtain ⟨state, outcome⟩ := outcome_after cfg (filesOf cfg disk) (doPersist orders fun i => (contents i).store)
    (k := k) (.inl noJournal)
  rw [← files] at outcome
  have starts := outcome.starts.mpr fun _ _ => noOld
  obtain ⟨left, repairs⟩ := Option.isSome_iff_exists.mp starts
  have paired := (outcome.repaired left repairs).1
  have journals := outcome.journals
  obtain ⟨repaired, loaded, rfl⟩ := preDatabaseLoad_repair journals repairs junk
  refine ⟨crashed, repaired, ran, loaded, paired, ?_⟩
  rcases paired with ⟨db, wal⟩ | ⟨db, wal⟩
  · rw [restore_same db wal, consistent]
  · exact restore_snapshot db wal envs junk

theorem first_persist_atomic :
    restore .root (fun _ => .frozen 0) (fun _ => 0) (fun _ => none) = .ok (fun _ => {}) ∧
      ∃ crashed repaired,
        FileOp.execAll ((persistWithWal .root (doPersist (fun _ => .fixed) fun _ => {}) fun _ => none).take 5)
          (fun _ => none) = some crashed ∧
        preDatabaseLoad .root (fun _ => 0) crashed = .ok repaired ∧
        Paired (filesOf .root fun _ => none) (doPersist (fun _ => .fixed) fun _ => {}) (filesOf .root repaired) ∧
        restore .root (fun _ => .frozen 0) (fun _ => 0) repaired = .ok fun _ => {} :=
  ⟨rfl, persist_crash_atomic rfl rfl (fun _ => .fixed) (fun _ => .empty) _ _ rfl 5⟩

end Vanity.Persist
