import Vanity.Persist.CrashAtomic

/-!
# Starting again after any history of crashes

A server starts, persists and crashes, any number of times and at any file step. `pre_database_load`
takes the journal for the account of a persist that a crash has interrupted, but it leaves the journal
in place: after a repair the same entry is read again at the next start.
-/

namespace Vanity.Persist
open Db Wal

inductive Phase where
  | down
  /-- `pre_database_load` is done, the log has not been opened. -/
  | loaded
  | up
  /-- The file steps of `persist_with_wal` that are still to be taken. -/
  | persisting (steps : List (FileOp File))

structure Server where
  disk : Disk Str
  phase : Phase

inductive Step (cfg : Config) : Server → Server → Prop where
  | load {disk repaired : Disk Str} (junk : Nat → UInt8) (loaded : preDatabaseLoad cfg junk disk = .ok repaired) :
      Step cfg ⟨disk, .down⟩ ⟨repaired, .loaded⟩
  | walTo {disk after : Disk Str} (opened : (FileOp.touch (cfg.path .wal)).exec disk = some after) :
      Step cfg ⟨disk, .loaded⟩ ⟨after, .up⟩
  | log {disk after : Disk Str} (bytes : Bytes)
      (written : (FileOp.append (cfg.path .wal) bytes).exec disk = some after) :
      Step cfg ⟨disk, .up⟩ ⟨after, .up⟩
  | persist {disk : Disk Str} (orders : Index → DbOrder) (contents : Index → Contents) :
      Step cfg ⟨disk, .up⟩ ⟨disk, .persisting (persistSteps (disk (cfg.path .db)).isSome (cfg.path .old)
        (doPersist orders fun i => (contents i).store))⟩
  | file {disk after : Disk Str} {op : FileOp File} {rest : List (FileOp File)}
      (done : (op.map cfg.path).exec disk = some after) :
      Step cfg ⟨disk, .persisting (op :: rest)⟩ ⟨after, .persisting rest⟩
  | persisted {disk : Disk Str} : Step cfg ⟨disk, .persisting []⟩ ⟨disk, .up⟩

/-- What a server comes to from an empty directory when it crashes only where `allowed` says. -/
inductive Reachable (cfg : Config) (allowed : Server → Prop) : Server → Prop where
  | empty {disk : Disk Str} (missing : ∀ file, disk (cfg.path file) = none) : Reachable cfg allowed ⟨disk, .down⟩
  | step {s t : Server} (reached : Reachable cfg allowed s) (step : Step cfg s t) : Reachable cfg allowed t
  | crash {s : Server} (reached : Reachable cfg allowed s) (safe : allowed s) :
      Reachable cfg allowed ⟨s.disk, .down⟩

/-- The journal still tells of a database file that the repair has moved back. -/
def Unfinished (cfg : Config) (disk : Disk Str) : Prop :=
  disk (cfg.path .journal) = some (journalBytes (cfg.path .old) .movedExistingDbFile)

/-- Where a crash does no harm: not while a server is up on the journal of a repaired exchange, and not
between the `MOVING_EXISTING_DB_FILE` entry and the move if an old file was left behind before. -/
def CrashSafe (cfg : Config) (s : Server) : Prop :=
  match s.phase with
  | .down => True
  | .loaded | .up | .persisting (.create .journal :: _) => ¬Unfinished cfg s.disk
  | .persisting (.rename .db .old :: _) => s.disk (cfg.path .old) = none
  | .persisting _ => True

/-! ### What the journal says -/

variable {cfg : Config} {files : Files} {state : JournalState}

theorem journalBytes_injective {old : Str} (sized : SizedStr old) {a b : JournalState}
    (same : journalBytes old a = journalBytes old b) : a = b := by
  have first := recoverJournal_written sized a fun _ => 0
  rw [same, recoverJournal_written sized b] at first
  exact (congrArg RecoveredJournal.state (Except.ok.inj first)).symm

def Startable (cfg : Config) (files : Files) : Prop := ∃ state, files.Journals cfg state ∧ (repair state files).isSome

theorem starts_iff {disk : Disk Str} (journals : (filesOf cfg disk).Journals cfg state) (junk : Nat → UInt8) :
    (∃ repaired, preDatabaseLoad cfg junk disk = .ok repaired) ↔ (repair state (filesOf cfg disk)).isSome := by
  have run := preDatabaseLoad_files journals junk
  cases loaded : preDatabaseLoad cfg junk disk with
  | error e =>
    rw [loaded] at run
    simp [← run, Except.toOption]
  | ok repaired =>
    rw [loaded] at run
    simp [← run, Except.toOption]

structure Settled (cfg : Config) (files : Files) (state : JournalState) : Prop where
  journals : files.Journals cfg state
  moving : state = .movingExistingDbFile → files.db.isSome ∧ files.old = none
  moved : state = .movedExistingDbFile → files.old = none

theorem repair_settled (journals : files.Journals cfg state) {repaired : Files}
    (repairs : repair state files = some repaired) : Settled cfg repaired state := by
  have kept : repaired.journal = files.journal ∧
      (state = .movingExistingDbFile → repaired.db.isSome ∧ repaired.old = none) ∧
      (state = .movedExistingDbFile → repaired.old = none) := by
    cases state with
    | emptyJournal | dbFileExist =>
      obtain rfl := Option.some.inj repairs
      exact ⟨rfl, by simp, by simp⟩
    | dbFileNoExist =>
      obtain rfl := Option.some.inj repairs
      refine ⟨?_, by simp, by simp⟩
      split <;> rfl
    | movingExistingDbFile =>
      simp only [repair] at repairs
      split at repairs
      · cases repairs
      · cases repairs
      · rename_i present absent
        obtain rfl := Option.some.inj repairs
        exact ⟨rfl, fun _ => ⟨by rw [present]; rfl, absent⟩, by simp⟩
      · obtain rfl := Option.some.inj repairs
        exact ⟨rfl, fun _ => ⟨rfl, rfl⟩, by simp⟩
    | movedExistingDbFile =>
      obtain ⟨bytes, -, rfl⟩ := Option.map_eq_some_iff.mp repairs
      exact ⟨rfl, by simp, fun _ => rfl⟩
    | movedNewDbFile =>
      obtain rfl := Option.some.inj repairs
      exact ⟨rfl, by simp, by simp⟩
  refine ⟨?_, kept.2.1, kept.2.2⟩
  unfold Files.Journals
  rw [kept.1]
  exact journals

theorem settled_repair (settled : Settled cfg files state) :
    (repair state files).isSome ↔ state ≠ .movedExistingDbFile := by
  cases state with
  | emptyJournal | dbFileExist | dbFileNoExist | movedNewDbFile => simp [repair]
  | movingExistingDbFile =>
    obtain ⟨present, absent⟩ := settled.moving rfl
    obtain ⟨bytes, read⟩ := Option.isSome_iff_exists.mp present
    simp [repair, read, absent]
  | movedExistingDbFile => simp [repair, settled.moved rfl]

theorem settled_unfinished {disk : Disk Str} (settled : Settled cfg (filesOf cfg disk) state) :
    Unfinished cfg disk ↔ state = .movedExistingDbFile := by
  constructor
  · intro unfinished
    rcases settled.journals with written | ⟨missing, -⟩
    · exact journalBytes_injective cfg.sized (Option.some.inj (written.symm.trans unfinished))
    · exact absurd (unfinished.symm.trans missing) (by simp)
  · rintro rfl
    rcases settled.journals with written | ⟨-, other⟩
    · exact written
    · cases other

theorem settled_starts {disk : Disk Str} (settled : Settled cfg (filesOf cfg disk) state) (junk : Nat → UInt8) :
    (∃ repaired, preDatabaseLoad cfg junk disk = .ok repaired) ↔ ¬Unfinished cfg disk := by
  rw [starts_iff settled.journals, settled_repair settled, settled_unfinished settled]

/-! ### Inside a persist -/

structure Persisting (cfg : Config) (start : Disk Str) (snapshot : Bytes) (k : Nat) (disk : Disk Str) : Prop where
  settled : ∃ state, Settled cfg (filesOf cfg start) state
  ran : FileOp.execAll ((persistWithWal cfg snapshot start).take k) start = some disk

def remaining (cfg : Config) (start : Disk Str) (snapshot : Bytes) (k : Nat) : List (FileOp File) :=
  (persistSteps (start (cfg.path .db)).isSome (cfg.path .old) snapshot).drop k

variable {start disk : Disk Str} {snapshot : Bytes} {k : Nat}

theorem Persisting.filesLeft (persisting : Persisting cfg start snapshot k disk) :
    filesOf cfg disk = persistAfter (cfg.path .old) (filesOf cfg start) snapshot k := by
  obtain ⟨crashed, ran, files⟩ := crashed_files cfg snapshot start k
  rw [persisting.ran] at ran
  obtain rfl := Option.some.inj ran
  exact files

theorem crashSafe_exist (disk : Disk Str) (snapshot : Bytes) (k : Nat) :
    CrashSafe cfg ⟨disk, .persisting ((persistSteps true (cfg.path .old) snapshot).drop (k + 1))⟩ ↔
      (k + 1 = 5 → disk (cfg.path .old) = none) := by
  match k with
  | 0 | 1 | 2 | 3 | 4 | 5 | 6 | 7 | 8 | 9 | 10 | 11 | _ + 12 =>
    simp [CrashSafe, persistSteps, journalDbFileExist]

theorem crashSafe_noExist (disk : Disk Str) (snapshot : Bytes) (k : Nat) :
    CrashSafe cfg ⟨disk, .persisting ((persistSteps false (cfg.path .old) snapshot).drop (k + 1))⟩ := by
  match k with
  | 0 | 1 | 2 | 3 | 4 | 5 | 6 | _ + 7 => simp [CrashSafe, persistSteps, journalDbFileNoExist]

/-- Only the step before the move looks at the old file, which is still the one from before. -/
theorem Persisting.crashSafe (persisting : Persisting cfg start snapshot (k + 1) disk) :
    CrashSafe cfg ⟨disk, .persisting (remaining cfg start snapshot (k + 1))⟩ ↔
      ((filesOf cfg start).db.isSome → k + 1 = 5 → (filesOf cfg start).old = none) := by
  have files := persisting.filesLeft
  have stored : (filesOf cfg start).db = start (cfg.path .db) := rfl
  rw [stored]
  unfold remaining
  cases present : start (cfg.path .db) with
  | none => exact ⟨nofun, fun _ => crashSafe_noExist disk snapshot k⟩
  | some db =>
    have kept : k + 1 = 5 → disk (cfg.path .old) = (filesOf cfg start).old := by
      intro five
      rw [five, persistAfter, stored, present] at files
      exact congrArg Files.old files
    rw [Option.isSome_some, crashSafe_exist]
    constructor
    · intro safe _ five
      rw [← kept five, safe five]
    · intro safe five
      rw [kept five, safe rfl five]

/-- A start repairs what the first steps of a persist have left exactly when a crash there is safe. -/
theorem Persisting.starts (persisting : Persisting cfg start snapshot k disk) (junk : Nat → UInt8) :
    (∃ repaired, preDatabaseLoad cfg junk disk = .ok repaired) ↔
      CrashSafe cfg ⟨disk, .persisting (remaining cfg start snapshot k)⟩ := by
  cases k with
  | zero =>
    obtain ⟨state, settled⟩ := persisting.settled
    have same : start = disk := Option.some.inj persisting.ran
    rw [← same, settled_starts settled]
    rfl
  | succ k =>
    obtain ⟨state, outcome⟩ := outcome_after cfg (filesOf cfg start) snapshot (.inr (Nat.succ_pos k))
    rw [← persisting.filesLeft] at outcome
    rw [starts_iff outcome.journals, outcome.starts, persisting.crashSafe]

/-! ### Every history -/

def Inv (cfg : Config) (s : Server) : Prop :=
  match s.phase with
  | .down => Startable cfg (filesOf cfg s.disk)
  | .loaded | .up => ∃ state, Settled cfg (filesOf cfg s.disk) state
  | .persisting steps =>
    ∃ start snapshot k, Persisting cfg start snapshot k s.disk ∧ steps = remaining cfg start snapshot k

theorem inv_starts {s : Server} (inv : Inv cfg s) (junk : Nat → UInt8) :
    (∃ repaired, preDatabaseLoad cfg junk s.disk = .ok repaired) ↔ CrashSafe cfg s := by
  obtain ⟨disk, phase⟩ := s
  cases phase with
  | down =>
    obtain ⟨state, journals, repairs⟩ := inv
    rw [starts_iff journals]
    exact ⟨fun _ => trivial, fun _ => repairs⟩
  | loaded | up =>
    obtain ⟨state, settled⟩ := inv
    exact settled_starts settled junk
  | persisting steps =>
    obtain ⟨start, snapshot, k, persisting, rfl⟩ := inv
    exact persisting.starts junk

theorem settled_wal {after : Disk Str} {value : Option Bytes} (settled : Settled cfg (filesOf cfg disk) state)
    (written : after = Function.update disk (cfg.path .wal) value) : Settled cfg (filesOf cfg after) state := by
  rw [written, filesOf_update]
  exact ⟨settled.journals, settled.moving, settled.moved⟩

theorem journals_of_starts {s : Server} (inv : Inv cfg s) : ∃ state, (filesOf cfg s.disk).Journals cfg state := by
  obtain ⟨disk, phase⟩ := s
  cases phase with
  | down =>
    obtain ⟨state, journals, -⟩ := inv
    exact ⟨state, journals⟩
  | loaded | up =>
    obtain ⟨state, settled⟩ := inv
    exact ⟨state, settled.journals⟩
  | persisting steps =>
    obtain ⟨start, snapshot, k, persisting, rfl⟩ := inv
    obtain ⟨state, settled⟩ := persisting.settled
    cases k with
    | zero =>
      obtain rfl := Option.some.inj persisting.ran
      exact ⟨state, settled.journals⟩
    | succ k =>
      obtain ⟨state, outcome⟩ := outcome_after cfg (filesOf cfg start) snapshot (.inr (Nat.succ_pos k))
      rw [← persisting.filesLeft] at outcome
      exact ⟨state, outcome.journals⟩

theorem crash_inv {s : Server} (inv : Inv cfg s) (safe : CrashSafe cfg s) : Inv cfg ⟨s.disk, .down⟩ := by
  obtain ⟨state, journals⟩ := journals_of_starts inv
  have starts := (inv_starts inv fun _ => 0).mpr safe
  exact ⟨state, journals, (starts_iff journals _).mp starts⟩

theorem persisted_journal (persisting : Persisting cfg start snapshot k disk)
    (finished : remaining cfg start snapshot k = []) : (filesOf cfg disk).journal = none := by
  have long : (persistSteps (start (cfg.path .db)).isSome (cfg.path .old) snapshot).length ≤ k :=
    List.drop_eq_nil_iff.mp finished
  rw [persisting.filesLeft]
  unfold persistAfter
  split
  · rename_i db present
    have stored : start (cfg.path .db) = some db := present
    rw [stored] at long
    obtain ⟨n, rfl⟩ := Nat.exists_eq_add_of_le' long
    rfl
  · rename_i absent
    have missing : start (cfg.path .db) = none := absent
    rw [missing] at long
    obtain ⟨n, rfl⟩ := Nat.exists_eq_add_of_le' long
    rfl

theorem file_inv {after : Disk Str} {op : FileOp File} {rest : List (FileOp File)}
    (inv : Inv cfg ⟨disk, .persisting (op :: rest)⟩) (done : (op.map cfg.path).exec disk = some after) :
    Inv cfg ⟨after, .persisting rest⟩ := by
  obtain ⟨start, snapshot, k, persisting, steps⟩ := inv
  refine ⟨start, snapshot, k + 1, ⟨persisting.settled, ?_⟩, ?_⟩
  · have next : (persistWithWal cfg snapshot start)[k]? = some (op.map cfg.path) := by
      rw [persistWithWal, List.getElem?_map, ← List.head?_drop]
      change Option.map _ (remaining cfg start snapshot k).head? = _
      rw [← steps]
      rfl
    rw [List.take_add_one, next, FileOp.execAll_append, persisting.ran]
    simp [FileOp.execAll, done]
  · rw [remaining, ← List.tail_drop]
    change rest = (remaining cfg start snapshot k).tail
    rw [← steps]
    rfl

theorem step_inv {s t : Server} (inv : Inv cfg s) (step : Step cfg s t) : Inv cfg t := by
  cases step with
  | load junk loaded =>
    obtain ⟨state, journals, repairs⟩ := inv
    obtain ⟨files, read⟩ := Option.isSome_iff_exists.mp repairs
    obtain ⟨repaired, run, rfl⟩ := preDatabaseLoad_repair journals read junk
    rw [loaded] at run
    obtain rfl := Except.ok.inj run
    exact ⟨state, repair_settled journals read⟩
  | walTo opened =>
    obtain ⟨state, settled⟩ := inv
    exact ⟨state, settled_wal settled (Option.some.inj opened).symm⟩
  | log bytes written =>
    obtain ⟨state, settled⟩ := inv
    exact ⟨state, settled_wal settled (Option.some.inj written).symm⟩
  | persist orders contents => exact ⟨_, _, 0, ⟨inv, rfl⟩, rfl⟩
  | file done => exact file_inv inv done
  | persisted =>
    obtain ⟨start, snapshot, k, persisting, finished⟩ := inv
    exact ⟨.emptyJournal, .inr ⟨persisted_journal persisting finished.symm, rfl⟩, nofun, nofun⟩

theorem reachable_inv {s : Server} (reached : Reachable cfg (CrashSafe cfg) s) : Inv cfg s := by
  induction reached with
  | empty missing => exact ⟨.emptyJournal, .inr ⟨missing .journal, rfl⟩, rfl⟩
  | step _ step ih => exact step_inv ih step
  | crash _ safe ih => exact crash_inv ih safe

theorem reachable_steps {allowed : Server → Prop} {after : Disk Str} {steps : List (FileOp File)}
    (reached : Reachable cfg allowed ⟨disk, .persisting steps⟩) (k : Nat)
    (ran : FileOp.execAll ((steps.take k).map (FileOp.map cfg.path)) disk = some after) :
    Reachable cfg allowed ⟨after, .persisting (steps.drop k)⟩ := by
  induction k generalizing disk steps with
  | zero =>
    obtain rfl := Option.some.inj ran
    exact reached
  | succ k ih =>
    cases steps with
    | nil =>
      obtain rfl := Option.some.inj ran
      exact reached
    | cons op rest =>
      obtain ⟨next, done, later⟩ := Option.bind_eq_some_iff.mp ran
      exact ih (.step reached (.file done)) later

theorem reachable_persist {allowed : Server → Prop} (reached : Reachable cfg allowed ⟨disk, .up⟩)
    (orders : Index → DbOrder) (contents : Index → Contents) (k : Nat) :
    ∃ after, Reachable cfg allowed ⟨after, .persisting (remaining cfg disk
        (doPersist orders fun i => (contents i).store) k)⟩ ∧
      filesOf cfg after = persistAfter (cfg.path .old) (filesOf cfg disk)
        (doPersist orders fun i => (contents i).store) k := by
  obtain ⟨after, ran, files⟩ := crashed_files cfg (doPersist orders fun i => (contents i).store) disk k
  rw [persistWithWal, ← List.map_take] at ran
  exact ⟨after, reachable_steps (.step reached (.persist orders contents)) k ran, files⟩

end Vanity.Persist
