import Vanity.Persist.Journal

/-!
# What a crash leaves and what the repair makes of it

The journal that a persist has written so far is read back as the state it stands for, so the repair
is a function of this state and of which files exist. `crashed_exist` and `crashed_noExist` list the
four files that matter after each file step of `persist_with_wal`.
-/

namespace Vanity.Persist
open Db Wal

/-! ### Reading the journal -/

theorem atEof_more (state : JournalState) (rest : Bytes) (junk : Nat → UInt8) :
    atEof ⟨journalEntry state ++ rest, false, junk⟩ = .ok (false, ⟨journalEntry state ++ rest, false, junk⟩) := rfl

theorem readEntry_state (state : JournalState) (rest : Bytes) (junk : Nat → UInt8) :
    (readU32 : ReadM UInt32) ⟨journalEntry state ++ rest, false, junk⟩ = .ok (state.code, ⟨rest, false, junk⟩) :=
  (frames_u32 state.code).reads rest junk

def writtenJournal (old : Str) (state : JournalState) : RecoveredJournal where
  state := state
  movingExistingDbFile :=
    match state with
    | .emptyJournal | .dbFileNoExist | .dbFileExist => none
    | .movingExistingDbFile | .movedExistingDbFile | .movedNewDbFile => some old

theorem readMoved_existing (old : Str) (junk : Nat → UInt8) :
    readMoved old ⟨journalEntry .movedExistingDbFile ++ [], false, junk⟩ =
      .ok (⟨.movedExistingDbFile, some old⟩, ⟨[], false, junk⟩) := by
  unfold readMoved
  rw [bind_read (atEof_more _ _ _)]
  simp only [Bool.false_eq_true, if_false]
  rw [bind_read (readEntry_state _ _ _)]
  rfl

theorem readMoved_new (old : Str) (junk : Nat → UInt8) :
    readMoved old ⟨journalEntry .movedExistingDbFile ++ (journalEntry .movedNewDbFile ++ []), false, junk⟩ =
      .ok (⟨.movedNewDbFile, some old⟩, ⟨[], false, junk⟩) := by
  unfold readMoved
  rw [bind_read (atEof_more _ _ _)]
  simp only [Bool.false_eq_true, if_false]
  rw [bind_read (readEntry_state _ _ _), if_neg (by simp)]
  rw [bind_read (atEof_more _ _ _)]
  simp only [Bool.false_eq_true, if_false]
  rw [bind_read (readEntry_state _ _ _)]
  rfl

theorem readExist_moving {old : Str} (sized : SizedStr old) (rest : Bytes) (junk : Nat → UInt8) :
    readExist ⟨journalMoving old ++ rest, false, junk⟩ = readMoved old ⟨rest, false, junk⟩ := by
  unfold readExist
  rw [journalMoving, List.append_assoc, bind_read (atEof_more _ _ _)]
  simp only [Bool.false_eq_true, if_false]
  rw [bind_read (readEntry_state _ _ _), if_neg (by simp), bind_read ((frames_str sized).reads rest junk)]

theorem readJournal_exist (rest : Bytes) (junk : Nat → UInt8) :
    readJournal ⟨journalEntry .dbFileExist ++ rest, false, junk⟩ = readExist ⟨rest, false, junk⟩ := by
  unfold readJournal
  rw [bind_read (atEof_more _ _ _)]
  simp only [Bool.false_eq_true, if_false]
  rw [bind_read (readEntry_state _ _ _), if_neg (by decide), if_neg (by simp)]

theorem readJournal_noExist (junk : Nat → UInt8) :
    readJournal ⟨journalEntry .dbFileNoExist ++ [], false, junk⟩ =
      .ok (⟨.dbFileNoExist, none⟩, ⟨[], false, junk⟩) := by
  unfold readJournal
  rw [bind_read (atEof_more _ _ _)]
  simp only [Bool.false_eq_true, if_false]
  rw [bind_read (readEntry_state _ _ _)]
  rfl

theorem recoverJournal_written {old : Str} (sized : SizedStr old) (state : JournalState) (junk : Nat → UInt8) :
    recoverJournal junk (some (journalBytes old state)) = .ok (writtenJournal old state) := by
  cases state with
  | emptyJournal => rfl
  | dbFileNoExist =>
    have read := readJournal_noExist junk
    rw [List.append_nil] at read
    rw [recoverJournal, journalBytes, read]
    rfl
  | dbFileExist =>
    have read := readJournal_exist [] junk
    rw [List.append_nil] at read
    rw [recoverJournal, journalBytes, read]
    rfl
  | movingExistingDbFile =>
    have read := readExist_moving sized [] junk
    rw [List.append_nil] at read
    rw [recoverJournal, journalBytes, readJournal_exist, read]
    rfl
  | movedExistingDbFile =>
    have read := readMoved_existing old junk
    rw [List.append_nil] at read
    rw [recoverJournal, journalBytes, List.append_assoc, readJournal_exist, readExist_moving sized, read]
    rfl
  | movedNewDbFile =>
    have read := readMoved_new old junk
    rw [List.append_nil] at read
    rw [recoverJournal, journalBytes, List.append_assoc, List.append_assoc, readJournal_exist,
      readExist_moving sized, read]
    rfl

/-! ### The repair -/

/-- The files that the repair and the load look at. -/
structure Files where
  journal : Option Bytes
  db : Option Bytes
  old : Option Bytes
  wal : Option Bytes

def view (files : Disk File) : Files := ⟨files .journal, files .db, files .old, files .wal⟩

def filesOf (cfg : Config) (disk : Disk Str) : Files := view (disk ∘ cfg.path)

/-- The journal says that a persist has come to this state. -/
def Files.Journals (cfg : Config) (files : Files) (state : JournalState) : Prop :=
  files.journal = some (journalBytes (cfg.path .old) state) ∨ files.journal = none ∧ state = .emptyJournal

/-- The switch of `pre_database_load`, `none` where it throws. -/
def repair : JournalState → Files → Option Files
  | .emptyJournal, files | .dbFileExist, files => some files
  | .dbFileNoExist, files => some (if files.db.isSome then { files with wal := none } else files)
  | .movingExistingDbFile, files =>
    match files.db, files.old with
    | some _, some _ | none, none => none
    | some _, none => some files
    | none, some bytes => some { files with db := some bytes, old := none }
  | .movedExistingDbFile, files => files.old.map fun bytes => { files with db := some bytes, old := none }
  | .movedNewDbFile, files => some { files with wal := none }

/-- Repeating the repair does no harm to the files it has left. -/
def Lasting (state : JournalState) (files : Files) : Prop :=
  match state with
  | .emptyJournal | .dbFileExist | .movingExistingDbFile => True
  | .dbFileNoExist => files.db = none
  | .movedExistingDbFile | .movedNewDbFile => False

theorem filesOf_update (cfg : Config) (disk : Disk Str) (file : File) (value : Option Bytes) :
    filesOf cfg (Function.update disk (cfg.path file) value) =
      view (Function.update (disk ∘ cfg.path) file value) := by
  rw [filesOf, Function.update_comp_eq_of_injective disk cfg.path_injective]

theorem renameOld_files (cfg : Config) (disk : Disk Str) :
    (renameOrThrow (cfg.path .old) (cfg.path .db) disk).toOption.map (filesOf cfg) =
      (filesOf cfg disk).old.map fun bytes => { filesOf cfg disk with db := some bytes, old := none } := by
  have stored : (filesOf cfg disk).old = disk (cfg.path .old) := rfl
  cases present : disk (cfg.path .old) with
  | none =>
    rw [stored, present, renameOrThrow, FileOp.exec, present]
    rfl
  | some bytes =>
    rw [stored, present, renameOrThrow, FileOp.exec, present]
    change some (filesOf cfg (Function.update (Function.update disk (cfg.path .old) none) (cfg.path .db) (some bytes))) = _
    rw [filesOf_update, Function.update_comp_eq_of_injective disk cfg.path_injective]
    rfl

theorem removeWal_files (cfg : Config) (disk : Disk Str) :
    filesOf cfg (removeWal cfg disk) = { filesOf cfg disk with wal := none } := by
  rw [removeWal, filesOf_update]
  rfl

/-- `pre_database_load` is the switch on the state that the journal stands for. -/
theorem preDatabaseLoad_files {cfg : Config} {disk : Disk Str} {state : JournalState}
    (journals : (filesOf cfg disk).Journals cfg state) (junk : Nat → UInt8) :
    (preDatabaseLoad cfg junk disk).toOption.map (filesOf cfg) = repair state (filesOf cfg disk) := by
  have recovered : recoverJournal junk (disk (cfg.path .journal)) = .ok (writtenJournal (cfg.path .old) state) := by
    rcases journals with written | ⟨missing, rfl⟩
    · exact (congrArg _ written).trans (recoverJournal_written cfg.sized state junk)
    · exact congrArg _ missing
  have dbRead : disk (cfg.path .db) = (filesOf cfg disk).db := rfl
  have oldRead : disk (cfg.path .old) = (filesOf cfg disk).old := rfl
  unfold preDatabaseLoad
  rw [recovered]
  cases state with
  | emptyJournal | dbFileExist => rfl
  | dbFileNoExist =>
    change some (filesOf cfg (if (disk (cfg.path .db)).isSome then removeWal cfg disk else disk)) = _
    rw [dbRead, repair, apply_ite (filesOf cfg), removeWal_files]
  | movingExistingDbFile =>
    have renamed := renameOld_files cfg disk
    simp only [writtenJournal, repair, bind, Except.bind, dbRead, oldRead]
    cases db : (filesOf cfg disk).db <;> cases old : (filesOf cfg disk).old
    · rfl
    · rw [old] at renamed
      exact renamed
    · rfl
    · rfl
  | movedExistingDbFile => exact renameOld_files cfg disk
  | movedNewDbFile =>
    change some (filesOf cfg (removeWal cfg disk)) = _
    rw [removeWal_files]
    rfl

/-! ### What a crash leaves -/

def existAfter (old : Str) (files : Files) (db snapshot : Bytes) : Nat → Files
  | 0 => files
  | 1 | 2 | 3 => { files with journal := some (journalBytes old .emptyJournal) }
  | 4 => { files with journal := some (journalBytes old .dbFileExist) }
  | 5 => { files with journal := some (journalBytes old .movingExistingDbFile) }
  | 6 => ⟨some (journalBytes old .movingExistingDbFile), none, some db, files.wal⟩
  | 7 => ⟨some (journalBytes old .movedExistingDbFile), none, some db, files.wal⟩
  | 8 => ⟨some (journalBytes old .movedExistingDbFile), some snapshot, some db, files.wal⟩
  | 9 => ⟨some (journalBytes old .movedNewDbFile), some snapshot, some db, files.wal⟩
  | 10 => ⟨some (journalBytes old .movedNewDbFile), some snapshot, some db, none⟩
  | 11 => ⟨none, some snapshot, some db, none⟩
  | 12 => ⟨none, some snapshot, none, none⟩
  | _ => ⟨none, some snapshot, none, some []⟩

def noExistAfter (old : Str) (files : Files) (snapshot : Bytes) : Nat → Files
  | 0 => files
  | 1 | 2 | 3 => { files with journal := some (journalBytes old .emptyJournal) }
  | 4 => { files with journal := some (journalBytes old .dbFileNoExist) }
  | 5 => { files with journal := some (journalBytes old .dbFileNoExist), db := some snapshot }
  | 6 => { files with journal := some (journalBytes old .dbFileNoExist), db := some snapshot, wal := none }
  | 7 => { files with journal := none, db := some snapshot, wal := none }
  | _ => { files with journal := none, db := some snapshot, wal := some [] }

def persistAfter (old : Str) (files : Files) (snapshot : Bytes) (k : Nat) : Files :=
  match files.db with
  | some db => existAfter old files db snapshot k
  | none => noExistAfter old files snapshot k

theorem crashed_exist {files : Disk File} {db : Bytes} (present : files .db = some db) (old : Str)
    (snapshot : Bytes) (k : Nat) :
    ∃ after, FileOp.execAll ((persistSteps true old snapshot).take k) files = some after ∧
      view after = existAfter old (view files) db snapshot k := by
  match k with
  | 0 | 1 | 2 | 3 | 4 | 5 | 6 | 7 | 8 | 9 | 10 | 11 | 12 | _ + 13 =>
    simp [persistSteps, journalDbFileExist, FileOp.execAll, FileOp.exec, view, existAfter, journalBytes, present,
      List.append_assoc]

theorem crashed_noExist {files : Disk File} (absent : files .db = none) (old : Str) (snapshot : Bytes) (k : Nat) :
    ∃ after, FileOp.execAll ((persistSteps false old snapshot).take k) files = some after ∧
      view after = noExistAfter old (view files) snapshot k := by
  match k with
  | 0 | 1 | 2 | 3 | 4 | 5 | 6 | 7 | _ + 8 =>
    simp [persistSteps, journalDbFileNoExist, FileOp.execAll, FileOp.exec, view, noExistAfter, journalBytes, absent]

theorem crashed_files (cfg : Config) (snapshot : Bytes) (disk : Disk Str) (k : Nat) :
    ∃ crashed, FileOp.execAll ((persistWithWal cfg snapshot disk).take k) disk = some crashed ∧
      filesOf cfg crashed = persistAfter (cfg.path .old) (filesOf cfg disk) snapshot k := by
  have lifted := FileOp.execAll_map cfg.path_injective
    ((persistSteps (disk (cfg.path .db)).isSome (cfg.path .old) snapshot).take k) disk
  obtain ⟨after, run, files⟩ : ∃ after, FileOp.execAll
      ((persistSteps (disk (cfg.path .db)).isSome (cfg.path .old) snapshot).take k) (disk ∘ cfg.path) = some after ∧
      view after = persistAfter (cfg.path .old) (filesOf cfg disk) snapshot k := by
    have stored : (filesOf cfg disk).db = disk (cfg.path .db) := rfl
    unfold persistAfter
    rw [stored]
    cases present : disk (cfg.path .db) with
    | none => exact crashed_noExist present _ _ k
    | some db => exact crashed_exist present _ _ k
  rw [run, List.map_take] at lifted
  obtain ⟨crashed, ran, rfl⟩ := Option.map_eq_some_iff.mp lifted
  exact ⟨crashed, ran, files⟩

end Vanity.Persist
