import Vanity.Library.Files
import Vanity.Wal.Recovery
import Vanity.Wal.Snapshot

/-!
# The persist journal

`journal.cpp`, `journalist.cpp` and the two ends of `persist_journal_server.cpp` that they serve:
`persist_with_wal` journals the exchange of the database file, and `pre_database_load` repairs at
the next start what a crash left of it.
-/

namespace Vanity.Persist
open Db Wal

/-! ### The files of a server -/

inductive File where
  | db | wal | journal | tmp | old
  deriving DecidableEq

def ascii (text : String) : Str := text.toList.map fun c => UInt8.ofNat c.toNat

/-- `with_name_prefix` on a name in the working directory. -/
def withNamePrefix (name : Str) (text : String) : Str := ascii text ++ name

def File.name : File → Str
  | .db => ascii "vanity.db"
  | .wal => ascii "vanity.wal"
  | .journal => ascii "vanity.journal"
  | .tmp => withNamePrefix (ascii "vanity.db") "tmp."
  | .old => withNamePrefix (ascii "vanity.db") "old."

def join (dir name : Str) : Str := if dir.getLast? = some 47 then dir ++ name else dir ++ 47 :: name

/-- The working directory, as an absolute path. The journal holds the path of the old database file,
which is a string of the program. -/
structure Config where
  workingDir : Str
  sized : SizedStr (join workingDir File.old.name)

def Config.path (cfg : Config) (file : File) : Str := join cfg.workingDir file.name

def Config.root : Config := ⟨ascii "/", by decide⟩

theorem File.name_injective : Function.Injective File.name := by
  intro a b
  cases a <;> cases b <;> decide

theorem Config.path_injective (cfg : Config) : Function.Injective cfg.path := by
  intro a b same
  apply File.name_injective
  unfold Config.path join at same
  split at same
  · exact List.append_cancel_left same
  · exact (List.cons.inj (List.append_cancel_left same)).2

/-! ### Journal entries -/

inductive JournalState where
  | emptyJournal
  | dbFileNoExist
  | dbFileExist
  | movingExistingDbFile
  | movedExistingDbFile
  | movedNewDbFile
  deriving DecidableEq

def JournalState.code : JournalState → UInt32
  | .emptyJournal => 0
  | .dbFileNoExist => 1
  | .dbFileExist => 2
  | .movingExistingDbFile => 3
  | .movedExistingDbFile => 4
  | .movedNewDbFile => 5

def journalEntry (state : JournalState) : Bytes := writeU32 state.code

def journalMoving (old : Str) : Bytes := journalEntry .movingExistingDbFile ++ writeStr old

/-- The journal that a `JournalMaker` in this state has written. -/
def journalBytes (old : Str) : JournalState → Bytes
  | .emptyJournal => []
  | .dbFileNoExist => journalEntry .dbFileNoExist
  | .dbFileExist => journalEntry .dbFileExist
  | .movingExistingDbFile => journalEntry .dbFileExist ++ journalMoving old
  | .movedExistingDbFile => journalEntry .dbFileExist ++ journalMoving old ++ journalEntry .movedExistingDbFile
  | .movedNewDbFile =>
    journalEntry .dbFileExist ++ journalMoving old ++ journalEntry .movedExistingDbFile ++
      journalEntry .movedNewDbFile

structure RecoveredJournal where
  state : JournalState := .emptyJournal
  movingExistingDbFile : Option Str := none

def atEof : ReadM Bool := fun s => .ok (s.peek.isNone, s)

def corrupt (what : String) : Exception := .corruptJournal ("Journal is corrupted: " ++ what)

def readMoved (old : Str) : ReadM RecoveredJournal := do
  if ← atEof then return ⟨.movingExistingDbFile, some old⟩
  let state ← readU32
  if state ≠ JournalState.movedExistingDbFile.code then throw (corrupt "expected MOVED_EXISTING_DB_FILE")
  if ← atEof then return ⟨.movedExistingDbFile, some old⟩
  let state ← readU32
  if state ≠ JournalState.movedNewDbFile.code then throw (corrupt "expected MOVED_NEW_DB_FILE")
  if !(← atEof) then throw (corrupt "extra data after MOVED_NEW_DB_FILE")
  return ⟨.movedNewDbFile, some old⟩

def readExist : ReadM RecoveredJournal := do
  if ← atEof then return ⟨.dbFileExist, none⟩
  let state ← readU32
  if state ≠ JournalState.movingExistingDbFile.code then throw (corrupt "expected MOVING_EXISTING_DB_FILE")
  readMoved (← readStr)

def readJournal : ReadM RecoveredJournal := do
  if ← atEof then return ⟨.emptyJournal, none⟩
  let state ← readU32
  if state = JournalState.dbFileNoExist.code then
    if ← atEof then return ⟨.dbFileNoExist, none⟩
    throw (corrupt "extra data after DB_FILE_NO_EXIST")
  if state ≠ JournalState.dbFileExist.code then throw (corrupt "expected DB_FILE_EXIST or DB_FILE_NO_EXIST")
  readExist

/-- The constructor of `RecoveredJournal`, with `none` for a journal that does not exist. -/
def recoverJournal (junk : Nat → UInt8) : Option Bytes → Except Exception RecoveredJournal
  | none => .ok {}
  | some bytes => (readJournal ⟨bytes, false, junk⟩).map Prod.fst

/-! ### Persisting -/

def journalDbFileNoExist : List (FileOp File) :=
  [.append .journal (journalEntry .dbFileNoExist), .rename .tmp .db, .remove .wal, .remove .journal]

def journalDbFileExist (old : Str) : List (FileOp File) :=
  [.append .journal (journalEntry .dbFileExist), .append .journal (journalMoving old), .rename .db .old,
   .append .journal (journalEntry .movedExistingDbFile), .rename .tmp .db,
   .append .journal (journalEntry .movedNewDbFile), .remove .wal, .remove .journal, .remove .old]

/-- The file steps of `persist_with_wal`: the journal is created, the snapshot goes to the temporary
file, the files are exchanged, and the log is opened again. -/
def persistSteps (dbExists : Bool) (old : Str) (snapshot : Bytes) : List (FileOp File) :=
  [.create .journal, .create .tmp, .append .tmp snapshot] ++
    (if dbExists then journalDbFileExist old else journalDbFileNoExist) ++ [.touch .wal]

def persistWithWal (cfg : Config) (snapshot : Bytes) (disk : Disk Str) : List (FileOp Str) :=
  (persistSteps (disk (cfg.path .db)).isSome (cfg.path .old) snapshot).map (FileOp.map cfg.path)

/-! ### Repair -/

def renameOrThrow (source dest : Str) (disk : Disk Str) : Except Exception (Disk Str) :=
  match (FileOp.rename source dest).exec disk with
  | none => .error .filesystemError
  | some disk => .ok disk

def removeWal (cfg : Config) (disk : Disk Str) : Disk Str := Function.update disk (cfg.path .wal) none

def preDatabaseLoad (cfg : Config) (junk : Nat → UInt8) (disk : Disk Str) : Except Exception (Disk Str) := do
  let recovered ← recoverJournal junk (disk (cfg.path .journal))
  match recovered.state, recovered.movingExistingDbFile with
  | .emptyJournal, _ => return disk
  | .dbFileNoExist, _ => return if (disk (cfg.path .db)).isSome then removeWal cfg disk else disk
  | .dbFileExist, _ => return disk
  | .movingExistingDbFile, some old =>
    if (disk old).isSome ∧ (disk (cfg.path .db)).isSome then
      throw (.walError "Journal violation: both old and current db files exist")
    if (disk (cfg.path .db)).isSome then return disk
    if (disk old).isNone then throw (.walError "Journal violation: none of old or current db files exist")
    renameOrThrow old (cfg.path .db) disk
  | .movedExistingDbFile, some old => renameOrThrow old (cfg.path .db) disk
  | .movedNewDbFile, _ => return removeWal cfg disk
  -- the path stands in every journal that goes this far
  | .movingExistingDbFile, none | .movedExistingDbFile, none => throw .undefinedBehaviour

end Vanity.Persist
