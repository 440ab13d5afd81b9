import Vanity.Persist.Restart
import Vanity.Wal.Replay

/-!
# A second crash

A crash in a persist, a start, some calls, and another crash. The first start repairs the files but
does not delete the journal, so the second start repairs them again, with the calls of the first
server now in the log.
-/

namespace Vanity.Persist
open Db Wal

/-- What a start takes from outside the disk: the environments of the replayed calls and of the purge,
and the bytes of uninitialized variables. -/
structure Boot where
  envs : Nat → Env
  purge : Index → Env
  junk : Nat → UInt8

/-- The constructor of `PersistJournalServer` and `recover`. The log is created if it is missing,
replayed without expiry, and then takes the expiries of the purge. -/
def startup (cfg : Config) (boot : Boot) (disk : Disk Str) : Except Exception (Databases × Disk Str) := do
  let disk ← preDatabaseLoad cfg boot.junk disk
  let dbs ← loadDatabases boot.junk (disk (cfg.path .db)) fun _ => {}
  let log := (disk (cfg.path .wal)).getD []
  let dbs ← doRecover boot.envs boot.junk log (enableExpiry false dbs)
  let dbs := fun i => (enableExpiry true dbs i).deepPurge (boot.purge i)
  let written := (List.finRange numDatabases).flatMap fun i => (expiries i dbs).flatMap (wal (boot.purge i).order)
  return (dbs, Function.update disk (cfg.path .wal) (some (log ++ written)))

/-! ### Runs in which no key expires -/

def NoneDue (stores : Stores) (i : Index) (env : Env) : Prop :=
  ∀ n key, (live stores i).isExpired (env.now n) key = false

def Boot.Quiet (boot : Boot) (stores : Stores) : Prop := ∀ i, NoneDue stores i (boot.purge i)

/-- No key expires, the call is no `set_remove`, and the outcome of a `hash_update` does not depend on
the iteration order. -/
def QuietEvent (stores : Stores) : Event → Prop
  | .call env i _ op => NoneDue stores i env ∧
    match op with
    | .setRemove .. => False
    | .hashUpdate key values => ∀ hash, (stores i).data.lookup key = some (.hash hash) → OrderFree hash values
    | _ => True
  | .shallowPurge env i | .deepPurge env i => NoneDue stores i env

def QuietRun : List Event → Stores → Prop
  | [], _ => True
  | event :: events, stores =>
    QuietEvent stores event ∧ ∀ entries after, liveStep event stores = some (entries, after) → QuietRun events after

variable {stores after base : Stores} {i : Index} {env : Env}

theorem noneDue_fresh (quiet : NoneDue stores i env) (keys : List Str) (shift : Nat) :
    (live stores i).Fresh (fun n => env.now (n + shift)) keys := by
  induction keys generalizing shift with
  | nil => trivial
  | cons key keys ih =>
    refine ⟨quiet _ key, ?_⟩
    have rest := ih (shift + 1)
    simpa only [Nat.add_assoc, Nat.add_comm 1] using rest

theorem quiet_replaySafe {op : Op} {trn : UInt64} (quiet : QuietEvent stores (.call env i trn op)) :
    ReplaySafe env i stores op := by
  obtain ⟨due, quiet⟩ := quiet
  have fresh : ∀ keys, (live stores i).Fresh env.now keys := fun keys => noneDue_fresh due keys 0
  cases op with
  | incrInt | incrFloat | setUnionInto | setIntersectionInto | setDifferenceInto => exact fresh _
  | listPushLeft | listPushRight | setAdd => exact .inr (fresh _)
  | copyTo | moveTo | copyToDb | moveToDb => exact .inr (.inr (fresh _))
  | listTrim | listRemove => exact .inl (fresh _)
  | setMove => exact .inr (.inr (.inl (fresh _)))
  | setRemove => exact quiet.elim
  | hashUpdate => exact ⟨fresh _, quiet⟩
  | _ => trivial

theorem quiet_safeRun {events : List Event} (quiet : QuietRun events stores) : SafeRun events stores := by
  induction events generalizing stores with
  | nil => trivial
  | cons event events ih =>
    refine ⟨?_, fun entries after step => ih (quiet.2 entries after step)⟩
    cases event with
    | call env i trn op => exact quiet_replaySafe quiet.1
    | shallowPurge | deepPurge => trivial

theorem expiredAmong_none {db : Database} {now : Nat → Time} (quiet : ∀ n key, db.isExpired (now n) key = false)
    (keys : List Str) : db.expiredAmong now keys = [] := by
  induction keys generalizing now with
  | nil => rfl
  | cons key keys ih =>
    simp only [Database.expiredAmong, quiet 0 key, Bool.false_eq_true, if_false]
    exact ih fun n => quiet (n + 1)

theorem deepPurge_quiet (quiet : NoneDue stores i env) : (live stores i).deepPurge env = live stores i := by
  rw [Database.deepPurge, expiredAmong_none quiet]
  rfl

/-! ### What the files hold -/

/-- The database file is a snapshot of `base`, or there is none and `base` is empty. -/
def Loads (file : Option Bytes) (base : Stores) : Prop :=
  (file = none ∧ base = fun _ => {}) ∨
    ∃ (orders : Index → DbOrder) (contents : Index → Contents),
      file = some (doPersist orders fun i => (contents i).store) ∧ base = fun i => (contents i).store

/-- The database file and the log hold the databases `stores`: the log replays to them from the file. -/
def Holds (files : Files) (stores : Stores) : Prop :=
  ∃ base records, Loads files.db base ∧ files.wal.getD [] = log records ∧
    ∀ envs, replay envs (records.map Record.entry) (redoing base) = some (redoing stores)

theorem loads_load {file : Option Bytes} (loads : Loads file base) (junk : Nat → UInt8) :
    loadDatabases junk file (fun _ => {}) = .ok (live base) := by
  rcases loads with ⟨rfl, rfl⟩ | ⟨orders, contents, rfl, rfl⟩
  · rfl
  · exact loadDatabases_persisted orders contents junk _

theorem holds_snapshot {files : Files} {orders : Index → DbOrder} {contents : Index → Contents}
    (db : files.db = some (doPersist orders fun i => (contents i).store))
    (wal : files.wal = none ∨ files.wal = some []) : Holds files fun i => (contents i).store := by
  refine ⟨_, [], .inr ⟨orders, contents, db, rfl⟩, ?_, fun _ => rfl⟩
  rcases wal with missing | empty
  · rw [missing]
    rfl
  · rw [empty]
    rfl

theorem holds_run {files : Files} (holds : Holds files stores) {events : List Event} {records : List Record}
    (safe : SafeRun events stores) (run : liveRun events stores = some (records.map Record.entry, after)) :
    Holds { files with wal := some (files.wal.getD [] ++ log records) } after := by
  obtain ⟨base, written, loads, wal, replays⟩ := holds
  refine ⟨base, written ++ records, loads, ?_, ?_⟩
  · change files.wal.getD [] ++ log records = log (written ++ records)
    rw [wal, log, log, log, List.flatMap_append]
  · intro envs
    rw [List.map_append, replay_append, replays]
    exact liveRun_replays safe run _

theorem startup_holds {cfg : Config} {boot : Boot} {disk repaired : Disk Str}
    (loaded : preDatabaseLoad cfg boot.junk disk = .ok repaired) (holds : Holds (filesOf cfg repaired) stores)
    (quiet : boot.Quiet stores) :
    startup cfg boot disk =
      .ok (live stores, Function.update repaired (cfg.path .wal) (some ((repaired (cfg.path .wal)).getD []))) := by
  obtain ⟨base, records, loads, wal, replays⟩ := holds
  have dbRead : loadDatabases boot.junk (repaired (cfg.path .db)) (fun _ => {}) = .ok (live base) :=
    loads_load loads boot.junk
  have walRead : (repaired (cfg.path .wal)).getD [] = log records := wal
  have off : enableExpiry false (live base) = redoing base := rfl
  have on : enableExpiry true (redoing stores) = live stores := rfl
  have recovered : doRecover boot.envs boot.junk (log records) (redoing base) = .ok (redoing stores) := by
    rw [doRecover_replay, replays]
    rfl
  have purged : (fun i => (live stores i).deepPurge (boot.purge i)) = live stores := by
    funext i
    exact deepPurge_quiet (quiet i)
  have silent : ((List.finRange numDatabases).flatMap fun i =>
      (expiries i (live stores)).flatMap (Wal.wal (boot.purge i).order)) = [] := by
    simp [expiries, live]
  unfold startup
  simp only [loaded, dbRead, walRead, off, recovered, on, purged, silent, bind, Except.bind, List.append_nil]
  rfl

/-! ### Two starts -/

/-- Whatever calls the first server has acknowledged before it crashes, the second start comes up with
what they left. -/
def Survives (cfg : Config) (crashed : Disk Str) (stores : Stores) : Prop :=
  ∀ first second : Boot, first.Quiet stores →
    ∃ dbs disk, startup cfg first crashed = .ok (dbs, disk) ∧
      ∀ (events : List Event) (records : List Record) (after : Stores), QuietRun events (storesOf dbs) →
        liveRun events (storesOf dbs) = some (records.map Record.entry, after) → second.Quiet after →
        ∃ dbs' disk', startup cfg second (Function.update disk (cfg.path .wal)
            (some ((disk (cfg.path .wal)).getD [] ++ log records))) = .ok (dbs', disk') ∧ storesOf dbs' = after

/-- A repair that has nothing left to do when it is repeated. -/
def Stable (state : JournalState) (files : Files) : Prop :=
  ∀ wal, repair state { files with wal := some wal } = some { files with wal := some wal }

variable {cfg : Config} {crashed : Disk Str} {state : JournalState} {files : Files}

theorem filesOf_wal (cfg : Config) (disk : Disk Str) (value : Option Bytes) :
    filesOf cfg (Function.update disk (cfg.path .wal) value) = { filesOf cfg disk with wal := value } := by
  rw [filesOf_update]
  rfl

theorem filesOf_second (cfg : Config) (disk : Disk Str) (records : List Record) :
    filesOf cfg (Function.update (Function.update disk (cfg.path .wal) (some ((disk (cfg.path .wal)).getD [])))
        (cfg.path .wal) (some (((Function.update disk (cfg.path .wal) (some ((disk (cfg.path .wal)).getD [])))
          (cfg.path .wal)).getD [] ++ log records))) =
      { filesOf cfg disk with wal := some ((filesOf cfg disk).wal.getD [] ++ log records) } := by
  rw [filesOf_wal, filesOf_wal, Function.update_self]
  rfl

theorem repair_journal {repaired : Files} (journals : files.Journals cfg state)
    (repairs : repair state files = some repaired) : repaired.Journals cfg state :=
  (repair_settled journals repairs).journals

theorem survives_stable (journals : (filesOf cfg crashed).Journals cfg state)
    (repairs : repair state (filesOf cfg crashed) = some files) (holds : Holds files stores)
    (stable : Stable state files) : Survives cfg crashed stores := by
  intro first second quiet
  obtain ⟨repaired, loaded, rfl⟩ := preDatabaseLoad_repair journals repairs first.junk
  refine ⟨_, _, startup_holds loaded holds quiet, ?_⟩
  intro events records after quietRun run quietAfter
  have left := filesOf_second cfg repaired records
  have journalsAgain := repair_journal journals repairs
  obtain ⟨again, loadedAgain, filesAgain⟩ := preDatabaseLoad_repair (by rw [left]; exact journalsAgain)
    (by rw [left]; exact stable _) second.junk
  have held : Holds (filesOf cfg again) after := by
    rw [filesAgain]
    exact holds_run holds (quiet_safeRun quietRun) run
  exact ⟨_, _, startup_holds loadedAgain held quietAfter, rfl⟩

noncomputable def Boot.early : Boot where
  envs _ := .frozen Int64.minValue
  purge _ := .frozen Int64.minValue
  junk _ := 0

theorem early_noneDue (stores : Stores) (i : Index) : NoneDue stores i (.frozen Int64.minValue) := by
  intro n key
  unfold Database.isExpired
  split
  · rfl
  · split
    · rfl
    · rename_i time _
      have least : ¬Int64.minValue > time := Int64.not_lt.mpr (Int64.minValue_le time)
      exact decide_eq_false least

theorem startup_loads {boot : Boot} {disk after : Disk Str} {dbs : Databases}
    (started : startup cfg boot disk = .ok (dbs, after)) : ∃ repaired, preDatabaseLoad cfg boot.junk disk = .ok repaired := by
  unfold startup at started
  cases loaded : preDatabaseLoad cfg boot.junk disk with
  | error e =>
    rw [loaded] at started
    cases started
  | ok repaired => exact ⟨repaired, rfl⟩

theorem not_survives_refused (journals : (filesOf cfg crashed).Journals cfg state)
    (refused : repair state (filesOf cfg crashed) = none) : ¬Survives cfg crashed stores := by
  intro survives
  obtain ⟨dbs, disk, started, -⟩ := survives .early .early (early_noneDue stores)
  have repairs := (starts_iff journals _).mp (startup_loads started)
  rw [refused] at repairs
  cases repairs

/-- The second start after a run of the first server, which left this in the files. -/
theorem survives_second (journals : (filesOf cfg crashed).Journals cfg state)
    (repairs : repair state (filesOf cfg crashed) = some files) (holds : Holds files stores)
    (survives : Survives cfg crashed stores) {events : List Event} {records : List Record} {after : Stores}
    (quiet : QuietRun events stores) (run : liveRun events stores = some (records.map Record.entry, after)) :
    ∃ disk dbs last, filesOf cfg disk = { files with wal := some (files.wal.getD [] ++ log records) } ∧
      startup cfg .early disk = .ok (dbs, last) ∧ storesOf dbs = after := by
  obtain ⟨repaired, loaded, rfl⟩ := preDatabaseLoad_repair journals repairs Boot.early.junk
  obtain ⟨dbs, disk, started, again⟩ := survives .early .early (early_noneDue stores)
  rw [startup_holds loaded holds (early_noneDue stores)] at started
  obtain ⟨rfl, rfl⟩ := Prod.mk.inj (Except.ok.inj started)
  obtain ⟨dbs', disk', startedAgain, kept⟩ := again events records after quiet run (early_noneDue after)
  exact ⟨_, dbs', disk', filesOf_second cfg repaired records, startedAgain, kept⟩

theorem not_survives_throws (journals : (filesOf cfg crashed).Journals cfg state)
    (repairs : repair state (filesOf cfg crashed) = some files) (holds : Holds files stores)
    (throws : ∀ wal, repair state { files with wal := some wal } = none) : ¬Survives cfg crashed stores := by
  intro survives
  have quiet : QuietRun [] stores := trivial
  have run : liveRun [] stores = some (([] : List Record).map Record.entry, stores) := rfl
  obtain ⟨disk, dbs, last, left, started, -⟩ := survives_second journals repairs holds survives quiet run
  have journalsAgain := repair_journal journals repairs
  have repairsAgain := (starts_iff (by rw [left]; exact journalsAgain) _).mp (startup_loads started)
  rw [left, throws] at repairsAgain
  cases repairsAgain

def otherValue (stores : Stores) : Str := if (stores 0).data.lookup [] = some (.str []) then [0] else []

theorem otherValue_sized (stores : Stores) : SizedStr (otherValue stores) := by
  unfold otherValue
  split <;> decide

theorem otherValue_other (stores : Stores) : (stores 0).data.lookup [] ≠ some (.str (otherValue stores)) := by
  unfold otherValue
  split
  · rename_i held
    rw [held]
    decide
  · assumption

theorem liveRun_setOther (stores : Stores) :
    ∃ (record : Record) (after : Stores),
      liveRun [.call (.frozen Int64.minValue) 0 4 (.strSet [] (otherValue stores))] stores =
        some ([record].map Record.entry, after) ∧ after ≠ stores := by
  refine ⟨⟨.dbOp 0 4 (.strSet [] (otherValue stores)), .startingWith [], rfl, ⟨by decide, otherValue_sized stores⟩⟩,
    storesOf (Function.update (live stores) 0
      { store := ((stores 0).put [] (.str (otherValue stores))).clearExpiry [] }), rfl, ?_⟩
  intro same
  apply otherValue_other stores
  have set := congrArg Store.data (congrFun same 0)
  rw [storesOf_update, Function.update_self] at set
  rw [← set]
  exact Finmap.lookup_insert _

theorem not_survives_forgets (journals : (filesOf cfg crashed).Journals cfg state)
    (repairs : repair state (filesOf cfg crashed) = some files) (holds : Holds files stores)
    (forgets : ∀ wal, repair state { files with wal := some wal } = some files) : ¬Survives cfg crashed stores := by
  intro survives
  obtain ⟨record, after, run, changed⟩ := liveRun_setOther stores
  have quiet : QuietRun [.call (.frozen Int64.minValue) 0 4 (.strSet [] (otherValue stores))] stores :=
    ⟨⟨early_noneDue stores 0, trivial⟩, fun _ _ _ => trivial⟩
  obtain ⟨disk, dbs, last, left, started, kept⟩ := survives_second journals repairs holds survives quiet run
  have journalsAgain := repair_journal journals repairs
  obtain ⟨forgotten, loaded, filesAgain⟩ := preDatabaseLoad_repair (by rw [left]; exact journalsAgain)
    (by rw [left]; exact forgets _) Boot.early.junk
  have held : Holds (filesOf cfg forgotten) stores := by
    rw [filesAgain]
    exact holds
  rw [startup_holds loaded held (early_noneDue stores)] at started
  obtain ⟨rfl, -⟩ := Prod.mk.inj (Except.ok.inj started)
  exact changed kept.symm

/-! ### Crashes in a persist -/

theorem survives_iff (journals : (filesOf cfg crashed).Journals cfg state)
    (repairs : repair state (filesOf cfg crashed) = some files) (holds : Holds files stores) :
    Survives cfg crashed stores ↔ Lasting state files := by
  have settled := repair_settled journals repairs
  cases state with
  | emptyJournal | dbFileExist =>
    exact ⟨fun _ => trivial, fun _ => survives_stable journals repairs holds fun _ => rfl⟩
  | dbFileNoExist =>
    cases present : files.db with
    | none =>
      have stable : Stable .dbFileNoExist files := fun wal => by simp [repair, present]
      exact ⟨fun _ => present, fun _ => survives_stable journals repairs holds stable⟩
    | some db =>
      have noLog : files.wal = none := by
        cases written : (filesOf cfg crashed).db <;> simp [repair, written] at repairs
        · simp [← repairs, written] at present
        · rw [← repairs]
      have forgets : ∀ wal, repair .dbFileNoExist { files with wal := some wal } = some files := by
        intro wal
        change some (if files.db.isSome then { files with wal := none } else _) = _
        rw [if_pos (by rw [present]; rfl), ← noLog]
      simpa [Lasting, present] using not_survives_forgets journals repairs holds forgets
  | movingExistingDbFile =>
    obtain ⟨present, absent⟩ := settled.moving rfl
    obtain ⟨db, read⟩ := Option.isSome_iff_exists.mp present
    have stable : Stable .movingExistingDbFile files := fun wal => by simp [repair, read, absent]
    exact ⟨fun _ => trivial, fun _ => survives_stable journals repairs holds stable⟩
  | movedExistingDbFile =>
    have throws : ∀ wal, repair .movedExistingDbFile { files with wal := some wal } = none := by
      intro wal
      simp [repair, settled.moved rfl]
    exact iff_of_false (not_survives_throws journals repairs holds throws) id
  | movedNewDbFile =>
    obtain rfl := Option.some.inj repairs
    exact iff_of_false (not_survives_forgets journals repairs holds fun _ => rfl) id

theorem holds_paired {before after : Files} {orders : Index → DbOrder} {contents : Index → Contents}
    (paired : Paired before (doPersist orders fun i => (contents i).store) after)
    (holds : Holds before fun i => (contents i).store) : Holds after fun i => (contents i).store := by
  rcases paired with ⟨db, wal⟩ | ⟨db, wal⟩
  · obtain ⟨base, records, loads, written, replays⟩ := holds
    exact ⟨base, records, by rwa [db], by rwa [wal], replays⟩
  · exact holds_snapshot db wal

/-- A second crash loses nothing exactly when the first one was in a good place. -/
theorem second_crash_iff {disk : Disk Str} {orders : Index → DbOrder} {contents : Index → Contents} {k : Nat}
    (holds : Holds (filesOf cfg disk) fun i => (contents i).store) (begun : disk (cfg.path .journal) = none ∨ 0 < k)
    (ran : FileOp.execAll ((persistWithWal cfg (doPersist orders fun i => (contents i).store) disk).take k) disk =
      some crashed) :
    Survives cfg crashed (fun i => (contents i).store) ↔ GoodCrash (filesOf cfg disk) k := by
  obtain ⟨left, run, files⟩ := crashed_files cfg (doPersist orders fun i => (contents i).store) disk k
  rw [ran] at run
  obtain rfl := Option.some.inj run
  obtain ⟨state, outcome⟩ := outcome_after cfg (filesOf cfg disk) (doPersist orders fun i => (contents i).store) begun
  rw [← files] at outcome
  cases repairs : repair state (filesOf cfg crashed) with
  | none =>
    have starts := outcome.starts
    rw [repairs] at starts
    refine iff_of_false (not_survives_refused outcome.journals repairs) fun good => ?_
    exact Bool.false_ne_true (starts.mpr (goodCrash_old good))
  | some repaired =>
    obtain ⟨paired, lasting⟩ := outcome.repaired repaired repairs
    rw [survives_iff outcome.journals repairs (holds_paired paired holds), lasting]

theorem second_crash_empty :
    GoodCrash (filesOf .root fun _ => none) 4 ∧
      ∃ crashed, FileOp.execAll ((persistWithWal .root (doPersist (fun _ => .fixed) fun _ => Contents.empty.store)
        fun _ => none).take 4) (fun _ => none) = some crashed ∧ Survives .root crashed fun _ => Contents.empty.store := by
  have good : GoodCrash (filesOf .root fun _ => none) 4 := .inl (Nat.le_refl 4)
  have holds : Holds (filesOf .root fun _ => none) fun _ => Contents.empty.store :=
    ⟨_, [], .inl ⟨rfl, rfl⟩, rfl, fun _ => rfl⟩
  refine ⟨good, ?_⟩
  obtain ⟨crashed, ran, -⟩ := crashed_files .root (doPersist (fun _ => .fixed) fun _ => Contents.empty.store)
    (fun _ => none) 4
  exact ⟨crashed, ran, (second_crash_iff holds (.inl rfl) ran).mpr good⟩

/-- The first persist of an empty server crashes when the database file has arrived. The `SET` that the
next server acknowledges is gone after its crash. -/
theorem second_crash_forgets :
    ∃ crashed, FileOp.execAll ((persistWithWal .root (doPersist (fun _ => .fixed) fun _ => Contents.empty.store)
        fun _ => none).take 5) (fun _ => none) = some crashed ∧ ¬Survives .root crashed fun _ => Contents.empty.store := by
  obtain ⟨crashed, ran, files⟩ := crashed_files .root (doPersist (fun _ => .fixed) fun _ => Contents.empty.store)
    (fun _ => none) 5
  have journals : (filesOf .root crashed).Journals .root .dbFileNoExist := by
    rw [files]
    exact journals_state _ rfl
  refine ⟨crashed, ran, not_survives_forgets journals (by rw [files]; rfl) ?_ fun _ => rfl⟩
  exact holds_snapshot rfl (.inl rfl)

end Vanity.Persist
