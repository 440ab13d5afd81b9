import Vanity.Wal.Entry

/-!
# Reading the log back

The reader's table of layouts agrees with the writer's, so `do_recover` replays a log record by
record. A log that breaks off inside a record is another matter: the reader takes what is left for
an entry, applies it, and then misses the newline.
-/

namespace Vanity.Wal
open Db

/-! ### One entry -/

theorem sticky_database (index : UInt32) : Sticky (readDatabase index) := by
  unfold readDatabase
  split
  · exact sticky_pure _
  · exact sticky_throw _

theorem sticky_index : Sticky readIndex := sticky_bind (frames_u32 0).sticky sticky_database

theorem readDatabase_index (i : Index) : readDatabase (UInt32.ofNat i.val) = pure i := by
  have bound : i.val < 16 := i.isLt
  have value : (UInt32.ofNat i.val).toNat = i.val := UInt32.toNat_ofNat_of_lt' (Nat.lt_trans bound (by decide))
  unfold readDatabase
  rw [dif_pos (by rw [value]; exact i.isLt)]
  congr 1
  exact Fin.ext value

theorem frames_database (i : Index) : Frames (readDatabase (UInt32.ofNat i.val)) [] i := by
  rw [readDatabase_index]
  exact frames_pure i

theorem frames_index (i : Index) : Frames readIndex (writeIndex i) i := by
  have both := frames_bind (frames_u32 (UInt32.ofNat i.val)) (frames_database i) sticky_database
  rwa [List.append_nil] at both

theorem sticky_args (op : DbOpT) : Sticky (readArgs op) := by
  have key := sticky_str
  have word := sticky_i64
  have count := sticky_u64
  cases op with
  | begin | commit | discard | reset | clearAllExpiry => exact sticky_pure _
  | del | clearExpiry => exact sticky_map _ key
  | copyTo | moveTo | strSet => exact sticky_two _ key key
  | copyToDb | moveToDb => exact sticky_two _ key sticky_index
  | setExpiry | intSet | incrInt | listPopLeft | listPopRight => exact sticky_two _ key word
  | floatSet | incrFloat | setRemove => exact sticky_two _ key count
  | listSet => exact sticky_three _ key word key
  | listPushLeft | listPushRight => exact sticky_two _ key sticky_list
  | listTrim => exact sticky_three _ key word word
  | listRemove => exact sticky_three _ key key word
  | setAdd | setDiscard => exact sticky_two _ key sticky_set
  | setMove | setDifferenceInto => exact sticky_three _ key key key
  | setUnionInto | setIntersectionInto | hashRemove => exact sticky_two _ key sticky_vector
  | hashSet | hashUpdate => exact sticky_two _ key sticky_hash
  | _ => exact sticky_throw _

theorem frames_args (order : Order Str) {op : Op} (logged : op.kind.shouldWal = true) (sized : SizedOp op) :
    Frames (readArgs op.kind) (args order op) op := by
  cases op with
  | begin | commit | discard | reset | clearAllExpiry => exact frames_pure _
  | del key | clearExpiry key => exact frames_map _ (frames_str sized)
  | copyTo | moveTo | strSet => exact frames_two _ (frames_str sized.1) (frames_str sized.2)
  | copyToDb | moveToDb => exact frames_two _ (frames_str sized) (frames_index _)
  | setExpiry | intSet | incrInt | listPopLeft | listPopRight =>
    exact frames_two _ (frames_str sized) (frames_i64 _)
  | floatSet | incrFloat | setRemove => exact frames_two _ (frames_str sized) (frames_u64 _)
  | listSet => exact frames_three _ (frames_str sized.1) (frames_i64 _) (frames_str sized.2)
  | listPushLeft | listPushRight => exact frames_two _ (frames_str sized.1) (frames_list sized.2)
  | listTrim => exact frames_three _ (frames_str sized) (frames_i64 _) (frames_i64 _)
  | listRemove => exact frames_three _ (frames_str sized.1) (frames_str sized.2) (frames_i64 _)
  | setAdd | setDiscard => exact frames_two _ (frames_str sized.1) (frames_set order sized.2)
  | setMove | setDifferenceInto =>
    exact frames_three _ (frames_str sized.1) (frames_str sized.2.1) (frames_str sized.2.2)
  | setUnionInto | setIntersectionInto | hashRemove =>
    exact frames_two _ (frames_str sized.1) (frames_vector sized.2)
  | hashSet | hashUpdate => exact frames_two _ (frames_str sized.1) (frames_hash order sized.2)
  | _ => cases logged

theorem sticky_op (code : UInt8) : Sticky (readOp code) := by
  unfold readOp
  split
  · exact sticky_args _
  · exact sticky_throw _

theorem sticky_dbOp_body (index : UInt32) (trn : UInt64) (code : UInt8) :
    Sticky (do
      let db ← readDatabase index
      return Entry.dbOp db trn (← readOp code)) :=
  sticky_bind (sticky_database index) fun db => sticky_map (Entry.dbOp db trn) (sticky_op code)

theorem sticky_dbOp (index : UInt32) : Sticky (readDbOp index) :=
  sticky_bind sticky_u64 fun trn => sticky_bind (frames_u8 0).sticky fun code => sticky_dbOp_body index trn code

theorem sticky_expire (index : UInt32) : Sticky (readExpire index) :=
  sticky_bind sticky_str fun key => sticky_map (Entry.expire · key) (sticky_database index)

theorem frames_dbOp (order : Order Str) (i : Index) (trn : UInt64) {op : Op}
    (logged : op.kind.shouldWal = true) (sized : SizedOp op) :
    Frames (readDbOp (UInt32.ofNat i.val)) (writeU64 trn ++ (writeU8 op.kind.code ++ args order op))
      (.dbOp i trn op) := by
  have read : Frames (readOp op.kind.code) (args order op) op := by
    unfold readOp
    rw [DbOpT.ofCode_code]
    exact frames_args order logged sized
  have body := frames_bind (frames_database i) (frames_map (Entry.dbOp i trn) read) fun db =>
    sticky_map (Entry.dbOp db trn) (sticky_op op.kind.code)
  refine frames_bind (frames_u64 trn) (frames_bind (frames_u8 op.kind.code) body fun code => ?_) fun trn => ?_
  · exact sticky_dbOp_body _ trn code
  · exact sticky_bind (frames_u8 0).sticky fun code => sticky_dbOp_body _ trn code

theorem frames_expire (i : Index) {key : Str} (sized : SizedStr key) :
    Frames (readExpire (UInt32.ofNat i.val)) (writeStr key) (.expire i key) := by
  have both := frames_bind (frames_str sized) (frames_map (Entry.expire · key) (frames_database i)) fun key =>
    sticky_map (Entry.expire · key) (sticky_database _)
  rwa [List.append_nil] at both

theorem sticky_kind (kind : UInt8) (index : UInt32) :
    Sticky (if kind = 0 then readDbOp index
      else if kind = 1 then readExpire index
      else throw (.walError "Bad wal_entry_t") : ReadM Entry) :=
  sticky_ite (sticky_dbOp index) (sticky_ite (sticky_expire index) (sticky_throw _))

theorem frames_entry (order : Order Str) {entry : Entry} (logged : entry.logged = true)
    (sized : SizedEntry entry) : Frames readEntry (entryBytes order entry) entry := by
  have header : ∀ kind : UInt8, Sticky (do
      let db ← readU32
      if kind = 0 then readDbOp db
      else if kind = 1 then readExpire db
      else throw (.walError "Bad wal_entry_t") : ReadM Entry) :=
    fun kind => sticky_bind (frames_u32 0).sticky (sticky_kind kind)
  cases entry with
  | dbOp i trn op =>
    exact frames_bind (frames_u8 0) (frames_bind (frames_u32 _) (frames_dbOp order i trn logged sized)
      (sticky_kind 0)) header
  | expire i key =>
    exact frames_bind (frames_u8 1) (frames_bind (frames_u32 _) (frames_expire i sized) (sticky_kind 1)) header

theorem Record.frames (record : Record) : Frames readEntry (entryBytes record.order record.entry) record.entry :=
  frames_entry record.order record.logged record.sized

theorem Record.read (record : Record) (rest : Bytes) (junk : Nat → UInt8) :
    readEntry ⟨record.bytes ++ rest, false, junk⟩ = .ok (record.entry, ⟨newline :: rest, false, junk⟩) := by
  have read := record.frames.reads (newline :: rest) junk
  rwa [Record.bytes, wal, List.append_assoc, List.singleton_append]

/-! ### Whole records -/

def log (records : List Record) : Bytes := records.flatMap Record.bytes

def outcome : Option Databases → Except Exception Databases
  | none => .error .undefinedBehaviour
  | some dbs => .ok dbs

theorem peek_record (record : Record) (rest : Bytes) (junk : Nat → UInt8) :
    ∃ byte, Stream.peek ⟨record.bytes ++ rest, false, junk⟩ = some byte := by
  rcases record with ⟨entry, order, logged, sized⟩
  cases entry
  · exact ⟨0, rfl⟩
  · exact ⟨1, rfl⟩

theorem recoverLoop_some {s : Stream} {byte : UInt8} (peeked : s.peek = some byte) (fuel : Nat) (envs : Nat → Env)
    (dbs : Databases) :
    recoverLoop (fuel + 1) envs s dbs = (do
      let (entry, s) ← readEntry s
      match redo (envs 0) dbs entry with
      | none => throw .undefinedBehaviour
      | some dbs =>
        let (next, s) ← getByte s
        if next = some newline then recoverLoop fuel (fun n => envs (n + 1)) s dbs
        else throw noNewline) := by
  rw [recoverLoop]
  split
  · rename_i missing
    rw [peeked] at missing
    cases missing
  · rfl

theorem recoverLoop_record (record : Record) (fuel : Nat) (envs : Nat → Env) (rest : Bytes)
    (junk : Nat → UInt8) (dbs : Databases) :
    recoverLoop (fuel + 1) envs ⟨record.bytes ++ rest, false, junk⟩ dbs =
      match redo (envs 0) dbs record.entry with
      | none => .error .undefinedBehaviour
      | some dbs => recoverLoop fuel (fun n => envs (n + 1)) ⟨rest, false, junk⟩ dbs := by
  obtain ⟨byte, peeked⟩ := peek_record record rest junk
  rw [recoverLoop_some peeked, record.read]
  simp only [bind, Except.bind]
  cases redo (envs 0) dbs record.entry with
  | none => rfl
  | some after => rfl

theorem recoverLoop_log (records : List Record) (fuel : Nat) (envs : Nat → Env) (tail : Bytes)
    (junk : Nat → UInt8) (dbs : Databases) :
    recoverLoop (fuel + records.length) envs ⟨log records ++ tail, false, junk⟩ dbs =
      match replay envs (records.map Record.entry) dbs with
      | none => .error .undefinedBehaviour
      | some dbs => recoverLoop fuel (fun n => envs (n + records.length)) ⟨tail, false, junk⟩ dbs := by
  induction records generalizing envs dbs with
  | nil => rfl
  | cons record rest ih =>
    have split : log (record :: rest) ++ tail = record.bytes ++ (log rest ++ tail) := by
      rw [log, log, List.flatMap_cons, List.append_assoc]
    rw [split, List.length_cons, ← Nat.add_assoc, recoverLoop_record]
    cases step : redo (envs 0) dbs record.entry with
    | none => simp [replay, step]
    | some after =>
      simp only [replay, List.map_cons, step, Option.bind_eq_bind, Option.bind_some, ih]
      simp only [Nat.add_assoc]

theorem records_length (records : List Record) : records.length ≤ (log records).length := by
  induction records with
  | nil => exact Nat.zero_le _
  | cons record rest ih =>
    have bytes : 0 < record.bytes.length := by simp [Record.bytes, wal]
    rw [log, List.flatMap_cons, List.length_append, List.length_cons]
    unfold log at ih
    omega

theorem doRecover_append (records : List Record) (envs : Nat → Env) (tail : Bytes) (junk : Nat → UInt8)
    (dbs : Databases) :
    ∃ fuel, doRecover envs junk (log records ++ tail) dbs =
      match replay envs (records.map Record.entry) dbs with
      | none => .error .undefinedBehaviour
      | some dbs => recoverLoop (fuel + 1) (fun n => envs (n + records.length)) ⟨tail, false, junk⟩ dbs := by
  have enough := records_length records
  refine ⟨(log records).length - records.length + tail.length, ?_⟩
  rw [← recoverLoop_log, doRecover, List.length_append]
  congr 1
  omega

theorem doRecover_replay (records : List Record) (envs : Nat → Env) (junk : Nat → UInt8) (dbs : Databases) :
    doRecover envs junk (log records) dbs = outcome (replay envs (records.map Record.entry) dbs) := by
  obtain ⟨fuel, run⟩ := doRecover_append records envs [] junk dbs
  rw [List.append_nil] at run
  rw [run]
  cases replay envs (records.map Record.entry) dbs with
  | none => rfl
  | some after => rfl

/-- Every record is read back as the entry it was written for, up to its newline, and a log is
replayed record by record. -/
theorem log_read_back :
    (∀ (record : Record) (rest : Bytes) (junk : Nat → UInt8),
      readEntry ⟨record.bytes ++ rest, false, junk⟩ = .ok (record.entry, ⟨newline :: rest, false, junk⟩)) ∧
    ∀ (records : List Record) (envs : Nat → Env) (junk : Nat → UInt8) (dbs : Databases),
      doRecover envs junk (log records) dbs = outcome (replay envs (records.map Record.entry) dbs) :=
  ⟨Record.read, doRecover_replay⟩

/-! ### A torn tail -/

def completeRecords : List Record → Bytes → List Record
  | [], _ => []
  | record :: rest, part =>
    if record.bytes <+: part then record :: completeRecords rest (part.drop record.bytes.length) else []

theorem prefix_split {records : List Record} {part : Bytes} (cut : part <+: log records) :
    ∃ tail, part = log (completeRecords records part) ++ tail ∧
      (tail ≠ [] → ∃ record : Record, tail <+: record.bytes ∧ tail ≠ record.bytes) := by
  induction records generalizing part with
  | nil =>
    have none : part = [] := List.prefix_nil.mp cut
    exact ⟨[], by rw [none]; rfl, fun nonempty => (nonempty rfl).elim⟩
  | cons record rest ih =>
    rw [log, List.flatMap_cons] at cut
    by_cases whole : record.bytes <+: part
    · obtain ⟨others, rfl⟩ := whole
      have left : others <+: log rest := (List.prefix_append_right_inj _).mp cut
      obtain ⟨tail, split, torn⟩ := ih left
      refine ⟨tail, ?_, torn⟩
      rw [completeRecords, if_pos (List.prefix_append _ _), List.drop_left, log, List.flatMap_cons,
        List.append_assoc, ← log, ← split]
    · refine ⟨part, ?_, fun _ => ⟨record, ?_, ?_⟩⟩
      · rw [completeRecords, if_neg whole]
        rfl
      · rcases List.prefix_or_prefix_of_prefix cut (List.prefix_append record.bytes (log rest)) with short | long
        · exact short
        · exact (whole long).elim
      · rintro rfl
        exact whole List.prefix_rfl

theorem completeRecords_log (records : List Record) (n : Nat) :
    completeRecords records (log (records.take n)) = records.take n := by
  induction records generalizing n with
  | nil => simp [completeRecords]
  | cons record rest ih =>
    cases n with
    | zero =>
      have short : ¬record.bytes <+: [] := by simp [Record.bytes, wal]
      rw [List.take_zero, completeRecords, if_neg (by simpa [log] using short)]
    | succ n =>
      rw [List.take_succ_cons, completeRecords, log, List.flatMap_cons, if_pos (List.prefix_append _ _),
        List.drop_left, ← log, ih]

theorem completeRecords_prefix (records : List Record) (part : Bytes) :
    completeRecords records part <+: records := by
  induction records generalizing part with
  | nil => exact List.prefix_rfl
  | cons record rest ih =>
    unfold completeRecords
    split
    · exact (List.prefix_cons_inj record).mpr (ih _)
    · exact List.nil_prefix

theorem getByte_failed {s : Stream} (failed : s.failed = true) :
    (getByte s : Except Exception _) = .ok (none, s.fail) := by
  simp [getByte, Stream.peek, failed]

/-- A record that breaks off ends the recovery with an exception, wherever the cut falls. -/
theorem recoverLoop_torn {record : Record} {tail : Bytes} (nonempty : tail ≠ []) (cut : tail <+: record.bytes)
    (proper : tail ≠ record.bytes) (fuel : Nat) (envs : Nat → Env) (junk : Nat → UInt8) (dbs after : Databases) :
    recoverLoop (fuel + 1) envs ⟨tail, false, junk⟩ dbs ≠ .ok after := by
  obtain ⟨byte, others, rfl⟩ := List.exists_cons_of_ne_nil nonempty
  -- the reader either throws, or it returns an entry with nothing left behind it
  have ending : ∀ entry s, readEntry ⟨byte :: others, false, junk⟩ = .ok (entry, s) →
      s.failed = true ∨ s.rest = [] := by
    intro entry s read
    by_cases whole : byte :: others = entryBytes record.order record.entry
    · have exact := record.frames.reads [] junk
      rw [List.append_nil, ← whole, read] at exact
      obtain ⟨-, rfl⟩ := Prod.mk.inj (Except.ok.inj exact)
      exact .inr rfl
    · have within : byte :: others <+: entryBytes record.order record.entry :=
        (List.prefix_concat_iff.mp cut).resolve_left proper
      have broken := record.frames.tears _ junk within whole
      rw [read] at broken
      exact .inl broken
  intro recovered
  have peeked : Stream.peek ⟨byte :: others, false, junk⟩ = some byte := rfl
  rw [recoverLoop_some peeked] at recovered
  cases read : readEntry ⟨byte :: others, false, junk⟩ with
  | error e =>
    rw [read] at recovered
    cases recovered
  | ok pair =>
    obtain ⟨entry, s⟩ := pair
    have missing : (getByte s : Except Exception _) = .ok (none, s.fail) := by
      rcases ending entry s read with failed | empty
      · exact getByte_failed failed
      · simp [getByte, Stream.peek, empty]
    rw [read] at recovered
    simp only [bind, Except.bind] at recovered
    cases step : redo (envs 0) dbs entry with
    | none =>
      rw [step] at recovered
      cases recovered
    | some applied =>
      rw [step] at recovered
      simp only [missing] at recovered
      cases recovered

/-- Recovery from a part of the log restores what its complete records say exactly when the part ends
behind a record. -/
theorem doRecover_torn_iff {records : List Record} {part : Bytes} (cut : part <+: log records)
    (envs : Nat → Env) (junk : Nat → UInt8) (dbs : Databases) {state : Databases}
    (complete : replay envs ((completeRecords records part).map Record.entry) dbs = some state) :
    doRecover envs junk part dbs = .ok state ↔ ∃ n, part = log (records.take n) := by
  constructor
  · intro recovered
    obtain ⟨tail, split, torn⟩ := prefix_split cut
    by_cases empty : tail = []
    · have start := completeRecords_prefix records part
      rw [empty, List.append_nil] at split
      exact ⟨_, split.trans (congrArg log (List.prefix_iff_eq_take.mp start))⟩
    · obtain ⟨record, within, proper⟩ := torn empty
      obtain ⟨fuel, run⟩ := doRecover_append (completeRecords records part) envs tail junk dbs
      rw [← split, complete] at run
      rw [run] at recovered
      exact (recoverLoop_torn empty within proper fuel _ junk state state recovered).elim
  · rintro ⟨n, rfl⟩
    rw [completeRecords_log] at complete
    rw [doRecover_replay, complete]
    rfl

noncomputable def resetRecord : Record where
  entry := .dbOp 0 4 .reset
  order := .startingWith []
  logged := rfl
  sized := trivial

theorem resetRecord_bytes : resetRecord.bytes = [0, 0, 0, 0, 0, 4, 0, 0, 0, 0, 0, 0, 0, 3, 10] := by
  decide +kernel

theorem doRecover_whole_reset :
    replay (fun _ => .frozen 0) ((completeRecords [resetRecord] resetRecord.bytes).map Record.entry) (fun _ => {}) =
        some (fun _ => {}) ∧
      doRecover (fun _ => .frozen 0) (fun _ => 0) resetRecord.bytes (fun _ => {}) = .ok fun _ => {} := by
  have whole : resetRecord.bytes = log ([resetRecord].take 1) := by simp [log]
  have complete : completeRecords [resetRecord] resetRecord.bytes = [resetRecord] := by
    rw [whole, completeRecords_log]
    rfl
  have replayed : replay (fun _ => .frozen 0)
      ((completeRecords [resetRecord] resetRecord.bytes).map Record.entry) (fun _ => {}) =
        some (fun _ => {}) := by
    rw [complete]
    simp [replay, redo, resetRecord, exec, Op.action, Operation.run, Operation.map, Db.reset, Database.eraseEach]
  exact ⟨replayed, (doRecover_torn_iff (by rw [whole]; exact List.prefix_rfl) _ _ _ replayed).mpr ⟨1, whole⟩⟩

/-- Without its newline the record is applied, and then the recovery throws. -/
theorem doRecover_torn_reset :
    ([0, 0, 0, 0, 0, 4, 0, 0, 0, 0, 0, 0, 0, 3] : Bytes) <+: log [resetRecord] ∧
      completeRecords [resetRecord] [0, 0, 0, 0, 0, 4, 0, 0, 0, 0, 0, 0, 0, 3] = [] ∧
      doRecover (fun _ => .frozen 0) (fun _ => 0) [0, 0, 0, 0, 0, 4, 0, 0, 0, 0, 0, 0, 0, 3] (fun _ => {}) =
        .error noNewline := by
  refine ⟨?_, ?_, rfl⟩
  · rw [log, List.flatMap_cons, resetRecord_bytes]
    decide
  · rw [completeRecords, resetRecord_bytes, if_neg (by decide)]

end Vanity.Wal
