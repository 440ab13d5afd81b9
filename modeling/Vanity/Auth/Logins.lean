import Vanity.Library.Files
import Vanity.Request.Handlers
import Vanity.Wal.Snapshot

/-!
# The auth file

The serializers of `auth_server.cpp`, the constructor of `AuthServer` and `persist_logins`. The logins are
written to a file of their own, which then takes the place of the auth file.
-/

namespace Vanity.Auth

open Db (Str)
open Wal
open Request (AuthInfo ClientAuth ascii)

abbrev Logins := Table Str AuthInfo

/-! ### Writing and reading -/

/-- The underlying `int` of an enumerator. -/
def authCode : ClientAuth → UInt32
  | .unknown => 0
  | .user => 1
  | .peer => 2
  | .admin => 3

def writeAuth (auth : ClientAuth) : Bytes := writeU32 (authCode auth)

-- the source takes any other `int` as well
def authOfCode (code : UInt32) : ReadM ClientAuth :=
  match code with
  | 0 => return .unknown
  | 1 => return .user
  | 2 => return .peer
  | 3 => return .admin
  | _ => throw .undefinedBehaviour

def readAuth : ReadM ClientAuth := do authOfCode (← readU32)

def writeInfo (info : AuthInfo) : Bytes := writeStr info.hash ++ writeAuth info.auth

def readInfo : ReadM AuthInfo := do return ⟨← readStr, ← readAuth⟩

def writeLogin (entry : Str × AuthInfo) : Bytes := writeStr entry.1 ++ writeInfo entry.2

def readLogin : ReadM (Str × AuthInfo) := do return (← readStr, ← readInfo)

def writeLogins (order : Order Str) (logins : Logins) : Bytes := writeTable order writeLogin logins

-- the size is read as a `streamsize` and compared as a `size_t`
def readLogins : ReadM Logins := readTable readLogin

/-- The logins as the program can hold them. -/
structure SizedLogins (logins : Logins) : Prop where
  size : logins.keys.card ≤ maxSize
  entries : ∀ username ∈ logins.keys, SizedStr username ∧ ∀ info ∈ logins.lookup username, SizedStr info.hash

instance (logins : Logins) : Decidable (SizedLogins logins) :=
  decidable_of_iff (logins.keys.card ≤ maxSize ∧
      ∀ username ∈ logins.keys, SizedStr username ∧ ∀ info ∈ logins.lookup username, SizedStr info.hash)
    ⟨fun both => ⟨both.1, both.2⟩, fun sized => ⟨sized.size, sized.entries⟩⟩

theorem sticky_authOfCode (code : UInt32) : Sticky (authOfCode code) := by
  unfold authOfCode
  split
  · exact sticky_pure _
  · exact sticky_pure _
  · exact sticky_pure _
  · exact sticky_pure _
  · exact sticky_throw _

theorem sticky_auth : Sticky readAuth := sticky_bind (frames_u32 0).sticky sticky_authOfCode

theorem frames_auth (auth : ClientAuth) : Frames readAuth (writeAuth auth) auth := by
  have code : Frames (authOfCode (authCode auth)) [] auth := by
    cases auth with
    | unknown => exact frames_pure _
    | user => exact frames_pure _
    | peer => exact frames_pure _
    | admin => exact frames_pure _
  have both := frames_bind (frames_u32 (authCode auth)) code sticky_authOfCode
  rwa [List.append_nil] at both

theorem sticky_info : Sticky readInfo := sticky_two AuthInfo.mk sticky_str sticky_auth

theorem frames_info {info : AuthInfo} (sized : SizedStr info.hash) : Frames readInfo (writeInfo info) info :=
  frames_two AuthInfo.mk (frames_str sized) (frames_auth info.auth)

theorem sticky_login : Sticky readLogin := sticky_two Prod.mk sticky_str sticky_info

theorem frames_logins (order : Order Str) {logins : Logins} (sized : SizedLogins logins) :
    Frames readLogins (writeLogins order logins) logins := by
  refine frames_table sized.size sticky_login fun username info found => ?_
  obtain ⟨name, hash⟩ := sized.entries username (Finmap.mem_keys.mpr (Table.mem_of_lookup found))
  exact frames_two Prod.mk (frames_str name) (frames_info (hash info found))

/-! ### Files -/

/-- The auth file and the file that is written before. -/
inductive AuthFile where
  | users
  | tmp
  deriving DecidableEq

/-- The constructor of `AuthServer`: without a file there is the default login. -/
def construct (default : AuthInfo) (junk : Nat → UInt8) (disk : Disk AuthFile) : Except Exception Logins :=
  match disk .users with
  | none => .ok ((∅ : Logins).insert (ascii "vanity") default)
  | some bytes => (readLogins ⟨bytes, false, junk⟩).map Prod.fst

/-- What the stream writes, which reaches the disk in parts. -/
def writeOps (order : Order Str) (logins : Logins) : List (FileOp AuthFile) :=
  .create .tmp :: (writeLogins order logins).map fun byte => .append .tmp [byte]

/-- `persist_logins`. -/
def persistOps (order : Order Str) (logins : Logins) : List (FileOp AuthFile) :=
  writeOps order logins ++ [.rename .tmp .users]

theorem construct_written (default : AuthInfo) (junk : Nat → UInt8) {disk : Disk AuthFile} {order : Order Str} {logins : Logins}
    (sized : SizedLogins logins) (written : disk .users = some (writeLogins order logins)) :
    construct default junk disk = .ok logins := by
  have read := (frames_logins order sized).reads [] junk
  rw [List.append_nil] at read
  unfold construct
  rw [written]
  dsimp only
  rw [read]
  rfl

theorem appends (bytes : Bytes) (disk : Disk AuthFile) :
    FileOp.execAll (bytes.map fun byte => .append .tmp [byte]) (Function.update disk .tmp (some [])) =
      some (Function.update disk .tmp (some bytes)) := by
  have grows : ∀ rest front : Bytes, FileOp.execAll (rest.map fun byte => .append .tmp [byte])
      (Function.update disk .tmp (some front)) = some (Function.update disk .tmp (some (front ++ rest))) := by
    intro rest
    induction rest with
    | nil =>
      intro front
      rw [List.append_nil]
      rfl
    | cons byte rest ih =>
      intro front
      rw [List.map_cons, FileOp.execAll, FileOp.exec, Function.update_self, Function.update_idem]
      have next := ih (front ++ [byte])
      rw [List.append_assoc] at next
      exact next
  exact grows bytes []

/-- As long as the new file is only written, the auth file stays. -/
theorem writeOps_part (order : Order Str) (logins : Logins) (k : Nat) (disk : Disk AuthFile) :
    ∃ after, FileOp.execAll ((writeOps order logins).take k) disk = some after ∧ after .users = disk .users := by
  cases k with
  | zero => exact ⟨disk, rfl, rfl⟩
  | succ k =>
    refine ⟨Function.update disk .tmp (some ((writeLogins order logins).take k)), ?_, rfl⟩
    unfold writeOps
    rw [List.take_succ_cons, FileOp.execAll, FileOp.exec, Option.bind_some, ← List.map_take]
    exact appends _ disk

theorem persistOps_all (order : Order Str) (logins : Logins) (disk : Disk AuthFile) :
    ∃ after, FileOp.execAll (persistOps order logins) disk = some after ∧ after .users = some (writeLogins order logins) := by
  let written : Disk AuthFile := Function.update disk .tmp (some (writeLogins order logins))
  have whole : FileOp.execAll (writeOps order logins) disk = some written := by
    unfold writeOps
    rw [FileOp.execAll, FileOp.exec, Option.bind_some]
    exact appends _ disk
  refine ⟨Function.update (Function.update written .tmp none) .users (some (writeLogins order logins)), ?_, rfl⟩
  unfold persistOps
  rw [FileOp.execAll_append, whole]
  rfl

/-- A crash leaves the old auth file, or the new one whole. -/
theorem persistOps_part (order : Order Str) (logins : Logins) (k : Nat) (disk : Disk AuthFile) :
    ∃ after, FileOp.execAll ((persistOps order logins).take k) disk = some after ∧
      (after .users = disk .users ∨ after .users = some (writeLogins order logins)) := by
  by_cases early : k ≤ (writeOps order logins).length
  · obtain ⟨after, part, same⟩ := writeOps_part order logins k disk
    unfold persistOps
    rw [List.take_append_of_le_length early]
    exact ⟨after, part, .inl same⟩
  · have late : (persistOps order logins).length ≤ k := by
      unfold persistOps
      rw [List.length_append, List.length_singleton]
      omega
    obtain ⟨after, all, written⟩ := persistOps_all order logins disk
    rw [List.take_of_length_le late]
    exact ⟨after, all, .inr written⟩

end Vanity.Auth
