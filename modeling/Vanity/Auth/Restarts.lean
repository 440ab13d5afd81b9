import Vanity.Auth.Logins
import Vanity.Library.Runs

/-!
# Logins and restarts

The four requests that change the logins, from any sessions and in any order, with crashes between them and
in the middle of them. After a crash the server is constructed again from what is left of its files.
-/

namespace Vanity.Auth

open Db (Str)
open Wal
open Request

/-- `default_auth_info`. -/
structure DefaultLogin where
  hash : Str
  sized : SizedStr hash

def DefaultLogin.info (default : DefaultLogin) : AuthInfo := ⟨default.hash, .admin⟩

/-- A session that has authenticated as a user has the data of a user. -/
structure LoginSession where
  info : SessionInfo
  user : info.auth = .user ∨ info.auth = .admin → ∃ data, info.data = .user data

inductive LoginRequest where
  | addUser (username password : Str)
  | editUser (username : Str) (level : ClientAuth)
  | delUser (username : Str)
  | changePassword (password : Str)

namespace LoginRequest

def operation : LoginRequest → OperationT
  | .addUser _ _ => .addUser
  | .editUser _ _ => .editUser
  | .delUser _ => .delUser
  | .changePassword _ => .changePassword

def handler : LoginRequest → Handler
  | .addUser username password => requestAddUser username password
  | .editUser username level => requestEditUser username level
  | .delUser username => requestDelUser username
  | .changePassword password => requestChangePassword password

/-- What the request makes of the logins, if it gets as far as to persist them. -/
def change (world : World) (s : Server) : LoginRequest → Option Logins
  | .addUser username password =>
    if username.length < minUsernameLength ∨ password.length < minPasswordLength ∨ username ∈ s.logins then none
    else (world.makeHash password).toOption.map fun hash => s.logins.insert username ⟨hash, .user⟩
  | .editUser username level =>
    if level = .user ∨ level = .admin then
      (s.logins.lookup username).map fun info => s.logins.insert username { info with auth := level }
    else none
  | .delUser username =>
    match s.session.data with
    | .user data => if username ∉ s.logins ∨ username = data.username then none else some (s.logins.erase username)
    | _ => none
  | .changePassword password =>
    match s.session.data with
    | .user data =>
      if password.length < minPasswordLength then none
      else (s.logins.lookup data.username).bind fun info =>
        (world.makeHash password).toOption.map fun hash => s.logins.insert data.username { info with hash }
    | _ => none

end LoginRequest

def acknowledged : Answer → Bool
  | .sent (.plain .ok _) => true
  | _ => false

/-- A request that is handled, and the order in which it would write the logins. -/
structure LoginCall where
  session : LoginSession
  request : LoginRequest
  world : World
  order : Order Str

namespace LoginCall

variable (call : LoginCall)

def before (server : Server) : Server := { server with session := call.session.info }

def permitted : Bool := isPermitted call.request.operation call.session.info.auth

def changes (server : Server) : Option Logins :=
  if call.permitted then call.request.change call.world (call.before server) else none

-- where `persist_logins` throws, the auth file has not been replaced
def ops (logins : Logins) : List (FileOp AuthFile) :=
  match call.world.persistLogins with
  | .ok () => persistOps call.order logins
  | .error _ => writeOps call.order logins

end LoginCall

/-- What a start has found, and what it was to find. -/
structure Restart where
  /-- The logins of the last change that was acknowledged. -/
  acked : Option Logins
  /-- The logins of the change that the crash has interrupted. -/
  inProgress : Option Logins
  found : Except Exception Logins

structure AuthState where
  server : Server
  disk : Disk AuthFile
  acked : Option Logins := none
  restarts : List Restart := []

inductive AuthEvent where
  | request (call : LoginCall)
  | crash (default : DefaultLogin) (junk : Nat → UInt8)
  /-- A crash after `k` steps on the files. -/
  | crashIn (call : LoginCall) (k : Nat) (default : DefaultLogin) (junk : Nat → UInt8)

namespace AuthState

variable (s : AuthState)

/-- The change that a start has found counts as acknowledged from then on, if there was one before. -/
def restart (default : DefaultLogin) (junk : Nat → UInt8) (inProgress : Option Logins) : AuthState :=
  let found := construct default.info junk s.disk
  let restarted := { s with restarts := s.restarts ++ [⟨s.acked, inProgress, found⟩] }
  match found with
  -- the constructor is `noexcept`
  | .error _ => restarted
  | .ok logins => { restarted with server := { s.server with logins }, acked := s.acked.map fun _ => logins }

def handled (call : LoginCall) (disk : Disk AuthFile) : AuthState :=
  let (answer, after) := call.request.handler call.world (call.before s.server)
  { s with server := after, disk, acked := if acknowledged answer then some after.logins else s.acked }

/-- No container of the program outgrows its `max_size()`. -/
def step : AuthEvent → Option AuthState
  | .request call =>
    if !call.permitted then some s
    else match call.changes s.server with
      | none => some (s.handled call s.disk)
      | some logins =>
        if SizedLogins logins then (FileOp.execAll (call.ops logins) s.disk).map (s.handled call) else none
  | .crash default junk => some (s.restart default junk none)
  | .crashIn call k default junk =>
    match call.changes s.server with
    | none => some (s.restart default junk none)
    | some logins =>
      if SizedLogins logins then (FileOp.execAll ((call.ops logins).take k) s.disk).map fun disk =>
        { s with disk }.restart default junk (some logins)
      else none

/-- A start without an auth file. -/
def start (server : Server) (default : DefaultLogin) : AuthState where
  server := { server with logins := (∅ : Logins).insert (ascii "vanity") default.info }
  disk _ := none

/-- Every start after a change that was acknowledged has found its logins, or those of the change that was in
progress. -/
def Survived : Prop :=
  ∀ restart ∈ s.restarts, ∀ logins, restart.acked = some logins →
    restart.found = .ok logins ∨ ∃ changed, restart.inProgress = some changed ∧ restart.found = .ok changed

end AuthState

/-! ### The handlers -/

/-- The response is no `OK` and the logins stay. -/
def Refuses (s : Server) (result : Answer × Server) : Prop :=
  acknowledged result.1 = false ∧ result.2.logins = s.logins

theorem refuses_error (text : Str) (world : World) (s : Server) : Refuses s (send (error text) world s) := ⟨rfl, rfl⟩

theorem refuses_thrown (what : Str) (s : Server) : Refuses s (.thrown what, s) := ⟨rfl, rfl⟩

/-- The response is an `OK` if the logins could be persisted. -/
def Persists (world : World) (logins : Logins) (result : Answer × Server) : Prop :=
  (acknowledged result.1 = true ↔ world.persistLogins = .ok ()) ∧ result.2.logins = logins

theorem persists_logins {world : World} {s t : Server} {next : Handler}
    (sends : acknowledged (next world t).1 = true ∧ (next world t).2.logins = t.logins) :
    Persists world t.logins (persistLogins t next world s) := by
  unfold persistLogins
  cases result : world.persistLogins with
  | error what => exact ⟨iff_of_false Bool.false_ne_true (by rw [result]; exact nofun), rfl⟩
  | ok _ => exact ⟨iff_of_true sends.1 result, sends.2⟩

/-- A request that does not persist the logins leaves them, and is not acknowledged. -/
theorem LoginRequest.refused {request : LoginRequest} {world : World} {s : Server} (unchanged : request.change world s = none) :
    Refuses s (request.handler world s) := by
  cases request with
  | addUser username password =>
    unfold change at unchanged
    dsimp only at unchanged
    change Refuses s (requestAddUser username password world s)
    unfold requestAddUser
    split
    · exact refuses_error _ world s
    · split
      · exact refuses_error _ world s
      · split
        · exact refuses_error _ world s
        · rename_i long enough new
          rw [if_neg (by simp [long, enough, new])] at unchanged
          split
          · exact refuses_thrown _ s
          · rename_i hash hashed
            rw [hashed] at unchanged
            cases unchanged
  | editUser username level =>
    unfold change at unchanged
    dsimp only at unchanged
    change Refuses s (requestEditUser username level world s)
    unfold requestEditUser
    split
    · exact refuses_error _ world s
    · rename_i info found
      split
      · rename_i valid
        rw [if_pos valid, found] at unchanged
        cases unchanged
      · exact refuses_error _ world s
  | delUser username =>
    unfold change at unchanged
    dsimp only at unchanged
    change Refuses s (requestDelUser username world s)
    unfold requestDelUser
    split
    · exact refuses_error _ world s
    · rename_i known
      unfold withUserData
      split
      · rename_i data user
        rw [user] at unchanged
        dsimp only at unchanged ⊢
        split
        · exact refuses_error _ world s
        · rename_i other
          rw [if_neg (by simp [known, other])] at unchanged
          cases unchanged
      · exact refuses_thrown _ s
  | changePassword password =>
    unfold change at unchanged
    dsimp only at unchanged
    change Refuses s (requestChangePassword password world s)
    unfold requestChangePassword
    split
    · exact refuses_error _ world s
    · rename_i enough
      unfold withUserData
      split
      · rename_i data user
        rw [user] at unchanged
        dsimp only at unchanged ⊢
        rw [if_neg enough] at unchanged
        split
        · exact refuses_error _ world s
        · rename_i info found
          rw [found] at unchanged
          split
          · exact refuses_thrown _ s
          · rename_i hash hashed
            rw [hashed] at unchanged
            cases unchanged
      · exact refuses_thrown _ s

/-- A request that persists the logins is acknowledged afterwards, unless that throws. -/
theorem LoginRequest.changed {request : LoginRequest} {world : World} {s : Server} {logins : Logins} {data : UserData}
    (user : s.session.data = .user data) (changes : request.change world s = some logins) :
    Persists world logins (request.handler world s) := by
  cases request with
  | addUser username password =>
    unfold change at changes
    dsimp only at changes
    split at changes
    · cases changes
    · rename_i valid
      obtain ⟨long, enough, new⟩ := not_or.mp valid |>.imp_right not_or.mp
      obtain ⟨hash, hashed, rfl⟩ := Option.map_eq_some_iff.mp changes
      change Persists world _ (requestAddUser username password world s)
      unfold requestAddUser
      rw [if_neg long, if_neg enough, if_neg new]
      cases result : world.makeHash password with
      | error what =>
        rw [result] at hashed
        cases hashed
      | ok other =>
        rw [result] at hashed
        cases hashed
        exact persists_logins ⟨rfl, rfl⟩
  | editUser username level =>
    unfold change at changes
    dsimp only at changes
    split at changes
    · rename_i valid
      obtain ⟨info, found, rfl⟩ := Option.map_eq_some_iff.mp changes
      change Persists world _ (requestEditUser username level world s)
      unfold requestEditUser
      rw [found]
      dsimp only
      rw [if_pos valid]
      refine persists_logins ?_
      unfold withUserData
      dsimp only
      rw [user]
      exact ⟨rfl, rfl⟩
    · cases changes
  | delUser username =>
    unfold change at changes
    rw [user] at changes
    dsimp only at changes
    split at changes
    · cases changes
    · rename_i valid
      obtain ⟨known, other⟩ := not_or.mp valid
      cases changes
      change Persists world _ (requestDelUser username world s)
      unfold requestDelUser withUserData
      rw [if_neg known, user]
      dsimp only
      rw [if_neg other]
      exact persists_logins ⟨rfl, rfl⟩
  | changePassword password =>
    unfold change at changes
    rw [user] at changes
    dsimp only at changes
    split at changes
    · cases changes
    · rename_i enough
      obtain ⟨info, found, changes⟩ := Option.bind_eq_some_iff.mp changes
      obtain ⟨hash, hashed, rfl⟩ := Option.map_eq_some_iff.mp changes
      change Persists world _ (requestChangePassword password world s)
      unfold requestChangePassword withUserData
      rw [if_neg enough, user]
      dsimp only
      rw [found]
      dsimp only
      cases result : world.makeHash password with
      | error what =>
        rw [result] at hashed
        cases hashed
      | ok other =>
        rw [result] at hashed
        cases hashed
        exact persists_logins ⟨rfl, rfl⟩

/-! ### Runs -/

namespace LoginCall

variable {call : LoginCall}

/-- Only sessions of users get as far as to a handler. -/
theorem user_of_permitted (permitted : call.permitted = true) : ∃ data, call.session.info.data = .user data := by
  apply call.session.user
  unfold LoginCall.permitted at permitted
  cases level : call.session.info.auth with
  | unknown =>
    rw [level] at permitted
    cases kind : call.request <;> rw [kind] at permitted <;> cases permitted
  | user => exact .inl rfl
  | peer =>
    rw [level] at permitted
    cases kind : call.request <;> rw [kind] at permitted <;> cases permitted
  | admin => exact .inr rfl

theorem permitted_of_changes {server : Server} {logins : Logins} (changes : call.changes server = some logins) :
    call.permitted = true ∧ call.request.change call.world (call.before server) = some logins := by
  unfold LoginCall.changes at changes
  split at changes
  · exact ⟨‹_›, changes⟩
  · cases changes

theorem ops_part (call : LoginCall) (logins : Logins) (k : Nat) (disk : Disk AuthFile) :
    ∃ after, FileOp.execAll ((call.ops logins).take k) disk = some after ∧
      (after .users = disk .users ∨ after .users = some (writeLogins call.order logins)) := by
  unfold LoginCall.ops
  split
  · exact persistOps_part call.order logins k disk
  · obtain ⟨after, part, same⟩ := writeOps_part call.order logins k disk
    exact ⟨after, part, .inl same⟩

end LoginCall

/-- The auth file holds the logins of the last change that was acknowledged. -/
structure Stored (disk : Disk AuthFile) (acked : Option Logins) : Prop where
  file : disk .users = none ∧ acked = none ∨
    ∃ order logins, SizedLogins logins ∧ disk .users = some (writeLogins order logins) ∧ ∀ last ∈ acked, last = logins

structure Inv (s : AuthState) : Prop where
  stored : Stored s.disk s.acked
  survived : s.Survived

variable {s t : AuthState}

theorem Stored.same {disk after : Disk AuthFile} {acked : Option Logins} (stored : Stored disk acked)
    (same : after .users = disk .users) : Stored after acked := by
  constructor
  rw [same]
  exact stored.file

theorem Stored.written {disk : Disk AuthFile} {order : Order Str} {logins : Logins} (sized : SizedLogins logins)
    (written : disk .users = some (writeLogins order logins)) : Stored disk (some logins) :=
  ⟨.inr ⟨order, logins, sized, written, fun _ same => (Option.some.inj same).symm⟩⟩

theorem Inv.restart {default : DefaultLogin} {junk : Nat → UInt8} {inProgress : Option Logins} {found : Logins}
    (before : s.Survived) (constructs : construct default.info junk s.disk = .ok found)
    (right : ∀ acked, s.acked = some acked → acked = found ∨ inProgress = some found)
    (stored : Stored s.disk (s.acked.map fun _ => found)) : Inv (s.restart default junk inProgress) := by
  unfold AuthState.restart
  dsimp only
  rw [constructs]
  refine ⟨stored, fun restart member logins acked => ?_⟩
  obtain old | new := List.mem_append.mp member
  · exact before restart old logins acked
  · rw [List.mem_singleton] at new
    subst new
    obtain rfl | changed := right logins acked
    · exact .inl rfl
    · exact .inr ⟨found, changed, rfl⟩

/-- A start finds what was stored. -/
theorem Inv.crash (inv : Inv s) (default : DefaultLogin) (junk : Nat → UInt8) (inProgress : Option Logins) :
    Inv (s.restart default junk inProgress) := by
  obtain ⟨absent, unacked⟩ | ⟨order, logins, sized, written, same⟩ := inv.stored.file
  · have constructs : construct default.info junk s.disk = .ok ((∅ : Logins).insert (ascii "vanity") default.info) := by
      unfold construct
      rw [absent]
    refine Inv.restart inv.survived constructs (fun acked last => ?_) ⟨.inl ⟨absent, ?_⟩⟩
    · rw [unacked] at last
      cases last
    · rw [unacked]
      rfl
  · refine Inv.restart inv.survived (construct_written default.info junk sized written)
      (fun acked last => .inl (same acked last)) ⟨.inr ⟨order, logins, sized, written, fun last member => ?_⟩⟩
    obtain ⟨_, _, rfl⟩ := Option.map_eq_some_iff.mp member
    rfl

/-- A start in the middle of a change finds what was stored before, or the change. -/
theorem Inv.crashIn (inv : Inv s) {disk : Disk AuthFile} {order : Order Str} {logins : Logins} (sized : SizedLogins logins)
    (left : disk .users = s.disk .users ∨ disk .users = some (writeLogins order logins)) (default : DefaultLogin)
    (junk : Nat → UInt8) : Inv ({ s with disk }.restart default junk (some logins)) := by
  obtain same | written := left
  · have kept : Inv { s with disk } := ⟨inv.stored.same same, inv.survived⟩
    exact kept.crash default junk (some logins)
  · refine Inv.restart inv.survived (construct_written default.info junk sized written) (fun _ _ => .inr rfl) ?_
    refine ⟨.inr ⟨order, logins, sized, written, fun last member => ?_⟩⟩
    obtain ⟨_, _, rfl⟩ := Option.map_eq_some_iff.mp member
    rfl

theorem handled_acked (call : LoginCall) (disk : Disk AuthFile) : (s.handled call disk).acked =
    if acknowledged (call.request.handler call.world (call.before s.server)).1 = true then
      some (call.request.handler call.world (call.before s.server)).2.logins
    else s.acked := rfl

/-- What is acknowledged has been stored. -/
theorem Inv.request (inv : Inv s) {call : LoginCall} {logins : Logins} (changes : call.changes s.server = some logins)
    (sized : SizedLogins logins) {disk : Disk AuthFile} (executed : FileOp.execAll (call.ops logins) s.disk = some disk) :
    Inv (s.handled call disk) := by
  obtain ⟨permitted, change⟩ := LoginCall.permitted_of_changes changes
  obtain ⟨data, user⟩ := LoginCall.user_of_permitted permitted
  obtain ⟨sent, same⟩ : Persists call.world logins (call.request.handler call.world (call.before s.server)) :=
    LoginRequest.changed user change
  refine ⟨?_, inv.survived⟩
  change Stored disk (s.handled call disk).acked
  rw [handled_acked]
  unfold LoginCall.ops at executed
  cases result : call.world.persistLogins with
  | error what =>
    rw [result] at executed sent
    obtain ⟨after, wrote, kept⟩ := writeOps_part call.order logins (writeOps call.order logins).length s.disk
    rw [List.take_length] at wrote
    rw [if_neg fun ok => by cases sent.mp ok]
    obtain rfl : after = disk := Option.some.inj (wrote.symm.trans executed)
    exact inv.stored.same kept
  | ok _ =>
    rw [result] at executed sent
    obtain ⟨after, all, written⟩ := persistOps_all call.order logins s.disk
    obtain rfl : after = disk := Option.some.inj (all.symm.trans executed)
    rw [if_pos (sent.mpr rfl), same]
    exact Stored.written sized written

theorem Inv.step {event : AuthEvent} (inv : Inv s) (taken : s.step event = some t) : Inv t := by
  cases event with
  | request call =>
    change (if (!call.permitted) = true then some s else _) = some t at taken
    split at taken
    · cases taken
      exact inv
    · cases changes : call.changes s.server with
      | none =>
        rw [changes] at taken
        cases taken
        rename_i permitted
        have unchanged : call.request.change call.world (call.before s.server) = none := by
          unfold LoginCall.changes at changes
          rwa [if_pos (by simpa using permitted)] at changes
        obtain ⟨unsent, _⟩ : Refuses _ _ := LoginRequest.refused unchanged
        refine ⟨?_, inv.survived⟩
        change Stored s.disk (s.handled call s.disk).acked
        rw [handled_acked, if_neg (by rw [unsent]; exact Bool.false_ne_true)]
        exact inv.stored
      | some logins =>
        rw [changes] at taken
        dsimp only at taken
        split at taken
        · obtain ⟨disk, executed, rfl⟩ := Option.map_eq_some_iff.mp taken
          exact inv.request changes ‹_› executed
        · cases taken
  | crash default junk =>
    cases taken
    exact inv.crash default junk none
  | crashIn call k default junk =>
    change (match call.changes s.server with | none => _ | some logins => _) = some t at taken
    cases changes : call.changes s.server with
    | none =>
      rw [changes] at taken
      cases taken
      exact inv.crash default junk none
    | some logins =>
      rw [changes] at taken
      dsimp only at taken
      split at taken
      · obtain ⟨disk, executed, rfl⟩ := Option.map_eq_some_iff.mp taken
        obtain ⟨after, part, left⟩ := LoginCall.ops_part call logins k s.disk
        obtain rfl : after = disk := Option.some.inj (part.symm.trans executed)
        exact inv.crashIn ‹_› left default junk
      · cases taken

/-- A crash, wherever it comes, is followed by a start. -/
theorem crashIn_starts (call : LoginCall) (k : Nat) (default : DefaultLogin) (junk : Nat → UInt8)
    (sized : ∀ logins, call.changes s.server = some logins → SizedLogins logins) :
    ∃ t, s.step (.crashIn call k default junk) = some t := by
  unfold AuthState.step
  dsimp only
  cases changes : call.changes s.server with
  | none => exact ⟨_, rfl⟩
  | some logins =>
    obtain ⟨after, part, _⟩ := LoginCall.ops_part call logins k s.disk
    dsimp only
    rw [if_pos (sized logins changes), part]
    exact ⟨_, rfl⟩

theorem logins_survive (server : Server) (default : DefaultLogin) (run : List AuthEvent) :
    EachState AuthState.step AuthState.Survived run (AuthState.start server default) :=
  eachState_of_always (fun _ _ _ inv taken => Inv.step inv taken) (fun _ inv => inv.survived)
    ⟨⟨.inl ⟨rfl, rfl⟩⟩, nofun⟩

end Vanity.Auth
