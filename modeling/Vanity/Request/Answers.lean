import Vanity.Request.Readings

/-!
# What the handlers answer

A handler sends a response of its own, never a `BAD_REQUEST` and never an aggregate, and of all the
handlers only those of `AUTH` and `PEER_AUTH` change the authentication level of the session.
-/

namespace Vanity.Request

open Db (Str)

/-- A response that a handler composes. -/
def Response.Direct : Response → Prop
  | .plain status _ => status ≠ .badRequest
  | .reply .. => True
  | .later | .agg .. => False

def Answer.Proper : Answer → Prop
  | .sent response => response.Direct
  | .silent => False
  | .later | .thrown _ => True

/-- The handler answers and leaves the authentication level alone. -/
def Handler.Orderly (handler : Handler) : Prop :=
  ∀ world s, (handler world s).1.Proper ∧ (handler world s).2.session.auth = s.session.auth

theorem send_orderly {response : Response} (direct : response.Direct) : Handler.Orderly (send response) :=
  fun _ _ => ⟨direct, rfl⟩

theorem throws_orderly (what : String) : Handler.Orderly (throws what) := fun _ _ => ⟨trivial, rfl⟩

@[simp] theorem ok_direct (value : Value) : (ok value).Direct := by simp [ok, Response.Direct]
@[simp] theorem okEmpty_direct : okEmpty.Direct := by simp [okEmpty, Response.Direct]
@[simp] theorem null_direct : null.Direct := by simp [null, Response.Direct]
@[simp] theorem error_direct (text : Str) : (error text).Direct := by simp [error, Response.Direct]
@[simp] theorem badType_direct (text : Str) : (badType text).Direct := by simp [badType, Response.Direct]
@[simp] theorem pong_direct : pong.Direct := by simp [pong, Response.Direct]

theorem withUserData_orderly {next : UserData → Handler} (orderly : ∀ data, (next data).Orderly) :
    Handler.Orderly (withUserData next) := by
  intro world s
  unfold withUserData
  split
  · exact orderly _ world s
  · exact throws_orderly _ world s

theorem persistLogins_orderly {s t : Server} {world : World} {next : Handler} (orderly : next.Orderly)
    (same : t.session.auth = s.session.auth) :
    (persistLogins t next world s).1.Proper ∧ (persistLogins t next world s).2.session.auth = s.session.auth := by
  unfold persistLogins
  split
  · exact ⟨trivial, same⟩
  · exact ⟨(orderly world t).1, (orderly world t).2.trans same⟩

/-! ### Databases -/

theorem listError_direct (kind : Db.ListErrorKind) : (listError kind).Direct := by
  cases kind <;> simp [listError]

theorem hashError_direct (kind : Db.HashError) : (hashError kind).Direct := by
  cases kind <;> simp [hashError]

theorem handleResult_direct {α : Type} {wrong : Response} (direct : wrong.Direct) (value : α → Value)
    (result : Option α) : (handleResult wrong value result).Direct := by
  cases result with
  | none => exact direct
  | some result => exact ok_direct _

theorem handleExcept_direct {ε α : Type} {wrong : ε → Response} (direct : ∀ kind, (wrong kind).Direct)
    (value : α → Value) (result : Except ε α) : (handleExcept wrong value result).Direct := by
  cases result with
  | error kind => exact direct kind
  | ok result => exact ok_direct _

theorem respond_direct (world : World) (wrong : String) (reply : Db.Reply) : (respond world wrong reply).Direct := by
  have tuple : ∀ values, (Response.plain .ok (.tuple values)).Direct := fun _ => by simp [Response.Direct]
  cases reply with
  | done => exact okEmpty_direct
  | flag found => cases found <;> simp [respond]
  | value value => cases value <;> simp [respond]
  | values values => exact tuple _
  | typeIndex index => cases index <;> simp [respond, Response.Direct, null]
  | keys keys =>
    simp only [respond]
    split <;> simp
  | time time => cases time <;> simp [respond]
  | int | float | length | set | setFlag => exact handleResult_direct (badType_direct _) _ _
  | listSize | listElement | list => exact handleExcept_direct listError_direct _ _
  | hash | hashElement | hashFlag | hashSize | hashFields | hashElements =>
    exact handleExcept_direct hashError_direct _ _
  | hashMany result =>
    cases result with
    | ok values => exact tuple _
    | error kind => exact hashError_direct kind

theorem database_orderly (op : Db.Op) (wrong : String) : Handler.Orderly (database op wrong) :=
  withUserData_orderly fun _ world _ => ⟨respond_direct world wrong _, rfl⟩

theorem validateDbIndex_orderly {index : Int64} {next : Db.Index → Handler} (orderly : ∀ i, (next i).Orderly) :
    Handler.Orderly (validateDbIndex index next) := by
  intro world s
  unfold validateDbIndex
  repeat' split
  · exact send_orderly (error_direct _) world s
  · exact orderly _ world s
  · exact send_orderly (error_direct _) world s

theorem toOtherDb_orderly (op : Db.Index → Db.Op) (index : Int64) : Handler.Orderly (toOtherDb op index) := by
  refine validateDbIndex_orderly fun dest => withUserData_orderly fun data => ?_
  split
  · exact send_orderly okEmpty_direct
  · exact database_orderly _ _

/-! ### The other servers -/

theorem requestBind_orderly (host : Str) (port : Int64) : Handler.Orderly (requestBind host port) := by
  intro world s
  unfold requestBind
  repeat' split
  all_goals simp [send, Answer.Proper]

theorem requestUnbind_orderly (host : Str) (port : Int64) : Handler.Orderly (requestUnbind host port) := by
  intro world s
  unfold requestUnbind
  repeat' split
  all_goals simp [send, Answer.Proper]

theorem requestAddUser_orderly (username password : Str) : Handler.Orderly (requestAddUser username password) := by
  intro world s
  unfold requestAddUser
  repeat' split
  · exact send_orderly (error_direct _) world s
  · exact send_orderly (error_direct _) world s
  · exact send_orderly (error_direct _) world s
  · exact ⟨trivial, rfl⟩
  · exact persistLogins_orderly (send_orderly okEmpty_direct) rfl

theorem requestEditUser_orderly (username : Str) (level : ClientAuth) :
    Handler.Orderly (requestEditUser username level) := by
  intro world s
  unfold requestEditUser
  repeat' split
  · exact send_orderly (error_direct _) world s
  · exact persistLogins_orderly (withUserData_orderly fun _ => send_orderly okEmpty_direct) rfl
  · exact send_orderly (error_direct _) world s

theorem requestDelUser_orderly (username : Str) : Handler.Orderly (requestDelUser username) := by
  intro world s
  unfold requestDelUser
  split
  · exact send_orderly (error_direct _) world s
  · refine withUserData_orderly (fun data world s => ?_) world s
    split
    · exact send_orderly (error_direct _) world s
    · exact persistLogins_orderly (send_orderly okEmpty_direct) rfl

theorem requestChangePassword_orderly (password : Str) : Handler.Orderly (requestChangePassword password) := by
  intro world s
  unfold requestChangePassword
  split
  · exact send_orderly (error_direct _) world s
  · refine withUserData_orderly (fun data world s => ?_) world s
    repeat' split
    · exact send_orderly (error_direct _) world s
    · exact ⟨trivial, rfl⟩
    · exact persistLogins_orderly (send_orderly okEmpty_direct) rfl

theorem requestPersist_orderly : Handler.Orderly requestPersist := by
  intro world s
  unfold requestPersist
  repeat' split
  all_goals simp [send, Answer.Proper]

theorem requestTransactBegin_orderly : Handler.Orderly requestTransactBegin := by
  refine withUserData_orderly fun data world s => ?_
  split
  all_goals simp [send, throws, Answer.Proper, Server.setUserData]

theorem requestTransactEnd_orderly : Handler.Orderly requestTransactEnd := by
  refine withUserData_orderly fun data world s => ?_
  split
  all_goals simp [send, throws, Answer.Proper, Server.setUserData]

theorem requestSubscribe_orderly (client : Client) (channel : Str) :
    Handler.Orderly (requestSubscribe client channel) := by
  refine withUserData_orderly fun data world s => ?_
  simp [send, Answer.Proper, Server.setUserData]

theorem requestUnsubscribe_orderly (client : Client) (channel : Str) :
    Handler.Orderly (requestUnsubscribe client channel) := by
  refine withUserData_orderly fun data world s => ?_
  simp [send, Answer.Proper, Server.setUserData]

theorem requestClusterJoin_orderly (client : Client) (key id host : Str) (port : Int64) :
    Handler.Orderly (requestClusterJoin client key id host port) := by
  intro world s
  unfold requestClusterJoin peerConnect
  repeat' split
  all_goals simp [send, Answer.Proper]

theorem requestClusterKey_orderly : Handler.Orderly requestClusterKey := by
  intro world s
  unfold requestClusterKey
  split
  all_goals simp [send, Answer.Proper]

theorem requestClusterId_orderly : Handler.Orderly requestClusterId := by
  intro world s
  unfold requestClusterId
  split
  all_goals simp [send, Answer.Proper]

theorem requestClusterLeave_orderly : Handler.Orderly requestClusterLeave := by
  intro world s
  unfold requestClusterLeave
  split
  all_goals simp [send, Answer.Proper, Server.clearAuthApplications]

theorem requestClusterNew_orderly (key id : Str) : Handler.Orderly (requestClusterNew key id) := by
  intro world s
  unfold requestClusterNew
  repeat' split
  all_goals simp [send, Answer.Proper, Server.setClusterInfo, Server.clearAuthApplications]

theorem requestAuth_proper (username password : Str) (world : World) (s : Server) :
    (requestAuth username password world s).1.Proper := by
  unfold requestAuth sessionSetAuth
  repeat' split
  all_goals simp [send, throws, Answer.Proper]

theorem requestPeerAuth_proper (client : Client) (id : Int64) (key addr peerId : Str) (world : World) (s : Server) :
    (requestPeerAuth client id key addr peerId world s).1.Proper := by
  unfold requestPeerAuth
  repeat' split
  all_goals simp [send, throws, Answer.Proper, Response.Direct]

/-! ### Every operation -/

theorem request_orderly (client : Client) {op : OperationT} (args : Concrete op.arguments)
    (answered : op.insistsOnEnd = true → client.isPiped = true) (single : op ≠ .pipe) (first : op ≠ .auth)
    (second : op ≠ .peerAuth) : Handler.Orderly (request client op args) := by
  cases op with
  | pipe => exact absurd rfl single
  | auth => exact absurd rfl first
  | peerAuth => exact absurd rfl second
  | exit =>
    intro world s
    simp [request, requestExit, answered rfl, send, Answer.Proper]
  | terminate =>
    intro world s
    simp [request, requestTerminate, answered rfl, send, Answer.Proper]
  | ping => exact send_orderly pong_direct
  | bind => exact requestBind_orderly _ _
  | unbind => exact requestUnbind_orderly _ _
  | addUser => exact requestAddUser_orderly _ _
  | editUser => exact requestEditUser_orderly _ _
  | delUser => exact requestDelUser_orderly _
  | changePassword => exact requestChangePassword_orderly _
  | authLevel => exact fun world s => send_orderly (ok_direct _) world s
  | username => exact withUserData_orderly fun _ => send_orderly (ok_direct _)
  | switchDb =>
    exact validateDbIndex_orderly fun _ => withUserData_orderly fun _ _ _ => ⟨okEmpty_direct, rfl⟩
  | persist => exact requestPersist_orderly
  | transactBegin => exact requestTransactBegin_orderly
  | transactCommit | transactDiscard => exact requestTransactEnd_orderly
  | publish => exact fun _ _ => ⟨okEmpty_direct, rfl⟩
  | subscribe => exact requestSubscribe_orderly _ _
  | unsubscribe => exact requestUnsubscribe_orderly _ _
  | unsubscribeAll => exact withUserData_orderly fun _ _ _ => ⟨okEmpty_direct, rfl⟩
  | subscribed => exact withUserData_orderly fun _ => send_orderly (ok_direct _)
  | copyToDb | moveToDb => exact toOtherDb_orderly _ _
  | setExpiry => exact fun world => database_orderly _ _ world
  | clusterJoin => exact requestClusterJoin_orderly _ _ _ _ _
  | clusterKey => exact requestClusterKey_orderly
  | clusterId => exact requestClusterId_orderly
  | clusterLeave => exact requestClusterLeave_orderly
  | clusterNew => exact requestClusterNew_orderly _ _
  | peers | peerIds => exact fun world s => send_orderly (ok_direct _) world s
  | _ =>
    unfold request
    exact database_orderly _ _

theorem request_proper (client : Client) {op : OperationT} (args : Concrete op.arguments)
    (answered : op.insistsOnEnd = true → client.isPiped = true) (single : op ≠ .pipe) (world : World) (s : Server) :
    (request client op args world s).1.Proper := by
  by_cases first : op = .auth
  · subst first
    exact requestAuth_proper _ _ world s
  · by_cases second : op = .peerAuth
    · subst second
      exact requestPeerAuth_proper client _ _ _ _ world s
    · exact (request_orderly client args answered single first second world s).1

end Vanity.Request
