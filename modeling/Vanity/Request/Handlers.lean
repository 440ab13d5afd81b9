import Vanity.Request.Session
import Mathlib.Data.Finset.Sort

/-!
# Request handlers

The `request_` functions of the servers, each of which sends one response or throws before it does;
`EXIT` and `TERMINATE` outside a pipe send none and `CLUSTER_JOIN` may leave its response to a later
message.
-/

namespace Vanity.Request

open Db (Str Float64 Index)

/-! ### Connections -/

def requestPing : Handler := send pong

def requestExit (client : Client) : Handler := fun world s =>
  if client.isPiped then send (error (ascii "EXIT command not allowed in PIPE request")) world s
  else (.silent, { s with closed := true })

def requestTerminate (client : Client) : Handler := fun world s =>
  if client.isPiped then send (error (ascii "TERMINATE command not allowed in PIPE request")) world s
  else (.silent, { s with terminated := true })

def validatePort (port : Int64) : Bool := decide (port > 0 ∧ port ≤ 65535)

def toPort (port : Int64) : UInt16 := UInt16.ofInt port.toInt

def requestBind (host : Str) (port : Int64) : Handler := fun world s =>
  if !validatePort port then send (error (ascii "invalid port")) world s
  else if (host, toPort port) ∈ s.listeners then send (error (ascii "already bound to port")) world s
  else match world.listen host (toPort port) with
    | .error what => (.thrown what, s)
    | .ok () => send okEmpty world { s with listeners := insert (host, toPort port) s.listeners }

def requestUnbind (host : Str) (port : Int64) : Handler := fun world s =>
  if !validatePort port then send (error (ascii "invalid port")) world s
  else if s.listeners.card = 1 then send (error (ascii "cannot unbind last port")) world s
  else if toPort port = world.clusterPort ∧ host = world.host then
    send (error (ascii "cannot unbind cluster port")) world s
  else if (host, toPort port) ∉ s.listeners then send (error (ascii "was not bound to port")) world s
  else send okEmpty world { s with listeners := s.listeners.erase (host, toPort port) }

/-! ### Users -/

def minUsernameLength : Nat := 4

def minPasswordLength : Nat := 4

-- the logins are changed before they are written
def persistLogins (s : Server) (next : Handler) : Handler := fun world _ =>
  match world.persistLogins with
  | .error what => (.thrown what, s)
  | .ok () => next world s

def requestAddUser (username password : Str) : Handler := fun world s =>
  if username.length < minUsernameLength then send (error (ascii "username too short")) world s
  else if password.length < minPasswordLength then send (error (ascii "password too short")) world s
  else if username ∈ s.logins then send (error (ascii "user already exists")) world s
  else match world.makeHash password with
    | .error what => (.thrown what, s)
    | .ok hash =>
      persistLogins { s with logins := s.logins.insert username ⟨hash, .user⟩ } (send okEmpty) world s

def requestEditUser (username : Str) (level : ClientAuth) : Handler := fun world s =>
  match s.logins.lookup username with
  | none => send (error (ascii "user does not exist")) world s
  | some info =>
    if level = .user ∨ level = .admin then
      -- the username of the session is read for the log
      persistLogins { s with logins := s.logins.insert username { info with auth := level } }
        (withUserData fun _ => send okEmpty) world s
    else send (error (ascii "invalid auth level")) world s

def requestDelUser (username : Str) : Handler := fun world s =>
  if username ∉ s.logins then send (error (ascii "user does not exist")) world s
  else withUserData (fun data world s =>
    if username = data.username then send (error (ascii "cannot delete self")) world s
    else persistLogins { s with logins := s.logins.erase username } (send okEmpty) world s) world s

/-- `session_set_auth`, for the level of a login. -/
def sessionSetAuth (level : ClientAuth) (data : UserData) (next : Handler) : Handler := fun world s =>
  match level with
  | .peer => throws "address required to set auth to PEER" world s
  | .unknown => throws "cannot set auth to UNKNOWN" world s
  | level => next world { s with session := { data := .user data, auth := level } }

def requestAuth (username password : Str) : Handler := fun world s =>
  if password.length < minPasswordLength then send (error (ascii "password too short")) world s
  else match s.logins.lookup username with
    | none => send (error (ascii "user does not exist")) world s
    | some info =>
      match world.checkHash password info.hash with
      | .error what => (.thrown what, s)
      | .ok false => send (error (ascii "incorrect password")) world s
      | .ok true => sessionSetAuth info.auth { username } (send okEmpty) world s

def requestChangePassword (password : Str) : Handler := fun world s =>
  if password.length < minPasswordLength then send (error (ascii "password too short")) world s
  else withUserData (fun data world s =>
    match s.logins.lookup data.username with
    | none => send (error (ascii "user does not exist")) world s
    | some info =>
      match world.makeHash password with
      | .error what => (.thrown what, s)
      | .ok hash =>
        persistLogins { s with logins := s.logins.insert data.username { info with hash } } (send okEmpty)
          world s) world s

def requestAuthLevel : Handler := fun world s => send (ok (.auth s.session.auth)) world s

def requestUsername : Handler := withUserData fun data => send (ok (.str data.username))

/-! ### Persistence and transactions -/

-- `persist_no_check` purges the databases before it writes them
def requestPersist : Handler := fun world s =>
  if !world.persistenceEnabled then send (error (ascii "Persistence disabled")) world s
  else
    let s := { s with dbs := fun i => (s.dbs i).deepPurge world.db }
    match world.persist with
    | .error what => (.thrown what, s)
    | .ok () => send okEmpty world s

def noTrnId : UInt64 := 0

def requestTransactBegin : Handler := withUserData fun data world s =>
  if data.trnId ≠ noTrnId then throws "Transaction already in progress" world s
  else send okEmpty world { s.setUserData { data with trnId := s.nextTrn } with nextTrn := s.nextTrn + 1 }

-- `commit` and `discard` of a database are still to be written in the source
def requestTransactEnd : Handler := withUserData fun data world s =>
  if data.trnId = noTrnId then throws "No transaction in progress" world s
  else send okEmpty world (s.setUserData { data with trnId := noTrnId })

def requestTransactCommit : Handler := requestTransactEnd

def requestTransactDiscard : Handler := requestTransactEnd

/-! ### Channels -/

def eraseSubscription {P : Type} [DecidableEq P] (client : P) (subscriptions : Table Str (Finset P)) (channel : Str) :
    Table Str (Finset P) :=
  match subscriptions.lookup channel with
  | none => subscriptions
  | some clients =>
    if clients.erase client = ∅ then subscriptions.erase channel
    else subscriptions.insert channel (clients.erase client)

def insertSubscription {P : Type} [DecidableEq P] (client : P) (subscriptions : Table Str (Finset P)) (channel : Str) :
    Table Str (Finset P) :=
  subscriptions.insert channel (insert client ((subscriptions.lookup channel).getD ∅))

def sizeValue (size : Nat) : Value := .int (Int64.ofNat size)

def requestPublish (channel message : Str) : Handler := fun world s =>
  send okEmpty world { s with publishQueue := s.publishQueue ++ [(channel, message)] }

def requestSubscribe (client : Client) (channel : Str) : Handler := withUserData fun data world s =>
  let data := { data with channels := insert channel data.channels }
  send (ok (sizeValue data.channels.card)) world
    { s.setUserData data with subscriptions := insertSubscription client s.subscriptions channel }

-- what a sort of channels rests on, under one name for all that sort them
instance isTrans_str : IsTrans Str (· ≤ ·) := inferInstance

instance antisymm_str : @Std.Antisymm Str (· ≤ ·) := inferInstance

instance total_str : @Std.Total Str (· ≤ ·) := inferInstance

def requestSubscribed : Handler := withUserData fun data =>
  send (ok (.arr (data.channels.sort (· ≤ ·))))

def requestUnsubscribe (client : Client) (channel : Str) : Handler := withUserData fun data world s =>
  let data := { data with channels := data.channels.erase channel }
  send (ok (sizeValue data.channels.card)) world
    { s.setUserData data with subscriptions := eraseSubscription client s.subscriptions channel }

def requestUnsubscribeAll (client : Client) : Handler := withUserData fun data world s =>
  let channels := data.channels.sort (· ≤ ·)
  send okEmpty world
    { s.setUserData { data with channels := ∅ } with
      subscriptions := channels.foldl (eraseSubscription client) s.subscriptions }

/-! ### Databases -/

def ofData (order : Order Str) : Db.Data → Value
  | .str s => .str s
  | .int n => .int n
  | .float x => .float x
  | .list l => .list l
  | .set s => .set (order.list s)
  | .hash h => .hash (h.entries order)

-- the alternative of the variant, of which only the type is sent
def typeValue : Nat → Value
  | 0 => .str []
  | 1 => .int 0
  | 2 => .float 0
  | 3 => .list []
  | 4 => .set []
  | _ => .hash []

def timePointToSeconds (now time : Db.Time) : Float64 := (Float.ofInt (time - now).toInt / 1e9).toBits

def secondsToTimePoint (now : Db.Time) (seconds : Float64) : Db.Time := now + (Float.ofBits seconds * 1e9).toInt64

def listError : Db.ListErrorKind → Response
  | .notList => badType (ascii "not a list")
  | .outOfRange => error (ascii "index out of range")

def hashError : Db.HashError → Response
  | .notHash => badType (ascii "not hash")
  | .badKey => error (ascii "bad key")

def handleResult {α : Type} (wrong : Response) (value : α → Value) : Option α → Response
  | some result => ok (value result)
  | none => wrong

def handleExcept {ε α : Type} (wrong : ε → Response) (value : α → Value) : Except ε α → Response
  | .ok result => ok (value result)
  | .error kind => wrong kind

/-- How the database servers answer with the result of a call; `wrong` is their message for a key of
another type. -/
def respond (world : World) (wrong : String) : Db.Reply → Response
  | .done => okEmpty
  | .flag found => if found then okEmpty else null
  | .value none => null
  | .value (some data) => ok (ofData world.db.order data)
  | .values values =>
    .plain .ok (.tuple (values.map fun value => (value.map (ofData world.db.order)).getD .null))
  | .typeIndex none => null
  | .typeIndex (some index) => .plain .ok (.type (typeValue index))
  | .keys keys => if keys = ∅ then null else ok (.arr (world.db.order.list keys))
  | .time none => null
  | .time (some time) => ok (.float (timePointToSeconds world.now time))
  | .int n => handleResult (badType (ascii wrong)) .int n
  | .float x => handleResult (badType (ascii wrong)) .float x
  | .length n => handleResult (badType (ascii wrong)) sizeValue n
  | .listSize result => handleExcept listError sizeValue result
  | .listElement result => handleExcept listError .str result
  | .list result => handleExcept listError .list result
  | .set result => handleResult (badType (ascii wrong)) (fun set => .set (world.db.order.list set)) result
  | .setFlag result => handleResult (badType (ascii wrong)) .bool result
  | .hash result => handleExcept hashError (fun hash => .hash (hash.entries world.db.order)) result
  | .hashElement result => handleExcept hashError .str result
  | .hashFlag result => handleExcept hashError .bool result
  | .hashSize result => handleExcept hashError sizeValue result
  | .hashFields result => handleExcept hashError (fun fields => .arr (world.db.order.list fields)) result
  | .hashElements result => handleExcept hashError (fun values => .arr (world.arrange values)) result
  | .hashMany (.ok values) => .plain .ok (.tuple (values.map fun value => (value.map .str).getD .null))
  | .hashMany (.error kind) => hashError kind

/-- A call on the database of the session, answered with its result. -/
def database (op : Db.Op) (wrong : String) : Handler := withUserData fun data world s =>
  let (reply, dbs) := (Db.exec op world.db data.database s.dbs).getD (world.stray op data.database s.dbs)
  (.sent (respond world wrong reply), { s with dbs })

/-- `validate_db_index`. -/
def validateDbIndex (index : Int64) (next : Index → Handler) : Handler := fun world s =>
  if index < 0 then send (error (ascii " db index must be non-negative")) world s
  else if h : index.toInt.toNat < Db.numDatabases then next ⟨index.toInt.toNat, h⟩ world s
  else send (error (ascii " db index must be less than 16")) world s

def requestSwitchDb (index : Int64) : Handler := validateDbIndex index fun i =>
  withUserData fun data world s => send okEmpty world (s.setUserData { data with database := i })

/-- `request_copy_to_db` and `request_move_to_db`. -/
def toOtherDb (op : Index → Db.Op) (index : Int64) : Handler := validateDbIndex index fun dest =>
  withUserData fun data => if dest = data.database then send okEmpty else database (op dest) ""

def requestCopyToDb (source : Str) (dest : Int64) : Handler := toOtherDb (.copyToDb source) dest

def requestMoveToDb (source : Str) (dest : Int64) : Handler := toOtherDb (.moveToDb source) dest

def requestSetExpiry (key : Str) (seconds : Float64) : Handler := fun world =>
  database (.setExpiry key (secondsToTimePoint world.now seconds)) "" world

/-! ### The cluster -/

def minClusterKeyLen : Nat := 12

def minClusterIdLen : Nat := 12

def checkClusterIdLength (id : Str) : Bool := id.isEmpty || decide (minClusterIdLen ≤ id.length)

/-- `clear_auth_applications`. -/
def Server.clearAuthApplications (s : Server) (response : Response) : Server :=
  { s with
    notices := s.notices ++ s.pending.filterMap fun pending => pending.client.map fun client => (client, response)
    pending := [] }

/-- `set_cluster_info`. -/
def Server.setClusterInfo (s : Server) (key id : Str) : Server :=
  { s.clearAuthApplications (error (ascii "already in a cluster")) with clusterKey := some key, clusterId := some id }

/-- `peer_connect`: the application of the new peer remembers the client. -/
def peerConnect (client : Client) (host : Str) (port : UInt16) (key ownId : Str) : Handler := fun world s =>
  match world.connect host port with
  | .error what => (.thrown what, s)
  | .ok addr =>
    (.later, { s with
      peers := ⟨addr, none⟩ :: s.peers
      pending := ⟨s.nextId, key, ownId, some client⟩ :: s.pending
      nextId := s.nextId + 1 })

def requestClusterJoin (client : Client) (key id host : Str) (port : Int64) : Handler := fun world s =>
  if s.clusterKey.isSome then send (error (ascii "already in a cluster")) world s
  else if id.isEmpty then peerConnect client host (toPort port) key world.randomClusterId world s
  else if !checkClusterIdLength id then send (error (ascii "id is too short")) world s
  else peerConnect client host (toPort port) key id world s

def requestClusterKey : Handler := fun world s =>
  match s.clusterKey with
  | some key => send (ok (.str key)) world s
  | none => send null world s

def requestClusterId : Handler := fun world s =>
  match s.clusterId with
  | some id => send (ok (.str id)) world s
  | none => send null world s

def requestClusterLeave : Handler := fun world s =>
  if s.clusterKey.isNone then send (error (ascii "not in a cluster")) world s
  else
    let s := s.clearAuthApplications (error (ascii "cluster left"))
    send okEmpty world { s with clusterKey := none, clusterId := none, peers := [] }

def requestClusterNew (key id : Str) : Handler := fun world s =>
  if s.clusterKey.isSome then send (error (ascii "already in a cluster")) world s
  else if key.length < minClusterKeyLen then send (error (ascii "key is too short")) world s
  else if !checkClusterIdLength id then send (error (ascii "id is too short")) world s
  else
    let id := if id.isEmpty then world.randomClusterId else id
    send (ok (.str id)) world (s.setClusterInfo key id)

def requestPeers : Handler := fun world s =>
  send (ok (.set (world.db.order.list (s.peers.map (·.addr)).toFinset))) world s

def requestPeerIds : Handler := fun world s =>
  send (ok (.set (world.db.order.list (s.peers.filterMap (·.id)).toFinset))) world s

def requestPeerAuth (client : Client) (id : Int64) (key addr peerId : Str) : Handler := fun world s =>
  if client.isPiped then throws "expected a TcpClient" world s
  else if !world.onClusterPort then send (.reply id .redirect (some world.ownPeerAddr)) world { s with closed := true }
  else if s.clusterKey ≠ some key then send (.reply id .denied none) world { s with closed := true }
  else match s.clusterId with
    | none => send (.reply id .ok (some (ascii "DENIED"))) world { s with closed := true }
    | some ownId =>
      let peer : PeerData := ⟨addr, some peerId⟩
      send (.reply id .ok (some ownId)) world
        { s with peers := peer :: s.peers, session := { data := .peer peer, auth := .peer } }

end Vanity.Request
