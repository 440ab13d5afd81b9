import Vanity.Db.Calls
import Vanity.Request.Response

/-!
# The server as its handlers see it

The tables of the servers that `Server` is put together from, with the session of the client whose
message is being handled, and what a handler takes from the system around it.
-/

namespace Vanity.Request

open Db (Str Float64 Index Databases)

/-- A client: the connection itself, or a `PipedClient` in front of another client. -/
inductive Client where
  | tcp
  | piped (client : Client)
  deriving DecidableEq

def Client.isPiped : Client → Bool
  | .tcp => false
  | .piped _ => true

/-- `user_data_t`. -/
structure UserData where
  channels : Finset Str := ∅
  username : Str := []
  database : Index := 0
  trnId : UInt64 := 0
  deriving DecidableEq

/-- `peer_data_t`, without the clock and the score of its behaviour. -/
structure PeerData where
  addr : Str
  id : Option Str
  deriving DecidableEq

inductive SessionData where
  | none
  | user (data : UserData)
  | peer (data : PeerData)
  deriving DecidableEq

/-- `session_info`. -/
structure SessionInfo where
  data : SessionData := .none
  auth : ClientAuth := .unknown
  deriving DecidableEq

structure AuthInfo where
  hash : Str
  auth : ClientAuth
  deriving DecidableEq

/-- `PendingPeerAuth`. -/
structure PendingPeerAuth where
  id : Nat
  key : Str
  ownId : Str
  client : Option Client

structure Server where
  dbs : Databases
  logins : Table Str AuthInfo
  session : SessionInfo
  subscriptions : Table Str (Finset Client)
  publishQueue : List (Str × Str)
  listeners : Finset (Str × UInt16)
  clusterKey : Option Str
  clusterId : Option Str
  peers : List PeerData
  pending : List PendingPeerAuth
  /-- What `clear_auth_applications` has sent to the clients of pending applications. -/
  notices : List (Client × Response)
  nextId : Nat
  nextTrn : UInt64
  closed : Bool
  terminated : Bool
  /-- How many handlers have run. -/
  calls : Nat

/-- What one handler takes from outside: the environment of its database call, the clock, password
hashing, files and sockets with the exceptions they throw, and random text. Where a database call
runs into undefined behaviour, `stray` says what it returns and leaves. -/
structure World where
  db : Db.Env
  stray : Db.Op → Index → Databases → Db.Reply × Databases
  now : Db.Time
  arrange : Multiset Str → List Str
  makeHash : Str → Except Str Str
  checkHash : Str → Str → Except Str Bool
  persistLogins : Except Str Unit
  persistenceEnabled : Bool
  persist : Except Str Unit
  host : Str
  clusterPort : UInt16
  listen : Str → UInt16 → Except Str Unit
  connect : Str → UInt16 → Except Str Str
  onClusterPort : Bool
  ownPeerAddr : Str
  randomClusterId : Str

/-- A world in which nothing goes wrong: passwords are their own hashes, and the clock stands still. -/
noncomputable def World.still : World where
  db := .frozen 0
  stray _ _ dbs := (.done, dbs)
  now := 0
  arrange := Multiset.toList
  makeHash := .ok
  checkHash password hash := .ok (decide (password = hash))
  persistLogins := .ok ()
  persistenceEnabled := true
  persist := .ok ()
  host := ascii "0.0.0.0"
  clusterPort := 9955
  listen _ _ := .ok ()
  connect host _ := .ok host
  onClusterPort := true
  ownPeerAddr := ascii "127.0.0.1:9955"
  randomClusterId := ascii "a random id text"

/-- An empty server, and a client of this level. -/
def Server.empty (auth : ClientAuth) : Server where
  dbs _ := {}
  logins := ∅
  session := { data := if auth = .unknown then .none else .user {}, auth }
  subscriptions := ∅
  publishQueue := []
  listeners := ∅
  clusterKey := none
  clusterId := none
  peers := []
  pending := []
  notices := []
  nextId := 0
  nextTrn := 4
  closed := false
  terminated := false
  calls := 0

/-- How a handler ends: it has sent its response, it sends none, its response comes later, or it has
thrown before sending one. -/
inductive Answer where
  | sent (response : Response)
  | silent
  | later
  | thrown (what : Str)

abbrev Handler := World → Server → Answer × Server

def send (response : Response) : Handler := fun _ s => (.sent response, s)

def throws (what : String) : Handler := fun _ s => (.thrown (ascii what), s)

/-- `session_user_data`. -/
def withUserData (next : UserData → Handler) : Handler := fun world s =>
  match s.session.data with
  | .user data => next data world s
  | _ => throws "client is not a user" world s

def Server.setUserData (s : Server) (data : UserData) : Server :=
  { s with session := { s.session with data := .user data } }

end Vanity.Request
