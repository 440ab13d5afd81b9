import Vanity.Library.Runs
import Vanity.Request.Handlers

/-!
# Subscriptions of many clients

Who is subscribed to what is kept by the address of the client in the server and by the name of the
channel in the session. A request that comes through a pipe has the session of the connection and the
address of the `PipedClient`.
-/

namespace Vanity.PubSub

open Db (Str)
open Request (SessionInfo UserData ClientAuth OperationT isPermitted eraseSubscription insertSubscription ascii)

/-- A `Client*`: of a connection, or of a `PipedClient` on the stack. -/
inductive Pointer where
  | tcp (address : Nat)
  | piped (address : Nat)
  deriving DecidableEq

structure Tables where
  clients : Table Nat SessionInfo
  subscriptions : Table Str (Finset Pointer)

def sessionIsUser (session : SessionInfo) : Bool := decide (session.auth = .user ∨ session.auth = .admin)

def sessionChannels (session : SessionInfo) : Finset Str :=
  match session.data with
  | .user data => data.channels
  | _ => ∅

inductive Subscription where
  | subscribe (channel : Str)
  | unsubscribe (channel : Str)
  | unsubscribeAll

def Subscription.op : Subscription → OperationT
  | .subscribe _ => .subscribe
  | .unsubscribe _ => .unsubscribe
  | .unsubscribeAll => .unsubscribeAll

section
variable {P : Type} [DecidableEq P] (client : P)

/-- What a request does to the session and to the table of the server. -/
def Subscription.perform (data : UserData) (subscriptions : Table Str (Finset P)) :
    Subscription → UserData × Table Str (Finset P)
  | .subscribe channel =>
    ({ data with channels := insert channel data.channels }, insertSubscription client subscriptions channel)
  | .unsubscribe channel =>
    ({ data with channels := data.channels.erase channel }, eraseSubscription client subscriptions channel)
  | .unsubscribeAll =>
    ({ data with channels := ∅ }, (data.channels.sort (· ≤ ·)).foldl (eraseSubscription client) subscriptions)

end

inductive Event where
  | connect (address : Nat)
  | auth (address : Nat) (username : Str) (level : ClientAuth)
  | request (address : Nat) (through : Option Nat) (what : Subscription)
  | disconnect (address : Nat)

/-- A request that is denied or throws changes nothing. An `auth` is one with the right password. -/
def step (s : Tables) : Event → Option Tables
  | .connect address => if address ∈ s.clients then none else some { s with clients := s.clients.insert address {} }
  | .auth address username level =>
    (s.clients.lookup address).map fun session =>
      if isPermitted .auth session.auth ∧ (level = .user ∨ level = .admin) then
        { s with clients := s.clients.insert address { data := .user { username }, auth := level } }
      else s
  | .request address through what =>
    (s.clients.lookup address).map fun session =>
      match session.data with
      | .user data =>
        if isPermitted what.op session.auth then
          let (data, subscriptions) := what.perform (through.elim (.tcp address) .piped) data s.subscriptions
          { clients := s.clients.insert address { session with data := .user data }, subscriptions }
        else s
      | _ => s
  | .disconnect address =>
    (s.clients.lookup address).map fun session =>
      { clients := s.clients.erase address
        subscriptions :=
          if sessionIsUser session then
            ((sessionChannels session).sort (· ≤ ·)).foldl (eraseSubscription (.tcp address)) s.subscriptions
          else s.subscriptions }

def start : Tables := { clients := ∅, subscriptions := ∅ }

def Subscribed {P : Type} (subscriptions : Table Str (Finset P)) (channel : Str) (client : P) : Prop :=
  ∃ clients, subscriptions.lookup channel = some clients ∧ client ∈ clients

/-- A connected client whose session has the channel. -/
def Listens (clients : Table Nat SessionInfo) (channel : Str) (client : Pointer) : Prop :=
  ∃ address session, client = .tcp address ∧ clients.lookup address = some session ∧ channel ∈ sessionChannels session

structure Agree (s : Tables) : Prop where
  listed : ∀ channel client, Subscribed s.subscriptions channel client ↔ Listens s.clients channel client
  nonempty : ∀ channel, s.subscriptions.lookup channel ≠ some ∅

/-- A request that finds nothing to do in a session with these channels. -/
def Subscription.Idle (channels : Finset Str) : Subscription → Prop
  | .subscribe _ => False
  | .unsubscribe channel => channel ∉ channels
  | .unsubscribeAll => channels = ∅

/-- Through a pipe nothing is subscribed, and nothing unsubscribed that was subscribed. -/
def Direct (s : Tables) : Event → Prop
  | .request address (some _) what =>
    ∀ session, s.clients.lookup address = some session → isPermitted what.op session.auth = true →
      what.Idle (sessionChannels session)
  | _ => True

/-! ### The handlers -/

def Subscription.handler (client : Request.Client) : Subscription → Request.Handler
  | .subscribe channel => Request.requestSubscribe client channel
  | .unsubscribe channel => Request.requestUnsubscribe client channel
  | .unsubscribeAll => Request.requestUnsubscribeAll client

theorem handler_performs (what : Subscription) (client : Request.Client) (world : Request.World) (s : Request.Server)
    {data : UserData} (is : s.session.data = .user data) :
    (what.handler client world s).2 =
      { s.setUserData (what.perform client data s.subscriptions).1 with
        subscriptions := (what.perform client data s.subscriptions).2 } := by
  cases what <;>
    simp [Subscription.handler, Subscription.perform, Request.requestSubscribe, Request.requestUnsubscribe,
      Request.requestUnsubscribeAll, Request.withUserData, is, Request.send]

/-- `AUTH` lets a session in with the data of a new user, or leaves it as it is. -/
theorem requestAuth_session (username password : Str) (world : Request.World) (s : Request.Server) :
    (Request.requestAuth username password world s).2.session = s.session ∨
      ∃ level, (level = .user ∨ level = .admin) ∧
        (Request.requestAuth username password world s).2.session = { data := .user { username }, auth := level } := by
  unfold Request.requestAuth
  split
  · exact .inl rfl
  · split
    · exact .inl rfl
    · split
      · exact .inl rfl
      · exact .inl rfl
      · unfold Request.sessionSetAuth
        split
        · exact .inl rfl
        · exact .inl rfl
        · rename_i info _ _ _ _ peer unknown
          refine .inr ⟨info.auth, ?_, rfl⟩
          cases level : info.auth with
          | user => exact .inl rfl
          | admin => exact .inr rfl
          | peer => exact absurd level peer
          | unknown => exact absurd level unknown

/-! ### The table of the server -/

section
variable {P : Type} [DecidableEq P] {client : P} {subscriptions : Table Str (Finset P)}

def NoneEmpty (subscriptions : Table Str (Finset P)) : Prop := ∀ channel, subscriptions.lookup channel ≠ some ∅

theorem subscribed_insert (channel other : Str) (p : P) :
    Subscribed (insertSubscription client subscriptions channel) other p ↔
      (other = channel ∧ p = client) ∨ Subscribed subscriptions other p := by
  unfold Subscribed insertSubscription
  rw [Table.lookup_insert_eq]
  by_cases same : other = channel
  · subst same
    cases found : subscriptions.lookup other with
    | none => simp
    | some clients => simp
  · simp [same]

theorem subscribed_erase (channel other : Str) (p : P) :
    Subscribed (eraseSubscription client subscriptions channel) other p ↔
      Subscribed subscriptions other p ∧ ¬(other = channel ∧ p = client) := by
  unfold Subscribed eraseSubscription
  by_cases same : other = channel
  · subst same
    cases found : subscriptions.lookup other with
    | none => simp [found]
    | some clients =>
      have erased : p ∈ clients.erase client ↔ p ∈ clients ∧ ¬p = client := by
        rw [Finset.mem_erase, and_comm]
      by_cases last : clients.erase client = ∅
      · rw [last] at erased
        simpa [last, Table.lookup_erase_eq] using erased
      · simpa [last, Table.lookup_insert_eq] using erased
  · have kept : (eraseSubscription client subscriptions channel).lookup other = subscriptions.lookup other := by
      unfold eraseSubscription
      split
      · rfl
      · split
        · rw [Table.lookup_erase_eq, if_neg same]
        · rw [Table.lookup_insert_eq, if_neg same]
    unfold eraseSubscription at kept
    rw [kept]
    simp [same]

theorem subscribed_eraseAll (channels : List Str) (other : Str) (p : P) :
    Subscribed (channels.foldl (eraseSubscription client) subscriptions) other p ↔
      Subscribed subscriptions other p ∧ ¬(other ∈ channels ∧ p = client) := by
  induction channels generalizing subscriptions with
  | nil => simp
  | cons channel rest ih =>
    rw [List.foldl_cons, ih, subscribed_erase, List.mem_cons]
    tauto

theorem noneEmpty_insert (channel : Str) (none : NoneEmpty subscriptions) :
    NoneEmpty (insertSubscription client subscriptions channel) := by
  intro other
  unfold insertSubscription
  rw [Table.lookup_insert_eq]
  split
  · simp
  · exact none other

theorem noneEmpty_erase (channel : Str) (none : NoneEmpty subscriptions) :
    NoneEmpty (eraseSubscription client subscriptions channel) := by
  intro other
  unfold eraseSubscription
  split
  · exact none other
  · split
    · rw [Table.lookup_erase_eq]
      split
      · simp
      · exact none other
    · rename_i left
      rw [Table.lookup_insert_eq]
      split
      · simpa using left
      · exact none other

theorem noneEmpty_eraseAll (channels : List Str) (none : NoneEmpty subscriptions) :
    NoneEmpty (channels.foldl (eraseSubscription client) subscriptions) := by
  induction channels generalizing subscriptions with
  | nil => exact none
  | cons channel rest ih => exact ih (noneEmpty_erase channel none)

variable (what : Subscription) (data : UserData)

theorem noneEmpty_perform (none : NoneEmpty subscriptions) : NoneEmpty (what.perform client data subscriptions).2 := by
  cases what with
  | subscribe channel => exact noneEmpty_insert channel none
  | unsubscribe channel => exact noneEmpty_erase channel none
  | unsubscribeAll => exact noneEmpty_eraseAll _ none

theorem subscribed_perform_other {p : P} (different : p ≠ client) (channel : Str) :
    Subscribed (what.perform client data subscriptions).2 channel p ↔ Subscribed subscriptions channel p := by
  cases what with
  | subscribe wanted => simp [Subscription.perform, subscribed_insert, different]
  | unsubscribe wanted => simp [Subscription.perform, subscribed_erase, different]
  | unsubscribeAll => simp [Subscription.perform, subscribed_eraseAll, different]

theorem subscribed_perform_self (known : ∀ channel, Subscribed subscriptions channel client ↔ channel ∈ data.channels)
    (channel : Str) :
    Subscribed (what.perform client data subscriptions).2 channel client ↔
      channel ∈ (what.perform client data subscriptions).1.channels := by
  cases what with
  | subscribe wanted => simp [Subscription.perform, subscribed_insert, known]
  | unsubscribe wanted =>
    simp only [Subscription.perform, subscribed_erase, known, Finset.mem_erase]
    tauto
  | unsubscribeAll => simp [Subscription.perform, subscribed_eraseAll, known]

/-- A client that was nowhere in the table is in it afterwards only if the request was to subscribe. -/
theorem subscribed_perform_stranger (unknown : ∀ channel, ¬Subscribed subscriptions channel client) (channel : Str) :
    Subscribed (what.perform client data subscriptions).2 channel client ↔
      match what with
      | .subscribe wanted => channel = wanted
      | _ => False := by
  cases what with
  | subscribe wanted => simp [Subscription.perform, subscribed_insert, unknown]
  | unsubscribe wanted => simp [Subscription.perform, subscribed_erase, unknown]
  | unsubscribeAll => simp [Subscription.perform, subscribed_eraseAll, unknown]

end

/-! ### The sessions -/

section
variable {clients : Table Nat SessionInfo} {address : Nat} {session : SessionInfo}

theorem listens_tcp (channel : Str) :
    Listens clients channel (.tcp address) ↔ ∃ session, clients.lookup address = some session ∧ channel ∈ sessionChannels session := by
  simp [Listens]

theorem not_listens_piped (channel : Str) : ¬Listens clients channel (.piped address) := by
  simp [Listens]

theorem listens_of_lookup (found : clients.lookup address = some session) (channel : Str) :
    Listens clients channel (.tcp address) ↔ channel ∈ sessionChannels session := by
  simp [listens_tcp, found]

theorem listens_insert_self (channel : Str) :
    Listens (clients.insert address session) channel (.tcp address) ↔ channel ∈ sessionChannels session :=
  listens_of_lookup (Finmap.lookup_insert clients) channel

theorem listens_insert_other {p : Pointer} (different : p ≠ .tcp address) (channel : Str) :
    Listens (clients.insert address session) channel p ↔ Listens clients channel p := by
  cases p with
  | piped other => simp [not_listens_piped]
  | tcp other =>
    have different : other ≠ address := by simpa using different
    rw [listens_tcp, listens_tcp, Table.lookup_insert_eq, if_neg different]

theorem listens_erase_self (channel : Str) : ¬Listens (clients.erase address) channel (.tcp address) := by
  simp [listens_tcp]

theorem listens_erase_other {p : Pointer} (different : p ≠ .tcp address) (channel : Str) :
    Listens (clients.erase address) channel p ↔ Listens clients channel p := by
  cases p with
  | piped other => simp [not_listens_piped]
  | tcp other =>
    have different : other ≠ address := by simpa using different
    rw [listens_tcp, listens_tcp, Table.lookup_erase_eq, if_neg different]

end

/-- Those who are users have the data of users. -/
def Sessions (s : Tables) : Prop :=
  ∀ address session, s.clients.lookup address = some session →
    (sessionIsUser session = true ↔ ∃ data, session.data = .user data)

theorem Sessions.insert {s : Tables} {address : Nat} {session : SessionInfo} {subscriptions : Table Str (Finset Pointer)}
    (sessions : Sessions s) (user : sessionIsUser session = true ↔ ∃ data, session.data = .user data) :
    Sessions { clients := s.clients.insert address session, subscriptions } := by
  intro other found lookup
  simp only [Table.lookup_insert_eq] at lookup
  split at lookup
  · cases lookup
    exact user
  · exact sessions other found lookup

theorem sessionIsUser_of_permitted {what : Subscription} {session : SessionInfo}
    (permitted : isPermitted what.op session.auth = true) : sessionIsUser session = true := by
  unfold sessionIsUser
  revert permitted
  cases what <;> cases session.auth <;>
    simp [Subscription.op, isPermitted, Request.unknownIsPermitted, Request.peerIsPermitted]

/-! ### Steps -/

variable {s t : Tables} {address : Nat} {session : SessionInfo} {data : UserData} {what : Subscription}

/-- What a request leaves that is permitted. -/
def Tables.after (s : Tables) (address : Nat) (session : SessionInfo) (client : Pointer) (what : Subscription)
    (data : UserData) : Tables where
  clients := s.clients.insert address { session with data := .user (what.perform client data s.subscriptions).1 }
  subscriptions := (what.perform client data s.subscriptions).2

theorem step_sessions (event : Event) (sessions : Sessions s) (taken : step s event = some t) : Sessions t := by
  cases event with
  | connect address =>
    simp only [step] at taken
    split at taken
    · cases taken
    · cases taken
      apply sessions.insert
      simp [sessionIsUser]
  | auth address username level =>
    obtain ⟨session, found, rfl⟩ := Option.map_eq_some_iff.mp taken
    split
    · rename_i allowed
      apply sessions.insert
      simp [sessionIsUser, allowed.2]
    · exact sessions
  | request address through what =>
    obtain ⟨session, found, rfl⟩ := Option.map_eq_some_iff.mp taken
    dsimp only
    split
    · rename_i data is
      split
      · apply sessions.insert
        have user := (sessions address session found).mpr ⟨data, is⟩
        simpa [sessionIsUser] using user
      · exact sessions
    · exact sessions
  | disconnect address =>
    obtain ⟨session, found, rfl⟩ := Option.map_eq_some_iff.mp taken
    intro other session lookup
    simp only [Table.lookup_erase_eq] at lookup
    split at lookup
    · cases lookup
    · exact sessions other session lookup

theorem Sessions.silent (sessions : Sessions s) (found : s.clients.lookup address = some session)
    (stranger : sessionIsUser session ≠ true) : sessionChannels session = ∅ := by
  unfold sessionChannels
  split
  · rename_i data is
    exact absurd ((sessions address session found).mpr ⟨data, is⟩) stranger
  · rfl

theorem Agree.of_rows (client : Pointer) {clients : Table Nat SessionInfo} {subscriptions : Table Str (Finset Pointer)}
    (agree : Agree s) (empty : NoneEmpty subscriptions)
    (others : ∀ channel p, p ≠ client →
      (Subscribed subscriptions channel p ↔ Subscribed s.subscriptions channel p) ∧
        (Listens clients channel p ↔ Listens s.clients channel p))
    (row : ∀ channel, Subscribed subscriptions channel client ↔ Listens clients channel client) :
    Agree { clients, subscriptions } := by
  refine ⟨fun channel p => ?_, empty⟩
  by_cases same : p = client
  · subst same
    exact row channel
  · obtain ⟨subscribed, listens⟩ := others channel p same
    rw [subscribed, listens, agree.listed]

theorem connect_agree (agree : Agree s) (absent : address ∉ s.clients) :
    Agree { s with clients := s.clients.insert address {} } := by
  refine agree.of_rows (.tcp address) agree.nonempty (fun channel p different => ?_) fun channel => ?_
  · exact ⟨Iff.rfl, listens_insert_other different channel⟩
  · rw [agree.listed, listens_insert_self, listens_tcp, Finmap.lookup_eq_none.mpr absent]
    simp [sessionChannels]

theorem auth_agree (agree : Agree s) (sessions : Sessions s) (found : s.clients.lookup address = some session)
    (permitted : isPermitted .auth session.auth = true) (username : Str) (level : ClientAuth) :
    Agree { s with clients := s.clients.insert address { data := .user { username }, auth := level } } := by
  have stranger : sessionIsUser session ≠ true := by
    unfold sessionIsUser
    revert permitted
    cases session.auth <;> decide
  have silent := sessions.silent found stranger
  refine agree.of_rows (.tcp address) agree.nonempty (fun channel p different => ?_) fun channel => ?_
  · exact ⟨Iff.rfl, listens_insert_other different channel⟩
  · rw [agree.listed, listens_insert_self, listens_of_lookup found, silent]
    simp [sessionChannels]

theorem disconnect_agree (agree : Agree s) (sessions : Sessions s) (found : s.clients.lookup address = some session) :
    Agree
      { clients := s.clients.erase address
        subscriptions :=
          if sessionIsUser session then
            ((sessionChannels session).sort (· ≤ ·)).foldl (eraseSubscription (.tcp address)) s.subscriptions
          else s.subscriptions } := by
  have erased : (if sessionIsUser session then
      ((sessionChannels session).sort (· ≤ ·)).foldl (eraseSubscription (.tcp address)) s.subscriptions
      else s.subscriptions) =
      ((sessionChannels session).sort (· ≤ ·)).foldl (eraseSubscription (.tcp address)) s.subscriptions := by
    split
    · rfl
    · rename_i stranger
      simp [sessions.silent found stranger]
  rw [erased]
  refine agree.of_rows (.tcp address) (noneEmpty_eraseAll _ agree.nonempty)
    (fun channel p different => ?_) fun channel => ?_
  · exact ⟨by simp [subscribed_eraseAll, different], listens_erase_other different channel⟩
  · rw [subscribed_eraseAll, agree.listed, listens_of_lookup found]
    simp [listens_erase_self]

theorem direct_agree (agree : Agree s) (found : s.clients.lookup address = some session)
    (is : session.data = .user data) (what : Subscription) : Agree (s.after address session (.tcp address) what data) := by
  have known : ∀ channel, Subscribed s.subscriptions channel (.tcp address) ↔ channel ∈ data.channels := by
    intro channel
    rw [agree.listed, listens_of_lookup found, sessionChannels, is]
  refine agree.of_rows (.tcp address) (noneEmpty_perform what data agree.nonempty)
    (fun channel p different => ?_) fun channel => ?_
  · exact ⟨subscribed_perform_other what data different channel, listens_insert_other different channel⟩
  · rw [subscribed_perform_self what data known, listens_insert_self, sessionChannels]

theorem channels_perform_idle {client : Pointer} {subscriptions : Table Str (Finset Pointer)} (what : Subscription)
    (kept : ∀ wanted, what ≠ .subscribe wanted) :
    (∀ channel, channel ∈ data.channels ↔ channel ∈ (what.perform client data subscriptions).1.channels) ↔
      what.Idle data.channels := by
  cases what with
  | subscribe wanted => exact absurd rfl (kept wanted)
  | unsubscribe wanted =>
    simp only [Subscription.perform, Subscription.Idle, Finset.mem_erase]
    constructor
    · intro same member
      exact ((same wanted).mp member).1 rfl
    · intro absent channel
      constructor
      · intro member
        exact ⟨fun equal => absent (equal ▸ member), member⟩
      · exact fun both => both.2
  | unsubscribeAll =>
    simp only [Subscription.perform, Subscription.Idle, Finset.notMem_empty, iff_false]
    exact Finset.eq_empty_iff_forall_notMem.symm

/-- The pointer of a pipe is not that of a client, so a request through it must leave the session alone. -/
theorem piped_agree (agree : Agree s) (found : s.clients.lookup address = some session)
    (is : session.data = .user data) (pipe : Nat) (what : Subscription) :
    Agree (s.after address session (.piped pipe) what data) ↔ what.Idle data.channels := by
  have known : ∀ channel, Subscribed s.subscriptions channel (.tcp address) ↔ channel ∈ data.channels := by
    intro channel
    rw [agree.listed, listens_of_lookup found, sessionChannels, is]
  have unknown : ∀ channel, ¬Subscribed s.subscriptions channel (.piped pipe) := by
    intro channel
    rw [agree.listed]
    exact not_listens_piped channel
  have stranger := subscribed_perform_stranger what data unknown
  by_cases wants : ∃ wanted, what = .subscribe wanted
  · obtain ⟨wanted, rfl⟩ := wants
    simp only [Subscription.Idle, iff_false]
    intro after
    exact not_listens_piped wanted ((after.listed wanted (.piped pipe)).mp ((stranger wanted).mpr rfl))
  · have kept : ∀ wanted, what ≠ .subscribe wanted := fun wanted equal => wants ⟨wanted, equal⟩
    rw [← channels_perform_idle what kept]
    have row : ∀ channel,
        Subscribed (s.after address session (.piped pipe) what data).subscriptions channel (.tcp address) ↔
          channel ∈ data.channels := by
      intro channel
      rw [← known]
      exact subscribed_perform_other what data (by simp) channel
    have session' : ∀ channel,
        Listens (s.after address session (.piped pipe) what data).clients channel (.tcp address) ↔
          channel ∈ (what.perform (.piped pipe) data s.subscriptions).1.channels :=
      fun channel => listens_insert_self channel
    constructor
    · intro after channel
      rw [← row, after.listed, session']
    · intro same
      refine agree.of_rows (.tcp address) (noneEmpty_perform what data agree.nonempty)
        (fun channel p different => ⟨?_, listens_insert_other different channel⟩) fun channel => ?_
      · by_cases pointer : p = .piped pipe
        · subst pointer
          have absent : ¬Subscribed (what.perform (.piped pipe) data s.subscriptions).2 channel (.piped pipe) := by
            rw [stranger]
            cases what with
            | subscribe wanted => exact absurd rfl (kept wanted)
            | unsubscribe wanted => exact id
            | unsubscribeAll => exact id
          exact iff_of_false absent (unknown channel)
        · exact subscribed_perform_other what data pointer channel
      · exact (row channel).trans ((same channel).trans (session' channel).symm)

theorem request_agree (agree : Agree s) (found : s.clients.lookup address = some session)
    (is : session.data = .user data) (permitted : isPermitted what.op session.auth = true) (through : Option Nat) :
    Agree (s.after address session (through.elim (.tcp address) .piped) what data) ↔
      Direct s (.request address through what) := by
  cases through with
  | none => exact iff_of_true (direct_agree agree found is what) trivial
  | some pipe =>
    rw [Option.elim_some, piped_agree agree found is]
    have channels : sessionChannels session = data.channels := by rw [sessionChannels, is]
    constructor
    · intro idle other lookup _
      rw [found] at lookup
      cases lookup
      rwa [channels]
    · intro direct
      rw [← channels]
      exact direct session found permitted

theorem step_agree (event : Event) (sessions : Sessions s) (agree : Agree s) (taken : step s event = some t) :
    Agree t ↔ Direct s event := by
  cases event with
  | connect address =>
    simp only [step] at taken
    split at taken
    · cases taken
    · rename_i absent
      cases taken
      exact iff_of_true (connect_agree agree absent) trivial
  | auth address username level =>
    obtain ⟨session, found, rfl⟩ := Option.map_eq_some_iff.mp taken
    refine iff_of_true ?_ trivial
    split
    · rename_i allowed
      exact auth_agree agree sessions found allowed.1 username level
    · exact agree
  | request address through what =>
    obtain ⟨session, found, rfl⟩ := Option.map_eq_some_iff.mp taken
    dsimp only
    split
    · rename_i data is
      split
      · rename_i permitted
        exact request_agree agree found is permitted through
      · rename_i denied
        refine iff_of_true agree ?_
        cases through with
        | none => trivial
        | some pipe =>
          intro other lookup permitted
          rw [found] at lookup
          cases lookup
          exact absurd permitted denied
    · rename_i other
      refine iff_of_true agree ?_
      cases through with
      | none => trivial
      | some pipe =>
        intro _ lookup permitted
        rw [found] at lookup
        cases lookup
        obtain ⟨data, is⟩ := (sessions address session found).mp (sessionIsUser_of_permitted permitted)
        exact absurd is (other data)
  | disconnect address =>
    obtain ⟨session, found, rfl⟩ := Option.map_eq_some_iff.mp taken
    exact iff_of_true (disconnect_agree agree sessions found) trivial

theorem start_sessions : Sessions start := by
  intro address session found
  simp [start] at found

theorem start_agree : Agree start := by
  constructor
  · simp [Subscribed, Listens, start]
  · simp [start]

/-- The two tables agree in every state of a run exactly when no pipe of it subscribes or unsubscribes. -/
theorem subscriptions_agree_iff (run : List Event) : EachState step Agree run start ↔ EachStep step Direct run start :=
  eachState_iff (fun _ event _ sessions taken => step_sessions event sessions taken)
    (fun _ event _ sessions agree taken => step_agree event sessions agree taken) start_sessions start_agree

/-- After `SUBSCRIBE` in a pipe the server keeps the pointer of the pipe, and not that of the client. -/
theorem piped_subscribe_disagrees :
    ¬EachState step Agree
      [.connect 1, .auth 1 (ascii "user") .user, .request 1 (some 0) (.subscribe (ascii "news"))] start := by
  intro each
  have last := ((each.2 _ rfl).2 _ rfl).2 _ rfl
  have subscribed : Subscribed
      (insertSubscription (Pointer.piped 0) ∅ (ascii "news")) (ascii "news") (.piped 0) := by
    rw [subscribed_insert]
    exact .inl ⟨rfl, rfl⟩
  exact not_listens_piped _ ((last.listed _ _).mp subscribed)

end Vanity.PubSub
