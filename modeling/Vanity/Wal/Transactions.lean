import Vanity.Library.Runs
import Vanity.Request.Handlers
import Vanity.Wal.Live

/-!
# Transactions in the log

`TransactionServer`, `request_switch_db`, and what the calls of a session log. `TRANSACT_BEGIN` takes
an id and logs it in two steps, so that other sessions may come between them. A crash ends all
sessions and starts the counter again; the log stays.
-/

namespace Vanity.Wal
open Db Request

/-! ### A well-formed log -/

def Entry.begins (trn : UInt64) : Entry → Bool
  | .dbOp _ t .begin => t = trn
  | _ => false

def Entry.ends (trn : UInt64) : Entry → Bool
  | .dbOp _ t .commit | .dbOp _ t .discard => t = trn
  | _ => false

/-- The transaction has a begin record in this database, with no commit or discard record after it. -/
def OpenIn (db : Index) (trn : UInt64) (wal : List Entry) : Prop :=
  ∃ before after, wal = before ++ .dbOp db trn .begin :: after ∧ ∀ entry ∈ after, ¬entry.ends trn

/-- What a record needs of those before it, where `issued` are the ids that `new_trn_id` has returned. -/
def Placed (issued : Finset UInt64) (before : List Entry) : Entry → Prop
  | .dbOp _ trn .begin => ∀ entry ∈ before, ¬entry.begins trn
  | .dbOp db trn .commit | .dbOp db trn .discard => OpenIn db trn before
  | .dbOp db trn _ => trn ∈ issued → OpenIn db trn before
  | .expire _ _ => True

def WellFormed (issued : Finset UInt64) (wal : List Entry) : Prop :=
  ∀ before entry after, wal = before ++ entry :: after → Placed issued before entry

section
variable {db : Index} {trn : UInt64} {issued : Finset UInt64} {wal : List Entry}

theorem concat_eq_append_cons {last entry : Entry} {before after : List Entry}
    (same : wal ++ [last] = before ++ entry :: after) :
    (wal = before ∧ last = entry ∧ after = []) ∨
      ∃ shorter, after = shorter ++ [last] ∧ wal = before ++ entry :: shorter := by
  rcases List.eq_nil_or_concat after with rfl | ⟨shorter, other, rfl⟩
  · obtain ⟨rfl, tails⟩ := List.append_inj' same rfl
    exact .inl ⟨rfl, (List.cons.inj tails).1, rfl⟩
  · have longer : wal ++ [last] = (before ++ entry :: shorter) ++ [other] := by simpa using same
    obtain ⟨rfl, tails⟩ := List.append_inj' longer rfl
    obtain rfl := (List.cons.inj tails).1
    exact .inr ⟨shorter, by simp, rfl⟩

@[simp] theorem openIn_nil : ¬OpenIn db trn [] := by
  rintro ⟨before, after, same, -⟩
  cases before <;> cases same

theorem openIn_concat {entry : Entry} :
    OpenIn db trn (wal ++ [entry]) ↔ entry = .dbOp db trn .begin ∨ OpenIn db trn wal ∧ ¬entry.ends trn := by
  constructor
  · rintro ⟨before, after, same, unended⟩
    rcases concat_eq_append_cons same with ⟨-, begun, -⟩ | ⟨shorter, rfl, rfl⟩
    · exact .inl begun
    · refine .inr ⟨⟨before, shorter, rfl, fun later member => ?_⟩, ?_⟩
      · exact unended later (List.mem_append_left _ member)
      · exact unended entry (by simp)
  · rintro (rfl | ⟨⟨before, after, rfl, unended⟩, unending⟩)
    · exact ⟨wal, [], rfl, by simp⟩
    · refine ⟨before, after ++ [entry], by simp, fun later member => ?_⟩
      rcases List.mem_append.mp member with member | member
      · exact unended later member
      · rwa [List.mem_singleton.mp member]

theorem wellFormed_nil : WellFormed issued [] := by
  intro before entry after same
  cases before <;> cases same

theorem wellFormed_concat {entry : Entry} :
    WellFormed issued (wal ++ [entry]) ↔ WellFormed issued wal ∧ Placed issued wal entry := by
  constructor
  · intro formed
    refine ⟨fun before earlier after same => ?_, formed wal entry [] rfl⟩
    exact formed before earlier (after ++ [entry]) (by simp [same])
  · rintro ⟨formed, placed⟩ before other after same
    rcases concat_eq_append_cons same with ⟨rfl, rfl, -⟩ | ⟨shorter, -, rfl⟩
    · exact placed
    · exact formed before other shorter rfl

/-- Expire entries carry no id. -/
theorem openIn_expired (i : Index) (keys : List Str) (opened : OpenIn db trn wal) :
    OpenIn db trn (wal ++ keys.map (.expire i)) := by
  obtain ⟨before, after, rfl, unended⟩ := opened
  refine ⟨before, after ++ keys.map (.expire i), by simp, fun entry member => ?_⟩
  rcases List.mem_append.mp member with member | member
  · exact unended entry member
  · obtain ⟨key, -, rfl⟩ := List.mem_map.mp member
    simp [Entry.ends]

theorem wellFormed_expired (i : Index) (keys : List Str) (formed : WellFormed issued wal) :
    WellFormed issued (wal ++ keys.map (.expire i)) := by
  induction keys generalizing wal with
  | nil => simpa using formed
  | cons key keys ih =>
    have next : WellFormed issued (wal ++ [.expire i key]) := wellFormed_concat.mpr ⟨formed, trivial⟩
    simpa using ih next

theorem begins_of_openIn (opened : OpenIn db trn wal) : ∃ entry ∈ wal, entry.begins trn := by
  obtain ⟨before, after, rfl, -⟩ := opened
  exact ⟨.dbOp db trn .begin, by simp, by simp [Entry.begins]⟩

end

/-! ### The server -/

def firstClientTrnId : UInt64 := 4

/-- `request_switch_db`, on the data of the session. -/
def switchDb (index : Int64) (data : UserData) : UserData :=
  if index < 0 then data
  else if h : index.toInt.toNat < numDatabases then { data with database := ⟨index.toInt.toNat, h⟩ }
  else data

theorem switchDb_trnId (index : Int64) (data : UserData) : (switchDb index data).trnId = data.trnId := by
  unfold switchDb
  split
  · rfl
  · split <;> rfl

/-- A client that has logged in. -/
structure Session where
  data : UserData := {}
  /-- What `new_trn_id` has returned to a `TRANSACT_BEGIN` that has yet to log it. -/
  issued : Option UInt64 := none

structure TransactionServer where
  sessions : Nat → Option Session := fun _ => none
  counter : UInt64 := firstClientTrnId
  stores : Stores := fun _ => {}
  wal : List Entry := []
  /-- Every id that `new_trn_id` has returned, before crashes too. -/
  issued : Finset UInt64 := ∅

inductive Action where
  | auth (client : Nat) (username : Str)
  | close (client : Nat)
  | newTrnId (client : Nat)
  | begin (client : Nat)
  | commit (client : Nat)
  | discard (client : Nat)
  | switchDb (client : Nat) (index : Int64)
  | call (client : Nat) (env : Env) (op : Op)
  | shallowPurge (env : Env) (i : Index)
  | deepPurge (env : Env) (i : Index)
  /-- The server dies and starts again with what it has recovered of the tables. -/
  | crash (stores : Stores)

/-- The operations that `DatabaseWrapper` has. -/
def wrapped (op : Op) : Bool := op.kind ≠ .begin ∧ op.kind ≠ .commit ∧ op.kind ≠ .discard

namespace TransactionServer

def setSession (s : TransactionServer) (client : Nat) (session : Session) : TransactionServer :=
  { s with sessions := Function.update s.sessions client (some session) }

def log (s : TransactionServer) (entries : List Entry) : TransactionServer := { s with wal := s.wal ++ entries }

def issue (s : TransactionServer) (client : Nat) (data : UserData) : TransactionServer :=
  { s.setSession client { data, issued := some s.counter } with
    counter := s.counter + 1
    issued := insert s.counter s.issued }

/-- One handler of a client runs at a time. -/
def handled (s : TransactionServer) (client : Nat) (handler : UserData → Option TransactionServer) :
    Option TransactionServer :=
  match s.sessions client with
  | some { data, issued := none } => handler data
  | _ => none

/-- `request_transact_commit` and `request_transact_discard`, without a change where they throw. -/
def requestTransactEnd (s : TransactionServer) (client : Nat) (op : Op) (data : UserData) : TransactionServer :=
  if data.trnId = noTrnId then s
  else (s.log (walLog data.database data.trnId op)).setSession client { data := { data with trnId := noTrnId } }

def step (s : TransactionServer) : Action → Option TransactionServer
  | .auth client username =>
    match s.sessions client with
    | some { issued := some _, .. } => none
    | _ => some (s.setSession client { data := { username } })
  | .close client => some { s with sessions := Function.update s.sessions client none }
  | .newTrnId client => s.handled client fun data =>
    some (if data.trnId ≠ noTrnId then s else s.issue client data)
  | .begin client =>
    match s.sessions client with
    | some { data, issued := some trn } =>
      some ((s.log (walLog data.database trn .begin)).setSession client { data := { data with trnId := trn } })
    | _ => none
  | .commit client => s.handled client fun data => some (s.requestTransactEnd client .commit data)
  | .discard client => s.handled client fun data => some (s.requestTransactEnd client .discard data)
  | .switchDb client index => s.handled client fun data => some (s.setSession client { data := Wal.switchDb index data })
  | .call client env op => s.handled client fun data =>
    if wrapped op then
      (liveCall env data.database data.trnId op s.stores).map fun (entries, stores) => { s.log entries with stores }
    else none
  | .shallowPurge env i =>
    let (entries, stores) := livePurge (·.shallowPurge env) i s.stores
    some { s.log entries with stores }
  | .deepPurge env i =>
    let (entries, stores) := livePurge (·.deepPurge env) i s.stores
    some { s.log entries with stores }
  | .crash stores => some { stores, wal := s.wal, issued := s.issued }

/-- A step of the kind the log rests on. A session in a transaction stays in its database, and an id that
is logged as begun has no begin record yet, though the counter starts again with every process. -/
def Careful (s : TransactionServer) : Action → Prop
  | .newTrnId _ => s.counter ≠ noTrnId
  | .begin client => ∀ session ∈ s.sessions client, ∀ trn ∈ session.issued, ∀ entry ∈ s.wal, ¬entry.begins trn
  | .switchDb client index => ∀ session ∈ s.sessions client, session.data.trnId ≠ noTrnId →
    (Wal.switchDb index session.data).database = session.data.database
  | _ => True

instance decidableCareful (s : TransactionServer) : (action : Action) → Decidable (s.Careful action)
  | .newTrnId _ => inferInstanceAs (Decidable (s.counter ≠ noTrnId))
  | .begin client =>
    -- the id is looked up in the session, not searched for among all ids
    have (session : Session) : Decidable (∀ trn ∈ session.issued, ∀ entry ∈ s.wal, ¬entry.begins trn) :=
      Option.decidableForallMem session.issued
    inferInstanceAs (Decidable (∀ session ∈ s.sessions client, ∀ trn ∈ session.issued, ∀ entry ∈ s.wal,
      ¬entry.begins trn))
  | .switchDb client index =>
    inferInstanceAs (Decidable (∀ session ∈ s.sessions client, session.data.trnId ≠ noTrnId →
      (Wal.switchDb index session.data).database = session.data.database))
  | .auth .. | .close _ | .commit _ | .discard _ | .call .. | .shallowPurge .. | .deepPurge .. | .crash _ => .isTrue trivial

/-! ### What the log says of the sessions -/

/-- The transaction of a session is open in the database of the session. -/
structure Known (issued : Finset UInt64) (wal : List Entry) (session : Session) : Prop where
  taken : ∀ trn, session.issued = some trn → trn ∈ issued
  current : session.data.trnId ≠ noTrnId →
    session.data.trnId ∈ issued ∧ OpenIn session.data.database session.data.trnId wal

structure Inv (s : TransactionServer) : Prop where
  formed : WellFormed s.issued s.wal
  reserved : noTrnId ∉ s.issued
  carried : ∀ db trn op, Entry.dbOp db trn op ∈ s.wal → trn = noTrnId ∨ trn ∈ s.issued
  known : ∀ client session, s.sessions client = some session → Known s.issued s.wal session
  apart : ∀ client other session session', s.sessions client = some session → s.sessions other = some session' →
    session.data.trnId = session'.data.trnId → session.data.trnId ≠ noTrnId → client = other

theorem inv_start : Inv {} where
  formed := wellFormed_nil
  reserved := Finset.notMem_empty _
  carried _ _ _ member := absurd member List.not_mem_nil
  known _ _ connected := by cases connected
  apart _ _ _ _ connected := by cases connected

section
variable {s t : TransactionServer} {client : Nat}

theorem handled_some {handler : UserData → Option TransactionServer} (taken : s.handled client handler = some t) :
    ∃ data, s.sessions client = some { data } ∧ handler data = some t := by
  unfold handled at taken
  split at taken
  · rename_i data connected
    exact ⟨data, connected, taken⟩
  · cases taken

theorem setSession_sessions {session session' : Session} {other : Nat}
    (connected : (s.setSession client session).sessions other = some session') :
    (other = client ∧ session' = session) ∨ (other ≠ client ∧ s.sessions other = some session') := by
  change Function.update s.sessions client (some session) other = some session' at connected
  by_cases same : other = client
  · subst same
    rw [Function.update_self] at connected
    exact .inl ⟨rfl, (Option.some.inj connected).symm⟩
  · rw [Function.update_of_ne same] at connected
    exact .inr ⟨same, connected⟩

theorem Inv.setSession (inv : Inv s) {session : Session} (known : Known s.issued s.wal session)
    (alone : session.data.trnId ≠ noTrnId → ∀ other session', s.sessions other = some session' →
      session'.data.trnId = session.data.trnId → other = client) :
    Inv (s.setSession client session) where
  formed := inv.formed
  reserved := inv.reserved
  carried := inv.carried
  known other session' connected := by
    rcases setSession_sessions connected with ⟨-, rfl⟩ | ⟨-, connected⟩
    · exact known
    · exact inv.known other session' connected
  apart first second one two connected connected' same busy := by
    rcases setSession_sessions connected with ⟨rfl, rfl⟩ | ⟨-, one_before⟩ <;>
      rcases setSession_sessions connected' with ⟨rfl, rfl⟩ | ⟨-, two_before⟩
    · rfl
    · exact (alone busy _ two two_before same.symm).symm
    · exact alone (same ▸ busy) _ one one_before same
    · exact inv.apart _ _ one two one_before two_before same busy

theorem known_idle (issued : Finset UInt64) (wal : List Entry) {data : UserData} (idle : data.trnId = noTrnId) :
    Known issued wal { data } where
  taken _ none := by cases none
  current busy := absurd idle busy

theorem Inv.close (inv : Inv s) (client : Nat) :
    Inv { s with sessions := Function.update s.sessions client none } := by
  have before : ∀ other session, Function.update s.sessions client none other = some session →
      s.sessions other = some session := by
    intro other session connected
    by_cases same : other = client
    · subst same
      rw [Function.update_self] at connected
      cases connected
    · rwa [Function.update_of_ne same] at connected
  exact
    { formed := inv.formed
      reserved := inv.reserved
      carried := inv.carried
      known := fun other session connected => inv.known other session (before other session connected)
      apart := fun first second one two connected connected' =>
        inv.apart first second one two (before first one connected) (before second two connected') }

/-- A record goes to the end of the log if it is well placed and ends the transaction of no session. -/
theorem Inv.log (inv : Inv s) {entry : Entry} (placed : Placed s.issued s.wal entry)
    (carried : ∀ db trn op, entry = .dbOp db trn op → trn = noTrnId ∨ trn ∈ s.issued)
    (unending : ∀ other session, s.sessions other = some session → session.data.trnId ≠ noTrnId →
      ¬entry.ends session.data.trnId) :
    Inv (s.log [entry]) where
  formed := wellFormed_concat.mpr ⟨inv.formed, placed⟩
  reserved := inv.reserved
  carried db trn op member := by
    rcases List.mem_append.mp member with member | member
    · exact inv.carried db trn op member
    · exact carried db trn op (List.mem_singleton.mp member).symm
  known other session connected := by
    have before := inv.known other session connected
    refine ⟨before.taken, fun busy => ?_⟩
    obtain ⟨issued, opened⟩ := before.current busy
    exact ⟨issued, openIn_concat.mpr (.inr ⟨opened, unending other session connected busy⟩)⟩
  apart := inv.apart

theorem Inv.expired (inv : Inv s) (i : Index) (keys : List Str) : Inv (s.log (keys.map (.expire i))) where
  formed := wellFormed_expired i keys inv.formed
  reserved := inv.reserved
  carried db trn op member := by
    rcases List.mem_append.mp member with member | member
    · exact inv.carried db trn op member
    · obtain ⟨key, -, other⟩ := List.mem_map.mp member
      cases other
  known other session connected := by
    have before := inv.known other session connected
    refine ⟨before.taken, fun busy => ?_⟩
    obtain ⟨issued, opened⟩ := before.current busy
    exact ⟨issued, openIn_expired i keys opened⟩
  apart := inv.apart

theorem Inv.stores (inv : Inv s) (stores : Stores) : Inv { s with stores } where
  formed := inv.formed
  reserved := inv.reserved
  carried := inv.carried
  known := inv.known
  apart := inv.apart

theorem placed_issue {issued : Finset UInt64} {before : List Entry} {entry : Entry} {trn : UInt64}
    (placed : Placed issued before entry)
    (carried : ∀ db other op, entry = .dbOp db other op → other = trn → other ∈ issued) :
    Placed (insert trn issued) before entry := by
  cases entry with
  | expire => trivial
  | dbOp db other op =>
    have earlier : other ∈ insert trn issued → other ∈ issued := fun member =>
      (Finset.mem_insert.mp member).elim (carried db other op rfl) id
    cases op <;> first | exact placed | exact fun member => placed (earlier member)

theorem Inv.issue (inv : Inv s) {trn : UInt64} (other : trn ≠ noTrnId) (counter : UInt64) :
    Inv { s with counter, issued := insert trn s.issued } where
  formed before entry after same := by
    refine placed_issue (inv.formed before entry after same) fun db id op carries now => ?_
    have member : Entry.dbOp db id op ∈ s.wal := by rw [same, carries]; simp
    exact (inv.carried db id op member).resolve_left (now ▸ other)
  reserved member := (Finset.mem_insert.mp member).elim (fun same => other same.symm) inv.reserved
  carried db id op member := (inv.carried db id op member).imp_right (Finset.mem_insert_of_mem)
  known client session connected := by
    have before := inv.known client session connected
    exact ⟨fun id issued => Finset.mem_insert_of_mem (before.taken id issued),
      fun busy => (before.current busy).imp_left Finset.mem_insert_of_mem⟩
  apart := inv.apart

theorem placed_wrapped {issued : Finset UInt64} {before : List Entry} {db : Index} {trn : UInt64} {op : Op}
    (other : wrapped op) (placed : trn ∈ issued → OpenIn db trn before) : Placed issued before (.dbOp db trn op) := by
  cases op <;> first | exact placed | cases other

theorem wrapped_ends {db : Index} {trn id : UInt64} {op : Op} (other : wrapped op) : ¬(Entry.dbOp db trn op).ends id := by
  cases op <;> first | exact Bool.false_ne_true | cases other

theorem Inv.begin (inv : Inv s) {data : UserData} {trn : UInt64}
    (connected : s.sessions client = some { data, issued := some trn }) (fresh : ∀ entry ∈ s.wal, ¬entry.begins trn) :
    Inv ((s.log (walLog data.database trn .begin)).setSession client { data := { data with trnId := trn } }) := by
  have issued := (inv.known client _ connected).taken trn rfl
  have logged : Inv (s.log [.dbOp data.database trn .begin]) := by
    refine inv.log fresh (fun db id op same => ?_) fun _ _ _ _ => Bool.false_ne_true
    obtain ⟨-, rfl, -⟩ := Entry.dbOp.inj same
    exact .inr issued
  have known : Known s.issued (s.wal ++ [.dbOp data.database trn .begin]) { data := { data with trnId := trn } } := by
    refine ⟨fun _ none => ?_, fun _ => ⟨issued, openIn_concat.mpr (.inl rfl)⟩⟩
    cases none
  refine logged.setSession known fun busy other session placed same => ?_
  have same : session.data.trnId = trn := same
  have opened := ((inv.known other session placed).current (same ▸ busy)).2
  obtain ⟨entry, member, begins⟩ := begins_of_openIn opened
  exact absurd (same ▸ begins) (fresh entry member)

theorem Inv.requestTransactEnd (inv : Inv s) {data : UserData} (connected : s.sessions client = some { data }) {op : Op}
    (ends : op = .commit ∨ op = .discard) : Inv (s.requestTransactEnd client op data) := by
  unfold TransactionServer.requestTransactEnd
  split
  · exact inv
  · rename_i busy
    have idle : Inv (s.setSession client { data := { data with trnId := noTrnId } }) :=
      inv.setSession (known_idle s.issued s.wal rfl) fun busy => absurd rfl busy
    obtain ⟨issued, opened⟩ := (inv.known client _ connected).current busy
    have placed : Placed s.issued s.wal (.dbOp data.database data.trnId op) := by
      rcases ends with rfl | rfl <;> exact opened
    have logs : walLog data.database data.trnId op = [.dbOp data.database data.trnId op] := by
      rcases ends with rfl | rfl <;> rfl
    have logged := idle.log placed (fun db id op same => ?_) fun other session placed busy' now => ?_
    · rw [logs]
      exact logged
    · obtain ⟨-, rfl, -⟩ := Entry.dbOp.inj same
      exact .inr issued
    · have same : session.data.trnId = data.trnId := by
        rcases ends with rfl | rfl <;> exact (of_decide_eq_true now).symm
      rcases setSession_sessions placed with ⟨-, rfl⟩ | ⟨elsewhere, placed⟩
      · exact busy' rfl
      · exact elsewhere (inv.apart other client session _ placed connected same busy')

theorem liveCall_entries {env : Env} {i : Index} {trn : UInt64} {op : Op} {stores after : Stores} {entries : List Entry}
    (called : liveCall env i trn op stores = some (entries, after)) :
    ∃ keys : List Str, entries = walLog i trn op ++ keys.map (.expire i) := by
  obtain ⟨⟨reply, dbs⟩, -, same⟩ := Option.map_eq_some_iff.mp called
  exact ⟨(dbs i).preExpired, (congrArg Prod.fst same).symm⟩

theorem Inv.wrapped (inv : Inv s) {data : UserData} (connected : s.sessions client = some { data }) {op : Op}
    (other : wrapped op) : Inv (s.log (walLog data.database data.trnId op)) := by
  have current := (inv.known client _ connected).current
  unfold walLog
  split
  · refine inv.log (placed_wrapped other fun issued => ?_) (fun db id op same => ?_) fun _ _ _ _ => wrapped_ends other
    · have busy : data.trnId ≠ noTrnId := fun idle => inv.reserved (idle ▸ issued)
      exact (current busy).2
    · obtain ⟨-, rfl, -⟩ := Entry.dbOp.inj same
      by_cases busy : data.trnId = noTrnId
      · exact .inl busy
      · exact .inr (current busy).1
  · have same : s.log [] = s := by simp [TransactionServer.log]
    rwa [same]

theorem Inv.switchDb (inv : Inv s) {data : UserData} (connected : s.sessions client = some { data }) {index : Int64}
    (stays : data.trnId ≠ noTrnId → (Wal.switchDb index data).database = data.database) :
    Inv (s.setSession client { data := Wal.switchDb index data }) := by
  have current := (inv.known client _ connected).current
  have same := switchDb_trnId index data
  have known : Known s.issued s.wal { data := Wal.switchDb index data } := by
    refine ⟨fun _ none => ?_, fun busy => ?_⟩
    · cases none
    · change (Wal.switchDb index data).trnId ≠ noTrnId at busy
      change (Wal.switchDb index data).trnId ∈ s.issued ∧
        OpenIn (Wal.switchDb index data).database (Wal.switchDb index data).trnId s.wal
      rw [same] at busy ⊢
      rw [stays busy]
      exact current busy
  refine inv.setSession known fun busy other session placed shared => ?_
  exact inv.apart other client session _ placed connected (shared.trans same) (shared ▸ busy)

/-- The step lemma. -/
theorem Inv.step (inv : Inv s) {action : Action} (careful : s.Careful action) (taken : s.step action = some t) :
    Inv t := by
  cases action with
  | auth client username =>
    simp only [TransactionServer.step] at taken
    split at taken
    · cases taken
    · obtain rfl := Option.some.inj taken
      exact inv.setSession (known_idle s.issued s.wal rfl) fun busy => absurd rfl busy
  | close client =>
    obtain rfl := Option.some.inj taken
    exact inv.close client
  | newTrnId client =>
    obtain ⟨data, connected, taken⟩ := handled_some taken
    obtain rfl := Option.some.inj taken
    split
    · exact inv
    · rename_i idle
      have idle := not_not.mp idle
      have issued := inv.issue careful (s.counter + 1)
      refine issued.setSession ⟨fun trn now => ?_, fun busy => absurd idle busy⟩ fun busy => absurd idle busy
      obtain rfl := Option.some.inj now
      exact Finset.mem_insert_self _ _
  | begin client =>
    simp only [TransactionServer.step] at taken
    split at taken
    · rename_i data trn connected
      obtain rfl := Option.some.inj taken
      exact inv.begin connected (careful _ connected trn rfl)
    · cases taken
  | commit client =>
    obtain ⟨data, connected, taken⟩ := handled_some taken
    exact Option.some.inj taken ▸ inv.requestTransactEnd connected (.inl rfl)
  | discard client =>
    obtain ⟨data, connected, taken⟩ := handled_some taken
    exact Option.some.inj taken ▸ inv.requestTransactEnd connected (.inr rfl)
  | switchDb client index =>
    obtain ⟨data, connected, taken⟩ := handled_some taken
    exact Option.some.inj taken ▸ inv.switchDb connected (careful { data } connected)
  | call client env op =>
    obtain ⟨data, connected, taken⟩ := handled_some taken
    split at taken
    · rename_i other
      obtain ⟨⟨entries, stores⟩, called, rfl⟩ := Option.map_eq_some_iff.mp taken
      obtain ⟨keys, rfl⟩ := liveCall_entries called
      have logged := (inv.wrapped connected other).expired data.database keys
      unfold TransactionServer.log at logged ⊢
      rw [List.append_assoc] at logged
      exact logged.stores stores
    · cases taken
  | shallowPurge env i =>
    obtain rfl := Option.some.inj taken
    exact (inv.expired i _).stores _
  | deepPurge env i =>
    obtain rfl := Option.some.inj taken
    exact (inv.expired i _).stores _
  | crash stores =>
    obtain rfl := Option.some.inj taken
    exact
      { formed := inv.formed
        reserved := inv.reserved
        carried := inv.carried
        known := fun _ _ connected => by cases connected
        apart := fun _ _ _ _ connected => by cases connected }

/-! ### What a careless step does -/

theorem begun_once {issued : Finset UInt64} {wal : List Entry} {db other : Index} {trn : UInt64}
    (formed : WellFormed issued wal) (opened : OpenIn db trn wal) (member : .dbOp other trn .begin ∈ wal) :
    db = other := by
  obtain ⟨before, after, rfl, -⟩ := opened
  have begun : ∀ i, (Entry.dbOp i trn .begin).begins trn := fun i => decide_eq_true rfl
  rcases List.mem_append.mp member with member | member
  · exact absurd (begun other) (formed before _ after rfl _ member)
  · rcases List.mem_cons.mp member with same | member
    · exact (Entry.dbOp.inj same).1.symm
    · obtain ⟨between, later, rfl⟩ := List.append_of_mem member
      have first := formed (before ++ .dbOp db trn .begin :: between) (.dbOp other trn .begin) later (by simp)
      exact absurd (begun db) (first (.dbOp db trn .begin) (by simp))

/-- A second begin record of an id spoils the log. -/
theorem begin_careless (careless : ¬s.Careful (.begin client)) (taken : s.step (.begin client) = some t) :
    ¬WellFormed t.issued t.wal := by
  intro formed
  simp only [TransactionServer.step] at taken
  split at taken
  · rename_i data trn connected
    obtain rfl := Option.some.inj taken
    have placed : Placed s.issued s.wal (.dbOp data.database trn .begin) := (wellFormed_concat.mp formed).2
    refine careless fun session member id issued => ?_
    obtain rfl : { data, issued := some trn } = session := Option.some.inj (connected.symm.trans member)
    obtain rfl := Option.some.inj issued
    exact placed
  · cases taken

/-- A session that leaves the database of its transaction spoils the log with its next commit. -/
theorem switchDb_careless (inv : Inv s) {index : Int64} (careless : ¬s.Careful (.switchDb client index))
    (taken : s.step (.switchDb client index) = some t) :
    ∃ u, t.step (.commit client) = some u ∧ ¬WellFormed u.issued u.wal := by
  obtain ⟨data, connected, taken⟩ := handled_some taken
  obtain rfl := Option.some.inj taken
  obtain ⟨busy, leaves⟩ : data.trnId ≠ noTrnId ∧ (Wal.switchDb index data).database ≠ data.database := by
    by_contra stays
    refine careless fun session member busy => ?_
    obtain rfl := Option.some.inj (connected.symm.trans member)
    exact not_not.mp (not_and.mp stays busy)
  have opened := ((inv.known client _ connected).current busy).2
  have placed : (s.setSession client { data := Wal.switchDb index data }).sessions client =
      some { data := Wal.switchDb index data } := Function.update_self ..
  refine ⟨_, by rw [TransactionServer.step, handled, placed], fun formed => ?_⟩
  unfold TransactionServer.requestTransactEnd at formed
  rw [switchDb_trnId, if_neg busy] at formed
  obtain ⟨before, after, same, -⟩ := (wellFormed_concat.mp formed).2
  have here : Entry.dbOp (Wal.switchDb index data).database data.trnId .begin ∈ s.wal := by
    change s.wal = _ at same
    rw [same]
    simp
  exact leaves (begun_once inv.formed opened here).symm

/-! ### The handlers of a server -/

/-- A server that handles a message of this client. -/
structure Agrees (server : Server) (client : Nat) (s : TransactionServer) (data : UserData) : Prop where
  session : server.session.data = .user data
  connected : s.sessions client = some { data }
  counter : server.nextTrn = s.counter

section
variable {server : Server} {data : UserData} (world : World)

theorem Agrees.withUserData (agrees : Agrees server client s data) (next : UserData → Handler) :
    withUserData next world server = next data world server := by
  unfold Request.withUserData
  rw [agrees.session]

theorem Agrees.switchDb (agrees : Agrees server client s data) (index : Int64) :
    ∃ t, s.step (.switchDb client index) = some t ∧
      Agrees (requestSwitchDb index world server).2 client t (Wal.switchDb index data) := by
  have stepped : s.step (.switchDb client index) = some (s.setSession client { data := Wal.switchDb index data }) := by
    rw [TransactionServer.step, handled, agrees.connected]
  refine ⟨_, stepped, ?_⟩
  unfold requestSwitchDb validateDbIndex Wal.switchDb
  dsimp only
  split
  · exact ⟨agrees.session, Function.update_self .., agrees.counter⟩
  · split
    · rw [agrees.withUserData]
      exact ⟨rfl, Function.update_self .., agrees.counter⟩
    · exact ⟨agrees.session, Function.update_self .., agrees.counter⟩

theorem Agrees.begin (agrees : Agrees server client s data) (idle : data.trnId = noTrnId) :
    ∃ t, runAll step [.newTrnId client, .begin client] s = some t ∧
      Agrees (requestTransactBegin world server).2 client t { data with trnId := s.counter } := by
  have issued : s.step (.newTrnId client) = some (s.issue client data) := by
    rw [TransactionServer.step, handled, agrees.connected]
    exact congrArg some (if_neg (not_not.mpr idle))
  have placed : (s.issue client data).sessions client = some { data, issued := some s.counter } := Function.update_self ..
  have logged : (s.issue client data).step (.begin client) = some (((s.issue client data).log
      (walLog data.database s.counter .begin)).setSession client { data := { data with trnId := s.counter } }) := by
    rw [TransactionServer.step, placed]
  refine ⟨_, by rw [runAll, issued, Option.bind_some, runAll, logged]; rfl, ?_⟩
  unfold requestTransactBegin
  rw [agrees.withUserData, if_neg (not_not.mpr idle), agrees.counter]
  exact ⟨rfl, Function.update_self .., rfl⟩

theorem Agrees.requestTransactEnd (agrees : Agrees server client s data) (op : Op) :
    Agrees (Request.requestTransactEnd world server).2 client (s.requestTransactEnd client op data)
      { data with trnId := noTrnId } := by
  unfold Request.requestTransactEnd TransactionServer.requestTransactEnd
  rw [agrees.withUserData]
  split
  · rename_i idle
    rw [← idle]
    exact agrees
  · exact ⟨rfl, Function.update_self .., agrees.counter⟩

end

/-- In a run of careful steps, over any crashes, the log stays well formed. -/
theorem log_wellFormed (run : List Action) (careful : EachStep step Careful run {}) :
    EachState step (fun s => WellFormed s.issued s.wal) run {} :=
  eachState_of_inv (fun _ _ _ inv careful taken => inv.step careful taken) (fun _ inv => inv.formed) inv_start careful

/-- A crash before the first record, then two transactions side by side. -/
noncomputable def sideBySide : List Action :=
  [.auth 0 [1], .newTrnId 0, .crash fun _ => {}, .auth 0 [1], .auth 1 [2], .switchDb 1 3, .newTrnId 0, .newTrnId 1, .begin 1,
   .begin 0, .call 0 (.frozen 0) (.strSet [7] [8]), .call 1 (.frozen 0) .reset, .switchDb 1 3, .commit 0, .discard 1]

theorem sideBySide_wellFormed : EachState step (fun s => WellFormed s.issued s.wal) sideBySide {} :=
  log_wellFormed sideBySide (by decide +kernel)

def switching : List Action := [.auth 0 [], .newTrnId 0, .begin 0, .switchDb 0 1, .commit 0]

def restarting : List Action :=
  [.auth 0 [], .newTrnId 0, .begin 0, .crash fun _ => {}, .auth 0 [], .newTrnId 0, .begin 0]

/-- Neither a switch inside a transaction nor a counter that starts again is kept out. -/
theorem log_ill_formed :
    ¬EachState step (fun s => WellFormed s.issued s.wal) switching {} ∧
      ¬EachState step (fun s => WellFormed s.issued s.wal) restarting {} := by
  constructor
  · intro each
    have formed : WellFormed {4} ([] ++ [.dbOp 0 4 .begin] ++ [.dbOp 1 4 .commit]) := eachState_last each rfl
    rcases openIn_concat.mp (wellFormed_concat.mp formed).2 with other | ⟨earlier, -⟩
    · cases other
    · exact openIn_nil earlier
  · intro each
    have formed : WellFormed {4} ([.dbOp 0 4 .begin] ++ [.dbOp 0 4 .begin]) := eachState_last each rfl
    exact (wellFormed_concat.mp formed).2 (.dbOp 0 4 .begin) (List.mem_singleton.mpr rfl) rfl

end

end TransactionServer

end Vanity.Wal
