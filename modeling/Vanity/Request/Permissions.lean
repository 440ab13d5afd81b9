import Vanity.Request.Handling

/-!
# Permissions

Handling a message once more, with a record of the handlers that `dispatch` calls: the operation that was
checked, the one that was executed, and the server before and after. The record of a handling that is cut
off holds what was called until then. Without the record this is `handle_user`.
-/

namespace Vanity.Request

open Db (Str)

structure Invocation where
  /-- What `peek_operation` has seen. -/
  checked : OperationT
  /-- What `get_operation` has read. -/
  executed : OperationT
  before : Server
  after : Server

abbrev Recorded (α : Type) := Option α × List Invocation

namespace Recorded

variable {α β : Type}

def bind (first : Recorded α) (next : α → Recorded β) : Recorded β :=
  match first.1 with
  | none => (none, first.2)
  | some value => ((next value).1, first.2 ++ (next value).2)

def map (f : α → β) (recorded : Recorded α) : Recorded β := (recorded.1.map f, recorded.2)

theorem bind_fst (first : Recorded α) (next : α → Recorded β) :
    (first.bind next).1 = first.1.bind fun value => (next value).1 := by
  obtain ⟨result, calls⟩ := first
  cases result <;> rfl

end Recorded

def recordLoop (single : Bool → Turn → Recorded Turn) : Nat → Turn → Recorded Turn
  | 0, turn => (some turn, [])
  | 1, turn => single true turn
  | len + 2, turn => (single false turn).bind (recordLoop single (len + 1))

section
variable (msg : Str) (world : Nat → World)

def recordPipe (handle : Client → Bool → Turn → Recorded Turn) (client : Client) (turn : Turn) : Recorded Step :=
  match getLen msg turn.pos with
  | .thrown failure pos => (some (turn.throw failure pos), [])
  | .ok len pos =>
    (recordLoop (handle (.piped client)) len { turn with pos, sent := [] }).map fun inner =>
      (none, { inner with sent := turn.sent ++ [.agg len inner.sent] })

-- the handler of a pipe changes nothing itself
def recordDispatch (handle : Client → Bool → Turn → Recorded Turn) (checked : OperationT) (client : Client) (end_ : Bool)
    (turn : Turn) : Recorded Step :=
  match getOperation msg turn.pos with
  | .thrown failure pos => (some (turn.throw failure pos), [])
  | .ok op pos =>
    if op = .pipe then
      let (step, calls) := (recordPipe msg handle client { turn with pos }).map fun
        | (some failure, turn) => (some failure, turn)
        | (none, turn) =>
          match getExact [] end_ msg turn.pos with
          | .thrown failure pos => turn.throw failure pos
          | .ok _ pos => turn.goTo pos
      (step, ⟨checked, op, turn.server, turn.server⟩ :: calls)
    else match getExact op.arguments (end_ || op.insistsOnEnd) msg pos with
      | .thrown failure pos => (some (turn.throw failure pos), [])
      | .ok args pos =>
        let step := turn.call (request client op args) world pos
        (some step, [⟨checked, op, turn.server, step.2.server⟩])

def recordDispatchOrRefuse (handle : Client → Bool → Turn → Recorded Turn) (client : Client) (end_ : Bool) (turn : Turn) :
    Recorded Step :=
  match peekOperation msg turn.pos with
  | .thrown failure pos => (some (turn.throw failure pos), [])
  | .ok op pos =>
    let turn := { turn with pos }
    if isPermitted op turn.server.session.auth then recordDispatch msg world handle op client end_ turn
    else if end_ then (some (none, { turn with sent := turn.sent ++ [denied] }), [])
    else match dryDispatch false msg pos with
      | .thrown failure pos => (some (turn.throw failure pos), [])
      | .ok _ pos => (some (none, { turn with pos, sent := turn.sent ++ [denied] }), [])

def recordSingle : Nat → Client → Bool → Turn → Recorded Turn
  | 0, _, _, _ => (none, [])
  | depth + 1, client, end_, turn =>
    (recordDispatchOrRefuse msg world (recordSingle depth) client end_ turn).map caught

def recordUser (depth : Nat) (server : Server) : Recorded Turn :=
  recordLoop (recordSingle msg world depth .tcp) 1 { server, pos := 0, sent := [] }

end

variable {msg : Str} {world : Nat → World}

/-! ### The record changes nothing -/

theorem recordLoop_fst {record : Bool → Turn → Recorded Turn} {single : Bool → Turn → Option Turn}
    (same : ∀ end_ turn, (record end_ turn).1 = single end_ turn) (len : Nat) (turn : Turn) :
    (recordLoop record len turn).1 = doHandle single len turn := by
  induction len generalizing turn with
  | zero => rfl
  | succ len ih =>
    cases len with
    | zero => exact same true turn
    | succ len =>
      rw [recordLoop, doHandle, Recorded.bind_fst, same]
      congr 1
      funext next
      exact ih next

section
variable {record : Client → Bool → Turn → Recorded Turn} {handle : Client → Bool → Turn → Option Turn}
  (same : ∀ client end_ turn, (record client end_ turn).1 = handle client end_ turn) {client : Client} {end_ : Bool}

include same

theorem recordPipe_fst (turn : Turn) : (recordPipe msg record client turn).1 = requestPipe msg handle client turn := by
  unfold recordPipe requestPipe
  cases getLen msg turn.pos with
  | thrown failure pos => rfl
  | ok len pos =>
    change Option.map _ (recordLoop (record (.piped client)) len _).1 = _
    rw [recordLoop_fst (same (.piped client))]

theorem recordDispatch_fst (checked : OperationT) (turn : Turn) :
    (recordDispatch msg world record checked client end_ turn).1 = dispatch msg world handle client end_ turn := by
  unfold recordDispatch dispatch
  cases getOperation msg turn.pos with
  | thrown failure pos => rfl
  | ok op pos =>
    by_cases piped : op = .pipe
    · simp only [if_pos piped]
      exact congrArg (Option.map _) (recordPipe_fst same _)
    · simp only [if_neg piped]
      cases getExact op.arguments (end_ || op.insistsOnEnd) msg pos with
      | thrown failure pos => rfl
      | ok args pos => rfl

theorem recordDispatchOrRefuse_fst (turn : Turn) :
    (recordDispatchOrRefuse msg world record client end_ turn).1 =
      dispatchOrRefuse msg world handle client end_ turn := by
  unfold recordDispatchOrRefuse dispatchOrRefuse
  cases peekOperation msg turn.pos with
  | thrown failure pos => rfl
  | ok op pos =>
    by_cases permitted : isPermitted op turn.server.session.auth
    · simp only [if_pos permitted]
      exact recordDispatch_fst same op _
    · simp only [if_neg permitted]
      cases end_ with
      | true => rfl
      | false =>
        simp only [Bool.false_eq_true, if_false]
        cases dryDispatch false msg pos with
        | thrown failure pos => rfl
        | ok value pos => rfl

end

theorem recordSingle_fst (depth : Nat) (client : Client) (end_ : Bool) (turn : Turn) :
    (recordSingle msg world depth client end_ turn).1 = doHandleSingle msg world depth client end_ turn := by
  induction depth generalizing client end_ turn with
  | zero => rfl
  | succ depth ih =>
    rw [recordSingle, doHandleSingle, Recorded.map, recordDispatchOrRefuse_fst ih]

theorem recordUser_fst (depth : Nat) (server : Server) :
    (recordUser msg world depth server).1 = handleUser msg world depth server :=
  recordLoop_fst (recordSingle_fst depth .tcp) 1 _

/-! ### What is recorded -/

/-- The operation that was checked is executed, the session had the permission, and between the two servers
lies the handler. -/
structure Invocation.Sound (call : Invocation) : Prop where
  same : call.checked = call.executed
  permitted : isPermitted call.executed call.before.session.auth = true
  runs : (call.executed = .pipe ∧ call.after = call.before) ∨ (call.executed ≠ .pipe ∧ ∃ client args world calls,
    call.after = { (request client call.executed args world call.before).2 with calls })

/-- Nothing happens to the server between the calls. -/
def Chained : Server → List Invocation → Server → Prop
  | first, [], last => last = first
  | first, call :: rest, last => call.before = first ∧ Chained call.after rest last

theorem Chained.append {first middle last : Server} {calls more : List Invocation} (chained : Chained first calls middle)
    (next : Chained middle more last) : Chained first (calls ++ more) last := by
  induction calls generalizing first with
  | nil =>
    obtain rfl := chained
    exact next
  | cons call rest ih => exact ⟨chained.1, ih chained.2⟩

/-- A record that begins with this server. -/
structure Recorded.Sound {α : Type} (server : α → Server) (first : Server) (recorded : Recorded α) : Prop where
  calls : ∀ call ∈ recorded.2, call.Sound
  chained : ∃ last, Chained first recorded.2 last ∧ ∀ value, recorded.1 = some value → server value = last

namespace Recorded

variable {α β : Type} {server : α → Server} {server' : β → Server} {first : Server}

theorem sound_idle {value : α} (same : server value = first) : Sound server first (some value, []) := by
  refine ⟨fun call called => absurd called List.not_mem_nil, first, rfl, ?_⟩
  rintro _ ⟨⟩
  exact same

theorem Sound.bind {recorded : Recorded α} {next : α → Recorded β} (sound : recorded.Sound server first)
    (later : ∀ value, (next value).Sound server' (server value)) : (recorded.bind next).Sound server' first := by
  obtain ⟨calls, middle, chained, reaches⟩ := sound
  obtain ⟨result, recorded⟩ := recorded
  cases result with
  | none => exact ⟨calls, middle, chained, fun value none => by cases none⟩
  | some value =>
    obtain ⟨more, last, chainedMore, ends⟩ := later value
    rw [reaches value rfl] at chainedMore
    refine ⟨fun call called => ?_, last, chained.append chainedMore, ends⟩
    rcases List.mem_append.mp called with early | late
    · exact calls call early
    · exact more call late

theorem Sound.map {recorded : Recorded α} {f : α → β} (sound : recorded.Sound server first)
    (same : ∀ value, server' (f value) = server value) : (recorded.map f).Sound server' first := by
  obtain ⟨calls, last, chained, reaches⟩ := sound
  refine ⟨calls, last, chained, fun value mapped => ?_⟩
  obtain ⟨before, found, rfl⟩ := Option.map_eq_some_iff.mp mapped
  rw [same, reaches before found]

theorem Sound.cons {result : Option α} {calls : List Invocation} {call : Invocation} (called : call.Sound)
    (begins : call.before = first) (sound : Sound server call.after (result, calls)) :
    Sound server first (result, call :: calls) := by
  obtain ⟨others, last, chained, reaches⟩ := sound
  refine ⟨fun other member => ?_, last, ⟨begins, chained⟩, reaches⟩
  rcases List.mem_cons.mp member with rfl | later
  · exact called
  · exact others other later

end Recorded

theorem recordLoop_sound {record : Bool → Turn → Recorded Turn}
    (each : ∀ end_ turn, (record end_ turn).Sound Turn.server turn.server) (len : Nat) (turn : Turn) :
    (recordLoop record len turn).Sound Turn.server turn.server := by
  induction len generalizing turn with
  | zero => exact Recorded.sound_idle rfl
  | succ len ih =>
    cases len with
    | zero => exact each true turn
    | succ len => exact (each false turn).bind ih

theorem call_server (turn : Turn) (handler : Handler) (pos : Nat) :
    (turn.call handler world pos).2.server =
      { (handler (world turn.server.calls) turn.server).2 with calls := turn.server.calls + 1 } := by
  simp only [Turn.call]
  cases (handler (world turn.server.calls) turn.server).1 <;> rfl

abbrev Step.server (step : Step) : Server := step.2.server

section
variable {record : Client → Bool → Turn → Recorded Turn}
  (each : ∀ client end_ turn, (record client end_ turn).Sound Turn.server turn.server) {client : Client} {end_ : Bool}

include each

theorem recordPipe_sound (turn : Turn) : (recordPipe msg record client turn).Sound Step.server turn.server := by
  unfold recordPipe
  cases getLen msg turn.pos with
  | thrown failure pos => exact Recorded.sound_idle rfl
  | ok len pos =>
    have inner := recordLoop_sound (each (.piped client)) len { turn with pos, sent := [] }
    exact inner.map fun _ => rfl

theorem recordDispatch_sound {checked : OperationT} (turn : Turn) {pos : Nat}
    (peeked : peekOperation msg pos = .ok checked turn.pos)
    (permitted : isPermitted checked turn.server.session.auth = true) :
    (recordDispatch msg world record checked client end_ turn).Sound Step.server turn.server := by
  obtain ⟨after, got⟩ := getOperation_of_peek peeked
  unfold recordDispatch
  simp only [got]
  by_cases piped : checked = .pipe
  · simp only [if_pos piped]
    refine Recorded.Sound.cons ⟨rfl, permitted, .inl ⟨piped, rfl⟩⟩ rfl ?_
    refine (recordPipe_sound each { turn with pos := after }).map fun step => ?_
    obtain ⟨failure, turn⟩ := step
    cases failure with
    | some failure => rfl
    | none =>
      dsimp only
      cases getExact [] end_ msg turn.pos with
      | thrown failure pos => rfl
      | ok value pos => rfl
  · simp only [if_neg piped]
    cases getExact checked.arguments (end_ || checked.insistsOnEnd) msg after with
    | thrown failure pos => exact Recorded.sound_idle rfl
    | ok args pos =>
      refine Recorded.Sound.cons ⟨rfl, permitted, .inr ⟨piped, client, args, world turn.server.calls, turn.server.calls + 1, ?_⟩⟩ rfl
        (Recorded.sound_idle rfl)
      exact call_server turn (request client checked args) pos

theorem recordDispatchOrRefuse_sound (turn : Turn) :
    (recordDispatchOrRefuse msg world record client end_ turn).Sound Step.server turn.server := by
  unfold recordDispatchOrRefuse
  cases peeked : peekOperation msg turn.pos with
  | thrown failure pos => exact Recorded.sound_idle rfl
  | ok op pos =>
    by_cases permitted : isPermitted op turn.server.session.auth
    · simp only [if_pos permitted]
      exact recordDispatch_sound each { turn with pos } peeked permitted
    · simp only [if_neg permitted]
      cases end_ with
      | true => exact Recorded.sound_idle rfl
      | false =>
        simp only [Bool.false_eq_true, if_false]
        cases dryDispatch false msg pos with
        | thrown failure pos => exact Recorded.sound_idle rfl
        | ok value pos => exact Recorded.sound_idle rfl

end

theorem recordSingle_sound (depth : Nat) (client : Client) (end_ : Bool) (turn : Turn) :
    (recordSingle msg world depth client end_ turn).Sound Turn.server turn.server := by
  induction depth generalizing client end_ turn with
  | zero => exact ⟨fun call called => absurd called List.not_mem_nil, turn.server, rfl, fun value none => by cases none⟩
  | succ depth ih =>
    refine (recordDispatchOrRefuse_sound ih turn).map fun step => ?_
    obtain ⟨failure, turn⟩ := step
    cases failure <;> rfl

theorem recordUser_sound (depth : Nat) (server : Server) :
    (recordUser msg world depth server).Sound Turn.server server :=
  recordLoop_sound (recordSingle_sound depth .tcp) 1 ⟨server, 0, []⟩

/-! ### What a session can do -/

/-- The databases, the logins, the subscriptions and the state of the cluster. -/
def Server.guarded (s : Server) :=
  (s.dbs, s.logins, s.subscriptions, s.clusterKey, s.clusterId, s.peers, s.pending)

def administrative : List OperationT :=
  [.addUser, .editUser, .delUser, .reset, .bind, .unbind, .terminate, .clusterJoin, .clusterKey, .clusterId,
    .clusterLeave, .clusterNew]

theorem isPermitted_unknown {op : OperationT} (permitted : isPermitted op .unknown = true) :
    op = .ping ∨ op = .exit ∨ op = .auth ∨ op = .authLevel ∨ op = .peerAuth := by
  cases op <;> simp_all [isPermitted, unknownIsPermitted]

theorem isPermitted_user {op : OperationT} (permitted : isPermitted op .user = true) :
    op ∉ administrative ∧ op ≠ .auth ∧ op ≠ .peerAuth := by
  cases op <;> simp_all [isPermitted, userIsPermitted, administrative]

theorem requestAuth_guarded (username password : Str) (world : World) (s : Server) :
    (requestAuth username password world s).2.guarded = s.guarded := by
  unfold requestAuth sessionSetAuth
  repeat' split
  all_goals rfl

theorem requestPeerAuth_guarded (client : Client) (id : Int64) (key addr peerId : Str) (world : World) (s : Server)
    (refused : (requestPeerAuth client id key addr peerId world s).2.session.auth ≠ .peer) :
    (requestPeerAuth client id key addr peerId world s).2.guarded = s.guarded := by
  revert refused
  unfold requestPeerAuth
  repeat' split
  all_goals intro refused
  · rfl
  · rfl
  · rfl
  · rfl
  · exact absurd rfl refused

theorem request_guarded_unknown {client : Client} {op : OperationT} (args : Concrete op.arguments) (world : World)
    (s : Server) (permitted : isPermitted op .unknown = true) (first : op ≠ .auth) (second : op ≠ .peerAuth) :
    (request client op args world s).2.guarded = s.guarded := by
  rcases isPermitted_unknown permitted with rfl | rfl | rfl | rfl | rfl
  · rfl
  · simp only [request, requestExit]
    split <;> rfl
  · exact absurd rfl first
  · rfl
  · exact absurd rfl second

theorem request_level {client : Client} {op : OperationT} (args : Concrete op.arguments) (world : World) (s : Server)
    (single : op ≠ .pipe) (first : op ≠ .auth) (second : op ≠ .peerAuth) :
    (request client op args world s).2.session.auth = s.session.auth := by
  by_cases insists : op.insistsOnEnd = true
  · rcases OperationT.insistsOnEnd_iff.mp insists with rfl | rfl
    · simp only [request, requestExit]
      split <;> rfl
    · simp only [request, requestTerminate]
      split <;> rfl
  · exact (request_orderly client args (fun does => absurd does insists) single first second world s).2

namespace Invocation.Sound

variable {call : Invocation} (sound : call.Sound)

include sound

theorem guarded_or (unknown : call.before.session.auth = .unknown) :
    call.executed = .auth ∨ call.executed = .peerAuth ∨ call.after.guarded = call.before.guarded := by
  by_cases first : call.executed = .auth
  · exact .inl first
  · by_cases second : call.executed = .peerAuth
    · exact .inr (.inl second)
    · refine .inr (.inr ?_)
      rcases sound.runs with ⟨_, same⟩ | ⟨_, client, args, world, calls, after⟩
      · rw [same]
      · rw [after]
        exact request_guarded_unknown args world call.before (unknown ▸ sound.permitted) first second

theorem guarded_throughout (unknown : call.before.session.auth = .unknown)
    (still : call.after.session.auth = .unknown) : call.after.guarded = call.before.guarded := by
  rcases sound.runs with ⟨_, same⟩ | ⟨_, client, args, world, calls, after⟩
  · rw [same]
  · have permitted := sound.permitted
    rw [unknown] at permitted
    rw [after] at still ⊢
    generalize call.executed = op at args permitted still
    rcases isPermitted_unknown permitted with rfl | rfl | rfl | rfl | rfl
    · exact request_guarded_unknown args world call.before permitted (by decide) (by decide)
    · exact request_guarded_unknown args world call.before permitted (by decide) (by decide)
    · exact requestAuth_guarded ..
    · exact request_guarded_unknown args world call.before permitted (by decide) (by decide)
    · refine requestPeerAuth_guarded _ _ _ _ _ _ _ fun peer => ?_
      have level : (ClientAuth.peer) = .unknown := peer.symm.trans still
      cases level

theorem level_kept (user : call.before.session.auth = .user) : call.after.session.auth = .user := by
  have permitted := sound.permitted
  rw [user] at permitted
  obtain ⟨_, first, second⟩ := isPermitted_user permitted
  rcases sound.runs with ⟨_, same⟩ | ⟨single, client, args, world, calls, after⟩
  · rw [same, user]
  · rw [after, ← user]
    exact request_level args world call.before single first second

end Invocation.Sound

theorem Chained.user {first last : Server} {calls : List Invocation} (chained : Chained first calls last)
    (sound : ∀ call ∈ calls, call.Sound) (user : first.session.auth = .user) :
    ∀ call ∈ calls, call.before.session.auth = .user := by
  induction calls generalizing first with
  | nil => exact fun call called => absurd called List.not_mem_nil
  | cons call rest ih =>
    obtain ⟨rfl, chained⟩ := chained
    have next := (sound call List.mem_cons_self).level_kept user
    intro other member
    rcases List.mem_cons.mp member with rfl | later
    · exact user
    · exact ih chained (fun call called => sound call (List.mem_cons_of_mem _ called)) next other later

theorem Chained.guarded {first last : Server} {calls : List Invocation} (chained : Chained first calls last)
    (each : ∀ call ∈ calls, call.after.guarded = call.before.guarded) :
    (∀ call ∈ calls, call.after.guarded = first.guarded) ∧ last.guarded = first.guarded := by
  induction calls generalizing first with
  | nil =>
    obtain rfl := chained
    exact ⟨fun call called => absurd called List.not_mem_nil, rfl⟩
  | cons call rest ih =>
    obtain ⟨rfl, chained⟩ := chained
    have here := each call List.mem_cons_self
    obtain ⟨others, ends⟩ := ih chained fun call called => each call (List.mem_cons_of_mem _ called)
    refine ⟨fun other member => ?_, ends.trans here⟩
    rcases List.mem_cons.mp member with rfl | later
    · exact here
    · exact (others other later).trans here

/-- What holds of all handlers that are called for a message, however deep in pipes. -/
structure PermissionSound (msg : Str) (world : Nat → World) (depth : Nat) (server : Server) : Prop where
  erased : (recordUser msg world depth server).1 = handleUser msg world depth server
  permitted : ∀ call ∈ (recordUser msg world depth server).2,
    call.checked = call.executed ∧ isPermitted call.executed call.before.session.auth = true
  /-- The server changes in these handlers only. -/
  chained : ∃ last, Chained server (recordUser msg world depth server).2 last ∧
    ∀ turn, handleUser msg world depth server = some turn → turn.server = last
  unknown : ∀ call ∈ (recordUser msg world depth server).2, call.before.session.auth = .unknown →
    call.executed = .auth ∨ call.executed = .peerAuth ∨ call.after.guarded = call.before.guarded
  throughout : (∀ call ∈ (recordUser msg world depth server).2,
      call.before.session.auth = .unknown ∧ call.after.session.auth = .unknown) →
    (∀ call ∈ (recordUser msg world depth server).2, call.after.guarded = server.guarded) ∧
      ∀ turn, handleUser msg world depth server = some turn → turn.server.guarded = server.guarded
  user : server.session.auth = .user →
    ∀ call ∈ (recordUser msg world depth server).2, call.executed ∉ administrative

theorem permissions_sound (msg : Str) (world : Nat → World) (depth : Nat) (server : Server) :
    PermissionSound msg world depth server := by
  have recorded : (recordUser msg world depth server).Sound Turn.server server := recordUser_sound depth server
  obtain ⟨sound, last, chained, reaches⟩ := recorded
  have ends : ∀ turn, handleUser msg world depth server = some turn → turn.server = last :=
    fun turn handled => reaches turn ((recordUser_fst depth server).trans handled)
  refine ⟨recordUser_fst depth server, ?_, ⟨last, chained, ends⟩, ?_, ?_, ?_⟩
  · exact fun call called => ⟨(sound call called).same, (sound call called).permitted⟩
  · exact fun call called => (sound call called).guarded_or
  · intro unknown
    obtain ⟨calls, final⟩ := chained.guarded fun call called =>
      (sound call called).guarded_throughout (unknown call called).1 (unknown call called).2
    refine ⟨calls, fun turn handled => ?_⟩
    rw [ends turn handled, final]
  · intro user call called
    have permitted := (sound call called).permitted
    rw [chained.user sound user call called] at permitted
    exact (isPermitted_user permitted).1

end Vanity.Request
