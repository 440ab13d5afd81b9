import Vanity.Library.Runs
import Vanity.Request.Permissions

/-!
# Sessions of users that were deleted

Any number of sessions whose messages are handled one after the other. The level that permits an operation
is the one that the session got when it authenticated, and `request_del_user` looks at no session but its
own. So a session of a deleted user ends at none of its messages, and what it sends is not executed only if
it would not be executed for any session of its level.
-/

namespace Vanity.Request

open Db (Str)

/-- What became of a message. -/
structure Handled where
  /-- The user of the session had been deleted since the session authenticated. -/
  deleted : Bool
  calls : List Invocation
  before : Server
  after : Server

structure Sessions where
  server : Server
  session : Nat → Option SessionInfo
  /-- The user of a session who was deleted while it was open, and has not been added again. -/
  deleted : Nat → Option Str
  handled : List Handled

inductive SessionEvent where
  | connect (address : Nat)
  | disconnect (address : Nat)
  | message (address : Nat) (msg : Str) (world : Nat → World) (depth : Nat)

def SessionInfo.username (session : SessionInfo) : Option Str :=
  match session.data with
  | .user data => some data.username
  | _ => none

/-- A `DEL_USER` of this user that is acknowledged. -/
def Invocation.deletes (world : Nat → World) (call : Invocation) (username : Str) : Bool :=
  decide (call.executed = .delUser ∧ username ∈ call.before.logins ∧ username ∉ call.after.logins) &&
    (world call.before.calls).persistLogins.isOk

/-- The deletion that a session is left with by a call, from the one it had before. -/
def Invocation.mark (world : Nat → World) (username deleted : Option Str) (call : Invocation) : Option Str :=
  (username.filter fun user => call.deletes world user).or
    (deleted.filter fun user => decide (user ∉ call.after.logins))

namespace Sessions

def set {α : Type} (f : Nat → α) (address : Nat) (value : α) : Nat → α := fun a => if a = address then value else f a

-- the messages of peers are handled elsewhere and change neither databases nor logins
def step (s : Sessions) : SessionEvent → Option Sessions
  | .connect address =>
    match s.session address with
    | some _ => none
    | none => some { s with session := set s.session address (some {}), deleted := set s.deleted address none }
  | .disconnect address =>
    some { s with session := set s.session address none, deleted := set s.deleted address none }
  | .message address msg world depth =>
    match s.session address with
    | none => none
    | some session =>
      if session.auth = .peer then some s
      else
        let before := { s.server with session }
        match recordUser msg world depth before with
        | (none, _) => none
        | (some turn, calls) =>
          some
            { server := turn.server
              session := set s.session address (some turn.server.session)
              deleted := fun a =>
                calls.foldl (fun deleted call => call.mark world ((s.session a).bind SessionInfo.username) deleted)
                  (s.deleted a)
              handled := s.handled ++ [⟨(s.deleted address).isSome, calls, before, turn.server⟩] }

def start (server : Server) : Sessions where
  server
  session _ := none
  deleted _ := none
  handled := []

/-- Nothing was executed for a session whose user had been deleted. -/
def Ended (s : Sessions) : Prop :=
  ∀ message ∈ s.handled, message.deleted = true →
    message.calls = [] ∧ message.after.dbs = message.before.dbs ∧ message.after.logins = message.before.logins

end Sessions

/-- The request of a message is one that is executed at this level: the level permits its operation, and the
operation is a pipe or its objects can be read. -/
def Executes (auth : ClientAuth) (msg : Str) : Prop :=
  ∃ op start after, peekOperation msg 0 = .ok op start ∧ isPermitted op auth = true ∧
    getOperation msg start = .ok op after ∧
      (op = .pipe ∨ ∃ args stop, getExact op.arguments true msg after = .ok args stop)

namespace Sessions

/-- The message is not one of a deleted user that would be executed for anyone else. -/
def Refused (s : Sessions) : SessionEvent → Prop
  | .message address msg _ _ =>
    ∀ session, s.session address = some session → session.auth ≠ .peer → s.deleted address ≠ none →
      ¬Executes session.auth msg
  | _ => True

end Sessions

/-! ### Messages that are not executed -/

variable {msg : Str} {world : Nat → World} {depth : Nat} {server : Server}

theorem recordDispatchOrRefuse_calls {record : Client → Bool → Turn → Recorded Turn} {client : Client} {turn : Turn}
    (front : turn.pos = 0) :
    (recordDispatchOrRefuse msg world record client true turn).2 = [] ↔ ¬Executes turn.server.session.auth msg := by
  unfold recordDispatchOrRefuse
  rw [front]
  cases peeked : peekOperation msg 0 with
  | thrown failure start =>
    refine iff_of_true rfl ?_
    rintro ⟨op, start, after, seen, -⟩
    rw [peeked] at seen
    cases seen
  | ok op start =>
    have seen : ∀ other first, peekOperation msg 0 = .ok other first → other = op ∧ first = start := by
      intro other first again
      rw [peeked] at again
      obtain ⟨rfl, rfl⟩ := Extracted.ok.inj again
      exact ⟨rfl, rfl⟩
    by_cases permitted : isPermitted op turn.server.session.auth = true
    · obtain ⟨after, got⟩ := getOperation_of_peek peeked
      simp only [if_pos permitted, recordDispatch, got]
      by_cases piped : op = .pipe
      · simp only [if_pos piped]
        refine iff_of_false (List.cons_ne_nil _ _) (not_not.mpr ⟨op, start, after, peeked, permitted, got, .inl piped⟩)
      · simp only [if_neg piped, Bool.true_or]
        cases read : getExact op.arguments true msg after with
        | thrown failure stop =>
          refine iff_of_true rfl ?_
          rintro ⟨other, first, behind, again, -, gotAgain, reads⟩
          obtain ⟨rfl, rfl⟩ := seen other first again
          rw [got] at gotAgain
          obtain ⟨-, rfl⟩ := Extracted.ok.inj gotAgain
          rcases reads with pipe | ⟨args, stop, reads⟩
          · exact piped pipe
          · rw [read] at reads
            cases reads
        | ok args stop =>
          refine iff_of_false (List.cons_ne_nil _ _)
            (not_not.mpr ⟨op, start, after, peeked, permitted, got, .inr ⟨args, stop, read⟩⟩)
    · simp only [if_neg permitted, if_true]
      refine iff_of_true trivial ?_
      rintro ⟨other, first, -, again, allowed, -⟩
      obtain ⟨rfl, rfl⟩ := seen other first again
      exact permitted allowed

/-- No handler runs for a message if and only if its request is not one that is executed. -/
theorem recordUser_calls {result : Option Turn} {calls : List Invocation} (reached : result ≠ none)
    (recorded : recordUser msg world depth server = (result, calls)) :
    calls = [] ↔ ¬Executes server.session.auth msg := by
  cases depth with
  | zero =>
    obtain ⟨rfl, -⟩ := Prod.mk.inj recorded
    exact absurd rfl reached
  | succ depth =>
    obtain ⟨-, rfl⟩ := Prod.mk.inj recorded
    have front : (⟨server, 0, []⟩ : Turn).pos = 0 := rfl
    exact recordDispatchOrRefuse_calls front

/-- A message for which no handler runs leaves the server as it is. -/
theorem recordUser_idle {turn : Turn} (recorded : recordUser msg world depth server = (some turn, [])) :
    turn.server = server := by
  have sound : (recordUser msg world depth server).Sound Turn.server server := recordUser_sound depth server
  rw [recorded] at sound
  obtain ⟨last, chained, reaches⟩ := sound.chained
  rw [reaches turn rfl]
  exact chained

/-! ### Runs -/

namespace Sessions

variable {s t : Sessions}

theorem step_ended {event : SessionEvent} (ended : Ended s) (taken : step s event = some t) :
    Ended t ↔ Refused s event := by
  cases event with
  | connect address =>
    simp only [step] at taken
    split at taken
    · cases taken
    · obtain rfl := Option.some.inj taken
      exact iff_of_true ended trivial
  | disconnect address =>
    obtain rfl := Option.some.inj taken
    exact iff_of_true ended trivial
  | message address msg world depth =>
    simp only [step] at taken
    split at taken
    · cases taken
    · rename_i session open_
      split at taken
      · rename_i peer
        obtain rfl := Option.some.inj taken
        refine iff_of_true ended ?_
        intro other same user
        rw [open_] at same
        obtain rfl := Option.some.inj same
        exact absurd peer user
      · rename_i user
        split at taken
        · cases taken
        · rename_i turn calls recorded
          obtain rfl := Option.some.inj taken
          have executed := recordUser_calls (by simp) recorded
          constructor
          · intro after other same _ deleted
            rw [open_] at same
            obtain rfl := Option.some.inj same
            have last := after _ (List.mem_append_right _ (List.mem_singleton.mpr rfl))
            exact executed.mp (last (Option.isSome_iff_ne_none.mpr deleted)).1
          · intro refused message member deleted
            rcases List.mem_append.mp member with early | late
            · exact ended message early deleted
            · obtain rfl := List.mem_singleton.mp late
              obtain rfl := executed.mpr (refused session open_ user (Option.isSome_iff_ne_none.mp deleted))
              have same := recordUser_idle recorded
              exact ⟨rfl, congrArg Server.dbs same, congrArg Server.logins same⟩

/-- In a run nothing is executed for the sessions of deleted users if and only if none of them sends what
would be executed for any session of its level. -/
theorem deleted_users_idle_iff (server : Server) (events : List SessionEvent) :
    EachState step Ended events (start server) ↔ EachStep step Refused events (start server) := by
  have always : ∀ (s : Sessions) (event : SessionEvent) (t : Sessions), True → step s event = some t → True :=
    fun _ _ _ _ _ => trivial
  apply eachState_iff always
  · exact fun s event t _ ended taken => step_ended ended taken
  · trivial
  · exact fun message member => absurd member List.not_mem_nil

def twoUsers : Server :=
  { Server.empty .unknown with
    logins := ((∅ : Table Str AuthInfo).insert (ascii "root") ⟨ascii "password", .admin⟩).insert (ascii "user")
      ⟨ascii "password", .user⟩ }

noncomputable def deletion : List SessionEvent :=
  [.connect 0, .connect 1, .message 0 (ascii "AUTH(4)root(8)password") (fun _ => .still) 1,
    .message 1 (ascii "AUTH(4)user(8)password") (fun _ => .still) 1,
    .message 0 (ascii "DEL_USER(4)user") (fun _ => .still) 1,
    .message 1 (ascii "STR_SET(3)key(5)value") (fun _ => .still) 1]

/-- The session of a user who has been deleted sets a key. -/
theorem deleted_user_sets_key : ¬EachState step Ended deletion (start twoUsers) := by
  intro each
  have seen : (runAll step deletion (start twoUsers)).map (fun s => s.handled.map fun message =>
      (message.deleted, message.calls.map Invocation.executed)) =
      some [(false, [.auth]), (false, [.auth]), (false, [.delUser]), (true, [.strSet])] := by
    decide +kernel
  obtain ⟨last, runs, messages⟩ := Option.map_eq_some_iff.mp seen
  have ended := eachState_last each runs
  obtain ⟨message, member, shown⟩ := List.mem_map.mp (messages ▸ List.mem_of_getLast? rfl :
    (true, [OperationT.strSet]) ∈ last.handled.map fun message => (message.deleted, message.calls.map Invocation.executed))
  obtain ⟨deleted, executed⟩ := Prod.mk.inj shown
  rw [(ended message member deleted).1] at executed
  cases executed

end Sessions

end Vanity.Request
