import Vanity.Request.OneResponse

/-!
# Malformed requests in a pipe

The loop of a pipe goes on behind a malformed request, from where its extraction has stopped. The rest
of the pipe is answered by `BAD_REQUEST`s, and nothing more is done, exactly when every further reading
from there fails again.
-/

namespace Vanity.Request

open Db (Str)

/-- So many more readings, one from where the other has stopped, throw an `InvalidRequest`. -/
def Unreadable (auth : ClientAuth) (msg : Str) : Nat → Nat → Prop
  | 0, _ => True
  | count + 1, pos =>
    match reading auth msg (decide (count = 0)) pos with
    | .malformed (.invalidRequest _) stop => Unreadable auth msg count stop
    | _ => False

variable {msg : Str} {world : Nat → World} {auth : ClientAuth}

theorem Unreadable.rejected {count pos : Nat} (unreadable : Unreadable auth msg count pos) (world : Nat → World)
    (client : Client) {turn : Turn} (level : turn.server.session.auth = auth) (here : turn.pos = pos) :
    ∃ after rest, doHandle (doHandleSingle msg world 1 client) count turn = some after ∧
      after.server = turn.server ∧ after.sent = turn.sent ++ rest ∧ rest.length = count ∧
      ∀ response ∈ rest, response.isBadRequest = true := by
  induction count generalizing pos turn with
  | zero => exact ⟨turn, [], rfl, rfl, by simp, rfl, by simp⟩
  | succ count ih =>
    rw [Unreadable] at unreadable
    split at unreadable
    case h_2 => cases unreadable
    case h_1 why stop read =>
      let next := turn.respond (Failure.invalidRequest why).response stop
      have kept : next.server.session.auth = auth := level
      obtain ⟨after, rest, handled, same, sent, length, bad⟩ := ih unreadable kept rfl
      refine ⟨after, (Failure.invalidRequest why).response :: rest, ?_, same, ?_, by simp [length], ?_⟩
      · rw [doHandle_step, doHandleSingle_succ, level, here, read]
        exact handled
      · rw [sent]
        simp [next, Turn.respond]
      · intro response member
        rcases List.mem_cons.mp member with rfl | later
        · rfl
        · exact bad response later

/-- The first response to a request is a `BAD_REQUEST` only if it was not read. -/
theorem first_response {depth : Nat} {client : Client} {end_ : Bool} {turn after : Turn} (inside : turn.Inside auth)
    (handled : doHandleSingle msg world depth (.piped client) end_ turn = some after) :
    ∃ first others, turn.Adds after (first :: others) auth ∧
      (first.isBadRequest = true → ∃ why stop,
        reading auth msg end_ turn.pos = .malformed (.invalidRequest why) stop ∧
        after = turn.respond (Failure.invalidRequest why).response stop) := by
  cases depth with
  | zero => cases handled
  | succ depth =>
    rw [doHandleSingle_succ, inside.level] at handled
    cases read : reading auth msg end_ turn.pos with
    | malformed failure stop =>
      simp only [read, Option.some.injEq] at handled
      subst handled
      refine ⟨failure.response, [], inside.respond _ _, fun bad => ?_⟩
      cases failure with
      | invalidRequest why => exact ⟨why, stop, rfl, rfl⟩
      | exception what => cases bad
    | refused stop =>
      simp only [read, Option.some.injEq] at handled
      subst handled
      exact ⟨denied, [], inside.respond _ _, fun bad => by cases bad⟩
    | call op args stop =>
      obtain ⟨server, response, called, level, -, good⟩ := call_inside world client inside read
      simp only [read, called, Option.some.injEq] at handled
      subst handled
      exact ⟨response, [], ⟨rfl, level, inside.piping⟩, fun bad => by simp [good] at bad⟩
    | pipe len start =>
      simp only [read, Option.map_eq_some_iff] at handled
      obtain ⟨inner, body, closed⟩ := handled
      obtain ⟨parts, adds, -⟩ :=
        Faithful.each (faithful_one depth) len (.piped client) ⟨turn.server, start, []⟩ inner
          ⟨inside.level, inside.piping⟩ body
      obtain ⟨stop, others, same⟩ := Turn.close_eq msg end_ { inner with sent := turn.sent ++ [.agg len inner.sent] }
      rw [same] at closed
      subst closed
      exact ⟨.agg len inner.sent, others, ⟨by simp, adds.inside.level, inside.piping⟩, fun bad => by cases bad⟩

theorem unreadable_of_rejected {depth count : Nat} {client : Client} {turn after : Turn} {rest : List Response}
    (inside : turn.Inside auth)
    (handled : doHandle (doHandleSingle msg world depth (.piped client)) count turn = some after)
    (sent : after.sent = turn.sent ++ rest) (bad : ∀ response ∈ rest, response.isBadRequest = true) :
    Unreadable auth msg count turn.pos := by
  induction count generalizing turn rest with
  | zero => trivial
  | succ count ih =>
    rw [doHandle_step, Option.bind_eq_some_iff] at handled
    obtain ⟨mid, now, later⟩ := handled
    obtain ⟨first, others, adds, unread⟩ := first_response inside now
    obtain ⟨more, adds', -⟩ := Faithful.each (faithful_one depth) count client mid after adds.inside later
    have all : rest = first :: others ++ more := by
      rw [adds'.sent, adds.sent, List.append_assoc] at sent
      exact (List.append_cancel_left sent).symm
    obtain ⟨why, stop, read, rfl⟩ := unread (bad first (by simp [all]))
    have others : ∀ response ∈ more, response.isBadRequest = true := by
      intro response member
      apply bad
      rw [all]
      exact List.mem_append_right _ member
    have next := ih adds.inside later adds'.sent others
    rw [Unreadable, read]
    exact next

/-- What throws an `InvalidRequest` has not run a handler, unless it is a pipe that was to end the
message. -/
theorem dispatchOrRefuse_invalid {handle : Client → Bool → Turn → Option Turn} {client : Client} {end_ : Bool}
    {turn raised : Turn} {why : Str}
    (raises : dispatchOrRefuse msg world handle client end_ turn = some (some (.invalidRequest why), raised)) :
    (raised.server = turn.server ∧ raised.sent = turn.sent) ∨
      ∃ len start, reading turn.server.session.auth msg end_ turn.pos = .pipe len start := by
  have still : ∀ failure pos, some (turn.throw failure pos) = some (some (.invalidRequest why), raised) →
      raised.server = turn.server ∧ raised.sent = turn.sent := by
    intro failure pos thrown
    obtain ⟨-, rfl⟩ := Prod.mk.inj (Option.some.inj thrown)
    exact ⟨rfl, rfl⟩
  rw [dispatchOrRefuse] at raises
  cases peeked : peekOperation msg turn.pos with
  | thrown failure pos =>
    simp only [peeked] at raises
    exact .inl (still failure pos raises)
  | ok op pos =>
    simp only [peeked] at raises
    split at raises
    case isTrue permitted =>
      rw [dispatch] at raises
      cases got : getOperation msg pos with
      | thrown failure pos =>
        simp only [got] at raises
        exact .inl (still failure pos raises)
      | ok op pos =>
        simp only [got] at raises
        split at raises
        case isTrue piped =>
          rw [requestPipe] at raises
          cases length : getLen msg pos with
          | thrown failure pos =>
            simp only [length] at raises
            exact .inl (still failure pos raises)
          | ok len start =>
            refine .inr ⟨len, start, ?_⟩
            simp [reading, peeked, permitted, got, piped, length]
        case isFalse single =>
          cases args : getExact op.arguments (end_ || op.insistsOnEnd) msg pos with
          | thrown failure pos =>
            simp only [args] at raises
            exact .inl (still failure pos raises)
          | ok args pos =>
            -- a handler throws no `InvalidRequest`
            simp only [args, Turn.call] at raises
            split at raises <;> cases raises
    case isFalse refused =>
      split at raises
      case isTrue => cases raises
      case isFalse =>
        cases skip : dryDispatch false msg pos with
        | thrown failure pos =>
          simp only [skip] at raises
          exact .inl (still failure pos raises)
        | ok value pos =>
          simp only [skip] at raises
          cases raises

theorem handleFirst_inside {depth count : Nat} {client : Client} {turn after : Turn} (inside : turn.Inside auth)
    (handled : handleFirst (doHandleSingle msg world depth (.piped client) false) count turn = some after) :
    after.Inside auth := by
  induction count generalizing turn with
  | zero =>
    obtain rfl := Option.some.inj handled
    exact inside
  | succ count ih =>
    rw [handleFirst, Option.bind_eq_some_iff] at handled
    obtain ⟨mid, now, later⟩ := handled
    obtain ⟨responses, adds, -⟩ := faithful_one depth false client turn mid inside now
    exact ih adds.inside later

/-- Behind the response to the request that has failed, the aggregate has `BAD_REQUEST`s only, and the
server is left as it was then. Unless that request was a pipe itself, this is how the requests in front
of it have left it. -/
def PoisonsRest (msg : Str) (world : Nat → World) (server : Server) (len index : Nat) (before raised : Turn)
    (why : Str) : Prop :=
  ∃ depth turn rest others, handleUser msg world depth server = some turn ∧
    turn.sent = .agg len (raised.sent ++ (Failure.invalidRequest why).response :: rest) :: others ∧
    rest.length = len - (index + 1) ∧ (∀ response ∈ rest, response.isBadRequest = true) ∧
    turn.server = raised.server ∧
    ((turn.server = before.server ∧ raised.sent = before.sent) ∨
      ∃ inner start, reading server.session.auth msg (decide (index + 1 = len)) before.pos = .pipe inner start)

def Response.parts : Response → List Response
  | .agg _ parts => parts
  | _ => []

end Vanity.Request
