import Vanity.Request.Handling

/-!
# One response for each request

A request is answered once, unless it is a `PIPE` that is to end the message and does not: `dispatch`
looks for the end after the aggregate has been written, and its exception is answered as well.
`Answered` follows the positions at which the server reads a message and says that this does not
happen. It looks at the bytes and at the authentication level only, and a message whose pipes nest
without end has no derivation.
-/

namespace Vanity.Request

open Db (Str)

/-- What is handled: one request, which may have to end the message, or the body of a pipe. -/
inductive Scope where
  | one (end_ : Bool)
  | each (len : Nat)

def Scope.count : Scope → Nat
  | .one _ => 1
  | .each len => len

/-- Reading from the first position to the second, no pipe stops short of an end of the message that
it has to reach. -/
inductive Answered (auth : ClientAuth) (msg : Str) : Scope → Nat → Nat → Prop where
  | malformed {end_ : Bool} {pos stop : Nat} {failure : Failure} :
    reading auth msg end_ pos = .malformed failure stop → Answered auth msg (.one end_) pos stop
  | refused {end_ : Bool} {pos stop : Nat} :
    reading auth msg end_ pos = .refused stop → Answered auth msg (.one end_) pos stop
  | call {end_ : Bool} {pos stop : Nat} {op : OperationT} {args : Concrete op.arguments} :
    reading auth msg end_ pos = .call op args stop → Answered auth msg (.one end_) pos stop
  | pipe {end_ : Bool} {pos start last stop len : Nat} :
    reading auth msg end_ pos = .pipe len start → Answered auth msg (.each len) start last →
    ensureEndIf end_ msg last = .ok () stop → Answered auth msg (.one end_) pos stop
  | empty {pos : Nat} : Answered auth msg (.each 0) pos pos
  | last {pos stop : Nat} : Answered auth msg (.one true) pos stop → Answered auth msg (.each 1) pos stop
  | more {pos mid stop len : Nat} :
    Answered auth msg (.one false) pos mid → Answered auth msg (.each (len + 1)) mid stop →
    Answered auth msg (.each (len + 2)) pos stop

namespace Response

theorem allExact_append {first second : List Response} :
    AllExact (first ++ second) ↔ AllExact first ∧ AllExact second := by
  induction first with
  | nil => simp [AllExact]
  | cons part parts ih => simp [AllExact, ih, and_assoc]

@[simp] theorem allExact_singleton {response : Response} : AllExact [response] ↔ response.Exact := by
  simp [AllExact]

@[simp] theorem failure_exact (failure : Failure) : failure.response.Exact := by
  cases failure <;> simp [Failure.response, badRequest, internalError, Exact]

@[simp] theorem denied_exact : denied.Exact := by simp [denied, Exact]

end Response

variable {msg : Str} {world : Nat → World} {auth : ClientAuth}

def Scope.handle (msg : Str) (world : Nat → World) (depth : Nat) (client : Client) : Scope → Turn → Option Turn
  | .one end_ => doHandleSingle msg world depth client end_
  | .each len => doHandle (doHandleSingle msg world depth client) len

theorem Scope.handle_mono {scope : Scope} {depth more : Nat} {client : Client} {turn after : Turn}
    (deeper : depth ≤ more) (handled : scope.handle msg world depth client turn = some after) :
    scope.handle msg world more client turn = some after := by
  cases scope with
  | one end_ => exact doHandleSingle_mono deeper handled
  | each len => exact doHandle_mono (fun _ _ _ => doHandleSingle_mono deeper) handled

/-- The handling has added these responses and stayed inside the pipe. -/
structure Turn.Adds (turn after : Turn) (responses : List Response) (auth : ClientAuth) : Prop where
  sent : after.sent = turn.sent ++ responses
  inside : after.Inside auth

theorem Turn.Adds.trans {turn mid after : Turn} {first second : List Response}
    (earlier : turn.Adds mid first auth) (later : mid.Adds after second auth) :
    turn.Adds after (first ++ second) auth where
  sent := by rw [later.sent, earlier.sent, List.append_assoc]
  inside := later.inside

theorem Turn.Inside.respond {turn : Turn} (inside : turn.Inside auth) (response : Response) (pos : Nat) :
    turn.Adds (turn.respond response pos) [response] auth :=
  ⟨rfl, inside.level, inside.piping⟩

theorem Turn.close_ok {inner : Turn} {end_ : Bool} {stop : Nat} (sent : List Response)
    (ended : ensureEndIf end_ msg inner.pos = .ok () stop) :
    ({ inner with sent } : Turn).close end_ msg = ⟨inner.server, stop, sent⟩ := by
  rw [Turn.close, ended]

theorem Turn.close_thrown {inner : Turn} {end_ : Bool} {stop : Nat} {failure : Failure} (sent : List Response)
    (ended : ensureEndIf end_ msg inner.pos = .thrown failure stop) :
    ({ inner with sent } : Turn).close end_ msg = ⟨inner.server, stop, sent ++ [failure.response]⟩ := by
  rw [Turn.close, ended]

/-! ### What is answered -/

theorem Answered.handled {scope : Scope} {pos stop : Nat} (answered : Answered auth msg scope pos stop)
    (world : Nat → World) :
    ∃ depth, ∀ client turn, turn.Inside auth → turn.pos = pos → ∃ after responses,
      scope.handle msg world depth (.piped client) turn = some after ∧ after.pos = stop ∧
      turn.Adds after responses auth ∧ responses.length = scope.count ∧ Response.AllExact responses := by
  induction answered with
  | malformed read =>
    rename_i end_ pos stop failure
    refine ⟨1, fun client turn inside here => ⟨turn.respond failure.response stop, [failure.response], ?_⟩⟩
    simp only [Scope.handle, doHandleSingle_succ, inside.level, here, read]
    exact ⟨trivial, rfl, inside.respond _ _, rfl, by simp⟩
  | refused read =>
    rename_i end_ pos stop
    refine ⟨1, fun client turn inside here => ⟨turn.respond denied stop, [denied], ?_⟩⟩
    simp only [Scope.handle, doHandleSingle_succ, inside.level, here, read]
    exact ⟨trivial, rfl, inside.respond _ _, rfl, by simp⟩
  | call read =>
    rename_i end_ pos stop op args
    refine ⟨1, fun client turn inside here => ?_⟩
    subst here
    obtain ⟨server, response, handled, level, exact_, -⟩ := call_inside world client inside read
    refine ⟨⟨server, stop, turn.sent ++ [response]⟩, [response], ?_⟩
    simp only [Scope.handle, doHandleSingle_succ, inside.level, read]
    exact ⟨congrArg some handled, trivial, ⟨rfl, level, inside.piping⟩, rfl, by simpa using exact_⟩
  | pipe read body ended ih =>
    rename_i end_ pos start last stop len
    obtain ⟨depth, ih⟩ := ih
    refine ⟨depth + 1, fun client turn inside here => ?_⟩
    obtain ⟨inner, responses, handled, at_, adds, count, exact_⟩ :=
      ih (.piped client) { turn with pos := start, sent := [] } ⟨inside.level, inside.piping⟩ rfl
    have parts : inner.sent = responses := adds.sent
    subst at_
    refine ⟨⟨inner.server, stop, turn.sent ++ [.agg len inner.sent]⟩, [.agg len inner.sent], ?_, rfl,
      ⟨rfl, adds.inside.level, inside.piping⟩, rfl, ?_⟩
    · simp only [Scope.handle] at handled
      simp only [Scope.handle, doHandleSingle_succ, inside.level, here, read, handled, Option.map_some]
      rw [Turn.close_ok _ ended]
    · rw [Response.allExact_singleton, parts]
      exact ⟨count, exact_⟩
  | empty => exact ⟨0, fun client turn inside here => ⟨turn, [], rfl, here, ⟨by simp, inside⟩, rfl, trivial⟩⟩
  | last one ih => exact ih
  | more one rest first second =>
    obtain ⟨d, first⟩ := first
    obtain ⟨e, second⟩ := second
    refine ⟨max d e, fun client turn inside here => ?_⟩
    obtain ⟨mid, firsts, handled, at_, adds, count, exact_⟩ := first client turn inside here
    obtain ⟨after, others, handled', at_', adds', count', exact_'⟩ := second client mid adds.inside at_
    refine ⟨after, firsts ++ others, ?_, at_', adds.trans adds', ?_, Response.allExact_append.mpr ⟨exact_, exact_'⟩⟩
    · have now := Scope.handle_mono (Nat.le_max_left d e) handled
      have then_ := Scope.handle_mono (Nat.le_max_right d e) handled'
      simp only [Scope.handle] at now then_ ⊢
      rw [doHandle, now, Option.bind_some, then_]
    · rw [List.length_append, count, count']
      simp only [Scope.count]
      omega

/-! ### What has been answered -/

/-- Handling adds a response for each request at least, and if it adds no more then the message is
answered. -/
def Faithful (msg : Str) (world : Nat → World) (auth : ClientAuth) (depth : Nat) (scope : Scope) : Prop :=
  ∀ client turn after, turn.Inside auth → scope.handle msg world depth (.piped client) turn = some after →
    ∃ responses, turn.Adds after responses auth ∧ scope.count ≤ responses.length ∧
      (responses.length = scope.count → Response.AllExact responses → Answered auth msg scope turn.pos after.pos)

theorem Faithful.each {depth : Nat} (one : ∀ end_, Faithful msg world auth depth (.one end_)) (len : Nat) :
    Faithful msg world auth depth (.each len) := by
  induction len with
  | zero =>
    intro client turn after inside handled
    obtain rfl := Option.some.inj handled
    exact ⟨[], ⟨by simp, inside⟩, Nat.le_refl _, fun _ _ => .empty⟩
  | succ len ih =>
    intro client turn after inside handled
    cases len with
    | zero =>
      obtain ⟨responses, adds, count, tight⟩ := one true client turn after inside handled
      exact ⟨responses, adds, count, fun same exact_ => .last (tight same exact_)⟩
    | succ len =>
      rw [Scope.handle, doHandle, Option.bind_eq_some_iff] at handled
      obtain ⟨mid, first, rest⟩ := handled
      obtain ⟨firsts, adds, count, tight⟩ := one false client turn mid inside first
      obtain ⟨others, adds', count', tight'⟩ := ih client mid after adds.inside rest
      simp only [Scope.count] at count count' tight tight' ⊢
      refine ⟨firsts ++ others, adds.trans adds', by simp; omega, fun same exact_ => ?_⟩
      rw [List.length_append] at same
      obtain ⟨exactFirst, exactRest⟩ := Response.allExact_append.mp exact_
      exact .more (tight (by omega) exactFirst) (tight' (by omega) exactRest)

theorem faithful_one (depth : Nat) (end_ : Bool) : Faithful msg world auth depth (.one end_) := by
  induction depth generalizing end_ with
  | zero =>
    intro client turn after inside handled
    cases handled
  | succ depth ih =>
    intro client turn after inside handled
    simp only [Scope.handle, doHandleSingle_succ, inside.level] at handled
    cases read : reading auth msg end_ turn.pos with
    | malformed failure pos =>
      simp only [read, Option.some.injEq] at handled
      subst handled
      exact ⟨_, inside.respond _ _, Nat.le_refl 1, fun _ _ => .malformed read⟩
    | refused pos =>
      simp only [read, Option.some.injEq] at handled
      subst handled
      exact ⟨_, inside.respond _ _, Nat.le_refl 1, fun _ _ => .refused read⟩
    | call op args pos =>
      obtain ⟨server, response, called, level, -⟩ := call_inside world client inside read
      simp only [read, called, Option.some.injEq] at handled
      subst handled
      exact ⟨[response], ⟨rfl, level, inside.piping⟩, Nat.le_refl 1, fun _ _ => .call read⟩
    | pipe len pos =>
      simp only [read, Option.map_eq_some_iff] at handled
      obtain ⟨inner, body, closed⟩ := handled
      obtain ⟨parts, adds, count, tight⟩ :=
        Faithful.each ih len (.piped client) { turn with pos, sent := [] } inner ⟨inside.level, inside.piping⟩ body
      have inSent : inner.sent = parts := adds.sent
      cases ended : ensureEndIf end_ msg inner.pos with
      | ok value stop =>
        rw [Turn.close_ok _ ended] at closed
        subst closed
        refine ⟨[.agg len inner.sent], ⟨rfl, adds.inside.level, inside.piping⟩, Nat.le_refl 1, fun _ exact_ => ?_⟩
        rw [Response.allExact_singleton, Response.Exact, inSent] at exact_
        exact .pipe read (tight exact_.1 exact_.2) ended
      | thrown failure stop =>
        rw [Turn.close_thrown _ ended] at closed
        subst closed
        refine ⟨[.agg len inner.sent, failure.response], ⟨?_, adds.inside.level, inside.piping⟩, by simp [Scope.count],
          fun same => ?_⟩
        · simp
        · simp [Scope.count] at same

/-! ### Messages -/

/-- Handling the message comes to an end, has written one response, and every aggregate in it has as many
parts as its pipe has requests. -/
def OneResponse (msg : Str) (world : Nat → World) (server : Server) : Prop :=
  ∃ depth turn response, handleUser msg world depth server = some turn ∧ turn.sent = [response] ∧ response.Exact

end Vanity.Request
