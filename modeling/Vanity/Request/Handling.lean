import Vanity.Request.Answers

/-!
# Handling a message

Facts about `do_handle` that hold for every message: more depth does not change what a message that has
been handled comes to, the loop is a number of requests and a last one, and inside a pipe the
authentication level stays as it is, because the levels that may send a `PIPE` may not send `AUTH` or
`PEER_AUTH`.
-/

namespace Vanity.Request

open Db (Str)

/-! ### The loop -/

def handleFirst (single : Turn → Option Turn) : Nat → Turn → Option Turn
  | 0, turn => some turn
  | count + 1, turn => (single turn).bind (handleFirst single count)

variable {single other : Bool → Turn → Option Turn}

theorem doHandle_step (count : Nat) (turn : Turn) :
    doHandle single (count + 1) turn = (single (decide (count = 0)) turn).bind (doHandle single count) := by
  cases count with
  | zero =>
    change single true turn = (single true turn).bind some
    cases single true turn <;> rfl
  | succ count => rfl

theorem doHandle_split (first count : Nat) (turn : Turn) :
    doHandle single (first + (count + 1)) turn =
      (handleFirst (single false) first turn).bind (doHandle single (count + 1)) := by
  induction first generalizing turn with
  | zero => rw [Nat.zero_add, handleFirst, Option.bind_some]
  | succ first ih =>
    rw [show first + 1 + (count + 1) = first + count + 2 by omega, doHandle, handleFirst, Option.bind_assoc]
    congr 1
    funext next
    exact ih next

theorem doHandle_mono (more : ∀ end_ turn after, single end_ turn = some after → other end_ turn = some after)
    {len : Nat} {turn after : Turn} (handled : doHandle single len turn = some after) :
    doHandle other len turn = some after := by
  induction len generalizing turn with
  | zero => exact handled
  | succ len ih =>
    cases len with
    | zero => exact more _ _ _ handled
    | succ len =>
      rw [doHandle, Option.bind_eq_some_iff] at handled
      obtain ⟨mid, first, rest⟩ := handled
      rw [doHandle, more _ _ _ first, Option.bind_some, ih rest]

theorem handleFirst_mono {step step' : Turn → Option Turn}
    (more : ∀ turn after, step turn = some after → step' turn = some after) {count : Nat} {turn after : Turn}
    (handled : handleFirst step count turn = some after) : handleFirst step' count turn = some after := by
  induction count generalizing turn with
  | zero => exact handled
  | succ count ih =>
    rw [handleFirst, Option.bind_eq_some_iff] at handled
    obtain ⟨mid, first, rest⟩ := handled
    rw [handleFirst, more _ _ first, Option.bind_some, ih rest]

/-! ### Depth -/

variable {msg : Str} {world : Nat → World}

theorem doHandleSingle_mono {depth more : Nat} (deeper : depth ≤ more) {client : Client} {end_ : Bool}
    {turn after : Turn} (handled : doHandleSingle msg world depth client end_ turn = some after) :
    doHandleSingle msg world more client end_ turn = some after := by
  induction depth generalizing more client end_ turn after with
  | zero => cases handled
  | succ depth ih =>
    obtain ⟨more, rfl⟩ : ∃ less, more = less + 1 := ⟨more - 1, by omega⟩
    rw [doHandleSingle_succ] at handled ⊢
    cases read : reading turn.server.session.auth msg end_ turn.pos with
    | malformed failure pos => simpa only [read] using handled
    | refused pos => simpa only [read] using handled
    | call op args pos => simpa only [read] using handled
    | pipe len pos =>
      simp only [read, Option.map_eq_some_iff] at handled ⊢
      obtain ⟨inner, body, closed⟩ := handled
      exact ⟨inner, doHandle_mono (fun _ _ _ => ih (by omega)) body, closed⟩

theorem handleUser_mono {depth more : Nat} (deeper : depth ≤ more) {server : Server} {turn : Turn}
    (handled : handleUser msg world depth server = some turn) : handleUser msg world more server = some turn :=
  doHandleSingle_mono deeper handled

theorem handleUser_unique {depth other : Nat} {server : Server} {turn after : Turn}
    (first : handleUser msg world depth server = some turn) (second : handleUser msg world other server = some after) :
    turn = after := by
  have here := handleUser_mono (Nat.le_max_left depth other) first
  rw [handleUser_mono (Nat.le_max_right depth other) second] at here
  exact (Option.some.inj here).symm

/-! ### Permissions -/

/-- `get_operation` reads the operation that `peek_operation` has seen. -/
theorem getOperation_of_peek {op : OperationT} {pos stop : Nat} (peeked : peekOperation msg pos = .ok op stop) :
    ∃ after, getOperation msg stop = .ok op after := by
  rw [peekOperation, peekFromList_apply] at peeked
  cases found : findFrom operationStrings (msg.drop (skipped msg pos)) with
  | none => simp [found] at peeked
  | some entry =>
    obtain ⟨value, name⟩ := entry
    simp only [found] at peeked
    obtain ⟨rfl, rfl⟩ := Extracted.ok.inj peeked
    obtain ⟨listed, behind, here⟩ := findFrom_some found
    obtain ⟨some_, letters⟩ := operationStrings_letters _ listed
    have still : (msg.drop (skipped msg pos)).takeWhile isSpace = [] := by
      cases name with
      | nil => exact absurd rfl some_
      | cons c name =>
        have visible := isSpace_of_letter (letters c (by simp))
        rw [here, List.cons_append, List.takeWhile_cons_of_neg (by simp [visible])]
    have fixed : skipped msg (skipped msg pos) = skipped msg pos := by
      rw [skipped, still, List.length_nil, Nat.add_zero, skipped, Nat.mod_mod]
    refine ⟨(skipped msg pos + name.length) % maxSizeT, ?_⟩
    rw [getOperation, getFromList_apply, fixed, found]

theorem reading_call {auth : ClientAuth} {end_ : Bool} {pos stop : Nat} {op : OperationT}
    {args : Concrete op.arguments} (read : reading auth msg end_ pos = .call op args stop) :
    isPermitted op auth = true ∧ op ≠ .pipe ∧ ∃ start, peekOperation msg pos = .ok op start := by
  rw [reading] at read
  cases peeked : peekOperation msg pos with
  | thrown failure start => simp [peeked] at read
  | ok seen start =>
    obtain ⟨after, got⟩ := getOperation_of_peek peeked
    simp only [peeked, got] at read
    split at read
    · rename_i permitted
      split at read
      · split at read <;> cases read
      · rename_i single
        split at read
        · cases read
        · obtain ⟨rfl, -⟩ := Reading.call.inj read
          exact ⟨permitted, single, start, rfl⟩
    · split at read
      · cases read
      · split at read <;> cases read

theorem reading_pipe {auth : ClientAuth} {end_ : Bool} {pos stop len : Nat}
    (read : reading auth msg end_ pos = .pipe len stop) : isPermitted .pipe auth = true := by
  rw [reading] at read
  cases peeked : peekOperation msg pos with
  | thrown failure start => simp [peeked] at read
  | ok seen start =>
    obtain ⟨after, got⟩ := getOperation_of_peek peeked
    simp only [peeked, got] at read
    split at read
    · rename_i permitted
      split at read
      · rename_i piped
        rwa [piped] at permitted
      · split at read <;> cases read
    · split at read
      · cases read
      · split at read <;> cases read

theorem isPermitted_pipe_excludes {auth : ClientAuth} (permitted : isPermitted .pipe auth = true) :
    isPermitted .auth auth = false ∧ isPermitted .peerAuth auth = false := by
  cases auth with
  | unknown => cases permitted
  | user | peer | admin => exact ⟨rfl, rfl⟩

/-! ### Inside a pipe -/

/-- The level of the session, which lets it send pipes. -/
structure Turn.Inside (turn : Turn) (auth : ClientAuth) : Prop where
  level : turn.server.session.auth = auth
  piping : isPermitted .pipe auth = true

/-- A request that was dispatched has one response, which is no `BAD_REQUEST`. -/
theorem call_answers (world : Nat → World) (client : Client) (turn : Turn) {op : OperationT}
    (args : Concrete op.arguments) (stop : Nat) (answered : op.insistsOnEnd = true → client.isPiped = true)
    (single : op ≠ .pipe) :
    ∃ response,
      caught (turn.call (request client op args) world stop) =
        ⟨{ (request client op args (world turn.server.calls) turn.server).2 with calls := turn.server.calls + 1 },
          stop, turn.sent ++ [response]⟩ ∧
      response.Exact ∧ response.isBadRequest = false := by
  have proper := request_proper client args answered single (world turn.server.calls) turn.server
  rw [caught_call]
  generalize request client op args (world turn.server.calls) turn.server = outcome at proper ⊢
  obtain ⟨answer, server⟩ := outcome
  cases answer with
  | sent response =>
    refine ⟨response, rfl, ?_⟩
    cases response with
    | plain status payload =>
      refine ⟨trivial, ?_⟩
      cases status <;> first | rfl | exact absurd rfl proper
    | reply => exact ⟨trivial, rfl⟩
    | later | agg => cases proper
  | silent => cases proper
  | later => exact ⟨.later, rfl, trivial, rfl⟩
  | thrown what => exact ⟨internalError what, rfl, trivial, rfl⟩

/-- Inside a pipe the level is kept as well. -/
theorem call_inside (world : Nat → World) (client : Client) {auth : ClientAuth} {end_ : Bool} {turn : Turn}
    {op : OperationT} {args : Concrete op.arguments} {stop : Nat} (inside : turn.Inside auth)
    (read : reading auth msg end_ turn.pos = .call op args stop) :
    ∃ server response,
      caught (turn.call (request (.piped client) op args) world stop) = ⟨server, stop, turn.sent ++ [response]⟩ ∧
      server.session.auth = auth ∧ response.Exact ∧ response.isBadRequest = false := by
  obtain ⟨permitted, single, -⟩ := reading_call read
  obtain ⟨noAuth, noPeer⟩ := isPermitted_pipe_excludes inside.piping
  have first : op ≠ .auth := by
    rintro rfl
    simp [permitted] at noAuth
  have second : op ≠ .peerAuth := by
    rintro rfl
    simp [permitted] at noPeer
  obtain ⟨response, called, answer⟩ := call_answers world (.piped client) turn args stop (fun _ => rfl) single
  have level := (request_orderly (.piped client) args (fun _ => rfl) single first second
    (world turn.server.calls) turn.server).2
  exact ⟨_, response, called, level.trans inside.level, answer⟩

end Vanity.Request
