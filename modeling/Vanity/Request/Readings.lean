import Vanity.Request.Dispatch

/-!
# How a request is read

What the server makes of the bytes at a position before any handler runs depends on the message, on
the authentication level and on whether the request is to end the message. `doHandleSingle_succ` is
the one step of handling in terms of it; the results about handling unfold no more than that.
-/

namespace Vanity.Request

open Db (Str)

inductive Reading where
  /-- An exception was thrown while the request was read. -/
  | malformed (failure : Failure) (pos : Nat)
  /-- The client lacks the permission. -/
  | refused (pos : Nat)
  | call (op : OperationT) (args : Concrete op.arguments) (pos : Nat)
  /-- A pipe whose length has been read. -/
  | pipe (len : Nat) (pos : Nat)

def reading (auth : ClientAuth) (msg : Str) (end_ : Bool) (pos : Nat) : Reading :=
  match peekOperation msg pos with
  | .thrown failure pos => .malformed failure pos
  | .ok op pos =>
    if isPermitted op auth then
      match getOperation msg pos with
      | .thrown failure pos => .malformed failure pos
      | .ok op pos =>
        if op = .pipe then
          match getLen msg pos with
          | .thrown failure pos => .malformed failure pos
          | .ok len pos => .pipe len pos
        else match getExact op.arguments (end_ || op.insistsOnEnd) msg pos with
          | .thrown failure pos => .malformed failure pos
          | .ok args pos => .call op args pos
    else if end_ then .refused pos
    else match dryDispatch false msg pos with
      | .thrown failure pos => .malformed failure pos
      | .ok _ pos => .refused pos

/-- What `dispatch` does behind the body of a pipe. -/
def Turn.close (turn : Turn) (end_ : Bool) (msg : Str) : Turn :=
  match ensureEndIf end_ msg turn.pos with
  | .ok _ pos => { turn with pos }
  | .thrown failure pos => { turn with pos, sent := turn.sent ++ [failure.response] }

def Turn.respond (turn : Turn) (response : Response) (pos : Nat) : Turn :=
  { turn with pos, sent := turn.sent ++ [response] }

variable {msg : Str} {world : Nat → World} {depth : Nat} {client : Client} {end_ : Bool} {turn : Turn}

theorem getExact_nil (pos : Nat) :
    getExact [] end_ msg pos = match ensureEndIf end_ msg pos with
      | .ok _ pos => .ok () pos
      | .thrown failure pos => .thrown failure pos := by
  change ((ensureEndIf end_ >>= fun _ => pure () : Extract Unit) msg pos) = _
  rw [Extractor.bind_apply]
  cases ensureEndIf end_ msg pos <;> rfl

variable (msg end_) in
/-- The responses behind a pipe are at most one more. -/
theorem Turn.close_eq (turn : Turn) :
    ∃ pos others, turn.close end_ msg = ⟨turn.server, pos, turn.sent ++ others⟩ := by
  rw [Turn.close]
  cases ensureEndIf end_ msg turn.pos with
  | ok value pos => exact ⟨pos, [], by simp⟩
  | thrown failure pos => exact ⟨pos, [failure.response], rfl⟩

theorem caught_call (handler : Handler) (pos : Nat) :
    caught (turn.call handler world pos) =
      let (answer, server) := handler (world turn.server.calls) turn.server
      { server := { server with calls := turn.server.calls + 1 }
        pos
        sent := turn.sent ++ match answer with
          | .sent response => [response]
          | .silent => []
          | .later => [.later]
          | .thrown what => [internalError what] } := by
  simp only [Turn.call]
  cases (handler (world turn.server.calls) turn.server).1 <;> simp [caught, Failure.response]

theorem doHandleSingle_succ :
    doHandleSingle msg world (depth + 1) client end_ turn =
      match reading turn.server.session.auth msg end_ turn.pos with
      | .malformed failure pos => some (turn.respond failure.response pos)
      | .refused pos => some (turn.respond denied pos)
      | .call op args pos => some (caught (turn.call (request client op args) world pos))
      | .pipe len pos =>
        (doHandle (doHandleSingle msg world depth (.piped client)) len { turn with pos, sent := [] }).map fun inner =>
          ({ inner with sent := turn.sent ++ [.agg len inner.sent] } : Turn).close end_ msg := by
  rw [doHandleSingle, dispatchOrRefuse, reading]
  cases peekOperation msg turn.pos with
  | thrown failure pos => rfl
  | ok op pos =>
    dsimp only
    by_cases permitted : isPermitted op turn.server.session.auth
    · rw [if_pos permitted, if_pos permitted, dispatch]
      dsimp only
      cases getOperation msg pos with
      | thrown failure pos => rfl
      | ok op pos =>
        dsimp only
        by_cases piped : op = .pipe
        · rw [if_pos piped, if_pos piped, requestPipe]
          dsimp only
          cases getLen msg pos with
          | thrown failure pos => rfl
          | ok len pos =>
            dsimp only
            rw [Option.map_map, Option.map_map]
            congr 1
            funext inner
            simp only [Function.comp_apply, getExact_nil, Turn.close]
            cases ensureEndIf end_ msg inner.pos <;> rfl
        · rw [if_neg piped, if_neg piped]
          cases getExact op.arguments (end_ || op.insistsOnEnd) msg pos with
          | thrown failure pos => rfl
          | ok args pos => rfl
    · rw [if_neg permitted, if_neg permitted]
      cases end_ with
      | true => rfl
      | false =>
        simp only [Bool.false_eq_true, if_false]
        cases dryDispatch false msg pos with
        | thrown failure pos => rfl
        | ok value pos => rfl

end Vanity.Request
