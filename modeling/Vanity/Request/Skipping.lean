import Vanity.Request.Readings
import Vanity.Request.Tokens

/-!
# Skipping a refused request

`dry_dispatch` against `dispatch`: where each of the two leaves the position behind a well-formed request
that need not end the message. The rows of their tables differ for three operations, and `dry_dispatch`
reads nothing of a pipe.
-/

namespace Vanity.Request

open Db (Str)

def Token.op : Token → OperationT
  | .call op _ => op
  | .pipe _ => .pipe

/-- Executing the request at the position leaves it where skipping the request does. -/
def SkipsAlike (msg : Str) (world : Nat → World) (server : Server) (client : Client) (pos : Nat) : Prop :=
  ∃ depth step, dispatch msg world (doHandleSingle msg world depth) client false ⟨server, pos, []⟩ = some step ∧
    step.2.pos = (dryDispatch false msg pos).pos

/-- Every well-formed request of the operation is skipped as it is executed, whatever stands around it. -/
def SkippedAsExecuted (op : OperationT) : Prop :=
  ∀ world server client front text rest token tokens, Token.op token = op → Complete 1 (token :: tokens) →
    Spelled (token :: tokens) text rest → (front ++ text ++ rest).length < maxSizeT →
    SkipsAlike (front ++ text ++ rest) world server client front.length

variable {msg : Str} {pos named : Nat} {op : OperationT}

theorem Turn.call_pos (turn : Turn) (handler : Handler) (world : Nat → World) (stop : Nat) :
    (turn.call handler world stop).2.pos = stop := by
  rw [Turn.call]
  repeat' split
  all_goals rfl

theorem dryDispatch_pos (got : getOperation msg pos = .ok op named) :
    (dryDispatch false msg pos).pos = (getExact op.dryArguments op.insistsOnEnd msg named).pos := by
  rw [dryDispatch, Extractor.bind_ok got, Extractor.bind_apply, Bool.false_or]
  cases getExact op.dryArguments op.insistsOnEnd msg named <;> rfl

theorem dispatch_pos (got : getOperation msg pos = .ok op named) (single : op ≠ .pipe) (world : Nat → World)
    (handle : Client → Bool → Turn → Option Turn) (client : Client) (server : Server) :
    ∃ step, dispatch msg world handle client false ⟨server, pos, []⟩ = some step ∧
      step.2.pos = (getExact op.arguments op.insistsOnEnd msg named).pos := by
  rw [dispatch, got]
  simp only [single, if_false, Bool.false_or]
  cases getExact op.arguments op.insistsOnEnd msg named with
  | thrown failure stop => exact ⟨_, rfl, rfl⟩
  | ok args stop => exact ⟨_, rfl, Turn.call_pos _ _ _ _⟩

theorem skipsAlike_iff (got : getOperation msg pos = .ok op named) (single : op ≠ .pipe) (world : Nat → World)
    (server : Server) (client : Client) :
    SkipsAlike msg world server client pos ↔
      (getExact op.arguments op.insistsOnEnd msg named).pos = (getExact op.dryArguments op.insistsOnEnd msg named).pos := by
  constructor
  · rintro ⟨depth, step, executed, same⟩
    obtain ⟨other, executed', stop⟩ := dispatch_pos got single world (doHandleSingle msg world depth) client server
    rw [executed] at executed'
    obtain rfl := Option.some.inj executed'
    rw [← stop, same, dryDispatch_pos got]
  · intro same
    obtain ⟨step, executed, stop⟩ := dispatch_pos got single world (doHandleSingle msg world 0) client server
    exact ⟨0, step, executed, by rw [stop, same, dryDispatch_pos got]⟩

theorem spelled_operation {front text rest : Str} {args : Concrete op.arguments} {tokens : List Token}
    (spelled : Spelled (.call op args :: tokens) text rest) (short : (front ++ text ++ rest).length < maxSizeT) :
    op ≠ .pipe ∧ ∃ named, getOperation (front ++ text ++ rest) front.length = .ok op named := by
  obtain ⟨single, blank, name, objects, more, allBlank, listed, all, later, rfl⟩ := spelled
  have same : front ++ (blank ++ name ++ objects ++ more) ++ rest = front ++ (blank ++ name) ++ (objects ++ (more ++ rest)) := by
    simp
  rw [same] at short ⊢
  exact ⟨single, _, reads_getOperation allBlank listed all front short⟩

theorem SkippedAsExecuted.alone (alike : SkippedAsExecuted op) {text : Str} {token : Token} (same : token.op = op)
    (spelled : Complete 1 [token] ∧ Spelled [token] text []) (short : text.length < maxSizeT) (world : Nat → World)
    (server : Server) (client : Client) : SkipsAlike text world server client 0 := by
  have here := alike world server client [] text [] token [] same spelled.1 spelled.2 (by simpa using short)
  simpa using here

/-! ### The operations that differ -/

theorem spellsStr_one (c : UInt8) : SpellsStr [c] (ascii "(1)" ++ [c]) :=
  ⟨ascii "(1)", ⟨[], ascii "1", Blank.nil, rfl, rfl⟩, rfl⟩

/-- Two strings are read where `dispatch` reads them, one where `dry_dispatch` does. -/
theorem clusterNew_short (world : Nat → World) (server : Server) (client : Client) :
    (Complete 1 [.call .clusterNew ([97], [98], ())] ∧
      Spelled [.call .clusterNew ([97], [98], ())] (ascii "CLUSTER_NEW(1)a(1)b") []) ∧
      ¬ SkipsAlike (ascii "CLUSTER_NEW(1)a(1)b") world server client 0 := by
  constructor
  · exact ⟨rfl, by decide, [], ascii "CLUSTER_NEW", ascii "(1)a(1)b", [], Blank.nil, by decide,
      ⟨_, _, spellsStr_one 97, ⟨_, [], spellsStr_one 98, rfl, rfl⟩, rfl⟩, Blank.nil, rfl⟩
  · have got : getOperation (ascii "CLUSTER_NEW(1)a(1)b") 0 = .ok .clusterNew 11 := rfl
    rw [skipsAlike_iff got (by decide)]
    decide +kernel

theorem clusterJoin_short (world : Nat → World) (server : Server) (client : Client) :
    (Complete 1 [.call .clusterJoin ([97], [98], [99], (1 : Int64), ())] ∧
      Spelled [.call .clusterJoin ([97], [98], [99], (1 : Int64), ())] (ascii "CLUSTER_JOIN(1)a(1)b(1)c 1") []) ∧
      ¬ SkipsAlike (ascii "CLUSTER_JOIN(1)a(1)b(1)c 1") world server client 0 := by
  constructor
  · exact ⟨rfl, by decide, [], ascii "CLUSTER_JOIN", ascii "(1)a(1)b(1)c 1", [], Blank.nil, by decide,
      ⟨_, _, spellsStr_one 97, ⟨_, _, spellsStr_one 98, ⟨_, _, spellsStr_one 99, ⟨ascii " 1", [], rfl, rfl, rfl⟩, rfl⟩,
        rfl⟩, rfl⟩, Blank.nil, rfl⟩
  · have got : getOperation (ascii "CLUSTER_JOIN(1)a(1)b(1)c 1") 0 = .ok .clusterJoin 12 := rfl
    rw [skipsAlike_iff got (by decide)]
    decide +kernel

theorem peerAuth_short (world : Nat → World) (server : Server) (client : Client) :
    (Complete 1 [.call .peerAuth ((1 : Int64), [97], [98], [99], ())] ∧
      Spelled [.call .peerAuth ((1 : Int64), [97], [98], [99], ())] (ascii "PEER_AUTH 1(1)a(1)b(1)c") []) ∧
      ¬ SkipsAlike (ascii "PEER_AUTH 1(1)a(1)b(1)c") world server client 0 := by
  constructor
  · exact ⟨rfl, by decide, [], ascii "PEER_AUTH", ascii " 1(1)a(1)b(1)c", [], Blank.nil, by decide,
      ⟨ascii " 1", ascii "(1)a(1)b(1)c", rfl, ⟨_, _, spellsStr_one 97, ⟨_, _, spellsStr_one 98, ⟨_, [], spellsStr_one 99, rfl, rfl⟩, rfl⟩,
        rfl⟩, rfl⟩, Blank.nil, rfl⟩
  · have got : getOperation (ascii "PEER_AUTH 1(1)a(1)b(1)c") 0 = .ok .peerAuth 9 := rfl
    rw [skipsAlike_iff got (by decide)]
    decide +kernel

theorem pipe_short (world : Nat → World) (server : Server) (client : Client) :
    (Complete 1 [.pipe 0] ∧ Spelled [.pipe 0] (ascii "PIPE(0)") []) ∧ ¬ SkipsAlike (ascii "PIPE(0)") world server client 0 := by
  constructor
  · exact ⟨rfl, [], ascii "(0)", [], Blank.nil, ⟨[], ascii "0", Blank.nil, rfl, rfl⟩, Blank.nil, rfl⟩
  · rintro ⟨depth, step, executed, same⟩
    have got : getOperation (ascii "PIPE(0)") 0 = .ok .pipe 4 := rfl
    have length : getLen (ascii "PIPE(0)") 4 = .ok 0 7 := rfl
    rw [dispatch, got] at executed
    simp only [requestPipe, length, if_true, doHandle, Option.map_some, getExact_nil, ensureEndIf, Bool.false_eq_true,
      if_false, Extractor.pure_apply, Option.some.injEq] at executed
    subst executed
    have skipped : (dryDispatch false (ascii "PIPE(0)") 0).pos = 4 := by decide +kernel
    rw [skipped] at same
    cases same

/-- An operation is skipped as it is executed unless it is one of four. -/
theorem skipped_as_executed_iff (op : OperationT) :
    SkippedAsExecuted op ↔ op ≠ .pipe ∧ op ≠ .clusterJoin ∧ op ≠ .clusterNew ∧ op ≠ .peerAuth := by
  constructor
  · intro alike
    refine ⟨?_, ?_, ?_, ?_⟩
    · rintro rfl
      obtain ⟨spelled, short⟩ := pipe_short (fun _ => .still) (.empty .admin) .tcp
      exact short (alike.alone rfl spelled (by decide) _ _ _)
    · rintro rfl
      obtain ⟨spelled, short⟩ := clusterJoin_short (fun _ => .still) (.empty .admin) .tcp
      exact short (alike.alone rfl spelled (by decide) _ _ _)
    · rintro rfl
      obtain ⟨spelled, short⟩ := clusterNew_short (fun _ => .still) (.empty .admin) .tcp
      exact short (alike.alone rfl spelled (by decide) _ _ _)
    · rintro rfl
      obtain ⟨spelled, short⟩ := peerAuth_short (fun _ => .still) (.empty .admin) .tcp
      exact short (alike.alone rfl spelled (by decide) _ _ _)
  · rintro ⟨noPipe, noJoin, noNew, noPeer⟩ world server client front text rest token tokens rfl - spelled short
    cases token with
    | pipe len => exact absurd rfl noPipe
    | call op args =>
      obtain ⟨single, named, got⟩ := spelled_operation spelled short
      have same : op.dryArguments = op.arguments := by
        cases op <;> first | rfl | contradiction
      rw [skipsAlike_iff got single, same]

/-- A user who makes a cluster in a pipe is refused, and the next request is read from the second argument. -/
theorem refused_cluster_new_skipped_short :
    (Complete 1 [.call .clusterNew ([97], [98], ())] ∧
      Spelled [.call .clusterNew ([97], [98], ())] (ascii "CLUSTER_NEW(1)a(1)b") (ascii "PING")) ∧
    ¬ SkipsAlike (ascii "PIPE(2)" ++ ascii "CLUSTER_NEW(1)a(1)b" ++ ascii "PING") (fun _ => .still) (.empty .user)
      (.piped .tcp) 7 := by
  constructor
  · exact ⟨rfl, by decide, [], ascii "CLUSTER_NEW", ascii "(1)a(1)b", [], Blank.nil, by decide,
      ⟨_, _, spellsStr_one 97, ⟨_, [], spellsStr_one 98, rfl, rfl⟩, rfl⟩, Blank.nil, rfl⟩
  · have got : getOperation (ascii "PIPE(2)" ++ ascii "CLUSTER_NEW(1)a(1)b" ++ ascii "PING") 7 =
        .ok .clusterNew 18 := rfl
    rw [skipsAlike_iff got (by decide)]
    decide +kernel

end Vanity.Request
