import Mathlib.Data.List.TakeWhile
import Vanity.Request.Serving
import Vanity.Request.Spelling

/-!
# Pipes and single requests

A pipe against its requests sent one by one. Every request but the last must be one that the server
leaves at its end: `Separate` names the ones that it does not.
-/

namespace Vanity.Request

open Db (Str)

/-- A request that is read to its end when it is sent alone, and has no command that takes the client. -/
def WellFormed (request : Str) : Prop :=
  ∃ tokens, Complete 1 tokens ∧ (∀ token ∈ tokens, token.Plain) ∧ Spelled tokens request []

def pipeOf (requests : List Str) : Str := ascii "PIPE" ++ serializeLength requests.length ++ requests.flatten

/-- Each of the requests as a message of its own. -/
def individually (world : Nat → World) (depth : Nat) : List Str → Server → Option (Server × List Response)
  | [], server => some (server, [])
  | request :: requests, server =>
    (handleUser request world depth server).bind fun turn =>
      (individually world depth requests turn.server).map fun (server, sent) => (server, turn.sent ++ sent)

/-- The pipe leaves the server as its requests do when they are sent one by one, and its aggregate is the
list of their responses. -/
def PipeEquivalent (world : Nat → World) (server : Server) (requests : List Str) : Prop :=
  ∃ depth other turn responses others, handleUser (pipeOf requests) world depth server = some turn ∧
    individually world other requests server = some (turn.server, responses) ∧
    turn.sent = .agg requests.length responses :: others ∧
    ((∀ response ∈ responses, 0 ∉ response.body) →
      (Response.agg requests.length responses).body =
        ascii "OK:AGG" ++ serializeLength requests.length ++ responses.flatMap Response.body)

/-- The number that ends the request is read on into what follows it, as the hexadecimal digits of `0x1`
are into a `DEL`. -/
def RunsOn (request rest : Str) : Prop :=
  ∃ op named key stop, getOperation request 0 = .ok op named ∧ op.arguments = [.str, .float] ∧
    getStr request named = .ok key stop ∧ stod (request.drop stop ++ rest) ≠ stod (request.drop stop)

/-- None of the requests but the last is a pipe that has requests, a `CLUSTER_NEW` that is refused, or
ends in a number that runs on. -/
def Separate (auth : ClientAuth) : List Str → Prop
  | [] | [_] => True
  | request :: next :: requests =>
    (∀ len stop, reading auth request true 0 = .pipe len stop → len = 0) ∧
    (∀ stop, peekOperation request 0 = .ok .clusterNew stop → isPermitted .clusterNew auth = true) ∧
    ¬ RunsOn request (next :: requests).flatten ∧ Separate auth (next :: requests)

/-! ### Requests behind one another -/

section
variable {text more rest : Str} (follows : ∀ c, rest.head? = some c → isDigit c = false)
include follows

theorem stoll_extend {value : Int64} (taken : stoll (text ++ more) = .ok (value, text.length)) :
    stoll (text ++ (more ++ rest)) = .ok (value, text.length) := by
  obtain ⟨blank, literal, allBlank, visible, rfl, found, same⟩ := stoa_split rfl taken
  obtain ⟨state, run, accepted, quiet⟩ := Automaton.longestFrom_iff.mp found
  have digits : state = IntState.digits := by simpa [integerForm] using accepted
  have still : ∀ c, (more ++ rest).head? = some c → isDigit c = false := by
    intro c first
    cases more with
    | nil => exact follows c first
    | cons d more =>
      obtain rfl : d = c := Option.some.inj first
      by_contra digit
      have stepped : integerForm.step state d = some IntState.digits := by
        rw [digits]
        exact if_pos (by simpa using digit)
      exact absurd (quiet.rejects stepped) (by decide)
  refine stoa_of_literal allBlank visible ?_ same
  exact Automaton.longestFrom_iff.mpr ⟨state, run, accepted, integerForm_quiet still state accepted⟩

theorem Spells.extend {type : ObjectT} {value : type.Concrete} (exact_ : type ≠ .float)
    (spelled : Spells type value text more) : Spells type value text (more ++ rest) := by
  cases type with
  | int => exact stoll_extend follows spelled
  | float => exact absurd rfl exact_
  | str | arr | list | set | hash | bool | clientAuth => exact spelled

theorem SpellsAll.extend {types : List ObjectT} {values : Concrete types} (exact_ : .float ∉ types)
    (spelled : SpellsAll types values text more) : SpellsAll types values text (more ++ rest) := by
  induction types generalizing text with
  | nil => exact spelled
  | cons type types ih =>
    obtain ⟨first, others, one, all, rfl⟩ := spelled
    simp only [List.mem_cons, not_or] at exact_
    refine ⟨first, others, ?_, ih exact_.2 all, rfl⟩
    have here := Spells.extend follows (Ne.symm exact_.1) one
    rwa [List.append_assoc] at here

end

variable {text rest : Str}

theorem SpellsAll.extend_float {types : List ObjectT} {values : Concrete types} {more : Str}
    (two : types = [.str, .float]) (spelled : SpellsAll types values text more)
    (kept : ∀ key value tail, SpellsStr value key → text = key ++ tail →
      stod (tail ++ more ++ rest) = stod (tail ++ more)) : SpellsAll types values text (more ++ rest) := by
  subst two
  obtain ⟨key, others, one, ⟨number, nothing, two, rfl, rfl⟩, rfl⟩ := spelled
  refine ⟨key, number ++ [], one, ⟨number, [], ?_, rfl, rfl⟩, rfl⟩
  have same := kept key _ (number ++ []) one rfl
  rw [List.append_nil, List.append_assoc] at same
  exact same.trans two

/-- A request that does not run on is the same request with others behind it. -/
theorem Spelled.extend {token : Token} (short : text.length < maxSizeT)
    (follows : ∀ c, rest.head? = some c → isDigit c = false) (stops : ¬ RunsOn text rest)
    (spelled : Spelled [token] text []) : Spelled [token] text rest := by
  cases token with
  | pipe len => exact spelled
  | call op args =>
    obtain ⟨single, blank, name, objects, more, allBlank, listed, all, later, same⟩ := spelled
    rw [List.append_nil] at all
    refine ⟨single, blank, name, objects, more, allBlank, listed, ?_, later, same⟩
    rcases arguments_float with exact_ | float
    · exact all.extend follows exact_
    · refine all.extend_float float fun key value tail spelled split => ?_
      by_contra other
      have whole : text = blank ++ name ++ key ++ (tail ++ more) := by simp [same, split]
      have named := reads_getOperation allBlank listed all [] (by simpa [same] using short)
      have read := reads_getStr spelled (tail ++ more) (blank ++ name) (by simpa [whole] using short)
      refine stops ⟨op, (blank ++ name).length, value, (blank ++ name ++ key).length, ?_, float, ?_, ?_⟩
      · simpa [same] using named
      · rw [whole]
        exact read
      · rw [whole, List.drop_left]
        exact other

/-- Behind a number no digit follows. -/
theorem Spelled.no_digit {tokens : List Token} (spelled : Spelled tokens text rest) (some_ : tokens ≠ []) (c : UInt8)
    (first : text.head? = some c) : isDigit c = false := by
  obtain ⟨blank, d, more, rfl, allBlank, letter, -⟩ := spelled.letter some_
  by_contra digit
  have digit : isDigit c = true := by simpa using digit
  cases blank with
  | nil =>
    obtain rfl : d = c := Option.some.inj first
    simp only [isDigit, decide_eq_true_eq] at digit
    exact absurd (UInt8.le_trans letter digit.2) (by decide)
  | cons e blank =>
    obtain rfl : e = c := Option.some.inj first
    have space := allBlank e (by simp)
    rw [(digit_visible digit).1] at space
    cases space

/-! ### Serving -/

variable {world : Nat → World}

def Left.size : Left → Nat
  | .tokens requests => requests.length
  | .astray => 0

theorem doHandle_total {τ : Type} {single : Bool → τ → Option τ} {fine : τ → Prop}
    (each : ∀ end_ turn, fine turn → ∃ after, single end_ turn = some after ∧ fine after) (len : Nat) (turn : τ)
    (start : fine turn) : ∃ after, doHandle single len turn = some after ∧ fine after := by
  induction len generalizing turn with
  | zero => exact ⟨turn, rfl, start⟩
  | succ len ih =>
    cases len with
    | zero => exact each true turn start
    | succ len =>
      obtain ⟨mid, first, fine⟩ := each false turn start
      obtain ⟨after, rest, fine⟩ := ih mid fine
      exact ⟨after, by rw [doHandle, first, Option.bind_some, rest], fine⟩

/-- Requests are served at every depth above their number, because a pipe that is entered is used up. -/
theorem serve_total (world : Nat → World) {depth : Nat} (end_ : Bool) (progress : Progress) (deep : progress.left.size < depth) :
    ∃ after, serve world depth end_ progress = some after ∧ after.left.size ≤ progress.left.size := by
  induction depth generalizing end_ progress with
  | zero => omega
  | succ depth ih =>
    obtain ⟨server, left, sent⟩ := progress
    cases left with
    | astray => exact ⟨_, rfl, Nat.le_refl _⟩
    | tokens tokens =>
      cases tokens with
      | nil => exact ⟨_, rfl, Nat.le_refl _⟩
      | cons token tokens =>
        have room : tokens.length < depth := by
          simp [Left.size] at deep
          omega
        cases token with
        | call op args =>
          rw [serve_call]
          repeat' split
          all_goals exact ⟨_, rfl, by simp [Progress.call, Left.size]⟩
        | pipe len =>
          have each : ∀ end_ progress, progress.left.size ≤ tokens.length →
              ∃ after, serve world depth end_ progress = some after ∧ after.left.size ≤ tokens.length := by
            intro end_ progress small
            obtain ⟨after, served, less⟩ := ih end_ progress (by omega)
            exact ⟨after, served, by omega⟩
          obtain ⟨inner, body, small⟩ := doHandle_total each len ⟨server, .tokens tokens, []⟩ (Nat.le_refl _)
          rw [serve_pipe, body]
          exact ⟨_, rfl, Nat.le_succ_of_le small⟩

/-- The responses to earlier requests stay in front. -/
theorem serve_sent (depth : Nat) (end_ : Bool) (server : Server) (left : Left) (sent : List Response) :
    serve world depth end_ ⟨server, left, sent⟩ =
      (serve world depth end_ ⟨server, left, []⟩).map fun after => ⟨after.server, after.left, sent ++ after.sent⟩ := by
  cases depth with
  | zero => rfl
  | succ depth =>
    cases left with
    | astray => rfl
    | tokens tokens =>
      cases tokens with
      | nil => rfl
      | cons token tokens =>
        cases token with
        | call op args =>
          rw [serve_call, serve_call]
          repeat' split
          all_goals simp [Progress.call, caught_call]
        | pipe len =>
          rw [serve_pipe, serve_pipe, Option.map_map]
          rfl

/-- A request that the server leaves at its end, also when others follow it. -/
def Token.Passes (auth : ClientAuth) : Token → Prop
  | .call op _ => isPermitted op auth = true ∨ op.dryArguments = op.arguments
  | .pipe len => len = 0

/-- It is served in a pipe as it is alone. -/
theorem serve_passes (world : Nat → World) (depth : Nat) {server : Server} {token : Token} (passes : token.Passes server.session.auth)
    (tokens : List Token) :
    ∃ after left sent, serve world (depth + 1) true ⟨server, .tokens [token], []⟩ = some ⟨after, left, sent⟩ ∧
      serve world (depth + 1) false ⟨server, .tokens (token :: tokens), []⟩ = some ⟨after, .tokens tokens, sent⟩ := by
  cases token with
  | call op args =>
    rw [serve_call, serve_call]
    by_cases permitted : isPermitted op server.session.auth = true
    · simp only [permitted, if_true, Bool.false_and, Bool.false_eq_true, if_false, List.isEmpty_nil, Bool.not_true,
        Bool.and_false]
      exact ⟨_, _, _, rfl, rfl⟩
    · have same : op.dryArguments = op.arguments := passes.resolve_left permitted
      simp only [permitted, if_false, if_true, Bool.false_eq_true, same]
      exact ⟨_, _, _, rfl, rfl⟩
  | pipe len =>
    obtain rfl : len = 0 := passes
    exact ⟨server, .tokens [], [.agg 0 []], rfl, rfl⟩

theorem doHandle_sent (depth len : Nat) (server : Server) (left : Left) (sent : List Response) :
    doHandle (serve world depth) len ⟨server, left, sent⟩ =
      (doHandle (serve world depth) len ⟨server, left, []⟩).map fun after =>
        ⟨after.server, after.left, sent ++ after.sent⟩ := by
  induction len generalizing server left sent with
  | zero => simp [doHandle]
  | succ len ih =>
    cases len with
    | zero => exact serve_sent depth true server left sent
    | succ len =>
      rw [doHandle, doHandle, serve_sent]
      cases serve world depth false ⟨server, left, []⟩ with
      | none => rfl
      | some mid =>
        rw [Option.map_some, Option.bind_some, Option.bind_some, ih, ih mid.server mid.left mid.sent, Option.map_map]
        congr 1
        funext after
        simp

/-! ### Layout -/

/-- The tokens are the requests one behind the other, of which only the last is not left at its end. -/
inductive Laid (auth : ClientAuth) : List Str → List Token → Prop where
  | none : Laid auth [] []
  | last {request : Str} {tokens : List Token} : (∀ token ∈ tokens, token.Plain) → Spelled tokens request [] →
    Laid auth [request] tokens
  | more {request next : Str} {requests : List Str} {token : Token} {tokens : List Token} : token.Plain →
    token.Passes auth → Spelled [token] request [] → Laid auth (next :: requests) tokens →
    Laid auth (request :: next :: requests) (token :: tokens)

theorem Complete.ne_nil {tokens : List Token} (one : Complete 1 tokens) : tokens ≠ [] := by
  rintro rfl
  cases one

variable {auth : ClientAuth}

/-- Alone, a request that is not the last is one token. -/
theorem WellFormed.token {request : Str} (wellFormed : WellFormed request) (short : request.length < maxSizeT)
    (piping : isPermitted .pipe auth = true)
    (noPipe : ∀ len stop, reading auth request true 0 = .pipe len stop → len = 0)
    (noCluster : ∀ stop, peekOperation request 0 = .ok .clusterNew stop → isPermitted .clusterNew auth = true) :
    ∃ token : Token, token.Plain ∧ token.Passes auth ∧ Spelled [token] request [] := by
  obtain ⟨tokens, one, plain, spelled⟩ := wellFormed
  cases tokens with
  | nil => cases one
  | cons token tokens =>
    have stands : Stands request 0 (.tokens (token :: tokens)) := ⟨[], request, rfl, rfl, spelled⟩
    cases token with
    | call op args =>
      obtain rfl : tokens = [] := by
        cases tokens with
        | nil => rfl
        | cons token tokens => cases one
      obtain ⟨single, noClient⟩ := plain (.call op args) (by simp)
      refine ⟨.call op args, ⟨single, noClient⟩, ?_, spelled⟩
      rcases dryArguments_plain noClient with same | rfl
      · exact .inr same
      · obtain ⟨front, name, objects, more, -, -, -, -, peeked, -⟩ := stands.peek_call short
        exact .inl (noCluster _ peeked)
    | pipe len =>
      obtain ⟨stop, -, read⟩ := stands.read_pipe short piping
      obtain rfl := noPipe len stop read
      obtain rfl : tokens = [] := by
        cases tokens with
        | nil => rfl
        | cons token tokens => cases one
      exact ⟨.pipe 0, trivial, rfl, spelled⟩

theorem exists_laid {requests : List Str} (wellFormed : ∀ request ∈ requests, WellFormed request)
    (short : ∀ request ∈ requests, request.length < maxSizeT) (piping : isPermitted .pipe auth = true)
    (separate : Separate auth requests) :
    ∃ tokens, Laid auth requests tokens ∧ (∀ token ∈ tokens, token.Plain) ∧ Spelled tokens requests.flatten [] ∧
      (requests ≠ [] → tokens ≠ []) := by
  induction requests with
  | nil => exact ⟨[], .none, by simp, Blank.nil, fun some_ => absurd rfl some_⟩
  | cons request requests ih =>
    cases requests with
    | nil =>
      obtain ⟨tokens, one, plain, spelled⟩ := wellFormed request (by simp)
      exact ⟨tokens, .last plain spelled, plain, by simpa using spelled, fun _ => one.ne_nil⟩
    | cons next requests =>
      obtain ⟨noPipe, noCluster, stops, separate⟩ := separate
      obtain ⟨tokens, laid, plain, spelled, some_⟩ := ih (fun other member => wellFormed other (by simp [member]))
        (fun other member => short other (by simp [member])) separate
      obtain ⟨token, simple, passes, alone⟩ := (wellFormed request (by simp)).token (short request (by simp)) piping
        noPipe noCluster
      have here : Spelled [token] request ((next :: requests).flatten ++ []) := by
        rw [List.append_nil]
        exact alone.extend (short request (by simp)) (spelled.no_digit (some_ (by simp))) stops
      refine ⟨token :: tokens, .more simple passes alone laid, ?_, ?_, by simp⟩
      · simpa using ⟨simple, plain⟩
      · exact here.append spelled

/-! ### One by one -/

/-- A message that is one request is served as the request is. -/
theorem handleUser_served {request : Str} {depth : Nat} {server : Server} {tokens : List Token} {after : Progress}
    (short : request.length < maxSizeT) (piping : isPermitted .pipe server.session.auth = true)
    (plain : ∀ token ∈ tokens, token.Plain) (spelled : Spelled tokens request [])
    (served : serve world depth true ⟨server, .tokens tokens, []⟩ = some after) :
    ∃ turn, handleUser request world depth server = some turn ∧ turn.server = after.server ∧
      turn.sent = after.sent ∧ after.server.session.auth = server.session.auth := by
  have follows : Follows request server.session.auth ⟨server, 0, []⟩ ⟨server, .tokens tokens, []⟩ :=
    ⟨rfl, rfl, ⟨[], request, rfl, rfl, spelled⟩, plain, rfl, piping⟩
  obtain ⟨turn, handled, follows⟩ := serve_followed short .tcp follows served
  exact ⟨turn, handled, follows.server, follows.sent, by rw [← follows.server, follows.inside.level]⟩

theorem Laid.served {requests : List Str} {tokens : List Token} (laid : Laid auth requests tokens) (world : Nat → World)
    (short : ∀ request ∈ requests, request.length < maxSizeT) (piping : isPermitted .pipe auth = true)
    {depth : Nat} (deep : tokens.length ≤ depth) {server : Server} (level : server.session.auth = auth) :
    ∃ after, doHandle (serve world (depth + 1)) requests.length ⟨server, .tokens tokens, []⟩ = some after ∧
      individually world (depth + 1) requests server = some (after.server, after.sent) := by
  induction laid generalizing server with
  | none => exact ⟨_, rfl, rfl⟩
  | last plain spelled =>
    rename_i request tokens
    obtain ⟨after, served, -⟩ := serve_total world true ⟨server, .tokens tokens, []⟩ (Nat.lt_succ_of_le deep)
    obtain ⟨turn, handled, same, sent, -⟩ := handleUser_served (short request (by simp)) (level ▸ piping) plain spelled
      served
    refine ⟨after, served, ?_⟩
    rw [individually, handled, Option.bind_some, individually, same, sent]
    simp
  | more simple passes spelled laid ih =>
    rename_i request next requests token tokens
    subst level
    obtain ⟨mid, left, sent, alone, inPipe⟩ := serve_passes world depth passes tokens
    obtain ⟨turn, handled, same, said, kept⟩ := handleUser_served (short request (by simp)) piping
      (by simpa using simple) spelled alone
    obtain ⟨after, rest, others⟩ := ih (fun other member => short other (by simp [member]))
      (Nat.le_of_succ_le deep) kept
    refine ⟨⟨after.server, after.left, sent ++ after.sent⟩, ?_, ?_⟩
    · rw [List.length_cons, List.length_cons, doHandle, inPipe, Option.bind_some, doHandle_sent, ← List.length_cons, rest]
      rfl
    · rw [individually, handled, Option.bind_some, same, others, said]
      rfl

theorem WellFormed.length_pos {request : Str} (wellFormed : WellFormed request) : 1 ≤ request.length := by
  obtain ⟨tokens, one, -, spelled⟩ := wellFormed
  obtain ⟨blank, c, more, rfl, -⟩ := spelled.letter one.ne_nil
  simp
  omega

theorem Response.appended_eq {parts : List Response} (plain : ∀ part ∈ parts, 0 ∉ part.body) :
    Response.appended parts = parts.flatMap Response.body := by
  induction parts with
  | nil => rfl
  | cons part parts ih =>
    have whole : Response.cString part.body = part.body := by
      refine List.takeWhile_eq_self_iff.mpr fun c member => ?_
      have other : c ≠ 0 := fun zero => plain part (by simp) (zero ▸ member)
      simp [other]
    rw [Response.appended, whole, ih fun other member => plain other (by simp [member]), List.flatMap_cons]

/-- A session that may send pipes is answered to a pipe as to its requests one by one, if these are
left at their ends. -/
theorem pipe_equivalent (world : Nat → World) (server : Server) (requests : List Str)
    (wellFormed : ∀ request ∈ requests, WellFormed request) (short : (pipeOf requests).length < maxSizeT)
    (piping : isPermitted .pipe server.session.auth = true) (separate : Separate server.session.auth requests) :
    PipeEquivalent world server requests := by
  have inPipe : requests.flatten.length < maxSizeT := by
    rw [pipeOf, List.length_append] at short
    omega
  have eachShort : ∀ request ∈ requests, request.length < maxSizeT := fun request member =>
    Nat.lt_of_le_of_lt (List.sublist_flatten_of_mem member).length_le inPipe
  have count : requests.length < 2 ^ 64 := by
    refine Nat.lt_of_le_of_lt ?_ inPipe
    rw [List.length_flatten, ← List.length_map List.length]
    refine List.length_le_sum_of_one_le _ fun length member => ?_
    obtain ⟨request, listed, rfl⟩ := List.mem_map.mp member
    exact (wellFormed request listed).length_pos
  obtain ⟨tokens, laid, plain, spelled, -⟩ := exists_laid wellFormed eachShort piping separate
  obtain ⟨after, body, alone⟩ := laid.served world eachShort piping (Nat.le_refl tokens.length) rfl
  have whole : Spelled (.pipe requests.length :: tokens) (pipeOf requests) [] :=
    ⟨[], serializeLength requests.length, requests.flatten, Blank.nil, spellsLen_serializeLength count, spelled, rfl⟩
  have served : ∃ others, serve world (tokens.length + 2) true ⟨server, .tokens (.pipe requests.length :: tokens), []⟩ =
      some ⟨after.server, after.left, .agg requests.length after.sent :: others⟩ := by
    rw [serve_pipe, body]
    exact ⟨_, rfl⟩
  obtain ⟨others, served⟩ := served
  obtain ⟨turn, handled, same, sent, -⟩ :=
    handleUser_served short piping (by simpa [Token.Plain] using plain) whole served
  refine ⟨_, _, turn, after.sent, others, handled, same ▸ alone, sent, fun noNul => ?_⟩
  rw [Response.body, Response.appended_eq noNul]

theorem ping_wellFormed : WellFormed (ascii "PING") :=
  ⟨[.call .ping ()], rfl, by simp [Token.Plain, OperationT.takesClient], by decide, [], ascii "PING", [], [], Blank.nil,
    by decide, rfl, Blank.nil, rfl⟩

theorem piped_ping_wellFormed : WellFormed (ascii "PIPE(1)PING") :=
  ⟨[.pipe 1, .call .ping ()], rfl, by simp [Token.Plain, OperationT.takesClient], [], ascii "(1)", ascii "PING", Blank.nil,
    ⟨[], ascii "1", Blank.nil, rfl, rfl⟩, ⟨by decide, [], ascii "PING", [], [], Blank.nil, by decide, rfl, Blank.nil, rfl⟩,
    rfl⟩

theorem ping_and_pipe_equivalent :
    PipeEquivalent (fun _ => .still) (.empty .user) [ascii "PING", ascii "PIPE(1)PING"] := by
  refine pipe_equivalent (fun _ => .still) (.empty .user) [ascii "PING", ascii "PIPE(1)PING"] ?_ (by decide) rfl
    ⟨?_, ?_, ?_, trivial⟩
  · simp [ping_wellFormed, piped_ping_wellFormed]
  · intro len stop piped
    rw [show reading (Server.empty .user).session.auth (ascii "PING") true 0 = .call .ping () 4 from rfl] at piped
    cases piped
  · intro stop peeked
    rw [show peekOperation (ascii "PING") 0 = .ok .ping 0 from rfl] at peeked
    cases peeked
  · rintro ⟨op, named, key, stop, got, float, -⟩
    rw [show getOperation (ascii "PING") 0 = .ok .ping 4 from rfl] at got
    cases got
    cases float

theorem individually_unique {depth other : Nat} {requests : List Str} {server : Server}
    {first second : Server × List Response} (one : individually world depth requests server = some first)
    (two : individually world other requests server = some second) : first = second := by
  induction requests generalizing server first second with
  | nil => exact Option.some.inj (one.symm.trans two)
  | cons request requests ih =>
    rw [individually, Option.bind_eq_some_iff] at one two
    obtain ⟨turn, handled, rest⟩ := one
    obtain ⟨turn', handled', rest'⟩ := two
    obtain rfl := handleUser_unique handled handled'
    rw [Option.map_eq_some_iff] at rest rest'
    obtain ⟨after, alone, rfl⟩ := rest
    obtain ⟨after', alone', rfl⟩ := rest'
    rw [ih alone alone']

/-- A client that is not logged in may not send pipes, and inside a pipe the last request of an inner pipe
has to end the message. -/
theorem pipe_differs :
    (WellFormed (ascii "PING") ∧ WellFormed (ascii "PIPE(1)PING")) ∧
    ¬ PipeEquivalent (fun _ => .still) (.empty .unknown) [ascii "PING"] ∧
    ¬ PipeEquivalent (fun _ => .still) (.empty .user) [ascii "PIPE(1)PING", ascii "PING"] := by
  refine ⟨⟨ping_wellFormed, piped_ping_wellFormed⟩, ?_, ?_⟩
  · rintro ⟨depth, other, turn, responses, others, handled, -, sent, -⟩
    have refused : (handleUser (pipeOf [ascii "PING"]) (fun _ => .still) 1 (.empty .unknown)).map (·.sent) =
        some [denied] := rfl
    rw [Option.map_eq_some_iff] at refused
    obtain ⟨after, handled', refused⟩ := refused
    rw [handleUser_unique handled handled', refused] at sent
    cases sent
  · rintro ⟨depth, other, turn, responses, others, handled, alone, sent, -⟩
    have text : pipeOf [ascii "PIPE(1)PING", ascii "PING"] = ascii "PIPE(2)PIPE(1)PINGPING" := by decide
    have piped : ((handleUser (ascii "PIPE(2)PIPE(1)PINGPING") (fun _ => .still) 3 (.empty .user)).map fun turn =>
        turn.sent.map Response.body) = some [ascii "OK:AGG(2)OK:AGG(1)BAD_REQUEST:ERR(54)" ++
          ascii "InvalidRequest: unexpected character at end of messagePONG"] := by
      decide +kernel
    have single : ((individually (fun _ => .still) 2 [ascii "PIPE(1)PING", ascii "PING"] (.empty .user)).map fun final =>
        (Response.agg 2 final.2).body) = some (ascii "OK:AGG(2)OK:AGG(1)PONGPONG") := by
      decide +kernel
    rw [text] at handled
    rw [Option.map_eq_some_iff] at piped single
    obtain ⟨after, handled', piped⟩ := piped
    obtain ⟨final, alone', single⟩ := single
    rw [← handleUser_unique handled handled', sent, List.map_cons] at piped
    rw [← individually_unique alone alone'] at single
    exact absurd ((List.cons.inj piped).1.symm.trans single) (by decide)

end Vanity.Request
