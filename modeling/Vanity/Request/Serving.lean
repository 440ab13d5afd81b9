import Vanity.Request.Handling
import Vanity.Request.Tokens

/-!
# Serving requests

What `do_handle` comes to on well-formed requests, told by the requests that are left and not by a
position in a message: `serve` takes one of them. `serve_followed` says that the server does the same on
every message that spells them.
-/

namespace Vanity.Request

open Db (Str)

/-- What is left of a message: requests, or the middle of one that was not skipped to its end. -/
inductive Left where
  | tokens (tokens : List Token)
  | astray

def Left.isEnd : Left → Bool
  | .tokens [] => true
  | _ => false

/-- How far the requests have been served. -/
structure Progress where
  server : Server
  left : Left
  sent : List Response

def invalidOperation : Response := (Failure.invalidRequest (ascii "invalid operation")).response

def unexpectedCharacter : Response :=
  (Failure.invalidRequest (ascii "unexpected character at end of message")).response

def Progress.respond (progress : Progress) (response : Response) (left : Left) : Progress :=
  ⟨progress.server, left, progress.sent ++ [response]⟩

def Progress.call (progress : Progress) (handler : Handler) (world : Nat → World) (left : Left) : Progress :=
  let turn := caught (Turn.call ⟨progress.server, 0, progress.sent⟩ handler world 0)
  ⟨turn.server, left, turn.sent⟩

def serve (world : Nat → World) : Nat → Bool → Progress → Option Progress
  | 0, _, _ => none
  | depth + 1, end_, progress =>
    match progress.left with
    | .astray | .tokens [] => some (progress.respond invalidOperation progress.left)
    | .tokens (.call op args :: tokens) =>
      if isPermitted op progress.server.session.auth then
        -- the handler is not run if this was to be the last request
        if end_ && !tokens.isEmpty then some (progress.respond unexpectedCharacter (.tokens tokens))
        else some (progress.call (request .tcp op args) world (.tokens tokens))
      else if end_ then some (progress.respond denied progress.left)
      else some (progress.respond denied (if op.dryArguments = op.arguments then .tokens tokens else .astray))
    | .tokens (.pipe len :: tokens) =>
      (doHandle (serve world depth) len ⟨progress.server, .tokens tokens, []⟩).map fun inner =>
        ⟨inner.server, inner.left, progress.sent ++ .agg len inner.sent ::
          if end_ && !inner.left.isEnd then [unexpectedCharacter] else []⟩

section
variable {world : Nat → World} {depth : Nat} {end_ : Bool} {server : Server} {sent : List Response} {tokens : List Token}

theorem serve_call {op : OperationT} {args : Concrete op.arguments} :
    serve world (depth + 1) end_ ⟨server, .tokens (.call op args :: tokens), sent⟩ =
      if isPermitted op server.session.auth then
        if end_ && !tokens.isEmpty then some ⟨server, .tokens tokens, sent ++ [unexpectedCharacter]⟩
        else some (Progress.call ⟨server, .tokens (.call op args :: tokens), sent⟩ (request .tcp op args) world
          (.tokens tokens))
      else if end_ then some ⟨server, .tokens (.call op args :: tokens), sent ++ [denied]⟩
      else some ⟨server, if op.dryArguments = op.arguments then .tokens tokens else .astray, sent ++ [denied]⟩ := rfl

theorem serve_pipe {len : Nat} :
    serve world (depth + 1) end_ ⟨server, .tokens (.pipe len :: tokens), sent⟩ =
      (doHandle (serve world depth) len ⟨server, .tokens tokens, []⟩).map fun inner =>
        ⟨inner.server, inner.left, sent ++ .agg len inner.sent ::
          if end_ && !inner.left.isEnd then [unexpectedCharacter] else []⟩ := rfl

end

/-- The operations whose handler is given the client. -/
def OperationT.takesClient : OperationT → Bool
  | .exit | .terminate | .subscribe | .unsubscribe | .unsubscribeAll | .clusterJoin | .peerAuth => true
  | _ => false

def Token.Plain : Token → Prop
  | .call op _ => op ≠ .pipe ∧ op.takesClient = false
  | .pipe _ => True

theorem request_plain {op : OperationT} (args : Concrete op.arguments) (plain : op.takesClient = false)
    (client : Client) : request client op args = request .tcp op args := by
  cases op <;> first | rfl | cases plain

theorem insistsOnEnd_plain {op : OperationT} (plain : op.takesClient = false) : op.insistsOnEnd = false := by
  cases op <;> first | rfl | cases plain

theorem dryArguments_plain {op : OperationT} (plain : op.takesClient = false) :
    op.dryArguments = op.arguments ∨ op = .clusterNew := by
  cases op <;> first | exact .inl rfl | exact .inr rfl | cases plain

/-! ### Positions -/

def Left.Spelled : Left → Str → Prop
  | .tokens requests, text => Request.Spelled requests text []
  | .astray, text => ∃ blank behind, Blank blank ∧ text = blank ++ 40 :: behind

/-- What is left stands at this position of the message. -/
def Stands (msg : Str) (pos : Nat) (left : Left) : Prop :=
  ∃ front text, msg = front ++ text ∧ front.length = pos ∧ left.Spelled text

variable {msg : Str} {pos : Nat} {left : Left} {tokens : List Token}

/-- Skipping white space gets to a character unless nothing is left. -/
theorem Stands.skipped (short : msg.length < maxSizeT) (stands : Stands msg pos left) :
    Stands msg (skipped msg pos) left ∧ left.Spelled (msg.drop (Request.skipped msg pos)) ∧
      if left.isEnd then Request.skipped msg pos = msg.length else Visible (msg.drop (Request.skipped msg pos)) := by
  obtain ⟨front, text, rfl, rfl, spelled⟩ := stands
  have gets : ∀ blank more, text = blank ++ more → Blank blank → more.takeWhile isSpace = [] →
      Request.skipped (front ++ text) front.length = (front ++ blank).length := by
    rintro blank more rfl allBlank visible
    rw [← List.append_assoc] at short ⊢
    exact skipped_blank allBlank visible short
  have behindBlank : ∀ blank more, text = blank ++ more → Blank blank → Visible more → left.Spelled more →
      left.isEnd = false → Stands (front ++ text) (Request.skipped (front ++ text) front.length) left ∧
        left.Spelled ((front ++ text).drop (Request.skipped (front ++ text) front.length)) ∧
        if left.isEnd then Request.skipped (front ++ text) front.length = (front ++ text).length
        else Visible ((front ++ text).drop (Request.skipped (front ++ text) front.length)) := by
    intro blank more same allBlank visible spelled some_
    have rest : (front ++ text).drop (front ++ blank).length = more := by
      rw [same, ← List.append_assoc, List.drop_left]
    rw [gets blank more same allBlank visible.takeWhile, rest, some_]
    exact ⟨⟨front ++ blank, more, by simp [same], rfl, spelled⟩, spelled, visible⟩
  cases left with
  | astray =>
    obtain ⟨blank, behind, allBlank, same⟩ := spelled
    exact behindBlank blank (40 :: behind) same allBlank ⟨40, behind, rfl, rfl⟩ ⟨[], behind, Blank.nil, rfl⟩ rfl
  | tokens tokens =>
    by_cases none_ : tokens = []
    · subst none_
      rw [gets text [] (by simp) spelled rfl]
      refine ⟨⟨front ++ text, [], by simp, rfl, Blank.nil⟩, ?_, rfl⟩
      rw [List.drop_length]
      exact Blank.nil
    · obtain ⟨blank, c, more, same, allBlank, letter, spelled⟩ := Spelled.letter spelled none_
      refine behindBlank blank (c :: more) same allBlank ⟨c, more, rfl, isSpace_of_letter letter⟩ spelled ?_
      cases tokens with
      | nil => exact absurd rfl none_
      | cons token tokens => rfl

theorem Stands.ensureEndIf (short : msg.length < maxSizeT) (stands : Stands msg pos left) (end_ : Bool) :
    ∃ stop, Stands msg stop left ∧ ensureEndIf end_ msg pos =
      if end_ && !left.isEnd then
        .thrown (.invalidRequest (ascii "unexpected character at end of message")) stop
      else .ok () stop := by
  cases end_ with
  | false => exact ⟨pos, stands, rfl⟩
  | true =>
    obtain ⟨there, -, which⟩ := stands.skipped short
    refine ⟨Request.skipped msg pos, there, ?_⟩
    change ensureEnd msg pos = _
    rw [ensureEnd_apply]
    cases ended : left.isEnd with
    | true =>
      rw [ended, if_pos rfl] at which
      simp [which]
    | false =>
      rw [ended] at which
      obtain ⟨c, more, rest, -⟩ := which
      have inside : ¬ msg.length ≤ Request.skipped msg pos := by
        intro beyond
        simp [List.drop_eq_nil_of_le beyond] at rest
      simp [inside]

theorem findFrom_parenthesis (behind : Str) : findFrom operationStrings (40 :: behind) = none := by
  cases found : findFrom operationStrings (40 :: behind) with
  | none => rfl
  | some entry =>
    obtain ⟨listed, rest, same⟩ := findFrom_some found
    obtain ⟨some_, letters⟩ := operationStrings_letters entry listed
    cases name : entry.2 with
    | nil => exact absurd name some_
    | cons c more =>
      rw [name] at same letters
      obtain ⟨rfl, -⟩ := List.cons.inj same
      exact absurd (letters 40 (by simp)) (by decide)

theorem findFrom_nil : findFrom operationStrings [] = none := by
  cases found : findFrom operationStrings [] with
  | none => rfl
  | some entry =>
    obtain ⟨listed, rest, same⟩ := findFrom_some found
    obtain ⟨some_, -⟩ := operationStrings_letters entry listed
    simp [some_] at same

theorem Blank.eq_nil {blank more : Str} (allBlank : Blank blank) (visible : Visible (blank ++ more)) : blank = [] := by
  cases blank with
  | nil => rfl
  | cons c blank =>
    obtain ⟨d, rest, same, dark⟩ := visible
    obtain ⟨rfl, -⟩ := List.cons.inj same
    simp [allBlank c (by simp)] at dark

/-- Behind the first of two strings stands a length. -/
theorem SpellsAll.second {values : Concrete [.str, .str]} {text rest : Str}
    (spelled : SpellsAll [.str, .str] values text rest) :
    ∃ first behind, text ++ rest = first ++ behind ∧ (∀ more, SpellsAll [.str] (values.1, ()) first more) ∧
      Left.astray.Spelled behind := by
  obtain ⟨first, others, one, ⟨last, nothing, two, rfl, rfl⟩, rfl⟩ := spelled
  obtain ⟨length, ⟨blank, digits, allBlank, -, rfl⟩, rfl⟩ := two
  have content : ∃ content : Str, content = values.2.1 := ⟨_, rfl⟩
  obtain ⟨content, same⟩ := content
  refine ⟨first, blank ++ 40 :: (digits ++ [41] ++ content ++ rest), ?_, fun more => ⟨first, [], one, rfl, ?_⟩, ?_⟩
  · rw [← same]
    simp
  · simp
  · exact ⟨blank, _, allBlank, rfl⟩

section
variable (short : msg.length < maxSizeT)
include short

/-- Where no request stands, no operation is found. -/
theorem Stands.peek_none (stands : Stands msg pos left) (none_ : left = .astray ∨ left = .tokens []) :
    ∃ stop, Stands msg stop left ∧
      peekOperation msg pos = .thrown (.invalidRequest (ascii "invalid operation")) stop := by
  obtain ⟨there, spelled, which⟩ := stands.skipped short
  refine ⟨Request.skipped msg pos, there, ?_⟩
  have nothing : findFrom operationStrings (msg.drop (Request.skipped msg pos)) = none := by
    rcases none_ with rfl | rfl
    · obtain ⟨blank, behind, allBlank, same⟩ := spelled
      rw [same] at which ⊢
      rw [allBlank.eq_nil which]
      exact findFrom_parenthesis behind
    · have stop : Request.skipped msg pos = msg.length := which
      rw [stop, List.drop_length]
      exact findFrom_nil
  rw [peekOperation, peekFromList_apply, nothing]

theorem Stands.peek_call {op : OperationT} {args : Concrete op.arguments}
    (stands : Stands msg pos (.tokens (.call op args :: tokens))) :
    ∃ front name objects more, msg = front ++ name ++ objects ++ more ∧
      SpellsAll op.arguments args objects more ∧ Spelled tokens more [] ∧
      Stands msg front.length (.tokens (.call op args :: tokens)) ∧
      peekOperation msg pos = .ok op front.length ∧ getOperation msg front.length = .ok op (front ++ name).length := by
  obtain ⟨there, -, which⟩ := stands.skipped short
  have again := there
  obtain ⟨front, text, same, start, spelled⟩ := there
  rw [← start, same, List.drop_left] at which
  obtain ⟨-, blank, name, objects, more, allBlank, listed, all, later, rfl⟩ := spelled
  obtain rfl : blank = [] := by
    rw [List.append_assoc, List.append_assoc] at which
    exact allBlank.eq_nil which
  rw [List.append_nil] at all
  have split : msg = front ++ name ++ objects ++ more := by simp [same]
  have named := reads_getOperation Blank.nil listed all front (by simpa [same] using short)
  have found := findFrom_name listed all.head
  refine ⟨front, name, objects, more, split, all, later, start ▸ again, ?_, ?_⟩
  · rw [peekOperation, peekFromList_apply, ← start, same, List.drop_left]
    simp only [List.nil_append, List.append_assoc, found]
  · rw [split]
    simpa using named

theorem Stands.peek_pipe {len : Nat} (stands : Stands msg pos (.tokens (.pipe len :: tokens))) :
    ∃ start named stop, peekOperation msg pos = .ok .pipe start ∧ getOperation msg start = .ok .pipe named ∧
      getLen msg named = .ok len stop ∧ Stands msg stop (.tokens tokens) := by
  obtain ⟨there, -, which⟩ := stands.skipped short
  obtain ⟨front, text, same, start, spelled⟩ := there
  rw [← start, same, List.drop_left] at which
  obtain ⟨blank, length, more, allBlank, spelled, later, rfl⟩ := spelled
  obtain rfl : blank = [] := by
    rw [List.append_assoc, List.append_assoc] at which
    exact allBlank.eq_nil which
  have split : msg = front ++ ascii "PIPE" ++ length ++ more := by simp [same]
  have named := reads_pipe Blank.nil (length ++ more) front (by simpa [split] using short)
  have counted := reads_getLen spelled more (front ++ ascii "PIPE") (by simpa [split] using short)
  have found : findFrom operationStrings (ascii "PIPE" ++ (length ++ more)) = some (.pipe, ascii "PIPE") := rfl
  refine ⟨front.length, (front ++ ascii "PIPE").length, (front ++ ascii "PIPE" ++ length).length, ?_, ?_, ?_,
    _, more, split, rfl, later⟩
  · rw [peekOperation, peekFromList_apply, ← start, same, List.drop_left]
    simp only [List.nil_append, List.append_assoc, found]
  · rw [split]
    simpa using named
  · rw [split]
    exact counted

/-! ### Readings -/

theorem Stands.read_none {auth : ClientAuth} {end_ : Bool} (stands : Stands msg pos left)
    (none_ : left = .astray ∨ left = .tokens []) :
    ∃ stop, Stands msg stop left ∧
      reading auth msg end_ pos = .malformed (.invalidRequest (ascii "invalid operation")) stop := by
  obtain ⟨stop, there, peeked⟩ := stands.peek_none short none_
  refine ⟨stop, there, ?_⟩
  rw [reading, peeked]

theorem Stands.read_pipe {auth : ClientAuth} {end_ : Bool} {len : Nat} (piping : isPermitted .pipe auth = true)
    (stands : Stands msg pos (.tokens (.pipe len :: tokens))) :
    ∃ stop, Stands msg stop (.tokens tokens) ∧ reading auth msg end_ pos = .pipe len stop := by
  obtain ⟨start, named, stop, peeked, got, counted, there⟩ := stands.peek_pipe short
  refine ⟨stop, there, ?_⟩
  rw [reading, peeked]
  simp [piping, got, counted]

theorem Stands.read_call {auth : ClientAuth} {end_ : Bool} {op : OperationT} {args : Concrete op.arguments}
    (permitted : isPermitted op auth = true) (single : op ≠ .pipe) (free : op.insistsOnEnd = false)
    (stands : Stands msg pos (.tokens (.call op args :: tokens))) :
    ∃ stop, Stands msg stop (.tokens tokens) ∧ reading auth msg end_ pos =
      if end_ && !tokens.isEmpty then
        .malformed (.invalidRequest (ascii "unexpected character at end of message")) stop
      else .call op args stop := by
  obtain ⟨front, name, objects, more, split, all, later, -, peeked, got⟩ := stands.peek_call short
  have read : getAll op.arguments msg (front ++ name).length = .ok args (front ++ name ++ objects).length := by
    rw [split]
    exact reads_getAll all (front ++ name) (by simpa [split] using short)
  have there : Stands msg (front ++ name ++ objects).length (.tokens tokens) := ⟨_, more, split, rfl, later⟩
  obtain ⟨stop, there, ended⟩ := there.ensureEndIf short end_
  refine ⟨stop, there, ?_⟩
  rw [reading, peeked]
  simp only [permitted, got, single, free, if_true, if_false, Bool.or_false]
  rw [getExact, Extractor.bind_ok read, Extractor.bind_apply, ended]
  cases tokens with
  | nil => simp [Left.isEnd]
  | cons token tokens => cases end_ <;> simp [Left.isEnd]

theorem Stands.read_refused {auth : ClientAuth} {op : OperationT} {args : Concrete op.arguments}
    (refused : isPermitted op auth = false) (plain : op.takesClient = false)
    (stands : Stands msg pos (.tokens (.call op args :: tokens))) (end_ : Bool) :
    ∃ stop, reading auth msg end_ pos = .refused stop ∧ Stands msg stop
      (if end_ then .tokens (.call op args :: tokens)
        else if op.dryArguments = op.arguments then .tokens tokens else .astray) := by
  obtain ⟨front, name, objects, more, split, all, later, there, peeked, got⟩ := stands.peek_call short
  cases end_ with
  | true =>
    refine ⟨front.length, ?_, there⟩
    rw [reading, peeked]
    simp [refused]
  | false =>
    have free := insistsOnEnd_plain plain
    have skip : ∀ values stop, getAll op.dryArguments msg (front ++ name).length = .ok values stop →
        reading auth msg false pos = .refused stop := by
      intro values stop read
      have whole : getExact op.dryArguments (false || op.insistsOnEnd) msg (front ++ name).length = .ok values stop := by
        rw [getExact, Extractor.bind_ok read, free]
        rfl
      have skipped : dryDispatch false msg front.length = .ok () stop := by
        rw [dryDispatch, Extractor.bind_ok got, Extractor.bind_ok whole]
        rfl
      rw [reading, peeked]
      simp [refused, skipped]
    rcases dryArguments_plain plain with same | rfl
    · have read : ∃ values, getAll op.dryArguments msg (front ++ name).length =
          .ok values (front ++ name ++ objects).length := by
        rw [same, split]
        exact ⟨args, reads_getAll all (front ++ name) (by simpa [split] using short)⟩
      obtain ⟨values, read⟩ := read
      refine ⟨_, skip values _ read, ?_⟩
      rw [if_neg Bool.false_ne_true, if_pos same]
      exact ⟨_, more, split, rfl, later⟩
    · -- the second string is not skipped
      obtain ⟨key, behind, same, whole, lost⟩ := SpellsAll.second all
      have split : msg = front ++ name ++ key ++ behind := by simp [split, same]
      have read : getAll [.str] msg (front ++ name).length = .ok (args.1, ()) (front ++ name ++ key).length := by
        rw [split]
        exact reads_getAll (whole behind) (front ++ name) (by simpa [split] using short)
      exact ⟨_, skip _ _ read, _, behind, split, rfl, lost⟩

end

/-! ### The server follows -/

def Left.Plain : Left → Prop
  | .tokens requests => ∀ token ∈ requests, token.Plain
  | .astray => True

/-- The turn has come as far in the message as the requests have been served. -/
structure Follows (msg : Str) (auth : ClientAuth) (turn : Turn) (progress : Progress) : Prop where
  server : turn.server = progress.server
  sent : turn.sent = progress.sent
  stands : Stands msg turn.pos progress.left
  plain : progress.left.Plain
  inside : turn.Inside auth

theorem doHandle_related {τ υ : Type} {related : τ → υ → Prop} {single : Bool → τ → Option τ}
    {other : Bool → υ → Option υ}
    (each : ∀ end_ turn progress after, related turn progress → other end_ progress = some after →
      ∃ done, single end_ turn = some done ∧ related done after)
    {len : Nat} {turn : τ} {progress after : υ} (same : related turn progress)
    (served : doHandle other len progress = some after) :
    ∃ done, doHandle single len turn = some done ∧ related done after := by
  induction len generalizing turn progress with
  | zero =>
    obtain rfl := Option.some.inj served
    exact ⟨turn, rfl, same⟩
  | succ len ih =>
    cases len with
    | zero => exact each true turn progress after same served
    | succ len =>
      rw [doHandle, Option.bind_eq_some_iff] at served
      obtain ⟨mid, first, rest⟩ := served
      obtain ⟨next, handled, same⟩ := each false turn progress mid same first
      obtain ⟨done, others, same⟩ := ih same rest
      refine ⟨done, ?_, same⟩
      rw [doHandle, handled, Option.bind_some, others]

variable {world : Nat → World} {auth : ClientAuth}

theorem Follows.respond {turn : Turn} {progress : Progress} (follows : Follows msg auth turn progress)
    (response : Response) {stop : Nat} (stands : Stands msg stop left) (plain : left.Plain) :
    Follows msg auth (turn.respond response stop) (progress.respond response left) where
  server := follows.server
  sent := by rw [Turn.respond, Progress.respond, follows.sent]
  stands := stands
  plain := plain
  inside := ⟨follows.inside.level, follows.inside.piping⟩

theorem Follows.call {turn : Turn} {progress : Progress} (follows : Follows msg auth turn progress) {op : OperationT}
    {args : Concrete op.arguments} (permitted : isPermitted op auth = true)
    (single : op ≠ .pipe) (noClient : op.takesClient = false) (client : Client) {stop : Nat}
    (stands : Stands msg stop left) (plain : left.Plain) :
    Follows msg auth (caught (turn.call (request client op args) world stop))
      (progress.call (request .tcp op args) world left) := by
  rw [request_plain args noClient, caught_call, Progress.call, caught_call]
  obtain ⟨noAuth, noPeer⟩ := isPermitted_pipe_excludes follows.inside.piping
  have first : op ≠ .auth := by
    rintro rfl
    simp [permitted] at noAuth
  have second : op ≠ .peerAuth := by
    rintro rfl
    simp [permitted] at noPeer
  have level := (request_orderly .tcp args (by simp [insistsOnEnd_plain noClient]) single first second
    (world turn.server.calls) turn.server).2
  refine ⟨?_, ?_, stands, plain, level.trans follows.inside.level, follows.inside.piping⟩
  · rw [follows.server]
  · rw [follows.server, follows.sent]

theorem serve_followed (short : msg.length < maxSizeT) {depth : Nat} {end_ : Bool} (client : Client) {turn : Turn}
    {progress after : Progress} (follows : Follows msg auth turn progress)
    (served : serve world depth end_ progress = some after) :
    ∃ done, doHandleSingle msg world depth client end_ turn = some done ∧ Follows msg auth done after := by
  induction depth generalizing end_ client turn progress after with
  | zero => cases served
  | succ depth ih =>
    obtain ⟨server, left, sent⟩ := progress
    have level : server.session.auth = auth := by rw [← follows.inside.level, follows.server]
    have stands : Stands msg turn.pos left := follows.stands
    have plain : left.Plain := follows.plain
    rw [doHandleSingle_succ, follows.inside.level]
    cases left with
    | astray =>
      obtain ⟨stop, there, read⟩ := stands.read_none short (.inl rfl)
      obtain rfl := Option.some.inj served
      rw [read]
      exact ⟨_, rfl, follows.respond invalidOperation there plain⟩
    | tokens tokens =>
      cases tokens with
      | nil =>
        obtain ⟨stop, there, read⟩ := stands.read_none short (.inr rfl)
        obtain rfl := Option.some.inj served
        rw [read]
        exact ⟨_, rfl, follows.respond invalidOperation there plain⟩
      | cons token tokens =>
        have rest : ∀ token ∈ tokens, token.Plain := fun token member => plain token (by simp [member])
        cases token with
        | call op args =>
          obtain ⟨single, noClient⟩ : op ≠ .pipe ∧ op.takesClient = false := plain (.call op args) (by simp)
          rw [serve_call, level] at served
          cases permitted : isPermitted op auth with
          | true =>
            obtain ⟨stop, there, read⟩ := stands.read_call short permitted single (insistsOnEnd_plain noClient)
            simp only [permitted, if_true] at served
            rw [read]
            split at served
            · rename_i early
              obtain rfl := Option.some.inj served
              rw [if_pos early]
              exact ⟨_, rfl, follows.respond unexpectedCharacter there rest⟩
            · rename_i last
              obtain rfl := Option.some.inj served
              rw [if_neg last]
              exact ⟨_, rfl, follows.call permitted single noClient client there rest⟩
          | false =>
            obtain ⟨stop, read, there⟩ := stands.read_refused short permitted noClient end_
            simp only [permitted, Bool.false_eq_true, if_false] at served
            rw [read]
            refine ⟨_, rfl, ?_⟩
            cases end_ with
            | true =>
              obtain rfl := Option.some.inj served
              exact follows.respond denied there plain
            | false =>
              obtain rfl := Option.some.inj served
              refine follows.respond denied there ?_
              split
              · exact rest
              · trivial
        | pipe len =>
          obtain ⟨stop, there, read⟩ := stands.read_pipe short follows.inside.piping
          rw [serve_pipe, Option.map_eq_some_iff] at served
          obtain ⟨inner, body, rfl⟩ := served
          rw [read]
          have inside : Follows msg auth { turn with pos := stop, sent := [] } ⟨server, .tokens tokens, []⟩ :=
            ⟨follows.server, rfl, there, rest, follows.inside.level, follows.inside.piping⟩
          have each : ∀ end_ turn progress after, Follows msg auth turn progress →
              serve world depth end_ progress = some after →
              ∃ done, doHandleSingle msg world depth (.piped client) end_ turn = some done ∧ Follows msg auth done after :=
            fun _ _ _ _ => ih (.piped client)
          obtain ⟨done, handled, same⟩ := doHandle_related each inside body
          obtain ⟨last, there, ended⟩ := same.stands.ensureEndIf short end_
          simp only [handled, Option.map_some, Turn.close, ended]
          have sent_ : turn.sent = sent := follows.sent
          refine ⟨_, rfl, ?_⟩
          by_cases early : (end_ && !inner.left.isEnd) = true
          · rw [if_pos early, if_pos early]
            exact ⟨same.server, by simp [sent_, same.sent, unexpectedCharacter], there, same.plain,
              same.inside.level, same.inside.piping⟩
          · rw [if_neg early, if_neg early]
            exact ⟨same.server, by simp [sent_, same.sent], there, same.plain,
              same.inside.level, same.inside.piping⟩

end Vanity.Request
