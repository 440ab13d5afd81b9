import Vanity.Request.Dispatch
import Vanity.Request.Spelling
import Vanity.Request.Tokens

/-!
# Requests of the client

`format` and `request_from` of `client_.py`, with one byte for a character. The requests of a pipe are
written one behind the other, and the server finds each of them again where the one before it ends.
-/

namespace Vanity.Client

open Db (Str Float64)
open Request

def formatLen (len : Nat) : Str := [40] ++ natText len ++ [41]

def formatStr (msg : Str) : Str := formatLen msg.length ++ msg

section
-- what `str` writes for a float, and the order in which a set or a dictionary is iterated
variable (floatStr : Float64 → Str) (order : Order Str)

def format : (type : ObjectT) → type.Concrete → Str
  | .str, msg => formatStr msg
  | .int, msg => intText msg.toInt
  | .float, msg => floatStr msg
  | .arr, msg => formatLen msg.length ++ [91] ++ msg.flatMap formatStr ++ [93]
  | .list, msg => formatLen msg.length ++ [91] ++ msg.flatMap formatStr ++ [93]
  | .set, msg => formatLen msg.card ++ [123] ++ (order.list msg).flatMap formatStr ++ [125]
  | .hash, msg =>
    formatLen msg.keys.card ++ [123] ++
      ((Table.entries order msg).flatMap fun item => [item.1, item.2]).flatMap formatStr ++ [125]
  | .bool, msg => bif msg then ascii "True" else ascii "False"
  | .clientAuth, msg => msg.text

def formatAll : (types : List ObjectT) → Concrete types → List Str
  | [], _ => []
  | type :: types, (msg, msgs) => format floatStr order type msg :: formatAll types msgs

end

def requestFrom (command : Str) (args : List Str) : Str := command ++ List.intercalate [32] args

/-- A command other than `PIPE` with its arguments. -/
structure Call where
  op : OperationT
  single : op ≠ .pipe
  command : Str
  named : (op, command) ∈ operationStrings
  args : Concrete op.arguments
  order : Order Str

def Call.request (floatStr : Float64 → Str) (call : Call) : Str :=
  requestFrom call.command (formatAll floatStr call.order call.op.arguments call.args)

/-- What `Pipe.execute` sends behind the number of its requests. -/
def pipeBody (floatStr : Float64 → Str) (calls : List Call) : Str := calls.flatMap (Call.request floatStr)

def floatsIn : (types : List ObjectT) → Concrete types → List Float64
  | [], _ => []
  | .float :: types, (x, values) => x :: floatsIn types values
  | .str :: types, (_, values) | .int :: types, (_, values) | .arr :: types, (_, values)
  | .list :: types, (_, values) | .set :: types, (_, values) | .hash :: types, (_, values)
  | .bool :: types, (_, values) | .clientAuth :: types, (_, values) => floatsIn types values

/-! ### How the server reads requests -/

abbrev Request := Σ op : OperationT, Concrete op.arguments

def Call.decoded (call : Call) : Request := ⟨call.op, call.args⟩

/-- `get_operation`, and the getters of its case in `dispatch`. -/
def readRequest (end_ : Bool) : Extract Request := do
  let op ← getOperation
  let args ← getExact op.arguments (end_ || op.insistsOnEnd)
  return ⟨op, args⟩

/-- As the loop of `do_handle` does it. -/
def readRequests : Nat → Extract (List Request)
  | 0 => return []
  | 1 => do
    let request ← readRequest true
    return [request]
  | len + 2 => do
    let request ← readRequest false
    let requests ← readRequests (len + 1)
    return request :: requests

theorem dispatch_readRequest {msg : Str} {world : Nat → World} {handle : Request.Client → Bool → Turn → Option Turn}
    {client : Request.Client} {end_ : Bool} {turn : Turn} {op : OperationT} {args : Concrete op.arguments} {stop : Nat}
    (single : op ≠ .pipe) (read : readRequest end_ msg turn.pos = .ok ⟨op, args⟩ stop) :
    dispatch msg world handle client end_ turn = some (turn.call (request client op args) world stop) := by
  unfold readRequest at read
  unfold dispatch
  rw [Extractor.bind_apply] at read
  cases found : getOperation msg turn.pos with
  | thrown failure pos =>
    rw [found] at read
    cases read
  | ok other pos =>
    rw [found] at read
    simp only [Extractor.bind_apply] at read ⊢
    cases taken : getExact other.arguments (end_ || other.insistsOnEnd) msg pos with
    | thrown failure pos =>
      rw [taken] at read
      cases read
    | ok values pos =>
      rw [taken] at read
      cases read
      rw [if_neg single]

/-! ### What is formatted is spelled -/

theorem clientAuth_listed (level : ClientAuth) : (level, level.text) ∈ clientAuthStrings := by
  cases level <;> decide

section
variable {floatStr : Float64 → Str} {order : Order Str} {rest : Str}

theorem spells_format {type : ObjectT} {msg : type.Concrete} (flag : type ≠ .bool) (exact_ : type ≠ .float)
    (short : (format floatStr order type msg).length < 2 ^ 32)
    (follows : ∀ c, rest.head? = some c → isDigit c = false) :
    Spells type msg (format floatStr order type msg) rest := by
  cases type with
  | str => exact spellsStr_short short
  | int => exact stoll_intText follows msg
  | float => exact absurd rfl exact_
  | arr =>
    obtain ⟨spelled, few⟩ := spellsMany_strings rfl short
    refine ⟨spelled, ?_⟩
    unfold maxVectorSize
    omega
  | list => exact (spellsMany_strings rfl short).1
  | set => exact ⟨order.list msg, (spellsMany_strings (order.length msg) short).1, (order.toFinset msg).symm⟩
  | hash =>
    exact ⟨Table.entries order msg, spellsMany_items (Table.entries_length order msg) short,
      (Table.rebuild_entries_new order msg).symm⟩
  | bool => exact absurd rfl flag
  | clientAuth => exact ⟨[], _, Blank.nil, clientAuth_listed msg, rfl⟩

theorem spellsAll_formatAll {types : List ObjectT} {msgs : Concrete types} (flags : .bool ∉ types)
    (exact_ : .float ∉ types) (short : (List.intercalate [32] (formatAll floatStr order types msgs)).length < 2 ^ 32)
    (follows : ∀ c, rest.head? = some c → isDigit c = false) :
    SpellsAll types msgs (List.intercalate [32] (formatAll floatStr order types msgs)) rest := by
  induction types with
  | nil => rfl
  | cons type types ih =>
    obtain ⟨msg, msgs⟩ := msgs
    simp only [List.mem_cons, not_or] at flags exact_
    cases types with
    | nil =>
      have one : List.intercalate [32] (formatAll floatStr order [type] (msg, msgs)) = format floatStr order type msg := by
        simp [formatAll, List.intercalate]
      rw [one] at short ⊢
      exact ⟨_, [], spells_format (Ne.symm flags.1) (Ne.symm exact_.1) short follows, rfl, by simp⟩
    | cons second types =>
      have more : List.intercalate [32] (formatAll floatStr order (type :: second :: types) (msg, msgs)) =
          format floatStr order type msg ++
            ([32] ++ List.intercalate [32] (formatAll floatStr order (second :: types) msgs)) := by
        obtain ⟨next, msgs⟩ := msgs
        simp [formatAll, List.intercalate]
      rw [more] at short ⊢
      simp only [List.length_append] at short
      refine ⟨_, _, spells_format (Ne.symm flags.1) (Ne.symm exact_.1) (by omega) ?_, ?_, rfl⟩
      · rintro c first
        obtain rfl := Option.some.inj first
        rfl
      · exact SpellsAll.blank (by simp [Blank, isSpace]) (ih flags.2 exact_.2 (by omega))

theorem spellsAll_float {types : List ObjectT} {msgs : Concrete types} (two : types = [.str, .float])
    (short : (List.intercalate [32] (formatAll floatStr order types msgs)).length < 2 ^ 32)
    (floats : ∀ x ∈ floatsIn types msgs, stod (floatStr x ++ rest) = .ok (x, (floatStr x).length)) :
    SpellsAll types msgs (List.intercalate [32] (formatAll floatStr order types msgs)) rest := by
  subst two
  obtain ⟨key, x, nothing⟩ := msgs
  have taken := floats x List.mem_cons_self
  have joined : List.intercalate [32] (formatAll floatStr order [.str, .float] (key, x, nothing)) =
      formatStr key ++ ([32] ++ floatStr x ++ []) := by
    simp [formatAll, List.intercalate, format]
  rw [joined] at short ⊢
  simp only [List.length_append] at short
  refine ⟨_, _, spellsStr_short (show (formatStr key).length < _ by omega), ⟨[32] ++ floatStr x, [], ?_, rfl, rfl⟩, rfl⟩
  exact stoa_blank (by simp [Blank, isSpace]) rfl taken

end

theorem arguments_bool {op : OperationT} : .bool ∉ op.arguments := by
  cases op <;> decide

/-! ### Reading them back -/

section
variable {floatStr : Float64 → Str} {rest : Str}

theorem Call.spelled (call : Call) (short : (call.request floatStr).length < 2 ^ 32)
    (follows : ∀ c, rest.head? = some c → isDigit c = false)
    (floats : ∀ x ∈ floatsIn _ call.args, stod (floatStr x ++ rest) = .ok (x, (floatStr x).length)) :
    SpellsAll call.op.arguments call.args
      (List.intercalate [32] (formatAll floatStr call.order call.op.arguments call.args)) rest := by
  simp only [Call.request, requestFrom, List.length_append] at short
  rcases arguments_float with exact_ | float
  · exact spellsAll_formatAll arguments_bool exact_ (by omega) follows
  · exact spellsAll_float float (by omega) floats

theorem Call.reads (call : Call) {end_ : Bool} (short : (call.request floatStr).length < 2 ^ 32)
    (follows : ∀ c, rest.head? = some c → isDigit c = false)
    (floats : ∀ x ∈ floatsIn _ call.args, stod (floatStr x ++ rest) = .ok (x, (floatStr x).length))
    (last : (end_ || call.op.insistsOnEnd) = true → rest = []) :
    Extractor.Reads maxSizeT (readRequest end_) call.decoded (call.request floatStr) rest := by
  have spelled := call.spelled short follows floats
  refine (reads_getOperation Blank.nil call.named spelled).bind ?_
  rw [← List.append_nil (List.intercalate _ _)]
  exact (reads_getExact last spelled).bind (.pure call.decoded)

theorem no_digit_pipeBody (calls : List Call) (c : UInt8) (first : (pipeBody floatStr calls).head? = some c) :
    isDigit c = false := by
  cases calls with
  | nil => cases first
  | cons call calls =>
    obtain ⟨d, more, same, letter⟩ := name_letter call.named
    simp only [pipeBody, List.flatMap_cons, Call.request, requestFrom, same] at first
    obtain rfl : d = c := Option.some.inj first
    unfold isDigit
    rw [decide_eq_false_iff_not]
    rintro ⟨-, digit⟩
    exact absurd (UInt8.le_trans letter digit) (by decide)

variable (floatStr) in
/-- `strtod` takes the text of every float as it stands, and no more. -/
def FloatsTaken : List Call → Prop
  | [] => True
  | call :: after =>
    (∀ x ∈ floatsIn _ call.args, stod (floatStr x ++ pipeBody floatStr after) = .ok (x, (floatStr x).length)) ∧
      FloatsTaken after

theorem FloatsTaken.at {before after : List Call} {call : Call} (floats : FloatsTaken floatStr (before ++ call :: after)) :
    ∀ x ∈ floatsIn _ call.args, stod (floatStr x ++ pipeBody floatStr after) = .ok (x, (floatStr x).length) := by
  induction before with
  | nil => exact floats.1
  | cons other before ih => exact ih floats.2

/-- Only the last request may be one that insists on the end of the message. -/
def EndsLast (calls : List Call) : Prop := ∀ call ∈ calls.dropLast, call.op ≠ .exit ∧ call.op ≠ .terminate

theorem EndsLast.last {before after : List Call} {call : Call} (ends : EndsLast (before ++ call :: after))
    (insists : call.op.insistsOnEnd = true) : after = [] := by
  cases after with
  | nil => rfl
  | cons next after =>
    have early : call ∈ (before ++ call :: next :: after).dropLast := by simp
    obtain ⟨exit, terminate⟩ := ends call early
    rcases OperationT.insistsOnEnd_iff.mp insists with same | same
    · exact absurd same exit
    · exact absurd same terminate

theorem reads_each {calls before after : List Call} {call : Call} (ends : EndsLast calls)
    (floats : FloatsTaken floatStr calls) (short : (pipeBody floatStr calls).length < 2 ^ 32)
    (split : calls = before ++ call :: after) :
    Extractor.Reads maxSizeT (readRequest after.isEmpty) call.decoded (call.request floatStr)
      (pipeBody floatStr after) := by
  have small : (call.request floatStr).length < 2 ^ 32 := by
    simp only [split, pipeBody, List.flatMap_append, List.flatMap_cons, List.length_append] at short
    omega
  subst split
  refine call.reads small (no_digit_pipeBody after) floats.at fun last => ?_
  rcases Bool.or_eq_true_iff.mp last with empty | insists
  · rw [List.isEmpty_iff.mp empty]
    rfl
  · rw [ends.last insists]
    rfl

theorem reads_all (calls after before : List Call) (ends : EndsLast calls) (floats : FloatsTaken floatStr calls)
    (short : (pipeBody floatStr calls).length < 2 ^ 32) (split : calls = before ++ after) :
    Extractor.Reads maxSizeT (readRequests after.length) (after.map Call.decoded) (pipeBody floatStr after) [] := by
  induction after generalizing before with
  | nil => exact .pure []
  | cons call after ih =>
    have first := reads_each ends floats short split
    cases after with
    | nil =>
      refine Extractor.Reads.bind ?_ (.pure [call.decoded])
      simpa [pipeBody] using first
    | cons next after =>
      have more := ih (before ++ [call]) (by simp [split])
      change Extractor.Reads _ _ _ (call.request floatStr ++ pipeBody floatStr (next :: after)) []
      refine Extractor.Reads.bind (by rwa [List.append_nil]) ?_
      rw [← List.append_nil (pipeBody floatStr (next :: after))]
      exact more.bind (.pure _)

end

/-- The requests of a pipe are read back one by one. Each read ends where the next request starts, and is
what `dispatch` does before it calls the handler. -/
theorem requests_read_back (floatStr : Float64 → Str) (calls : List Call) (ends : EndsLast calls)
    (floats : FloatsTaken floatStr calls) (front : Str) (short : (front ++ pipeBody floatStr calls).length < 2 ^ 32) :
    readRequests calls.length (front ++ pipeBody floatStr calls) front.length =
        .ok (calls.map Call.decoded) (front ++ pipeBody floatStr calls).length ∧
      ∀ before call after, calls = before ++ call :: after →
        readRequest after.isEmpty (front ++ pipeBody floatStr calls) (front ++ pipeBody floatStr before).length =
            .ok call.decoded (front ++ pipeBody floatStr (before ++ [call])).length ∧
          ∀ world handle client turn, turn.pos = (front ++ pipeBody floatStr before).length →
            dispatch (front ++ pipeBody floatStr calls) world handle client after.isEmpty turn =
              some (turn.call (request client call.op call.args) world
                (front ++ pipeBody floatStr (before ++ [call])).length) := by
  have inner : (pipeBody floatStr calls).length < 2 ^ 32 := by
    simp only [List.length_append] at short
    omega
  have room : (front ++ pipeBody floatStr calls).length < maxSizeT := by
    unfold maxSizeT
    omega
  refine ⟨?_, fun before call after split => ?_⟩
  · have all := reads_all calls calls [] ends floats inner rfl front (by rwa [List.append_nil])
    rwa [List.append_nil] at all
  have whole : front ++ pipeBody floatStr calls =
      front ++ pipeBody floatStr before ++ call.request floatStr ++ pipeBody floatStr after := by
    simp [split, pipeBody]
  have upTo : front ++ pipeBody floatStr (before ++ [call]) =
      front ++ pipeBody floatStr before ++ call.request floatStr := by
    simp [pipeBody]
  have read := reads_each ends floats inner split (front ++ pipeBody floatStr before) (by rwa [← whole])
  rw [whole, upTo]
  refine ⟨read, fun world handle client turn here => ?_⟩
  exact dispatch_readRequest call.single (by rw [here]; exact read)

noncomputable def someCalls : List Call :=
  [⟨.editUser, by decide, ascii "EDIT_USER", by decide, (ascii "u", .admin, ()), Order.startingWith []⟩,
   ⟨.incrFloat, by decide, ascii "INCR_FLOAT", by decide, (ascii "SET", (0x3ff8000000000000 : Float64), ()), Order.startingWith []⟩,
   ⟨.incrInt, by decide, ascii "INCR_INT", by decide, (ascii "(1)", (-20 : Int64), ()), Order.startingWith []⟩,
   ⟨.exit, by decide, ascii "EXIT", by decide, (), Order.startingWith []⟩]

theorem some_requests_read_back :
    readRequests 4 (ascii "PIPE(4)EDIT_USER(1)u ADMININCR_FLOAT(3)SET 1.5INCR_INT(3)(1) -20EXIT") 7 =
      .ok (someCalls.map Call.decoded) 68 := by
  have text : ascii "PIPE(4)" ++ pipeBody (fun _ => ascii "1.5") someCalls =
      ascii "PIPE(4)EDIT_USER(1)u ADMININCR_FLOAT(3)SET 1.5INCR_INT(3)(1) -20EXIT" := by
    decide +kernel
  have ends : EndsLast someCalls := by
    simp [EndsLast, someCalls]
  have floats : FloatsTaken (fun _ => ascii "1.5") someCalls := by
    have none_ : ∀ text, ∀ x ∈ ([] : List Float64), stod (ascii "1.5" ++ text) = .ok (x, 3) := by
      simp
    refine ⟨none_ _, ?_, none_ _, none_ _, trivial⟩
    intro x member
    obtain rfl : x = 0x3ff8000000000000 := List.mem_singleton.mp member
    decide +kernel
  have short : (ascii "PIPE(4)" ++ pipeBody (fun _ => ascii "1.5") someCalls).length < 2 ^ 32 := by
    decide +kernel
  have read := (requests_read_back (fun _ => ascii "1.5") someCalls ends floats (ascii "PIPE(4)") short).1
  rw [text] at read
  exact read

end Vanity.Client
