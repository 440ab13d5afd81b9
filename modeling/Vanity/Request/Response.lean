import Vanity.Request.Operations

/-!
# Responses

`response.h`, `response_server.h`, `aggregate_response.h` and the reply to a peer's authentication. A
response keeps what it was composed from; `body` is the text that `Sendable` sends.
-/

namespace Vanity.Request

open Db (Str Float64)

/-- `Response::Status`. -/
inductive Status where
  | ok | null | pong | denied | error | badType | badRequest | internalError | async
  deriving DecidableEq

def Status.text : Status → Str
  | .ok => ascii "OK"
  | .null => ascii "NULL"
  | .pong => ascii "PONG"
  | .denied => ascii "DENIED"
  | .error => ascii "ERROR"
  | .badType => ascii "BAD_TYPE"
  | .badRequest => ascii "BAD_REQUEST"
  | .internalError => ascii "INTERNAL_ERROR"
  | .async => ascii "ASYNC"

/-- What `serialize` takes. The elements of a set and the entries of a hash come in the order of their
iteration. -/
inductive Value where
  | null
  | bool (flag : Bool)
  | int (n : Int64)
  | float (x : Float64)
  | str (text : Str)
  | arr (elements : List Str)
  | list (elements : List Str)
  | set (elements : List Str)
  | hash (entries : List (Str × Str))
  | auth (level : ClientAuth)
  | err (text : Str)
  deriving DecidableEq

def Value.typeName : Value → Str
  | .null => ascii ":NULL"
  | .bool _ => ascii ":BOOL"
  | .int _ => ascii ":INT"
  | .float _ => ascii ":FLOAT"
  | .str _ => ascii ":STR"
  | .arr _ => ascii ":ARR"
  | .list _ => ascii ":LIST"
  | .set _ => ascii ":SET"
  | .hash _ => ascii ":HASH"
  | .auth _ => ascii ":AUTH_LEVEL"
  | .err _ => ascii ":ERR"

def natText (n : Nat) : Str := (Nat.toDigits 10 n).map fun c => UInt8.ofNat c.toNat

def intText (n : Int) : Str := if n < 0 then 45 :: natText n.natAbs else natText n.natAbs

/-- `std::to_string` of a double: six places, the exact value rounded to even. -/
def floatText (x : Float64) : Str :=
  let bits := x.toNat
  let sign : Str := if bits ≥ 2 ^ 63 then [45] else []
  let exponent := bits / 2 ^ 52 % 2 ^ 11
  let fraction := bits % 2 ^ 52
  if exponent = 2047 then sign ++ (if fraction = 0 then ascii "inf" else ascii "nan")
  else
    let mantissa := if exponent = 0 then fraction else fraction + 2 ^ 52
    let place : Int := (max exponent 1 : Nat) - 1075
    let top := mantissa * 10 ^ 6 * 2 ^ place.toNat
    let bottom := 2 ^ (-place).toNat
    let micros :=
      if 2 * (top % bottom) > bottom ∨ (2 * (top % bottom) = bottom ∧ top / bottom % 2 = 1) then top / bottom + 1
      else top / bottom
    let places := natText (micros % 10 ^ 6)
    sign ++ natText (micros / 10 ^ 6) ++ [46] ++ List.replicate (6 - places.length) 48 ++ places

def serializeLength (length : Nat) : Str := [40] ++ natText length ++ [41]

def serializeStringBody (text : Str) : Str := serializeLength text.length ++ text

def serializeStrings (openBracket closeBracket : UInt8) (size : Nat) (texts : List Str) : Str :=
  serializeLength size ++ [openBracket] ++ texts.flatMap serializeStringBody ++ [closeBracket]

def ClientAuth.text : ClientAuth → Str
  | .user => ascii "USER"
  | .admin => ascii "ADMIN"
  | .unknown => ascii "UNKNOWN"
  | .peer => ascii "PEER"

def Value.body : Value → Str
  | .null => []
  | .bool flag => if flag then ascii "true" else ascii "false"
  | .int n => intText n.toInt
  | .float x => floatText x
  | .str text => serializeStringBody text
  | .arr elements => serializeStrings 91 93 elements.length elements
  | .list elements => serializeStrings 91 93 elements.length elements
  | .set elements => serializeStrings 123 125 elements.length elements
  | .hash entries => serializeStrings 123 125 entries.length (entries.flatMap fun entry => [entry.1, entry.2])
  | .auth level => level.text
  | .err text => serializeStringBody text

def Value.serialize (value : Value) : Str := value.typeName ++ value.body

/-- What follows the status: nothing, a value, the name of a type alone, or a tuple. -/
inductive Payload where
  | nothing
  | value (content : Value)
  | type (content : Value)
  | tuple (contents : List Value)
  deriving DecidableEq

def Payload.serialize : Payload → Str
  | .nothing => []
  | .value content => content.serialize
  | .type content => content.typeName
  | .tuple contents =>
    ascii ":TUPLE" ++ serializeLength contents.length ++ [40] ++ contents.flatMap Value.serialize ++ [41]

inductive ReplyStatus where
  | ok | err | denied | redirect
  deriving DecidableEq

def ReplyStatus.text : ReplyStatus → Str
  | .ok => ascii "OK"
  | .err => ascii "ERR"
  | .denied => ascii "DENIED"
  | .redirect => ascii "REDIRECT"

/-- A response as it was composed. `later` stands where `CLUSTER_JOIN` has left its reply to the answer
of the peer, and nothing is sent for it now. -/
inductive Response where
  | plain (status : Status) (payload : Payload)
  | reply (id : Int64) (status : ReplyStatus) (text : Option Str)
  | later
  | agg (size : Nat) (parts : List Response)

namespace Response

-- `append` hands the body over as a C string, which ends at the first NUL
def cString (text : Str) : Str := text.takeWhile fun c => decide (c ≠ 0)

mutual

def body : Response → Str
  | .plain status payload => status.text ++ payload.serialize
  | .reply id status text =>
    ascii "REPLY" ++ intText id.toInt ++ [32] ++ status.text ++ (text.map serializeStringBody).getD []
  | .later => []
  | .agg size parts => ascii "OK:AGG" ++ serializeLength size ++ appended parts

def appended : List Response → Str
  | [] => []
  | part :: parts => cString part.body ++ appended parts

end

mutual

/-- Every aggregate in the response has as many parts as it says. -/
def Exact : Response → Prop
  | .agg size parts => parts.length = size ∧ AllExact parts
  | _ => True

def AllExact : List Response → Prop
  | [] => True
  | part :: parts => Exact part ∧ AllExact parts

end

def isBadRequest : Response → Bool
  | .plain .badRequest _ => true
  | _ => false

end Response

/-! ### The shortcuts of `ResponseServer` -/

def ok (value : Value) : Response := .plain .ok (.value value)

def okEmpty : Response := .plain .ok .nothing

def null : Response := .plain .null .nothing

def pong : Response := .plain .pong .nothing

def denied : Response := .plain .denied .nothing

def error (text : Str) : Response := .plain .error (.value (.err text))

def badType (text : Str) : Response := .plain .badType (.value (.err text))

def badRequest (text : Str) : Response := .plain .badRequest (.value (.err text))

def internalError (text : Str) : Response := .plain .internalError (.value (.err text))

end Vanity.Request
