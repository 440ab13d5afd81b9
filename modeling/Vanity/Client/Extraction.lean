import Vanity.Library.Decoder
import Vanity.Request.Response
import Vanity.Request.Extractable

/-!
# Responses as the client reads them

`response.py`, with one byte for a character. What `float` makes of a text stays a parameter. Reading is cut off at a
depth of nested values.
-/

namespace Vanity.Client

open Db (Str Float64)
open Request

/-! ### Of the language -/

-- `str.isspace`
def isBlank (c : UInt8) : Bool := decide ((9 ≤ c ∧ c ≤ 13) ∨ (28 ≤ c ∧ c ≤ 32) ∨ c = 133 ∨ c = 160)

-- `str.isdigit`, which holds of the superscripts as well
def isNumeral (c : UInt8) : Bool := isDigit c || decide (c = 178 ∨ c = 179 ∨ c = 185)

def lstrip (msg : Str) : Str := msg.dropWhile isBlank

def strip (msg : Str) : Str := ((lstrip msg).reverse.dropWhile isBlank).reverse

-- digits with single underscores between them
def digitGroups : Bool → Str → Bool
  | behindDigit, [] => behindDigit
  | behindDigit, c :: text =>
    if isDigit c then digitGroups true text else if c = 95 ∧ behindDigit then digitGroups false text else false

/-- `int`, or `none` for a `ValueError`. -/
def toInt (msg : Str) : Option Int :=
  let ofDigits (sign : Int) (digits : Str) : Option Int :=
    if digitGroups false digits then some (sign * magnitude digits) else none
  match strip msg with
  | 45 :: digits => ofDigits (-1) digits
  | 43 :: digits => ofDigits 1 digits
  | digits => ofDigits 1 digits

-- `msg[:num]` and `msg[num:]`, which count from the end for a negative `num`
def sliceTo (num : Int) (msg : Str) : Str := if num < 0 then msg.take (msg.length - num.natAbs) else msg.take num.toNat

def sliceFrom (num : Int) (msg : Str) : Str := if num < 0 then msg.drop (msg.length - num.natAbs) else msg.drop num.toNat

/-! ### Values -/

inductive ServerConstant where
  | ok | null | error | pong | denied | internalError | badRequest | badType | badState | queued | async
  deriving DecidableEq

def serverConstants : List (ServerConstant × Str) :=
  [(.ok, ascii "OK"), (.null, ascii "NULL"), (.error, ascii "ERROR"), (.pong, ascii "PONG"),
   (.denied, ascii "DENIED"), (.internalError, ascii "INTERNAL_ERROR"), (.badRequest, ascii "BAD_REQUEST"),
   (.badType, ascii "BAD_TYPE"), (.badState, ascii "BAD_STATE"), (.queued, ascii "QUEUED"), (.async, ascii "ASYNC")]

inductive ServerType where
  | string | int | float | array | tuple | list | null | set | bool | hash | agg | authLevel | err
  deriving DecidableEq

/-- The prefixes that `extract_type` tries, in its order. -/
def serverTypes : List (ServerType × Str) :=
  [(.string, ascii ":STR"), (.int, ascii ":INT"), (.float, ascii ":FLOAT"), (.null, ascii ":NULL"),
   (.array, ascii ":ARR"), (.tuple, ascii ":TUPLE"), (.list, ascii ":LIST"), (.set, ascii ":SET"),
   (.bool, ascii ":BOOL"), (.hash, ascii ":HASH"), (.agg, ascii ":AGG"), (.authLevel, ascii ":AUTH_LEVEL"),
   (.err, ascii ":ERR")]

/-- `AuthLevel`, in its order. -/
def authLevels : List (ClientAuth × Str) :=
  [(.unknown, ascii "UNKNOWN"), (.user, ascii "USER"), (.peer, ascii "PEER"), (.admin, ascii "ADMIN")]

mutual

/-- `RawResponse.ValueType`. A string that could not be extracted is `None` also inside a collection. -/
inductive Content where
  | none
  | str (text : Str)
  | int (n : Int)
  | float (x : Float64)
  | strings (elements : List (Option Str))
  | tuple (elements : List Content)
  | set (elements : Finset (Option Str))
  | bool (flag : Bool)
  | hash (elements : Table (Option Str) (Option Str))
  | responses (responses : List RawResponse)
  | authLevel (level : ClientAuth)

inductive RawResponse where
  | mk (status : ServerConstant) (type : Option ServerType) (value : Content)

end

def Content.isNone : Content → Bool
  | .none => true
  | _ => false

inductive Raised where
  | invalidResponse (why : Str)
  | valueError
  | tooDeep

abbrev Extraction := Decoder UInt8 Raised

/-! ### The extractors -/

/-- The first text of a table that the message starts with, and the white space behind it. -/
def extractFrom {α : Type} (table : List (α × Str)) : Extraction (Option α) := do
  let msg ← .left
  match findFrom table msg with
  | some (value, text) =>
    .goTo (lstrip (msg.drop text.length))
    return some value
  | none => return none

def extractStatus : Extraction (Option ServerConstant) := extractFrom serverConstants

def extractType : Extraction (Option ServerType) := extractFrom serverTypes

def extractLen : Extraction (Option Int) := do
  match ← .left with
  | 40 :: msg =>
    let num := msg.takeWhile (· ≠ 41)
    match msg.dropWhile (· ≠ 41) with
    | [] => .throw .valueError
    | _ :: msg =>
      match toInt num with
      | none => .throw (.invalidResponse (ascii "Could not extract length from " ++ num ++ ascii "."))
      | some len =>
        .goTo msg
        return some len
  | _ => return none

def extractStr : Extraction (Option Str) := do
  match ← extractLen with
  | none => return none
  | some num =>
    let msg ← .left
    .goTo (sliceFrom num msg)
    return some (sliceTo num msg)

-- `extract_int` and `extract_float`
def extractNumber {α : Type} (belongs : UInt8 → Bool) (convert : Str → Option α) : Extraction (Option α) := do
  let msg ← .left
  let num := msg.takeWhile belongs
  if num = [] then return none
  else match convert num with
    | none => return none
    | some value =>
      .goTo (lstrip (msg.drop num.length))
      return some value

def extractInt : Extraction (Option Int) := extractNumber (fun c => isNumeral c || decide (c = 45)) toInt

def extractFloat (toFloat : Str → Option Float64) : Extraction (Option Float64) :=
  extractNumber (fun c => isNumeral c || decide (c = 46) || decide (c = 45)) toFloat

/-- The extractors of the collections: a length and as many elements between two brackets. -/
def extractMany {α : Type} (openBracket closeBracket : UInt8) (why : String) (element : Extraction α) :
    Extraction (Option (List α)) := do
  match ← extractLen with
  | none => return none
  | some num =>
    let msg ← .left
    if msg.head? ≠ some openBracket then return none
    else
      .goTo (lstrip (msg.drop 1))
      let elements ← .times element num.toNat
      let msg ← .left
      if msg.head? ≠ some closeBracket then .throw (.invalidResponse (ascii why))
      else
        .goTo (lstrip (msg.drop 1))
        return some elements

def extractArray : Extraction (Option (List (Option Str))) := extractMany 91 93 "Message did not end with ']'." extractStr

def extractList : Extraction (Option (List (Option Str))) := extractMany 91 93 "Message did not end with ']'." extractStr

def extractSet : Extraction (Option (Finset (Option Str))) := do
  let elements ← extractMany 123 125 "Message did not end with '\x7b'." extractStr
  return elements.map List.toFinset

def extractItem : Extraction (Option Str × Option Str) := do
  let key ← extractStr
  let value ← extractStr
  return (key, value)

def extractHash : Extraction (Option (Table (Option Str) (Option Str))) := do
  let elements ← extractMany 123 125 "Message did not end with '\x7d'." extractItem
  return elements.map fun elements => elements.foldl Table.assign ∅

def extractBool : Extraction (Option Bool) := extractFrom [(true, ascii "true"), (false, ascii "false")]

def extractAuthLevel : Extraction (Option ClientAuth) := extractFrom authLevels

def extractErr : Extraction (Option Str) := extractStr

def extractElement (extractAs : ServerType → Extraction Content) : Extraction Content := do
  match ← extractType with
  | none => .throw (.invalidResponse (ascii "Could not extract type from " ++ (← .left) ++ ascii "."))
  | some type =>
    let element ← extractAs type
    if element.isNone && type ≠ .null then
      .throw (.invalidResponse (ascii "Could not extract element from " ++ (← .left) ++ ascii "."))
    else return element

def extractTuple (extractAs : ServerType → Extraction Content) : Extraction (Option (List Content)) :=
  extractMany 40 41 "Message did not end with ')'." (extractElement extractAs)

def extractAgg (extractResponse : Extraction RawResponse) : Extraction (Option (List RawResponse)) := do
  match ← extractLen with
  | none => return none
  | some num =>
    let responses ← .times extractResponse num.toNat
    return some responses

def extractResponseBy (extractAs : ServerType → Extraction Content) : Extraction RawResponse := do
  match ← extractStatus with
  | none => .throw (.invalidResponse (ascii "No status could be extracted."))
  | some status =>
    match ← extractType with
    | none => return ⟨status, none, .none⟩
    | some type =>
      let value ← extractAs type
      return ⟨status, some type, value⟩

section
variable (toFloat : Str → Option Float64)

def Content.of {α : Type} (make : α → Content) (value : Option α) : Content := (value.map make).getD .none

def extractAs : Nat → ServerType → Extraction Content
  | 0, _ => .throw .tooDeep
  | depth + 1, type =>
    match type with
    | .string => return .of .str (← extractStr)
    | .int => return .of .int (← extractInt)
    | .float => return .of .float (← extractFloat toFloat)
    | .array => return .of .strings (← extractArray)
    | .tuple => return .of .tuple (← extractTuple (extractAs depth))
    | .list => return .of .strings (← extractList)
    | .null => return .none
    | .set => return .of .set (← extractSet)
    | .bool => return .of .bool (← extractBool)
    | .hash => return .of .hash (← extractHash)
    | .agg => return .of .responses (← extractAgg (extractResponseBy (extractAs depth)))
    | .authLevel => return .of .authLevel (← extractAuthLevel)
    | .err => return .of .str (← extractErr)

def extractResponse (depth : Nat) : Extraction RawResponse := extractResponseBy (extractAs toFloat depth)

end

end Vanity.Client
