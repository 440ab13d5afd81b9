import Vanity.Library.Extractor
import Vanity.Request.Operations

/-!
# Extracting objects from a request

`extractable.cpp`, `request.cpp` and `object_t.h`. A position is a `size_t`, so that its sums are
taken modulo 2^64. What is thrown leaves the position where it was reached.
-/

namespace Vanity.Request

open Db (Str Float64)

/-- What a request can fail with: `InvalidRequest` with its message, or any other exception with what
it says. -/
inductive Failure where
  | invalidRequest (why : Str)
  | exception (what : Str)
  deriving DecidableEq

abbrev Extract := Extractor UInt8 Failure

def invalid {α : Type} (why : String) : Extract α := Extractor.throw (.invalidRequest (ascii why))

def maxSizeT : Nat := 2 ^ 64

-- behind the last character stands a NUL
def current : Extract UInt8 := fun msg pos => .ok (msg.getD pos 0) pos

def atEnd : Extract Bool := fun msg pos => .ok (decide (msg.length ≤ pos)) pos

/-- The characters from the current one on. -/
def remaining : Extract Str := fun msg pos => .ok (msg.drop pos) pos

def advance (count : Nat) : Extract Unit := fun _ pos => .ok () ((pos + count) % maxSizeT)

def hasUpTo (count : Nat) : Extract Bool := fun msg pos => .ok (decide ((pos + count) % maxSizeT ≤ msg.length)) pos

def expect (c : UInt8) (why : String) : Extract Unit := do
  if (← current) ≠ c then invalid why
  else advance 1

def skipWhitespace : Extract Unit := do
  advance ((← remaining).takeWhile isSpace).length

def ensureEnd : Extract Unit := do
  skipWhitespace
  if ← atEnd then return () else invalid "unexpected character at end of message"

def ensureEndIf (condition : Bool) : Extract Unit := if condition then ensureEnd else return ()

def ensureNotEnd : Extract Unit := do
  skipWhitespace
  if ← atEnd then invalid "unexpected end of message" else return ()

/-! ### Objects -/

-- the two exceptions of `stoa`, rethrown as an `InvalidRequest`
def converted {α : Type} (convert : Str → Except StoError (α × Nat)) (range invalid_ : String) : Extract α := do
  match convert (← remaining) with
  | .ok (value, count) =>
    advance count
    return value
  | .error .outOfRange => invalid range
  | .error .invalidArgument => invalid invalid_

def getLen : Extract Nat := do
  ensureNotEnd
  expect 40 "expected length specifier"
  let len ← converted stoull "length out of range" "invalid length"
  expect 41 "expected length specifier"
  return len

def getInt : Extract Int64 := do
  ensureNotEnd
  converted stoll "integer out of range" "invalid integer"

def getFloat : Extract Float64 := do
  ensureNotEnd
  converted stod "float out of range" "invalid float"

def getStr : Extract Str := do
  let len ← getLen
  if ← hasUpTo len then
    let text := (← remaining).take len
    advance len
    return text
  else invalid "string too short"

def times {α : Type} (read : Extract α) : Nat → Extract (List α)
  | 0 => return []
  | count + 1 => do
    let value ← read
    let values ← times read count
    return value :: values

-- `max_size()` of a vector of strings of 32 bytes each
def maxVectorSize : Nat := (2 ^ 63 - 1) / 32

def reserve (len : Nat) : Extract Unit :=
  if len > maxVectorSize then Extractor.throw (.exception (ascii "vector::reserve")) else return ()

/-- The getters of the collections: a length and as many elements between two brackets. -/
def getMany {α : Type} (openBracket closeBracket : UInt8) (opened closed : String) (prepare : Nat → Extract Unit)
    (read : Extract α) : Extract (List α) := do
  let len ← getLen
  expect openBracket opened
  prepare len
  let values ← times read len
  expect closeBracket closed
  return values

def getArr : Extract (List Str) :=
  getMany 91 93 "array not opened with bracket" "array not closed with bracket" reserve getStr

def getList : Extract (List Str) :=
  getMany 91 93 "list not opened with bracket" "list not closed with bracket" (fun _ => return ()) getStr

def getSet : Extract (Finset Str) := do
  let values ← getMany 123 125 "set not opened with '\x7b' bracket" "set not closed with '\x7d' bracket"
    (fun _ => return ()) getStr
  return values.toFinset

def getPair : Extract (Str × Str) := do
  let key ← getStr
  let value ← getStr
  return (key, value)

def getHash : Extract Db.HashT := do
  let entries ← getMany 123 125 "hash not opened with '\x7b' bracket" "hash not closed with '\x7d' bracket"
    (fun _ => return ()) getPair
  return entries.foldl Table.insertNew ∅

def getBool : Extract Bool := do
  ensureNotEnd
  let text ← remaining
  if (ascii "true").isPrefixOf text then
    advance 4
    return true
  else if (ascii "false").isPrefixOf text then
    advance 5
    return false
  else invalid "invalid boolean"

/-- The first entry whose string the text starts with. -/
def findFrom {α : Type} (list : List (α × Str)) (text : Str) : Option (α × Str) :=
  list.find? fun entry => entry.2.isPrefixOf text

def peekFromList {α : Type} (list : List (α × Str)) (why : String) : Extract α := do
  skipWhitespace
  match findFrom list (← remaining) with
  | some (value, _) => return value
  | none => invalid why

def getFromList {α : Type} (list : List (α × Str)) (why : String) : Extract α := do
  skipWhitespace
  match findFrom list (← remaining) with
  | some (value, text) =>
    advance text.length
    return value
  | none => invalid why

def getClientAuth : Extract ClientAuth := getFromList clientAuthStrings "invalid auth level"

def getOperation : Extract OperationT := getFromList operationStrings "invalid operation"

def peekOperation : Extract OperationT := peekFromList operationStrings "invalid operation"

/-- `object_t`. -/
inductive ObjectT where
  | str | int | float | arr | list | set | hash | bool | clientAuth
  deriving DecidableEq

def ObjectT.Concrete : ObjectT → Type
  | .str => Str
  | .int => Int64
  | .float => Float64
  | .arr => List Str
  | .list => List Str
  | .set => Finset Str
  | .hash => Db.HashT
  | .bool => Bool
  | .clientAuth => ClientAuth

/-- `concrete_t`. -/
def Concrete : List ObjectT → Type
  | [] => Unit
  | type :: types => type.Concrete × Concrete types

def get : (type : ObjectT) → Extract type.Concrete
  | .str => getStr
  | .int => getInt
  | .float => getFloat
  | .arr => getArr
  | .list => getList
  | .set => getSet
  | .hash => getHash
  | .bool => getBool
  | .clientAuth => getClientAuth

def getAll : (types : List ObjectT) → Extract (Concrete types)
  | [] => return ()
  | type :: types => do
    let value ← get type
    let values ← getAll types
    return (value, values)

def getExact (types : List ObjectT) (end_ : Bool) : Extract (Concrete types) := do
  let values ← getAll types
  ensureEndIf end_
  return values

/-! ### What the steps come to -/

section
variable (msg : Str) (pos : Nat)

/-- The position behind the white space. -/
def skipped : Nat := (pos + ((msg.drop pos).takeWhile isSpace).length) % maxSizeT

theorem skipWhitespace_apply : skipWhitespace msg pos = .ok () (skipped msg pos) := rfl

theorem ensureEnd_apply :
    ensureEnd msg pos =
      if msg.length ≤ skipped msg pos then .ok () (skipped msg pos)
      else .thrown (.invalidRequest (ascii "unexpected character at end of message")) (skipped msg pos) := by
  rw [ensureEnd, Extractor.bind_ok (skipWhitespace_apply msg pos)]
  by_cases done : msg.length ≤ skipped msg pos <;> simp [Extractor.bind_apply, atEnd, done, invalid]

theorem ensureNotEnd_apply :
    ensureNotEnd msg pos =
      if msg.length ≤ skipped msg pos then
        .thrown (.invalidRequest (ascii "unexpected end of message")) (skipped msg pos)
      else .ok () (skipped msg pos) := by
  rw [ensureNotEnd, Extractor.bind_ok (skipWhitespace_apply msg pos)]
  by_cases done : msg.length ≤ skipped msg pos <;> simp [Extractor.bind_apply, atEnd, done, invalid]

theorem expect_apply (c : UInt8) (why : String) :
    expect c why msg pos =
      if msg.getD pos 0 = c then .ok () ((pos + 1) % maxSizeT) else .thrown (.invalidRequest (ascii why)) pos := by
  rw [expect, Extractor.bind_ok (show current msg pos = .ok (msg.getD pos 0) pos from rfl)]
  by_cases same : msg.getD pos 0 = c
  · rw [if_pos same, if_neg (not_not.mpr same)]
    rfl
  · rw [if_neg same, if_pos same]
    rfl

variable {α : Type} (list : List (α × Str)) (why : String)

variable {list} in
theorem findFrom_some {text : Str} {entry : α × Str} (found : findFrom list text = some entry) :
    entry ∈ list ∧ ∃ behind, text = entry.2 ++ behind := by
  obtain ⟨listed, first⟩ := List.find?_eq_some_iff_getElem.mp found
  obtain ⟨behind, here⟩ := List.isPrefixOf_iff_prefix.mp listed
  exact ⟨List.mem_of_find?_eq_some found, behind, here.symm⟩

theorem peekFromList_apply :
    peekFromList list why msg pos = match findFrom list (msg.drop (skipped msg pos)) with
      | some (value, _) => .ok value (skipped msg pos)
      | none => .thrown (.invalidRequest (ascii why)) (skipped msg pos) := by
  rw [peekFromList, Extractor.bind_ok (skipWhitespace_apply msg pos)]
  simp only [Extractor.bind_apply, remaining]
  cases findFrom list (msg.drop (skipped msg pos)) <;> rfl

theorem getFromList_apply :
    getFromList list why msg pos = match findFrom list (msg.drop (skipped msg pos)) with
      | some (value, text) => .ok value ((skipped msg pos + text.length) % maxSizeT)
      | none => .thrown (.invalidRequest (ascii why)) (skipped msg pos) := by
  rw [getFromList, Extractor.bind_ok (skipWhitespace_apply msg pos)]
  simp only [Extractor.bind_apply, remaining]
  cases findFrom list (msg.drop (skipped msg pos)) <;> rfl

end

end Vanity.Request
