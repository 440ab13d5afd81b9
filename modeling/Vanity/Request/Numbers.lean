import Vanity.Db.Types
import Vanity.Library.Automaton

/-!
# Numbers in a message

The helpers of `extractable.cpp` around `strtoull`, `strtoll` and `strtod`, in the C locale. Each of
the three takes the longest prefix of its form behind leading white space. A NUL belongs to none of
the forms, so the end of a C string needs no case of its own.
-/

namespace Vanity.Request

open Db (Str Float64)

def ascii (text : String) : Str := text.toUTF8.data.toList

def isSpace (c : UInt8) : Bool := decide (c = 32 ∨ (9 ≤ c ∧ c ≤ 13))

def isDigit (c : UInt8) : Bool := decide (48 ≤ c ∧ c ≤ 57)

def isHexDigit (c : UInt8) : Bool := isDigit c || decide (65 ≤ c ∧ c ≤ 70) || decide (97 ≤ c ∧ c ≤ 102)

def isSign (c : UInt8) : Bool := decide (c = 43 ∨ c = 45)

-- the letter in either case
def isLetter (upper : UInt8) (c : UInt8) : Bool := decide (c = upper ∨ c = upper + 32)

/-- What `stoa` throws. -/
inductive StoError where
  | invalidArgument
  | outOfRange
  deriving DecidableEq

/-- `stoa`: the text that the conversion takes is handed to `value`, which says `none` for `ERANGE`.
The result comes with the number of characters used. -/
def stoa {α : Type} (form : Automaton UInt8) (value : Str → Option α) (str : Str) : Except StoError (α × Nat) :=
  let text := str.dropWhile isSpace
  match form.longest text with
  | none => .error .invalidArgument
  | some count =>
    match value (text.take count) with
    | none => .error .outOfRange
    | some result => .ok (result, (str.takeWhile isSpace).length + count)

/-! ### Integers -/

inductive IntState where
  | start
  | sign
  | digits
  deriving DecidableEq

def integerForm : Automaton UInt8 where
  State := IntState
  start := .start
  step s c :=
    match s with
    | .start => if isSign c then some .sign else if isDigit c then some .digits else none
    | .sign | .digits => if isDigit c then some .digits else none
  accepting s := decide (s = .digits)

def magnitude (text : Str) : Nat := (text.filter isDigit).foldl (fun n c => 10 * n + (c.toNat - 48)) 0

def isNegative (text : Str) : Bool := decide (text.head? = some 45)

-- a minus sign is taken too and negates the result in the unsigned type
def stoull : Str → Except StoError (Nat × Nat) :=
  stoa integerForm fun text =>
    if magnitude text ≥ 2 ^ 64 then none
    else some (if isNegative text then (2 ^ 64 - magnitude text) % 2 ^ 64 else magnitude text)

def stoll : Str → Except StoError (Int64 × Nat) :=
  stoa integerForm fun text =>
    let n : Int := if isNegative text then -magnitude text else magnitude text
    if n < -2 ^ 63 ∨ n ≥ 2 ^ 63 then none else some (Int64.ofInt n)

/-! ### Floating point numbers -/

inductive FloatState where
  | start | sign
  | zero | int | point | frac | expMark | expSign | exp
  | hexMark | hexInt | hexPoint | hexFrac | hexExpMark | hexExpSign | hexExp
  | i | in_ | inf | infi | infin | infini | infinit | infinity
  | n | na | nan | nanOpen | nanClosed
  deriving DecidableEq

def FloatState.begin (c : UInt8) : Option FloatState :=
  if c = 48 then some .zero
  else if isDigit c then some .int
  else if c = 46 then some .point
  else if isLetter 73 c then some .i
  else if isLetter 78 c then some .n
  else none

def FloatState.step (s : FloatState) (c : UInt8) : Option FloatState :=
  let on (taken : Bool) (next : FloatState) : Option FloatState := if taken then some next else none
  match s with
  | .start => if isSign c then some .sign else begin c
  | .sign => begin c
  | .zero =>
    if isLetter 88 c then some .hexMark
    else if isDigit c then some .int
    else if c = 46 then some .frac
    else on (isLetter 69 c) .expMark
  | .int => if isDigit c then some .int else if c = 46 then some .frac else on (isLetter 69 c) .expMark
  | .point => on (isDigit c) .frac
  | .frac => if isDigit c then some .frac else on (isLetter 69 c) .expMark
  | .expMark => if isSign c then some .expSign else on (isDigit c) .exp
  | .expSign | .exp => on (isDigit c) .exp
  | .hexMark => if isHexDigit c then some .hexInt else on (decide (c = 46)) .hexPoint
  | .hexInt =>
    if isHexDigit c then some .hexInt else if c = 46 then some .hexFrac else on (isLetter 80 c) .hexExpMark
  | .hexPoint => on (isHexDigit c) .hexFrac
  | .hexFrac => if isHexDigit c then some .hexFrac else on (isLetter 80 c) .hexExpMark
  | .hexExpMark => if isSign c then some .hexExpSign else on (isDigit c) .hexExp
  | .hexExpSign | .hexExp => on (isDigit c) .hexExp
  | .i => on (isLetter 78 c) .in_
  | .in_ => on (isLetter 70 c) .inf
  | .inf => on (isLetter 73 c) .infi
  | .infi => on (isLetter 78 c) .infin
  | .infin => on (isLetter 73 c) .infini
  | .infini => on (isLetter 84 c) .infinit
  | .infinit => on (isLetter 89 c) .infinity
  | .infinity => none
  | .n => on (isLetter 65 c) .na
  | .na => on (isLetter 78 c) .nan
  | .nan => on (decide (c = 40)) .nanOpen
  | .nanOpen =>
    if c = 41 then some .nanClosed
    else on (isDigit c || decide (c = 95) || decide (65 ≤ c ∧ c ≤ 90) || decide (97 ≤ c ∧ c ≤ 122)) .nanOpen
  | .nanClosed => none

def floatForm : Automaton UInt8 where
  State := FloatState
  start := .start
  step := FloatState.step
  accepting
    | .zero | .int | .frac | .exp | .hexInt | .hexFrac | .hexExp | .inf | .infinity | .nan | .nanClosed => true
    | _ => false

/-- The double nearest to `num / den`, ties to even, without its sign; `none` for `ERANGE`, which
`strtod` reports when the number is too large or tiny and not exact. -/
def nearestDouble (num den : Nat) : Option Nat :=
  if num = 0 then some 0
  else
    let guess : Int := (num.log2 : Int) - den.log2
    let lead := if num * 2 ^ (-guess).toNat < den * 2 ^ guess.toNat then guess - 1 else guess
    let place := max (lead - 52) (-1074)
    let top := num * 2 ^ (-place).toNat
    let bottom := den * 2 ^ place.toNat
    let rounded :=
      if 2 * (top % bottom) > bottom ∨ (2 * (top % bottom) = bottom ∧ top / bottom % 2 = 1) then top / bottom + 1
      else top / bottom
    let bits := if rounded < 2 ^ 52 then rounded else (place + 1075).toNat * 2 ^ 52 + (rounded - 2 ^ 52)
    let tiny := num * 2 ^ 1076 < den * (2 ^ 54 - 1)
    if bits ≥ 2047 * 2 ^ 52 ∨ (tiny ∧ top % bottom ≠ 0) then none else some bits

def hexValue (c : UInt8) : Nat :=
  if isDigit c then c.toNat - 48 else if c ≤ 70 then c.toNat - 55 else c.toNat - 87

def exponentOf (text : Str) : Int := if isNegative text then -magnitude text else magnitude text

/-- A number with digits in `base`, a point and an exponent of `scale` behind `mark`. -/
def scaledValue (isBaseDigit : UInt8 → Bool) (base scale pointScale : Nat) (mark : UInt8) (text : Str) : Option Nat :=
  let mantissa := text.takeWhile fun c => !isLetter mark c
  let places := ((mantissa.dropWhile fun c => decide (c ≠ 46)).filter isBaseDigit).length
  let digits := (mantissa.filter isBaseDigit).foldl (fun n c => base * n + hexValue c) 0
  let exponent := exponentOf ((text.dropWhile fun c => !isLetter mark c).drop 1)
  let exponent := exponent - pointScale * places
  nearestDouble (digits * scale ^ exponent.toNat) (scale ^ (-exponent).toNat)

def infinityBits : Nat := 2047 * 2 ^ 52

-- the quiet NaN; what stands between the parentheses is not kept
def nanBits : Nat := infinityBits + 2 ^ 51

def strtodValue (text : Str) : Option Float64 :=
  let body := text.dropWhile isSign
  let bits :=
    if body.head?.any (isLetter 78) then some nanBits
    else if body.head?.any (isLetter 73) then some infinityBits
    else if (body.drop 1).head?.any (isLetter 88) then scaledValue isHexDigit 16 2 4 80 (body.drop 2)
    else scaledValue isDigit 10 10 1 69 body
  bits.map fun bits => UInt64.ofNat (bits + if isNegative text then 2 ^ 63 else 0)

def stod : Str → Except StoError (Float64 × Nat) := stoa floatForm strtodValue

end Vanity.Request
