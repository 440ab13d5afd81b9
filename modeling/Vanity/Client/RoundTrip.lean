import Vanity.Client.Extraction
import Vanity.Request.Spelling

/-!
# The client reads what the server writes

A synchronous response is a status with what follows it, or an aggregate of synchronous responses. The client finds
its status, its type and its value again and stops behind it, whatever response follows.
-/

namespace Vanity.Client

open Db (Str Float64)
open Request

/-! ### What a response says -/

def constantOf : Status → ServerConstant
  | .ok => .ok
  | .null => .null
  | .pong => .pong
  | .denied => .denied
  | .error => .error
  | .badType => .badType
  | .badRequest => .badRequest
  | .internalError => .internalError
  | .async => .async

def typeOf : Value → ServerType
  | .null => .null
  | .bool _ => .bool
  | .int _ => .int
  | .float _ => .float
  | .str _ => .string
  | .arr _ => .array
  | .list _ => .list
  | .set _ => .set
  | .hash _ => .hash
  | .auth _ => .authLevel
  | .err _ => .err

def contentOf : Value → Content
  | .null => .none
  | .bool flag => .bool flag
  | .int n => .int n.toInt
  | .float x => .float x
  | .str text => .str text
  | .arr elements => .strings (elements.map some)
  | .list elements => .strings (elements.map some)
  | .set elements => .set (elements.map some).toFinset
  | .hash entries => .hash ((entries.map fun entry => (some entry.1, some entry.2)).foldl Table.assign ∅)
  | .auth level => .authLevel level
  | .err text => .str text

def payloadOf : Payload → Option ServerType × Content
  | .nothing => (none, .none)
  | .value content => (some (typeOf content), contentOf content)
  | .type content => (some (typeOf content), .none)
  | .tuple contents => (some .tuple, .tuple (contents.map contentOf))

def isFloat : Value → Bool
  | .float _ => true
  | _ => false

/-- No float is written. -/
def exactPayload : Payload → Bool
  | .nothing | .type _ => true
  | .value content => !isFloat content
  | .tuple contents => contents.all fun content => !isFloat content

inductive Synchronous where
  | plain (status : Status) (payload : Payload) (exact_ : exactPayload payload = true)
  | agg (parts : List Synchronous)

mutual

def Synchronous.response : Synchronous → Response
  | .plain status payload _ => .plain status payload
  | .agg parts => .agg parts.length (responsesOf parts)

def responsesOf : List Synchronous → List Response
  | [] => []
  | part :: parts => part.response :: responsesOf parts

end

mutual

def Synchronous.raw : Synchronous → RawResponse
  | .plain status payload _ => ⟨constantOf status, (payloadOf payload).1, (payloadOf payload).2⟩
  | .agg parts => ⟨.ok, some .agg, .responses (rawsOf parts)⟩

def rawsOf : List Synchronous → List RawResponse
  | [] => []
  | part :: parts => part.raw :: rawsOf parts

end

mutual

/-- The body of every aggregate is the concatenation of the bodies of its parts. -/
def Synchronous.Concatenated : Synchronous → Prop
  | .plain _ _ _ => True
  | .agg parts =>
    Response.appended (responsesOf parts) = (responsesOf parts).flatMap Response.body ∧ AllConcatenated parts

def AllConcatenated : List Synchronous → Prop
  | [] => True
  | part :: parts => part.Concatenated ∧ AllConcatenated parts

end

mutual

/-- How deep values are nested in a response. -/
def Synchronous.depth : Synchronous → Nat
  | .plain _ _ _ => 2
  | .agg parts => depthOf parts + 1

def depthOf : List Synchronous → Nat
  | [] => 0
  | part :: parts => max part.depth (depthOf parts)

end

/-- A text in which a response can come next. -/
def Opens (following : Str) : Prop := following = [] ∨ ∃ entry ∈ serverConstants, entry.2 <+: following

/-- No extractor reads on into the text. -/
def Closed (rest : Str) : Prop := ∀ c, rest.head? = some c → isBlank c = false ∧ isNumeral c = false ∧ c ≠ 45

/-! ### Numbers -/

theorem isBlank_of_digit {c : UInt8} (digit : isDigit c = true) : isBlank c = false := by
  simp only [isDigit, isBlank, decide_eq_true_eq, decide_eq_false_iff_not, UInt8.le_iff_toNat_le, ← UInt8.toNat_inj]
    at digit ⊢
  simp at digit ⊢
  omega

theorem strip_eq {text : Str} (visible : ∀ c ∈ text, isBlank c = false) : strip text = text := by
  have front : text.dropWhile isBlank = text := by
    cases text with
    | nil => rfl
    | cons c text => simp [visible c (by simp)]
  have back : text.reverse.dropWhile isBlank = text.reverse := by
    cases reversed : text.reverse with
    | nil => rfl
    | cons c more =>
      have member : c ∈ text := by
        rw [← List.mem_reverse, reversed]
        exact List.mem_cons_self
      simp [visible c member]
  rw [strip, lstrip, front, back, List.reverse_reverse]

theorem digitGroups_digits {text : Str} (digits : ∀ c ∈ text, isDigit c = true) (some_ : text ≠ []) (behindDigit : Bool) :
    digitGroups behindDigit text = true := by
  induction text generalizing behindDigit with
  | nil => exact absurd rfl some_
  | cons c text ih =>
    rw [digitGroups, if_pos (digits c (by simp))]
    cases text with
    | nil => rfl
    | cons d text => exact ih (fun e member => digits e (by simp [member])) (by simp) true

theorem natText_ne_nil (n : Nat) : natText n ≠ [] := by
  obtain ⟨c, text, same, -⟩ := natText_cons n
  simp [same]

theorem toInt_natText (n : Nat) : toInt (natText n) = some (n : Int) := by
  have plain : strip (natText n) = natText n := strip_eq fun c member => isBlank_of_digit (natText_digits member)
  have digits := digitGroups_digits (fun c member => natText_digits member) (natText_ne_nil n) false
  have size := magnitude_natText n
  obtain ⟨c, text, same, digit⟩ := natText_cons n
  obtain ⟨-, unsigned⟩ := digit_visible digit
  simp only [isSign, decide_eq_false_iff_not, not_or] at unsigned
  rw [same] at plain digits size
  rw [same]
  simp only [toInt, plain]
  split
  · rename_i other
    exact absurd (List.cons.inj other).1 unsigned.2
  · rename_i other
    exact absurd (List.cons.inj other).1 unsigned.1
  · rw [if_pos digits, size, Int.one_mul]

theorem toInt_intText (n : Int) : toInt (intText n) = some n := by
  unfold intText
  split
  · rename_i negative
    have plain : strip (45 :: natText n.natAbs) = 45 :: natText n.natAbs := by
      apply strip_eq
      rintro c (_ | ⟨_, member⟩)
      · rfl
      · exact isBlank_of_digit (natText_digits member)
    have digits := digitGroups_digits (fun c member => natText_digits member) (natText_ne_nil n.natAbs) false
    simp only [toInt, plain]
    rw [if_pos digits, magnitude_natText]
    congr 1
    omega
  · rename_i positive
    rw [toInt_natText]
    congr 1
    omega

/-! ### The extractors -/

theorem Closed.lstrip {rest : Str} (closed : Closed rest) : Client.lstrip rest = rest := by
  cases rest with
  | nil => rfl
  | cons c rest => simp [Client.lstrip, (closed c rfl).1]

theorem closed_cons {c : UInt8} {rest : Str} (calm : isBlank c = false ∧ isNumeral c = false ∧ c ≠ 45) : Closed (c :: rest) := by
  intro d first
  obtain rfl := Option.some.inj first
  exact calm

variable {rest : Str}

theorem takes_extractFrom {α : Type} {table : List (α × Str)} {value : α} {text : Str} (plain : lstrip rest = rest)
    (found : findFrom table (text ++ rest) = some (value, text)) : (extractFrom table).Takes (some value) text rest := by
  unfold Decoder.Takes extractFrom
  simp only [Decoder.left_bind, found, Decoder.goTo_bind, Decoder.pure_apply, List.drop_left, plain]

theorem takes_extractLen (n : Nat) (rest : Str) : extractLen.Takes (some (n : Int)) (serializeLength n) rest := by
  have inside : ∀ c ∈ natText n, decide (c ≠ 41) = true := by
    intro c member
    have digit := natText_digits member
    rw [decide_eq_true_eq]
    rintro rfl
    cases digit
  have taken : (natText n ++ 41 :: rest).takeWhile (fun c => decide (c ≠ 41)) = natText n := by
    rw [List.takeWhile_append_of_pos inside]
    simp
  have dropped : (natText n ++ 41 :: rest).dropWhile (fun c => decide (c ≠ 41)) = 41 :: rest := by
    rw [List.dropWhile_append_of_pos inside]
    simp
  have text : serializeLength n ++ rest = 40 :: (natText n ++ 41 :: rest) := by
    simp [serializeLength]
  unfold Decoder.Takes extractLen
  rw [text]
  simp only [Decoder.left_bind, taken, dropped, toInt_natText, Decoder.goTo_bind, Decoder.pure_apply]

theorem takes_extractStr (text rest : Str) : extractStr.Takes (some text) (serializeStringBody text) rest := by
  refine (takes_extractLen text.length (text ++ rest)).bind ?_
  unfold Decoder.Takes
  simp [sliceTo, sliceFrom]

theorem takes_extractInt (n : Int) (closed : Closed rest) : extractInt.Takes (some n) (intText n) rest := by
  have inside : ∀ c ∈ intText n, (isNumeral c || decide (c = 45)) = true := by
    have digits : ∀ c ∈ natText n.natAbs, (isNumeral c || decide (c = 45)) = true := by
      intro c member
      simp [isNumeral, natText_digits member]
    unfold intText
    split
    · rintro c (_ | ⟨_, member⟩)
      · rfl
      · exact digits c member
    · exact digits
  have some_ : intText n ≠ [] := by
    unfold intText
    split
    · simp
    · exact natText_ne_nil _
  have taken : (intText n ++ rest).takeWhile (fun c => isNumeral c || decide (c = 45)) = intText n := by
    rw [List.takeWhile_append_of_pos inside]
    cases rest with
    | nil => simp
    | cons c rest => simp [closed c rfl]
  unfold Decoder.Takes extractInt extractNumber
  simp only [Decoder.left_bind, taken]
  rw [if_neg some_, toInt_intText]
  simp only [Decoder.goTo_bind, Decoder.pure_apply, List.drop_left, closed.lstrip]

section
variable {α γ : Type} {element : Extraction α} {encode : γ → Str} {decoded : γ → α}

theorem takes_extractMany (openBracket closeBracket : UInt8) (why : String) (items : List γ)
    (each : ∀ item ∈ items, ∀ rest, Closed rest → element.Takes (decoded item) (encode item) rest)
    (opens : ∀ item rest, Closed (encode item ++ rest)) (ends : ∀ rest, Closed (closeBracket :: rest))
    (closed : Closed rest) :
    (extractMany openBracket closeBracket why element).Takes (some (items.map decoded))
      (serializeLength items.length ++ ([openBracket] ++ items.flatMap encode ++ [closeBracket])) rest := by
  have taken := Decoder.takes_times items each opens (ends rest)
  have inner : Closed (items.flatMap encode ++ closeBracket :: rest) := by
    cases items with
    | nil => exact ends rest
    | cons item items =>
      rw [List.flatMap_cons, List.append_assoc]
      exact opens item _
  refine (takes_extractLen items.length _).bind ?_
  unfold Decoder.Takes at *
  have text : [openBracket] ++ items.flatMap encode ++ [closeBracket] ++ rest =
      openBracket :: (items.flatMap encode ++ closeBracket :: rest) := by
    simp
  rw [text]
  simp only [Decoder.left_bind, List.head?_cons, ne_eq, not_true, if_false, Decoder.goTo_bind, List.drop_one,
    List.tail_cons, inner.lstrip, Int.toNat_natCast]
  rw [Decoder.bind_apply, taken]
  simp [closed.lstrip]

end

theorem closed_length (n : Nat) (rest : Str) : Closed (serializeLength n ++ rest) :=
  closed_cons ⟨rfl, rfl, by decide⟩

theorem closed_string (text rest : Str) : Closed (serializeStringBody text ++ rest) := by
  rw [serializeStringBody, List.append_assoc]
  exact closed_length _ _

theorem takes_strings {openBracket closeBracket : UInt8} {why : String} (ends : ∀ rest, Closed (closeBracket :: rest))
    (texts : List Str) (closed : Closed rest) :
    (extractMany openBracket closeBracket why extractStr).Takes (some (texts.map some))
      (serializeStrings openBracket closeBracket texts.length texts) rest := by
  have taken := takes_extractMany openBracket closeBracket why texts
    (fun text _ rest _ => takes_extractStr text rest) closed_string ends closed
  simpa [serializeStrings] using taken

theorem takes_extractItem (entry : Str × Str) (rest : Str) :
    extractItem.Takes (some entry.1, some entry.2) (serializeStringBody entry.1 ++ serializeStringBody entry.2) rest := by
  refine (takes_extractStr entry.1 _).bind ?_
  rw [← List.append_nil (serializeStringBody entry.2)]
  exact (takes_extractStr entry.2 _).bind (.pure _)

theorem takes_items {why : String} (entries : List (Str × Str)) (closed : Closed rest) :
    (extractMany 123 125 why extractItem).Takes (some (entries.map fun entry => (some entry.1, some entry.2)))
      (serializeStrings 123 125 entries.length (entries.flatMap fun entry => [entry.1, entry.2])) rest := by
  have taken := takes_extractMany 123 125 why entries (fun entry _ rest _ => takes_extractItem entry rest)
    (fun entry rest => by rw [List.append_assoc]; exact closed_string _ _) (fun _ => closed_cons ⟨rfl, rfl, by decide⟩)
    closed
  simpa [serializeStrings, List.flatMap_assoc] using taken

/-! ### Values -/

section
variable (toFloat : Str → Option Float64)

theorem takes_of {α : Type} {read : Extraction (Option α)} {value : α} {text : Str} (make : α → Content)
    (taken : read.Takes (some value) text rest) :
    Decoder.Takes (do return Content.of make (← read)) (make value) text rest := by
  rw [← text.append_nil]
  exact Decoder.Takes.bind taken (.pure _)

theorem takes_value {value : Value} (exact_ : isFloat value = false) (depth : Nat) (closed : Closed rest) :
    (extractAs toFloat (depth + 1) (typeOf value)).Takes (contentOf value) value.body rest := by
  have bracket : ∀ rest, Closed (93 :: rest) := fun _ => closed_cons ⟨rfl, rfl, by decide⟩
  have brace : ∀ rest, Closed (125 :: rest) := fun _ => closed_cons ⟨rfl, rfl, by decide⟩
  cases value with
  | null => exact .pure _
  | bool flag =>
    refine takes_of .bool (takes_extractFrom closed.lstrip ?_)
    cases flag <;> rfl
  | int n => exact takes_of .int (takes_extractInt n.toInt closed)
  | float x => cases exact_
  | str text => exact takes_of .str (takes_extractStr text rest)
  | arr elements => exact takes_of .strings (takes_strings bracket elements closed)
  | list elements => exact takes_of .strings (takes_strings bracket elements closed)
  | set elements =>
    refine takes_of .set ?_
    rw [← (Value.body _).append_nil]
    exact Decoder.Takes.bind (takes_strings brace elements closed) (.pure _)
  | hash entries =>
    refine takes_of .hash ?_
    rw [← (Value.body _).append_nil]
    exact Decoder.Takes.bind (takes_items entries closed) (.pure _)
  | auth level =>
    refine takes_of .authLevel (takes_extractFrom closed.lstrip ?_)
    cases level <;> rfl
  | err text => exact takes_of .str (takes_extractStr text rest)

theorem takes_typeName (value : Value) (plain : lstrip rest = rest) :
    extractType.Takes (some (typeOf value)) value.typeName rest := by
  apply takes_extractFrom plain
  cases value <;> rfl

theorem lstrip_body (value : Value) (exact_ : isFloat value = false) (closed : Closed rest) :
    lstrip (value.body ++ rest) = value.body ++ rest := by
  cases value with
  | null => exact closed.lstrip
  | bool flag => cases flag <;> rfl
  | int n =>
    change lstrip (intText n.toInt ++ rest) = intText n.toInt ++ rest
    unfold intText
    split
    · rfl
    · obtain ⟨c, text, same, digit⟩ := natText_cons n.toInt.natAbs
      rw [same]
      simp [lstrip, isBlank_of_digit digit]
  | float x => cases exact_
  | auth level => cases level <;> rfl
  | str | arr | list | set | hash | err => rfl

theorem contentOf_isNone {value : Value} (none_ : (contentOf value).isNone = true) : typeOf value = .null := by
  cases value with
  | null => rfl
  | bool | int | float | str | arr | list | set | hash | auth | err => cases none_

theorem takes_element {value : Value} (exact_ : isFloat value = false) (depth : Nat) (closed : Closed rest) :
    (extractElement (extractAs toFloat (depth + 1))).Takes (contentOf value) value.serialize rest := by
  refine (takes_typeName value (lstrip_body value exact_ closed)).bind ?_
  rw [← value.body.append_nil]
  refine (takes_value toFloat exact_ depth closed).bind ?_
  have fine : ((contentOf value).isNone && decide (typeOf value ≠ .null)) = false := by
    cases missing : (contentOf value).isNone with
    | false => rfl
    | true => simp [contentOf_isNone missing]
  rw [fine]
  exact .pure _

theorem takes_tuple {contents : List Value} (exact_ : ∀ content ∈ contents, isFloat content = false) (depth : Nat)
    (closed : Closed rest) :
    (extractAs toFloat (depth + 2) .tuple).Takes (.tuple (contents.map contentOf))
      (serializeLength contents.length ++ [40] ++ contents.flatMap Value.serialize ++ [41]) rest := by
  have colon : ∀ (value : Value) rest, Closed (value.serialize ++ rest) := by
    intro value rest
    cases value <;> exact closed_cons ⟨rfl, rfl, by decide⟩
  have taken := takes_extractMany 40 41 "Message did not end with ')'." contents
    (fun value member rest closed => takes_element toFloat (exact_ value member) depth closed) colon
    (fun _ => closed_cons ⟨rfl, rfl, by decide⟩) closed
  refine takes_of .tuple ?_
  unfold extractTuple
  simpa using taken

/-! ### Types without values -/

section
variable {following : Str} (opens : Opens following)
include opens

theorem Opens.head (c : UInt8) (first : following.head? = some c) : 65 ≤ c ∧ c ≤ 90 := by
  rcases opens with rfl | ⟨entry, listed, more, rfl⟩
  · cases first
  · simp only [serverConstants, List.mem_cons, List.not_mem_nil, or_false] at listed
    rcases listed with rfl | rfl | rfl | rfl | rfl | rfl | rfl | rfl | rfl | rfl | rfl
    all_goals
      obtain rfl := Option.some.inj first
      decide

theorem Opens.closed : Closed following := by
  intro c first
  have upper := opens.head c first
  simp only [isBlank, isNumeral, isDigit, UInt8.le_iff_toNat_le, ← UInt8.toNat_inj, ne_eq] at upper ⊢
  simp at upper ⊢
  omega

theorem Opens.findFrom {α : Type} {table : List (α × Str)}
    (other : ∀ entry ∈ table, (entry.2.head?.any fun c => !decide (65 ≤ c ∧ c ≤ 90)) = true) :
    Request.findFrom table following = none := by
  apply List.find?_eq_none.mpr
  intro entry listed here
  obtain ⟨behind, rfl⟩ := List.isPrefixOf_iff_prefix.mp here
  have outside := other entry listed
  cases first : entry.2.head? with
  | none =>
    rw [first] at outside
    cases outside
  | some c =>
    have upper := opens.head c (by rw [List.head?_append, first]; rfl)
    simp [first, upper] at outside

theorem Opens.no_authLevel : Request.findFrom authLevels following = none := by
  rcases opens with rfl | ⟨entry, listed, more, rfl⟩
  · rfl
  · simp only [serverConstants, List.mem_cons, List.not_mem_nil, or_false] at listed
    rcases listed with rfl | rfl | rfl | rfl | rfl | rfl | rfl | rfl | rfl | rfl | rfl
    all_goals rfl

theorem Opens.no_length : extractLen following = .ok (none, following) := by
  unfold extractLen
  rw [Decoder.left_bind]
  split
  · exact absurd (opens.head 40 rfl) (by decide)
  · rfl

theorem Opens.no_number {α : Type} {belongs : UInt8 → Bool} {convert : Str → Option α}
    (other : ∀ c, 65 ≤ c → c ≤ 90 → belongs c = false) :
    extractNumber belongs convert following = .ok (none, following) := by
  have empty : following.takeWhile belongs = [] := by
    cases found : following with
    | nil => rfl
    | cons c rest =>
      obtain ⟨low, high⟩ := opens.head c (by rw [found]; rfl)
      simp [other c low high]
  unfold extractNumber
  rw [Decoder.left_bind, if_pos empty]
  rfl

omit opens in
theorem extractFrom_none {α : Type} {table : List (α × Str)} (nowhere : Request.findFrom table following = none) :
    Client.extractFrom table following = .ok (none, following) := by
  unfold Client.extractFrom
  simp [nowhere]

/-- A type that no value follows is extracted with the value `None`. -/
theorem Opens.extractAs (type : ServerType) (depth : Nat) :
    Client.extractAs toFloat (depth + 1) type following = .ok (.none, following) := by
  have none_ : ∀ {α : Type} {read : Extraction (Option α)} {make : α → Content},
      read following = .ok (none, following) →
        (do return Content.of make (← read) : Extraction Content) following = .ok (.none, following) := by
    intro α read make missing
    rw [Decoder.bind_apply, missing]
    rfl
  have length := opens.no_length
  have string : extractStr following = .ok (none, following) := by
    simp [extractStr, Decoder.bind_apply, length]
  have many : ∀ {α : Type} {o c why} {element : Extraction α},
      extractMany o c why element following = .ok (none, following) := by
    intro α o c why element
    simp [extractMany, Decoder.bind_apply, length]
  have upper : ∀ c : UInt8, 65 ≤ c → c ≤ 90 → isNumeral c = false ∧ c ≠ 45 ∧ c ≠ 46 := by
    simp only [isNumeral, isDigit, UInt8.le_iff_toNat_le, ← UInt8.toNat_inj, ne_eq]
    intro c low high
    simp at low high ⊢
    omega
  cases type with
  | string => exact none_ string
  | int =>
    refine none_ (opens.no_number fun c low high => ?_)
    simp [upper c low high]
  | float =>
    refine none_ (opens.no_number fun c low high => ?_)
    simp [upper c low high]
  | array => exact none_ many
  | tuple => exact none_ many
  | list => exact none_ many
  | null => rfl
  | set => exact none_ (by simp [extractSet, Decoder.bind_apply, many])
  | bool => exact none_ (extractFrom_none (opens.findFrom (by decide)))
  | hash => exact none_ (by simp [extractHash, Decoder.bind_apply, many])
  | agg => exact none_ (by simp [extractAgg, Decoder.bind_apply, length])
  | authLevel => exact none_ (extractFrom_none opens.no_authLevel)
  | err => exact none_ string

end

/-! ### Responses -/

theorem takes_status (status : Status) (plain : lstrip rest = rest) :
    extractStatus.Takes (some (constantOf status)) status.text rest := by
  apply takes_extractFrom plain
  cases status <;> rfl

/-- A status, a type and a value. -/
theorem takes_typed (status : Status) {type : ServerType} (name body : Str) {content : Content} {depth : Nat}
    (named : extractType.Takes (some type) name (body ++ rest)) (colon : ∀ rest, Closed (name ++ rest))
    (value : (extractAs toFloat depth type).Takes content body rest) :
    (extractResponse toFloat depth).Takes ⟨constantOf status, some type, content⟩ (status.text ++ (name ++ body)) rest := by
  refine (takes_status status ?_).bind ?_
  · rw [List.append_assoc]
    exact (colon _).lstrip
  refine named.bind ?_
  rw [← body.append_nil]
  exact Decoder.Takes.bind value (.pure _)

theorem closed_typeName (value : Value) (rest : Str) : Closed (value.typeName ++ rest) := by
  cases value <;> exact closed_cons ⟨rfl, rfl, by decide⟩

theorem takes_plain (status : Status) {payload : Payload} (exact_ : exactPayload payload = true) (depth : Nat)
    (opens : Opens rest) :
    (extractResponse toFloat (depth + 2)).Takes ⟨constantOf status, (payloadOf payload).1, (payloadOf payload).2⟩
      (status.text ++ payload.serialize) rest := by
  cases payload with
  | nothing =>
    have untyped : extractType rest = .ok (none, rest) := extractFrom_none (opens.findFrom (by decide))
    refine (takes_status status opens.closed.lstrip).bind ?_
    exact Decoder.Takes.after untyped (.pure _)
  | value content =>
    have exact_ : isFloat content = false := by simpa [exactPayload] using exact_
    exact takes_typed toFloat status _ _ (takes_typeName content (lstrip_body content exact_ opens.closed))
      (closed_typeName content) (takes_value toFloat exact_ _ opens.closed)
  | type content =>
    have taken := takes_typed toFloat status _ [] (takes_typeName content opens.closed.lstrip)
      (closed_typeName content) (opens.extractAs toFloat (typeOf content) (depth + 1))
    simpa [Payload.serialize, payloadOf] using taken
  | tuple contents =>
    have exact_ : ∀ content ∈ contents, isFloat content = false := by simpa [exactPayload] using exact_
    have taken := takes_typed toFloat status (ascii ":TUPLE") _
      (takes_extractFrom rfl rfl) (fun _ => closed_cons ⟨rfl, rfl, by decide⟩) (takes_tuple toFloat exact_ depth opens.closed)
    simpa [Payload.serialize, payloadOf] using taken

theorem opens_body (response : Synchronous) (rest : Str) : Opens (response.response.body ++ rest) := by
  refine .inr ?_
  cases response with
  | plain status payload =>
    refine ⟨(constantOf status, status.text), by cases status <;> decide, payload.serialize ++ rest, ?_⟩
    simp [Synchronous.response, Response.body]
  | agg parts => exact ⟨(.ok, ascii "OK"), by decide, _, rfl⟩

mutual

theorem takes_synchronous : (response : Synchronous) → {depth : Nat} → response.depth ≤ depth → response.Concatenated →
    {rest : Str} → Opens rest → (extractResponse toFloat depth).Takes response.raw response.response.body rest
  | .plain status payload exact_, depth, deep, _, rest, opens => by
    obtain ⟨more, rfl⟩ := Nat.exists_eq_add_of_le' deep
    exact takes_plain toFloat status exact_ more opens
  | .agg parts, depth, deep, concatenated, rest, opens => by
    obtain ⟨more, rfl⟩ := Nat.exists_eq_add_of_le' deep
    have inner := takes_parts parts (Nat.le_add_left (depthOf parts) more) concatenated.2 opens
    have value : (extractAs toFloat (more + (Synchronous.agg parts).depth) .agg).Takes (.responses (rawsOf parts))
        (serializeLength parts.length ++ (responsesOf parts).flatMap Response.body) rest := by
      refine takes_of .responses ((takes_extractLen parts.length _).bind ?_)
      rw [← List.append_nil (List.flatMap _ _)]
      exact inner.bind (.pure _)
    have taken := takes_typed toFloat .ok (ascii ":AGG") _ (takes_extractFrom rfl rfl)
      (fun _ => closed_cons ⟨rfl, rfl, by decide⟩) value
    have body : (Synchronous.agg parts).response.body = Status.ok.text ++ (ascii ":AGG" ++
        (serializeLength parts.length ++ (responsesOf parts).flatMap Response.body)) := by
      rw [Synchronous.response, Response.body, concatenated.1, List.append_assoc]
      rfl
    rw [body]
    exact taken

theorem takes_parts : (parts : List Synchronous) → {depth : Nat} → depthOf parts ≤ depth → AllConcatenated parts →
    {rest : Str} → Opens rest →
    (Decoder.times (extractResponse toFloat depth) parts.length).Takes (rawsOf parts)
      ((responsesOf parts).flatMap Response.body) rest
  | [], _, _, _, _, _ => .pure []
  | part :: parts, depth, deep, concatenated, rest, opens => by
    have next : Opens ((responsesOf parts).flatMap Response.body ++ rest) := by
      cases parts with
      | nil => exact opens
      | cons second parts =>
        rw [responsesOf, List.flatMap_cons, List.append_assoc]
        exact opens_body second _
    simp only [depthOf, max_le_iff] at deep
    refine (takes_synchronous part deep.1 concatenated.1 next).bind ?_
    rw [← List.append_nil (List.flatMap _ _)]
    exact (takes_parts parts deep.2 concatenated.2 opens).bind (.pure _)

end

end

/-- Deep enough into the values of a response, the client extracts its status, its type and its value, and leaves
what follows. -/
theorem response_read_back (toFloat : Str → Option Float64) (response : Synchronous)
    (concatenated : response.Concatenated) (following : Str) (opens : Opens following) (depth : Nat)
    (deep : response.depth ≤ depth) :
    extractResponse toFloat depth (response.response.body ++ following) = .ok (response.raw, following) :=
  takes_synchronous toFloat response deep concatenated opens

theorem piped_responses_read_back :
    extractResponse (fun _ => none) 4
        (ascii "OK:AGG(3)OK:STR(7) OK:INTOK:AGG(1)OK:TUPLE(2)(:NULL:INT-7)OK:AUTH_LEVELPONG") =
      .ok (⟨.ok, some .agg, .responses
        [⟨.ok, some .string, .str (ascii " OK:INT")⟩,
         ⟨.ok, some .agg, .responses [⟨.ok, some .tuple, .tuple [.none, .int (-7)]⟩]⟩,
         ⟨.ok, some .authLevel, .none⟩]⟩, ascii "PONG") := by
  have read := response_read_back (fun _ => none)
    (.agg [.plain .ok (.value (.str (ascii " OK:INT"))) rfl, .agg [.plain .ok (.tuple [.null, .int (-7)]) rfl],
      .plain .ok (.type (.auth .user)) rfl])
    ⟨by decide +kernel, trivial, ⟨by decide +kernel, trivial, trivial⟩, trivial, trivial⟩ (ascii "PONG") (.inr ⟨(.pong, ascii "PONG"), by decide, [], rfl⟩) 4 (by decide)
  exact read

end Vanity.Client
