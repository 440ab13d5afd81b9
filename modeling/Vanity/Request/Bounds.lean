import Vanity.Request.Grammar

/-!
# Where the getters stop

A getter that returns stops between the position where it started and the end of the message, and a string
is the bytes behind its length. What `get_len` has read is added to the position modulo 2^64, so this is so
as long as no length that is written in the message leads beyond 2^64.
-/

namespace Vanity.Request

open Db (Str Float64)
open Extractor (Stays bind_inv)

/-! ### What is to hold -/

/-- The bytes of a message from one position to another. -/
def bytes (msg : Str) (first last : Nat) : Str := (msg.take last).drop first

/-- How many times the loop over `len` reads, the time when it throws included. -/
def steps {α : Type} (read : Extract α) : Nat → Str → Nat → Nat
  | 0, _, _ => 0
  | len + 1, msg, pos =>
    match read msg pos with
    | .ok _ next => steps read len msg next + 1
    | .thrown _ _ => 1

/-- The steps of the loop behind a length and an opening bracket. -/
def loopSteps {α : Type} (openBracket : UInt8) (read : Extract α) (msg : Str) (pos : Nat) : Nat :=
  match (do let len ← getLen; expect openBracket "array not opened with bracket"; return len : Extract Nat) msg pos with
  | .ok len start => steps read len msg start
  | .thrown _ _ => 0

structure Confined (msg : Str) : Prop where
  len : Stays msg getLen
  int : Stays msg getInt
  float : Stays msg getFloat
  str : Stays msg getStr
  arr : Stays msg getArr
  list : Stays msg getList
  set : Stays msg getSet
  hash : Stays msg getHash
  bool : Stays msg getBool
  clientAuth : Stays msg getClientAuth
  operation : Stays msg getOperation
  /-- A length is the number written in its prefix, and stops behind it. -/
  written : ∀ pos len stop, pos ≤ msg.length → getLen msg pos = .ok len stop →
    ∃ text rest, msg.drop pos = text ++ rest ∧ SpellsLen len text ∧ stop = pos + text.length
  exactText : ∀ pos text stop, pos ≤ msg.length → getStr msg pos = .ok text stop →
    ∃ len first, getLen msg pos = .ok len first ∧ stop = first + len ∧ text = bytes msg first (first + len) ∧
      text.length = len
  strings : ∀ pos, pos ≤ msg.length → loopSteps 91 getStr msg pos ≤ msg.length
  elements : ∀ pos, pos ≤ msg.length → loopSteps 123 getStr msg pos ≤ msg.length
  entries : ∀ pos, pos ≤ msg.length → loopSteps 123 getPair msg pos ≤ msg.length

/-- No length that stands in the message leads beyond 2^64 from its end. -/
def LengthsFit (msg : Str) : Prop :=
  ∀ front text rest len, msg = front ++ text ++ rest → SpellsLen len text → (front ++ text).length + len < maxSizeT

/-! ### Numbers -/

section
variable {α : Type} {form : Automaton UInt8} {value : Str → Option α} {result : α}

theorem stoa_count_le {str : Str} {count : Nat} (taken : stoa form value str = .ok (result, count)) :
    count ≤ str.length := by
  obtain ⟨behind, found, -, rfl⟩ := stoa_ok taken
  have parts := congrArg List.length (List.takeWhile_append_dropWhile (p := isSpace) (l := str))
  rw [List.length_append] at parts
  have few := Automaton.longest_le found
  omega

/-- What was taken of a text is taken of it alone. -/
theorem stoa_alone {str : Str} {count : Nat} (rejecting : form.accepting form.start = false)
    (taken : stoa form value str = .ok (result, count)) :
    stoa form value (str.take count) = .ok (result, (str.take count).length) := by
  have size : (str.take count).length = count := List.length_take_of_le (stoa_count_le taken)
  have whole : stoa form value (str.take count ++ str.drop count) = .ok (result, (str.take count).length) := by
    rw [List.take_append_drop, size, taken]
  obtain ⟨blank, literal, allBlank, visible, same, found, valued⟩ := stoa_split rejecting whole
  obtain ⟨state, run, accepted, -⟩ := Automaton.longestFrom_iff.mp found
  have ends : form.longest (literal ++ []) = some literal.length :=
    Automaton.longestFrom_iff.mpr ⟨state, run, accepted, Automaton.quiet_nil state⟩
  have again := stoa_of_literal allBlank visible ends valued
  rw [List.append_nil, ← same] at again
  exact again

end

theorem stoull_lt {str : Str} {n count : Nat} (taken : stoull str = .ok (n, count)) : n < maxSizeT := by
  obtain ⟨behind, -, valued, -⟩ := stoa_ok taken
  split at valued
  · cases valued
  · rename_i small
    obtain rfl := Option.some.inj valued
    split
    · exact Nat.mod_lt _ (by decide)
    · exact Nat.not_le.mp small

/-! ### Where the parts of the getters stop -/

section
variable {msg : Str} (fits : msg.length < maxSizeT)
include fits

theorem drop_skipped {pos : Nat} (inside : pos ≤ msg.length) :
    ∃ blank, Blank blank ∧ msg.drop pos = blank ++ msg.drop (skipped msg pos) ∧ skipped msg pos = pos + blank.length := by
  have few := (List.takeWhile_sublist (l := msg.drop pos) isSpace).length_le
  rw [List.length_drop] at few
  have size : skipped msg pos = pos + ((msg.drop pos).takeWhile isSpace).length := by
    rw [skipped, Nat.mod_eq_of_lt (by omega)]
  have parts := List.prefix_iff_eq_append.mp (List.takeWhile_prefix (l := msg.drop pos) isSpace)
  rw [List.drop_drop, ← size] at parts
  exact ⟨_, fun c member => List.all_eq_true.mp List.all_takeWhile c member, parts.symm, size⟩

theorem skipped_bounds {pos : Nat} (inside : pos ≤ msg.length) : pos ≤ skipped msg pos ∧ skipped msg pos ≤ msg.length := by
  obtain ⟨blank, -, parts, size⟩ := drop_skipped fits inside
  have few := congrArg List.length parts
  rw [List.length_append, List.length_drop, List.length_drop] at few
  omega

omit fits in
theorem ensureNotEnd_inv {pos stop : Nat} (taken : ensureNotEnd msg pos = .ok () stop) : stop = skipped msg pos := by
  rw [ensureNotEnd_apply] at taken
  split at taken
  · cases taken
  · exact (Extracted.ok.inj taken).2.symm

theorem stays_ensureNotEnd : Stays msg ensureNotEnd := by
  intro pos value stop inside taken
  rw [ensureNotEnd_inv taken]
  exact skipped_bounds fits inside

omit fits in
/-- Behind the last character there is none that is expected. -/
theorem expect_inv {c : UInt8} (visible : c ≠ 0) {why : String} {pos stop : Nat}
    (taken : expect c why msg pos = .ok () stop) :
    pos < msg.length ∧ msg.drop pos = c :: msg.drop (pos + 1) ∧ stop = (pos + 1) % maxSizeT := by
  rw [expect_apply] at taken
  split at taken
  · rename_i same
    have inside : pos < msg.length := by
      by_contra outside
      rw [List.getD_eq_getElem?_getD, List.getElem?_eq_none (Nat.not_lt.mp outside)] at same
      exact visible same.symm
    rw [List.getD_eq_getElem?_getD, List.getElem?_eq_getElem inside, Option.getD_some] at same
    exact ⟨inside, by rw [List.drop_eq_getElem_cons inside, same], (Extracted.ok.inj taken).2.symm⟩
  · cases taken

theorem stays_expect {c : UInt8} (visible : c ≠ 0) (why : String) : Stays msg (expect c why) := by
  intro pos value stop inside taken
  obtain ⟨before, -, rfl⟩ := expect_inv visible taken
  rw [Nat.mod_eq_of_lt (by omega)]
  omega

omit fits in
theorem converted_inv {α : Type} {form : Automaton UInt8} {value : Str → Option α} {range invalid_ : String}
    {result : α} {pos stop : Nat} (taken : converted (stoa form value) range invalid_ msg pos = .ok result stop) :
    ∃ count, stoa form value (msg.drop pos) = .ok (result, count) ∧ stop = (pos + count) % maxSizeT := by
  rw [converted, Extractor.bind_ok (show remaining msg pos = .ok (msg.drop pos) pos from rfl)] at taken
  cases read : stoa form value (msg.drop pos) with
  | ok pair =>
    rw [read] at taken
    obtain ⟨-, rfl⟩ := Extracted.ok.inj taken
    obtain ⟨rfl, -⟩ := Extracted.ok.inj taken
    exact ⟨pair.2, rfl, rfl⟩
  | error why =>
    rw [read] at taken
    cases why <;> cases taken

theorem stays_converted {α : Type} (form : Automaton UInt8) (value : Str → Option α) (range invalid_ : String) :
    Stays msg (converted (stoa form value) range invalid_) := by
  intro pos result stop inside taken
  obtain ⟨count, read, rfl⟩ := converted_inv taken
  have few := stoa_count_le read
  rw [List.length_drop] at few
  rw [Nat.mod_eq_of_lt (by omega)]
  omega

theorem stays_getFromList {α : Type} (list : List (α × Str)) (why : String) : Stays msg (getFromList list why) := by
  intro pos value stop inside taken
  obtain ⟨later, within⟩ := skipped_bounds fits inside
  rw [getFromList_apply] at taken
  split at taken
  · rename_i found
    obtain ⟨-, rfl⟩ := Extracted.ok.inj taken
    obtain ⟨-, behind, here⟩ := findFrom_some found
    have few := congrArg List.length here
    rw [List.length_drop, List.length_append] at few
    dsimp only at few
    rw [Nat.mod_eq_of_lt (by omega)]
    omega
  · cases taken

theorem stays_getBool : Stays msg getBool := by
  refine (stays_ensureNotEnd fits).bind fun _ => ?_
  intro pos value stop inside taken
  have few : ∀ word : Str, word.isPrefixOf (msg.drop pos) = true → pos + word.length ≤ msg.length := by
    intro word here
    have less := (List.isPrefixOf_iff_prefix.mp here).length_le
    rw [List.length_drop] at less
    omega
  rw [Extractor.bind_ok (show remaining msg pos = .ok (msg.drop pos) pos from rfl)] at taken
  split at taken
  · rename_i here
    have less : pos + 4 ≤ msg.length := few _ here
    obtain ⟨-, rfl⟩ := Extracted.ok.inj taken
    rw [Nat.mod_eq_of_lt (by omega)]
    omega
  · split at taken
    · rename_i here
      have less : pos + 5 ≤ msg.length := few _ here
      obtain ⟨-, rfl⟩ := Extracted.ok.inj taken
      rw [Nat.mod_eq_of_lt (by omega)]
      omega
    · cases taken

/-! ### Lengths -/

theorem getLen_inv {pos len stop : Nat} (inside : pos ≤ msg.length) (taken : getLen msg pos = .ok len stop) :
    ∃ text rest, msg.drop pos = text ++ rest ∧ SpellsLen len text ∧ stop = pos + text.length := by
  obtain ⟨_, start, skips, taken⟩ := bind_inv taken
  obtain ⟨_, first, opened, taken⟩ := bind_inv taken
  obtain ⟨number, behind, read, taken⟩ := bind_inv taken
  obtain ⟨_, last, closed, taken⟩ := bind_inv taken
  obtain ⟨rfl, rfl⟩ := Extracted.ok.inj taken
  obtain rfl := ensureNotEnd_inv skips
  obtain ⟨blank, allBlank, parts, behindBlank⟩ := drop_skipped fits inside
  obtain ⟨before, bracket, rfl⟩ := expect_inv (by decide) opened
  rw [Nat.mod_eq_of_lt (by omega)] at read
  obtain ⟨count, digits, rfl⟩ := converted_inv read
  have few := stoa_count_le digits
  rw [List.length_drop] at few
  rw [Nat.mod_eq_of_lt (by omega)] at closed
  obtain ⟨beyond, ending, rfl⟩ := expect_inv (by decide) closed
  have size : ((msg.drop (skipped msg pos + 1)).take count).length = count := List.length_take_of_le (by simpa using few)
  refine ⟨_, msg.drop (skipped msg pos + 1 + count + 1), ?_, ⟨blank, _, allBlank, stoa_alone rfl digits, rfl⟩, ?_⟩
  · have number := List.take_append_drop count (msg.drop (skipped msg pos + 1))
    rw [List.drop_drop, ending] at number
    rw [parts, bracket]
    simpa using number.symm
  · rw [Nat.mod_eq_of_lt (by omega)]
    simp only [List.length_append, List.length_cons, List.length_nil, size]
    omega

omit fits in
theorem SpellsLen.length_pos {len : Nat} {text : Str} (spelled : SpellsLen len text) : 2 ≤ text.length := by
  obtain ⟨blank, digits, -, -, rfl⟩ := spelled
  simp only [List.length_append, List.length_cons, List.length_nil]
  omega

theorem getLen_stays {pos len stop : Nat} (inside : pos ≤ msg.length) (taken : getLen msg pos = .ok len stop) :
    pos < stop ∧ stop ≤ msg.length := by
  obtain ⟨text, rest, split, spelled, rfl⟩ := getLen_inv fits inside taken
  have few := congrArg List.length split
  rw [List.length_drop, List.length_append] at few
  have some_ := spelled.length_pos
  omega

theorem stays_getLen : Stays msg getLen := by
  intro pos len stop inside taken
  obtain ⟨later, within⟩ := getLen_stays fits inside taken
  exact ⟨later.le, within⟩

/-! ### When the lengths fit -/

variable (lengths : LengthsFit msg)
include lengths

theorem getStr_inv {pos stop : Nat} {text : Str} (inside : pos ≤ msg.length) (taken : getStr msg pos = .ok text stop) :
    ∃ len first, getLen msg pos = .ok len first ∧ stop = first + len ∧ stop ≤ msg.length ∧
      text = (msg.drop first).take len := by
  obtain ⟨len, first, length, taken⟩ := bind_inv taken
  obtain ⟨ahead, rest, split, spelled, behind⟩ := getLen_inv fits inside length
  have whole : msg = msg.take pos ++ ahead ++ rest := by
    rw [List.append_assoc, ← split, List.take_append_drop]
  have small := lengths _ _ _ _ whole spelled
  rw [List.length_append, List.length_take_of_le inside, ← behind] at small
  have enough : hasUpTo len msg first = .ok (decide (first + len ≤ msg.length)) first := by
    rw [hasUpTo, Nat.mod_eq_of_lt small]
  rw [Extractor.bind_ok enough] at taken
  split at taken
  · rename_i room
    obtain ⟨rfl, rfl⟩ := Extracted.ok.inj taken
    rw [Nat.mod_eq_of_lt small]
    exact ⟨len, first, length, rfl, of_decide_eq_true room, rfl⟩
  · cases taken

theorem getStr_stays {pos stop : Nat} {text : Str} (inside : pos ≤ msg.length) (taken : getStr msg pos = .ok text stop) :
    pos < stop ∧ stop ≤ msg.length := by
  obtain ⟨len, first, length, rfl, within, -⟩ := getStr_inv fits lengths inside taken
  obtain ⟨later, -⟩ := getLen_stays fits inside length
  omega

theorem stays_getStr : Stays msg getStr := by
  intro pos text stop inside taken
  obtain ⟨later, within⟩ := getStr_stays fits lengths inside taken
  exact ⟨later.le, within⟩

theorem getPair_stays {pos stop : Nat} {pair : Str × Str} (inside : pos ≤ msg.length)
    (taken : getPair msg pos = .ok pair stop) : pos < stop ∧ stop ≤ msg.length := by
  obtain ⟨key, mid, first, taken⟩ := bind_inv taken
  obtain ⟨value, last, second, taken⟩ := bind_inv taken
  obtain ⟨-, rfl⟩ := Extracted.ok.inj taken
  obtain ⟨later, within⟩ := getStr_stays fits lengths inside first
  obtain ⟨last, final⟩ := getStr_stays fits lengths within second
  omega

end

/-! ### Collections -/

section
variable {α : Type} {msg : Str} {read : Extract α}
  (reads : ∀ pos value stop, pos ≤ msg.length → read msg pos = .ok value stop → pos < stop ∧ stop ≤ msg.length)
include reads

theorem stays_times (len : Nat) : Stays msg (times read len) := by
  induction len with
  | zero => exact .pure []
  | succ len ih =>
    have one : Stays msg read := by
      intro pos value stop inside taken
      obtain ⟨later, within⟩ := reads pos value stop inside taken
      exact ⟨later.le, within⟩
    exact one.bind fun value => ih.bind fun values => .pure _

/-- Each step that does not throw takes a byte. -/
theorem steps_le (len : Nat) {pos : Nat} (inside : pos ≤ msg.length) : steps read len msg pos ≤ msg.length - pos + 1 := by
  induction len generalizing pos with
  | zero => exact Nat.zero_le _
  | succ len ih =>
    rw [steps]
    cases taken : read msg pos with
    | ok value stop =>
      obtain ⟨later, within⟩ := reads pos value stop inside taken
      have rest := ih within
      dsimp only
      omega
    | thrown failure stop => exact Nat.le_add_left _ _

variable (fits : msg.length < maxSizeT)
include fits

theorem stays_getMany {openBracket closeBracket : UInt8} (opens : openBracket ≠ 0) (closes : closeBracket ≠ 0)
    (opened closed : String) {prepare : Nat → Extract Unit} (prepared : ∀ len, Stays msg (prepare len)) :
    Stays msg (getMany openBracket closeBracket opened closed prepare read) := by
  refine (stays_getLen fits).bind fun len => ?_
  refine (stays_expect fits opens opened).bind fun _ => ?_
  refine (prepared len).bind fun _ => ?_
  refine (stays_times reads len).bind fun values => ?_
  exact (stays_expect fits closes closed).bind fun _ => .pure values

theorem loopSteps_le {openBracket : UInt8} (opens : openBracket ≠ 0) {pos : Nat} (inside : pos ≤ msg.length) :
    loopSteps openBracket read msg pos ≤ msg.length := by
  rw [loopSteps]
  split
  · rename_i len start taken
    obtain ⟨number, behind, length, taken⟩ := bind_inv taken
    obtain ⟨_, next, bracket, taken⟩ := bind_inv taken
    obtain ⟨rfl, rfl⟩ := Extracted.ok.inj taken
    obtain ⟨later, within⟩ := getLen_stays fits inside length
    obtain ⟨here, final⟩ := stays_expect fits opens _ _ _ _ within bracket
    have few := steps_le reads number final
    omega
  · exact Nat.zero_le _

end

theorem stays_reserve (msg : Str) (len : Nat) : Stays msg (reserve len) := by
  rw [reserve]
  split
  · exact .throw _
  · exact .pure ()

theorem bytes_eq (msg : Str) (first len : Nat) : bytes msg first (first + len) = (msg.drop first).take len := by
  rw [bytes, List.drop_take, Nat.add_sub_cancel_left]

theorem confined_of_lengthsFit {msg : Str} (fits : msg.length < maxSizeT) (lengths : LengthsFit msg) : Confined msg where
  len := stays_getLen fits
  int := (stays_ensureNotEnd fits).bind fun _ => stays_converted fits _ _ _ _
  float := (stays_ensureNotEnd fits).bind fun _ => stays_converted fits _ _ _ _
  str := stays_getStr fits lengths
  arr := stays_getMany (fun _ _ _ => getStr_stays fits lengths) fits (by decide) (by decide) _ _ (stays_reserve msg)
  list := stays_getMany (fun _ _ _ => getStr_stays fits lengths) fits (by decide) (by decide) _ _ fun _ => .pure ()
  set := (stays_getMany (fun _ _ _ => getStr_stays fits lengths) fits (by decide) (by decide) _ _ fun _ => .pure ()).bind
    fun values => .pure values.toFinset
  hash := (stays_getMany (fun _ _ _ => getPair_stays fits lengths) fits (by decide) (by decide) _ _ fun _ => .pure ()).bind
    fun entries => .pure _
  bool := stays_getBool fits
  clientAuth := stays_getFromList fits _ _
  operation := stays_getFromList fits _ _
  written := fun _ _ _ => getLen_inv fits
  exactText := by
    intro pos text stop inside taken
    obtain ⟨len, first, length, rfl, within, rfl⟩ := getStr_inv fits lengths inside taken
    refine ⟨len, first, length, rfl, (bytes_eq msg first len).symm, ?_⟩
    rw [List.length_take, List.length_drop]
    omega
  strings := fun _ => loopSteps_le (fun _ _ _ => getStr_stays fits lengths) fits (by decide)
  elements := fun _ => loopSteps_le (fun _ _ _ => getStr_stays fits lengths) fits (by decide)
  entries := fun _ => loopSteps_le (fun _ _ _ => getPair_stays fits lengths) fits (by decide)

/-- The getters are confined to a message if and only if each length that stands in it fits. -/
theorem confined_iff (msg : Str) (fits : msg.length < maxSizeT) : Confined msg ↔ LengthsFit msg := by
  refine ⟨fun confined front text rest len whole spelled => ?_, confined_of_lengthsFit fits⟩
  by_contra beyond
  have length : getLen msg front.length = .ok len (front ++ text).length := by
    rw [whole] at fits ⊢
    exact reads_getLen spelled rest front fits
  have total := congrArg List.length whole
  rw [List.length_append] at total
  obtain ⟨_, _, _, number, _⟩ := id spelled
  have small := stoull_lt number
  -- the sum wraps round and seems to be in the message
  have enough : hasUpTo len msg (front ++ text).length = .ok true (front ++ text).length := by
    have wrapped : ((front ++ text).length + len) % maxSizeT ≤ msg.length := by
      rw [Nat.mod_eq_sub_mod (Nat.not_lt.mp beyond), Nat.mod_eq_of_lt (by omega)]
      omega
    rw [hasUpTo, decide_eq_true wrapped]
  have taken : getStr msg front.length =
      .ok ((msg.drop (front ++ text).length).take len) (((front ++ text).length + len) % maxSizeT) := by
    rw [getStr, Extractor.bind_ok length, Extractor.bind_ok enough]
    rfl
  have inside : front.length ≤ msg.length := by
    rw [total, List.length_append]
    omega
  obtain ⟨number, first, again, stop, -⟩ := confined.exactText _ _ _ inside taken
  rw [length] at again
  obtain ⟨rfl, rfl⟩ := Extracted.ok.inj again
  have below := Nat.mod_lt ((front ++ text).length + len) (show 0 < maxSizeT by decide)
  omega

theorem get_foo_confined : Confined (ascii "GET(3)foo") := by
  have each : ∀ pos < 10, (match getLen (ascii "GET(3)foo") pos with
      | .ok len stop => decide (stop + len < maxSizeT)
      | .thrown _ _ => true) = true := by
    decide +kernel
  refine (confined_iff _ (by decide)).mpr fun front text rest len whole spelled => ?_
  have short : (front ++ text ++ rest).length < maxSizeT := by
    rw [← whole]
    decide
  have inside : front.length < 10 := by
    have total := congrArg List.length whole
    rw [List.length_append, List.length_append] at total
    have size : (ascii "GET(3)foo").length = 9 := rfl
    omega
  have fit := each _ inside
  rw [whole, reads_getLen spelled rest front short] at fit
  exact of_decide_eq_true fit

/-- The position goes back to the front of the request, which a pipe then reads again. -/
theorem get_negative_not_confined : ¬ Confined (ascii "GET(-7)") := by
  intro confined
  have later := (confined.str 3 [] 0 (by decide) rfl).1
  exact absurd later (by decide)

end Vanity.Request
