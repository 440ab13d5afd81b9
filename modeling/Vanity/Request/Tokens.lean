import Vanity.Request.Dispatch
import Vanity.Request.Grammar

/-!
# Well-formed requests

A request is a token: a command with its arguments, or the head of a pipe, whose requests follow it. The
requests of a message are the tokens one behind the other, and their number is counted as in a prefix
notation.
-/

namespace Vanity.Request

open Db (Str)

inductive Token where
  | call (op : OperationT) (args : Concrete op.arguments)
  | pipe (len : Nat)

/-- The tokens are so many requests. -/
def Complete : Nat → List Token → Prop
  | count, [] => count = 0
  | 0, _ :: _ => False
  | count + 1, .call _ _ :: tokens => Complete count tokens
  | count + 1, .pipe len :: tokens => Complete (count + len) tokens

/-- The text is these tokens when the rest follows it. -/
def Spelled : List Token → Str → Str → Prop
  | [], text, _ => Blank text
  | .call op args :: tokens, text, rest =>
    op ≠ .pipe ∧ ∃ blank name objects more, Blank blank ∧ (op, name) ∈ operationStrings ∧
      SpellsAll op.arguments args objects (more ++ rest) ∧ Spelled tokens more rest ∧
      text = blank ++ name ++ objects ++ more
  | .pipe len :: tokens, text, rest =>
    ∃ blank length more, Blank blank ∧ SpellsLen len length ∧ Spelled tokens more rest ∧
      text = blank ++ ascii "PIPE" ++ length ++ more

/-! ### Names -/

def startsWithLength : List ObjectT → Bool
  | .str :: _ | .arr :: _ => true
  | _ => false

theorem arguments_float {op : OperationT} : .float ∉ op.arguments ∨ op.arguments = [.str, .float] := by
  cases op <;> first | exact .inr rfl | exact .inl (by decide)

/-- The other names are part of no longer name. -/
theorem operationStrings_unextended :
    ∀ entry ∈ operationStrings.filter fun entry => !startsWithLength entry.1.arguments, ∀ longer ∈ operationStrings,
      entry.2.isPrefixOf longer.2 = true → entry.2 = longer.2 := by
  decide +kernel

variable {text rest : Str} {op : OperationT} {name : Str}

theorem findFrom_name (listed : (op, name) ∈ operationStrings)
    (closed : startsWithLength op.arguments = true → ∀ c, rest.head? = some c → isSpace c = true ∨ c = 40) :
    findFrom operationStrings (name ++ rest) = some (op, name) := by
  have itself : name.isPrefixOf (name ++ rest) = true := List.isPrefixOf_iff_prefix.mpr (List.prefix_append name rest)
  cases found : findFrom operationStrings (name ++ rest) with
  | none => simpa [itself] using List.find?_eq_none.mp found _ listed
  | some entry =>
    obtain ⟨here, before, after, split, earlier⟩ := List.find?_eq_some_iff_append.mp found
    have ordered := operationStrings_ordered
    rw [split] at listed ordered
    rcases List.mem_append.mp listed with early | late
    · simpa [itself] using earlier _ early
    rcases List.mem_cons.mp late with same | late
    · rw [same]
    -- the name found would be a longer one, and end inside what follows
    exfalso
    have apart := (List.pairwise_cons.mp (List.pairwise_append.mp ordered).2.1).1 _ late
    have inText := List.isPrefixOf_iff_prefix.mp here
    rcases List.prefix_or_prefix_of_prefix inText (List.prefix_append name rest) with shorter | longer
    · simp [List.isPrefixOf_iff_prefix.mpr shorter] at apart
    obtain ⟨extra, extended⟩ := longer
    cases extra with
    | nil =>
      rw [List.append_nil] at extended
      rw [extended, List.isPrefixOf_iff_prefix.mpr List.prefix_rfl] at apart
      cases apart
    | cons c extra =>
      have next : rest.head? = some c := by
        obtain ⟨behind, same⟩ := inText
        rw [← extended, List.append_assoc] at same
        rw [← List.append_cancel_left same]
        rfl
      have member : entry ∈ operationStrings := by simp [split]
      by_cases length : startsWithLength op.arguments = true
      · have letter := (operationStrings_letters _ member).2 c (by simp [← extended])
        rcases closed length c next with space | rfl
        · simp [isSpace_of_letter letter] at space
        · exact absurd letter (by decide)
      · have listed' : (op, name) ∈ operationStrings := by simp [split, late]
        have same := operationStrings_unextended (op, name) (by simp [listed', length]) entry member
          (List.isPrefixOf_iff_prefix.mpr ⟨_, extended⟩)
        simp [← same] at extended

theorem SpellsLen.head {len : Nat} (spelled : SpellsLen len text) (rest : Str) :
    ∃ c more, text ++ rest = c :: more ∧ (isSpace c = true ∨ c = 40) := by
  obtain ⟨blank, digits, allBlank, -, rfl⟩ := spelled
  cases blank with
  | nil => exact ⟨40, digits ++ [41] ++ rest, rfl, .inr rfl⟩
  | cons c blank => exact ⟨c, _, rfl, .inl (allBlank c (by simp))⟩

theorem SpellsAll.head {types : List ObjectT} {values : Concrete types} (spelled : SpellsAll types values text rest)
    (length : startsWithLength types = true) (c : UInt8) (first : (text ++ rest).head? = some c) :
    isSpace c = true ∨ c = 40 := by
  have begins : ∃ len tail, (∃ size, SpellsLen size len) ∧ text ++ rest = len ++ tail := by
    cases types with
    | nil => cases length
    | cons type types =>
      obtain ⟨here, more, one, -, rfl⟩ := spelled
      cases type with
      | str =>
        obtain ⟨len, spelled, rfl⟩ := one
        exact ⟨len, _, ⟨_, spelled⟩, (List.append_assoc _ _ _).trans (List.append_assoc _ _ _)⟩
      | arr =>
        obtain ⟨⟨len, body, spelled, -, rfl⟩, -⟩ := one
        exact ⟨len, _, ⟨_, spelled⟩, (List.append_assoc _ _ _).trans (List.append_assoc _ _ _)⟩
      | int | float | list | set | hash | bool | clientAuth => cases length
  obtain ⟨len, tail, ⟨size, spelled⟩, same⟩ := begins
  obtain ⟨d, more, begins, which⟩ := spelled.head tail
  rw [same, begins] at first
  obtain rfl := Option.some.inj first
  exact which

theorem name_letter (listed : (op, name) ∈ operationStrings) : ∃ c more, name = c :: more ∧ 65 ≤ c := by
  obtain ⟨some_, letters⟩ := operationStrings_letters _ listed
  cases name with
  | nil => exact absurd rfl some_
  | cons c more => exact ⟨c, more, rfl, letters c (by simp)⟩

theorem name_visible (listed : (op, name) ∈ operationStrings) : Visible name := by
  obtain ⟨c, more, same, letter⟩ := name_letter listed
  exact ⟨c, more, same, isSpace_of_letter letter⟩

/-- The name of a command is read when its arguments follow it. -/
theorem reads_getOperation {blank objects : Str} {args : Concrete op.arguments} (allBlank : Blank blank)
    (listed : (op, name) ∈ operationStrings) (spelled : SpellsAll op.arguments args objects rest) :
    Extractor.Reads maxSizeT getOperation op (blank ++ name) (objects ++ rest) :=
  reads_getFromList _ allBlank (name_visible listed) (findFrom_name listed spelled.head)

theorem reads_pipe {blank : Str} (allBlank : Blank blank) (rest : Str) :
    Extractor.Reads maxSizeT getOperation .pipe (blank ++ ascii "PIPE") rest := by
  refine reads_getFromList _ allBlank ⟨80, _, rfl, rfl⟩ (findFrom_name (by decide) fun length => ?_)
  cases length

/-! ### Sequences of requests -/

theorem Spelled.blank {tokens : List Token} {blank : Str} (allBlank : Blank blank) (spelled : Spelled tokens text rest) :
    Spelled tokens (blank ++ text) rest := by
  cases tokens with
  | nil => exact allBlank.append spelled
  | cons token tokens =>
    cases token with
    | call op args =>
      obtain ⟨single, inner, name, objects, more, two, listed, all, later, rfl⟩ := spelled
      exact ⟨single, blank ++ inner, name, objects, more, allBlank.append two, listed, all, later, by simp⟩
    | pipe len =>
      obtain ⟨inner, length, more, two, spelled, later, rfl⟩ := spelled
      exact ⟨blank ++ inner, length, more, allBlank.append two, spelled, later, by simp⟩

/-- The tokens that are left start with a letter behind the white space. -/
theorem Spelled.letter {tokens : List Token} (spelled : Spelled tokens text rest) (some_ : tokens ≠ []) :
    ∃ blank c more, text = blank ++ c :: more ∧ Blank blank ∧ 65 ≤ c ∧ Spelled tokens (c :: more) rest := by
  cases tokens with
  | nil => exact absurd rfl some_
  | cons token tokens =>
    cases token with
    | call op args =>
      obtain ⟨single, blank, name, objects, more, allBlank, listed, all, later, rfl⟩ := spelled
      obtain ⟨c, letters, rfl, letter⟩ := name_letter listed
      refine ⟨blank, c, letters ++ objects ++ more, by simp, allBlank, letter, ?_⟩
      exact ⟨single, [], c :: letters, objects, more, Blank.nil, listed, all, later, rfl⟩
    | pipe len =>
      obtain ⟨blank, length, more, allBlank, spelled, later, rfl⟩ := spelled
      refine ⟨blank, 80, ascii "IPE" ++ length ++ more, ?_, allBlank, by decide, ?_⟩
      · rw [List.append_assoc, List.append_assoc]
        rfl
      · exact ⟨[], length, more, Blank.nil, spelled, later, rfl⟩

theorem Spelled.append {first second : List Token} {other : Str} (one : Spelled first text (other ++ rest))
    (two : Spelled second other rest) : Spelled (first ++ second) (text ++ other) rest := by
  induction first generalizing text with
  | nil => exact two.blank one
  | cons token first ih =>
    cases token with
    | call op args =>
      obtain ⟨single, blank, name, objects, more, allBlank, listed, all, later, rfl⟩ := one
      refine ⟨single, blank, name, objects, more ++ other, allBlank, listed, ?_, ih later, by simp⟩
      rwa [List.append_assoc]
    | pipe len =>
      obtain ⟨blank, length, more, allBlank, spelled, later, rfl⟩ := one
      exact ⟨blank, length, more ++ other, allBlank, spelled, ih later, by simp⟩

end Vanity.Request
