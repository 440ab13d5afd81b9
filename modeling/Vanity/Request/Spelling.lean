import Vanity.Request.Grammar
import Vanity.Request.Response

/-!
# Written numbers and strings

The texts that `std::to_string` and `serialize` write are spellings of what they were given.
-/

namespace Vanity.Request

open Db (Str)

/-! ### Digits -/

theorem digit_bounds {n : Nat} {d : Char} (member : d ∈ Nat.toDigits 10 n) : 48 ≤ d.toNat ∧ d.toNat ≤ 57 := by
  have digit := Nat.isDigit_of_mem_toDigits (by decide) (by decide) member
  simpa [Char.isDigit, UInt32.le_iff_toNat_le] using digit

theorem toNat_digit {n : Nat} {d : Char} (member : d ∈ Nat.toDigits 10 n) : (UInt8.ofNat d.toNat).toNat = d.toNat := by
  obtain ⟨-, small⟩ := digit_bounds member
  rw [UInt8.toNat_ofNat', Nat.mod_eq_of_lt (by omega)]

theorem natText_digits {n : Nat} {c : UInt8} (member : c ∈ natText n) : isDigit c = true := by
  obtain ⟨d, listed, rfl⟩ := List.mem_map.mp member
  have bounds := digit_bounds listed
  simpa [isDigit, UInt8.le_iff_toNat_le, toNat_digit listed] using bounds

theorem natText_cons (n : Nat) : ∃ c text, natText n = c :: text ∧ isDigit c = true := by
  cases digits : natText n with
  | nil => simp [natText, Nat.toDigits_ne_nil] at digits
  | cons c text => exact ⟨c, text, rfl, natText_digits (by rw [digits]; simp)⟩

theorem magnitude_natText (n : Nat) : magnitude (natText n) = n := by
  have digits : (natText n).filter isDigit = natText n := List.filter_eq_self.mpr fun c => natText_digits
  have same : ∀ (list : List Char) (sum : Nat), (∀ d ∈ list, d ∈ Nat.toDigits 10 n) →
      (list.map fun d => UInt8.ofNat d.toNat).foldl (fun sum c => 10 * sum + (c.toNat - 48)) sum =
        Nat.ofDigitChars 10 list sum := by
    intro list
    induction list with
    | nil => intro sum _; rfl
    | cons d list ih =>
      intro sum listed
      rw [List.map_cons, List.foldl_cons, toNat_digit (listed d (by simp)), Nat.ofDigitChars_cons]
      exact ih _ fun e member => listed e (by simp [member])
  rw [magnitude, digits, natText, same _ _ fun d member => member, Nat.ofDigitChars_ten_toDigits]

theorem integerForm_digits {text : Str} (digits : ∀ c ∈ text, isDigit c = true) :
    integerForm.run IntState.digits text = some IntState.digits := by
  induction text with
  | nil => rfl
  | cons c text ih =>
    have one : integerForm.step IntState.digits c = some IntState.digits := if_pos (digits c (by simp))
    exact (Automaton.run_of_step one text).trans (ih fun d member => digits d (by simp [member]))

theorem digit_visible {c : UInt8} (digit : isDigit c = true) : isSpace c = false ∧ isSign c = false := by
  simp only [isDigit, isSpace, isSign, decide_eq_true_eq, decide_eq_false_iff_not, UInt8.le_iff_toNat_le,
    ← UInt8.toNat_inj] at digit ⊢
  simp at digit ⊢
  omega

/-- The digits are taken at the start of a number and behind its sign. -/
theorem integerForm_natText (state : IntState) (n : Nat) : integerForm.run state (natText n) = some IntState.digits := by
  obtain ⟨c, text, same, digit⟩ := natText_cons n
  have first : integerForm.step state c = some IntState.digits := by
    cases state <;> simp [integerForm, digit, (digit_visible digit).2]
  rw [same, Automaton.run_of_step first text]
  exact integerForm_digits fun d member => natText_digits (n := n) (by rw [same]; simp [member])

/-! ### Numbers -/

section
variable {rest : Str} (follows : ∀ c, rest.head? = some c → isDigit c = false)
include follows

theorem stoa_integer {α : Type} {value : Str → Option α} {result : α} (literal : Str) (visible : Visible literal)
    (taken : integerForm.run IntState.start literal = some IntState.digits) (same : value literal = some result) :
    stoa integerForm value (literal ++ rest) = .ok (result, literal.length) := by
  refine stoa_of_literal Blank.nil visible ?_ same
  exact Automaton.longestFrom_iff.mpr ⟨IntState.digits, taken, rfl, integerForm_quiet follows _ rfl⟩

omit follows in
theorem natText_visible (n : Nat) : Visible (natText n) := by
  obtain ⟨c, text, same, digit⟩ := natText_cons n
  exact ⟨c, text, same, (digit_visible digit).1⟩

omit follows in
theorem natText_positive (n : Nat) : isNegative (natText n) = false := by
  obtain ⟨c, text, same, digit⟩ := natText_cons n
  have unsigned := (digit_visible digit).2
  simp only [isSign, decide_eq_false_iff_not, not_or] at unsigned
  simp [isNegative, same, unsigned.2]

theorem stoull_natText {n : Nat} (small : n < 2 ^ 64) : stoull (natText n ++ rest) = .ok (n, (natText n).length) := by
  apply stoa_integer follows (natText n) (natText_visible n) (integerForm_natText _ n)
  rw [magnitude_natText, natText_positive, if_neg (by omega)]
  rfl

theorem stoll_intText (n : Int64) : stoll (intText n.toInt ++ rest) = .ok (n, (intText n.toInt).length) := by
  have low := n.le_toInt
  have high := n.toInt_lt
  have back : Int64.ofInt n.toInt = n := n.ofInt_toInt
  unfold intText
  split
  · rename_i negative
    have minus : integerForm.step IntState.start 45 = some IntState.sign := rfl
    have taken : integerForm.run IntState.start (45 :: natText n.toInt.natAbs) = some IntState.digits :=
      (Automaton.run_of_step minus _).trans (integerForm_natText _ _)
    have size : magnitude (45 :: natText n.toInt.natAbs) = n.toInt.natAbs := magnitude_natText _
    have value : -(n.toInt.natAbs : Int) = n.toInt := by omega
    apply stoa_integer follows (45 :: natText n.toInt.natAbs) ⟨45, _, rfl, rfl⟩ taken
    rw [size]
    simp only [isNegative, List.head?_cons, decide_true, if_true, value, back]
    exact if_neg (by omega)
  · rename_i positive
    have value : (n.toInt.natAbs : Int) = n.toInt := by omega
    apply stoa_integer follows (natText n.toInt.natAbs) (natText_visible _) (integerForm_natText _ _)
    rw [magnitude_natText, natText_positive]
    simp only [Bool.false_eq_true, if_false, value, back]
    exact if_neg (by omega)

end

/-! ### Objects -/

theorem spellsLen_serializeLength {n : Nat} (small : n < 2 ^ 64) : SpellsLen n (serializeLength n) := by
  refine ⟨[], natText n, Blank.nil, ?_, rfl⟩
  have taken : stoull (natText n ++ []) = _ := stoull_natText (by simp) small
  rwa [List.append_nil] at taken

theorem spellsStr_serializeStringBody {text : Str} (small : text.length < 2 ^ 64) :
    SpellsStr text (serializeStringBody text) :=
  ⟨_, spellsLen_serializeLength small, rfl⟩

theorem spellsEach_strings {texts : List Str} (small : ∀ text ∈ texts, text.length < 2 ^ 64) :
    SpellsEach SpellsStr texts (texts.flatMap serializeStringBody) := by
  induction texts with
  | nil => rfl
  | cons text texts ih =>
    refine ⟨serializeStringBody text, texts.flatMap serializeStringBody, ?_, ?_, rfl⟩
    · exact spellsStr_serializeStringBody (small text (by simp))
    · exact ih fun other member => small other (by simp [member])

theorem spellsEach_pairs {entries : List (Str × Str)}
    (small : ∀ entry ∈ entries, entry.1.length < 2 ^ 64 ∧ entry.2.length < 2 ^ 64) :
    SpellsEach SpellsPair entries ((entries.flatMap fun entry => [entry.1, entry.2]).flatMap serializeStringBody) := by
  induction entries with
  | nil => rfl
  | cons entry entries ih =>
    obtain ⟨first, second⟩ := small entry (by simp)
    refine ⟨serializeStringBody entry.1 ++ serializeStringBody entry.2, _, ?_,
      ih fun other member => small other (by simp [member]), by simp⟩
    exact ⟨_, _, spellsStr_serializeStringBody first, spellsStr_serializeStringBody second, rfl⟩

/-! A message has less than 2^32 characters, which is enough for all that the getters compute with. -/

theorem length_serializeStringBody (text : Str) :
    text.length ≤ (serializeStringBody text).length ∧ 0 < (serializeStringBody text).length := by
  simp [serializeStringBody, serializeLength]
  omega

theorem spellsStr_short {text : Str} (short : (serializeStringBody text).length < 2 ^ 32) :
    SpellsStr text (serializeStringBody text) := by
  have one := length_serializeStringBody text
  exact spellsStr_serializeStringBody (by omega)

theorem length_strings (texts : List Str) :
    texts.length ≤ (texts.flatMap serializeStringBody).length ∧
      ∀ text ∈ texts, text.length ≤ (texts.flatMap serializeStringBody).length := by
  induction texts with
  | nil => simp
  | cons text texts ih =>
    have one := length_serializeStringBody text
    simp only [List.flatMap_cons, List.length_append, List.length_cons, List.mem_cons, forall_eq_or_imp]
    refine ⟨by omega, by omega, fun other member => ?_⟩
    have more := ih.2 other member
    omega

theorem spellsMany_strings {openBracket closeBracket : UInt8} {texts : List Str} {len : Nat}
    (counted : texts.length = len) (short : (serializeStrings openBracket closeBracket len texts).length < 2 ^ 32) :
    SpellsMany openBracket closeBracket SpellsStr texts (serializeStrings openBracket closeBracket len texts) ∧
      len < 2 ^ 32 := by
  simp only [serializeStrings, List.length_append] at short
  obtain ⟨count, each⟩ := length_strings texts
  subst counted
  refine ⟨⟨_, _, spellsLen_serializeLength (by omega), spellsEach_strings fun text member => ?_, ?_⟩, by omega⟩
  · have one := each text member
    omega
  · rw [serializeStrings, List.append_assoc, List.append_assoc]
    rfl

theorem spellsMany_items {entries : List (Str × Str)} {len : Nat} (counted : entries.length = len)
    (short : (serializeStrings 123 125 len (entries.flatMap fun entry => [entry.1, entry.2])).length < 2 ^ 32) :
    SpellsMany 123 125 SpellsPair entries
      (serializeStrings 123 125 len (entries.flatMap fun entry => [entry.1, entry.2])) := by
  simp only [serializeStrings, List.length_append] at short
  obtain ⟨count, each⟩ := length_strings (entries.flatMap fun entry => [entry.1, entry.2])
  have double : (entries.flatMap fun entry => [entry.1, entry.2]).length = 2 * entries.length := by
    simp [List.length_flatMap, Nat.mul_comm]
  subst counted
  refine ⟨_, _, spellsLen_serializeLength (by omega), spellsEach_pairs fun entry member => ?_, ?_⟩
  · have first := each entry.1 (List.mem_flatMap.mpr ⟨entry, member, by simp⟩)
    have second := each entry.2 (List.mem_flatMap.mpr ⟨entry, member, by simp⟩)
    omega
  · rw [serializeStrings, List.append_assoc, List.append_assoc]
    rfl

/-! ### White space in front -/

section
variable {gap text rest : Str} (allBlank : Blank gap)
include allBlank

theorem SpellsLen.blank {len : Nat} (spelled : SpellsLen len text) : SpellsLen len (gap ++ text) := by
  obtain ⟨inner, digits, two, taken, rfl⟩ := spelled
  exact ⟨gap ++ inner, digits, allBlank.append two, taken, (List.append_assoc _ _ _).symm⟩

theorem SpellsStr.blank {value : Str} (spelled : SpellsStr value text) : SpellsStr value (gap ++ text) := by
  obtain ⟨len, length, rfl⟩ := spelled
  exact ⟨gap ++ len, length.blank allBlank, (List.append_assoc _ _ _).symm⟩

theorem SpellsMany.blank {α : Type} {openBracket closeBracket : UInt8} {spells : α → Str → Prop} {values : List α}
    (spelled : SpellsMany openBracket closeBracket spells values text) :
    SpellsMany openBracket closeBracket spells values (gap ++ text) := by
  obtain ⟨len, body, length, elements, rfl⟩ := spelled
  exact ⟨gap ++ len, body, length.blank allBlank, elements, (List.append_assoc _ _ _).symm⟩

theorem stoa_blank {α : Type} {form : Automaton UInt8} {value : Str → Option α} {result : α}
    (rejecting : form.accepting form.start = false)
    (taken : stoa form value (text ++ rest) = .ok (result, text.length)) :
    stoa form value (gap ++ text ++ rest) = .ok (result, (gap ++ text).length) := by
  obtain ⟨inner, literal, two, visible, rfl, found, same⟩ := stoa_split rejecting taken
  rw [← List.append_assoc gap]
  exact stoa_of_literal (allBlank.append two) visible found same

theorem Spells.blank {type : ObjectT} {value : type.Concrete} (spelled : Spells type value text rest) :
    Spells type value (gap ++ text) rest := by
  cases type with
  | str => exact SpellsStr.blank allBlank spelled
  | int => exact stoa_blank allBlank rfl spelled
  | float => exact stoa_blank allBlank rfl spelled
  | arr => exact ⟨spelled.1.blank allBlank, spelled.2⟩
  | list => exact SpellsMany.blank allBlank spelled
  | set =>
    obtain ⟨elements, many, rfl⟩ := spelled
    exact ⟨elements, many.blank allBlank, rfl⟩
  | hash =>
    obtain ⟨entries, many, rfl⟩ := spelled
    exact ⟨entries, many.blank allBlank, rfl⟩
  | bool =>
    obtain ⟨inner, two, rfl⟩ := spelled
    exact ⟨gap ++ inner, allBlank.append two, (List.append_assoc _ _ _).symm⟩
  | clientAuth =>
    obtain ⟨inner, name, two, listed, rfl⟩ := spelled
    exact ⟨gap ++ inner, name, allBlank.append two, listed, (List.append_assoc _ _ _).symm⟩

theorem SpellsAll.blank {type : ObjectT} {types : List ObjectT} {values : Concrete (type :: types)}
    (spelled : SpellsAll (type :: types) values text rest) : SpellsAll (type :: types) values (gap ++ text) rest := by
  obtain ⟨first, more, one, all, rfl⟩ := spelled
  exact ⟨gap ++ first, more, one.blank allBlank, all, (List.append_assoc _ _ _).symm⟩

end

end Vanity.Request
