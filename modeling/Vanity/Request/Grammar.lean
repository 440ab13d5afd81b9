import Vanity.Request.Extractable

/-!
# Well-formed objects

The texts of `TYPES.md`, with the white space that the getters skip. A string has as many characters as
it says. A number is judged with what follows it, because the getters take as much as they can. The
getters read what is spelled and stop behind it, wherever it stands in a message.
-/

namespace Vanity.Request

open Db (Str Float64)

def Blank (text : Str) : Prop := ∀ c ∈ text, isSpace c = true

def SpellsLen (len : Nat) (text : Str) : Prop :=
  ∃ blank digits, Blank blank ∧ stoull digits = .ok (len, digits.length) ∧ text = blank ++ (40 :: digits ++ [41])

def SpellsStr (value text : Str) : Prop := ∃ len, SpellsLen value.length len ∧ text = len ++ value

def SpellsPair (pair : Str × Str) (text : Str) : Prop :=
  ∃ key value, SpellsStr pair.1 key ∧ SpellsStr pair.2 value ∧ text = key ++ value

def SpellsEach {α : Type} (spells : α → Str → Prop) : List α → Str → Prop
  | [], text => text = []
  | value :: values, text =>
    ∃ first more, spells value first ∧ SpellsEach spells values more ∧ text = first ++ more

def SpellsMany {α : Type} (openBracket closeBracket : UInt8) (spells : α → Str → Prop) (values : List α) (text : Str) :
    Prop :=
  ∃ len body, SpellsLen values.length len ∧ SpellsEach spells values body ∧
    text = len ++ (openBracket :: body ++ [closeBracket])

/-- The text is an object of the type when the rest follows it. -/
def Spells : (type : ObjectT) → type.Concrete → Str → Str → Prop
  | .str, value, text, _ => SpellsStr value text
  | .int, value, text, rest => stoll (text ++ rest) = .ok (value, text.length)
  | .float, value, text, rest => stod (text ++ rest) = .ok (value, text.length)
  | .arr, values, text, _ => SpellsMany 91 93 SpellsStr values text ∧ values.length ≤ maxVectorSize
  | .list, values, text, _ => SpellsMany 91 93 SpellsStr values text
  | .set, values, text, _ => ∃ elements, SpellsMany 123 125 SpellsStr elements text ∧ values = elements.toFinset
  | .hash, value, text, _ =>
    ∃ entries, SpellsMany 123 125 SpellsPair entries text ∧ value = entries.foldl Table.insertNew ∅
  | .bool, value, text, _ => ∃ blank, Blank blank ∧ text = blank ++ bif value then ascii "true" else ascii "false"
  | .clientAuth, level, text, _ => ∃ blank name, Blank blank ∧ (level, name) ∈ clientAuthStrings ∧ text = blank ++ name

def SpellsAll : (types : List ObjectT) → Concrete types → Str → Str → Prop
  | [], _, text, _ => text = []
  | type :: types, (value, values), text, rest =>
    ∃ first more, Spells type value first (more ++ rest) ∧ SpellsAll types values more rest ∧ text = first ++ more

/-! ### White space -/

theorem Blank.nil : Blank [] := by simp [Blank]

theorem Blank.append {first second : Str} (one : Blank first) (two : Blank second) : Blank (first ++ second) := by
  intro c member
  rcases List.mem_append.mp member with left | right
  · exact one c left
  · exact two c right

theorem Blank.takeWhile_append {blank : Str} (allBlank : Blank blank) (rest : Str) :
    (blank ++ rest).takeWhile isSpace = blank ++ rest.takeWhile isSpace :=
  List.takeWhile_append_of_pos allBlank

theorem Blank.dropWhile_append {blank : Str} (allBlank : Blank blank) (rest : Str) :
    (blank ++ rest).dropWhile isSpace = rest.dropWhile isSpace :=
  List.dropWhile_append_of_pos allBlank

/-- The text starts with a character that is no white space. -/
def Visible (text : Str) : Prop := ∃ c more, text = c :: more ∧ isSpace c = false

theorem Visible.takeWhile {text : Str} (visible : Visible text) : text.takeWhile isSpace = [] := by
  obtain ⟨c, more, rfl, dark⟩ := visible
  simp [dark]

theorem Visible.dropWhile {text : Str} (visible : Visible text) : text.dropWhile isSpace = text := by
  obtain ⟨c, more, rfl, dark⟩ := visible
  simp [dark]

theorem Visible.append {text : Str} (visible : Visible text) (rest : Str) : Visible (text ++ rest) := by
  obtain ⟨c, more, rfl, dark⟩ := visible
  exact ⟨c, more ++ rest, rfl, dark⟩

theorem blank_or_visible (text : Str) :
    Blank text ∨ ∃ blank visible, Blank blank ∧ Visible visible ∧ text = blank ++ visible := by
  induction text with
  | nil => exact .inl Blank.nil
  | cons c text ih =>
    by_cases space : isSpace c = true
    · have one : Blank [c] := by simpa [Blank] using space
      rcases ih with blank | ⟨blank, visible, allBlank, seen, rfl⟩
      · exact .inl (one.append blank)
      · exact .inr ⟨c :: blank, visible, one.append allBlank, seen, rfl⟩
    · exact .inr ⟨[], c :: text, Blank.nil, ⟨c, text, rfl, by simpa using space⟩, rfl⟩

variable {front text rest : Str}

theorem drop_front : (front ++ text ++ rest).drop front.length = text ++ rest := by
  rw [List.append_assoc, List.drop_left]

theorem skipped_blank (blank : Blank text) (visible : rest.takeWhile isSpace = [])
    (short : (front ++ text ++ rest).length < maxSizeT) :
    skipped (front ++ text ++ rest) front.length = (front ++ text).length := by
  have less : front.length + text.length < maxSizeT := by
    simp at short
    omega
  rw [skipped, drop_front, blank.takeWhile_append, visible, List.append_nil, Nat.mod_eq_of_lt less, List.length_append]

/-! ### The parts of the getters -/

theorem reads_ensureNotEnd (blank : Blank text) (visible : Visible rest) : Extractor.Reads maxSizeT ensureNotEnd () text rest := by
  intro front short
  rw [ensureNotEnd_apply, skipped_blank blank visible.takeWhile short, if_neg]
  obtain ⟨c, more, rfl, -⟩ := visible
  simp

theorem reads_expect (c : UInt8) (why : String) : Extractor.Reads maxSizeT (expect c why) () [c] rest := by
  intro front short
  have next : front.length + 1 < maxSizeT := by
    simp at short
    omega
  rw [expect_apply, Nat.mod_eq_of_lt next]
  simp

section
variable {α : Type} {form : Automaton UInt8} {value : Str → Option α} {result : α}

theorem stoa_ok {str : Str} {count : Nat} (taken : stoa form value str = .ok (result, count)) :
    ∃ behind, form.longest (str.dropWhile isSpace) = some behind ∧
      value ((str.dropWhile isSpace).take behind) = some result ∧
      count = (str.takeWhile isSpace).length + behind := by
  rw [stoa] at taken
  split at taken
  · cases taken
  · rename_i behind found
    split at taken
    · cases taken
    · rename_i same
      obtain ⟨rfl, rfl⟩ := Prod.mk.inj (Except.ok.inj taken)
      exact ⟨behind, found, same, rfl⟩

/-- What `stoa` takes is white space and a literal of the form that ends here. -/
theorem stoa_split (rejecting : form.accepting form.start = false)
    (taken : stoa form value (text ++ rest) = .ok (result, text.length)) :
    ∃ blank literal, Blank blank ∧ Visible literal ∧ text = blank ++ literal ∧
      form.longest (literal ++ rest) = some literal.length ∧ value literal = some result := by
  obtain ⟨behind, found, same, length⟩ := stoa_ok taken
  have some_ : behind ≠ 0 := by
    rintro rfl
    have empty : form.longestFrom form.start ([] ++ (text ++ rest).dropWhile isSpace) = some ([] : Str).length := found
    obtain ⟨state, started, accepted, -⟩ := Automaton.longestFrom_iff.mp empty
    obtain rfl := Option.some.inj started
    simp [rejecting] at accepted
  rcases blank_or_visible text with blank | ⟨blank, literal, allBlank, visible, rfl⟩
  · rw [blank.takeWhile_append, List.length_append] at length
    omega
  · rw [List.append_assoc, allBlank.takeWhile_append, (visible.append rest).takeWhile, List.append_nil,
      List.length_append] at length
    rw [List.append_assoc, allBlank.dropWhile_append, (visible.append rest).dropWhile] at found same
    obtain rfl : behind = literal.length := by omega
    rw [List.take_left] at same
    exact ⟨blank, literal, allBlank, visible, rfl, found, same⟩

theorem stoa_of_literal {blank literal : Str} (allBlank : Blank blank) (visible : Visible literal)
    (found : form.longest (literal ++ rest) = some literal.length) (same : value literal = some result) :
    stoa form value (blank ++ literal ++ rest) = .ok (result, (blank ++ literal).length) := by
  rw [List.append_assoc, stoa, allBlank.takeWhile_append, allBlank.dropWhile_append, (visible.append rest).takeWhile,
    (visible.append rest).dropWhile]
  simp [found, same]

/-- A number that ends a text is taken as it is if what follows does not carry it on. -/
theorem stoa_append (rejecting : form.accepting form.start = false)
    (quiet : ∀ state, form.accepting state = true → form.Quiet state rest)
    (taken : stoa form value text = .ok (result, text.length)) :
    stoa form value (text ++ rest) = .ok (result, text.length) := by
  have alone : stoa form value (text ++ []) = .ok (result, text.length) := by rwa [List.append_nil]
  obtain ⟨blank, literal, allBlank, visible, rfl, found, same⟩ := stoa_split rejecting alone
  obtain ⟨state, run, accepted, -⟩ := Automaton.longestFrom_iff.mp found
  refine stoa_of_literal allBlank visible ?_ same
  exact Automaton.longestFrom_iff.mpr ⟨state, run, accepted, quiet state accepted⟩

theorem reads_converted {range invalid_ : String} (taken : stoa form value (text ++ rest) = .ok (result, text.length)) :
    Extractor.Reads maxSizeT (converted (stoa form value) range invalid_) result text rest := by
  intro front short
  have less : front.length + text.length < maxSizeT := by
    simp at short
    omega
  rw [converted, Extractor.bind_ok (show remaining _ front.length = .ok (text ++ rest) _ by rw [remaining, drop_front]),
    taken]
  simp [Extractor.bind_apply, advance, Nat.mod_eq_of_lt less]

/-- What `get_int` and `get_float` do. -/
theorem reads_number {range invalid_ : String} (rejecting : form.accepting form.start = false)
    (taken : stoa form value (text ++ rest) = .ok (result, text.length)) :
    Extractor.Reads maxSizeT (do ensureNotEnd; converted (stoa form value) range invalid_) result text rest := by
  obtain ⟨blank, literal, allBlank, visible, rfl, found, same⟩ := stoa_split rejecting taken
  exact (reads_ensureNotEnd allBlank (visible.append rest)).bind
    (reads_converted (stoa_of_literal Blank.nil visible found same))

end

theorem integerForm_quiet (follows : ∀ c, rest.head? = some c → isDigit c = false) (state : IntState)
    (accepted : integerForm.accepting state = true) : integerForm.Quiet state rest := by
  obtain rfl : state = .digits := by simpa [integerForm] using accepted
  cases rest with
  | nil => exact Automaton.quiet_nil _
  | cons c rest =>
    have other := follows c rfl
    exact Automaton.quiet_of_stuck (by simp [integerForm, other]) rest

theorem reads_getInt {value : Int64} (spelled : stoll (text ++ rest) = .ok (value, text.length)) :
    Extractor.Reads maxSizeT getInt value text rest :=
  reads_number rfl spelled

theorem reads_getFloat {value : Float64} (spelled : stod (text ++ rest) = .ok (value, text.length)) :
    Extractor.Reads maxSizeT getFloat value text rest :=
  reads_number rfl spelled

theorem reads_getLen {len : Nat} (spelled : SpellsLen len text) (rest : Str) :
    Extractor.Reads maxSizeT getLen len text rest := by
  obtain ⟨blank, digits, allBlank, taken, rfl⟩ := spelled
  have closed : stoull (digits ++ ([41] ++ rest)) = .ok (len, digits.length) :=
    stoa_append rfl (integerForm_quiet (by simp [isDigit])) taken
  refine (reads_ensureNotEnd allBlank ⟨40, digits ++ [41] ++ rest, rfl, rfl⟩).bind ?_
  change Extractor.Reads _ _ _ ([40] ++ (digits ++ ([41] ++ []))) rest
  refine (reads_expect 40 _).bind ?_
  refine (reads_converted closed).bind ?_
  exact (reads_expect 41 _).bind (.pure len)

theorem reads_getStr {value : Str} (spelled : SpellsStr value text) (rest : Str) :
    Extractor.Reads maxSizeT getStr value text rest := by
  obtain ⟨len, length, rfl⟩ := spelled
  refine (reads_getLen length (value ++ rest)).bind ?_
  intro front short
  have less : front.length + value.length < maxSizeT := by
    simp at short
    omega
  have enough : hasUpTo value.length (front ++ value ++ rest) front.length = .ok true front.length := by
    simp [hasUpTo, Nat.mod_eq_of_lt less]
  rw [Extractor.bind_ok enough, if_pos rfl, Extractor.bind_apply, remaining, drop_front]
  simp [Extractor.bind_apply, advance, Nat.mod_eq_of_lt less]

theorem reads_getPair {pair : Str × Str} (spelled : SpellsPair pair text) (rest : Str) :
    Extractor.Reads maxSizeT getPair pair text rest := by
  obtain ⟨key, value, first, second, rfl⟩ := spelled
  refine (reads_getStr first (value ++ rest)).bind ?_
  rw [← value.append_nil]
  exact (reads_getStr second _).bind (.pure pair)

section
variable {α : Type} {read : Extract α} {spells : α → Str → Prop}

theorem reads_times (each : ∀ value text, spells value text → ∀ rest, Extractor.Reads maxSizeT read value text rest)
    {values : List α} (spelled : SpellsEach spells values text) (rest : Str) :
    Extractor.Reads maxSizeT (times read values.length) values text rest := by
  induction values generalizing text with
  | nil =>
    obtain rfl : text = [] := spelled
    exact .pure []
  | cons value values ih =>
    obtain ⟨first, more, here, there, rfl⟩ := spelled
    refine (each value first here (more ++ rest)).bind ?_
    rw [← more.append_nil]
    exact (ih there).bind (.pure _)

theorem reads_getMany (each : ∀ value text, spells value text → ∀ rest, Extractor.Reads maxSizeT read value text rest)
    {values : List α} {openBracket closeBracket : UInt8} {opened closed : String} {prepare : Nat → Extract Unit}
    (prepared : ∀ rest, Extractor.Reads maxSizeT (prepare values.length) () [] rest)
    (spelled : SpellsMany openBracket closeBracket spells values text) (rest : Str) :
    Extractor.Reads maxSizeT (getMany openBracket closeBracket opened closed prepare read) values text rest := by
  obtain ⟨len, body, length, elements, rfl⟩ := spelled
  refine (reads_getLen length _).bind ?_
  change Extractor.Reads _ _ _ ([openBracket] ++ ([] ++ (body ++ ([closeBracket] ++ [])))) rest
  refine (reads_expect openBracket _).bind ?_
  refine (prepared _).bind ?_
  refine (reads_times each elements _).bind ?_
  exact (reads_expect closeBracket _).bind (.pure values)

end

theorem reads_reserve {len : Nat} (fits : len ≤ maxVectorSize) (rest : Str) :
    Extractor.Reads maxSizeT (reserve len) () [] rest := by
  rw [reserve, if_neg (Nat.not_lt.mpr fits)]
  exact .pure ()

theorem reads_getFromList {α : Type} {list : List (α × Str)} {value : α} {blank name : Str} (why : String)
    (allBlank : Blank blank) (visible : Visible name) (found : findFrom list (name ++ rest) = some (value, name)) :
    Extractor.Reads maxSizeT (getFromList list why) value (blank ++ name) rest := by
  intro front short
  have less : front.length + (blank.length + name.length) < maxSizeT := by
    simp at short
    omega
  have same : front ++ (blank ++ name) ++ rest = front ++ blank ++ (name ++ rest) := by simp
  rw [same] at short ⊢
  rw [getFromList_apply, skipped_blank allBlank (visible.append rest).takeWhile short]
  rw [List.drop_left, found]
  simp [Nat.mod_eq_of_lt less, Nat.add_assoc]

theorem reads_getClientAuth {level : ClientAuth} {blank name : Str} (allBlank : Blank blank)
    (listed : (level, name) ∈ clientAuthStrings) (rest : Str) :
    Extractor.Reads maxSizeT getClientAuth level (blank ++ name) rest := by
  simp only [clientAuthStrings, List.mem_cons, Prod.mk.injEq, List.not_mem_nil, or_false] at listed
  rcases listed with ⟨rfl, rfl⟩ | ⟨rfl, rfl⟩ | ⟨rfl, rfl⟩ | ⟨rfl, rfl⟩
  all_goals exact reads_getFromList _ allBlank ⟨_, _, rfl, rfl⟩ rfl

theorem reads_getBool {value : Bool} {blank : Str} (allBlank : Blank blank) (rest : Str) :
    Extractor.Reads maxSizeT getBool value (blank ++ bif value then ascii "true" else ascii "false") rest := by
  refine (reads_ensureNotEnd allBlank ?_).bind ?_
  · cases value with
    | true => exact ⟨116, _, rfl, rfl⟩
    | false => exact ⟨102, _, rfl, rfl⟩
  · intro front short
    have yes : ascii "true" = [116, 114, 117, 101] := rfl
    have no : ascii "false" = [102, 97, 108, 115, 101] := rfl
    rw [Extractor.bind_apply, remaining, drop_front]
    cases value with
    | true =>
      have less : front.length + 4 < maxSizeT := by
        simp [yes] at short
        omega
      simp [yes, Extractor.bind_apply, advance, Nat.mod_eq_of_lt less]
    | false =>
      have less : front.length + 5 < maxSizeT := by
        simp [no] at short
        omega
      simp [yes, no, Extractor.bind_apply, advance, Nat.mod_eq_of_lt less]

/-- A getter reads what is spelled. -/
theorem reads_get {type : ObjectT} {value : type.Concrete} (spelled : Spells type value text rest) :
    Extractor.Reads maxSizeT (get type) value text rest := by
  cases type with
  | str => exact reads_getStr spelled rest
  | int => exact reads_getInt spelled
  | float => exact reads_getFloat spelled
  | arr => exact reads_getMany (fun _ _ => reads_getStr) (reads_reserve spelled.2) spelled.1 rest
  | list => exact reads_getMany (fun _ _ => reads_getStr) (fun _ => .pure ()) spelled rest
  | set =>
    obtain ⟨elements, many, rfl⟩ := spelled
    rw [← text.append_nil]
    exact (reads_getMany (fun _ _ => reads_getStr) (fun _ => .pure ()) many _).bind (.pure _)
  | hash =>
    obtain ⟨entries, many, rfl⟩ := spelled
    rw [← text.append_nil]
    exact (reads_getMany (fun _ _ => reads_getPair) (fun _ => .pure ()) many _).bind (.pure _)
  | bool =>
    obtain ⟨blank, allBlank, rfl⟩ := spelled
    exact reads_getBool allBlank rest
  | clientAuth =>
    obtain ⟨blank, name, allBlank, listed, rfl⟩ := spelled
    exact reads_getClientAuth allBlank listed rest

theorem reads_getAll {types : List ObjectT} {values : Concrete types} (spelled : SpellsAll types values text rest) :
    Extractor.Reads maxSizeT (getAll types) values text rest := by
  induction types generalizing text with
  | nil =>
    obtain rfl : text = [] := spelled
    exact .pure ()
  | cons type types ih =>
    obtain ⟨first, more, here, there, rfl⟩ := spelled
    refine (reads_get here).bind ?_
    rw [← more.append_nil]
    exact (ih there).bind (.pure _)

theorem reads_ensureEndIf {end_ : Bool} (last : end_ = true → rest = []) :
    Extractor.Reads maxSizeT (ensureEndIf end_) () [] rest := by
  cases end_ with
  | false => exact .pure ()
  | true =>
    obtain rfl := last rfl
    intro front short
    change ensureEnd _ _ = _
    rw [ensureEnd_apply, skipped_blank Blank.nil rfl short, if_pos (by simp)]

theorem reads_getExact {types : List ObjectT} {values : Concrete types} {end_ : Bool}
    (last : end_ = true → rest = []) (spelled : SpellsAll types values text rest) :
    Extractor.Reads maxSizeT (getExact types end_) values text rest := by
  rw [← text.append_nil]
  refine Extractor.Reads.bind (reads_getAll spelled) ?_
  change Extractor.Reads _ _ _ ([] ++ []) rest
  exact (reads_ensureEndIf last).bind (.pure values)

end Vanity.Request
