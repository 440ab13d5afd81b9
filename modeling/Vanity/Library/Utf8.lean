import Mathlib.Data.List.Basic
import Mathlib.Data.Nat.Notation
import Mathlib.Tactic.Common

/-!
# Characters and bytes

A text is a list of code points, surrogates among them, and UTF-8 has no bytes for these. An encoded text has at
least as many bytes as it has characters, and as many only if it is ASCII, where each character is its own byte.
-/

namespace Vanity

abbrev CodePoint := Fin 0x110000

abbrev Text := List CodePoint

namespace Utf8

def ofChar (c : Char) : CodePoint := ⟨c.toNat, by
  have valid : c.toNat < 0xd800 ∨ 0xdfff < c.toNat ∧ c.toNat < 0x110000 := c.valid
  omega⟩

def encodeChar (c : CodePoint) : Option (List UInt8) :=
  if c.val.isValidChar then some (String.utf8EncodeChar (Char.ofNat c)) else none

def encode : Text → Option (List UInt8)
  | [] => some []
  | c :: text => (encodeChar c).bind fun first => (encode text).map (first ++ ·)

def IsAscii (text : Text) : Prop := ∀ c ∈ text, c.val < 128

def byte (c : CodePoint) : UInt8 := UInt8.ofNat c

@[simp] theorem isAscii_nil : IsAscii [] := by simp [IsAscii]

@[simp] theorem isAscii_cons {c : CodePoint} {text : Text} : IsAscii (c :: text) ↔ c.val < 128 ∧ IsAscii text := by
  simp [IsAscii]

@[simp] theorem isAscii_append {first second : Text} : IsAscii (first ++ second) ↔ IsAscii first ∧ IsAscii second := by
  simp [IsAscii, or_imp, forall_and]

theorem isAscii_flatMap {α : Type} {texts : List α} {form : α → Text} :
    IsAscii (texts.flatMap form) ↔ ∀ text ∈ texts, IsAscii (form text) := by
  induction texts with
  | nil => simp
  | cons text texts ih => simp [ih]

theorem isAscii_intercalate {sep : Text} (plain : IsAscii sep) {texts : List Text} :
    IsAscii (List.intercalate sep texts) ↔ ∀ text ∈ texts, IsAscii text := by
  induction texts with
  | nil => simp
  | cons text texts ih =>
    cases texts with
    | nil => simp
    | cons next texts =>
      rw [List.intercalate_cons_cons]
      simp [ih, plain]

/-! ### How many bytes there are -/

theorem valid_of_ascii {c : CodePoint} (small : c.val < 128) : c.val.isValidChar := .inl (by omega)

theorem val_ofNat {n : Nat} (valid : n.isValidChar) : (Char.ofNat n).val.toNat = n := by
  rw [Char.ofNat, dif_pos valid]
  rfl

theorem encodeChar_ascii {c : CodePoint} (small : c.val < 128) : encodeChar c = some [byte c] := by
  have value := val_ofNat (valid_of_ascii small)
  rw [encodeChar, if_pos (valid_of_ascii small), String.utf8EncodeChar]
  simp only [value]
  rw [if_pos (by omega)]
  rfl

theorem encodeChar_length {c : CodePoint} {bytes : List UInt8} (encoded : encodeChar c = some bytes) :
    1 ≤ bytes.length ∧ (bytes.length = 1 → c.val < 128) := by
  unfold encodeChar at encoded
  split at encoded
  · rename_i valid
    obtain rfl := Option.some.inj encoded
    have value := val_ofNat valid
    rw [String.length_utf8EncodeChar, Char.utf8Size_eq_one_iff, UInt32.le_iff_toNat_le, value]
    refine ⟨Char.utf8Size_pos _, fun low => ?_⟩
    change c.val ≤ 127 at low
    omega
  · cases encoded

theorem encode_ascii {text : Text} (plain : IsAscii text) : encode text = some (text.map byte) := by
  induction text with
  | nil => rfl
  | cons c text ih =>
    obtain ⟨small, plain⟩ := isAscii_cons.mp plain
    rw [encode, encodeChar_ascii small, ih plain]
    rfl

theorem encode_length {text : Text} {bytes : List UInt8} (encoded : encode text = some bytes) :
    text.length ≤ bytes.length ∧ (bytes.length = text.length → IsAscii text) := by
  induction text generalizing bytes with
  | nil => simp
  | cons c text ih =>
    obtain ⟨first, one, rest⟩ := Option.bind_eq_some_iff.mp encoded
    obtain ⟨others, more, rfl⟩ := Option.map_eq_some_iff.mp rest
    obtain ⟨some_, single⟩ := encodeChar_length one
    obtain ⟨enough, plain⟩ := ih more
    simp only [List.length_append, List.length_cons, isAscii_cons]
    refine ⟨by omega, fun same => ⟨single (by omega), plain (by omega)⟩⟩

theorem byte_inj {c d : CodePoint} (one : c.val < 128) (two : d.val < 128) (same : byte c = byte d) : c = d := by
  have values := congrArg UInt8.toNat same
  simp only [byte, UInt8.toNat_ofNat'] at values
  exact Fin.ext (by omega)

theorem map_byte_inj {first second : Text} (one : IsAscii first) (two : IsAscii second)
    (same : first.map byte = second.map byte) : first = second := by
  induction first generalizing second with
  | nil => exact (List.map_eq_nil_iff.mp same.symm).symm
  | cons c first ih =>
    obtain ⟨d, second, rfl, head, tail⟩ := List.map_eq_cons_iff.mp same.symm
    rw [isAscii_cons] at one two
    rw [byte_inj two.1 one.1 head, ih one.2 two.2 tail.symm]

end Utf8

end Vanity
