import Vanity.Client.Format
import Vanity.Library.Utf8
import Vanity.Net.Framing

/-!
# Text on the wire

`format` and `request_from` of `client_.py`, and `send` of `socket_client.py`, with the characters that Python has.
All lengths are taken of the text, before it is encoded, and `SYNTAX.md` and the getters have them in bytes.
-/

namespace Vanity.Client.Unicode

open Db (Str)
open Request (ObjectT Concrete getAll SpellsStr SpellsMany SpellsPair Spells SpellsAll serializeLength
  serializeStringBody serializeStrings)
open Utf8

/-- The arguments that are texts and collections of them, which are iterated in this order. -/
inductive Arg where
  | str (msg : Text)
  | list (msg : List Text)
  | set (msg : List Text) (distinct : msg.Nodup)
  | dict (msg : List (Text × Text)) (distinct : (msg.map Prod.fst).Nodup)

def natText (n : Nat) : Text := (Nat.toDigits 10 n).map ofChar

def formatLen (len : Nat) : Text := [40] ++ natText len ++ [41]

def formatStr (msg : Text) : Text := formatLen msg.length ++ msg

def formatMany (openBracket closeBracket : CodePoint) (len : Nat) (msg : List Text) : Text :=
  formatLen len ++ [openBracket] ++ msg.flatMap formatStr ++ [closeBracket]

def format : Arg → Text
  | .str msg => formatStr msg
  | .list msg => formatMany 91 93 msg.length msg
  | .set msg _ => formatMany 123 125 msg.length msg
  | .dict msg _ => formatMany 123 125 msg.length (msg.flatMap fun item => [item.1, item.2])

def requestFrom (command : Text) (args : List Arg) : Text := command ++ List.intercalate [32] (args.map format)

/-- `SocketClient.send`: the bytes that are sent, or none if `to_bytes` or `encode` raises an exception. -/
def send (msg : Text) : Option Str :=
  if msg.length < 2 ^ 32 then (encode msg).map (Net.lengthBytes msg.length ++ ·) else none

/-! ### What the server makes of it -/

def Arg.texts : Arg → List Text
  | .str msg => [msg]
  | .list msg => msg
  | .set msg _ => msg
  | .dict msg _ => msg.flatMap fun item => [item.1, item.2]

/-- What the getters can read it as. -/
def Arg.types : Arg → List ObjectT
  | .str _ => [.str]
  | .list _ => [.arr, .list]
  | .set _ _ => [.set]
  | .dict _ _ => [.hash]

/-- The value is the argument with its texts encoded. -/
inductive Encodes : Arg → (type : ObjectT) → type.Concrete → Prop
  | str {msg : Text} {value : Str} (same : encode msg = some value) : Encodes (.str msg) .str value
  | arr {msg : List Text} {values : List Str} (same : msg.map encode = values.map some) :
    Encodes (.list msg) .arr values
  | list {msg : List Text} {values : List Str} (same : msg.map encode = values.map some) :
    Encodes (.list msg) .list values
  | set {msg : List Text} {distinct : msg.Nodup} {values : Finset Str}
    (same : ∀ value, value ∈ values ↔ ∃ text ∈ msg, encode text = some value) :
    Encodes (.set msg distinct) .set values
  | hash {msg : List (Text × Text)} {distinct : (msg.map Prod.fst).Nodup} {table : Db.HashT}
    (same : ∀ key value, table.lookup key = some value ↔
      ∃ item ∈ msg, encode item.1 = some key ∧ encode item.2 = some value) : Encodes (.dict msg distinct) .hash table

def EncodesAll : List Arg → (types : List ObjectT) → Concrete types → Prop
  | [], [], _ => True
  | arg :: args, type :: types, (value, values) => Encodes arg type value ∧ EncodesAll args types values
  | _, _, _ => False

/-- The connection on which these bytes come. -/
def arriving (wire : Str) : Net.Connection := { Net.start [] with socket := ⟨[], wire, false⟩ }

/-- What is sent is one frame whose lengths are numbers of bytes. The server gets the whole request when the frame is
there, with anything behind it, and in every run in which a length is there when it is read. It reads the arguments
back from it. -/
structure OneFrame (command : Text) (args : List Arg) (wire : Str) : Prop where
  sent : send (requestFrom command args) = some wire
  header : Net.ntohl (wire.take 4) = (wire.drop 4).length
  prefixes : ∀ msg ∈ args.flatMap Arg.texts, ∃ bytes, encode msg = some bytes ∧
    encode (formatStr msg) = some (serializeStringBody bytes)
  delivered : ∀ later coming hungUp between,
    Net.SocketReader.read ⟨[], 0⟩ ⟨wire ++ later, coming, hungUp⟩ between =
      ⟨.isOpen, ⟨[], 0⟩, Net.Socket.arrive ⟨later, coming, hungUp⟩ between, [wire.drop 4]⟩
  inParts : ∀ events, EachStep Net.step Net.LengthThere events (arriving wire) →
    EachState Net.step (Net.Framed [wire.drop 4]) events (arriving wire)
  readBack : ∀ types, List.Forall₂ (fun arg type => type ∈ Arg.types arg) args types → ∃ front values,
    encode command = some front ∧ EncodesAll args types values ∧
      getAll types (wire.drop 4) front.length = .ok values (wire.drop 4).length

/-! ### How long a request is -/

def lengthSize (len : Nat) : Nat := (Nat.toDigits 10 len).length + 2

def strSize (msg : Text) : Nat := lengthSize msg.length + msg.length

def manySize (len : Nat) (msg : List Text) : Nat := lengthSize len + (msg.map strSize).sum + 2

def Arg.size : Arg → Nat
  | .str msg => strSize msg
  | .list msg => manySize msg.length msg
  | .set msg _ => manySize msg.length msg
  | .dict msg _ => manySize msg.length (msg.flatMap fun item => [item.1, item.2])

def requestSize (command : Text) (args : List Arg) : Nat :=
  command.length + (args.map Arg.size).sum + (args.length - 1)

theorem length_formatLen (len : Nat) : (formatLen len).length = lengthSize len := by
  simp [formatLen, lengthSize, natText]

theorem length_formatStr (msg : Text) : (formatStr msg).length = strSize msg := by
  rw [formatStr, List.length_append, length_formatLen, strSize]

theorem length_formatMany (openBracket closeBracket : CodePoint) (len : Nat) (msg : List Text) :
    (formatMany openBracket closeBracket len msg).length = manySize len msg := by
  have texts : (msg.flatMap formatStr).length = (msg.map strSize).sum := by
    rw [List.length_flatMap]
    simp only [length_formatStr]
  simp only [formatMany, List.length_append, length_formatLen, texts, List.length_singleton, manySize]
  omega

theorem length_format (arg : Arg) : (format arg).length = arg.size := by
  cases arg with
  | str msg => exact length_formatStr msg
  | list msg => exact length_formatMany _ _ _ msg
  | set msg => exact length_formatMany _ _ _ msg
  | dict msg => exact length_formatMany _ _ _ _

theorem length_requestFrom (command : Text) (args : List Arg) :
    (requestFrom command args).length = requestSize command args := by
  have joined : (List.intercalate [32] (args.map format)).length = (args.map Arg.size).sum + (args.length - 1) := by
    induction args with
    | nil => rfl
    | cons arg args ih =>
      cases args with
      | nil => simp [length_format]
      | cons next args =>
        simp only [List.map_cons, List.intercalate_cons_cons, List.length_append, List.length_cons, List.length_nil,
          List.sum_cons, length_format] at ih ⊢
        omega
  rw [requestFrom, List.length_append, joined, requestSize, Nat.add_assoc]

/-! ### Requests in ASCII -/

theorem isAscii_formatLen (len : Nat) : IsAscii (formatLen len) := by
  have digits : IsAscii (natText len) := by
    intro c member
    obtain ⟨d, listed, rfl⟩ := List.mem_map.mp member
    have bounds := Request.digit_bounds listed
    change d.toNat < 128
    omega
  simp [formatLen, digits]

theorem isAscii_formatStr {msg : Text} : IsAscii (formatStr msg) ↔ IsAscii msg := by
  simp [formatStr, isAscii_formatLen]

theorem isAscii_formatMany {openBracket closeBracket : CodePoint} (opened : openBracket.val < 128)
    (closed : closeBracket.val < 128) {len : Nat} {msg : List Text} :
    IsAscii (formatMany openBracket closeBracket len msg) ↔ ∀ text ∈ msg, IsAscii text := by
  simp [formatMany, isAscii_formatLen, isAscii_flatMap, isAscii_formatStr, opened, closed]

theorem isAscii_format {arg : Arg} : IsAscii (format arg) ↔ ∀ msg ∈ arg.texts, IsAscii msg := by
  cases arg with
  | str msg => simp [format, Arg.texts, isAscii_formatStr]
  | list msg => exact isAscii_formatMany (by decide) (by decide)
  | set msg => exact isAscii_formatMany (by decide) (by decide)
  | dict msg => exact isAscii_formatMany (by decide) (by decide)

theorem isAscii_requestFrom {command : Text} {args : List Arg} :
    IsAscii (requestFrom command args) ↔ IsAscii command ∧ ∀ msg ∈ args.flatMap Arg.texts, IsAscii msg := by
  have plain : IsAscii [32] := by simp
  rw [requestFrom, isAscii_append, isAscii_intercalate plain]
  simp only [List.mem_map, forall_exists_index, and_imp, forall_apply_eq_imp_iff₂, isAscii_format, List.mem_flatMap]
  constructor
  · rintro ⟨one, all⟩
    exact ⟨one, fun msg arg member listed => all arg member msg listed⟩
  · rintro ⟨one, all⟩
    exact ⟨one, fun arg member msg listed => all msg arg member listed⟩

/-! ### Their bytes -/

theorem bytes_formatLen (len : Nat) : (formatLen len).map byte = serializeLength len := by
  simp [formatLen, serializeLength, natText, Request.natText, byte, ofChar]

theorem bytes_formatStr (msg : Text) : (formatStr msg).map byte = serializeStringBody (msg.map byte) := by
  rw [formatStr, List.map_append, bytes_formatLen, serializeStringBody, List.length_map]

theorem bytes_formatMany (openBracket closeBracket : CodePoint) (len : Nat) (msg : List Text) :
    (formatMany openBracket closeBracket len msg).map byte =
      serializeStrings (byte openBracket) (byte closeBracket) len (msg.map (List.map byte)) := by
  have texts : (msg.flatMap formatStr).map byte = (msg.map (List.map byte)).flatMap serializeStringBody := by
    rw [List.map_flatMap, List.flatMap_map]
    simp only [bytes_formatStr]
  simp only [formatMany, serializeStrings, List.map_append, bytes_formatLen, texts, List.map_cons, List.map_nil]

theorem map_encode {msg : List Text} (plain : ∀ text ∈ msg, IsAscii text) :
    msg.map encode = (msg.map (List.map byte)).map some := by
  rw [List.map_map]
  exact List.map_congr_left fun text member => encode_ascii (plain text member)

theorem spells_many {msg : List Text} {openBracket closeBracket : CodePoint} {len : Nat} (counted : msg.length = len)
    (short : (formatMany openBracket closeBracket len msg).length < 2 ^ 32) :
    SpellsMany (byte openBracket) (byte closeBracket) SpellsStr (msg.map (List.map byte))
      ((formatMany openBracket closeBracket len msg).map byte) ∧ len < 2 ^ 32 := by
  rw [← List.length_map byte, bytes_formatMany] at short
  rw [bytes_formatMany]
  exact Request.spellsMany_strings (by rw [List.length_map, counted]) short

theorem encodes_dict {msg : List (Text × Text)} (distinct : (msg.map Prod.fst).Nodup)
    (plain : ∀ item ∈ msg, IsAscii item.1 ∧ IsAscii item.2) :
    Encodes (.dict msg distinct) .hash
      ((msg.map fun item => (item.1.map byte, item.2.map byte)).foldl Table.insertNew (∅ : Db.HashT)) := by
  have unique : ((msg.map fun item => (item.1.map byte, item.2.map byte)).map Prod.fst).Nodup := by
    have keys : (msg.map fun item => (item.1.map byte, item.2.map byte)).map Prod.fst =
        (msg.map Prod.fst).map (List.map byte) := by
      simp
    rw [keys]
    refine distinct.map_on fun one first two second same => ?_
    obtain ⟨item, here, rfl⟩ := List.mem_map.mp first
    obtain ⟨other, there, rfl⟩ := List.mem_map.mp second
    exact map_byte_inj (plain item here).1 (plain other there).1 same
  refine .hash fun key value => ?_
  refine (Table.lookup_foldl_insertNew unique).trans ?_
  rw [List.mem_map]
  refine exists_congr fun item => and_congr_right fun member => ?_
  rw [encode_ascii (plain item member).1, encode_ascii (plain item member).2, Option.some.injEq, Option.some.injEq,
    Prod.mk.injEq]

theorem spells_arg {arg : Arg} {type : ObjectT} (plain : ∀ msg ∈ arg.texts, IsAscii msg) (fits : type ∈ arg.types)
    (short : (format arg).length < 2 ^ 32) (rest : Str) :
    ∃ value, Encodes arg type value ∧ Spells type value ((format arg).map byte) rest := by
  cases arg with
  | str msg =>
    obtain rfl := List.mem_singleton.mp fits
    refine ⟨msg.map byte, .str (encode_ascii (plain msg (by simp [Arg.texts]))), ?_⟩
    rw [← List.length_map byte] at short
    change SpellsStr _ ((formatStr msg).map byte)
    rw [format, bytes_formatStr] at short
    rw [bytes_formatStr]
    exact Request.spellsStr_short short
  | list msg =>
    obtain ⟨spelled, few⟩ := spells_many rfl short
    have same := map_encode plain
    simp only [Arg.types, List.mem_cons, List.not_mem_nil, or_false] at fits
    obtain rfl | rfl := fits
    · refine ⟨msg.map (List.map byte), .arr same, spelled, ?_⟩
      rw [List.length_map]
      unfold Request.maxVectorSize
      omega
    · exact ⟨msg.map (List.map byte), .list same, spelled⟩
  | set msg distinct =>
    obtain rfl := List.mem_singleton.mp fits
    refine ⟨(msg.map (List.map byte)).toFinset, .set fun value => ?_, _, (spells_many rfl short).1, rfl⟩
    rw [List.mem_toFinset, List.mem_map]
    refine exists_congr fun text => and_congr_right fun member => ?_
    rw [encode_ascii (plain text member), Option.some.injEq]
  | dict msg distinct =>
    obtain rfl := List.mem_singleton.mp fits
    have plain_ : ∀ item ∈ msg, IsAscii item.1 ∧ IsAscii item.2 := by
      intro item member
      have texts : ∀ text ∈ [item.1, item.2], IsAscii text := fun text listed =>
        plain text (List.mem_flatMap.mpr ⟨item, member, listed⟩)
      exact ⟨texts _ (by simp), texts _ (by simp)⟩
    have items : (msg.flatMap fun item => [item.1, item.2]).map (List.map byte) =
        (msg.map fun item => (item.1.map byte, item.2.map byte)).flatMap fun entry => [entry.1, entry.2] := by
      simp [List.map_flatMap, List.flatMap_map]
    refine ⟨_, encodes_dict distinct plain_, _, ?_, rfl⟩
    rw [← List.length_map byte, format, bytes_formatMany, items] at short
    rw [format, bytes_formatMany, items]
    exact Request.spellsMany_items (List.length_map _) short

theorem spells_args {args : List Arg} {types : List ObjectT} (plain : ∀ arg ∈ args, ∀ msg ∈ arg.texts, IsAscii msg)
    (fits : List.Forall₂ (fun arg type => type ∈ Arg.types arg) args types)
    (short : (List.intercalate [32] (args.map format)).length < 2 ^ 32) :
    ∃ values, EncodesAll args types values ∧
      SpellsAll types values ((List.intercalate [32] (args.map format)).map byte) [] := by
  induction fits with
  | nil => exact ⟨(), trivial, rfl⟩
  | @cons arg type args types fits others ih =>
    have first := plain arg List.mem_cons_self
    have more := fun other member => plain other (List.mem_cons_of_mem arg member)
    cases others with
    | nil =>
      rw [List.map_singleton, List.intercalate_singleton] at short ⊢
      obtain ⟨value, encoded, spelled⟩ := spells_arg first fits short []
      exact ⟨(value, ()), ⟨encoded, trivial⟩, _, [], spelled, rfl, (List.append_nil _).symm⟩
    | @cons next second args types =>
      rw [List.map_cons, List.map_cons, List.intercalate_cons_cons] at short ⊢
      simp only [List.length_append] at short
      obtain ⟨values, encodedAll, spelledAll⟩ := ih more (by rw [List.map_cons]; omega)
      obtain ⟨value, encoded, spelled⟩ := spells_arg first fits (by omega)
        ([32] ++ (List.intercalate [32] (format next :: args.map format)).map byte)
      have blank : Request.Blank [32] := by simp [Request.Blank, Request.isSpace]
      refine ⟨(value, values), ⟨encoded, encodedAll⟩, (format arg).map byte, _, ?_, spelledAll.blank blank, ?_⟩
      · rw [List.append_nil]
        exact spelled
      · simp [byte]

theorem arriving_frame (body : Str) : arriving (Net.frame body) = Net.start [body] := by
  simp [arriving, Net.start]

theorem frame_parts (body : Str) (small : body.length < 2 ^ 32) :
    (Net.frame body).drop 4 = body ∧ Net.ntohl ((Net.frame body).take 4) = body.length :=
  ⟨rfl, Net.ntohl_lengthBytes small⟩

/-! ### The frame -/

theorem requestFrom_eq_nil {command : Text} {args : List Arg} :
    requestFrom command args = [] ↔ command = [] ∧ args = [] := by
  have length := length_requestFrom command args
  constructor
  · intro empty
    rw [empty] at length
    cases args with
    | nil => exact ⟨by simpa [requestFrom] using empty, rfl⟩
    | cons arg args =>
      have positive : 0 < arg.size := by
        cases arg <;> simp only [Arg.size, strSize, manySize, lengthSize] <;> omega
      simp only [requestSize, List.map_cons, List.sum_cons, List.length_nil] at length
      omega
  · rintro ⟨rfl, rfl⟩
    rfl

theorem oneFrame_of_ascii {command : Text} {args : List Arg} (plain : IsAscii (requestFrom command args))
    (some_ : requestFrom command args ≠ []) (short : (requestFrom command args).length < 2 ^ 32) :
    OneFrame command args (Net.frame ((requestFrom command args).map byte)) := by
  have small : ((requestFrom command args).map byte).length < 2 ^ 32 := by rwa [List.length_map]
  obtain ⟨body, header⟩ := frame_parts _ small
  obtain ⟨named, texts⟩ := isAscii_requestFrom.mp plain
  refine ⟨?_, by rw [body, header], fun msg member => ?_, fun later coming hungUp between => ?_,
    fun events there => ?_, fun types fits => ?_⟩
  · rw [send, if_pos short, encode_ascii plain, Net.frame, List.length_map]
    rfl
  · refine ⟨msg.map byte, encode_ascii (texts msg member), ?_⟩
    rw [encode_ascii (isAscii_formatStr.mpr (texts msg member)), bytes_formatStr]
  · rw [body]
    exact Net.read_frame (by simpa using some_) small later coming hungUp between
  · rw [arriving_frame] at there ⊢
    rw [body]
    exact eachState_of_inv (Net.Inv.step (by simpa using small)) (fun _ => Net.Inv.framed) (Net.start_inv _) there
  · have args_ : ∀ arg ∈ args, ∀ msg ∈ arg.texts, IsAscii msg := by
      intro arg here msg there
      exact texts msg (List.mem_flatMap.mpr ⟨arg, here, there⟩)
    rw [requestFrom, List.length_append] at short
    obtain ⟨values, encoded, spelled⟩ := spells_args args_ fits (by omega)
    refine ⟨command.map byte, values, encode_ascii named, encoded, ?_⟩
    have room : ((requestFrom command args).map byte).length < Request.maxSizeT := by
      unfold Request.maxSizeT
      omega
    have read := Request.reads_getAll spelled (command.map byte)
    rw [List.append_nil, ← List.map_append, ← requestFrom] at read
    rw [body]
    exact read room

theorem OneFrame.ascii {command : Text} {args : List Arg} {wire : Str} (frame : OneFrame command args wire) :
    IsAscii (requestFrom command args) ∧ requestFrom command args ≠ [] ∧
      (requestFrom command args).length < 2 ^ 32 := by
  have sent := frame.sent
  unfold send at sent
  split at sent
  · rename_i short
    obtain ⟨body, encoded, rfl⟩ := Option.map_eq_some_iff.mp sent
    refine ⟨?_, ?_, short⟩
    · have header : Net.ntohl (Net.lengthBytes (requestFrom command args).length) = body.length := frame.header
      rw [Net.ntohl_lengthBytes short] at header
      exact (encode_length encoded).2 header.symm
    · -- a length of zero is taken for the end of the stream
      intro empty
      rw [empty] at encoded
      obtain rfl := Option.some.inj encoded
      have delivered := frame.delivered [] [] false 0
      rw [empty] at delivered
      cases delivered
  · cases sent

/-- The frame is right for the requests in ASCII that are not empty and not too long. -/
theorem oneFrame_iff (command : Text) (args : List Arg) :
    (∃ wire, OneFrame command args wire) ↔
      (IsAscii command ∧ ∀ msg ∈ args.flatMap Arg.texts, IsAscii msg) ∧ (command ≠ [] ∨ args ≠ []) ∧
        requestSize command args < 2 ^ 32 := by
  have some_ : command ≠ [] ∨ args ≠ [] ↔ requestFrom command args ≠ [] := by
    rw [ne_eq (requestFrom command args), requestFrom_eq_nil, not_and_or]
  rw [← isAscii_requestFrom, some_, ← length_requestFrom]
  constructor
  · rintro ⟨wire, frame⟩
    exact frame.ascii
  · rintro ⟨plain, some_, short⟩
    exact ⟨_, oneFrame_of_ascii plain some_ short⟩

/-- `GET` of `é`, a character of two bytes. The length is 7, and 8 bytes follow. -/
theorem accented_notFramed : ¬∃ wire, OneFrame [71, 69, 84] [.str [233]] wire := by
  rintro ⟨wire, frame⟩
  have sent : send (requestFrom [71, 69, 84] [.str [233]]) = some [0, 0, 0, 7, 71, 69, 84, 40, 49, 41, 195, 169] := by
    decide +kernel
  obtain rfl := Option.some.inj (frame.sent.symm.trans sent)
  exact absurd frame.header (by decide)

end Vanity.Client.Unicode
