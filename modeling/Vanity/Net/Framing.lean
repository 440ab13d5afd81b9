import Mathlib.Data.List.Infix
import Vanity.Db.Types
import Vanity.Library.Runs

/-!
# Messages on a socket

`SocketReader::read` and the socket it reads from. A message is sent as its length in four bytes and its
body. Bytes arrive at any time, also between the two reads of one call, and a read takes as many as there
are and as it asked for. One call follows every readiness event.
-/

namespace Vanity.Net

open Db (Str)

/-! ### The socket -/

/-- What has arrived, what has been sent and not arrived, and whether the end of the stream has. -/
structure Socket where
  available : Str
  coming : Str
  hungUp : Bool

def Socket.arrive (socket : Socket) (count : Nat) : Socket :=
  { socket with available := socket.available ++ socket.coming.take count, coming := socket.coming.drop count }

/-- `Socket::read`: no bytes at the end of the stream, and a `SocketError`, `none`, while nothing is there. -/
def Socket.read (socket : Socket) (bufferSize : Nat) : Option (Str × Socket) :=
  if bufferSize = 0 then some ([], socket)
  else if socket.available ≠ [] then
    some (socket.available.take bufferSize, { socket with available := socket.available.drop bufferSize })
  else if socket.hungUp then some ([], socket)
  else none

/-! ### The reader -/

def number (bytes : Str) : Nat := bytes.foldl (fun n byte => 256 * n + byte.toNat) 0

-- `ntohl` of four bytes, the last of them zero if fewer were read
def ntohl (bytes : Str) : Nat := number (bytes ++ List.replicate (4 - bytes.length) 0)

def resize (text : Str) (size : Nat) : Str := text.take size ++ List.replicate (size - text.length) 0

structure SocketReader where
  message : Str
  messageLeft : Nat

/-- What a call reports: that the socket is open, that it is closed, or an exception. -/
inductive Report where
  | isOpen | isClosed | thrown
  deriving DecidableEq

/-- A call that is over: what it reports and leaves, and the messages that it called back with. -/
structure Reading where
  report : Report
  reader : SocketReader
  socket : Socket
  messages : List Str

def SocketReader.readBody (reader : SocketReader) (socket : Socket) : Reading :=
  match socket.read reader.messageLeft with
  | none => ⟨.thrown, reader, socket, []⟩
  | some ([], socket) => ⟨.isClosed, reader, socket, []⟩
  | some (bytes, socket) =>
    let start := reader.message.length - reader.messageLeft
    let message := reader.message.take start ++ bytes ++ reader.message.drop (start + bytes.length)
    let left := reader.messageLeft - bytes.length
    if left = 0 then ⟨.isOpen, ⟨[], 0⟩, socket, [message]⟩ else ⟨.isOpen, ⟨message, left⟩, socket, []⟩

/-- `SocketReader::read`, with the number of bytes that arrive between its two reads. -/
def SocketReader.read (reader : SocketReader) (socket : Socket) (between : Nat) : Reading :=
  if reader.messageLeft = 0 then
    match socket.read 4 with
    | none => ⟨.thrown, reader, socket, []⟩
    | some ([], socket) => ⟨.isClosed, reader, socket, []⟩
    | some (bytes, socket) =>
      SocketReader.readBody ⟨resize reader.message (ntohl bytes), ntohl bytes⟩ (socket.arrive between)
  else reader.readBody socket

/-! ### A connection -/

structure Connection where
  socket : Socket
  reader : SocketReader
  delivered : List Str
  report : Report

inductive Event where
  | arrive (count : Nat)
  | hangUp
  | ready (between : Nat)

/-- There is no readiness while nothing is there, and none after the socket was found closed. -/
def step (c : Connection) : Event → Option Connection
  | .arrive count => some { c with socket := c.socket.arrive count }
  | .hangUp => if c.socket.coming = [] then some { c with socket := { c.socket with hungUp := true } } else none
  | .ready between =>
    if c.report = .isOpen ∧ (c.socket.available ≠ [] ∨ c.socket.hungUp = true) then
      let reading := c.reader.read c.socket between
      some ⟨reading.socket, reading.reader, c.delivered ++ reading.messages, reading.report⟩
    else none

-- `htonl`
def lengthBytes (n : Nat) : Str :=
  [UInt8.ofNat (n / 2 ^ 24), UInt8.ofNat (n / 2 ^ 16), UInt8.ofNat (n / 2 ^ 8), UInt8.ofNat n]

def frame (message : Str) : Str := lengthBytes message.length ++ message

def start (messages : List Str) : Connection where
  socket := { available := [], coming := messages.flatMap frame, hungUp := false }
  reader := ⟨[], 0⟩
  delivered := []
  report := .isOpen

/-- The messages come in order and once each, all of them when the stream is used up, and the end is not
reported before. -/
structure Framed (messages : List Str) (c : Connection) : Prop where
  inOrder : c.delivered <+: messages
  complete : c.socket.coming = [] → c.socket.available = [] → c.delivered = messages
  noThrow : c.report ≠ .thrown
  endReported : c.report = .isClosed → c.socket.hungUp = true ∧ c.delivered = messages

/-- A call that finds the reader between two messages finds the whole length there, of a message that is
not empty, and a byte of its body when it comes to it. -/
def LengthThere (c : Connection) : Event → Prop
  | .ready between =>
    c.reader.messageLeft = 0 → c.socket.available ≠ [] →
      4 ≤ c.socket.available.length ∧ ntohl (c.socket.available.take 4) ≠ 0 ∧
        (c.socket.arrive between).available.drop 4 ≠ []
  | _ => True

/-! ### Lengths -/

theorem ntohl_lengthBytes {n : Nat} (small : n < 2 ^ 32) : ntohl (lengthBytes n) = n := by
  simp only [ntohl, number, lengthBytes, List.length_cons, List.length_nil, Nat.sub_self, List.replicate_zero,
    List.append_nil, List.foldl_cons, List.foldl_nil, UInt8.toNat_ofNat']
  omega

/-! ### One call -/

/-- Where the reader stands: between two messages, or in one of which it has got the first part. What has
arrived and what comes is the rest of it and the messages that are to do. -/
inductive Stands (reader : SocketReader) (stream : Str) : List Str → Prop
  | between {todo : List Str} (empty : reader = ⟨[], 0⟩) (rest : stream = todo.flatMap frame) : Stands reader stream todo
  | inside {got rest pad : Str} {later : List Str} (some_ : rest ≠ []) (size : pad.length = rest.length)
    (reads : reader = ⟨got ++ pad, rest.length⟩) (stream_ : stream = rest ++ later.flatMap frame) :
    Stands reader stream ((got ++ rest) :: later)

structure Inv (messages : List Str) (c : Connection) : Prop where
  stands : ∃ todo, messages = c.delivered ++ todo ∧
    Stands c.reader (c.socket.available ++ c.socket.coming) todo
  noThrow : c.report ≠ .thrown
  atEnd : c.socket.hungUp = true → c.socket.coming = []
  closed : c.report = .isClosed → c.socket.hungUp = true ∧ c.socket.available = []

/-- Nothing is left to do when the stream is used up. -/
theorem Stands.done {reader : SocketReader} {todo : List Str} (stands : Stands reader [] todo) : todo = [] := by
  cases stands with
  | between empty rest =>
    cases todo with
    | nil => rfl
    | cons message todo => cases rest
  | inside some_ size reads stream_ => exact absurd (List.append_eq_nil_iff.mp stream_.symm).1 some_

section
variable {got rest pad : Str} {later : List Str} {socket : Socket} (some_ : rest ≠ [])
  (size : pad.length = rest.length) (there : socket.available ≠ [])
  (stream : socket.available ++ socket.coming = rest ++ later.flatMap frame)
include some_ there stream

/-- The bytes that are taken are the next ones of the message. -/
theorem taken_of_message :
    ∃ bytes behind, bytes ≠ [] ∧ rest = bytes ++ behind ∧
      socket.read rest.length = some (bytes, { socket with available := socket.available.drop rest.length }) ∧
      socket.available.drop rest.length ++ socket.coming = behind ++ later.flatMap frame := by
  have positive : rest.length ≠ 0 := by simpa using some_
  have front : socket.available.take rest.length <+: socket.available ++ socket.coming :=
    (List.take_prefix _ _).trans (List.prefix_append _ _)
  have whole : rest <+: socket.available ++ socket.coming := by
    rw [stream]
    exact List.prefix_append _ _
  obtain ⟨behind, split⟩ := List.prefix_of_prefix_length_le front whole (List.length_take_le _ _)
  refine ⟨socket.available.take rest.length, behind, ?_, split.symm, ?_, ?_⟩
  · simp [there, some_]
  · rw [Socket.read, if_neg positive, if_pos there]
  · have joined : socket.available.take rest.length ++ (socket.available.drop rest.length ++ socket.coming) =
        socket.available.take rest.length ++ (behind ++ later.flatMap frame) := by
      rw [← List.append_assoc, List.take_append_drop, stream, ← List.append_assoc, split]
    exact List.append_cancel_left joined

include size

theorem readBody_inside :
    ∃ todo, let reading := SocketReader.readBody ⟨got ++ pad, rest.length⟩ socket
      reading.report = .isOpen ∧ reading.socket.coming = socket.coming ∧ reading.socket.hungUp = socket.hungUp ∧
      (got ++ rest) :: later = reading.messages ++ todo ∧
      Stands reading.reader (reading.socket.available ++ reading.socket.coming) todo := by
  obtain ⟨bytes, behind, nonempty, split, read, stream⟩ := taken_of_message some_ there stream
  have start : (got ++ pad).length - rest.length = got.length := by
    rw [List.length_append]
    omega
  have written : (got ++ pad).take got.length ++ bytes ++ (got ++ pad).drop (got.length + bytes.length) =
      got ++ bytes ++ pad.drop bytes.length := by
    rw [List.take_left, ← List.drop_drop, List.drop_left]
  have left : rest.length - bytes.length = behind.length := by
    rw [split, List.length_append]
    omega
  unfold SocketReader.readBody
  rw [read]
  cases bytes with
  | nil => exact absurd rfl nonempty
  | cons byte bytes =>
    simp only [start, written, left]
    cases behind with
    | nil =>
      have all : pad.drop (byte :: bytes).length = [] := by
        apply List.drop_eq_nil_of_le
        rw [size, split]
        simp
      refine ⟨later, rfl, rfl, rfl, ?_, .between rfl stream⟩
      rw [all, split, List.append_nil, List.append_nil]
      rfl
    | cons next behind =>
      refine ⟨(got ++ rest) :: later, rfl, rfl, rfl, rfl, ?_⟩
      have regroup : got ++ rest = got ++ byte :: bytes ++ next :: behind := by
        rw [split, List.append_assoc]
      rw [regroup]
      refine .inside (by simp) (?_ : (pad.drop (byte :: bytes).length).length = _) rfl stream
      rw [List.length_drop, size, left]

end

/-- The length of the next message, and the part of its body that is there. -/
theorem read_between {messages : List Str} (small : ∀ message ∈ messages, message.length < 2 ^ 32) {socket : Socket}
    {between : Nat} (stream : socket.available ++ socket.coming = messages.flatMap frame)
    (whole : 4 ≤ socket.available.length) (positive : ntohl (socket.available.take 4) ≠ 0)
    (body : (socket.arrive between).available.drop 4 ≠ []) :
    ∃ todo, let reading := SocketReader.read ⟨[], 0⟩ socket between
      reading.report = .isOpen ∧ reading.socket.coming = socket.coming.drop between ∧
      reading.socket.hungUp = socket.hungUp ∧ messages = reading.messages ++ todo ∧
      Stands reading.reader (reading.socket.available ++ reading.socket.coming) todo := by
  have there : socket.available ≠ [] := by
    rintro empty
    simp [empty] at whole
  cases messages with
  | nil => exact absurd (List.append_eq_nil_iff.mp stream).1 there
  | cons message later =>
    have length : socket.available.take 4 = lengthBytes message.length := by
      have same := congrArg (List.take 4) stream
      rw [List.take_append_of_le_length whole] at same
      exact same
    have known : ntohl (socket.available.take 4) = message.length := by
      rw [length, ntohl_lengthBytes (small message (by simp))]
    have some_ : message ≠ [] := by
      rintro rfl
      exact positive known
    let left : Socket := { socket with available := socket.available.drop 4 }
    have read : socket.read 4 = some (lengthBytes message.length, left) := by
      rw [← length, Socket.read, if_neg (by decide), if_pos there]
    have rest : (left.arrive between).available ++ (left.arrive between).coming = message ++ later.flatMap frame := by
      have same := congrArg (List.drop 4) stream
      rw [List.drop_append_of_le_length whole] at same
      simpa [left, Socket.arrive, frame, lengthBytes] using same
    have next : (left.arrive between).available ≠ [] := by
      rwa [Socket.arrive, List.drop_append_of_le_length whole] at body
    have padded : resize [] message.length = [] ++ List.replicate message.length 0 := by
      simp [resize]
    have called : SocketReader.read ⟨[], 0⟩ socket between =
        SocketReader.readBody ⟨[] ++ List.replicate message.length 0, message.length⟩ (left.arrive between) := by
      rw [SocketReader.read, if_pos rfl, read]
      change SocketReader.readBody ⟨resize [] (ntohl _), ntohl _⟩ _ = _
      rw [← length, known, padded]
    rw [called]
    exact readBody_inside some_ List.length_replicate next rest

/-- A frame that is there whole is read in one call. -/
theorem read_frame {body : Str} (some_ : body ≠ []) (small : body.length < 2 ^ 32) (later coming : Str) (hungUp : Bool)
    (between : Nat) :
    SocketReader.read ⟨[], 0⟩ ⟨frame body ++ later, coming, hungUp⟩ between =
      ⟨.isOpen, ⟨[], 0⟩, Socket.arrive ⟨later, coming, hungUp⟩ between, [body]⟩ := by
  have positive : body.length ≠ 0 := by simpa using some_
  have length : Socket.read ⟨frame body ++ later, coming, hungUp⟩ 4 =
      some (lengthBytes body.length, ⟨body ++ later, coming, hungUp⟩) := rfl
  have taken : Socket.read (Socket.arrive ⟨body ++ later, coming, hungUp⟩ between) body.length =
      some (body, Socket.arrive ⟨later, coming, hungUp⟩ between) := by
    rw [Socket.read, if_neg positive, if_pos (by simp [Socket.arrive, some_])]
    simp [Socket.arrive]
  have padded : resize [] body.length = List.replicate body.length 0 := by
    simp [resize]
  rw [SocketReader.read, if_pos rfl, length]
  change SocketReader.readBody ⟨resize [] (ntohl _), ntohl _⟩ _ = _
  rw [ntohl_lengthBytes small, padded, SocketReader.readBody, taken]
  cases body with
  | nil => exact absurd rfl some_
  | cons c body => simp

/-! ### Runs -/

theorem start_inv (messages : List Str) : Inv messages (start messages) where
  stands := ⟨messages, rfl, .between rfl rfl⟩
  noThrow := by simp [start]
  atEnd := by simp [start]
  closed := by simp [start]

theorem Inv.framed {messages : List Str} {c : Connection} (inv : Inv messages c) : Framed messages c := by
  obtain ⟨todo, same, stands⟩ := inv.stands
  have complete : c.socket.coming = [] → c.socket.available = [] → c.delivered = messages := by
    intro none_ empty
    rw [none_, empty] at stands
    rw [same, stands.done, List.append_nil]
  refine ⟨⟨todo, same.symm⟩, complete, inv.noThrow, fun reported => ?_⟩
  obtain ⟨ended, empty⟩ := inv.closed reported
  exact ⟨ended, complete (inv.atEnd ended) empty⟩

theorem Inv.ready {messages : List Str} (small : ∀ message ∈ messages, message.length < 2 ^ 32) {c : Connection}
    {between : Nat} (inv : Inv messages c) (length : LengthThere c (.ready between)) (isOpen : c.report = .isOpen)
    (ready : c.socket.available ≠ [] ∨ c.socket.hungUp = true) :
    let reading := c.reader.read c.socket between
    Inv messages ⟨reading.socket, reading.reader, c.delivered ++ reading.messages, reading.report⟩ := by
  obtain ⟨todo, same, stands⟩ := inv.stands
  obtain ⟨socket, reader, delivered, report⟩ := c
  have ends : ∀ count, socket.hungUp = true → socket.coming.drop count = [] := by
    intro count ended
    rw [inv.atEnd ended, List.drop_nil]
  cases stands with
  | between empty rest =>
    subst empty
    by_cases there : socket.available = []
    · -- only the end of the stream is left
      have ended : socket.hungUp = true := ready.resolve_left (absurd there)
      have called : SocketReader.read ⟨[], 0⟩ socket between = ⟨.isClosed, ⟨[], 0⟩, socket, []⟩ := by
        simp [SocketReader.read, Socket.read, there, ended]
      simp only [called, List.append_nil]
      exact ⟨⟨todo, same, .between rfl rest⟩, by simp, inv.atEnd, fun _ => ⟨ended, there⟩⟩
    · obtain ⟨whole, positive, body⟩ := length rfl there
      have few : ∀ message ∈ todo, message.length < 2 ^ 32 := by
        intro message member
        exact small message (by simp [same, member])
      obtain ⟨later, opened, coming, hungUp, split, stands⟩ := read_between few rest whole positive body
      refine ⟨⟨later, ?_, stands⟩, by simp [opened], fun ended => ?_, by simp [opened]⟩
      · rw [List.append_assoc, ← split]
        exact same
      · rw [coming]
        exact ends between (hungUp ▸ ended)
  | inside some_ size reads stream =>
    subst reads
    rename_i got rest pad later
    have there : socket.available ≠ [] := by
      rcases ready with there | ended
      · exact there
      · intro empty
        rw [empty, inv.atEnd ended] at stream
        exact some_ (List.append_eq_nil_iff.mp stream.symm).1
    have called : SocketReader.read ⟨got ++ pad, rest.length⟩ socket between =
        SocketReader.readBody ⟨got ++ pad, rest.length⟩ socket := by
      rw [SocketReader.read, if_neg (by simpa using some_)]
    obtain ⟨todo, opened, coming, hungUp, split, stands⟩ := readBody_inside some_ size there stream
    simp only [called]
    refine ⟨⟨todo, ?_, stands⟩, by simp [opened], fun ended => ?_, by simp [opened]⟩
    · rw [List.append_assoc, ← split]
      exact same
    · rw [coming]
      exact ends 0 (hungUp ▸ ended)

theorem Inv.step {messages : List Str} (small : ∀ message ∈ messages, message.length < 2 ^ 32) (c : Connection)
    (event : Event) (after : Connection) (inv : Inv messages c) (length : LengthThere c event)
    (taken : Net.step c event = some after) : Inv messages after := by
  cases event with
  | arrive count =>
    cases taken
    obtain ⟨todo, same, stands⟩ := inv.stands
    refine ⟨⟨todo, same, ?_⟩, inv.noThrow, fun ended => ?_, fun reported => ?_⟩
    · simpa [Socket.arrive] using stands
    · simp [Socket.arrive, inv.atEnd ended]
    · obtain ⟨ended, empty⟩ := inv.closed reported
      exact ⟨ended, by simp [Socket.arrive, empty, inv.atEnd ended]⟩
  | hangUp =>
    simp only [Net.step] at taken
    split at taken
    · rename_i none_
      cases taken
      exact ⟨inv.stands, inv.noThrow, fun _ => none_, fun reported => ⟨rfl, (inv.closed reported).2⟩⟩
    · cases taken
  | ready between =>
    simp only [Net.step] at taken
    split at taken
    · rename_i enabled
      cases taken
      exact inv.ready small length enabled.1 enabled.2
    · cases taken

/-- In every run in which the length of each message is there with a part of its body when it is read, the
messages come as they were sent. -/
theorem framing_when_length_there (messages : List Str) (small : ∀ message ∈ messages, message.length < 2 ^ 32)
    (events : List Event) (there : EachStep step LengthThere events (start messages)) :
    EachState step (Framed messages) events (start messages) :=
  eachState_of_inv (Inv.step small) (fun _ => Inv.framed) (start_inv messages) there

theorem two_bytes_framed :
    EachState step (Framed [[104, 105]]) [.arrive 5, .ready 0, .arrive 1, .ready 0, .hangUp, .ready 0]
      (start [[104, 105]]) := by
  apply framing_when_length_there
  · simp
  · rintro _ ⟨⟩
    refine ⟨trivial, ?_⟩
    rintro _ ⟨⟩
    refine ⟨fun _ _ => by decide, ?_⟩
    rintro _ ⟨⟩
    refine ⟨trivial, ?_⟩
    rintro _ ⟨⟩
    refine ⟨fun inside => absurd inside (by decide), ?_⟩
    rintro _ ⟨⟩
    refine ⟨trivial, ?_⟩
    rintro _ ⟨⟩
    exact ⟨fun _ there => absurd rfl there, trivial⟩

/-- A length that arrives in two parts, a length that arrives before its body, and an empty message. -/
theorem split_length_not_framed :
    ¬ EachState step (Framed [[104]]) [.arrive 2, .ready 0] (start [[104]]) ∧
      ¬ EachState step (Framed [[104]]) [.arrive 4, .ready 0] (start [[104]]) ∧
      ¬ EachState step (Framed [[]]) [.arrive 4, .ready 0] (start [[]]) := by
  refine ⟨fun framed => ?_, fun framed => ?_, fun framed => ?_⟩
  · have last : Framed [[104]] _ := (framed.2 _ rfl).2 _ rfl
    exact absurd (last.endReported rfl).1 (by decide)
  · have last : Framed [[104]] _ := (framed.2 _ rfl).2 _ rfl
    exact last.noThrow rfl
  · have last : Framed [[]] _ := (framed.2 _ rfl).2 _ rfl
    exact absurd (last.endReported rfl).1 (by decide)

end Vanity.Net
