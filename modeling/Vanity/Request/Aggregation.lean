import Mathlib.Data.List.TakeWhile
import Vanity.Net.Framing
import Vanity.Request.Spelling

/-!
# The responses of a pipe in one

`sendable.cpp`, `aggregate_response.h` and `aggregating_client.h`. A client that aggregates adds the body of
each response it is written to its own response, and `perform_write` writes that to the client behind it,
which may aggregate in its turn. The client at the end sends what it is written.
-/

namespace Vanity.Request

open Db (Str)
open Net (lengthBytes ntohl)

/-! ### What can be sent -/

-- `M_LENGTH_SIZE`
def lengthSize : Nat := 4

/-- `Sendable`: the text with room for its length in front. -/
structure Sendable where
  data : Str

namespace Sendable

def new : Sendable := ⟨List.replicate lengthSize 0⟩

-- `operator<<` of a string
def push (sendable : Sendable) (text : Str) : Sendable := ⟨sendable.data ++ text⟩

-- `operator<<` of a `const char*`
def pushCString (sendable : Sendable) (text : Str) : Sendable := ⟨sendable.data ++ Response.cString text⟩

def body (sendable : Sendable) : Str := sendable.data.drop lengthSize

-- the size is cut to the 32 bits that `htonl` takes
def extractData (sendable : Sendable) : Str :=
  lengthBytes ((sendable.data.length - lengthSize) % 2 ^ 32) ++ sendable.data.drop lengthSize

end Sendable

/-- `AggregateResponse`. -/
def aggregateResponse (size : Nat) : Sendable :=
  ((Sendable.new.pushCString Status.ok.text).pushCString (ascii ":AGG")).push (serializeLength size)

-- `AggregateResponse::append`: `body.data()` is a `const char*`
def Sendable.append (response sendable : Sendable) : Sendable := response.pushCString sendable.body

/-! ### Clients that are written to -/

/-- A `TcpClient` with what its socket was given, or an `AggregatingClient` before another client. -/
inductive Recipient where
  | tcp (written : Str)
  | aggregating (client : Recipient) (response : Sendable)

def Recipient.write (sendable : Sendable) : Recipient → Recipient
  | .tcp written => .tcp (written ++ sendable.extractData)
  | .aggregating client response => .aggregating client (response.append sendable)

-- only an `AggregatingClient` has it
def Recipient.performWrite : Recipient → Recipient
  | .tcp written => .tcp written
  | .aggregating client response => client.write response

/-- What is written to a client: the bytes of a response, or all that a pipe of a size writes. -/
inductive SubResponse where
  | plain (body : Str)
  | pipe (size : Nat) (parts : List SubResponse)

namespace SubResponse

mutual

def send (client : Recipient) : SubResponse → Recipient
  | .plain body => client.write (Sendable.new.push body)
  | .pipe size parts => (sendEach (.aggregating client (aggregateResponse size)) parts).performWrite

def sendEach (client : Recipient) : List SubResponse → Recipient
  | [] => client
  | part :: parts => sendEach (send client part) parts

end

def heading (size : Nat) : Str := ascii "OK:AGG" ++ serializeLength size

mutual

/-- The body without any loss. -/
def exactBody : SubResponse → Str
  | .plain body => body
  | .pipe size parts => heading size ++ exactBodies parts

def exactBodies : List SubResponse → Str
  | [] => []
  | part :: parts => exactBody part ++ exactBodies parts

end

mutual

/-- No response has a zero byte. -/
def ZeroFree : SubResponse → Prop
  | .plain body => 0 ∉ body
  | .pipe _ parts => AllZeroFree parts

def AllZeroFree : List SubResponse → Prop
  | [] => True
  | part :: parts => ZeroFree part ∧ AllZeroFree parts

end

mutual

/-- The length of the body, from the lengths of the responses. -/
def exactLength : SubResponse → Nat
  | .plain body => body.length
  | .pipe size parts => (heading size).length + exactLengths parts

def exactLengths : List SubResponse → Nat
  | [] => 0
  | part :: parts => exactLength part + exactLengths parts

end

/-- The response that the aggregating client has at the end: its body is the heading and the bodies of all
that it was written, and the four bytes before it are its length. -/
def ByteExact (client : Recipient) (size : Nat) (parts : List SubResponse) : Prop :=
  ∃ response, sendEach (.aggregating client (aggregateResponse size)) parts = .aggregating client response ∧
    response.body = heading size ++ exactBodies parts ∧
    response.extractData.drop lengthSize = response.body ∧
    ntohl (response.extractData.take lengthSize) = response.body.length

/-! ### C strings -/

theorem cString_of_zeroFree {text : Str} (free : 0 ∉ text) : Response.cString text = text := by
  unfold Response.cString
  apply List.takeWhile_eq_self_iff.mpr
  intro c member
  have other : c ≠ 0 := fun same => free (same ▸ member)
  simpa using other

theorem length_cString_le (text : Str) : (Response.cString text).length ≤ text.length :=
  (List.takeWhile_sublist _).length_le

theorem zeroFree_of_length {text : Str} (whole : text.length ≤ (Response.cString text).length) : 0 ∉ text := by
  intro zero
  have same : Response.cString text = text := (List.takeWhile_sublist _).eq_of_length_le whole
  have passed := List.takeWhile_eq_self_iff.mp same 0 zero
  simp at passed

/-! ### What is sent -/

mutual

/-- The body as it is sent: each response up to its first zero byte. -/
def sentBody : SubResponse → Str
  | .plain body => body
  | .pipe size parts => heading size ++ sentBodies parts

def sentBodies : List SubResponse → Str
  | [] => []
  | part :: parts => Response.cString (sentBody part) ++ sentBodies parts

end

theorem body_push (text : Str) : (Sendable.new.push text).body = text := rfl

theorem pushCString_push (text more : Str) :
    (Sendable.new.push text).pushCString more = Sendable.new.push (text ++ Response.cString more) := by
  rw [Sendable.pushCString, Sendable.push, Sendable.push, List.append_assoc]

theorem aggregateResponse_eq (size : Nat) : aggregateResponse size = Sendable.new.push (heading size) := rfl

mutual

theorem send_aggregating (client : Recipient) (text : Str) (part : SubResponse) :
    send (.aggregating client (Sendable.new.push text)) part =
      .aggregating client (Sendable.new.push (text ++ Response.cString (sentBody part))) := by
  cases part with
  | plain body => rw [send, Recipient.write, Sendable.append, body_push, pushCString_push, sentBody]
  | pipe size parts =>
    rw [send, aggregateResponse_eq, sendEach_aggregating, Recipient.performWrite, Recipient.write, Sendable.append,
      body_push, pushCString_push, sentBody]

theorem sendEach_aggregating (client : Recipient) (text : Str) (parts : List SubResponse) :
    sendEach (.aggregating client (Sendable.new.push text)) parts =
      .aggregating client (Sendable.new.push (text ++ sentBodies parts)) := by
  cases parts with
  | nil => rw [sendEach, sentBodies, List.append_nil]
  | cons part parts => rw [sendEach, send_aggregating, sendEach_aggregating, sentBodies, List.append_assoc]

end

/-! ### Whether it is exact -/

theorem heading_zeroFree (size : Nat) : 0 ∉ heading size := by
  intro zero
  simp only [heading, serializeLength, List.mem_append] at zero
  rcases zero with named | (opened | number) | closed
  · revert named
    decide
  · revert opened
    decide
  · exact absurd (natText_digits number) (by decide : ¬ isDigit 0 = true)
  · revert closed
    decide

mutual

theorem zeroFree_exactBody {part : SubResponse} (free : ZeroFree part) :
    sentBody part = exactBody part ∧ 0 ∉ exactBody part := by
  cases part with
  | plain body => exact ⟨rfl, free⟩
  | pipe size parts =>
    obtain ⟨same, none_⟩ := zeroFree_exactBodies free
    refine ⟨by rw [sentBody, exactBody, same], ?_⟩
    rw [exactBody, List.mem_append]
    exact not_or_intro (heading_zeroFree size) none_

theorem zeroFree_exactBodies {parts : List SubResponse} (free : AllZeroFree parts) :
    sentBodies parts = exactBodies parts ∧ 0 ∉ exactBodies parts := by
  cases parts with
  | nil => exact ⟨rfl, List.not_mem_nil⟩
  | cons part parts =>
    obtain ⟨same, none_⟩ := zeroFree_exactBody free.1
    obtain ⟨others, noneLater⟩ := zeroFree_exactBodies free.2
    refine ⟨?_, ?_⟩
    · rw [sentBodies, exactBodies, same, others, cString_of_zeroFree none_]
    · rw [exactBodies, List.mem_append]
      exact not_or_intro none_ noneLater

end

mutual

/-- Nothing is added, and nothing is lost only where there are no zero bytes. -/
theorem length_sentBody (part : SubResponse) :
    (Response.cString (sentBody part)).length ≤ (exactBody part).length ∧
      ((exactBody part).length ≤ (Response.cString (sentBody part)).length → ZeroFree part) := by
  cases part with
  | plain body => exact ⟨length_cString_le body, zeroFree_of_length⟩
  | pipe size parts =>
    obtain ⟨less, free⟩ := length_sentBodies parts
    have cut := length_cString_le (sentBody (.pipe size parts))
    rw [sentBody, List.length_append] at cut
    rw [sentBody, exactBody, List.length_append]
    exact ⟨by omega, fun whole => free (by omega)⟩

theorem length_sentBodies (parts : List SubResponse) :
    (sentBodies parts).length ≤ (exactBodies parts).length ∧
      ((exactBodies parts).length ≤ (sentBodies parts).length → AllZeroFree parts) := by
  cases parts with
  | nil => exact ⟨Nat.le_refl _, fun _ => trivial⟩
  | cons part parts =>
    obtain ⟨first, free⟩ := length_sentBody part
    obtain ⟨others, allFree⟩ := length_sentBodies parts
    rw [sentBodies, exactBodies, List.length_append, List.length_append]
    exact ⟨by omega, fun whole => ⟨free (by omega), allFree (by omega)⟩⟩

end

mutual

theorem length_exactBody (part : SubResponse) : (exactBody part).length = exactLength part := by
  cases part with
  | plain body => rfl
  | pipe size parts => rw [exactBody, exactLength, List.length_append, length_exactBodies]

theorem length_exactBodies (parts : List SubResponse) : (exactBodies parts).length = exactLengths parts := by
  cases parts with
  | nil => rfl
  | cons part parts => rw [exactBodies, exactLengths, List.length_append, length_exactBody, length_exactBodies]

end

theorem exactBodies_of_sent {parts : List SubResponse} (same : sentBodies parts = exactBodies parts) : AllZeroFree parts :=
  (length_sentBodies parts).2 (same ▸ Nat.le_refl _)

/-- The length that is put before a body is the length of the body if that is less than 2^32. -/
theorem ntohl_extractData (sendable : Sendable) :
    ntohl (sendable.extractData.take lengthSize) = sendable.body.length % 2 ^ 32 := by
  have size : sendable.body.length = sendable.data.length - lengthSize := List.length_drop
  rw [size]
  exact Net.ntohl_lengthBytes (Nat.mod_lt _ (by decide))

/-- An aggregate is exact if and only if no response in it has a zero byte and its length fits in four
bytes. -/
theorem byteExact_iff (client : Recipient) (size : Nat) (parts : List SubResponse) :
    ByteExact client size parts ↔ AllZeroFree parts ∧ exactLength (.pipe size parts) < 2 ^ 32 := by
  have collected := sendEach_aggregating client (heading size) parts
  rw [← aggregateResponse_eq] at collected
  have total : (heading size ++ exactBodies parts).length = exactLength (.pipe size parts) := by
    rw [← length_exactBody, exactBody]
  constructor
  · rintro ⟨response, ended, body, -, length⟩
    rw [collected] at ended
    obtain rfl := (Recipient.aggregating.inj ended).2
    refine ⟨exactBodies_of_sent (List.append_cancel_left body), ?_⟩
    rw [ntohl_extractData, body, total] at length
    omega
  · rintro ⟨free, short⟩
    rw [(zeroFree_exactBodies free).1] at collected
    refine ⟨_, collected, rfl, rfl, ?_⟩
    rw [ntohl_extractData, body_push, total]
    exact Nat.mod_eq_of_lt short

/-- The value of three bytes `a\0b`, as `GET` in a pipe answers it. -/
theorem zero_byte_not_exact : ¬ ByteExact (.tcp []) 1 [.plain (ascii "OK:STR(3)" ++ [97, 0, 98])] := by
  rintro ⟨response, collected, body, -⟩
  obtain rfl := (Recipient.aggregating.inj collected).2
  revert body
  decide +kernel

end SubResponse

/-! ### The responses of requests -/

namespace Response

open SubResponse

mutual

/-- What a client is written for a response. -/
def writes : Response → List SubResponse
  | .plain status payload => [.plain (Response.plain status payload).body]
  | .reply id status text => [.plain (Response.reply id status text).body]
  | .later => []
  | .agg size parts => [.pipe size (allWrites parts)]

def allWrites : List Response → List SubResponse
  | [] => []
  | part :: parts => writes part ++ allWrites parts

end

theorem sentBodies_append (first second : List SubResponse) :
    sentBodies (first ++ second) = sentBodies first ++ sentBodies second := by
  induction first with
  | nil => rfl
  | cons part first ih => rw [List.cons_append, sentBodies, sentBodies, ih, List.append_assoc]

mutual

theorem sentBodies_writes (response : Response) : sentBodies (writes response) = cString response.body := by
  cases response with
  | plain status payload => rw [writes, sentBodies, sentBodies, sentBody, List.append_nil]
  | reply id status text => rw [writes, sentBodies, sentBodies, sentBody, List.append_nil]
  | later => rfl
  | agg size parts => rw [writes, sentBodies, sentBodies, sentBody, sentBodies_allWrites, List.append_nil, body, heading]

theorem sentBodies_allWrites (parts : List Response) : sentBodies (allWrites parts) = appended parts := by
  cases parts with
  | nil => rfl
  | cons part parts =>
    rw [allWrites, sentBodies_append, sentBodies_writes, sentBodies_allWrites, appended]

end

/-- The body of an aggregate is what the aggregating client has got when its parts were written to it. -/
theorem collected_body (client : Recipient) (size : Nat) (parts : List Response) :
    sendEach (.aggregating client (aggregateResponse size)) (allWrites parts) =
      .aggregating client (Sendable.new.push (Response.agg size parts).body) := by
  rw [aggregateResponse_eq, sendEach_aggregating, sentBodies_allWrites, body, heading]

end Response

end Vanity.Request
