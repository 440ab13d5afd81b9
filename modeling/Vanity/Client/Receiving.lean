import Vanity.Client.RoundTrip
import Vanity.Library.Runs
import Vanity.Net.Framing

/-!
# The queues of the client

The reading half of `socket_client.py`, `async_response.py`, and the two queues of responses of `client_.py`.
Messages of both kinds come on one connection; a call that waits for one kind puts those of the other kind
aside. A call that would wait for ever, or raises an exception, has no result here.
-/

namespace Vanity.Client

open Db (Str Float64)
open Request

/-! ### The connection -/

structure SocketClient where
  /-- What the server has sent and `recv` has not yet returned. -/
  stream : Str
  buffer : Str

/-- `recv` of the socket, when so many bytes have arrived: it waits for the first of them. -/
def SocketClient.receive (sock : SocketClient) (there size : Nat) : Option (Str × SocketClient) :=
  if sock.stream = [] then none
  else
    let count := min size (max there 1)
    some (sock.stream.take count, { sock with stream := sock.stream.drop count })

-- a chunk that is not ASCII is not followed here
def decode (data : Str) : Option Str := if data.all fun c => decide (c < 128) then some data else none

def SocketClient.readSize (sock : SocketClient) (there : Nat) : Option (Nat × SocketClient) :=
  (sock.receive there 4).map fun received => (Net.number received.1, received.2)

/-- `recv` of the client: the message, or `none` if it is not yet complete. -/
def SocketClient.recv (sock : SocketClient) (there expected : Nat) : Option (Option Str × SocketClient) :=
  if sock.buffer.length < expected then
    (sock.receive there (expected - sock.buffer.length)).bind fun received =>
      (decode received.1).map fun data =>
        let buffer := sock.buffer ++ data
        if buffer.length ≠ expected then (none, { received.2 with buffer })
        else (some buffer, { received.2 with buffer := [] })
  else none

/-- The loop of `read_msg`, in which the calls find so many bytes there. -/
def SocketClient.recvAll (there : Nat → Nat) (expected : Nat) : Nat → SocketClient → Option (Str × SocketClient)
  | 0, _ => none
  | rounds + 1, sock =>
    match sock.recv (there rounds) expected with
    | none => none
    | some (some msg, sock) => some (msg, sock)
    | some (none, sock) => sock.recvAll there expected rounds

/-- `read_msg`. Each `recv` gets a byte at least. -/
def SocketClient.readMsg (sock : SocketClient) (lengthThere : Nat) (there : Nat → Nat) : Option (Str × SocketClient) :=
  (sock.readSize lengthThere).bind fun read => read.2.recvAll there read.1 read.1

/-! ### Asynchronous responses -/

/-- `PublishData`. -/
structure PublishData where
  channel : Option Str
  message : Option Str
  deriving DecidableEq

-- `str` of a member of the enumeration, or of `None`
def constantName : Option ServerConstant → Str
  | none => ascii "None"
  | some constant => ascii "ServerConstant." ++ ((serverConstants.find? fun entry => entry.1 = constant).map (·.2)).getD []

def extractAsyncType : Extraction Unit := do
  let msg ← .left
  match ← extractFrom [((), ascii ":PUBLISH")] with
  | some _ => return ()
  | none => .throw (.invalidResponse (ascii "Invalid async type: " ++ msg ++ ascii "."))

def extractPublish : Extraction PublishData := do
  let channel ← extractStr
  let message ← extractStr
  return ⟨channel, message⟩

def extractAsync : Extraction PublishData := do
  let status ← extractStatus
  if status = some .async then
    extractAsyncType
    extractPublish
  else .throw (.invalidResponse (ascii "Invalid async status: " ++ constantName status ++ ascii "."))

inductive Message where
  | response (raw : RawResponse)
  | async (data : PublishData)

/-- `make_response`, with the text that it warns of. -/
def makeResponse (toFloat : Str → Option Float64) (depth : Nat) : Extraction Message := do
  let msg ← .left
  let status ← extractStatus
  .goTo msg
  if status = some .async then return .async (← extractAsync)
  else return .response (← extractResponse toFloat depth)

/-! ### The client -/

structure Reader where
  sock : SocketClient
  syncResponses : List RawResponse
  asyncResponses : List PublishData

/-- How many bytes the calls of `recv` find there: the first of a message, and the others. -/
structure Arrival where
  length : Nat
  rest : Nat → Nat

section
variable (toFloat : Str → Option Float64) (depth : Nat)

def Reader.readNextResponse (reader : Reader) (arrival : Arrival) : Option Reader :=
  (reader.sock.readMsg arrival.length arrival.rest).bind fun read =>
    match makeResponse toFloat depth read.1 with
    | .error _ => none
    | .ok (.response raw, _) => some { reader with sock := read.2, syncResponses := reader.syncResponses ++ [raw] }
    | .ok (.async data, _) => some { reader with sock := read.2, asyncResponses := reader.asyncResponses ++ [data] }

/-- The loop of `read_response` and of `read_async`, for so many messages at most. -/
def Reader.readUntil (ready : Reader → Bool) (arrivals : Nat → Arrival) : Nat → Reader → Option Reader
  | 0, reader => if ready reader then some reader else none
  | rounds + 1, reader =>
    if ready reader then some reader
    else (reader.readNextResponse toFloat depth (arrivals rounds)).bind (Reader.readUntil ready arrivals rounds)

def Reader.popSync (reader : Reader) : Option (RawResponse × Reader) :=
  match reader.syncResponses with
  | [] => none
  | raw :: rest => some (raw, { reader with syncResponses := rest })

def Reader.popAsync (reader : Reader) : Option (PublishData × Reader) :=
  match reader.asyncResponses with
  | [] => none
  | data :: rest => some (data, { reader with asyncResponses := rest })

/-- `read_response`. There are fewer messages than bytes. -/
def Reader.readResponse (reader : Reader) (arrivals : Nat → Arrival) : Option (RawResponse × Reader) :=
  (Reader.readUntil toFloat depth (fun reader => !reader.syncResponses.isEmpty) arrivals reader.sock.stream.length
    reader).bind Reader.popSync

def Reader.readAsync (reader : Reader) (arrivals : Nat → Arrival) (block : Bool) : Option (Option PublishData × Reader) :=
  if reader.asyncResponses.isEmpty && !block then some (none, reader)
  else
    ((Reader.readUntil toFloat depth (fun reader => !reader.asyncResponses.isEmpty) arrivals reader.sock.stream.length
      reader).bind Reader.popAsync).map fun read => (some read.1, read.2)

end

/-! ### One message -/

def isAscii (text : Str) : Prop := ∀ c ∈ text, c < 128

theorem decode_ascii {data : Str} (plain : isAscii data) : decode data = some data := by
  have all_ : (data.all fun c => decide (c < 128)) = true := List.all_eq_true.mpr fun c member => decide_eq_true (plain c member)
  rw [decode, if_pos all_]

theorem recvAll_message (there : Nat → Nat) {msg rest : Str} (plain : isAscii msg) {rounds : Nat} {got left : Str}
    (split : got ++ left = msg) (some_ : left ≠ []) (enough : left.length ≤ rounds) :
    SocketClient.recvAll there msg.length rounds ⟨left ++ rest, got⟩ = some (msg, ⟨rest, []⟩) := by
  induction rounds generalizing got left with
  | zero => exact absurd (List.length_eq_zero_iff.mp (Nat.le_zero.mp enough)) some_
  | succ rounds ih =>
    have positive := List.length_pos_iff.mpr some_
    have total : msg.length = got.length + left.length := by rw [← split, List.length_append]
    -- what this call gets
    obtain ⟨count, is⟩ : ∃ count, count = min (msg.length - got.length) (max (there rounds) 1) := ⟨_, rfl⟩
    have atLeast : 1 ≤ count := by omega
    have atMost : count ≤ left.length := by omega
    have taken : (left ++ rest).take count = left.take count := List.take_append_of_le_length atMost
    have dropped : (left ++ rest).drop count = left.drop count ++ rest := List.drop_append_of_le_length atMost
    have chunk : decode (left.take count) = some (left.take count) := by
      refine decode_ascii fun c member => plain c ?_
      rw [← split]
      exact List.mem_append_right _ (List.mem_of_mem_take member)
    have something : left ++ rest ≠ [] := by simp [some_]
    have received : SocketClient.recv ⟨left ++ rest, got⟩ (there rounds) msg.length =
        some (if (got ++ left.take count).length ≠ msg.length then (none, ⟨left.drop count ++ rest, got ++ left.take count⟩)
          else (some (got ++ left.take count), ⟨left.drop count ++ rest, []⟩)) := by
      simp only [SocketClient.recv, SocketClient.receive, ← is, taken, dropped, chunk, something, if_false,
        Option.bind_some, Option.map_some, if_pos (show got.length < msg.length by omega)]
    rw [SocketClient.recvAll, received]
    by_cases whole : count = left.length
    · have all_ : left.take count = left := List.take_of_length_le whole.ge
      have none_ : left.drop count = [] := List.drop_eq_nil_of_le whole.ge
      rw [all_, none_, split, if_neg (not_not.mpr rfl)]
      rfl
    · have short : (got ++ left.take count).length ≠ msg.length := by
        rw [List.length_append, List.length_take]
        omega
      rw [if_pos short]
      refine ih (by rw [List.append_assoc, List.take_append_drop, split]) ?_ ?_
      · intro nothing
        have := List.length_eq_zero_iff.mpr nothing
        rw [List.length_drop] at this
        omega
      · rw [List.length_drop]
        omega

theorem number_lengthBytes {n : Nat} (small : n < 2 ^ 32) : Net.number (Net.lengthBytes n) = n := by
  have whole := Net.ntohl_lengthBytes small
  simpa [Net.ntohl, Net.lengthBytes] using whole

/-- However the bytes of the message arrive, it is read as it was sent, if its length is there as a whole. -/
theorem readMsg_frame {lengthThere : Nat} (whole : 4 ≤ lengthThere) (there : Nat → Nat) {msg : Str} (some_ : msg ≠ [])
    (small : msg.length < 2 ^ 32) (plain : isAscii msg) (rest : Str) :
    SocketClient.readMsg ⟨Net.frame msg ++ rest, []⟩ lengthThere there = some (msg, ⟨rest, []⟩) := by
  have four : (Net.lengthBytes msg.length).length = 4 := rfl
  have count : min 4 (max lengthThere 1) = 4 := by omega
  have stream : Net.frame msg ++ rest = Net.lengthBytes msg.length ++ (msg ++ rest) := List.append_assoc ..
  have size : SocketClient.readSize ⟨Net.frame msg ++ rest, []⟩ lengthThere = some (msg.length, ⟨msg ++ rest, []⟩) := by
    have something : Net.lengthBytes msg.length ++ (msg ++ rest) ≠ [] := by simp [some_]
    simp only [SocketClient.readSize, SocketClient.receive, count, stream, something, if_false, Option.map_some]
    rw [List.take_append_of_le_length four.ge, List.drop_append_of_le_length four.ge, List.take_of_length_le four.le,
      List.drop_eq_nil_of_le four.le, number_lengthBytes small, List.nil_append]
  rw [SocketClient.readMsg, size]
  exact recvAll_message there plain rfl some_ le_rfl

/-! ### What the server sends -/

/-- `async` of a `PublishData`. -/
def publishBody (channel message : Str) : Str :=
  Status.async.text ++ (ascii ":PUBLISH " ++ (serializeStringBody channel ++ serializeStringBody message))

theorem takes_asyncType {rest : Str} (closed : Closed rest) : extractAsyncType.Takes () (ascii ":PUBLISH ") rest := by
  have found : findFrom [((), ascii ":PUBLISH")] (ascii ":PUBLISH " ++ rest) = some ((), ascii ":PUBLISH") := rfl
  have behind : lstrip ((ascii ":PUBLISH " ++ rest).drop (ascii ":PUBLISH").length) = rest := by
    show lstrip (32 :: rest) = rest
    rw [show lstrip (32 :: rest) = lstrip rest from rfl]
    exact closed.lstrip
  unfold Decoder.Takes extractAsyncType extractFrom
  simp only [Decoder.left_bind]
  rw [Decoder.bind_apply]
  simp only [Decoder.left_bind, found, Decoder.goTo_bind, Decoder.pure_apply, behind]

theorem takes_publish (channel message rest : Str) :
    extractPublish.Takes ⟨some channel, some message⟩ (serializeStringBody channel ++ serializeStringBody message) rest := by
  refine (takes_extractStr channel _).bind ?_
  rw [← List.append_nil (serializeStringBody message)]
  exact (takes_extractStr message _).bind (.pure _)

theorem makeResponse_publish (toFloat : Str → Option Float64) (depth : Nat) (channel message : Str) :
    makeResponse toFloat depth (publishBody channel message) = .ok (.async ⟨some channel, some message⟩, []) := by
  have colon : ∀ rest, lstrip (ascii ":PUBLISH " ++ rest) = ascii ":PUBLISH " ++ rest := fun _ => rfl
  have status : extractStatus (publishBody channel message) =
      .ok (some .async, ascii ":PUBLISH " ++ (serializeStringBody channel ++ serializeStringBody message)) :=
    takes_status .async (colon _)
  have data : extractAsync.Takes ⟨some channel, some message⟩ (publishBody channel message) [] := by
    refine (takes_status .async (by rw [List.append_nil]; exact colon _)).bind ?_
    simp only [constantOf, if_true]
    refine (takes_asyncType ?_).bind (takes_publish channel message [])
    rw [List.append_nil]
    exact closed_string channel _
  have data : extractAsync (publishBody channel message) = .ok (⟨some channel, some message⟩, []) := by
    have taken := data
    rwa [Decoder.Takes, List.append_nil] at taken
  unfold makeResponse
  simp only [Decoder.left_bind]
  rw [Decoder.bind_apply, status]
  simp only [Decoder.goTo_bind, if_true]
  rw [Decoder.bind_apply, data]
  rfl

def Synchronous.status : Synchronous → Status
  | .plain status _ _ => status
  | .agg _ => .ok

theorem extractStatus_body (response : Synchronous) :
    ∃ rest, extractStatus response.response.body = .ok (some (constantOf response.status), rest) := by
  cases response with
  | plain status payload exact_ =>
    have found : findFrom serverConstants (status.text ++ payload.serialize) = some (constantOf status, status.text) := by
      cases status <;> rfl
    refine ⟨lstrip ((status.text ++ payload.serialize).drop status.text.length), ?_⟩
    unfold extractStatus extractFrom
    simp only [Synchronous.response, Response.body, Decoder.left_bind, found, Decoder.goTo_bind, Decoder.pure_apply]
    rfl
  | agg parts => exact ⟨_, rfl⟩

theorem makeResponse_synchronous (toFloat : Str → Option Float64) {depth : Nat} {response : Synchronous}
    (deep : response.depth ≤ depth) (concatenated : response.Concatenated) (sync : response.status ≠ .async) :
    makeResponse toFloat depth response.response.body = .ok (.response response.raw, []) := by
  obtain ⟨rest, status⟩ := extractStatus_body response
  have other : (some (constantOf response.status) = some ServerConstant.async) = False := by
    refine eq_false fun same => sync ?_
    cases of_ : response.status with
    | async => rfl
    | _ =>
      rw [of_] at same
      cases same
  have raw := takes_synchronous toFloat response deep concatenated (.inl rfl)
  rw [Decoder.Takes, List.append_nil] at raw
  unfold makeResponse
  simp only [Decoder.left_bind]
  rw [Decoder.bind_apply, status]
  simp only [Decoder.goTo_bind, other, if_false]
  rw [Decoder.bind_apply, raw]
  rfl

/-- A message of the server. -/
inductive Sent where
  | response (answer : Synchronous)
  | publish (channel message : Str)

def Sent.body : Sent → Str
  | .response answer => answer.response.body
  | .publish channel message => publishBody channel message

def Sent.sync : Sent → Option RawResponse
  | .response answer => some answer.raw
  | .publish _ _ => none

def Sent.async : Sent → Option PublishData
  | .response _ => none
  | .publish channel message => some ⟨some channel, some message⟩

/-- A response that the client can tell from asynchronous data. -/
def Sent.Plain (depth : Nat) : Sent → Prop
  | .response answer => answer.depth ≤ depth ∧ answer.Concatenated ∧ answer.status ≠ .async
  | .publish _ _ => True

structure Sent.Fits (depth : Nat) (sent : Sent) : Prop where
  plain : sent.Plain depth
  ascii : isAscii sent.body
  small : sent.body.length < 2 ^ 32

theorem Sent.body_ne_nil (sent : Sent) : sent.body ≠ [] := by
  cases sent with
  | response answer =>
    cases answer with
    | plain status payload exact_ => cases status <;> exact List.cons_ne_nil _ _
    | agg parts => exact List.cons_ne_nil _ _
  | publish channel message => exact List.cons_ne_nil _ _

/-- What the calls will return: the queue of the client and what is on its way. -/
def Pending (depth : Nat) (reader : Reader) (syncs : List RawResponse) (asyncs : List PublishData) (unread : List Sent) :
    Prop :=
  (∀ sent ∈ unread, sent.Fits depth) ∧
    reader.sock = ⟨unread.flatMap fun sent => Net.frame sent.body, []⟩ ∧
    reader.syncResponses ++ unread.filterMap Sent.sync = syncs ∧
    reader.asyncResponses ++ unread.filterMap Sent.async = asyncs

section
variable (toFloat : Str → Option Float64) {depth : Nat} {reader : Reader} {syncs : List RawResponse}
  {asyncs : List PublishData} {unread : List Sent}

theorem readNextResponse_empty (pending : Pending depth reader syncs asyncs []) (arrival : Arrival) :
    reader.readNextResponse toFloat depth arrival = none := by
  obtain ⟨_, sock, _, _⟩ := pending
  rw [Reader.readNextResponse, sock]
  rfl

theorem readNextResponse_pending {sent : Sent} (pending : Pending depth reader syncs asyncs (sent :: unread))
    {arrival : Arrival} (whole : 4 ≤ arrival.length) :
    ∃ next, reader.readNextResponse toFloat depth arrival = some next ∧ Pending depth next syncs asyncs unread := by
  obtain ⟨fits, sock, syncs, asyncs⟩ := pending
  have fit := fits sent List.mem_cons_self
  have later : ∀ sent ∈ unread, sent.Fits depth := fun sent member => fits sent (List.mem_cons_of_mem _ member)
  have read := readMsg_frame whole arrival.rest sent.body_ne_nil fit.small fit.ascii
    (unread.flatMap fun sent => Net.frame sent.body)
  rw [List.flatMap_cons] at sock
  unfold Reader.readNextResponse
  rw [sock, read, Option.bind_some]
  cases sent with
  | response answer =>
    obtain ⟨deep, concatenated, sync⟩ := fit.plain
    rw [show (Sent.response answer).body = answer.response.body from rfl,
      makeResponse_synchronous toFloat deep concatenated sync]
    refine ⟨_, rfl, later, rfl, ?_, asyncs⟩
    rw [List.append_assoc]
    exact syncs
  | publish channel message =>
    rw [show (Sent.publish channel message).body = publishBody channel message from rfl, makeResponse_publish]
    refine ⟨_, rfl, later, rfl, syncs, ?_⟩
    rw [List.append_assoc]
    exact asyncs

theorem Pending.length_le (pending : Pending depth reader syncs asyncs unread) :
    unread.length ≤ reader.sock.stream.length := by
  obtain ⟨_, sock, _, _⟩ := pending
  rw [sock, List.length_flatMap]
  have each : ∀ size ∈ unread.map fun sent => (Net.frame sent.body).length, 1 ≤ size := by
    intro size member
    obtain ⟨sent, _, rfl⟩ := List.mem_map.mp member
    simp only [Net.frame, Net.lengthBytes, List.length_append, List.length_cons]
    omega
  have counted := List.length_le_sum_of_one_le _ each
  rwa [List.length_map] at counted

theorem readUntil_pending (ready : Reader → Bool) {arrivals : Nat → Arrival}
    (whole : ∀ round, 4 ≤ (arrivals round).length) {rounds : Nat} (pending : Pending depth reader syncs asyncs unread)
    (enough : unread.length ≤ rounds) :
    (∃ next unread, Reader.readUntil toFloat depth ready arrivals rounds reader = some next ∧ ready next = true ∧
      Pending depth next syncs asyncs unread) ∨
    (∃ last, Reader.readUntil toFloat depth ready arrivals rounds reader = none ∧ ready last = false ∧
      Pending depth last syncs asyncs []) := by
  induction rounds generalizing reader unread with
  | zero =>
    obtain rfl := List.length_eq_zero_iff.mp (Nat.le_zero.mp enough)
    unfold Reader.readUntil
    cases now : ready reader with
    | true => exact .inl ⟨reader, [], rfl, now, pending⟩
    | false => exact .inr ⟨reader, rfl, now, pending⟩
  | succ rounds ih =>
    unfold Reader.readUntil
    cases now : ready reader with
    | true => exact .inl ⟨reader, unread, rfl, now, pending⟩
    | false =>
      simp only [Bool.false_eq_true, if_false]
      cases unread with
      | nil =>
        rw [readNextResponse_empty toFloat pending]
        exact .inr ⟨reader, rfl, now, pending⟩
      | cons sent unread =>
        obtain ⟨next, read, pending⟩ := readNextResponse_pending toFloat pending (whole rounds)
        rw [read, Option.bind_some]
        exact ih pending (Nat.le_of_succ_le_succ enough)

/-- The next response that the server has sent is the one that is returned, and nothing but waiting is left
if there is none. -/
theorem readResponse_pending {arrivals : Nat → Arrival} (whole : ∀ round, 4 ≤ (arrivals round).length)
    (pending : Pending depth reader syncs asyncs unread) :
    (syncs = [] ∧ reader.readResponse toFloat depth arrivals = none) ∨
      ∃ raw more next unread, syncs = raw :: more ∧ reader.readResponse toFloat depth arrivals = some (raw, next) ∧
        Pending depth next more asyncs unread := by
  unfold Reader.readResponse
  rcases readUntil_pending toFloat (fun reader => !reader.syncResponses.isEmpty) whole pending pending.length_le with
    ⟨next, unread, read, ready, pending⟩ | ⟨last, read, empty, pending⟩
  · rw [read, Option.bind_some, Reader.popSync]
    cases queue : next.syncResponses with
    | nil => simp [queue] at ready
    | cons raw rest =>
      obtain ⟨fits, sock, rfl, asyncs⟩ := pending
      exact .inr ⟨raw, _, _, unread, by rw [queue]; rfl, rfl, fits, sock, rfl, asyncs⟩
  · obtain ⟨_, _, rfl, _⟩ := pending
    refine .inl ⟨?_, by rw [read]; rfl⟩
    simpa using empty

theorem readAsync_pending {arrivals : Nat → Arrival} (whole : ∀ round, 4 ≤ (arrivals round).length) {block : Bool}
    (blocks : reader.asyncResponses = [] → block = true) (pending : Pending depth reader syncs asyncs unread) :
    (asyncs = [] ∧ reader.readAsync toFloat depth arrivals block = none) ∨
      ∃ data more next unread, asyncs = data :: more ∧
        reader.readAsync toFloat depth arrivals block = some (some data, next) ∧ Pending depth next syncs more unread := by
  have goes : (reader.asyncResponses.isEmpty && !block) = false := by
    cases queue : reader.asyncResponses with
    | nil => simp [blocks queue]
    | cons data rest => rfl
  unfold Reader.readAsync
  rw [goes]
  simp only [Bool.false_eq_true, if_false]
  rcases readUntil_pending toFloat (fun reader => !reader.asyncResponses.isEmpty) whole pending pending.length_le with
    ⟨next, unread, read, ready, pending⟩ | ⟨last, read, empty, pending⟩
  · rw [read, Option.bind_some, Reader.popAsync]
    cases queue : next.asyncResponses with
    | nil => simp [queue] at ready
    | cons data rest =>
      obtain ⟨fits, sock, syncs, rfl⟩ := pending
      exact .inr ⟨data, _, _, unread, by rw [queue]; rfl, rfl, fits, sock, syncs, rfl⟩
  · obtain ⟨_, _, _, rfl⟩ := pending
    refine .inl ⟨?_, by rw [read]; rfl⟩
    simpa using empty

end

/-! ### A connection -/

/-- A client, with what the server has sent to it and what its calls have returned. -/
structure Session where
  reader : Reader
  sent : List Sent
  got : List RawResponse
  gotAsync : List PublishData

inductive Step (depth : Nat) where
  | send (sent : Sent) (fits : sent.Fits depth)
  | readResponse (arrivals : Nat → Arrival)
  | readAsync (arrivals : Nat → Arrival) (block : Bool)

section
variable (toFloat : Str → Option Float64) {depth : Nat}

def Session.step (s : Session) : Step depth → Option Session
  | .send sent _ =>
    let sock := { s.reader.sock with stream := s.reader.sock.stream ++ Net.frame sent.body }
    some { s with reader := { s.reader with sock }, sent := s.sent ++ [sent] }
  | .readResponse arrivals =>
    (s.reader.readResponse toFloat depth arrivals).map fun read => { s with reader := read.2, got := s.got ++ [read.1] }
  | .readAsync arrivals block =>
    (s.reader.readAsync toFloat depth arrivals block).map fun read =>
      { s with reader := read.2, gotAsync := s.gotAsync ++ read.1.toList }

def Session.start : Session := ⟨⟨⟨[], []⟩, [], []⟩, [], [], []⟩

/-- The four bytes of a length arrive together. -/
def LengthsThere (arrivals : Nat → Arrival) : Prop := ∀ round, 4 ≤ (arrivals round).length

def Step.LengthsThere : Step depth → Prop
  | .send _ _ => True
  | .readResponse arrivals => Client.LengthsThere arrivals
  | .readAsync arrivals _ => Client.LengthsThere arrivals

variable (depth) in
/-- The calls have returned the responses, and the data, in the order in which the server has sent them, and
a call waits only when all of its kind have been returned. -/
structure Session.InOrder (s : Session) : Prop where
  sync : s.got <+: s.sent.filterMap Sent.sync
  async : s.gotAsync <+: s.sent.filterMap Sent.async
  syncReturns : ∀ arrivals, Client.LengthsThere arrivals →
    ((s.step toFloat (.readResponse arrivals : Step depth)).isSome ↔ s.got.length < (s.sent.filterMap Sent.sync).length)
  asyncReturns : ∀ arrivals, Client.LengthsThere arrivals →
    ((s.step toFloat (.readAsync arrivals true : Step depth)).isSome ↔
      s.gotAsync.length < (s.sent.filterMap Sent.async).length)

/-- What is left to return. -/
def Session.Inv (depth : Nat) (s : Session) : Prop :=
  ∃ syncs asyncs unread, Pending depth s.reader syncs asyncs unread ∧
    s.got ++ syncs = s.sent.filterMap Sent.sync ∧ s.gotAsync ++ asyncs = s.sent.filterMap Sent.async

theorem Pending.append {reader : Reader} {syncs : List RawResponse} {asyncs : List PublishData} {unread : List Sent}
    (pending : Pending depth reader syncs asyncs unread) {sent : Sent} (fits : sent.Fits depth) :
    Pending depth { reader with sock := { reader.sock with stream := reader.sock.stream ++ Net.frame sent.body } }
      (syncs ++ sent.sync.toList) (asyncs ++ sent.async.toList) (unread ++ [sent]) := by
  obtain ⟨fit, sock, rfl, rfl⟩ := pending
  refine ⟨?_, ?_, ?_, ?_⟩
  · intro other member
    rcases List.mem_append.mp member with before | last
    · exact fit other before
    · rw [List.mem_singleton.mp last]
      exact fits
  · rw [sock]
    simp
  · cases sent <;> simp [Sent.sync]
  · cases sent <;> simp [Sent.async]

variable {s t : Session}

theorem Session.inv_step (call : Step depth) (inv : s.Inv depth) (there : call.LengthsThere)
    (taken : s.step toFloat call = some t) : t.Inv depth := by
  obtain ⟨syncs, asyncs, unread, pending, sync, async⟩ := inv
  cases call with
  | send sent fits =>
    cases taken
    refine ⟨_, _, _, pending.append fits, ?_, ?_⟩
    · simp only [List.filterMap_append, ← sync, List.append_assoc]
      cases sent <;> rfl
    · simp only [List.filterMap_append, ← async, List.append_assoc]
      cases sent <;> rfl
  | readResponse arrivals =>
    rcases readResponse_pending toFloat there pending with ⟨_, waits⟩ | ⟨raw, more, next, rest, rfl, read, pending⟩
    · rw [Session.step, waits] at taken
      cases taken
    · rw [Session.step, read] at taken
      cases taken
      exact ⟨more, asyncs, rest, pending, by rw [List.append_assoc]; exact sync, async⟩
  | readAsync arrivals block =>
    by_cases returns : s.reader.asyncResponses = [] ∧ block = false
    · have nothing : s.reader.readAsync toFloat depth arrivals block = some (none, s.reader) := by
        simp [Reader.readAsync, returns.1, returns.2]
      rw [Session.step, nothing] at taken
      cases taken
      exact ⟨syncs, asyncs, unread, pending, sync, by simpa using async⟩
    · have blocks : s.reader.asyncResponses = [] → block = true := fun empty => by simpa [empty] using returns
      rcases readAsync_pending toFloat there blocks pending with ⟨_, waits⟩ | ⟨data, more, next, rest, rfl, read, pending⟩
      · rw [Session.step, waits] at taken
        cases taken
      · rw [Session.step, read] at taken
        cases taken
        refine ⟨syncs, more, rest, pending, sync, ?_⟩
        show s.gotAsync ++ [data] ++ more = _
        rw [List.append_assoc]
        exact async

theorem Session.Inv.inOrder (inv : s.Inv depth) : s.InOrder toFloat depth := by
  obtain ⟨syncs, asyncs, unread, pending, sync, async⟩ := inv
  refine ⟨⟨syncs, sync⟩, ⟨asyncs, async⟩, fun arrivals there => ?_, fun arrivals there => ?_⟩
  · rw [Session.step, Option.isSome_map, ← sync, List.length_append]
    rcases readResponse_pending toFloat there pending with ⟨rfl, waits⟩ | ⟨raw, more, next, rest, rfl, read, _⟩
    · simp [waits]
    · simp [read]
  · rw [Session.step, Option.isSome_map, ← async, List.length_append]
    rcases readAsync_pending toFloat there (fun _ => rfl) pending with
      ⟨rfl, waits⟩ | ⟨data, more, next, rest, rfl, read, _⟩
    · simp [waits]
    · simp [read]

/-- The bytes come one by one. -/
def slowly : Nat → Arrival := fun _ => ⟨4, fun _ => 1⟩

def news : Sent := .publish (ascii "news") (ascii "hello")

def pong : Sent := .response (.plain .pong .nothing rfl)

theorem news_fits : news.Fits 2 := ⟨trivial, by unfold isAscii; decide +kernel, by decide +kernel⟩

theorem pong_fits : pong.Fits 2 := ⟨⟨le_rfl, trivial, nofun⟩, by unfold isAscii; decide +kernel, by decide +kernel⟩

def newsBeforePong : List (Step 2) :=
  [.send news news_fits, .send pong pong_fits, .readResponse slowly, .readAsync slowly true]

end

end Vanity.Client
