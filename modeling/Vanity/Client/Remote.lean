import Vanity.Client.Encoding
import Vanity.Client.Receiving
import Vanity.Library.Serial
import Vanity.Request.Serving

/-!
# Calls of remote clients

Any number of clients of one server. The requests that `client_.py` writes go out in frames, the server reads
them as their bytes arrive, handles one message at a time and sends the response back, and the client reads
it from among the messages that are published to it. All of this is as good as calls of the handlers in one
order, each at some moment between its begin and its end.
-/

namespace Vanity.Client.Remote

open Db (Str Float64)
open Request

/-! ### The system -/

/-- A client: its connection and its session at the server, its reader, its calls and what they have returned. -/
structure Link where
  connection : Net.Connection
  session : SessionInfo
  reader : Reader
  called : List Call
  got : List RawResponse

structure System (C : Type) where
  server : Server
  links : C → Link
  /-- The calls that have been handled, in this order. -/
  served : List (C × Call)

inductive Action (C : Type) where
  | call (c : C) (call : Call)
  | arrive (c : C) (count : Nat)
  | ready (c : C) (between : Nat)
  | publish (c : C) (channel message : Str)
  | read (c : C) (arrivals : Nat → Arrival)

/-- A request as a text, a character for each of its bytes. -/
def textOf (request : Str) : Text := request.map fun c => ⟨c.toNat, by have := c.toNat_lt; omega⟩

/-- The server puts a message on the connection. -/
def Link.receive (link : Link) (body : Str) : Link :=
  let sock := { link.reader.sock with stream := link.reader.sock.stream ++ Net.frame body }
  { link with reader := { link.reader with sock } }

/-- The server, and the sessions of its clients. -/
abbrev View (C : Type) := Server × (C → SessionInfo)

variable {C : Type} [DecidableEq C]

namespace System

def set (s : System C) (c : C) (link : Link) : System C := { s with links := Function.update s.links c link }

def view (s : System C) : View C := (s.server, fun c => (s.links c).session)

/-- The call whose request comes next on a connection. -/
def next (s : System C) (c : C) : Option Call := (s.links c).called[(Serial.own c s.served).length]?

/-- A message is handled in the session of its client. -/
def handle (world : Nat → World) (s : System C) (c : C) (msg : Str) : Option (System C) :=
  -- pipes are nested less deep than the message is long
  (handleUser msg world (msg.length + 1) { s.server with session := (s.links c).session }).map fun turn =>
    let link := { s.links c with session := turn.server.session }
    { s.set c ((turn.sent.map Response.body).foldl Link.receive link) with
      server := turn.server
      served := s.served ++ ((s.next c).map fun call => (c, call)).toList }

end System

section
variable (floatStr : Float64 → Str) (toFloat : Str → Option Float64) (depth : Nat) (world : Nat → World)

def step (s : System C) : Action C → Option (System C)
  | .call c call =>
    let link := s.links c
    let socket := link.connection.socket
    (Unicode.send (textOf (call.request floatStr))).map fun bytes =>
      let connection := { link.connection with socket := { socket with coming := socket.coming ++ bytes } }
      s.set c { link with connection, called := link.called ++ [call] }
  | .arrive c count =>
    (Net.step (s.links c).connection (.arrive count)).map fun connection => s.set c { s.links c with connection }
  | .ready c between =>
    (Net.step (s.links c).connection (.ready between)).bind fun connection =>
      (connection.delivered.drop (s.links c).connection.delivered.length).foldlM (fun s msg => s.handle world c msg)
        (s.set c { s.links c with connection })
  | .publish c channel message => some (s.set c ((s.links c).receive (publishBody channel message)))
  | .read c arrivals =>
    ((s.links c).reader.readResponse toFloat depth arrivals).map fun read =>
      s.set c { s.links c with reader := read.2, got := (s.links c).got ++ [read.1] }

def start (view : View C) : System C where
  server := view.1
  links c := ⟨Net.start [], view.2 c, ⟨⟨[], []⟩, [], []⟩, [], []⟩
  served := []

/-! ### The calls of the handlers -/

-- only handlers that are given the client answer nothing
def responseTo : Answer → Response
  | .sent response => response
  | .silent | .later => .later
  | .thrown what => internalError what

/-- A call without a connection. -/
def direct (view : View C) (c : C) (call : Call) : Response × View C :=
  let server := { view.1 with session := view.2 c }
  if isPermitted call.op server.session.auth then
    let (answer, next) := request .tcp call.op call.args (world server.calls) server
    (responseTo answer, { next with calls := server.calls + 1 }, Function.update view.2 c next.session)
  else (denied, server, view.2)

/-- What the client is to make of a response. -/
def rawOf : Response → Option RawResponse
  | .plain status payload => some ⟨constantOf status, (payloadOf payload).1, (payloadOf payload).2⟩
  | _ => none

def reply (view : View C) (c : C) (call : Call) : Option RawResponse × View C :=
  (rawOf (direct world view c call).1, (direct world view c call).2)

/-- The system when a call has been handled and its response is on its way. -/
def System.answer (s : System C) (c : C) (call : Call) (connection : Net.Connection) : System C :=
  let outcome := direct world s.view c call
  { server := outcome.2.1
    links := Function.update s.links c
      (Link.receive { s.links c with connection, session := outcome.2.1.session } outcome.1.body)
    served := s.served ++ [(c, call)] }

/-! ### What is asked of a run -/

/-- A request of one frame and one byte for a character, whose handler is not given the client. -/
structure Takes (call : Call) : Prop where
  plain : call.op.takesClient = false
  ascii : isAscii (call.request floatStr)
  short : (call.request floatStr).length < 2 ^ 32
  floats : ∀ x ∈ floatsIn _ call.args, stod (floatStr x) = .ok (x, (floatStr x).length)

/-- A response without floats, of one frame, with one byte for a character. -/
def Readable (response : Response) : Prop :=
  ∃ status payload, ∃ exact_ : exactPayload payload = true,
    response = .plain status payload ∧ (Sent.response (.plain status payload exact_)).Fits depth

/-- The four bytes of a length are there together. -/
def Fits (s : System C) : Action C → Prop
  | .call _ call => Takes floatStr call
  | .arrive .. => True
  | .ready c between => Net.LengthThere (s.links c).connection (.ready between) ∧
      ∀ call, s.next c = some call → Readable depth (direct world s.view c call).1
  | .publish _ channel message => (Sent.publish channel message).Fits depth
  | .read _ arrivals => Client.LengthsThere arrivals

/-- The calls that have been handled, one after the other, give the clients what they have got and leave what the
server has. All calls are among them once nothing is on its way to the server, and a client waits only while none of
its calls has been handled whose response it has not got. -/
structure Linear (view : View C) (s : System C) : Prop where
  explains : Serial.Explains (reply world) view (fun c => (s.links c).called) (fun c => (s.links c).got.map some)
    s.served
  state : s.view = Serial.after (reply world) view s.served
  complete : ∀ c, (s.links c).connection.socket.available ++ (s.links c).connection.socket.coming = [] →
    Serial.own c s.served = (s.links c).called
  returns : ∀ c arrivals, Client.LengthsThere arrivals →
    ((step floatStr toFloat depth world s (.read c arrivals)).isSome ↔
      (s.links c).got.length < (Serial.own c s.served).length)

end

/-! ### One request -/

section
variable {floatStr : Float64 → Str} {toFloat : Str → Option Float64} {depth : Nat} {world : Nat → World}
  {view : View C} {c : C} {call : Call}

theorem stands_request (takes : Takes floatStr call) :
    Stands (call.request floatStr) 0 (.tokens [.call call.op call.args]) := by
  have spelled : SpellsAll call.op.arguments call.args
      (List.intercalate [32] (formatAll floatStr call.order call.op.arguments call.args)) [] :=
    call.spelled takes.short (by simp) (by simpa using takes.floats)
  refine ⟨[], call.request floatStr, rfl, rfl, call.single, [], call.command, _, [], Blank.nil, call.named, spelled,
    Blank.nil, ?_⟩
  simp [Call.request, Client.requestFrom]

theorem reads_request (takes : Takes floatStr call) {auth : ClientAuth} (permitted : isPermitted call.op auth = true) :
    ∃ stop, reading auth (call.request floatStr) true 0 = .call call.op call.args stop :=
  ((stands_request takes).read_call (takes.short.trans (by decide)) permitted call.single
    (insistsOnEnd_plain takes.plain)).imp fun _ read => read.2

theorem refuses_request (takes : Takes floatStr call) {auth : ClientAuth} (refused : isPermitted call.op auth = false) :
    ∃ stop, reading auth (call.request floatStr) true 0 = .refused stop :=
  ((stands_request takes).read_refused (takes.short.trans (by decide)) refused takes.plain true).imp
    fun _ read => read.1

theorem caught_request (takes : Takes floatStr call) (server : Server) (pos : Nat) :
    caught (Turn.call ⟨server, 0, []⟩ (request .tcp call.op call.args) world pos) =
      ⟨{ (request .tcp call.op call.args (world server.calls) server).2 with calls := server.calls + 1 }, pos,
        [responseTo (request .tcp call.op call.args (world server.calls) server).1]⟩ := by
  have free : call.op.insistsOnEnd = true → Request.Client.tcp.isPiped = true := by
    simp [insistsOnEnd_plain takes.plain]
  have proper := request_proper .tcp call.args free call.single (world server.calls) server
  rw [caught_call]
  generalize request .tcp call.op call.args (world server.calls) server = outcome at proper ⊢
  obtain ⟨answer, next⟩ := outcome
  cases answer with
  | silent => cases proper
  | sent | later | thrown => rfl

/-- What comes out of a message with a request is what the handler does. -/
theorem handled_request (world : Nat → World) (view : View C) (c : C) (takes : Takes floatStr call) (fuel : Nat) :
    ∃ pos, handleUser (call.request floatStr) world (fuel + 1) { view.1 with session := view.2 c } =
      some ⟨(direct world view c call).2.1, pos, [(direct world view c call).1]⟩ := by
  change ∃ pos, doHandleSingle _ world (fuel + 1) .tcp true ⟨_, 0, []⟩ = _
  rw [doHandleSingle_succ]
  by_cases permitted : isPermitted call.op (view.2 c).auth = true
  · obtain ⟨stop, read⟩ := reads_request takes permitted
    refine ⟨stop, ?_⟩
    simp only [read, caught_request takes, direct, permitted, if_true]
  · obtain ⟨stop, read⟩ := refuses_request takes (Bool.eq_false_iff.mpr permitted)
    refine ⟨stop, ?_⟩
    simp only [read, Turn.respond, List.nil_append, direct, permitted, Bool.false_eq_true, if_false]

theorem direct_sessions (view : View C) (c : C) (call : Call) :
    (direct world view c call).2.2 = Function.update view.2 c (direct world view c call).2.1.session := by
  by_cases permitted : isPermitted call.op (view.2 c).auth = true <;> simp [direct, permitted]

end

/-! ### One connection -/

theorem send_request {floatStr : Float64 → Str} {call : Call} (takes : Takes floatStr call) :
    Unicode.send (textOf (call.request floatStr)) = some (Net.frame (call.request floatStr)) := by
  have plain : Utf8.IsAscii (textOf (call.request floatStr)) := by
    intro c member
    obtain ⟨b, there, rfl⟩ := List.mem_map.mp member
    exact takes.ascii b there
  have bytes : (textOf (call.request floatStr)).map Utf8.byte = call.request floatStr := by
    simp [textOf, Utf8.byte, Function.comp_def]
  rw [Unicode.send, textOf, List.length_map, if_pos takes.short, ← textOf, Utf8.encode_ascii plain, bytes]
  rfl

theorem read_hungUp {socket after : Net.Socket} {size : Nat} {bytes : Str}
    (read : socket.read size = some (bytes, after)) : after.hungUp = socket.hungUp := by
  unfold Net.Socket.read at read
  split at read
  · cases read
    rfl
  · split at read
    · cases read
      rfl
    · split at read <;> cases read
      rfl

theorem readBody_calm (reader : Net.SocketReader) (socket : Net.Socket) :
    (reader.readBody socket).socket.hungUp = socket.hungUp ∧ (reader.readBody socket).messages.length ≤ 1 := by
  unfold Net.SocketReader.readBody
  split
  · exact ⟨rfl, Nat.zero_le _⟩
  · rename_i read
    exact ⟨read_hungUp read, Nat.zero_le _⟩
  · rename_i read
    have calm := read_hungUp read
    dsimp only
    split <;> exact ⟨calm, by simp⟩

theorem read_calm (reader : Net.SocketReader) (socket : Net.Socket) (between : Nat) :
    (reader.read socket between).socket.hungUp = socket.hungUp ∧
      (reader.read socket between).messages.length ≤ 1 := by
  unfold Net.SocketReader.read
  split
  · split
    · exact ⟨rfl, Nat.zero_le _⟩
    · rename_i read
      exact ⟨read_hungUp read, Nat.zero_le _⟩
    · rename_i read
      have kept := read_hungUp read
      exact ⟨(readBody_calm _ _).1.trans kept, (readBody_calm _ _).2⟩
  · exact readBody_calm reader socket

/-- A call of the reader finishes one message at most. -/
theorem ready_delivers {connection after : Net.Connection} {between : Nat}
    (taken : Net.step connection (.ready between) = some after) :
    after.socket.hungUp = connection.socket.hungUp ∧
      (after.delivered = connection.delivered ∨ ∃ msg, after.delivered = connection.delivered ++ [msg]) := by
  simp only [Net.step] at taken
  split at taken
  · cases taken
    obtain ⟨calm, few⟩ := read_calm connection.reader connection.socket between
    refine ⟨calm, ?_⟩
    dsimp only
    generalize (connection.reader.read connection.socket between).messages = messages at few
    cases messages with
    | nil => exact .inl (List.append_nil _)
    | cons msg rest =>
      obtain rfl : rest = [] := by simpa using few
      exact .inr ⟨msg, rfl⟩
  · cases taken

theorem connected_call {messages : List Str} {connection : Net.Connection} (inv : Net.Inv messages connection)
    (hungUp : connection.socket.hungUp = false) (msg : Str) :
    Net.Inv (messages ++ [msg]) { connection with
      socket := { connection.socket with coming := connection.socket.coming ++ Net.frame msg } } where
  stands := by
    obtain ⟨todo, same, stands⟩ := inv.stands
    refine ⟨todo ++ [msg], by simp [same], ?_⟩
    cases stands with
    | between empty rest => exact .between empty (by simp [← List.append_assoc, rest])
    | inside some_ size reads stream => exact .inside some_ size reads (by simp [← List.append_assoc, stream])
  noThrow := inv.noThrow
  atEnd ended := by simp [hungUp] at ended
  closed reported := by
    have ended := (inv.closed reported).1
    rw [hungUp] at ended
    cases ended

/-! ### The invariant -/

section
variable (floatStr : Float64 → Str) (depth : Nat) (world : Nat → World)

/-- A client some of whose calls have been handled, with these replies. -/
structure Link.Holds (link : Link) (own : List Call) (replies : List (Option RawResponse)) : Prop where
  takes : ∀ call ∈ link.called, Takes floatStr call
  first : own <+: link.called
  delivered : link.connection.delivered = own.map (Call.request floatStr)
  connected : Net.Inv (link.called.map (Call.request floatStr)) link.connection
  hungUp : link.connection.socket.hungUp = false
  pending : ∃ syncs asyncs unread, Pending depth link.reader syncs asyncs unread ∧
    (link.got ++ syncs).map some = replies

structure Inv (view : View C) (s : System C) : Prop where
  state : s.view = Serial.after (reply world) view s.served
  holds : ∀ c, (s.links c).Holds floatStr depth (Serial.own c s.served) (Serial.replies (reply world) c view s.served)

end

section
variable {floatStr : Float64 → Str} {toFloat : Str → Option Float64} {depth : Nat} {world : Nat → World}
  {view : View C} {s : System C} {c : C} {link : Link} {own : List Call} {replies : List (Option RawResponse)}

@[simp]
theorem set_links_self : (s.set c link).links c = link := by simp [System.set]

@[simp]
theorem set_links_other {d : C} (other : d ≠ c) : (s.set c link).links d = s.links d := by simp [System.set, other]

theorem set_view (session : link.session = (s.links c).session) : (s.set c link).view = s.view := by
  refine Prod.ext rfl (funext fun d => ?_)
  by_cases same : d = c
  · subst same
    simpa [System.view] using session
  · simp [System.view, same]

theorem Inv.set (inv : Inv floatStr depth world view s) (session : link.session = (s.links c).session)
    (holds : link.Holds floatStr depth (Serial.own c s.served) (Serial.replies (reply world) c view s.served)) :
    Inv floatStr depth world view (s.set c link) where
  state := (set_view session).trans inv.state
  holds d := by
    by_cases same : d = c
    · subst same
      rw [set_links_self]
      exact holds
    · rw [set_links_other same]
      exact inv.holds d

theorem Link.Holds.short (holds : link.Holds floatStr depth own replies) :
    ∀ msg ∈ link.called.map (Call.request floatStr), msg.length < 2 ^ 32 := by
  intro msg member
  obtain ⟨call, there, rfl⟩ := List.mem_map.mp member
  exact (holds.takes call there).short

theorem Link.Holds.receive (holds : link.Holds floatStr depth own replies) {sent : Sent} (fits : sent.Fits depth) :
    (link.receive sent.body).Holds floatStr depth own (replies ++ sent.sync.toList.map some) := by
  obtain ⟨syncs, asyncs, unread, pending, same⟩ := holds.pending
  refine ⟨holds.takes, holds.first, holds.delivered, holds.connected, holds.hungUp, _, _, _, pending.append fits, ?_⟩
  simp [Link.receive, ← same]

theorem Inv.answers (inv : Inv floatStr depth world view s) {connection : Net.Connection} {call : Call}
    {waiting : List Call} (called : (s.links c).called = Serial.own c s.served ++ call :: waiting)
    (connected : Net.Inv ((s.links c).called.map (Call.request floatStr)) connection)
    (hungUp : connection.socket.hungUp = false)
    (delivered : connection.delivered = (Serial.own c s.served ++ [call]).map (Call.request floatStr))
    (readable : Readable depth (direct world s.view c call).1) :
    Inv floatStr depth world view (s.answer world c call connection) where
  state := by
    rw [System.answer, Serial.after_snoc, ← inv.state]
    refine Prod.ext rfl ((funext fun d => ?_ : _ = Function.update _ _ _).trans (direct_sessions s.view c call).symm)
    by_cases same : d = c
    · subst same
      simp [System.view, Link.receive]
    · simp [System.view, same]
  holds d := by
    rw [System.answer, Serial.own_snoc, Serial.replies_snoc, ← inv.state]
    by_cases same : d = c
    · subst same
      obtain ⟨status, payload, exact_, response, fits⟩ := readable
      have held := inv.holds d
      obtain ⟨syncs, asyncs, unread, pending, replies⟩ := held.pending
      simp only [Function.update_self, if_true, reply, response]
      refine ⟨held.takes, ⟨waiting, by simp [Link.receive, called]⟩, delivered, connected, hungUp, _, _, _,
        pending.append fits, ?_⟩
      rw [← List.append_assoc, List.map_append]
      exact congrArg (· ++ _) replies
    · simpa [same, Ne.symm same] using inv.holds d

/-- The message that the server has read is the request of the next call of its client. -/
theorem Inv.serves (inv : Inv floatStr depth world view s) {connection : Net.Connection}
    (connected : Net.Inv ((s.links c).called.map (Call.request floatStr)) connection)
    (hungUp : connection.socket.hungUp = false) {msg : Str}
    (delivered : connection.delivered = (s.links c).connection.delivered ++ [msg])
    (readable : ∀ call, s.next c = some call → Readable depth (direct world s.view c call).1) :
    ∃ t, (s.set c { s.links c with connection }).handle world c msg = some t ∧ Inv floatStr depth world view t := by
  have held := inv.holds c
  obtain ⟨waiting, called⟩ := held.first
  obtain ⟨todo, stream, -⟩ := connected.stands
  rw [delivered, held.delivered, ← called, List.map_append, List.append_assoc, List.append_cancel_left_eq] at stream
  cases waiting with
  | nil => cases stream
  | cons call waiting =>
    obtain ⟨rfl, -⟩ := List.cons.inj stream
    have takes : Takes floatStr call := held.takes call (by simp [← called])
    have next : s.next c = some call := by simp [System.next, ← called]
    obtain ⟨pos, handled⟩ := handled_request world s.view c takes (call.request floatStr).length
    have later : (s.set c { s.links c with connection }).next c = some call := by
      rw [System.next, set_links_self]
      exact next
    have answers : (s.set c { s.links c with connection }).handle world c (call.request floatStr) =
        some (s.answer world c call connection) := by
      rw [System.handle, set_links_self, later]
      refine (congrArg _ handled).trans ?_
      simp [System.answer, System.set]
    refine ⟨_, answers, inv.answers called.symm connected hungUp ?_ (readable call next)⟩
    rw [delivered, held.delivered, List.map_append, List.map_singleton]

theorem step_inv {action : Action C} {t : System C} (inv : Inv floatStr depth world view s)
    (fits : Fits floatStr depth world s action) (taken : step floatStr toFloat depth world s action = some t) :
    Inv floatStr depth world view t := by
  cases action with
  | call c call =>
    rw [step, send_request fits] at taken
    cases taken
    have held := inv.holds c
    refine inv.set rfl ⟨?_, held.first.trans (List.prefix_append _ _), held.delivered, ?_, held.hungUp, held.pending⟩
    · intro other member
      rcases List.mem_append.mp member with before | last
      · exact held.takes other before
      · exact List.mem_singleton.mp last ▸ fits
    · rw [List.map_append]
      exact connected_call held.connected held.hungUp _
  | arrive c count =>
    have held := inv.holds c
    have connected := held.connected.step held.short _ (.arrive count) _ trivial rfl
    cases taken
    exact inv.set rfl ⟨held.takes, held.first, held.delivered, connected, held.hungUp, held.pending⟩
  | ready c between =>
    obtain ⟨connection, read, served⟩ := Option.bind_eq_some_iff.mp taken
    have held := inv.holds c
    have connected := held.connected.step held.short _ _ _ fits.1 read
    obtain ⟨kept, same | ⟨msg, more⟩⟩ := ready_delivers read
    · rw [same, List.drop_length] at served
      cases served
      exact inv.set rfl ⟨held.takes, held.first, same.trans held.delivered, connected, kept.trans held.hungUp,
        held.pending⟩
    · rw [more, List.drop_left] at served
      obtain ⟨next, handled, inv⟩ := inv.serves connected (kept.trans held.hungUp) more fits.2
      rw [List.foldlM_cons, handled] at served
      cases served
      exact inv
  | publish c channel message =>
    cases taken
    have held := (inv.holds c).receive fits
    rw [Sent.sync, Option.toList_none, List.map_nil, List.append_nil] at held
    exact inv.set rfl held
  | read c arrivals =>
    obtain ⟨⟨raw, reader⟩, read, rfl⟩ := Option.map_eq_some_iff.mp taken
    have held := inv.holds c
    obtain ⟨syncs, asyncs, unread, pending, replies⟩ := held.pending
    rcases readResponse_pending toFloat fits pending with ⟨-, waits⟩ | ⟨_, more, _, rest, rfl, returned, pending⟩
    · rw [waits] at read
      cases read
    · rw [returned] at read
      cases read
      refine inv.set rfl ⟨held.takes, held.first, held.delivered, held.connected, held.hungUp, _, _, _, pending, ?_⟩
      rw [List.append_assoc]
      exact replies

theorem start_inv (view : View C) : Inv floatStr depth world view (start view) where
  state := rfl
  holds c := by
    have none_ : Pending depth ((start view).links c).reader [] [] [] := by simp [Pending, start]
    exact ⟨by simp [start], List.prefix_rfl, rfl, Net.start_inv [], rfl, [], [], [], none_, rfl⟩

theorem Inv.linear (inv : Inv floatStr depth world view s) : Linear floatStr toFloat depth world view s where
  explains := by
    refine ⟨fun c => (inv.holds c).first, fun c => ?_⟩
    obtain ⟨syncs, asyncs, unread, pending, replies⟩ := (inv.holds c).pending
    exact ⟨syncs.map some, by rw [← List.map_append, replies]⟩
  state := inv.state
  complete c nothing := by
    have held := inv.holds c
    obtain ⟨waiting, called⟩ := held.first
    obtain ⟨todo, stream, stands⟩ := held.connected.stands
    rw [nothing] at stands
    rw [stands.done, List.append_nil, held.delivered, ← called, List.map_append, List.append_right_eq_self,
      List.map_eq_nil_iff] at stream
    rw [← called, stream, List.append_nil]
  returns c arrivals there := by
    obtain ⟨syncs, asyncs, unread, pending, replies⟩ := (inv.holds c).pending
    have counted : (Serial.replies (reply world) c view s.served).length = (Serial.own c s.served).length :=
      Serial.length_replies
    rw [← counted, ← replies, List.length_map, List.length_append, step, Option.isSome_map]
    rcases readResponse_pending toFloat there pending with ⟨rfl, waits⟩ | ⟨raw, more, next, rest, rfl, read, _⟩
    · simp [waits]
    · simp [read]

/-! ### Runs -/

theorem handle_served {msg : Str} {t : System C} (handled : s.handle world c msg = some t) : s.served <+: t.served := by
  obtain ⟨turn, -, rfl⟩ := Option.map_eq_some_iff.mp handled
  exact List.prefix_append _ _

theorem foldlM_served (messages : List Str) {t : System C}
    (handled : messages.foldlM (fun s msg => s.handle world c msg) s = some t) : s.served <+: t.served := by
  induction messages generalizing s with
  | nil =>
    cases handled
    exact List.prefix_rfl
  | cons msg messages ih =>
    rw [List.foldlM_cons] at handled
    obtain ⟨next, first, rest⟩ := Option.bind_eq_some_iff.mp handled
    exact (handle_served first).trans (ih rest)

theorem step_served {action : Action C} {t : System C} (taken : step floatStr toFloat depth world s action = some t) :
    s.served <+: t.served := by
  cases action with
  | call c call =>
    obtain ⟨_, -, rfl⟩ := Option.map_eq_some_iff.mp taken
    exact List.prefix_rfl
  | arrive | publish =>
    cases taken
    exact List.prefix_rfl
  | ready c between =>
    obtain ⟨connection, -, served⟩ := Option.bind_eq_some_iff.mp taken
    have later := foldlM_served _ served
    exact later
  | read c arrivals =>
    obtain ⟨_, -, rfl⟩ := Option.map_eq_some_iff.mp taken
    exact List.prefix_rfl

theorem run_served (run : List (Action C)) {t : System C}
    (runs : runAll (step floatStr toFloat depth world) run s = some t) : s.served <+: t.served := by
  induction run generalizing s with
  | nil =>
    cases runs
    exact List.prefix_rfl
  | cons action run ih =>
    obtain ⟨next, taken, rest⟩ := Option.bind_eq_some_iff.mp runs
    exact (step_served taken).trans (ih rest)

/-- At every moment of a run the calls that have been handled explain what all clients have got, and their order only
grows: a call that has returned stands before every call that begins later. -/
theorem remote_calls_linear (view : View C) (run : List (Action C))
    (fits : EachStep (step floatStr toFloat depth world) (Fits floatStr depth world) run (start view)) :
    EachState (step floatStr toFloat depth world) (Linear floatStr toFloat depth world view) run (start view) ∧
      ∀ early late s t, run = early ++ late →
        runAll (step floatStr toFloat depth world) early (start view) = some s →
          runAll (step floatStr toFloat depth world) late s = some t → s.served <+: t.served :=
  ⟨eachState_of_inv (fun _ _ _ inv allowed taken => step_inv inv allowed taken) (fun _ inv => inv.linear)
    (start_inv view) fits, fun _ late _ _ _ _ runs => run_served late runs⟩

end

noncomputable def ping : Call := ⟨.ping, by decide, ascii "PING", by decide, (), Order.startingWith []⟩

/-- Two clients, both of them users. -/
def twoUsers : View Bool := (.empty .user, fun _ => { data := .user {}, auth := .user })

/-- The second client's call is on its way while the first one's is handled. -/
noncomputable def twoPings : List (Action Bool) :=
  [.call true ping, .call false ping, .arrive false 6, .arrive true 8, .ready true 0,
    .publish true (ascii "a") (ascii "b"), .read true slowly]

theorem ping_takes : Takes (fun _ => []) ping := by
  refine ⟨rfl, ?_, by decide +kernel, fun x member => by cases member⟩
  unfold isAscii
  decide +kernel

theorem ping_readable : Readable 2 (direct (fun _ => .still) twoUsers true ping).1 :=
  ⟨.pong, .nothing, rfl, rfl, pong_fits⟩

theorem twoPings_fit : EachStep (step (fun _ => []) (fun _ => none) 2 fun _ => .still)
    (Fits (fun _ => []) 2 fun _ => .still) twoPings (start twoUsers) := by
  have published : (Sent.publish (ascii "a") (ascii "b")).Fits 2 :=
    ⟨trivial, by unfold isAscii; decide +kernel, by decide +kernel⟩
  rintro _ ⟨⟩
  refine ⟨ping_takes, ?_⟩
  rintro _ ⟨⟩
  refine ⟨ping_takes, ?_⟩
  rintro _ ⟨⟩
  refine ⟨trivial, ?_⟩
  rintro _ ⟨⟩
  refine ⟨trivial, fun _ _ => ⟨⟨?_, ?_⟩, fun _ _ => ⟨published, fun _ _ => ⟨fun _ => le_rfl, trivial⟩⟩⟩⟩
  · intro _ _
    decide +kernel
  · rintro call ⟨⟩
    exact ping_readable

theorem twoPings_linear :
    (runAll (step (fun _ => []) (fun _ => none) 2 fun _ => .still) twoPings (start twoUsers)).map
        (fun s => ((s.links true).got.length, s.served.length)) = some (1, 1) ∧
    EachState (step (fun _ => []) (fun _ => none) 2 fun _ => .still)
        (Linear (fun _ => []) (fun _ => none) 2 (fun _ => .still) twoUsers) twoPings (start twoUsers) ∧
      ∀ early late s t, twoPings = early ++ late →
        runAll (step (fun _ => []) (fun _ => none) 2 fun _ => .still) early (start twoUsers) = some s →
          runAll (step (fun _ => []) (fun _ => none) 2 fun _ => .still) late s = some t → s.served <+: t.served :=
  ⟨by decide +kernel, remote_calls_linear twoUsers twoPings twoPings_fit⟩

end Vanity.Client.Remote
