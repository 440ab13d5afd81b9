import Vanity.Db.Types
import Vanity.Library.Runs

/-!
# Writing to a socket

`SocketWriter` and the epoll it registers with. What the socket does not take at once stays in the writer,
which is then registered for the event that the socket can be written to again. A call holds the mutex of
the writer from its start to its end, so that calls follow one another.
-/

namespace Vanity.Net

open Db (Str)

/-- What a `::write` comes to: it takes so many of the bytes it is given, or fails, with `EAGAIN` or with
another error. -/
inductive Outcome where
  | taken (count : Nat)
  | retry
  | failed
  deriving DecidableEq

structure SocketWriter where
  message : Str := []
  index : Nat := 0

/-- The writer, whether the epoll has it, and whether the epoll has refused to add or to remove it. Beside
them what the socket has accepted and what `write` has been called with. -/
structure Sending where
  writer : SocketWriter := {}
  registered : Bool := false
  refused : Bool := false
  accepted : Str := []
  passed : List Str := []

/-- How `do_write` ends: it returns false, it returns true, or it throws. -/
inductive Written where
  | done | pending | thrown
  deriving DecidableEq

namespace Sending

def doWrite (s : Sending) : Outcome → Written × Sending
  | .taken count =>
    let bytes := (s.writer.message.drop s.writer.index).take count
    let index := s.writer.index + bytes.length
    (if index ≠ s.writer.message.length then .pending else .done,
      { s with writer := { s.writer with index }, accepted := s.accepted ++ bytes })
  | .retry => (.pending, s)
  | .failed => (.thrown, s)

/-- The body of the loop of `try_write_all`. -/
def turn (s : Sending) (outcome : Outcome) : Written × Sending :=
  match s.doWrite outcome with
  | (.done, s) => (.done, { s with writer := {} })
  | (.pending, s) => (.pending, s)
  | (.thrown, s) => (.thrown, s)

theorem turn_done {s t : Sending} {outcome : Outcome} (done : s.turn outcome = (.done, t)) : t.writer = {} := by
  unfold turn at done
  split at done
  · obtain rfl := (Prod.mk.inj done).2
    rfl
  · cases done
  · cases done

/-- The loop, with the outcomes of the writes that it makes. -/
def tryWriteAll (s : Sending) (outcomes : Nat → Outcome) : Written × Sending :=
  if s.writer.index < s.writer.message.length then
    match done : s.turn (outcomes 0) with
    | (.done, t) => t.tryWriteAll fun n => outcomes (n + 1)
    | (.pending, t) => (.pending, t)
    | (.thrown, t) => (.thrown, t)
  else (.done, s)
termination_by s.writer.message.length
decreasing_by
  rw [turn_done done]
  exact Nat.zero_lt_of_lt ‹_›

-- `epoll_ctl` fails if the descriptor is there already
def addWriter (s : Sending) : Sending :=
  if s.registered then { s with refused := true } else { s with registered := true }

-- and here if it is not
def removeWriter (s : Sending) : Sending :=
  if s.registered then { s with registered := false } else { s with refused := true }

/-- The message is in the buffer. -/
def take (s : Sending) (response : Str) : Sending :=
  { s with
    writer := { s.writer with
      message := if s.writer.message.isEmpty then response else s.writer.message ++ response }
    passed := s.passed ++ [response] }

def write (s : Sending) (response : Str) (outcomes : Nat → Outcome) : Sending :=
  let wasEmpty := s.writer.message.isEmpty
  match (s.take response).tryWriteAll outcomes with
  | (.thrown, t) => t
  | (_, t) => if wasEmpty && !t.writer.message.isEmpty then t.addWriter else t

def ready (s : Sending) (outcomes : Nat → Outcome) : Sending :=
  match s.tryWriteAll outcomes with
  | (.thrown, t) => t
  | (_, t) => if t.writer.message.isEmpty then t.removeWriter else t

end Sending

/-- A call, with the outcomes of the writes that it makes. -/
inductive Call where
  | write (response : Str) (outcomes : Nat → Outcome)
  | ready (outcomes : Nat → Outcome)

def Call.outcomes : Call → Nat → Outcome
  | .write _ outcomes => outcomes
  | .ready outcomes => outcomes

namespace Sending

def call (s : Sending) : Call → Sending
  | .write response outcomes => s.write response outcomes
  | .ready outcomes => s.ready outcomes

/-- Whatever calls follow one another. -/
def anyCall (s : Sending) (call : Call) : Option Sending := some (s.call call)

/-- The states in which the loop comes to its test or is left. -/
def passes (s : Sending) (outcomes : Nat → Outcome) : List Sending :=
  s :: if s.writer.index < s.writer.message.length then
    match done : s.turn (outcomes 0) with
    | (.done, t) => t.passes fun n => outcomes (n + 1)
    | (.pending, t) => [t]
    | (.thrown, t) => [t]
  else []
termination_by s.writer.message.length
decreasing_by
  rw [turn_done done]
  exact Nat.zero_lt_of_lt ‹_›

def moments (s : Sending) : Call → List Sending
  | .write response outcomes => (s.take response).passes outcomes
  | .ready outcomes => s.passes outcomes

/-- What the socket has accepted and what is left in the buffer are all the messages, in order. -/
def InOrder (s : Sending) : Prop := s.accepted ++ s.writer.message.drop s.writer.index = s.passed.flatten

/-! ### The loop -/

variable {s t : Sending} {response : Str} {outcomes : Nat → Outcome} {outcome : Outcome}

/-- The index is at an unsent byte, or the buffer is empty. -/
def Inv (s : Sending) : Prop := s.writer.index < s.writer.message.length ∨ s.writer = {}

theorem take_drop_length (bytes : Str) (count : Nat) :
    bytes.take count ++ bytes.drop (bytes.take count).length = bytes := by
  rw [List.length_take]
  by_cases short : count ≤ bytes.length
  · rw [Nat.min_eq_left short, List.take_append_drop]
  · rw [Nat.min_eq_right (by omega), List.take_of_length_le (by omega), List.drop_length, List.append_nil]

/-- What is written are the next bytes of the buffer. -/
theorem doWrite_inOrder (inOrder : s.InOrder) (outcome : Outcome) : (s.doWrite outcome).2.InOrder := by
  cases outcome with
  | taken count =>
    show s.accepted ++ (s.writer.message.drop s.writer.index).take count ++ s.writer.message.drop
      (s.writer.index + ((s.writer.message.drop s.writer.index).take count).length) = s.passed.flatten
    rw [← List.drop_drop, List.append_assoc, take_drop_length]
    exact inOrder
  | retry | failed => exact inOrder

theorem doWrite_index (unsent : s.writer.index < s.writer.message.length) (outcome : Outcome) :
    (s.doWrite outcome).2.writer.message = s.writer.message ∧
      (s.doWrite outcome).2.writer.index ≤ s.writer.message.length ∧
        ((s.doWrite outcome).1 = .done ↔ (s.doWrite outcome).2.writer.index = s.writer.message.length) := by
  cases outcome with
  | taken count =>
    refine ⟨rfl, ?_, ?_⟩
    · simp only [doWrite, List.length_take, List.length_drop]
      omega
    · simp only [doWrite]
      split
      · rename_i short
        exact iff_of_false nofun short
      · rename_i whole
        exact iff_of_true rfl (not_not.mp whole)
  | retry | failed =>
    refine ⟨rfl, Nat.le_of_lt unsent, iff_of_false nofun ?_⟩
    exact Nat.ne_of_lt unsent

/-- What one turn of the loop leaves: an empty buffer if all has been sent, and else a buffer with something to send. -/
theorem turn_inv (unsent : s.writer.index < s.writer.message.length) (outcome : Outcome) : (s.turn outcome).2.Inv := by
  obtain ⟨message, inside, whole⟩ := doWrite_index unsent outcome
  unfold turn
  rcases written : s.doWrite outcome with ⟨result, t⟩
  rw [written] at message inside whole
  dsimp only at message inside whole
  cases result with
  | done => exact .inr rfl
  | pending | thrown =>
    refine .inl ?_
    have short : t.writer.index ≠ s.writer.message.length := fun same => nomatch whole.mpr same
    show t.writer.index < t.writer.message.length
    rw [message]
    omega

theorem turn_inOrder (unsent : s.writer.index < s.writer.message.length) (inOrder : s.InOrder) (outcome : Outcome) :
    (s.turn outcome).2.InOrder := by
  obtain ⟨message, inside, whole⟩ := doWrite_index unsent outcome
  have kept := doWrite_inOrder inOrder outcome
  unfold turn
  rcases written : s.doWrite outcome with ⟨result, t⟩
  rw [written] at message whole kept
  dsimp only at message whole kept
  cases result with
  | done =>
    have sent : t.writer.message.drop t.writer.index = [] := by
      rw [message, whole.mp rfl]
      exact List.drop_length
    unfold InOrder at kept ⊢
    rw [sent] at kept
    exact kept
  | pending | thrown => exact kept

/-- The loop makes at most one turn, since it leaves the buffer empty or is left. -/
theorem tryWriteAll_eq (s : Sending) (outcomes : Nat → Outcome) :
    s.tryWriteAll outcomes =
      if s.writer.index < s.writer.message.length then s.turn (outcomes 0) else (.done, s) := by
  rw [tryWriteAll]
  split
  · split
    · rename_i t done
      rw [done, tryWriteAll, if_neg]
      rw [turn_done done]
      exact Nat.not_lt_zero _
    · rename_i pending
      exact pending.symm
    · rename_i thrown
      exact thrown.symm
  · rfl

theorem passes_eq (s : Sending) (outcomes : Nat → Outcome) :
    s.passes outcomes =
      s :: if s.writer.index < s.writer.message.length then [(s.turn (outcomes 0)).2] else [] := by
  rw [passes]
  split
  · split
    · rename_i t done
      rw [done, passes, if_neg]
      rw [turn_done done]
      exact Nat.not_lt_zero _
    · rename_i pending
      rw [pending]
    · rename_i thrown
      rw [thrown]
  · rfl

/-! ### The order of the bytes -/

structure Sound (s : Sending) : Prop where
  inv : s.Inv
  inOrder : s.InOrder

theorem take_message (s : Sending) (response : Str) :
    (s.take response).writer.message = s.writer.message ++ response := by
  unfold take
  dsimp only
  split
  · rename_i empty
    rw [List.isEmpty_iff.mp empty, List.nil_append]
  · rfl

theorem take_inv (inv : s.Inv) (response : Str) : (s.take response).Inv := by
  have index : (s.take response).writer.index = s.writer.index := rfl
  rcases inv with unsent | empty
  · left
    rw [index, take_message, List.length_append]
    omega
  · cases response with
    | nil =>
      right
      simp [take, empty]
    | cons byte more =>
      left
      rw [index, take_message, empty]
      exact Nat.zero_lt_succ _

theorem Inv.index_le (inv : s.Inv) : s.writer.index ≤ s.writer.message.length := by
  rcases inv with unsent | empty
  · exact Nat.le_of_lt unsent
  · rw [empty]
    exact Nat.le_refl _

theorem Sound.take (sound : s.Sound) (response : Str) : (s.take response).Sound := by
  refine ⟨take_inv sound.inv response, ?_⟩
  show s.accepted ++ (s.take response).writer.message.drop s.writer.index = (s.passed ++ [response]).flatten
  rw [take_message, List.drop_append_of_le_length sound.inv.index_le, ← List.append_assoc, sound.inOrder]
  simp

theorem Sound.turn (sound : s.Sound) (unsent : s.writer.index < s.writer.message.length) (outcome : Outcome) :
    (s.turn outcome).2.Sound :=
  ⟨turn_inv unsent outcome, turn_inOrder unsent sound.inOrder outcome⟩

theorem Sound.passes (sound : s.Sound) (outcomes : Nat → Outcome) : ∀ t ∈ s.passes outcomes, t.Sound := by
  rw [passes_eq]
  intro t member
  rcases List.mem_cons.mp member with rfl | member
  · exact sound
  · split at member
    · rename_i unsent
      rw [List.mem_singleton.mp member]
      exact sound.turn unsent _
    · cases member

theorem Sound.tryWriteAll (sound : s.Sound) (outcomes : Nat → Outcome) : (s.tryWriteAll outcomes).2.Sound := by
  rw [tryWriteAll_eq]
  split
  · rename_i unsent
    exact sound.turn unsent _
  · exact sound

theorem Sound.of_same (sound : s.Sound) (writer : t.writer = s.writer) (accepted : t.accepted = s.accepted)
    (passed : t.passed = s.passed) : t.Sound := by
  obtain ⟨inv, order⟩ := sound
  unfold Inv at inv
  unfold InOrder at order
  rw [← writer] at inv order
  rw [← accepted, ← passed] at order
  exact ⟨inv, order⟩

theorem Sound.addWriter (sound : s.Sound) : s.addWriter.Sound := by
  unfold Sending.addWriter
  split <;> exact sound.of_same rfl rfl rfl

theorem Sound.removeWriter (sound : s.Sound) : s.removeWriter.Sound := by
  unfold Sending.removeWriter
  split <;> exact sound.of_same rfl rfl rfl

theorem Sound.call (sound : s.Sound) (call : Call) : (s.call call).Sound := by
  cases call with
  | write response outcomes =>
    have written := (sound.take response).tryWriteAll outcomes
    simp only [Sending.call, Sending.write]
    split
    · rename_i t thrown
      rwa [thrown] at written
    · rename_i result t _ ended
      rw [ended] at written
      split
      · exact written.addWriter
      · exact written
  | ready outcomes =>
    have written := sound.tryWriteAll outcomes
    simp only [Sending.call, Sending.ready]
    split
    · rename_i t thrown
      rwa [thrown] at written
    · rename_i result t _ ended
      rw [ended] at written
      split
      · exact written.removeWriter
      · exact written

theorem Sound.moments (sound : s.Sound) (call : Call) : ∀ t ∈ s.moments call, t.InOrder := by
  intro t member
  cases call with
  | write response outcomes => exact ((sound.take response).passes outcomes t member).inOrder
  | ready outcomes => exact (sound.passes outcomes t member).inOrder

theorem sound_start : ({} : Sending).Sound := ⟨.inr rfl, rfl⟩

/-- Over any calls, with whatever outcomes, the bytes are in order before and after every call and whenever
the loop in it comes to its test or is left. -/
theorem outgoing_inOrder (run : List Call) :
    EachState anyCall InOrder run {} ∧ EachStep anyCall (fun s call => ∀ t ∈ s.moments call, t.InOrder) run {} := by
  have preserved : ∀ (s : Sending) call t, s.Sound → s.anyCall call = some t → t.Sound := by
    intro s call t sound taken
    rw [← Option.some.inj taken]
    exact sound.call call
  constructor
  · exact eachState_of_always preserved (fun _ sound => sound.inOrder) sound_start
  · exact eachStep_of_always preserved (fun _ call sound => sound.moments call) sound_start

end Sending

/-! ### Registration -/

/-- A call in which the socket takes bytes or fails with `EAGAIN`. -/
structure SteadyCall where
  call : Call
  steady : ∀ n, call.outcomes n ≠ .failed

def SteadyCall.write (response : Str) (outcome : Outcome) (steady : outcome ≠ .failed) : SteadyCall :=
  ⟨.write response fun _ => outcome, fun _ => steady⟩

/-- The socket takes as many bytes as there are. -/
def Outcome.TakesAll (outcome : Outcome) (size : Nat) : Prop := ∃ count, outcome = .taken count ∧ size ≤ count

namespace Sending

/-- A call of `ready` comes from the epoll, which has to have the writer for it. -/
def epollCall (s : Sending) (steady : SteadyCall) : Option Sending :=
  match steady.call with
  | .write response outcomes => some (s.write response outcomes)
  | .ready outcomes => if s.registered then some (s.ready outcomes) else none

/-- The epoll has refused nothing, and it has the writer exactly if there is something to send. -/
structure InStep (s : Sending) : Prop where
  neverRefused : s.refused = false
  registered : s.registered = true ↔ s.writer.message ≠ []

/-- A write that finds an earlier message unsent does not send all of the buffer. -/
def LeavesSome (s : Sending) (steady : SteadyCall) : Prop :=
  match steady.call with
  | .write response outcomes =>
    s.writer.message ≠ [] → ¬(outcomes 0).TakesAll ((s.writer.message ++ response).length - s.writer.index)
  | .ready _ => True

section
variable {s t : Sending} {response : Str} {outcomes : Nat → Outcome} {outcome : Outcome}

theorem turn_frame (s : Sending) (outcome : Outcome) :
    (s.turn outcome).2.registered = s.registered ∧ (s.turn outcome).2.refused = s.refused := by
  have frame : (s.doWrite outcome).2.registered = s.registered ∧ (s.doWrite outcome).2.refused = s.refused := by
    cases outcome <;> exact ⟨rfl, rfl⟩
  unfold turn
  rcases written : s.doWrite outcome with ⟨result, t⟩
  rw [written] at frame
  cases result <;> exact frame

theorem turn_cases (unsent : s.writer.index < s.writer.message.length) (steady : outcome ≠ .failed) :
    ((s.turn outcome).1 = .done ∧ (s.turn outcome).2.writer.message = [] ∧
        outcome.TakesAll (s.writer.message.length - s.writer.index)) ∨
      ((s.turn outcome).1 = .pending ∧ (s.turn outcome).2.writer.message = s.writer.message ∧
        ¬outcome.TakesAll (s.writer.message.length - s.writer.index)) := by
  obtain ⟨message, inside, whole⟩ := doWrite_index unsent outcome
  have all : (s.doWrite outcome).1 = .done ↔ outcome.TakesAll (s.writer.message.length - s.writer.index) := by
    rw [whole]
    cases outcome with
    | taken count =>
      have size : (s.doWrite (.taken count)).2.writer.index =
          s.writer.index + min count (s.writer.message.length - s.writer.index) := by
        simp only [doWrite, List.length_take, List.length_drop]
      rw [size]
      constructor
      · exact fun same => ⟨count, rfl, by omega⟩
      · rintro ⟨other, same, enough⟩
        cases same
        omega
    | retry => exact iff_of_false (Nat.ne_of_lt unsent) nofun
    | failed => exact absurd rfl steady
  have noThrow : (s.doWrite outcome).1 ≠ .thrown := by
    cases outcome with
    | taken count =>
      simp only [doWrite]
      split <;> nofun
    | retry => nofun
    | failed => exact absurd rfl steady
  unfold turn
  rcases written : s.doWrite outcome with ⟨result, t⟩
  rw [written] at message all noThrow
  cases result with
  | done => exact .inl ⟨rfl, rfl, all.mp rfl⟩
  | pending => exact .inr ⟨rfl, message, fun takes => nomatch all.mpr takes⟩
  | thrown => exact absurd rfl noThrow

theorem InStep.add (neverRefused : s.refused = false) (outside : s.registered = false) (some_ : s.writer.message ≠ []) :
    s.addWriter.InStep := by
  rw [addWriter, if_neg (by simp [outside])]
  exact ⟨neverRefused, iff_of_true rfl some_⟩

theorem InStep.remove (neverRefused : s.refused = false) (inside : s.registered = true)
    (none_ : s.writer.message = []) : s.removeWriter.InStep := by
  rw [removeWriter, if_pos inside]
  exact ⟨neverRefused, iff_of_false Bool.false_ne_true (not_not.mpr none_)⟩

/-- How the loop ends: with an empty buffer, or with the buffer that it found. -/
inductive Loop (s : Sending) (outcome : Outcome) : Written × Sending → Prop
  | sent {t : Sending} (registered : t.registered = s.registered) (refused : t.refused = s.refused)
      (empty : t.writer.message = [])
      (all : s.writer.message ≠ [] → outcome.TakesAll (s.writer.message.length - s.writer.index)) :
      Loop s outcome (.done, t)
  | left {t : Sending} (registered : t.registered = s.registered) (refused : t.refused = s.refused)
      (same : t.writer.message = s.writer.message) (some_ : s.writer.message ≠ [])
      (short : ¬outcome.TakesAll (s.writer.message.length - s.writer.index)) : Loop s outcome (.pending, t)

theorem tryWriteAll_loop (inv : s.Inv) (steady : outcomes 0 ≠ .failed) :
    Loop s (outcomes 0) (s.tryWriteAll outcomes) := by
  rw [tryWriteAll_eq]
  rcases inv with unsent | empty
  · rw [if_pos unsent]
    obtain ⟨registered, refused⟩ := turn_frame s (outcomes 0)
    have ends := turn_cases unsent steady
    rcases turned : s.turn (outcomes 0) with ⟨result, t⟩
    rw [turned] at ends registered refused
    rcases ends with ⟨rfl, sent, all⟩ | ⟨rfl, left, short⟩
    · exact .sent registered refused sent fun _ => all
    · exact .left registered refused left (List.length_pos_iff.mp (Nat.zero_lt_of_lt unsent)) short
  · have none_ : s.writer.message = [] := by rw [empty]
    rw [if_neg (by rw [none_]; exact Nat.not_lt_zero _)]
    exact .sent rfl rfl none_ fun some_ => absurd none_ some_

/-- A write leaves the registration in step unless it sends an earlier message to its end. -/
theorem write_inStep_iff (inv : s.Inv) (inStep : s.InStep) (steady : outcomes 0 ≠ .failed) :
    (s.write response outcomes).InStep ↔ (s.writer.message ≠ [] →
      ¬(outcomes 0).TakesAll ((s.writer.message ++ response).length - s.writer.index)) := by
  have loop := tryWriteAll_loop (take_inv inv response) steady
  unfold write
  rcases ended : (s.take response).tryWriteAll outcomes with ⟨result, t⟩
  rw [ended] at loop
  cases loop with
  | sent registered refused empty all =>
    have registered : t.registered = s.registered := registered
    have stays : (if s.writer.message.isEmpty && !t.writer.message.isEmpty then t.addWriter else t) = t := by
      simp [empty]
    dsimp only
    rw [stays]
    by_cases none_ : s.writer.message = []
    · refine iff_of_true ⟨refused.trans inStep.neverRefused, ?_⟩ fun some_ => absurd none_ some_
      rw [registered, inStep.registered, none_, empty]
    · -- the writer was registered for the earlier message, and stays so
      refine iff_of_false (fun after => ?_) fun leaves => leaves none_ ?_
      · exact after.registered.mp (registered.trans (inStep.registered.mpr none_)) empty
      · rw [← take_message]
        exact all (by rw [take_message]; exact List.append_ne_nil_of_left_ne_nil none_ _)
  | left registered refused same some_ short =>
    have registered : t.registered = s.registered := registered
    have unsent : t.writer.message ≠ [] := by rwa [same]
    rw [take_message] at short
    refine iff_of_true ?_ fun _ => short
    dsimp only
    by_cases none_ : s.writer.message = []
    · have outside : s.registered = false := by
        rw [← Bool.not_eq_true, inStep.registered]
        exact not_not.mpr none_
      rw [if_pos (by simp [none_, unsent])]
      exact InStep.add (refused.trans inStep.neverRefused) (registered.trans outside) unsent
    · rw [if_neg (by simp [none_])]
      refine ⟨refused.trans inStep.neverRefused, ?_⟩
      rw [registered]
      exact iff_of_true (inStep.registered.mpr none_) unsent

theorem ready_inStep (inv : s.Inv) (inStep : s.InStep) (inside : s.registered = true) (steady : outcomes 0 ≠ .failed) :
    (s.ready outcomes).InStep := by
  have loop := tryWriteAll_loop inv steady
  unfold ready
  rcases ended : s.tryWriteAll outcomes with ⟨result, t⟩
  rw [ended] at loop
  cases loop with
  | sent registered refused empty all =>
    dsimp only
    rw [if_pos (by rw [empty]; rfl)]
    exact InStep.remove (refused.trans inStep.neverRefused) (registered.trans inside) empty
  | left registered refused same some_ short =>
    dsimp only
    rw [if_neg (by rw [same]; simpa using some_)]
    exact ⟨refused.trans inStep.neverRefused, by rw [registered, same]; exact inStep.registered⟩

end

theorem inStep_iff {steady : SteadyCall} {s t : Sending} (inv : s.Inv) (inStep : s.InStep)
    (taken : s.epollCall steady = some t) : t.InStep ↔ s.LeavesSome steady := by
  obtain ⟨call, steady⟩ := steady
  cases call with
  | write response outcomes =>
    obtain rfl := Option.some.inj taken
    exact write_inStep_iff inv inStep (steady 0)
  | ready outcomes =>
    obtain ⟨inside, same⟩ := Option.ite_none_right_eq_some.mp taken
    obtain rfl := Option.some.inj same
    exact iff_of_true (ready_inStep inv inStep inside (steady 0)) trivial

theorem epollCall_eq {steady : SteadyCall} {s t : Sending} (taken : s.epollCall steady = some t) :
    t = s.call steady.call := by
  obtain ⟨call, steady⟩ := steady
  cases call with
  | write response outcomes => exact (Option.some.inj taken).symm
  | ready outcomes => exact (Option.some.inj (Option.ite_none_right_eq_some.mp taken).2).symm

/-- In a run of calls the registration is in step in every state exactly if no write that finds an earlier
message unsent empties the buffer. -/
theorem registration_iff (run : List SteadyCall) :
    EachState epollCall InStep run {} ↔ EachStep epollCall LeavesSome run {} := by
  have preserved : ∀ (s : Sending) steady t, s.Sound → s.epollCall steady = some t → t.Sound := by
    intro s steady t sound taken
    rw [epollCall_eq taken]
    exact sound.call steady.call
  refine eachState_iff preserved ?_ sound_start ⟨rfl, by simp⟩
  intro s steady t sound inStep taken
  exact inStep_iff sound.inv inStep taken

/-- The second write sends what the first one has left, and the third one adds the writer once more. -/
def threeWrites : List SteadyCall :=
  [.write [97] .retry nofun, .write [98] (.taken 2) nofun, .write [99] .retry nofun]

theorem threeWrites_refused : ¬EachState epollCall InStep threeWrites {} := by
  intro each
  have first : ({} : Sending).write [97] (fun _ => .retry) = ⟨⟨[97], 0⟩, true, false, [], [[97]]⟩ := by
    simp [write, tryWriteAll_eq, turn, doWrite, take, addWriter]
  have second : write ⟨⟨[97], 0⟩, true, false, [], [[97]]⟩ [98] (fun _ => .taken 2) =
      ⟨⟨[], 0⟩, true, false, [97, 98], [[97], [98]]⟩ := by
    simp [write, tryWriteAll_eq, turn, doWrite, take]
  have third : write ⟨⟨[], 0⟩, true, false, [97, 98], [[97], [98]]⟩ [99] (fun _ => .retry) =
      ⟨⟨[99], 0⟩, true, true, [97, 98], [[97], [98], [99]]⟩ := by
    simp [write, tryWriteAll_eq, turn, doWrite, take, addWriter]
  have runs : runAll epollCall threeWrites {} =
      some (write (write (write {} [97] fun _ => .retry) [98] fun _ => .taken 2) [99] fun _ => .retry) := rfl
  rw [first, second, third] at runs
  have last := (eachState_last each runs).neverRefused
  cases last

end Sending

end Vanity.Net
