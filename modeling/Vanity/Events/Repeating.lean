import Vanity.Events.Loop
import Mathlib.Data.Finset.Card

/-!
# Repeated events

A thread takes the registered event that is due first out of the queue, sleeps until then, pushes it and puts
it back for its next time. The clock counts nanoseconds; what is slept is cut down to microseconds.
-/

namespace Vanity.Repeat

open Events (ServerEvent)

/-- What `repeat` registers: the interval is in microseconds. -/
structure Repeated where
  interval : ℕ
  event : ServerEvent
  deriving DecidableEq

/-- The interval on the clock. -/
def Repeated.period (repeated : Repeated) : ℕ := 1000 * repeated.interval

variable {I : Type}

/-- `repeat_loop`: not started, before `top`, in `wait`, after a `wait` that timed out, and after its end. -/
inductive Loop (I : Type) where
  | off
  | idle
  | waiting (id : I) (limit : ℕ)
  | firing (id : I)
  | returned
  deriving DecidableEq

/-- The event that is out of the queue. -/
def Loop.current : Loop I → Option I
  | .waiting id _ => some id
  | .firing id => some id
  | _ => none

/-- An event that was pushed: when it was due, and when it was pushed. -/
structure Firing (I : Type) where
  id : I
  due : ℕ
  moment : ℕ
  deriving DecidableEq

structure State (I : Type) where
  queue : Finset I
  next : I → ℕ
  stopped : Bool
  loop : Loop I
  clock : ℕ
  /-- When the loop was started, what it has pushed since, and how often it came to an end. -/
  origin : ℕ
  fired : List (Firing I)
  sessions : ℕ

inductive Action (I : Type) where
  | start (now : ℕ)
  | top (id : I) (now : ℕ)
  | timeout (now : ℕ)
  | push (now : ℕ)
  | stop
  | leave
  | join

variable [DecidableEq I] (registered : I → Repeated)

/-- `start` up to the end of `reset_events`. -/
def State.reset (s : State I) (now : ℕ) : State I :=
  { s with
    stopped := false
    clock := now
    origin := now
    fired := []
    next := fun id => now + (registered id).period
    loop := if s.queue = ∅ then .returned else .idle }

/-- `top` and `pop`, and the time until which `wait` sleeps. -/
def State.pop (s : State I) (id : I) (now : ℕ) : State I :=
  { s with
    queue := s.queue.erase id
    clock := now
    loop := .waiting id (now + (s.next id - now) / 1000 * 1000) }

/-- `push_event` and `emplace`. -/
def State.push (s : State I) (id : I) (now : ℕ) : State I :=
  { s with
    queue := insert id s.queue
    next := Function.update s.next id (s.next id + (registered id).period)
    clock := now
    loop := .idle
    fired := s.fired ++ [⟨id, s.next id, now⟩] }

def step (s : State I) : Action I → Option (State I)
  | .start now => if s.loop = .off ∧ s.clock ≤ now then some (s.reset registered now) else none
  | .top id now =>
    -- `operator<` turns the priority queue around, and which one of several is the top is not said
    if s.loop = .idle ∧ s.clock ≤ now ∧ id ∈ s.queue ∧ ∀ other ∈ s.queue, s.next id ≤ s.next other then
      some (s.pop id now)
    else none
  | .timeout now =>
    match s.loop with
    | .waiting id limit =>
      if s.stopped = false ∧ s.clock ≤ now ∧ limit ≤ now then some { s with clock := now, loop := .firing id } else none
    | _ => none
  | .push now =>
    match s.loop with
    | .firing id => if s.clock ≤ now then some (s.push registered id now) else none
    | _ => none
  | .stop => if s.loop = .off then none else some { s with stopped := true }
  | .leave =>
    match s.loop with
    | .waiting _ _ => if s.stopped then some { s with loop := .returned } else none
    | _ => none
  | .join =>
    if s.loop = .returned ∧ s.stopped then some { s with loop := .off, sessions := s.sessions + 1 } else none

/-- All events are registered, and the loop is not started. -/
def start [Fintype I] (clock : ℕ) : State I where
  queue := Finset.univ
  next id := clock + (registered id).period
  stopped := false
  loop := .off
  clock
  origin := clock
  fired := []
  sessions := 0

variable {registered} {s t : State I}

/-! ### What a step does -/

/-- The steps, each with what it needs. -/
inductive Steps (registered : I → Repeated) (s : State I) : Action I → State I → Prop where
  | start (now : ℕ) (off : s.loop = .off) (later : s.clock ≤ now) :
      Steps registered s (.start now) (s.reset registered now)
  | top (id : I) (now : ℕ) (idle : s.loop = .idle) (later : s.clock ≤ now) (member : id ∈ s.queue)
      (first : ∀ other ∈ s.queue, s.next id ≤ s.next other) : Steps registered s (.top id now) (s.pop id now)
  | timeout (id : I) (limit now : ℕ) (waiting : s.loop = .waiting id limit) (later : s.clock ≤ now) (over_ : limit ≤ now) :
      Steps registered s (.timeout now) { s with clock := now, loop := .firing id }
  | push (id : I) (now : ℕ) (firing : s.loop = .firing id) (later : s.clock ≤ now) :
      Steps registered s (.push now) (s.push registered id now)
  | stop (on : s.loop ≠ .off) : Steps registered s .stop { s with stopped := true }
  | leave (id : I) (limit : ℕ) (waiting : s.loop = .waiting id limit) :
      Steps registered s .leave { s with loop := .returned }
  | join (returned : s.loop = .returned) :
      Steps registered s .join { s with loop := .off, sessions := s.sessions + 1 }

theorem step_cases {action : Action I} (taken : step registered s action = some t) : Steps registered s action t := by
  cases action with
  | start now =>
    simp only [step, Option.ite_none_right_eq_some] at taken
    obtain ⟨⟨off, later⟩, taken⟩ := taken
    cases taken
    exact .start now off later
  | top id now =>
    simp only [step, Option.ite_none_right_eq_some] at taken
    obtain ⟨⟨idle, later, member, first⟩, taken⟩ := taken
    cases taken
    exact .top id now idle later member first
  | timeout now =>
    simp only [step] at taken
    split at taken
    · rename_i id limit waiting
      obtain ⟨⟨_, later, over_⟩, taken⟩ := Option.ite_none_right_eq_some.mp taken
      cases taken
      exact .timeout id limit now waiting later over_
    · cases taken
  | push now =>
    simp only [step] at taken
    split at taken
    · rename_i id firing
      obtain ⟨later, taken⟩ := Option.ite_none_right_eq_some.mp taken
      cases taken
      exact .push id now firing later
    · cases taken
  | stop =>
    simp only [step, Option.ite_none_left_eq_some] at taken
    obtain ⟨on, taken⟩ := taken
    cases taken
    exact .stop on
  | leave =>
    simp only [step] at taken
    split at taken
    · rename_i id limit waiting
      obtain ⟨_, taken⟩ := Option.ite_none_right_eq_some.mp taken
      cases taken
      exact .leave id limit waiting
    · cases taken
  | join =>
    simp only [step, Option.ite_none_right_eq_some] at taken
    obtain ⟨⟨returned, _⟩, taken⟩ := taken
    cases taken
    exact .join returned

/-! ### The times of the pushes -/

/-- The times for which the event was pushed. -/
def State.dues (s : State I) (id : I) : List ℕ := (s.fired.filter (·.id = id)).map (·.due)

/-- The event is repeated. -/
def State.Holds (s : State I) (id : I) : Prop := id ∈ s.queue ∨ s.loop.current = some id

structure Inv (registered : I → Repeated) (s : State I) : Prop where
  schedule : ∀ id, s.dues id =
    (List.range (s.dues id).length).map fun k => s.origin + (k + 1) * (registered id).period
  upcoming : ∀ id, s.Holds id → s.next id = s.origin + ((s.dues id).length + 1) * (registered id).period
  sorted : s.fired.Pairwise (·.due ≤ ·.due)
  behind : ∀ firing ∈ s.fired, ∀ id, s.Holds id → firing.due ≤ s.next id
  first : ∀ id, s.loop.current = some id → ∀ other ∈ s.queue, s.next id ≤ s.next other
  out : ∀ id, s.loop.current = some id → id ∉ s.queue
  waits : ∀ id limit, s.loop = .waiting id limit → s.next id < limit + 1000
  fires : ∀ id, s.loop = .firing id → s.next id < s.clock + 1000
  punctual : ∀ firing ∈ s.fired, firing.due < firing.moment + 1000
  some_ : s.loop = .idle → s.queue.Nonempty

theorem start_inv [Fintype I] (clock : ℕ) : Inv registered (start registered clock) where
  schedule _ := rfl
  upcoming _ _ := by simp [start, State.dues]
  sorted := .nil
  behind _ member := by cases member
  first _ now := by cases now
  out _ now := by cases now
  waits _ _ now := by cases now
  fires _ now := by cases now
  punctual _ member := by cases member
  some_ idle := by cases idle

theorem reset_inv (now : ℕ) : Inv registered (s.reset registered now) where
  schedule _ := rfl
  upcoming _ _ := by simp [State.dues, State.reset]
  sorted := .nil
  behind _ member := by cases member
  first id now := by
    dsimp only [State.reset] at now
    split at now <;> cases now
  out id now := by
    dsimp only [State.reset] at now
    split at now <;> cases now
  waits id limit now := by
    dsimp only [State.reset] at now
    split at now <;> cases now
  fires id now := by
    dsimp only [State.reset] at now
    split at now <;> cases now
  punctual _ member := by cases member
  some_ idle := by
    dsimp only [State.reset] at idle
    split at idle
    · cases idle
    · rename_i some_
      exact Finset.nonempty_iff_ne_empty.mpr some_

theorem top_inv (inv : Inv registered s) {id : I} {now : ℕ} (member : id ∈ s.queue)
    (first : ∀ other ∈ s.queue, s.next id ≤ s.next other) : Inv registered (s.pop id now) := by
  have held : ∀ other, (s.pop id now).Holds other → s.Holds other := by
    rintro other (kept | same)
    · exact .inl (Finset.mem_of_mem_erase kept)
    · cases same
      exact .inl member
  constructor
  case schedule => exact inv.schedule
  case upcoming => exact fun other holds => inv.upcoming other (held other holds)
  case sorted => exact inv.sorted
  case behind => exact fun firing fired other holds => inv.behind firing fired other (held other holds)
  case first =>
    intro other same later kept
    cases same
    exact first later (Finset.mem_of_mem_erase kept)
  case out =>
    intro other same
    cases same
    exact Finset.notMem_erase id s.queue
  case waits =>
    intro other limit same
    cases same
    -- the sleep is cut down to whole microseconds
    show s.next id < now + (s.next id - now) / 1000 * 1000 + 1000
    omega
  case fires => exact fun _ firing => by cases firing
  case punctual => exact inv.punctual
  case some_ => exact fun idle => by cases idle

theorem push_dues (id : I) (now : ℕ) : (s.push registered id now).dues id = s.dues id ++ [s.next id] := by
  simp [State.dues, State.push]

theorem push_dues_other {id other : I} (different : other ≠ id) (now : ℕ) :
    (s.push registered id now).dues other = s.dues other := by
  simp [State.dues, State.push, Ne.symm different]

theorem push_next_le (id other : I) (now : ℕ) : s.next other ≤ (s.push registered id now).next other := by
  show _ ≤ Function.update s.next id _ other
  by_cases same : other = id
  · subst same
    rw [Function.update_self]
    omega
  · rw [Function.update_of_ne same]

theorem push_inv (inv : Inv registered s) {id : I} {now : ℕ} (firing : s.loop = .firing id) (later : s.clock ≤ now) :
    Inv registered (s.push registered id now) := by
  have current : s.loop.current = some id := by rw [firing]; rfl
  have held : ∀ other, (s.push registered id now).Holds other → s.Holds other := by
    rintro other (kept | same)
    · rcases Finset.mem_insert.mp kept with rfl | kept
      · exact .inr current
      · exact .inl kept
    · cases same
  -- the event that was out was due before all others
  have soonest : ∀ other, s.Holds other → s.next id ≤ s.next other := by
    rintro other (queued | same)
    · exact inv.first id current other queued
    · cases current.symm.trans same
      exact le_rfl
  have due := inv.upcoming id (.inr current)
  constructor
  case schedule =>
    intro other
    by_cases same : other = id
    · subst same
      rw [push_dues, List.length_append, List.length_singleton, List.range_succ, List.map_append, due]
      exact congrArg (· ++ _) (inv.schedule other)
    · rw [push_dues_other same]
      exact inv.schedule other
  case upcoming =>
    intro other holds
    show Function.update s.next id _ other = s.origin + _
    by_cases same : other = id
    · subst same
      rw [push_dues, List.length_append, List.length_singleton, Function.update_self, due, Nat.add_assoc,
        ← Nat.succ_mul]
    · rw [push_dues_other same, Function.update_of_ne same]
      exact inv.upcoming other (held other holds)
  case sorted =>
    refine List.pairwise_append.mpr ⟨inv.sorted, List.pairwise_singleton .., ?_⟩
    intro earlier fired new same
    rw [List.mem_singleton.mp same]
    exact inv.behind earlier fired id (.inr current)
  case behind =>
    intro earlier fired other holds
    refine le_trans ?_ (push_next_le id other now)
    rcases List.mem_append.mp fired with fired | new
    · exact inv.behind earlier fired other (held other holds)
    · rw [List.mem_singleton.mp new]
      exact soonest other (held other holds)
  case first => exact fun _ same => by cases same
  case out => exact fun _ same => by cases same
  case waits => exact fun _ _ same => by cases same
  case fires => exact fun _ same => by cases same
  case punctual =>
    intro earlier fired
    rcases List.mem_append.mp fired with fired | new
    · exact inv.punctual earlier fired
    · rw [List.mem_singleton.mp new]
      have close := inv.fires id firing
      show s.next id < now + 1000
      omega
  case some_ => exact fun _ => ⟨id, Finset.mem_insert_self ..⟩

theorem timeout_inv (inv : Inv registered s) {id : I} {limit now : ℕ} (waiting : s.loop = .waiting id limit)
    (over_ : limit ≤ now) : Inv registered { s with clock := now, loop := .firing id } := by
  have current : s.loop.current = some id := by rw [waiting]; rfl
  have held : ∀ other, State.Holds { s with clock := now, loop := .firing id } other → s.Holds other := by
    rintro other (queued | same)
    · exact .inl queued
    · exact .inr (current.trans same)
  have close := inv.waits id limit waiting
  refine ⟨inv.schedule, ?_, inv.sorted, ?_, ?_, ?_, fun _ _ => (nomatch ·), ?_, inv.punctual, (nomatch ·)⟩
  · exact fun other holds => inv.upcoming other (held other holds)
  · exact fun firing fired other holds => inv.behind firing fired other (held other holds)
  · exact fun other same => inv.first other (current.trans same)
  · exact fun other same => inv.out other (current.trans same)
  · intro other same
    cases same
    show s.next id < now + 1000
    omega

/-- The loop ends, or has ended. -/
theorem Inv.rest (inv : Inv registered s) {loop : Loop I} (rests : loop = .returned ∨ loop = .off) (sessions : ℕ) :
    Inv registered { s with loop, sessions } := by
  have nothing : loop.current = none := by rcases rests with rfl | rfl <;> rfl
  have held : ∀ other, State.Holds { s with loop, sessions } other → s.Holds other := by
    rintro other (queued | same)
    · exact .inl queued
    · cases nothing.symm.trans same
  refine ⟨inv.schedule, ?_, inv.sorted, ?_, ?_, ?_, ?_, ?_, inv.punctual, ?_⟩
  · exact fun other holds => inv.upcoming other (held other holds)
  · exact fun firing fired other holds => inv.behind firing fired other (held other holds)
  · exact fun other same => by cases nothing.symm.trans same
  · exact fun other same => by cases nothing.symm.trans same
  · intro other limit same
    rcases rests with rfl | rfl <;> cases same
  · intro other same
    rcases rests with rfl | rfl <;> cases same
  · intro idle
    rcases rests with rfl | rfl <;> cases idle

theorem step_inv {action : Action I} (inv : Inv registered s) (taken : step registered s action = some t) :
    Inv registered t := by
  cases step_cases taken with
  | start now off later => exact reset_inv now
  | top id now idle later member first => exact top_inv inv member first
  | timeout id limit now waiting later over_ => exact timeout_inv inv waiting over_
  | push id now firing later => exact push_inv inv firing later
  | stop on => exact ⟨inv.1, inv.2, inv.3, inv.4, inv.5, inv.6, inv.7, inv.8, inv.9, inv.10⟩
  | leave id limit waiting => exact inv.rest (.inl rfl) s.sessions
  | join returned => exact inv.rest (.inr rfl) (s.sessions + 1)

/-- An event that was pushed at all was last pushed for the time before its next one. -/
theorem Inv.fair (inv : Inv registered s) (id : I) {other : I} (holds : s.Holds other) :
    (s.dues id).length * (registered id).interval ≤ ((s.dues other).length + 1) * (registered other).interval := by
  cases many : (s.dues id).length with
  | zero =>
    rw [Nat.zero_mul]
    exact Nat.zero_le _
  | succ count =>
    have last : s.origin + (count + 1) * (registered id).period ∈ s.dues id := by
      rw [inv.schedule id, many, List.mem_map]
      exact ⟨count, List.mem_range.mpr (Nat.lt_succ_self count), rfl⟩
    obtain ⟨firing, fired, due⟩ := List.mem_map.mp last
    have before := inv.behind firing (List.mem_of_mem_filter fired) other holds
    rw [due, inv.upcoming other holds, Repeated.period, Repeated.period, Nat.mul_left_comm, Nat.mul_left_comm _ 1000] at before
    omega

/-- Since its start the loop has pushed each event for all its times, one after the other; in the order of
these times, and less than a microsecond early; and no event falls behind another. The queue is not empty
when the loop looks at its top. -/
def OnSchedule (registered : I → Repeated) (s : State I) : Prop :=
  (∀ id, s.dues id = (List.range (s.dues id).length).map fun k => s.origin + (k + 1) * (registered id).period) ∧
    s.fired.Pairwise (·.due ≤ ·.due) ∧
    (∀ firing ∈ s.fired, firing.due < firing.moment + 1000) ∧
    (∀ id other, s.Holds other →
      (s.dues id).length * (registered id).interval ≤ ((s.dues other).length + 1) * (registered other).interval) ∧
    (s.loop = .idle → s.queue.Nonempty)

/-- In every run, with any number of starts and stops. -/
theorem repeated_on_schedule [Fintype I] (registered : I → Repeated) (clock : ℕ) (run : List (Action I)) :
    EachState (step registered) (OnSchedule registered) run (start registered clock) :=
  eachState_of_always (fun _ _ _ inv taken => step_inv inv taken)
    (fun _ inv => ⟨inv.schedule, inv.sorted, inv.punctual, fun id _ holds => inv.fair id holds, inv.some_⟩)
    (start_inv clock)

/-! ### The events that are left -/

section
variable [Fintype I]

/-- A loop that ends does not put back the event it has waited for. -/
def Left (s : State I) : Prop :=
  match s.loop with
  | .returned => s.queue.card = Fintype.card I - s.sessions - 1
  | .waiting _ _ => s.queue.card + 1 = Fintype.card I - s.sessions
  | .firing _ => s.queue.card + 1 = Fintype.card I - s.sessions
  | _ => s.queue.card = Fintype.card I - s.sessions

theorem step_left {action : Action I} (inv : Inv registered s) (left : Left s)
    (taken : step registered s action = some t) : Left t := by
  cases step_cases taken with
  | start now off later =>
    simp only [Left, off] at left
    by_cases empty : s.queue = ∅
    · simp only [Left, State.reset, empty, if_true, Finset.card_empty]
      rw [empty, Finset.card_empty] at left
      omega
    · simp only [Left, State.reset, empty, if_false]
      exact left
  | top id now idle later member first =>
    simp only [Left, idle] at left
    show (s.queue.erase id).card + 1 = _
    rw [Finset.card_erase_add_one member]
    exact left
  | timeout id limit now waiting later over_ =>
    simp only [Left, waiting] at left
    exact left
  | push id now firing later =>
    have out := inv.out id (by rw [firing]; rfl)
    simp only [Left, firing] at left
    show (insert id s.queue).card = _
    rw [Finset.card_insert_of_notMem out]
    exact left
  | stop on => exact left
  | leave id limit waiting =>
    simp only [Left, waiting] at left
    show s.queue.card = _ - s.sessions - 1
    omega
  | join returned =>
    simp only [Left, returned] at left
    show s.queue.card = _ - (s.sessions + 1)
    omega

/-- Each time the loop is stopped one event is left out of the next one. -/
theorem stop_loses_event (registered : I → Repeated) (clock : ℕ) (run : List (Action I)) :
    EachState (step registered) (fun s => s.loop = .off → s.queue.card = Fintype.card I - s.sessions) run
      (start registered clock) := by
  have preserved : ∀ (s : State I) (action : Action I) (t : State I), Inv registered s ∧ Left s →
      step registered s action = some t → Inv registered t ∧ Left t :=
    fun _ _ _ both taken => ⟨step_inv both.1 taken, step_left both.1 both.2 taken⟩
  refine eachState_of_always preserved (fun s both off => ?_) ⟨start_inv clock, Finset.card_univ⟩
  have left := both.2
  simpa only [Left, off] using left

end

end Vanity.Repeat
