import Vanity.Library.Runs
import Mathlib.Data.Fintype.Basic
import Mathlib.Logic.Function.Basic
import Mathlib.Order.Basic

/-!
# The lock file

`FileLock`, which `Server::run` holds while the server runs. Any number of processes on one directory, each
of which may end at any time; between two system calls of one any other may act. The constructor of `Server`
comes before the lock, so that nothing here keeps two processes from recovering side by side.
-/

namespace Vanity.FileLock

/-- A file by its inode. The path of the lock file may come to name another one while a file is open. -/
abbrev File := Nat

/-! The ids of processes are those of any type. -/

variable {P : Type}

/-- Where a process is: nowhere, in no server, in `Server` before its lock, in the constructor of the lock, in
`run` with it, or in `main` after it. `writing`, `written` and `holding` have `m_fd`. -/
inductive Process (P : Type) where
  | absent
  | stranger
  | starting
  | reading (file : File)
  | judging (pid : P)
  | removing
  | creating
  | writing (fd : File)
  | written (fd os : File)
  | holding (fd : File)
  | ending
  deriving DecidableEq

/-- The files by their texts: a process id, or no text that starts with one. -/
structure State (P : Type) where
  processes : P → Process P
  lockFile : Option File
  text : File → Option P
  unused : File

namespace State

/-- `open` with `O_CREAT`, where the path names no file. -/
def create (s : State P) : State P :=
  { s with lockFile := some s.unused, text := Function.update s.text s.unused none, unused := s.unused + 1 }

variable [DecidableEq P]

def set (s : State P) (p : P) (process : Process P) : State P :=
  { s with processes := Function.update s.processes p process }

def isAlive (s : State P) (pid : P) : Bool := decide (s.processes pid ≠ .absent)

/-- The next step of a server process: `delete_if_owner_dead` to `removing`, `open` and `write_pid`, and for a process
that holds the lock the destructor. -/
def go (s : State P) (p : P) : Option (State P) :=
  match s.processes p with
  | .absent | .stranger => none
  | .starting =>
    match s.lockFile with
    | none => some (s.set p .creating)
    | some file => some (s.set p (.reading file))
  | .reading file =>
    match s.text file with
    | none => some (s.set p .removing)
    | some pid => some (s.set p (.judging pid))
  | .judging pid => some (s.set p (if s.isAlive pid then .creating else .removing))
  | .removing => some ({ s with lockFile := none }.set p .creating)
  | .creating =>
    match s.lockFile with
    | none => some (s.create.set p (.writing s.unused))
    -- the exception that the lock is already acquired leaves `main`
    | some _ => some (s.set p .absent)
  | .writing fd =>
    match s.lockFile with
    | none => some (s.create.set p (.written fd s.unused))
    | some file => some ({ s with text := Function.update s.text file none }.set p (.written fd file))
  | .written fd os => some ({ s with text := Function.update s.text os (some p) }.set p (.holding fd))
  | .holding _ => some ({ s with lockFile := none }.set p .ending)
  | .ending => some (s.set p .absent)

end State

inductive Action (P : Type) where
  | start (p : P)
  | appear (p : P)
  | go (p : P)
  /-- A process ends, by a signal, by an exception or because it is done. -/
  | crash (p : P)

def step [DecidableEq P] (s : State P) : Action P → Option (State P)
  | .start p => if s.processes p = .absent then some (s.set p .starting) else none
  | .appear p => if s.processes p = .absent then some (s.set p .stranger) else none
  | .go p => s.go p
  | .crash p => some (s.set p .absent)

/-- A directory with no lock file, and no process. -/
def start : State P where
  processes _ := .absent
  lockFile := none
  text _ := none
  unused := 0

/-- Between the first and the last step of the constructor. -/
def Process.constructs : Process P → Bool
  | .reading _ | .judging _ | .removing | .creating | .writing _ | .written .. => true
  | _ => false

def Process.fd : Process P → Option File
  | .writing fd | .written fd _ | .holding fd => some fd
  | _ => none

/-- No process comes to the constructor while another is in it. -/
def OneByOne (s : State P) : Action P → Prop
  | .go p => s.processes p = .starting → ∀ q, (s.processes q).constructs = false
  | _ => True

/-- One process at most holds the lock, and then the lock file is there and names it. -/
structure Exclusive (s : State P) : Prop where
  sole : ∀ {p q fd fd'}, s.processes p = .holding fd → s.processes q = .holding fd' → p = q
  named : ∀ {p fd}, s.processes p = .holding fd → ∃ file, s.lockFile = some file ∧ s.text file = some p

/-! ### The invariant -/

/-- What a process that constructs knows of one that holds. -/
def Knows (s : State P) (p q : P) (fd : File) : Prop :=
  match s.processes p with
  | .reading file => file = fd
  | .judging pid => pid = q
  | .removing => False
  | _ => True

structure Inv (s : State P) : Prop where
  one : ∀ {p q}, (s.processes p).constructs = true → (s.processes q).constructs = true → p = q
  sole : ∀ {p q}, (s.processes p).fd ≠ none → (s.processes q).fd ≠ none → p = q
  own : ∀ {p fd}, (s.processes p).fd = some fd → s.lockFile = some fd
  os : ∀ {p fd os}, s.processes p = .written fd os → os = fd
  text : ∀ {p fd}, s.processes p = .holding fd → s.text fd = some p
  knows : ∀ {p q fd}, s.processes q = .holding fd → Knows s p q fd

theorem Inv.exclusive {s : State P} (inv : Inv s) : Exclusive s where
  sole mine theirs := inv.sole (by simp [mine, Process.fd]) (by simp [theirs, Process.fd])
  named holds := ⟨_, inv.own (by rw [holds]; rfl), inv.text holds⟩

theorem start_inv : Inv (start : State P) where
  one constructs := by simp [start, Process.constructs] at constructs
  sole locked := absurd rfl locked
  own locked := by simp [start, Process.fd] at locked
  os written := by simp [start] at written
  text holds := by simp [start] at holds
  knows holds := by simp [start] at holds

section
variable {s : State P} {p q : P} {process : Process P}

theorem knows_of_not_constructs {fd : File} (still : (s.processes p).constructs = false) : Knows s p q fd := by
  unfold Knows
  cases at_ : s.processes p with
  | reading _ | judging _ | removing => simp [at_, Process.constructs] at still
  | _ => trivial

theorem constructs_or_holding {fd : File} (locked : process.fd = some fd) :
    process.constructs = true ∨ process = .holding fd := by
  cases process <;> simp_all [Process.fd, Process.constructs]

theorem Inv.one_of (inv : Inv s) (at_ : s.processes p = process) (constructs : process.constructs = true)
    (q : P) (other : (s.processes q).constructs = true) : q = p :=
  inv.one other (at_ ▸ constructs)

theorem Inv.others_idle (inv : Inv s) (at_ : s.processes p = process) (constructs : process.constructs = true)
    (q : P) (other : q ≠ p) : (s.processes q).constructs = false := by
  by_contra constructing
  exact other (inv.one_of at_ constructs q (Bool.not_eq_false _ ▸ constructing))

theorem Inv.others_unlocked (inv : Inv s) (at_ : s.processes p = process) (locked : process.fd ≠ none)
    (q : P) (other : q ≠ p) : (s.processes q).fd = none := by
  by_contra has
  exact other (inv.sole has (at_ ▸ locked))

theorem Inv.unlocked (inv : Inv s) (none_ : s.lockFile = none) (q : P) : (s.processes q).fd = none := by
  cases has : (s.processes q).fd with
  | none => rfl
  | some fd =>
    have there := inv.own has
    rw [none_] at there
    cases there

end

@[simp]
theorem create_processes (s : State P) : s.create.processes = s.processes := rfl

variable [DecidableEq P]

section
variable {s : State P} {p q : P} {process : Process P}

@[simp]
theorem set_processes (s : State P) (p q : P) (process : Process P) :
    (s.set p process).processes q = if q = p then process else s.processes q := Function.update_apply ..

@[simp]
theorem set_lockFile (s : State P) (p : P) (process : Process P) : (s.set p process).lockFile = s.lockFile := rfl

@[simp]
theorem set_text (s : State P) (p : P) (process : Process P) : (s.set p process).text = s.text := rfl

/-- A process that has no lock moves, and the files stay. -/
theorem Inv.move (inv : Inv s) (loses : process.fd = none)
    (alone : process.constructs = true → ∀ q, (s.processes q).constructs = true → q = p)
    (knows : ∀ q fd, q ≠ p → s.processes q = .holding fd → Knows (s.set p process) p q fd) :
    Inv (s.set p process) where
  one {q r} mine theirs := by
    by_cases here : q = p <;> by_cases there : r = p <;>
      simp only [set_processes, here, there, if_true, if_false] at mine theirs
    · rw [here, there]
    · exact here.trans (alone mine r theirs).symm
    · exact (alone theirs q mine).trans there.symm
    · exact inv.one mine theirs
  sole {q r} mine theirs := by
    by_cases here : q = p
    · simp [here, loses] at mine
    · by_cases there : r = p
      · simp [there, loses] at theirs
      · simp only [set_processes, here, there, if_false] at mine theirs
        exact inv.sole mine theirs
  own {q fd} locked := by
    by_cases here : q = p
    · simp [here, loses] at locked
    · simp only [set_processes, here, if_false] at locked
      exact inv.own locked
  os {q fd os} written := by
    by_cases here : q = p
    · simp only [set_processes, here, if_true] at written
      simp [written, Process.fd] at loses
    · simp only [set_processes, here, if_false] at written
      exact inv.os written
  text {q fd} holds := by
    by_cases here : q = p
    · simp only [set_processes, here, if_true] at holds
      simp [holds, Process.fd] at loses
    · simp only [set_processes, here, if_false] at holds
      exact inv.text holds
  knows {q r fd} holds := by
    by_cases there : r = p
    · simp only [set_processes, there, if_true] at holds
      simp [holds, Process.fd] at loses
    · simp only [set_processes, there, if_false] at holds
      by_cases here : q = p
      · subst here
        exact knows r fd there holds
      · have same : (s.set p process).processes q = s.processes q := by simp [here]
        unfold Knows
        rw [same]
        exact inv.knows holds

/-- A process moves and no other one has the lock. -/
theorem Inv.alone {t : State P} (inv : Inv s) (moved : t.processes = Function.update s.processes p process)
    (others : ∀ q, q ≠ p → (s.processes q).fd = none)
    (alone : ∀ q, q ≠ p → process.constructs = true ∨ process.fd ≠ none → (s.processes q).constructs = false)
    (own : ∀ fd, process.fd = some fd → t.lockFile = some fd) (os : ∀ fd os, process = .written fd os → os = fd)
    (text : ∀ fd, process = .holding fd → t.text fd = some p) : Inv t := by
  have mine : t.processes p = process := by simp [moved]
  have theirs : ∀ q, q ≠ p → t.processes q = s.processes q := fun q other => by simp [moved, other]
  have locked : ∀ q, (t.processes q).fd ≠ none → q = p := by
    intro q locked
    by_contra other
    rw [theirs q other] at locked
    exact locked (others q other)
  have holding : ∀ q fd, t.processes q = .holding fd → q = p := fun q fd holds =>
    locked q (by simp [holds, Process.fd])
  refine ⟨fun {q r} one other => ?_, fun {q r} one other => ?_, ?_, ?_, ?_, ?_⟩
  · by_cases here : q = p <;> by_cases there : r = p
    · rw [here, there]
    · rw [here, mine] at one
      rw [theirs r there, alone r there (.inl one)] at other
      cases other
    · rw [there, mine] at other
      rw [theirs q here, alone q here (.inl other)] at one
      cases one
    · rw [theirs q here] at one
      rw [theirs r there] at other
      exact inv.one one other
  · exact (locked q one).trans (locked r other).symm
  · intro q fd has
    obtain rfl := locked q (by simp [has])
    exact own fd (mine ▸ has)
  · intro q fd file written
    obtain rfl := locked q (by simp [written, Process.fd])
    exact os fd file (mine ▸ written)
  · intro q fd holds
    obtain rfl := holding q fd holds
    exact text fd (mine ▸ holds)
  · intro q r fd holds
    obtain rfl := holding r fd holds
    by_cases here : q = r
    · subst here
      unfold Knows
      rw [holds]
      trivial
    · apply knows_of_not_constructs
      rw [theirs q here]
      exact alone q here (.inr (by simp [← mine, holds, Process.fd]))

end

/-! ### Steps -/

section
variable {s t : State P} {p : P}

theorem go_inv (inv : Inv s) (alone : s.processes p = .starting → ∀ q, (s.processes q).constructs = false)
    (goes : s.go p = some t) : Inv t := by
  unfold State.go at goes
  cases at_ : s.processes p with
  | absent => simp [at_] at goes
  | stranger => simp [at_] at goes
  | starting =>
    have idle := alone at_
    simp only [at_] at goes
    cases file : s.lockFile with
    | none =>
      simp only [file, Option.some.injEq] at goes
      subst goes
      exact inv.move rfl (fun _ q busy => absurd busy (by simp [idle q])) fun q fd _ _ => by simp [Knows]
    | some file' =>
      simp only [file, Option.some.injEq] at goes
      subst goes
      refine inv.move rfl (fun _ q busy => absurd busy (by simp [idle q])) fun q fd _ holds => ?_
      have own : s.lockFile = some fd := inv.own (by rw [holds]; rfl)
      simpa [Knows, own] using file.symm
  | reading file =>
    have known : ∀ q fd, s.processes q = .holding fd → file = fd := fun q fd holds => by
      simpa [Knows, at_] using inv.knows (p := p) holds
    have only := inv.one_of at_ rfl
    simp only [at_] at goes
    cases text : s.text file with
    | none =>
      simp only [text, Option.some.injEq] at goes
      subst goes
      refine inv.move rfl (fun _ => only) fun q fd _ holds => ?_
      have named := inv.text holds
      rw [← known q fd holds, text] at named
      cases named
    | some pid =>
      simp only [text, Option.some.injEq] at goes
      subst goes
      refine inv.move rfl (fun _ => only) fun q fd _ holds => ?_
      have named := inv.text holds
      rw [← known q fd holds, text] at named
      simpa [Knows] using named
  | judging pid =>
    have known : ∀ q fd, s.processes q = .holding fd → pid = q := fun q fd holds => by
      simpa [Knows, at_] using inv.knows (p := p) holds
    simp only [at_, Option.some.injEq] at goes
    subst goes
    refine inv.move (by split <;> rfl) (fun _ => inv.one_of at_ rfl) fun q fd _ holds => ?_
    have alive : s.isAlive pid = true := by simp [State.isAlive, known q fd holds, holds]
    simp [Knows, alive]
  | removing =>
    have others : ∀ q, q ≠ p → (s.processes q).fd = none := by
      intro q other
      cases has : (s.processes q).fd with
      | none => rfl
      | some fd =>
        rcases constructs_or_holding has with busy | holds
        · exact absurd (inv.one_of at_ rfl q busy) other
        · have known := inv.knows (p := p) holds
          simp [Knows, at_] at known
    simp only [at_, Option.some.injEq] at goes
    subst goes
    exact inv.alone rfl others (fun q other _ => inv.others_idle at_ rfl q other) (fun _ has => by cases has)
      (fun _ _ is => by cases is) (fun _ is => by cases is)
  | creating =>
    simp only [at_] at goes
    cases file : s.lockFile with
    | none =>
      simp only [file, Option.some.injEq] at goes
      subst goes
      refine inv.alone rfl (fun q _ => inv.unlocked file q) (fun q other _ => inv.others_idle at_ rfl q other) ?_
        (fun _ _ is => by cases is) (fun _ is => by cases is)
      intro fd has
      obtain rfl := Option.some.inj has
      rfl
    | some file' =>
      simp only [file, Option.some.injEq] at goes
      subst goes
      exact inv.move rfl (fun constructs => by cases constructs) fun q fd _ _ => by simp [Knows]
  | writing fd =>
    have own : s.lockFile = some fd := inv.own (by rw [at_]; rfl)
    simp only [at_, own, Option.some.injEq] at goes
    subst goes
    refine inv.alone rfl (inv.others_unlocked at_ (fun none_ => by cases none_))
      (fun q other _ => inv.others_idle at_ rfl q other) ?_ ?_ (fun _ is => by cases is)
    · intro fd' has
      obtain rfl := Option.some.inj has
      rfl
    · intro fd' os written
      cases written
      rfl
  | written fd os =>
    obtain rfl := inv.os at_
    simp only [at_, Option.some.injEq] at goes
    subst goes
    refine inv.alone rfl (inv.others_unlocked at_ (fun none_ => by cases none_))
      (fun q other _ => inv.others_idle at_ rfl q other) ?_ (fun _ _ is => by cases is) ?_
    · intro fd' has
      obtain rfl := Option.some.inj has
      exact inv.own (by rw [at_]; rfl)
    · intro fd' holds
      cases holds
      exact Function.update_self ..
  | holding fd =>
    simp only [at_, Option.some.injEq] at goes
    subst goes
    refine inv.alone rfl (inv.others_unlocked at_ (fun none_ => by cases none_)) ?_ (fun _ has => by cases has)
      (fun _ _ is => by cases is) (fun _ is => by cases is)
    rintro q _ (constructs | locked)
    · cases constructs
    · exact absurd rfl locked
  | ending =>
    simp only [at_, Option.some.injEq] at goes
    subst goes
    exact inv.move rfl (fun constructs => by cases constructs) fun q fd _ _ => by simp [Knows]

theorem step_inv {action : Action P} (inv : Inv s) (alone : OneByOne s action) (taken : step s action = some t) :
    Inv t := by
  have leaves : ∀ p process, process.constructs = false → process.fd = none → Inv (s.set p process) :=
    fun p process out none_ =>
    inv.move none_ (fun constructs => by simp [out] at constructs)
      fun q fd _ _ => knows_of_not_constructs (by simpa using out)
  cases action with
  | start p =>
    obtain ⟨_, same⟩ := Option.ite_none_right_eq_some.mp taken
    obtain rfl := Option.some.inj same
    exact leaves p .starting rfl rfl
  | appear p =>
    obtain ⟨_, same⟩ := Option.ite_none_right_eq_some.mp taken
    obtain rfl := Option.some.inj same
    exact leaves p .stranger rfl rfl
  | go p => exact go_inv inv alone taken
  | crash p =>
    obtain rfl := Option.some.inj taken
    exact leaves p .absent rfl rfl

end

/-- Without `OneByOne` both may hold the lock: one finds the file that the other has created and not yet written to. -/
example : (runAll step [.start true, .start false, .go true, .go true, .go false, .go false, .go false, .go false,
    .go true, .go true, .go false, .go false] start).map (fun t => (t.processes true, t.processes false)) =
    some (.holding 0, .holding 1) := by decide

/-! ### A start alone -/

/-- Steps of one process only. -/
def Alone (s : State P) (p : P) (t : State P) : Prop := ∃ n, runAll step (List.replicate n (.go p)) s = some t

section
variable {s s' t : State P} {p : P}

theorem Alone.refl (s : State P) (p : P) : Alone s p s := ⟨0, rfl⟩

theorem Alone.head (goes : s.go p = some s') (alone : Alone s' p t) : Alone s p t := by
  obtain ⟨n, runs⟩ := alone
  refine ⟨n + 1, ?_⟩
  rw [List.replicate_succ, runAll, show step s (.go p) = some s' from goes]
  exact runs

/-- The process has the lock, its file names it, and the other processes are where they were. -/
structure Acquired (s : State P) (p : P) (t : State P) : Prop where
  named : ∃ fd, t.processes p = .holding fd ∧ t.lockFile = some fd ∧ t.text fd = some p
  others : ∀ q, q ≠ p → t.processes q = s.processes q

theorem creating_acquires (at_ : s.processes p = .creating) (none_ : s.lockFile = none) :
    ∃ t, Alone s p t ∧ Acquired s p t := by
  have create : s.go p = some (s.create.set p (.writing s.unused)) := by simp [State.go, at_, none_]
  refine ⟨_, .head create (.head (by simp [State.go, State.create]; rfl) (.head (by simp [State.go]; rfl) (.refl ..))),
    ?_, ?_⟩
  · exact ⟨s.unused, by simp, by simp, by simp⟩
  · intro q other
    simp [other]

theorem removing_acquires (at_ : s.processes p = .removing) : ∃ t, Alone s p t ∧ Acquired s p t := by
  have remove : s.go p = some ({ s with lockFile := none }.set p .creating) := by simp [State.go, at_]
  obtain ⟨t, alone, named, others⟩ :=
    creating_acquires (s := { s with lockFile := none }.set p .creating) (p := p) (by simp) rfl
  refine ⟨t, .head remove alone, named, fun q other => ?_⟩
  rw [others q other]
  simp [other]

/-- A living process has the id that the lock file names. -/
def Owned (s : State P) : Prop := ∃ file pid, s.lockFile = some file ∧ s.text file = some pid ∧ s.isAlive pid = true

/-- The steps to the judgement leave the files, and all other processes. -/
theorem judged {file : File} {pid : P} (begins : s.processes p = .starting) (there : s.lockFile = some file)
    (text : s.text file = some pid) (next : Alone (s.set p (if s.isAlive pid then .creating else .removing)) p t) :
    Alone s p t := by
  have read : s.go p = some (s.set p (.reading file)) := by simp [State.go, begins, there]
  have twice : ∀ one other, (s.set p one).set p other = s.set p other := by simp [State.set]
  have alive : (s.set p (.judging pid)).isAlive pid = s.isAlive pid := by
    by_cases same : pid = p <;> simp [State.isAlive, same, begins]
  have judge : (s.set p (.reading file)).go p = some (s.set p (.judging pid)) := by simp [State.go, text, twice]
  have decide_ : (s.set p (.judging pid)).go p = some (s.set p (if s.isAlive pid then .creating else .removing)) := by
    simp [State.go, alive, twice]
  exact .head read (.head judge (.head decide_ next))

/-- Alone, a start ends without the lock and leaves all files where its file is owned, and it gets the lock where not. -/
theorem start_alone (begins : s.processes p = .starting) :
    (Owned s → Alone s p (s.set p .absent)) ∧ (¬Owned s → ∃ t, Alone s p t ∧ Acquired s p t) := by
  have later : ∀ {process t}, Acquired (s.set p process) p t → Acquired s p t := fun acquired =>
    ⟨acquired.named, fun q other => by simp [acquired.others q other, other]⟩
  constructor
  · rintro ⟨file, pid, there, text, alive⟩
    refine judged begins there text ?_
    rw [if_pos alive]
    refine .head ?_ (.refl ..)
    simp [State.go, there, State.set]
  · intro free
    cases there : s.lockFile with
    | none =>
      have begin_ : s.go p = some (s.set p .creating) := by simp [State.go, begins, there]
      obtain ⟨t, alone, acquired⟩ := creating_acquires (s := s.set p .creating) (p := p) (by simp) there
      exact ⟨t, .head begin_ alone, later acquired⟩
    | some file =>
      cases text : s.text file with
      | none =>
        have read : s.go p = some (s.set p (.reading file)) := by simp [State.go, begins, there]
        have remove : (s.set p (.reading file)).go p = some (s.set p .removing) := by simp [State.go, text, State.set]
        obtain ⟨t, alone, acquired⟩ := removing_acquires (s := s.set p .removing) (p := p) (by simp)
        exact ⟨t, .head read (.head remove alone), later acquired⟩
      | some pid =>
        have dead : s.isAlive pid = false := by
          by_contra alive
          exact free ⟨file, pid, there, text, by simpa using alive⟩
        obtain ⟨t, alone, acquired⟩ := removing_acquires (s := s.set p .removing) (p := p) (by simp)
        refine ⟨t, judged begins there text ?_, later acquired⟩
        simpa [dead] using alone

end

/-! ### Two processes -/

/-- A server is killed, another one gets the lock, and the first is started again. -/
def startedAgain : List (Action Bool) :=
  [.start true, .go true, .go true, .go true, .go true, .crash true, .start false, .go false, .go false, .go false,
    .go false, .go false, .go false, .go false, .start true]

instance decidableOneByOne [Fintype P] (s : State P) :
    (action : Action P) → Decidable (OneByOne s action)
  | .go p => inferInstanceAs (Decidable (s.processes p = .starting → ∀ q, (s.processes q).constructs = false))
  | .start _ | .appear _ | .crash _ => .isTrue trivial

theorem startedAgain_oneByOne : EachStep step OneByOne startedAgain start := by decide

end Vanity.FileLock
