import Vanity.Library.Runs
import Vanity.Wal.Live
import Vanity.Wal.Snapshot

/-!
# Persisting without a log

`persist_without_wal` of `persist_journal_server.cpp`, and `load_databases` at the next start. The
databases go to a temporary file one after the other, each under its own mutex, and the file takes the
place of the database file when it is complete. Any event thread can persist, and a stream writes on to
its file when another thread has truncated or renamed that.
-/

namespace Vanity.Persist.WithoutLog
open Db Wal

variable {T : Type} [DecidableEq T]

/-- What `write` at an offset makes of a file; a gap before the offset is filled with zeros. -/
def writeAt (content : Bytes) (offset : ℕ) (bytes : Bytes) : Bytes :=
  (content ++ List.replicate (offset - content.length) 0).take offset ++ bytes ++ content.drop (offset + bytes.length)

inductive Task where
  | idle
  /-- `deep_purge_databases` has these still to purge. -/
  | purging (began : ℕ) (rest : List Index)
  /-- `do_persist` has these still to write. -/
  | writing (began inode offset : ℕ) (rest : List Index)

structure Node (T : Type) where
  /-- The databases of the running server. -/
  memory : Option Stores := none
  inodes : ℕ → Bytes := fun _ => []
  unused : ℕ := 0
  tmp : Option ℕ := none
  db : Option ℕ := none
  tasks : T → Task := fun _ => .idle
  /-- The databases at every moment so far; the program does not keep these. -/
  history : List Stores := []
  /-- The moments at which the last complete persist began and ended. -/
  last : Option (ℕ × ℕ) := none

inductive Action (T : Type) where
  | start (junk : Nat → UInt8)
  | event (event : Event)
  | persist (thread : T)
  | purge (thread : T) (env : Env)
  | create (thread : T)
  | write (thread : T) (orders : DbOrder)
  | rename (thread : T)
  | crash

def Node.load (s : Node T) (junk : Nat → UInt8) : Except Exception Databases :=
  loadDatabases junk (s.db.map s.inodes) fun _ => {}

def Node.remember (s : Node T) (stores : Stores) : Node T :=
  { s with memory := some stores, history := s.history ++ [stores] }

def Node.crashed (s : Node T) : Node T := { s with memory := none, tasks := fun _ => .idle }

def Node.become (s : Node T) (thread : T) (task : Task) : Node T :=
  { s with tasks := Function.update s.tasks thread task }

def Node.put (s : Node T) (inode : ℕ) (content : Bytes) : Node T :=
  { s with inodes := Function.update s.inodes inode content }

/-- The file that the stream of `do_persist` opens: the temporary file emptied, or a new one. -/
def Node.truncate (s : Node T) : ℕ × Node T :=
  match s.tmp with
  | some inode => (inode, s.put inode [])
  | none => (s.unused, { s.put s.unused [] with unused := s.unused + 1, tmp := some s.unused })

/-- The temporary file becomes the database file. -/
def Node.exchange (s : Node T) (inode began : ℕ) : Node T :=
  { s with tmp := none, db := some inode, last := some (began, s.history.length) }

def step (s : Node T) : Action T → Option (Node T)
  | .start junk =>
    match s.memory, s.load junk with
    | none, .ok dbs => some (s.remember (storesOf dbs))
    | _, _ => none
  | .event event => do
    let (_, after) ← liveStep event (← s.memory)
    return s.remember after
  | .persist thread =>
    match s.memory, s.tasks thread with
    | some _, .idle => some (s.become thread (.purging (s.history.length - 1) (List.finRange numDatabases)))
    | _, _ => none
  | .purge thread env =>
    match s.memory, s.tasks thread with
    | some stores, .purging began (i :: rest) => do
      let (_, after) ← liveStep (.deepPurge env i) stores
      return (s.become thread (.purging began rest)).remember after
    | _, _ => none
  | .create thread =>
    match s.tasks thread with
    | .purging began [] =>
      some (s.truncate.2.become thread (.writing began s.truncate.1 0 (List.finRange numDatabases)))
    | _ => none
  | .write thread orders =>
    match s.memory, s.tasks thread with
    | some stores, .writing began inode offset (i :: rest) =>
      let bytes := persist i orders (stores i)
      some ((s.put inode (writeAt (s.inodes inode) offset bytes)).become thread
        (.writing began inode (offset + bytes.length) rest))
    | _, _ => none
  | .rename thread =>
    match s.tasks thread, s.tmp with
    | .writing began _ _ [], some inode =>
      some ((s.exchange inode began).become thread .idle)
    -- there is nothing to rename: the exception ends the program
    | .writing _ _ _ [], none => some s.crashed
    | _, _ => none
  | .crash => some s.crashed

/-! ### What is in the database file -/

/-- The database was like this at a moment from `began` on and before `ended`. -/
def Between (history : List Stores) (began ended : ℕ) (i : Index) (store : Store) : Prop :=
  ∃ moment stores, began ≤ moment ∧ moment < ended ∧ history[moment]? = some stores ∧ stores i = store

def Node.Writing (s : Node T) (thread : T) : Prop :=
  ∃ began inode offset rest, s.tasks thread = .writing began inode offset rest

/-- A start succeeds, with each database as it was at a moment of the last complete persist; and a persist
that has written its file will have it to rename. -/
def Node.Whole (s : Node T) : Prop :=
  (∀ junk, ∃ loaded, s.load junk = .ok loaded ∧ ∀ i,
    match s.last with
    | none => (loaded i).store = {}
    | some (began, ended) => Between s.history began ended i (loaded i).store) ∧
  ∀ thread began inode offset, s.tasks thread = .writing began inode offset [] → s.tmp = some inode

/-- The tables have sizes that the program can write. -/
def Node.Fits (s : Node T) : Prop := ∀ stores, s.memory = some stores → ∀ i, SizedStore (stores i)

/-- No thread opens the temporary file while another one still writes to it. -/
def Apart (s : Node T) : Action T → Prop
  | .create _ => ∀ thread, ¬s.Writing thread
  | _ => True

def Allowed (s : Node T) (action : Action T) : Prop :=
  Apart s action ∧ ∀ t, step s action = some t → t.Fits

/-- The file holds these databases, each as it was at some moment. -/
def Image (history : List Stores) (began ended : ℕ) (written : List Index) (bytes : Bytes) : Prop :=
  ∃ (orders : Index → DbOrder) (contents : Index → Contents),
    bytes = written.flatMap (fun i => persist i (orders i) (contents i).store) ∧
      ∀ i ∈ written, Between history began ended i (contents i).store

section
variable {history : List Stores} {began ended : ℕ} {written : List Index} {bytes : Bytes} {stores : Stores} {i : Index}

theorem Between.later {store : Store} (between : Between history began ended i store) (more : List Stores)
    {ended' : ℕ} (le : ended ≤ ended') : Between (history ++ more) began ended' i store := by
  obtain ⟨moment, stores, from_, before, there, same⟩ := between
  refine ⟨moment, stores, from_, before.trans_le le, ?_, same⟩
  rw [List.getElem?_append_left (List.getElem?_eq_some_iff.mp there).1, there]

theorem Image.later (image : Image history began ended written bytes) (more : List Stores) {ended' : ℕ}
    (le : ended ≤ ended') : Image (history ++ more) began ended' written bytes := by
  obtain ⟨orders, contents, same, between⟩ := image
  exact ⟨orders, contents, same, fun i member => (between i member).later more le⟩

theorem image_nil : Image history began ended [] [] :=
  ⟨fun _ => .fixed, fun _ => .empty, rfl, fun _ member => absurd member List.not_mem_nil⟩

theorem Image.snoc (image : Image history began history.length written bytes) (new : i ∉ written)
    (now : history.getLast? = some stores) (begun : began < history.length) (orders : DbOrder)
    (sized : SizedStore (stores i)) :
    Image history began history.length (written ++ [i]) (bytes ++ persist i orders (stores i)) := by
  obtain ⟨others, contents, same, between⟩ := image
  refine ⟨Function.update others i orders, Function.update contents i ⟨stores i, sized⟩, ?_, fun j member => ?_⟩
  · rw [List.flatMap_append, List.flatMap_singleton, Function.update_self, Function.update_self, same]
    congr 1
    refine List.flatMap_congr fun j member => ?_
    have other : j ≠ i := fun same => new (same ▸ member)
    rw [Function.update_of_ne other, Function.update_of_ne other]
  · by_cases same : j = i
    · subst same
      rw [Function.update_self]
      refine ⟨history.length - 1, stores, Nat.le_sub_one_of_lt begun, by omega, ?_, rfl⟩
      rw [← List.getLast?_eq_getElem?, now]
    · rw [Function.update_of_ne same]
      have old : j ∈ written := (List.mem_append.mp member).resolve_right fun last => same (List.mem_singleton.mp last)
      exact between j old

theorem Image.loads (image : Image history began ended (List.finRange numDatabases) bytes) (junk : Nat → UInt8) :
    ∃ loaded, loadDatabases junk (some bytes) (fun _ => {}) = .ok loaded ∧
      ∀ i, Between history began ended i (loaded i).store := by
  obtain ⟨orders, contents, rfl, between⟩ := image
  exact ⟨_, loadDatabases_persisted orders contents junk _, fun i => between i (List.mem_finRange i)⟩

end

theorem writeAt_end (content bytes : Bytes) : writeAt content content.length bytes = content ++ bytes := by
  simp [writeAt]

/-! ### What a step can do -/

variable {s t : Node T}

inductive Steps (s : Node T) : Action T → Node T → Prop where
  | start {junk : Nat → UInt8} {dbs : Databases} (down : s.memory = none) (loaded : s.load junk = .ok dbs) :
      Steps s (.start junk) (s.remember (storesOf dbs))
  | event {event : Event} {stores after : Stores} {entries : List Entry} (up : s.memory = some stores)
      (ran : liveStep event stores = some (entries, after)) :
      Steps s (.event event) (s.remember after)
  | persist {thread : T} {stores : Stores} (up : s.memory = some stores) (idle : s.tasks thread = .idle) :
      Steps s (.persist thread) (s.become thread (.purging (s.history.length - 1) (List.finRange numDatabases)))
  | purge {thread : T} {env : Env} {stores after : Stores} {began : ℕ} {i : Index} {rest : List Index}
      (up : s.memory = some stores) (purging : s.tasks thread = .purging began (i :: rest))
      (purged : (livePurge (·.deepPurge env) i stores).2 = after) :
      Steps s (.purge thread env) ((s.become thread (.purging began rest)).remember after)
  | create {thread : T} {began : ℕ} (purged : s.tasks thread = .purging began []) :
      Steps s (.create thread)
        (s.truncate.2.become thread (.writing began s.truncate.1 0 (List.finRange numDatabases)))
  | write {thread : T} {orders : DbOrder} {stores : Stores} {began inode offset : ℕ} {i : Index} {rest : List Index}
      (up : s.memory = some stores) (writing : s.tasks thread = .writing began inode offset (i :: rest)) :
      Steps s (.write thread orders)
        ((s.put inode (writeAt (s.inodes inode) offset (persist i orders (stores i)))).become thread
          (.writing began inode (offset + (persist i orders (stores i)).length) rest))
  | rename {thread : T} {began inode other offset : ℕ} (written : s.tasks thread = .writing began other offset [])
      (there : s.tmp = some inode) :
      Steps s (.rename thread) ((s.exchange inode began).become thread .idle)
  | throw {thread : T} : Steps s (.rename thread) s.crashed
  | crash : Steps s .crash s.crashed

theorem step_steps {action : Action T} (taken : step s action = some t) : Steps s action t := by
  cases action with
  | start junk =>
    simp only [step] at taken
    split at taken
    · rename_i dbs down loaded
      cases taken
      exact .start down loaded
    · cases taken
  | event event =>
    obtain ⟨stores, up, taken⟩ := Option.bind_eq_some_iff.mp taken
    obtain ⟨⟨entries, after⟩, ran, taken⟩ := Option.bind_eq_some_iff.mp taken
    cases taken
    exact .event up ran
  | persist thread =>
    simp only [step] at taken
    split at taken
    · rename_i stores up idle
      cases taken
      exact .persist up idle
    · cases taken
  | purge thread env =>
    simp only [step] at taken
    split at taken
    · rename_i stores began i rest up purging
      cases taken
      exact .purge up purging rfl
    · cases taken
  | create thread =>
    simp only [step] at taken
    split at taken
    · rename_i began purged
      cases taken
      exact .create purged
    · cases taken
  | write thread orders =>
    simp only [step] at taken
    split at taken
    · rename_i stores began inode offset i rest up writing
      cases taken
      exact .write up writing
    · cases taken
  | rename thread =>
    simp only [step] at taken
    split at taken
    · rename_i began other offset inode written there
      cases taken
      exact .rename written there
    · cases taken
      exact .throw
    · cases taken
  | crash =>
    cases taken
    exact .crash

/-! ### The invariant -/

/-- The persist under way has this much of its file. -/
structure Unfinished (s : Node T) (began inode offset : ℕ) (rest : List Index) : Prop where
  tmp : s.tmp = some inode
  begun : began < s.history.length
  offset : offset = (s.inodes inode).length
  image : ∃ written, written ++ rest = List.finRange numDatabases ∧
    Image s.history began s.history.length written (s.inodes inode)

def Saved (s : Node T) : Prop :=
  match s.db, s.last with
  | none, none => True
  | some inode, some (began, ended) => Image s.history began ended (List.finRange numDatabases) (s.inodes inode)
  | _, _ => False

/-- What holds whether or not a persist is under way. -/
structure Base (s : Node T) : Prop where
  purging : ∀ thread began rest, s.tasks thread = .purging began rest → began < s.history.length
  saved : Saved s
  exchanged : ∀ inode, s.tmp = some inode → s.db ≠ some inode
  used : ∀ inode, s.tmp = some inode ∨ s.db = some inode → inode < s.unused
  now : ∀ stores, s.memory = some stores → s.history.getLast? = some stores
  fits : s.Fits

structure Inv (s : Node T) : Prop extends Base s where
  alone : ∀ thread other, s.Writing thread → s.Writing other → thread = other
  writing : ∀ thread began inode offset rest, s.tasks thread = .writing began inode offset rest →
    Unfinished s began inode offset rest

omit [DecidableEq T] in
theorem start_inv : Inv ({} : Node T) where
  alone := by
    rintro thread other ⟨began, inode, offset, rest, writing⟩
    cases writing
  writing := nofun
  purging := nofun
  saved := trivial
  exchanged := nofun
  used := by
    rintro inode (tmp | db)
    · cases tmp
    · cases db
  now := nofun
  fits := nofun

omit [DecidableEq T] in
theorem Inv.whole (inv : Inv s) : s.Whole := by
  refine ⟨fun junk => ?_, fun thread began inode offset written => (inv.writing _ _ _ _ _ written).tmp⟩
  have saved := inv.saved
  simp only [Saved, Node.load] at saved ⊢
  split at saved
  · rename_i none_ never
    rw [none_, never]
    exact ⟨_, rfl, fun _ => rfl⟩
  · rename_i inode began ended there complete
    rw [there, complete]
    exact saved.loads junk
  · exact saved.elim

omit [DecidableEq T] in
theorem Unfinished.remember {began inode offset : ℕ} {rest : List Index} (unfinished : Unfinished s began inode offset rest)
    (stores : Stores) : Unfinished (s.remember stores) began inode offset rest := by
  have grows : s.history.length ≤ (s.history ++ [stores]).length := by simp
  obtain ⟨written, all, image⟩ := unfinished.image
  exact ⟨unfinished.tmp, unfinished.begun.trans_le grows, unfinished.offset, written, all, image.later [stores] grows⟩

omit [DecidableEq T] in
theorem saved_remember (saved : Saved s) (stores : Stores) : Saved (s.remember stores) := by
  simp only [Saved] at saved
  split at saved
  · rename_i none_ never
    simp only [Saved, Node.remember, none_, never]
  · rename_i inode began ended there complete
    simp only [Saved, Node.remember, there, complete]
    exact saved.later [stores] (Nat.le_refl ended)
  · exact saved.elim

omit [DecidableEq T] in
theorem remember_inv (inv : Inv s) {stores : Stores} (fits : (s.remember stores).Fits) : Inv (s.remember stores) where
  alone := inv.alone
  writing thread began inode offset rest writes := (inv.writing thread began inode offset rest writes).remember stores
  purging thread began rest purges := by
    have begun := inv.purging thread began rest purges
    simp only [Node.remember, List.length_append]
    omega
  saved := saved_remember inv.saved stores
  exchanged := inv.exchanged
  used := inv.used
  now stores' up := by
    rw [← Option.some.inj up]
    exact List.getLast?_concat
  fits := fits

omit [DecidableEq T] in
theorem crashed_inv (inv : Inv s) : Inv s.crashed where
  alone thread other writes := by
    obtain ⟨began, inode, offset, rest, writing⟩ := writes
    cases writing
  writing := nofun
  purging := nofun
  saved := inv.saved
  exchanged := inv.exchanged
  used := inv.used
  now := nofun
  fits := nofun

theorem tasks_become {thread other : T} {task found : Task} (here : (s.become thread task).tasks other = found) :
    (other = thread ∧ task = found) ∨ s.tasks other = found := by
  by_cases same : other = thread
  · subst same
    exact .inl ⟨rfl, (Function.update_self ..).symm.trans here⟩
  · exact .inr ((Function.update_of_ne same ..).symm.trans here)

/-- Where no file is open a thread can be given anything else to do. -/
theorem become_inv (inv : Inv s) {thread : T} {task : Task}
    (closed : ∀ began inode offset rest, task ≠ .writing began inode offset rest)
    (begun : ∀ began rest, task = .purging began rest → began < s.history.length) : Inv (s.become thread task) where
  alone first second := by
    have kept : ∀ {other}, (s.become thread task).Writing other → s.Writing other := by
      rintro other ⟨began, inode, offset, rest, writing⟩
      rcases tasks_become writing with ⟨_, task_⟩ | before
      · exact absurd task_ (closed _ _ _ _)
      · exact ⟨began, inode, offset, rest, before⟩
    exact fun one two => inv.alone first second (kept one) (kept two)
  writing other began inode offset rest writing := by
    rcases tasks_become writing with ⟨_, task_⟩ | before
    · exact absurd task_ (closed _ _ _ _)
    · obtain ⟨tmp, begun, length, image⟩ := inv.writing _ _ _ _ _ before
      exact ⟨tmp, begun, length, image⟩
  purging other began rest purges := by
    rcases tasks_become purges with ⟨_, task_⟩ | before
    · exact begun _ _ task_
    · exact inv.purging _ _ _ before
  saved := inv.saved
  exchanged := inv.exchanged
  used := inv.used
  now := inv.now
  fits := inv.fits

/-- A thread that is the only one to write goes on with a file of which it has written this much. -/
theorem writing_inv (base : Base s) {thread : T} {began inode offset : ℕ} {rest : List Index}
    (alone : ∀ other, s.Writing other → other = thread)
    (unfinished : Unfinished (s.become thread (.writing began inode offset rest)) began inode offset rest) :
    Inv (s.become thread (.writing began inode offset rest)) where
  alone first second := by
    have only : ∀ other, (s.become thread (.writing began inode offset rest)).Writing other → other = thread := by
      rintro other ⟨began, inode, offset, rest, writing⟩
      rcases tasks_become writing with ⟨same, _⟩ | before
      · exact same
      · exact alone other ⟨began, inode, offset, rest, before⟩
    exact fun one two => (only first one).trans (only second two).symm
  writing other began' inode' offset' rest' writing := by
    by_cases same : other = thread
    · subst same
      have now : Task.writing began inode offset rest = .writing began' inode' offset' rest' :=
        (Function.update_self ..).symm.trans writing
      cases now
      exact unfinished
    · have before := (Function.update_of_ne same ..).symm.trans writing
      exact absurd (alone other ⟨began', inode', offset', rest', before⟩) same
  purging other began rest purges := by
    rcases tasks_become purges with ⟨_, task_⟩ | before
    · cases task_
    · exact base.purging _ _ _ before
  saved := base.saved
  exchanged := base.exchanged
  used := base.used
  now := base.now
  fits := base.fits

omit [DecidableEq T] in
theorem saved_put (saved : Saved s) {inode : ℕ} (other : s.db ≠ some inode) (content : Bytes) :
    Saved (s.put inode content) := by
  simp only [Saved] at saved
  split at saved
  · rename_i none_ never
    simp only [Saved, Node.put, none_, never]
  · rename_i file began ended there complete
    have different : file ≠ inode := fun same => other (same ▸ there)
    simp only [Saved, Node.put, there, complete, Function.update_of_ne different]
    exact saved
  · exact saved.elim

omit [DecidableEq T] in
theorem put_base (base : Base s) {inode : ℕ} (other : s.db ≠ some inode) (content : Bytes) :
    Base (s.put inode content) where
  purging := base.purging
  saved := saved_put base.saved other content
  exchanged := base.exchanged
  used := base.used
  now := base.now
  fits := base.fits

omit [DecidableEq T] in
theorem truncate_cases (base : Base s) : ∃ inode, s.truncate.1 = inode ∧ s.truncate.2.tmp = some inode ∧
    s.truncate.2.inodes inode = [] ∧ s.truncate.2.tasks = s.tasks ∧ s.truncate.2.history = s.history ∧
    Base s.truncate.2 := by
  unfold Node.truncate
  split
  · rename_i inode there
    exact ⟨inode, rfl, there, Function.update_self .., rfl, rfl, put_base base (base.exchanged inode there) []⟩
  · rename_i missing
    have other : s.db ≠ some s.unused := fun there => Nat.lt_irrefl _ (base.used _ (.inr there))
    refine ⟨s.unused, rfl, rfl, Function.update_self .., rfl, rfl, ?_⟩
    exact {
      purging := base.purging
      saved := saved_put base.saved other []
      exchanged := fun inode new there => other (there.trans new.symm)
      used := by
        rintro inode (new | there)
        · rw [← Option.some.inj new]
          exact Nat.lt_succ_self _
        · exact (base.used inode (.inr there)).trans (Nat.lt_succ_self _)
      now := base.now
      fits := base.fits }

theorem create_inv (inv : Inv s) {thread : T} {began : ℕ} (purged : s.tasks thread = .purging began [])
    (apart : ∀ other, ¬s.Writing other) :
    Inv (s.truncate.2.become thread (.writing began s.truncate.1 0 (List.finRange numDatabases))) := by
  obtain ⟨inode, is, tmp, empty, tasks, history, base⟩ := truncate_cases inv.toBase
  rw [is]
  refine writing_inv base (fun other writes => ?_) ⟨tmp, ?_, ?_, [], rfl, ?_⟩
  · obtain ⟨began, inode, offset, rest, writing⟩ := writes
    rw [tasks] at writing
    exact absurd ⟨began, inode, offset, rest, writing⟩ (apart other)
  · show began < s.truncate.2.history.length
    rw [history]
    exact inv.purging _ _ _ purged
  · show 0 = (s.truncate.2.inodes inode).length
    rw [empty]
    rfl
  · show Image s.truncate.2.history began _ [] (s.truncate.2.inodes inode)
    rw [empty]
    exact image_nil

theorem write_inv (inv : Inv s) {thread : T} {orders : DbOrder} {stores : Stores} {began inode offset : ℕ} {i : Index}
    {rest : List Index} (up : s.memory = some stores) (writing : s.tasks thread = .writing began inode offset (i :: rest)) :
    Inv ((s.put inode (writeAt (s.inodes inode) offset (persist i orders (stores i)))).become thread
      (.writing began inode (offset + (persist i orders (stores i)).length) rest)) := by
  obtain ⟨tmp, begun, rfl, written, all, image⟩ := inv.writing _ _ _ _ _ writing
  rw [writeAt_end]
  have new : i ∉ written := by
    have distinct : (written ++ i :: rest).Nodup := all ▸ List.nodup_finRange _
    exact fun member => (List.nodup_append.mp distinct).2.2 i member i List.mem_cons_self rfl
  refine writing_inv (put_base inv.toBase (inv.exchanged inode tmp) _) (fun other writes => ?_) ⟨tmp, begun, ?_, ?_⟩
  · exact inv.alone other thread writes ⟨_, _, _, _, writing⟩
  · simp [Node.put, Node.become]
  · refine ⟨written ++ [i], by rw [List.append_assoc]; exact all, ?_⟩
    simp only [Node.put, Node.become, Function.update_self]
    exact image.snoc new (inv.now stores up) begun orders (inv.fits stores up i)

theorem rename_inv (inv : Inv s) {thread : T} {began inode other offset : ℕ}
    (written : s.tasks thread = .writing began other offset []) (there : s.tmp = some inode) :
    Inv ((s.exchange inode began).become thread .idle) := by
  obtain ⟨tmp, begun, -, sections, all, image⟩ := inv.writing _ _ _ _ _ written
  obtain rfl : other = inode := Option.some.inj (tmp.symm.trans there)
  rw [List.append_nil] at all
  subst all
  have closed : ∀ user, ¬((s.exchange other began).become thread .idle).Writing user := by
    rintro user ⟨_, _, _, _, writes⟩
    by_cases same : user = thread
    · subst same
      exact absurd ((Function.update_self ..).symm.trans writes) nofun
    · have before := (Function.update_of_ne same ..).symm.trans writes
      exact same (inv.alone user thread ⟨_, _, _, _, before⟩ ⟨_, _, _, _, written⟩)
  exact {
    alone := fun user _ writes _ => absurd writes (closed user)
    writing := fun user _ _ _ _ writes => absurd ⟨_, _, _, _, writes⟩ (closed user)
    purging := fun user began rest purges => by
      rcases tasks_become purges with ⟨_, task_⟩ | before
      · cases task_
      · exact inv.purging _ _ _ before
    saved := image
    exchanged := nofun
    used := by
      rintro inode (gone | moved)
      · cases gone
      · exact inv.used inode (.inl (there.trans moved))
    now := inv.now
    fits := inv.fits }

theorem step_inv {action : Action T} (inv : Inv s) (allowed : Allowed s action) (taken : step s action = some t) :
    Inv t := by
  have fits := allowed.2 t taken
  cases step_steps taken with
  | start down loaded => exact remember_inv inv fits
  | event up ran => exact remember_inv inv fits
  | persist up idle =>
    have some_ : 0 < s.history.length := by
      have last := inv.now _ up
      cases before : s.history with
      | nil =>
        rw [before] at last
        cases last
      | cons first more => exact Nat.succ_pos _
    refine become_inv inv (fun _ _ _ _ => nofun) fun began rest purging => ?_
    cases purging
    exact Nat.sub_lt some_ Nat.one_pos
  | @purge thread _ _ _ began _ rest up purging purged =>
    have purged : Inv (s.become thread (.purging began rest)) := by
      refine become_inv inv (fun _ _ _ _ => nofun) fun began rest next => ?_
      cases next
      exact inv.purging _ _ _ purging
    exact remember_inv purged fits
  | create purged => exact create_inv inv purged allowed.1
  | write up writing => exact write_inv inv up writing
  | rename written there => exact rename_inv inv written there
  | throw | crash => exact crashed_inv inv

variable (T) in
/-- Whatever the clients do, and whenever the server crashes and is started again: as long as no two persists
overlap, a start brings back every database as it was at some moment of the last complete persist. -/
theorem persists_whole (run : List (Action T)) (allowed : EachStep step Allowed run {}) :
    EachState step Node.Whole run {} :=
  eachState_of_inv (fun _ _ _ inv allowed taken => step_inv inv allowed taken) (fun _ inv => inv.whole) start_inv allowed

/-! ### A run of one thread -/

/-- The databases have no expiry times. -/
def Steady (stores : Stores) : Prop := ∀ i, SizedStore (stores i) ∧ (stores i).expiryTimes = ∅

theorem steady_deepPurge {stores : Stores} (steady : Steady stores) (env : Env) (i : Index) :
    (livePurge (·.deepPurge env) i stores).2 = stores := by
  have nothing : env.order.list (∅ : Table Str Time).keys = [] := by
    rw [← List.length_eq_zero_iff, Order.length]
    rfl
  have purged : ((live stores i).deepPurge env).store = stores i := by
    rw [Database.deepPurge, live, (steady i).2, nothing]
    rfl
  rw [livePurge, storesOf_update, purged, Function.update_eq_self]

/-- Only this thread persists. -/
def Action.By (thread : T) : Action T → Prop
  | .start _ | .event _ => False
  | .persist other | .purge other _ | .create other | .write other _ | .rename other => other = thread
  | .crash => True

theorem by_allowed {thread : T} {run : List (Action T)} (only : ∀ action ∈ run, action.By thread)
    (steady : ∀ stores, s.memory = some stores → Steady stores) (idle : ∀ other, other ≠ thread → s.tasks other = .idle) :
    EachStep step Allowed run s := by
  have keeps : ∀ s action t, action ∈ run →
      (∀ stores, s.memory = some stores → Steady stores) ∧ (∀ other, other ≠ thread → s.tasks other = .idle) →
      step s action = some t →
      (∀ stores, t.memory = some stores → Steady stores) ∧ ∀ other, other ≠ thread → t.tasks other = .idle := by
    intro s action t member ⟨steady, idle⟩ taken
    have own := only action member
    have others : ∀ (s : Node T) task, (∀ other, other ≠ thread → s.tasks other = .idle) →
        ∀ other, other ≠ thread → (s.become thread task).tasks other = .idle :=
      fun s task idle other different => (Function.update_of_ne different ..).trans (idle other different)
    cases step_steps taken with
    | start | event => exact own.elim
    | persist up =>
      obtain rfl := own
      exact ⟨steady, others s _ idle⟩
    | purge up purging purged =>
      obtain rfl := own
      obtain rfl := (steady_deepPurge (steady _ up) _ _).symm.trans purged
      exact ⟨fun stores same => Option.some.inj same ▸ steady _ up, others s _ idle⟩
    | create purged =>
      obtain rfl := own
      have tasks : s.truncate.2.tasks = s.tasks ∧ s.truncate.2.memory = s.memory := by
        unfold Node.truncate
        split <;> exact ⟨rfl, rfl⟩
      exact ⟨tasks.2 ▸ steady, others _ _ (tasks.1 ▸ idle)⟩
    | write up writing =>
      obtain rfl := own
      exact ⟨steady, others _ _ idle⟩
    | rename written there =>
      obtain rfl := own
      exact ⟨steady, others _ _ idle⟩
    | throw | crash => exact ⟨nofun, fun _ _ => rfl⟩
  refine eachStep_of_members keeps (fun s action t member both taken => ⟨?_, ?_⟩) ⟨steady, idle⟩
  · have own := only action member
    cases step_steps taken with
    | @create thread began purged =>
      obtain rfl := own
      rintro other ⟨began, inode, offset, rest, writing⟩
      by_cases same : other = thread
      · rw [same, purged] at writing
        cases writing
      · rw [both.2 other same] at writing
        cases writing
    | start | event | persist | purge | write | rename | throw | crash => trivial
  · intro after taken'
    obtain rfl := Option.some.inj (taken.symm.trans taken')
    exact fun stores up i => ((keeps s action t member both taken).1 stores up i).1

local instance neZero_threads : NeZero 4 := ⟨Nat.succ_ne_zero 3⟩

noncomputable def oneKey : Event := .call (.frozen 0) 0 4 (.strSet [107] [118])

noncomputable def purgeAll : List (Action (Fin 4)) := .persist 2 :: List.replicate numDatabases (.purge 2 (.frozen 0))

/-- One whole persist, and a second one that a crash cuts short. -/
noncomputable def persists : List (Action (Fin 4)) :=
  purgeAll ++ [.create 2] ++ List.replicate numDatabases (.write 2 .fixed) ++ [.rename 2] ++
    purgeAll ++ [.create 2, .write 2 .fixed, .crash]

theorem persists_by : ∀ action ∈ persists, action.By 2 := by
  intro action member
  simp only [persists, purgeAll, List.cons_append, List.append_assoc, List.mem_cons, List.mem_append, List.mem_replicate,
    List.nil_append, List.not_mem_nil, or_false] at member
  rcases member with rfl | ⟨-, rfl⟩ | rfl | ⟨-, rfl⟩ | rfl | rfl | ⟨-, rfl⟩ | rfl | rfl | rfl <;> trivial

theorem oneKey_stores (i : Index) : (liveStep oneKey fun _ => {}).map (fun ran => ran.2 i) =
    some (if i = 0 then { data := (∅ : Table Str Data).insert [107] (.str [118]) } else {}) := by
  by_cases first : i = 0
  · subst first
    rfl
  · rw [if_neg first]
    have other : ∀ db : Database, (Function.update (live fun _ => {}) 0 db i).store = {} := by
      intro db
      rw [Function.update_of_ne first]
      rfl
    exact congrArg some (other _)

theorem steady_oneKey {entries : List Entry} {after : Stores}
    (ran : liveStep oneKey (fun _ => {}) = some (entries, after)) : Steady after := by
  intro i
  have stored := oneKey_stores i
  rw [ran] at stored
  have stored : after i = _ := Option.some.inj stored
  rw [stored]
  obtain rfl | other := eq_or_ne i 0
  · refine ⟨⟨by decide, fun key value found => ?_, by decide, nofun⟩, rfl⟩
    rw [if_pos rfl, Table.lookup_insert_eq] at found
    split at found
    · rename_i same
      rw [same, ← Option.some.inj found]
      show [107].length ≤ maxSize ∧ [118].length ≤ maxSize
      decide
    · cases found
  · rw [if_neg other]
    exact ⟨Contents.empty.sized, rfl⟩

theorem persist_cut_short :
    EachState step Node.Whole (.start (fun _ => 0) :: .event oneKey :: persists) ({} : Node (Fin 4)) := by
  refine persists_whole (Fin 4) _ ?_
  intro started start
  have empty : started = Node.remember {} fun _ => {} := Option.some.inj (start.symm.trans rfl)
  subst empty
  have steady : Steady fun _ => {} := fun _ => ⟨Contents.empty.sized, rfl⟩
  refine ⟨⟨trivial, fun t taken stores up => ?_⟩, fun called call => ?_⟩
  · obtain rfl := Option.some.inj (start.symm.trans taken)
    rw [← Option.some.inj up]
    exact fun i => (steady i).1
  · cases step_steps call with
    | event up ran =>
      obtain rfl := Option.some.inj up
      refine ⟨⟨trivial, fun t taken stores up => ?_⟩, ?_⟩
      · obtain rfl := Option.some.inj (call.symm.trans taken)
        rw [← Option.some.inj up]
        exact fun i => (steady_oneKey ran i).1
      · refine by_allowed persists_by (fun stores up => ?_) fun _ _ => rfl
        rw [← Option.some.inj up]
        exact steady_oneKey ran

end Vanity.Persist.WithoutLog
