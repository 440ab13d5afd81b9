import Mathlib.Algebra.Order.BigOperators.Group.Finset
import Mathlib.Data.Fintype.BigOperators
import Mathlib.Logic.Relation

/-!
# Locks that are taken in an order

Threads that take locks in scopes. Code is what it does to locks: what it does beside them, which branch it
takes and whether it throws is left open. Several locks at once are taken together, when all of them are
free. Where every lock that is waited for stands above those that are held, no thread waits for ever.
-/

namespace Vanity.Locking

/-! ### Code -/

inductive Act (L : Type) where
  | take (locks : List L)
  | give (locks : List L)

/-- `hold` is a scope with locks, `attempt` a body with a handler of what it throws. -/
inductive Code (L : Type) : Type 1 where
  | rest
  | hold (locks : List L) (body : Code L)
  | andThen (first next : Code L)
  | any {ι : Type} (one : ι → Code L)
  | again (body : Code L)
  | attempt (body handler : Code L)

inductive Ending where
  | done | thrown

variable {L : Type}

namespace Code

def seq : List (Code L) → Code L
  | [] => .rest
  | code :: codes => .andThen code (seq codes)

def either (one other : Code L) : Code L := .any fun first : Bool => if first then one else other

def maybe (code : Code L) : Code L := either code .rest

end Code

/-- What the code may do to locks. It may throw anywhere, and a scope gives its locks back however it ends. -/
inductive Code.Runs : Code L → List (Act L) → Ending → Prop where
  | throws (code : Code L) : Runs code [] .thrown
  | rest : Runs .rest [] .done
  | hold {locks : List L} {body : Code L} {acts : List (Act L)} {ending : Ending} (inside : Runs body acts ending) :
      Runs (.hold locks body) (.take locks :: (acts ++ [.give locks])) ending
  | andThrown {first next : Code L} {acts : List (Act L)} (thrown : Runs first acts .thrown) :
      Runs (.andThen first next) acts .thrown
  | andThen {first next : Code L} {acts more : List (Act L)} {ending : Ending} (before : Runs first acts .done)
      (after : Runs next more ending) : Runs (.andThen first next) (acts ++ more) ending
  | any {ι : Type} {one : ι → Code L} {acts : List (Act L)} {ending : Ending} (i : ι)
      (this : Runs (one i) acts ending) : Runs (.any one) acts ending
  | stop {body : Code L} : Runs (.again body) [] .done
  | againThrown {body : Code L} {acts : List (Act L)} (thrown : Runs body acts .thrown) :
      Runs (.again body) acts .thrown
  | again {body : Code L} {acts more : List (Act L)} {ending : Ending} (once : Runs body acts .done)
      (after : Runs (.again body) more ending) : Runs (.again body) (acts ++ more) ending
  | attempt {body handler : Code L} {acts : List (Act L)} (done : Runs body acts .done) :
      Runs (.attempt body handler) acts .done
  | handled {body handler : Code L} {acts more : List (Act L)} {ending : Ending} (thrown : Runs body acts .thrown)
      (after : Runs handler more ending) : Runs (.attempt body handler) (acts ++ more) ending

/-! ### The order -/

/-- The order of the locks, and which of them a thread may take again while it holds them. -/
structure Ranking (L : Type) where
  rank : L → ℕ
  top : ℕ
  rank_lt : ∀ lock, rank lock < top
  Reentrant : L → Prop

variable {ranking : Ranking L} {held mid after : List L} {acts more : List (Act L)}

def Ranking.Allows (ranking : Ranking L) (held : List L) (lock : L) : Prop :=
  ranking.Reentrant lock ∧ lock ∈ held ∨ ∀ other ∈ held, ranking.rank other < ranking.rank lock

/-- From these locks held the acts keep to the order, and they end with those held. -/
def Ranking.Leads (ranking : Ranking L) : List L → List (Act L) → List L → Prop
  | held, [], after => held = after
  | held, .take locks :: acts, after =>
    (∀ lock ∈ locks, ranking.Allows held lock) ∧ ranking.Leads (locks ++ held) acts after
  | held, .give locks :: acts, after => ∃ below, held = locks ++ below ∧ ranking.Leads below acts after

/-- All that the code does keeps to the order where these locks are held. -/
def Ranking.Fits (ranking : Ranking L) : List L → Code L → Prop
  | _, .rest => True
  | held, .hold locks body => (∀ lock ∈ locks, ranking.Allows held lock) ∧ ranking.Fits (locks ++ held) body
  | held, .andThen first next => ranking.Fits held first ∧ ranking.Fits held next
  | held, .any one => ∀ i, ranking.Fits held (one i)
  | held, .again body => ranking.Fits held body
  | held, .attempt body handler => ranking.Fits held body ∧ ranking.Fits held handler

section
variable {code one other : Code L} {codes : List (Code L)} {locks : List L}

@[simp]
theorem Ranking.fits_rest : ranking.Fits held .rest := trivial

@[simp]
theorem Ranking.fits_hold :
    ranking.Fits held (.hold locks code) ↔
      (∀ lock ∈ locks, ranking.Allows held lock) ∧ ranking.Fits (locks ++ held) code :=
  Iff.rfl

@[simp]
theorem Ranking.fits_any {ι : Type} {each : ι → Code L} :
    ranking.Fits held (.any each) ↔ ∀ i, ranking.Fits held (each i) :=
  Iff.rfl

@[simp]
theorem Ranking.fits_again : ranking.Fits held (.again code) ↔ ranking.Fits held code := Iff.rfl

@[simp]
theorem Ranking.fits_attempt :
    ranking.Fits held (.attempt one other) ↔ ranking.Fits held one ∧ ranking.Fits held other := Iff.rfl

@[simp]
theorem Ranking.fits_seq : ranking.Fits held (.seq codes) ↔ ∀ code ∈ codes, ranking.Fits held code := by
  induction codes with
  | nil => exact iff_of_true trivial (by simp)
  | cons code codes ih =>
    rw [List.forall_mem_cons, ← ih]
    rfl

@[simp]
theorem Ranking.fits_either :
    ranking.Fits held (.either one other) ↔ ranking.Fits held one ∧ ranking.Fits held other := by
  refine ⟨fun fits => ⟨fits true, fits false⟩, fun fits first => ?_⟩
  cases first with
  | true => exact fits.1
  | false => exact fits.2

@[simp]
theorem Ranking.fits_maybe : ranking.Fits held (.maybe code) ↔ ranking.Fits held code := by simp [Code.maybe]

end

theorem Ranking.Leads.append (first : ranking.Leads held acts mid) (next : ranking.Leads mid more after) :
    ranking.Leads held (acts ++ more) after := by
  induction acts generalizing held with
  | nil =>
    obtain rfl : held = mid := first
    exact next
  | cons act acts ih =>
    cases act with
    | take locks => exact ⟨first.1, ih first.2⟩
    | give locks =>
      obtain ⟨below, split, leads⟩ := first
      exact ⟨below, split, ih leads⟩

theorem Ranking.Fits.leads {code : Code L} {ending : Ending} (runs : code.Runs acts ending) :
    ∀ {held}, ranking.Fits held code → ranking.Leads held acts held := by
  induction runs with
  | throws code => exact fun _ => rfl
  | rest => exact fun _ => rfl
  | hold inside ih =>
    intro held fits
    exact ⟨fits.1, (ih fits.2).append ⟨held, rfl, rfl⟩⟩
  | andThrown thrown ih => exact fun fits => ih fits.1
  | andThen before after ihBefore ihAfter => exact fun fits => (ihBefore fits.1).append (ihAfter fits.2)
  | any i this ih => exact fun fits => ih (fits i)
  | stop => exact fun _ => rfl
  | againThrown thrown ih => exact fun fits => ih fits
  | again once after ihOnce ihAfter => exact fun fits => (ihOnce fits).append (ihAfter fits)
  | attempt done ih => exact fun fits => ih fits.1
  | handled thrown after ihBody ihHandler => exact fun fits => (ihBody fits.1).append (ihHandler fits.2)

/-! ### Threads -/

/-- The locks that a thread holds, and what it has still to do to locks. -/
structure Thread (L : Type) where
  held : List L := []
  todo : List (Act L) := []

variable {T : Type} {s s' : T → Thread L} {t u : T}

def Free (s : T → Thread L) (t : T) (lock : L) : Prop := ∀ u, u ≠ t → lock ∉ (s u).held

/-- The first thread waits for a lock that the second one holds. -/
def Awaits (s : T → Thread L) (t u : T) : Prop :=
  ∃ locks acts, (s t).todo = .take locks :: acts ∧ ∃ lock ∈ locks, u ≠ t ∧ lock ∈ (s u).held

structure Inv (ranking : Ranking L) (s : T → Thread L) : Prop where
  leads : ∀ t, ranking.Leads (s t).held (s t).todo []
  exclusive : ∀ {t u lock}, lock ∈ (s t).held → lock ∈ (s u).held → t = u

theorem inv_idle : Inv ranking (fun _ : T => {}) where
  leads _ := rfl
  exclusive held := absurd held List.not_mem_nil

/-- Who holds a lock has something to do: it is to give the lock back. -/
theorem Inv.busy_of_held (inv : Inv ranking s) {lock : L} (holds : lock ∈ (s t).held) : (s t).todo ≠ [] := by
  intro idle
  have leads := inv.leads t
  rw [idle] at leads
  rw [show (s t).held = [] from leads] at holds
  exact absurd holds List.not_mem_nil

variable [DecidableEq T]

/-- One act of a thread. It takes locks that no other thread holds, nor itself unless it may. -/
inductive Goes (ranking : Ranking L) (t : T) (s : T → Thread L) : (T → Thread L) → Prop where
  | take {held locks : List L} {acts : List (Act L)} (at_ : s t = ⟨held, .take locks :: acts⟩)
      (free : ∀ lock ∈ locks, Free s t lock)
      (allowed : ∀ lock ∈ locks, ranking.Reentrant lock ∨ lock ∉ held) :
      Goes ranking t s (Function.update s t ⟨locks ++ held, acts⟩)
  | give {below locks : List L} {acts : List (Act L)} (at_ : s t = ⟨locks ++ below, .give locks :: acts⟩) :
      Goes ranking t s (Function.update s t ⟨below, acts⟩)

/-- A thread comes to code that does these acts, before what it has still to do. -/
def enter (s : T → Thread L) (t : T) (acts : List (Act L)) : T → Thread L :=
  Function.update s t ⟨(s t).held, acts ++ (s t).todo⟩

def CanGo (ranking : Ranking L) (s : T → Thread L) (t : T) : Prop := ∃ s', Goes ranking t s s'

theorem Inv.enter (inv : Inv ranking s) (leads : ranking.Leads (s t).held acts (s t).held) :
    Inv ranking (enter s t acts) := by
  have held : ∀ u, (Locking.enter s t acts u).held = (s u).held := by
    intro u
    by_cases same : u = t
    · subst same
      simp [Locking.enter]
    · simp [Locking.enter, same]
  refine ⟨fun u => ?_, fun {u v lock} mine theirs => inv.exclusive (held u ▸ mine) (held v ▸ theirs)⟩
  by_cases same : u = t
  · subst same
    simpa [Locking.enter] using leads.append (inv.leads u)
  · simpa [Locking.enter, same] using inv.leads u

theorem Inv.goes (inv : Inv ranking s) (goes : Goes ranking t s s') : Inv ranking s' := by
  cases goes with
  | @take held locks acts at_ free allowed =>
    have leads : ranking.Leads held (.take locks :: acts) [] := by
      have leads := inv.leads t
      rwa [at_] at leads
    refine ⟨fun u => ?_, fun {u v lock} mine theirs => ?_⟩
    · by_cases same : u = t
      · subst same
        simpa using leads.2
      · simpa [same] using inv.leads u
    · by_cases here : u = t
      · by_cases there : v = t
        · rw [here, there]
        · subst here
          simp only [Function.update_self, List.mem_append, Function.update_of_ne there] at mine theirs
          rcases mine with new | old
          · exact absurd theirs (free lock new v there)
          · exact inv.exclusive (by rwa [at_]) theirs
      · by_cases there : v = t
        · subst there
          simp only [Function.update_self, List.mem_append, Function.update_of_ne here] at mine theirs
          rcases theirs with new | old
          · exact absurd mine (free lock new u here)
          · exact inv.exclusive mine (by rwa [at_])
        · simp only [Function.update_of_ne here, Function.update_of_ne there] at mine theirs
          exact inv.exclusive mine theirs
  | @give below locks acts at_ =>
    have leads : ranking.Leads (locks ++ below) (.give locks :: acts) [] := by
      have leads := inv.leads t
      rwa [at_] at leads
    obtain ⟨rest, split, leads⟩ := leads
    obtain rfl := List.append_cancel_left split
    have kept : ∀ u lock, lock ∈ (Function.update s t ⟨below, acts⟩ u).held → lock ∈ (s u).held := by
      intro u lock mine
      by_cases same : u = t
      · subst same
        rw [at_]
        exact List.mem_append_right _ (by simpa using mine)
      · simpa [same] using mine
    refine ⟨fun u => ?_, fun mine theirs => inv.exclusive (kept _ _ mine) (kept _ _ theirs)⟩
    by_cases same : u = t
    · subst same
      simpa using leads
    · simpa [same] using inv.leads u

/-! ### Progress -/

/-- A thread that has something to do goes, or one of the locks that it wants is held by another thread and
stands above all that it holds itself. -/
theorem Inv.goes_or_awaits (inv : Inv ranking s) (busy : (s t).todo ≠ []) :
    CanGo ranking s t ∨ ∃ u lock, Awaits s t u ∧ lock ∈ (s u).held ∧
      ∀ other ∈ (s t).held, ranking.rank other < ranking.rank lock := by
  have leads := inv.leads t
  cases at_ : s t with
  | mk held todo =>
    rw [at_] at leads busy
    cases todo with
    | nil => exact absurd rfl busy
    | cons act acts =>
      cases act with
      | give locks =>
        obtain ⟨below, rfl, -⟩ := leads
        exact .inl ⟨_, .give at_⟩
      | take locks =>
        obtain ⟨allowed, -⟩ := leads
        by_cases free : ∀ lock ∈ locks, Free s t lock
        · refine .inl ⟨_, .take at_ free fun lock wanted => ?_⟩
          rcases allowed lock wanted with ⟨reentrant, -⟩ | above
          · exact .inl reentrant
          · exact .inr fun holds => absurd (above lock holds) (lt_irrefl _)
        · simp only [Free, not_forall, not_not] at free
          obtain ⟨lock, wanted, u, other, holds⟩ := free
          refine .inr ⟨u, lock, ⟨locks, acts, by rw [at_], lock, wanted, other, holds⟩, holds, ?_⟩
          rcases allowed lock wanted with ⟨-, mine⟩ | above
          · exact absurd (inv.exclusive holds (by rwa [at_])) other
          · exact above

/-- Who waits does so, over others that wait, for a thread that goes. -/
theorem Inv.progress (inv : Inv ranking s) (busy : (s t).todo ≠ []) :
    ∃ u, Relation.ReflTransGen (Awaits s) t u ∧ CanGo ranking s u := by
  -- along the way the held locks rise, and the ranks are bounded
  suffices climbs : ∀ above (t : T) lock, lock ∈ (s t).held → ranking.top - ranking.rank lock ≤ above →
      ∃ u, Relation.ReflTransGen (Awaits s) t u ∧ CanGo ranking s u by
    rcases inv.goes_or_awaits busy with goes | ⟨u, lock, awaits, holds, -⟩
    · exact ⟨t, .refl, goes⟩
    · obtain ⟨v, path, goes⟩ := climbs _ u lock holds le_rfl
      exact ⟨v, .head awaits path, goes⟩
  intro above
  induction above with
  | zero =>
    intro t lock _ few
    have := ranking.rank_lt lock
    omega
  | succ above ih =>
    intro t lock holds few
    rcases inv.goes_or_awaits (inv.busy_of_held holds) with goes | ⟨u, higher, awaits, theirs, rises⟩
    · exact ⟨t, .refl, goes⟩
    · have := rises lock holds
      have := ranking.rank_lt higher
      obtain ⟨v, path, goes⟩ := ih u higher theirs (by omega)
      exact ⟨v, .head awaits path, goes⟩

/-- So many acts of any threads, one after the other. -/
inductive Acts (ranking : Ranking L) : ℕ → (T → Thread L) → (T → Thread L) → Prop where
  | nil (s : T → Thread L) : Acts ranking 0 s s
  | snoc {n : ℕ} {s s' s'' : T → Thread L} {t : T} (acts : Acts ranking n s s') (goes : Goes ranking t s' s'') :
      Acts ranking (n + 1) s s''

theorem Inv.keeps {n : ℕ} (inv : Inv ranking s) (acts : Acts ranking n s s') : Inv ranking s' := by
  induction acts with
  | nil s => exact inv
  | snoc acts goes ih => exact (ih inv).goes goes

variable [Fintype T]

/-- How many acts there are still to do. -/
def work (s : T → Thread L) : ℕ := ∑ t, (s t).todo.length

theorem work_update {thread : Thread L} (less : thread.todo.length + 1 = (s t).todo.length) :
    work (Function.update s t thread) + 1 = work s := by
  unfold work
  have there := Finset.sum_update_of_mem (Finset.mem_univ t) (fun u => (s u).todo.length) thread.todo.length
  have lengths : ∀ u, (Function.update s t thread u).todo.length =
      Function.update (fun u => (s u).todo.length) t thread.todo.length u := by
    intro u
    by_cases same : u = t
    · subst same
      simp
    · simp [same]
  rw [Finset.sum_congr rfl fun u _ => lengths u, there, ← Finset.add_sum_erase _ _ (Finset.mem_univ t), ← less,
    Finset.sdiff_singleton_eq_erase]
  omega

theorem Goes.work (goes : Goes ranking t s s') : work s' + 1 = work s := by
  cases goes with
  | take at_ free allowed => exact work_update (by rw [at_, List.length_cons])
  | give at_ => exact work_update (by rw [at_, List.length_cons])

theorem Acts.work {n : ℕ} (acts : Acts ranking n s s') : n + work s' = work s := by
  induction acts with
  | nil s => exact Nat.zero_add _
  | snoc acts goes ih =>
    have := goes.work
    omega

/-- When no thread comes to new code, the threads do what they have to do in whatever order, and then all of them
are done. -/
theorem Inv.finishes {n : ℕ} (inv : Inv ranking s) (acts : Acts ranking n s s') :
    n + work s' = work s ∧ ((∀ t, (s' t).todo = []) ∨ ∃ t, CanGo ranking s' t) := by
  refine ⟨acts.work, ?_⟩
  by_cases idle : ∀ t, (s' t).todo = []
  · exact .inl idle
  · obtain ⟨t, busy⟩ := not_forall.mp idle
    obtain ⟨u, -, goes⟩ := (inv.keeps acts).progress busy
    exact .inr ⟨u, goes⟩

end Vanity.Locking
