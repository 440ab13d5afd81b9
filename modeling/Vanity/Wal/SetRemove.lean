import Vanity.Wal.Replay

/-!
# Replaying a random removal

The log holds the key and the count of a `set_remove`, not the elements it drew, and the recovery
draws again.
-/

namespace Vanity.Wal
open Db

/-! ### The draws -/

theorem draw_element (env : Env) (i : Nat) {set : SetT} (nonempty : set.card ≠ 0) :
    ∃ element ∈ set, (env.order.list set)[env.draw i % set.card]? = some element := by
  have bound : env.draw i % set.card < (env.order.list set).length := by
    rw [env.order.length]
    exact Nat.mod_lt _ (Nat.pos_of_ne_zero nonempty)
  exact ⟨_, (env.order.mem set _).mp (List.getElem_mem bound), List.getElem?_eq_getElem bound⟩

theorem drawOut_all (env : Env) (n i : Nat) (set : SetT) (size : set.card = n) : (drawOut env n i set).2 = ∅ := by
  induction n generalizing i set with
  | zero => exact Finset.card_eq_zero.mp size
  | succ n ih =>
    have nonempty : set.card ≠ 0 := by omega
    obtain ⟨element, member, drawn⟩ := draw_element env i nonempty
    rw [drawOut, drawn]
    exact ih (i + 1) _ (by rw [Finset.card_erase_of_mem member, size]; rfl)

theorem drawOut_subset (env : Env) (n i : Nat) (set : SetT) : (drawOut env n i set).2 ⊆ set := by
  induction n generalizing i set with
  | zero => exact Finset.Subset.refl set
  | succ n ih =>
    unfold drawOut
    split
    · exact Finset.Subset.refl set
    · exact (ih (i + 1) _).trans (Finset.erase_subset _ _)

theorem drawOut_congr {env env' : Env} (order : env.order = env'.order) (n i : Nat) (set : SetT)
    (draws : ∀ k, i ≤ k → env.draw k = env'.draw k) : drawOut env n i set = drawOut env' n i set := by
  induction n generalizing i set with
  | zero => rfl
  | succ n ih =>
    have later := fun element => ih (i + 1) (set.erase element) fun k le => draws k (by omega)
    rw [drawOut, drawOut, order, draws i (Nat.le_refl i)]
    split
    · rfl
    · rename_i element _
      rw [later element]

theorem drawn_at (order : Order Str) {set : SetT} {x : Str} (member : x ∈ set) :
    (order.list set)[(order.list set).idxOf x % set.card]? = some x := by
  have bound : (order.list set).idxOf x < (order.list set).length :=
    List.idxOf_lt_length_iff.mpr ((order.mem set x).mpr member)
  rw [Nat.mod_eq_of_lt (by rwa [order.length] at bound), List.getElem?_eq_getElem bound, List.getElem_idxOf]

theorem exists_removing (now : Nat → Time) (order : Order Str) {set : SetT} {x : Str} (member : x ∈ set)
    (n : Nat) : ∃ draw, x ∉ (drawOut (.make now order draw) (n + 1) 0 set).2 := by
  refine ⟨fun _ => (order.list set).idxOf x, fun kept => ?_⟩
  have picked : ((Env.make now order fun _ => (order.list set).idxOf x).order.list set)[(Env.make now order
      fun _ => (order.list set).idxOf x).draw 0 % set.card]? = some x := drawn_at order member
  rw [drawOut, picked] at kept
  exact Finset.notMem_erase x set (drawOut_subset _ _ _ _ kept)

theorem exists_keeping (now : Nat → Time) (order : Order Str) {set : SetT} {x : Str} (member : x ∈ set)
    {n : Nat} (few : n < set.card) (i : Nat) : ∃ draw, x ∈ (drawOut (.make now order draw) n i set).2 := by
  induction n generalizing i set with
  | zero => exact ⟨fun _ => 0, member⟩
  | succ n ih =>
    obtain ⟨y, other, different⟩ := Finset.exists_mem_ne (by omega : 1 < set.card) x
    have left : n < (set.erase y).card := by
      rw [Finset.card_erase_of_mem other]
      omega
    obtain ⟨draw, kept⟩ := ih (Finset.mem_erase.mpr ⟨Ne.symm different, member⟩) left (i + 1)
    refine ⟨Function.update draw i ((order.list set).idxOf y), ?_⟩
    have picked : ((Env.make now order (Function.update draw i ((order.list set).idxOf y))).order.list set)[(Env.make
        now order (Function.update draw i ((order.list set).idxOf y))).draw i % set.card]? = some y := by
      change (order.list set)[Function.update draw i ((order.list set).idxOf y) i % set.card]? = some y
      rw [Function.update_self]
      exact drawn_at order other
    have same : drawOut (.make now order (Function.update draw i ((order.list set).idxOf y))) n (i + 1)
        (set.erase y) = drawOut (.make now order draw) n (i + 1) (set.erase y) := by
      apply drawOut_congr
      · rfl
      · intro k le
        exact Function.update_of_ne (by omega) _ _
    rw [drawOut, picked]
    dsimp only
    rw [same]
    exact kept

/-! ### The set at the key -/

def keptBy (env : Env) (count : UInt64) (set : SetT) : SetT := (drawOut env (min count.toNat set.card) 0 set).2

variable {i : Index} {trn : UInt64} {key : Str} {count : UInt64} {stores : Stores} {set : SetT}

/-- Replaying the record of the call leaves the same set at the key as the call did. -/
def Restored (env env' : Env) (i : Index) (trn : UInt64) (key : Str) (count : UInt64) (stores : Stores) : Prop :=
  ∃ entries after dbs, liveCall env i trn (.setRemove key count) stores = some (entries, after) ∧
    replay (fun _ => env') entries (redoing stores) = some dbs ∧
    (dbs i).store.data.lookup key = (after i).data.lookup key

theorem putSetOrDel_lookup (s : Store) (key : Str) (set : SetT) :
    (s.putSetOrDel key set).data.lookup key = if set = ∅ then none else some (.set set) := by
  unfold Store.putSetOrDel
  split
  · simp
  · simp

theorem setRemove_effect (env : Env) {s : Store} (stored : s.data.lookup key = some (.set set)) :
    ((setRemove env key count).map Reply.set).effect s = some (s.putSetOrDel key (keptBy env count set)) := by
  rw [Operation.map_effect]
  simp only [Operation.effect, setRemove, stored, Option.map_some, keptBy]

theorem setRemove_defined (env : Env) (i : Index) (trn : UInt64) (key : Str) (count : UInt64) (stores : Stores) :
    ∃ entries after, liveCall env i trn (.setRemove key count) stores = some (entries, after) :=
  liveCall_defined rfl (fun _ => rfl) i trn stores

theorem replay_setRemove (env' : Env) (trn : UInt64) (count : UInt64)
    (stored : (stores i).data.lookup key = some (.set set)) (expired : List Str) :
    replay (fun _ => env') (walLog i trn (.setRemove key count) ++ expired.map (.expire i)) (redoing stores) =
      some (redoing (Function.update stores i
        (expired.foldl Store.doExpire ((stores i).putSetOrDel key (keptBy env' count set))))) := by
  have redone : redo env' (redoing stores) (.dbOp i trn (.setRemove key count)) = _ :=
    redo_here rfl (setRemove_effect env' stored)
  change replay (fun _ => env') (.dbOp i trn (.setRemove key count) :: expired.map (.expire i)) _ = _
  rw [replay, redone]
  simp only [Option.bind_eq_bind, Option.bind_some]
  rw [replay_expiries, Function.update_self, Function.update_idem]

theorem restored_expired (env env' : Env) (stored : (stores i).data.lookup key = some (.set set))
    (due : (live stores i).isExpired (env.now 0) key = true) : Restored env env' i trn key count stores := by
  obtain ⟨entries, after, run⟩ := setRemove_defined env i trn key count stores
  obtain ⟨expired, t, effect, -, body, rfl, rfl⟩ := liveCall_here rfl run
  have erased : (live stores i).eraseEach env.now [key] = (live stores i).expire key := by
    simp [Database.eraseEach, Database.eraseIfExpired, due]
  have gone : expired = [key] := by
    have logged : ((live stores i).eraseEach env.now [key]).preExpired = [] ++ expired := effect.logged
    rw [erased] at logged
    exact logged.symm
  have absent : (expired.foldl Store.doExpire (stores i)).data.lookup key = none := by simp [gone]
  have idle : t = expired.foldl Store.doExpire (stores i) := by
    have same := ((setRemove_local env key count).map Reply.set).inert _ absent
    exact Option.some.inj (body.symm.trans same)
  have replayed := replay_setRemove env' trn count stored expired
  refine ⟨_, _, _, run, replayed, ?_⟩
  rw [Function.update_self, idle, absent]
  simp [redoing, gone]

theorem restored_fresh (env env' : Env) (stored : (stores i).data.lookup key = some (.set set))
    (fresh : (live stores i).isExpired (env.now 0) key = false) :
    Restored env env' i trn key count stores ↔ keptBy env' count set = keptBy env count set := by
  obtain ⟨entries, after, run⟩ := setRemove_defined env i trn key count stores
  have total := run
  obtain ⟨expired, t, effect, -, body, rfl, rfl⟩ := liveCall_here rfl run
  have checked : (live stores i).Fresh env.now ((setRemove env key count).map Reply.set).checks :=
    ⟨fresh, trivial⟩
  obtain rfl := fresh_expired checked effect
  have left : t = (stores i).putSetOrDel key (keptBy env count set) :=
    Option.some.inj (body.symm.trans (setRemove_effect env stored))
  subst left
  have same : ∀ first second : SetT,
      ((stores i).putSetOrDel key first).data.lookup key = ((stores i).putSetOrDel key second).data.lookup key ↔
        first = second := by
    intro first second
    rw [putSetOrDel_lookup, putSetOrDel_lookup]
    by_cases one : first = ∅ <;> by_cases two : second = ∅ <;> simp [one, two, Eq.comm]
  constructor
  · rintro ⟨entries, after, dbs, ran, replayed, equal⟩
    rw [total] at ran
    obtain ⟨rfl, rfl⟩ := Prod.mk.inj (Option.some.inj ran)
    rw [replay_setRemove env' trn count stored []] at replayed
    obtain rfl := Option.some.inj replayed
    simp only [redoing, Function.update_self] at equal
    exact (same _ _).mp equal
  · intro equal
    have replayed := replay_setRemove env' trn count stored []
    refine ⟨_, _, _, total, replayed, ?_⟩
    simp [redoing, equal]

/-- For every pair of iteration orders: the removal is restored whatever is drawn exactly when the key
expires, nothing is to be removed, or everything is. -/
theorem setRemove_restored_iff (order order' : Order Str) (now : Nat → Time) (trn : UInt64) (count : UInt64)
    (stored : (stores i).data.lookup key = some (.set set)) :
    (∀ env env' : Env, env.order = order → env'.order = order' → env.now = now →
      Restored env env' i trn key count stores) ↔
    (live stores i).isExpired (now 0) key = true ∨ count = 0 ∨ set.card ≤ count.toNat := by
  constructor
  · intro restored
    by_contra unsafe_
    obtain ⟨due, nonzero, short⟩ : (live stores i).isExpired (now 0) key = false ∧ count ≠ 0 ∧
        count.toNat < set.card := by simpa using unsafe_
    have positive : count.toNat ≠ 0 := fun zero => nonzero (UInt64.toNat_inj.mp zero)
    obtain ⟨n, size⟩ := Nat.exists_eq_succ_of_ne_zero positive
    have drawn : ∀ env, keptBy env count set = (drawOut env (n + 1) 0 set).2 := by
      intro env
      rw [keptBy, Nat.min_eq_left (Nat.le_of_lt short), size]
    obtain ⟨x, member⟩ : set.Nonempty := Finset.card_pos.mp (by omega)
    obtain ⟨draw, removed⟩ := exists_removing now order member n
    obtain ⟨draw', kept⟩ := exists_keeping now order' member (by omega : n + 1 < set.card) 0
    have equal := (restored_fresh (.make now order draw) (.make now order' draw') stored due).mp
      (restored _ _ rfl rfl rfl)
    rw [drawn, drawn] at equal
    rw [← equal] at removed
    exact removed kept
  · rintro safe env env' - - rfl
    by_cases due : (live stores i).isExpired (env.now 0) key = true
    · exact restored_expired env env' stored due
    · refine (restored_fresh env env' stored (by simpa using due)).mpr ?_
      rcases safe with expired | zero | all
      · exact (due expired).elim
      · have none : ∀ env, keptBy env count set = set := by
          intro env
          simp [keptBy, zero, drawOut]
        rw [none, none]
      · have empty : ∀ env, keptBy env count set = ∅ := by
          intro env
          rw [keptBy, Nat.min_eq_right all]
          exact drawOut_all env _ 0 set rfl
        rw [empty, empty]

def pair : Store where
  data := Finmap.insert [107] (.set {[97], [98]}) ∅

theorem setRemove_both_restored :
    pair.data.lookup [107] = some (.set {[97], [98]}) ∧
      ∀ env env' : Env, env.order = .startingWith [] → env'.order = .startingWith [] → env.now = (fun _ => 0) →
        Restored env env' 0 4 [107] 2 fun _ => pair := by
  have stored : pair.data.lookup [107] = some (.set {[97], [98]}) := rfl
  exact ⟨stored, (setRemove_restored_iff _ _ _ 4 2 stored).mpr (.inr (.inr (by decide)))⟩

theorem pair_order : (Order.startingWith ([97] : Str)).list {[97], [98]} = [[97], [98]] := by
  have other : (({[97], [98]} : SetT).erase [97]) = {[98]} := by decide
  simp [Order.startingWith, other]

theorem pair_kept (n : Nat) :
    keptBy (.make (fun _ => 0) (.startingWith [97]) fun _ => n) 1 {[97], [98]} =
      match ([[97], [98]] : List Str)[n % 2]? with
      | none => {[97], [98]}
      | some element => ({[97], [98]} : SetT).erase element := by
  have list : (Env.make (fun _ => 0) (.startingWith [97]) fun _ => n).order.list {[97], [98]} = [[97], [98]] :=
    pair_order
  have size : ({[97], [98]} : SetT).card = 2 := by decide
  have once : min (1 : UInt64).toNat ({[97], [98]} : SetT).card = 1 := by decide
  have drawn : (Env.make (fun _ => 0) (.startingWith [97]) fun _ => n).draw 0 = n := rfl
  rw [keptBy, once, drawOut, list, size, drawn]
  cases ([[97], [98]] : List Str)[n % 2]? with
  | none => rfl
  | some element => rfl

theorem setRemove_one_differs :
    ¬Restored (.make (fun _ => 0) (.startingWith [97]) fun _ => 0) (.make (fun _ => 0) (.startingWith [97]) fun _ => 1)
      0 4 [107] 1 fun _ => pair := by
  have stored : pair.data.lookup [107] = some (.set {[97], [98]}) := rfl
  rw [restored_fresh _ _ stored (by decide), pair_kept, pair_kept]
  decide

end Vanity.Wal
