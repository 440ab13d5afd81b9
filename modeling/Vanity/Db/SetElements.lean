import Vanity.Db.Checks

/-!
# Adding, removing and moving elements

What becomes of the elements of a stored set. Each operation leaves exactly the elements it should, and
no key with an empty set that it has emptied. The count that `set_discard` returns is another matter: it
reads the size of the set after the emptied one has been destroyed.
-/

namespace Vanity.Db

def Store.cell (s : Store) (key : Str) : Option Data × Option Time := (s.data.lookup key, s.expiryTimes.lookup key)

/-- The elements of both are in the set, which counts how many of them are new. -/
def Adds (env : Env) (db : Database) (key : Str) (values : SetT) : Prop :=
  match db.view (env.now 0) key with
  | (none, expiry) => (setAdd key values).Answers env db key (some values.card)
      (if values = ∅ then none else some (.set values)) expiry
  | (some (.set set), expiry) => (setAdd key values).Answers env db key (some (values \ set).card)
      (some (.set (set ∪ values))) expiry
  | (some value, expiry) => ∃ result, (setAdd key values).Answers env db key result (some value) expiry

/-- The difference is left, and the result counts the elements that were there. -/
def Discards (env : Env) (db : Database) (key : Str) (values : SetT) : Prop :=
  match db.view (env.now 0) key with
  | (none, expiry) => (setDiscard env key values).Answers env db key (some 0) none expiry
  | (some (.set set), expiry) => (setDiscard env key values).Answers env db key (some (set ∩ values).card)
      (if set \ values = ∅ then none else some (.set (set \ values))) (if set \ values = ∅ then none else expiry)
  | (some value, expiry) => ∃ result, (setDiscard env key values).Answers env db key result (some value) expiry

/-- The set is split into what is returned and what is left. -/
def Draws (env : Env) (db : Database) (key : Str) (count : UInt64) : Prop :=
  match db.view (env.now 0) key with
  | (none, expiry) => (setRemove env key count).Answers env db key (some ∅) none expiry
  | (some (.set set), expiry) => ∃ out kept, Disjoint out kept ∧ out ∪ kept = set ∧
      out.card = min count.toNat set.card ∧ (setRemove env key count).Answers env db key (some out)
        (if kept = ∅ then none else some (.set kept)) (if kept = ∅ then none else expiry)
  | (some value, expiry) => ∃ result, (setRemove env key count).Answers env db key result (some value) expiry

/-- Between sets the element goes from the source to the destination if it is in the source. -/
def MovesElement (env : Env) (db : Database) (source dest value : Str) : Prop :=
  let s := (db.eraseEach env.now [source, dest]).store
  s.wrongType source = false → s.wrongType dest = false →
    ∃ after, (setMove source dest value).run env db = some (some (decide (value ∈ s.elements source)), after) ∧
      db.Leaves env.now [source, dest] [source, dest] after ∧
      if value ∈ s.elements source then
        after.store.cell dest = (some (.set (insert value (s.elements dest))), s.expiryTimes.lookup dest) ∧
        (source ≠ dest → after.store.cell source =
          if (s.elements source).erase value = ∅ then (none, none)
          else (some (.set ((s.elements source).erase value)), s.expiryTimes.lookup source))
      else after.store = s

structure Conserves (env : Env) (db : Database) (key : Str) (values : SetT) (count : UInt64)
    (source dest value : Str) : Prop where
  add : Adds env db key values
  discard : Discards env db key values
  remove : Draws env db key count
  move : MovesElement env db source dest value

/-! ### Adding -/

section
variable {env : Env} {db : Database} {key : Str}

theorem setAdd_adds (env : Env) (db : Database) (key : Str) (values : SetT) : Adds env db key values := by
  have checked := eraseIfExpired_rebinds db (env.now 0) key
  unfold Adds
  rcases seen : db.view (env.now 0) key with ⟨found, expiry⟩
  rw [seen] at checked
  by_cases empty : values = ∅
  · subst empty
    have body : (setAdd key ∅).body (db.eraseIfExpired (env.now 0) key).2.store =
        some (some 0, (db.eraseIfExpired (env.now 0) key).2.store) := rfl
    cases found with
    | none => exact (Operation.answers_iff rfl).mpr ⟨_, body, checked⟩
    | some stored =>
      cases stored with
      | set set =>
        simp only [Finset.empty_sdiff, Finset.card_empty, Finset.union_empty]
        exact (Operation.answers_iff rfl).mpr ⟨_, body, checked⟩
      | _ => exact ⟨_, (Operation.answers_iff rfl).mpr ⟨_, body, checked⟩⟩
  · cases found with
    | none =>
      dsimp only
      rw [if_neg empty]
      refine (Operation.answers_iff rfl).mpr ⟨_, ?_, (checked.put (.set ∅)).put (.set values)⟩
      simp only [setAdd, if_neg empty, Store.contains_eq, checked.value, Option.isSome_none, Bool.false_eq_true,
        if_false, Store.put_lookup, if_true, Finset.empty_union, Finset.card_empty, Nat.sub_zero]
    | some stored =>
      cases stored with
      | set set =>
        refine (Operation.answers_iff rfl).mpr ⟨_, ?_, checked.put (.set (set ∪ values))⟩
        have counted : (set ∪ values).card - set.card = (values \ set).card := by
          have split := Finset.card_sdiff_add_card values set
          rw [Finset.union_comm]
          omega
        simp only [setAdd, if_neg empty, Store.contains_eq, checked.value, Option.isSome_some, if_true, counted]
      | _ =>
        refine ⟨none, (Operation.answers_iff rfl).mpr ⟨_, ?_, checked⟩⟩
        simp only [setAdd, if_neg empty, Store.contains_eq, checked.value, Option.isSome_some, if_true]

/-! ### Drawing at random -/

/-- Whatever is drawn, it is drawn from the set, and as often as asked. -/
theorem drawOut_splits (env : Env) (count i : Nat) (set : SetT) (enough : count ≤ set.card) :
    Disjoint (drawOut env count i set).1 (drawOut env count i set).2 ∧
      (drawOut env count i set).1 ∪ (drawOut env count i set).2 = set ∧
      (drawOut env count i set).1.card = count := by
  induction count generalizing i set with
  | zero => exact ⟨Finset.disjoint_empty_left _, Finset.empty_union _, rfl⟩
  | succ count ih =>
    have position : env.draw i % set.card < (env.order.list set).length := by
      rw [env.order.length]
      exact Nat.mod_lt _ (by omega)
    obtain ⟨element, drawn⟩ : ∃ element, (env.order.list set)[env.draw i % set.card]? = some element :=
      ⟨_, List.getElem?_eq_getElem position⟩
    have member : element ∈ set := (env.order.mem _ _).mp (List.mem_of_getElem? drawn)
    have left : count ≤ (set.erase element).card := by
      rw [Finset.card_erase_of_mem member]
      omega
    obtain ⟨apart, whole, size⟩ := ih (i + 1) (set.erase element) left
    have out : element ∉ (drawOut env count (i + 1) (set.erase element)).1 := by
      intro again
      have within : element ∈ set.erase element := whole ▸ Finset.mem_union_left _ again
      exact Finset.notMem_erase _ _ within
    have kept : element ∉ (drawOut env count (i + 1) (set.erase element)).2 := by
      intro again
      have within : element ∈ set.erase element := whole ▸ Finset.mem_union_right _ again
      exact Finset.notMem_erase _ _ within
    rw [drawOut, drawn]
    refine ⟨Finset.disjoint_insert_left.mpr ⟨kept, apart⟩, ?_, ?_⟩
    · rw [Finset.insert_union, whole, Finset.insert_erase member]
    · rw [Finset.card_insert_of_notMem out, size]

theorem setRemove_draws (env : Env) (db : Database) (key : Str) (count : UInt64) : Draws env db key count := by
  have checked := eraseIfExpired_rebinds db (env.now 0) key
  unfold Draws
  rcases seen : db.view (env.now 0) key with ⟨found, expiry⟩
  rw [seen] at checked
  cases found with
  | none =>
    refine (Operation.answers_iff rfl).mpr ⟨_, ?_, checked⟩
    simp only [setRemove, checked.value]
  | some stored =>
    cases stored with
    | set set =>
      obtain ⟨apart, whole, size⟩ := drawOut_splits env (min count.toNat set.card) 0 set (Nat.min_le_right ..)
      refine ⟨_, _, apart, whole, size, (Operation.answers_iff rfl).mpr ⟨_, ?_, checked.putSetOrDel _⟩⟩
      simp only [setRemove, checked.value]
    | _ =>
      refine ⟨none, (Operation.answers_iff rfl).mpr ⟨_, ?_, checked⟩⟩
      simp only [setRemove, checked.value]

/-! ### Discarding -/

theorem setDiscard_body {s : Store} {set : SetT} (held : s.data.lookup key = some (.set set)) (env : Env)
    (values : SetT) :
    (setDiscard env key values).body s =
      some (some (sizeDiff set.card (if set \ values = ∅ then env.staleSize else (set \ values).card)),
        s.putSetOrDel key (set \ values)) := by
  simp only [setDiscard, held]

theorem sizeDiff_eq {set values : SetT} (fits : (set ∩ values).card < UInt64.size) :
    sizeDiff set.card (set \ values).card = (set ∩ values).card := by
  have counted : set.card = (set ∩ values).card + (set \ values).card :=
    (Finset.card_inter_add_card_sdiff set values).symm
  rw [sizeDiff, counted, UInt64.ofNat_add, UInt64.add_sub_cancel, UInt64.toNat_ofNat', Nat.mod_eq_of_lt fits]

theorem sizeDiff_lt (size left : Nat) : sizeDiff size left < UInt64.size := UInt64.toNat_lt_size _

/-- No one size of the destroyed set goes with the count, and another one goes with another count. -/
theorem sizeDiff_stale (size : Nat) : sizeDiff size 0 ≠ sizeDiff size 1 := by
  intro same
  have words : UInt64.ofNat size - 0 = UInt64.ofNat size - 1 := UInt64.toNat_inj.mp same
  have equal : (0 : UInt64) = 1 := (UInt64.sub_right_inj _).mp words
  cases equal

theorem exists_env (now : Nat → Time) (size : Nat) : ∃ env : Env, env.now = now ∧ env.staleSize = size :=
  ⟨{ Env.make now (.startingWith []) fun _ => 0 with staleSize := size }, rfl, rfl⟩

/-- The count is right, whatever is read of a destroyed set, exactly if the set is not emptied. -/
theorem setDiscard_discards_iff (now : Nat → Time) (db : Database) (key : Str) (values : SetT) :
    (∀ env : Env, env.now = now → Discards env db key values) ↔
      ∀ set, (db.view (now 0) key).1 = some (.set set) → ¬set ⊆ values ∧ (set ∩ values).card < UInt64.size := by
  constructor
  · intro all set held
    rcases seen : db.view (now 0) key with ⟨found, expiry⟩
    rw [seen] at held
    obtain rfl : found = some (.set set) := held
    have counts : ∀ env : Env, env.now = now →
        (set ∩ values).card =
          sizeDiff set.card (if set \ values = ∅ then env.staleSize else (set \ values).card) := by
      intro env same
      have discards := all env same
      subst same
      have checked := Rebinds.checked seen
      unfold Discards at discards
      rw [seen] at discards
      obtain ⟨t, body, -⟩ := (Operation.answers_iff rfl).mp discards
      rw [setDiscard_body checked.value] at body
      exact (Option.some.inj (Prod.mk.inj (Option.some.inj body)).1).symm
    obtain ⟨first, sameFirst, none⟩ := exists_env now 0
    obtain ⟨second, sameSecond, one⟩ := exists_env now 1
    refine ⟨fun inside => ?_, ?_⟩
    · have empty : set \ values = ∅ := Finset.sdiff_eq_empty_iff_subset.mpr inside
      have here := counts first sameFirst
      have there := counts second sameSecond
      rw [if_pos empty, none] at here
      rw [if_pos empty, one] at there
      exact sizeDiff_stale set.card (here.symm.trans there)
    · rw [counts first sameFirst]
      exact sizeDiff_lt ..
  · rintro fine env rfl
    have checked := eraseIfExpired_rebinds db (env.now 0) key
    unfold Discards
    rcases seen : db.view (env.now 0) key with ⟨found, expiry⟩
    rw [seen] at checked fine
    cases found with
    | none =>
      refine (Operation.answers_iff rfl).mpr ⟨_, ?_, checked⟩
      simp only [setDiscard, checked.value]
    | some stored =>
      cases stored with
      | set set =>
        obtain ⟨outside, fits⟩ := fine set rfl
        have left : set \ values ≠ ∅ := fun empty => outside (Finset.sdiff_eq_empty_iff_subset.mp empty)
        refine (Operation.answers_iff rfl).mpr ⟨_, ?_, checked.putSetOrDel _⟩
        rw [setDiscard_body checked.value, if_neg left, sizeDiff_eq fits]
      | _ =>
        refine ⟨none, (Operation.answers_iff rfl).mpr ⟨_, ?_, checked⟩⟩
        simp only [setDiscard, checked.value]

/-! ### Moving -/

@[simp] theorem Store.cell_put (s : Store) (key other : Str) (value : Data) :
    (s.put key value).cell other = if other = key then (some value, s.expiryTimes.lookup key) else s.cell other := by
  unfold Store.cell
  by_cases same : other = key
  · subst same
    simp
  · simp [same]

@[simp] theorem Store.cell_putSetOrDel (s : Store) (key other : Str) (set : SetT) :
    (s.putSetOrDel key set).cell other =
      if other = key then (if set = ∅ then (none, none) else (some (.set set), s.expiryTimes.lookup key))
      else s.cell other := by
  unfold Store.putSetOrDel
  by_cases empty : set = ∅
  · by_cases same : other = key <;> simp [empty, same, Store.cell]
  · rw [if_neg empty, if_neg empty, Store.cell_put]

theorem setMove_cells {s : Store} {source dest : Str} (value : Str) (sourceTyped : s.wrongType source = false)
    (destTyped : s.wrongType dest = false) :
    ∃ t, (setMove source dest value).body s = some (some (decide (value ∈ s.elements source)), t) ∧
      if value ∈ s.elements source then
        t.cell dest = (some (.set (insert value (s.elements dest))), s.expiryTimes.lookup dest) ∧
        (source ≠ dest → t.cell source = if (s.elements source).erase value = ∅ then (none, none)
          else (some (.set ((s.elements source).erase value)), s.expiryTimes.lookup source))
      else t = s := by
  cases held : s.data.lookup source with
  | none => exact ⟨s, by simp [setMove, held, Store.elements], by simp [Store.elements, held]⟩
  | some stored =>
    cases stored with
    | set set =>
      have here : s.elements source = set := by rw [Store.elements, held]
      rw [here]
      by_cases member : value ∈ set
      · simp only [if_pos member, decide_eq_true member]
        have body : (setMove source dest value).body s = some (s.moveElement source dest value set) := by
          simp only [setMove, held, if_pos member]
        rw [body, moveElement_eq held member]
        by_cases same : source = dest
        · subst same
          rw [if_pos rfl, here, Finset.insert_eq_of_mem member]
          exact ⟨_, rfl, by rw [Store.cell_put, if_pos rfl], fun different => absurd rfl different⟩
        · have moved : ∀ reply : Option Bool × Store, reply =
                (some true, (s.put dest (.set (insert value (s.elements dest)))).putSetOrDel source (set.erase value)) →
              ∃ t, some reply = some (some true, t) ∧
                t.cell dest = (some (.set (insert value (s.elements dest))), s.expiryTimes.lookup dest) ∧
                (source ≠ dest → t.cell source = if set.erase value = ∅ then (none, none)
                  else (some (.set (set.erase value)), s.expiryTimes.lookup source)) := by
            rintro reply rfl
            refine ⟨_, rfl, ?_, fun _ => ?_⟩
            · rw [Store.cell_putSetOrDel, if_neg (Ne.symm same), Store.cell_put, if_pos rfl]
            · rw [Store.cell_putSetOrDel, if_pos rfl, Store.put_expiryTimes]
          rw [if_neg same]
          apply moved
          cases there : s.data.lookup dest with
          | none => rfl
          | some other =>
            cases other with
            | set => rfl
            | _ => simp [Store.wrongType, there] at destTyped
      · simp only [if_neg member, decide_eq_false member]
        exact ⟨s, by simp only [setMove, held, if_neg member], rfl⟩
    | _ => simp [Store.wrongType, held] at sourceTyped

theorem setMove_moves (env : Env) (db : Database) (source dest value : Str) : MovesElement env db source dest value := by
  intro sourceTyped destTyped
  obtain ⟨t, body, cells⟩ := setMove_cells value sourceTyped destTyped
  have within : Store.SameExcept [source, dest] _ t := setMove_within (by rw [Operation.effect, body]; rfl)
  exact ⟨_, Operation.run_of_body body, (db.eraseEach_leaves env.now [source, dest]).within within, cells⟩

end

/-- The elements are conserved, the sets that are emptied deleted and the counts right, whatever is drawn and
whatever is read of a destroyed set, exactly if no set is emptied by a discard. -/
theorem conserves_iff (now : Nat → Time) (db : Database) (key : Str) (values : SetT) (count : UInt64)
    (source dest value : Str) :
    (∀ env : Env, env.now = now → Conserves env db key values count source dest value) ↔
      ∀ set, (db.view (now 0) key).1 = some (.set set) → ¬set ⊆ values ∧ (set ∩ values).card < UInt64.size := by
  rw [← setDiscard_discards_iff now db key values]
  constructor
  · intro conserves env same
    exact (conserves env same).discard
  · intro discards env same
    exact
      { add := setAdd_adds env db key values
        discard := discards env same
        remove := setRemove_draws env db key count
        move := setMove_moves env db source dest value }

/-- `SET_DISCARD` of the only element of a set. -/
theorem singleton_miscounted : ¬∀ env : Env, env.now = (fun _ => 0) →
    Conserves env (.holding [115] (.set {[97]})) [115] {[97]} 0 [115] [116] [97] := by
  intro conserves
  have discards := (setDiscard_discards_iff _ _ _ _).mp fun env same => (conserves env same).discard
  exact (discards {[97]} (by rw [Database.holding_view])).1 (Finset.Subset.refl _)

end Vanity.Db
