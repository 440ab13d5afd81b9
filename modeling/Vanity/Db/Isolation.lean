import Vanity.Db.Frames
import Vanity.Library.Unwinding

/-!
# Clients that keep to their own keys

The calls and purges of any number of clients, in any order, on the sixteen databases. A client that
reads only places that nobody else writes gets the replies that it would get if it were alone. All that
the others can do to such a place is to remove it when its time has passed, and that is what only the
calls that do not check their key can tell.
-/

namespace Vanity.Db

/-- The places on which a call acts without a look at whether their time has passed. -/
def Op.unchecked (i : Index) : Op → Set Place
  | .del key | .setExpiry key _ | .clearExpiry key => {(i, key)}
  | .clearAllExpiry => {place | place.1 = i}
  | .moveTo source dest => if source = dest then ∅ else {(i, dest)}
  | .moveToDb key to_ => if i = to_ then ∅ else {(to_, key)}
  | _ => ∅

/-! ### A server ahead of another -/

/-- The key holds the same in both, or its time has passed and the first has removed it already. -/
def Near (t : Time) (db alone : Database) (key : Str) : Prop :=
  alone.store.held key = db.store.held key ∨ db.store.held key = (none, none) ∧ alone.isExpired t key = true

structure Database.Ahead (t : Time) (mine : Set Str) (db alone : Database) : Prop where
  enabled : alone.expiryEnabled = db.expiryEnabled
  near : ∀ key ∈ mine, Near t db alone key

theorem passed_later {t t' : Time} {enabled : Bool} {expiry : Option Time} (past : passed t enabled expiry = true)
    (later : t ≤ t') : passed t' enabled expiry = true := by
  cases expiry with
  | none => simp at past
  | some time =>
    simp only [passed, Bool.and_eq_true, decide_eq_true_eq, gt_iff_lt, Int64.lt_iff_toInt_lt,
      Int64.le_iff_toInt_le] at past later ⊢
    exact ⟨past.1, by omega⟩

section
variable {t t' now : Time} {db db' alone alone' : Database} {key other : Str} {mine : Set Str} {keys : List Str}

theorem isExpired_later (gone : db.isExpired t key = true) (later : t ≤ t') : db.isExpired t' key = true := by
  rw [Database.isExpired_eq] at gone ⊢
  exact passed_later gone later

theorem isExpired_held (enabled : alone.expiryEnabled = db.expiryEnabled)
    (same : alone.store.held key = db.store.held key) (t : Time) : alone.isExpired t key = db.isExpired t key := by
  rw [Database.isExpired_eq, Database.isExpired_eq, enabled, (Prod.mk.inj same).2]

theorem isExpired_none (none_ : db.store.held key = (none, none)) (t : Time) : db.isExpired t key = false := by
  rw [Database.isExpired_eq, (Prod.mk.inj none_).2, passed_none]

theorem eraseEach_alive {now : Nat → Time} (alive : db.isExpired t key = false) :
    (db.eraseEach now keys).isExpired t key = false := by
  obtain ⟨expired, checked, -⟩ := db.eraseEach_expired now keys
  rcases Database.eraseEach_spared now keys db key with same | ⟨none_, -⟩
  · rw [isExpired_held checked.enabled same, alive]
  · exact isExpired_none none_ t

theorem Near.equal (near : Near t db alone key) (alive : alone.isExpired t key = false) :
    alone.store.held key = db.store.held key := by
  rcases near with same | ⟨-, gone⟩
  · exact same
  · rw [alive] at gone
    cases gone

theorem Near.congr (near : Near t db alone key) (first : db'.store.held key = db.store.held key)
    (second : alone'.store.held key = alone.store.held key) (enabled : alone'.expiryEnabled = alone.expiryEnabled) :
    Near t db' alone' key := by
  rw [Near, first, second, isExpired_held enabled second]
  exact near

namespace Database

theorem Ahead.refl (t : Time) (mine : Set Str) (db : Database) : db.Ahead t mine db := ⟨rfl, fun _ _ => .inl rfl⟩

theorem Ahead.later (ahead : db.Ahead t mine alone) (later : t ≤ t') : db.Ahead t' mine alone where
  enabled := ahead.enabled
  near key own := (ahead.near key own).imp_right fun gone => ⟨gone.1, isExpired_later gone.2 later⟩

/-- What others do to the first database. -/
theorem Ahead.spared {now : Nat → Time} (ahead : db.Ahead t mine alone) (spared : ∀ key ∈ mine, Spared now db db' key)
    (enabled : db'.expiryEnabled = db.expiryEnabled) (readings : ∀ n, now n ≤ t') (later : t ≤ t') :
    db'.Ahead t' mine alone := by
  refine ⟨ahead.enabled.trans enabled.symm, fun key own => ?_⟩
  rcases spared key own with kept | ⟨removed, n, gone⟩
  · exact ((ahead.later later).near key own).congr kept rfl rfl
  · refine .inr ⟨removed, ?_⟩
    rcases ahead.near key own with same | ⟨-, already⟩
    · rw [← isExpired_held ahead.enabled same] at gone
      exact isExpired_later gone (readings n)
    · exact isExpired_later already later

theorem eraseIfExpired_held (db : Database) (now : Time) (key other : Str) :
    (db.eraseIfExpired now key).2.store.held other =
      if other = key ∧ db.isExpired now key = true then (none, none) else db.store.held other := by
  rw [(eraseIfExpired_expired db now key).held]
  cases db.isExpired now key with
  | true => simp
  | false => simp

theorem eraseIfExpired_same (enabled : alone.expiryEnabled = db.expiryEnabled)
    (same : alone.store.held other = db.store.held other) (now : Time) (key : Str) :
    (alone.eraseIfExpired now key).2.store.held other = (db.eraseIfExpired now key).2.store.held other := by
  rw [eraseIfExpired_held, eraseIfExpired_held, same]
  by_cases equal : other = key
  · subst equal
    rw [isExpired_held enabled same]
  · rw [if_neg fun both => equal both.1, if_neg fun both => equal both.1]

theorem eraseEach_same {now : Nat → Time} (enabled : alone.expiryEnabled = db.expiryEnabled)
    (same : alone.store.held other = db.store.held other) :
    (alone.eraseEach now keys).store.held other = (db.eraseEach now keys).store.held other := by
  induction keys generalizing now db alone with
  | nil => exact same
  | cons key keys ih =>
    refine ih ?_ (eraseIfExpired_same enabled same (now 0) key)
    rw [(eraseIfExpired_expired _ _ _).enabled, (eraseIfExpired_expired _ _ _).enabled, enabled]

theorem Ahead.check (ahead : db.Ahead t mine alone) (own : key ∈ mine) (later : t ≤ now) :
    (db.eraseIfExpired now key).2.Ahead t mine (alone.eraseIfExpired now key).2 ∧
      (alone.eraseIfExpired now key).2.store.held key = (db.eraseIfExpired now key).2.store.held key := by
  have enabled := (eraseIfExpired_expired db now key).enabled
  have enabled' := (eraseIfExpired_expired alone now key).enabled
  have equal : (alone.eraseIfExpired now key).2.store.held key = (db.eraseIfExpired now key).2.store.held key := by
    rcases ahead.near key own with same | ⟨none_, gone⟩
    · exact eraseIfExpired_same ahead.enabled same now key
    · rw [eraseIfExpired_held, eraseIfExpired_held, if_pos ⟨rfl, isExpired_later gone later⟩, none_, ite_self]
  refine ⟨⟨by rw [enabled, enabled', ahead.enabled], fun other owned => ?_⟩, equal⟩
  by_cases same : other = key
  · subst same
    exact .inl equal
  · refine (ahead.near other owned).congr ?_ ?_ enabled'
    · rw [eraseIfExpired_held, if_neg fun both => same both.1]
    · rw [eraseIfExpired_held, if_neg fun both => same both.1]

/-- Behind their checks both databases hold the same at the keys that were checked. -/
theorem Ahead.checks {now : Nat → Time} (ahead : db.Ahead t mine alone) (own : ∀ key ∈ keys, key ∈ mine)
    (later : ∀ n, t ≤ now n) :
    (db.eraseEach now keys).Ahead t mine (alone.eraseEach now keys) ∧
      Store.SameAt keys (db.eraseEach now keys).store (alone.eraseEach now keys).store := by
  induction keys generalizing now db alone with
  | nil => exact ⟨ahead, nofun⟩
  | cons key keys ih =>
    obtain ⟨next, equal⟩ := ahead.check (own key List.mem_cons_self) (later 0)
    obtain ⟨last, same⟩ := ih next (fun other member => own other (List.mem_cons_of_mem key member)) fun n => later (n + 1)
    refine ⟨last, fun other member => ?_⟩
    rcases List.mem_cons.mp member with rfl | rest
    · have kept : (Database.eraseEach (fun n => now (n + 1)) keys (alone.eraseIfExpired (now 0) other).2).store.held other =
          (Database.eraseEach (fun n => now (n + 1)) keys (db.eraseIfExpired (now 0) other).2).store.held other :=
        eraseEach_same next.enabled equal
      exact Prod.mk.inj kept
    · exact same other rest

end Database

/-! ### Calls of the client -/

theorem Edit.same {checks : List Str} {s s' : Store} (edit : Edit) (same : Store.SameAt checks s s') :
    Store.SameAt checks (edit.apply s) (edit.apply s') := by
  intro key member
  have before := same key member
  cases edit with
  | put at_ value => simp [Edit.apply, before.1, before.2]
  | bind at_ value => simp [Edit.apply, before.1, before.2]
  | remove at_ => simp [Edit.apply, before.1, before.2]

theorem Edit.ahead {checks : List Str} (edit : Edit) (ahead : db.Ahead t mine alone)
    (same : Store.SameAt checks db.store alone.store) (within : edit.Within checks) :
    Database.Ahead t mine { db with store := edit.apply db.store } { alone with store := edit.apply alone.store } := by
  refine ⟨ahead.enabled, fun key own => ?_⟩
  have near := ahead.near key own
  cases edit with
  | put at_ value =>
    by_cases equal : key = at_
    · subst equal
      refine .inl ?_
      simp [Store.held, Edit.apply, (same key within).2]
    · exact near.congr (by simp [Store.held, Edit.apply, equal]) (by simp [Store.held, Edit.apply, equal]) rfl
  | bind at_ value =>
    by_cases equal : key = at_
    · refine .inl ?_
      simp [Store.held, Edit.apply, equal]
    · exact near.congr (by simp [Store.held, Edit.apply, equal]) (by simp [Store.held, Edit.apply, equal]) rfl
  | remove at_ =>
    by_cases equal : key = at_
    · refine .inl ?_
      simp [Store.held, Edit.apply, equal]
    · exact near.congr (by simp [Store.held, Edit.apply, equal]) (by simp [Store.held, Edit.apply, equal]) rfl

theorem applyAll_ahead {checks : List Str} {edits : List Edit} (ahead : db.Ahead t mine alone)
    (same : Store.SameAt checks db.store alone.store) (within : ∀ edit ∈ edits, edit.Within checks) :
    Database.Ahead t mine { db with store := applyAll edits db.store }
      { alone with store := applyAll edits alone.store } := by
  induction edits generalizing db alone with
  | nil => exact ahead
  | cons edit edits ih =>
    exact ih (edit.ahead ahead same (within edit List.mem_cons_self)) (edit.same same)
      fun other member => within other (List.mem_cons_of_mem edit member)

end

theorem checks_reads {op : Op} {env : Env} {i : Index} {operation : Operation Reply} {key : Str}
    (action : op.action env = .here operation) (member : key ∈ operation.checks) : (i, key) ∈ op.reads i := by
  cases op with
  | begin | commit | discard | keys | copyToDb | moveToDb | manyGet => cases action
  | reset | clearAllExpiry | clearExpiry | del | setExpiry | strSet | intSet | floatSet | hashSet =>
    obtain rfl := Action.here.inj action
    cases member
  | setUnion | setUnionInto | setUnionLen | setIntersection | setIntersectionInto | setIntersectionLen =>
    obtain rfl := Action.here.inj action
    exact ⟨rfl, member⟩
  | setMove first second | setDifference first second | setDifferenceInto _ first second
  | setDifferenceLen first second =>
    obtain rfl := Action.here.inj action
    rcases List.mem_pair.mp member with rfl | rfl
    · exact .inl rfl
    · exact .inr rfl
  | listGet at_ | listSet at_ =>
    obtain rfl := Action.here.inj action
    obtain rfl : key = at_ := by
      rcases List.mem_pair.mp member with same | same
      · exact same
      · exact same
    rfl
  | _ =>
    obtain rfl := Action.here.inj action
    obtain rfl := List.mem_singleton.mp member
    rfl

def Ahead (t : Time) (P : Set Place) (dbs alone : Databases) : Prop :=
  ∀ i, (dbs i).Ahead t {key | (i, key) ∈ P} (alone i)

section
variable {t t' : Time} {P : Set Place} {dbs alone after : Databases} {env : Env} {i j : Index} {op : Op} {reply : Reply}
  {mine : Set Str} {db db' : Database} {key source dest : Str}

theorem Ahead.later (ahead : Ahead t P dbs alone) (later : t ≤ t') : Ahead t' P dbs alone := fun i =>
  (ahead i).later later

theorem Ahead.update (ahead : Ahead t P dbs alone) (here : db.Ahead t {key | (i, key) ∈ P} db') :
    Ahead t P (Function.update dbs i db) (Function.update alone i db') := by
  intro j
  by_cases same : j = i
  · subst same
    rwa [Function.update_self, Function.update_self]
  · rw [Function.update_of_ne same, Function.update_of_ne same]
    exact ahead j

/-- The body of a call keeps one database ahead of the other, and gives the same reply on both. -/
def KeepsAhead (t : Time) (mine : Set Str) (body : Store → Option (Reply × Store)) (db alone : Database) : Prop :=
  ∀ reply s, body db.store = some (reply, s) →
    ∃ s', body alone.store = some (reply, s') ∧ Database.Ahead t mine { db with store := s } { alone with store := s' }

theorem Ahead.here {operation : Operation Reply} (ahead : Ahead t P dbs alone)
    (action : op.action env = .here operation) (reads : op.reads i ⊆ P) (later : ∀ n, t ≤ env.now n)
    (keeps : ∀ db db' : Database, db.Ahead t {key | (i, key) ∈ P} db' →
      Store.SameAt operation.checks db.store db'.store →
      (∀ key, (alone i).isExpired t key = false → db'.isExpired t key = false) →
      KeepsAhead t {key | (i, key) ∈ P} operation.body db db')
    (runs : exec op env i dbs = some (reply, after)) :
    ∃ after', exec op env i alone = some (reply, after') ∧ Ahead t P after after' := by
  rw [exec_here i dbs action] at runs
  obtain ⟨⟨result, s⟩, body, same⟩ := Option.map_eq_some_iff.mp runs
  obtain ⟨rfl, rfl⟩ := Prod.mk.inj same
  obtain ⟨checked, equal⟩ := (ahead i).checks (fun key member => reads (checks_reads action member)) later
  obtain ⟨s', body', kept⟩ := keeps _ _ checked equal (fun key => eraseEach_alive) result s body
  rw [exec_here i alone action, body']
  exact ⟨_, rfl, ahead.update kept⟩

/-- The calls that edit keys they have checked. -/
theorem Ahead.plain {operation : Operation Reply} (ahead : Ahead t P dbs alone)
    (action : op.action env = .here operation) (plain : op.direct = false) (reads : op.reads i ⊆ P)
    (later : ∀ n, t ≤ env.now n) (runs : exec op env i dbs = some (reply, after)) :
    ∃ after', exec op env i alone = some (reply, after') ∧ Ahead t P after after' := by
  refine ahead.here action reads later (fun db db' near same _ reply s body => ?_) runs
  rcases here_uniform action plain db.store db'.store same with ⟨none_, -⟩ | ⟨result, edits, here, there, within, -⟩
  · rw [none_] at body
    cases body
  · rw [here] at body
    obtain ⟨rfl, rfl⟩ := Prod.mk.inj (Option.some.inj body)
    exact ⟨_, there, applyAll_ahead near same within⟩

/-! ### Calls that act on unchecked keys -/

theorem reset_keeps (ahead : db.Ahead t mine db') : KeepsAhead t mine (reset.map fun _ => .done).body db db' := by
  intro reply s body
  obtain ⟨rfl, rfl⟩ := Prod.mk.inj (Option.some.inj body)
  exact ⟨{}, rfl, ahead.enabled, fun key _ => .inl rfl⟩

theorem del_keeps (ahead : db.Ahead t mine db') (own : key ∈ mine) (alive : db'.isExpired t key = false) :
    KeepsAhead t mine ((del key).map .flag).body db db' := by
  intro reply s body
  obtain ⟨rfl, rfl⟩ := Prod.mk.inj (Option.some.inj body)
  have equal := (ahead.near key own).equal alive
  have found : db'.store.contains key = db.store.contains key := by
    rw [Store.contains_eq, Store.contains_eq, (Prod.mk.inj equal).1]
  have none_ : Store.SameAt [] db.store db'.store := fun _ member => by cases member
  refine ⟨db'.store.doExpire key, ?_, (Edit.remove key).ahead ahead none_ trivial⟩
  show some (Reply.flag (db'.store.contains key), db'.store.doExpire key) = _
  rw [found]
  rfl

theorem clearExpiry_keeps (ahead : db.Ahead t mine db') (alive : key ∈ mine → db'.isExpired t key = false) :
    KeepsAhead t mine ((clearExpiry key).map fun _ => .done).body db db' := by
  intro reply s body
  obtain ⟨rfl, rfl⟩ := Prod.mk.inj (Option.some.inj body)
  refine ⟨db'.store.clearExpiry key, rfl, ahead.enabled, fun other own => ?_⟩
  by_cases same : other = key
  · subst same
    have equal := (ahead.near other own).equal (alive own)
    refine .inl ?_
    simp [Store.held, (Prod.mk.inj equal).1]
  · exact (ahead.near other own).congr (by simp [Store.held, same]) (by simp [Store.held, same]) rfl

theorem setExpiry_keeps {time : Time} (ahead : db.Ahead t mine db') (own : key ∈ mine)
    (alive : db'.isExpired t key = false) : KeepsAhead t mine ((setExpiry key time).map fun _ => .done).body db db' := by
  intro reply s body
  obtain ⟨rfl, rfl⟩ := Prod.mk.inj (Option.some.inj body)
  have equal := (ahead.near key own).equal alive
  have found : db'.store.contains key = db.store.contains key := by
    rw [Store.contains_eq, Store.contains_eq, (Prod.mk.inj equal).1]
  refine ⟨_, rfl, ahead.enabled, fun other owned => ?_⟩
  have near := ahead.near other owned
  by_cases same : other = key
  · subst same
    refine .inl ?_
    show Store.held (if db'.store.contains other then _ else _) other = Store.held (if db.store.contains other then _ else _) other
    rw [found]
    cases db.store.contains other with
    | false => exact equal
    | true => simp [Store.held, (Prod.mk.inj equal).1]
  · exact near.congr (setExpiry_held db.store same) (setExpiry_held db'.store same) rfl

theorem clearAllExpiry_keeps (ahead : db.Ahead t mine db') (alive : ∀ key ∈ mine, db'.isExpired t key = false) :
    KeepsAhead t mine (clearAllExpiry.map fun _ => .done).body db db' := by
  intro reply s body
  obtain ⟨rfl, rfl⟩ := Prod.mk.inj (Option.some.inj body)
  refine ⟨_, rfl, ahead.enabled, fun key own => .inl ?_⟩
  have equal := (ahead.near key own).equal (alive key own)
  simp [Store.held, (Prod.mk.inj equal).1]

theorem moveTo_keeps (ahead : db.Ahead t mine db') (same : Store.SameAt [source] db.store db'.store)
    (alive : source ≠ dest → dest ∈ mine → db'.isExpired t dest = false) :
    KeepsAhead t mine ((moveTo source dest).map .flag).body db db' := by
  have read := same source List.mem_cons_self
  intro reply s body
  have moved : some (Reply.flag (movedTo source dest db.store).1, (movedTo source dest db.store).2) = some (reply, s) := body
  obtain ⟨rfl, rfl⟩ := Prod.mk.inj (Option.some.inj moved)
  refine ⟨(movedTo source dest db'.store).2, ?_, ahead.enabled, fun key own => ?_⟩
  · show some (Reply.flag (movedTo source dest db'.store).1, (movedTo source dest db'.store).2) = _
    have flags : (movedTo source dest db'.store).1 = (movedTo source dest db.store).1 := by
      rw [movedTo, movedTo, read.1]
      cases db.store.data.lookup source with
      | none => rfl
      | some value => by_cases equal : source = dest <;> simp [equal]
    rw [flags]
  · cases stored : db.store.data.lookup source with
    | none =>
      refine (ahead.near key own).congr ?_ ?_ rfl
      · show (movedTo source dest db.store).2.held key = _
        rw [movedTo, stored]
      · show (movedTo source dest db'.store).2.held key = _
        rw [movedTo, read.1, stored]
    | some value =>
      by_cases self : source = dest
      · refine (ahead.near key own).congr ?_ ?_ rfl
        · show (movedTo source dest db.store).2.held key = _
          rw [movedTo, stored]
          simp [self]
        · show (movedTo source dest db'.store).2.held key = _
          rw [movedTo, read.1, stored]
          simp [self]
      · have first := movedTo_held stored self key
        have second := movedTo_held (read.1.trans stored) self key
        rw [read.2] at second
        by_cases atSource : key = source
        · rw [if_pos atSource] at first second
          exact .inl (second.trans first.symm)
        · by_cases atDest : key = dest
          · subst atDest
            have equal := (ahead.near key own).equal (alive self own)
            rw [if_neg atSource, if_pos rfl] at first second
            rw [(Prod.mk.inj equal).2] at second
            exact .inl (second.trans first.symm)
          · rw [if_neg atSource, if_neg atDest] at first second
            exact (ahead.near key own).congr first second rfl


/-! ### Transfers -/

theorem Ahead.transfer {transfer : Str → Store → Store → Bool × Store × Store} (ahead : Ahead t P dbs alone)
    (own : (i, key) ∈ P) (later : t ≤ env.now 0)
    (keeps : i ≠ j → ∀ db db' : Database, db.Ahead t {key | (i, key) ∈ P} db' → db'.store.held key = db.store.held key →
      (transfer key db'.store (alone j).store).1 = (transfer key db.store (dbs j).store).1 ∧
      Database.Ahead t {key | (i, key) ∈ P} { db with store := (transfer key db.store (dbs j).store).2.1 }
        { db' with store := (transfer key db'.store (alone j).store).2.1 } ∧
      Database.Ahead t {key | (j, key) ∈ P} { dbs j with store := (transfer key db.store (dbs j).store).2.2 }
        { alone j with store := (transfer key db'.store (alone j).store).2.2 }) :
    (transferDb transfer key i j env alone).1 = (transferDb transfer key i j env dbs).1 ∧
      Ahead t P (transferDb transfer key i j env dbs).2 (transferDb transfer key i j env alone).2 := by
  obtain ⟨checked, equal⟩ := (ahead i).check own later
  by_cases self : i = j
  · subst self
    rw [transferDb_self, transferDb_self, Store.contains_eq, Store.contains_eq, (Prod.mk.inj equal).1]
    exact ⟨rfl, ahead.update checked⟩
  · obtain ⟨flags, source, dest⟩ := keeps self _ _ checked equal
    rw [transferDb_other self, transferDb_other self]
    exact ⟨flags, (ahead.update source).update dest⟩

theorem copyToDb_keeps {s s' : Store} (ahead : db.Ahead t mine db') (same : s'.held key = s.held key) :
    (copyToDb key s' db'.store).1 = (copyToDb key s db.store).1 ∧
      Database.Ahead t mine { db with store := (copyToDb key s db.store).2.2 }
        { db' with store := (copyToDb key s' db'.store).2.2 } := by
  rw [copyToDb, copyToDb, (Prod.mk.inj same).1]
  cases s.data.lookup key with
  | none => exact ⟨rfl, ahead⟩
  | some value =>
    have none_ : Store.SameAt [] db.store db'.store := fun _ member => by cases member
    exact ⟨rfl, (Edit.bind key value).ahead ahead none_ trivial⟩

theorem moveToDb_keeps {s s' : Store} (ahead : db.Ahead t mine db') (same : s'.held key = s.held key)
    (alive : key ∈ mine → db'.isExpired t key = false) :
    (moveToDb key s' db'.store).1 = (moveToDb key s db.store).1 ∧
      Database.Ahead t mine { db with store := (moveToDb key s db.store).2.2 }
        { db' with store := (moveToDb key s' db'.store).2.2 } := by
  obtain ⟨data, expiry⟩ := Prod.mk.inj same
  rw [moveToDb, moveToDb, data]
  cases s.data.lookup key with
  | none => exact ⟨rfl, ahead⟩
  | some value =>
    refine ⟨rfl, ahead.enabled, fun other own => ?_⟩
    by_cases equal : other = key
    · subst equal
      have before := (ahead.near other own).equal (alive own)
      refine .inl ?_
      simp [Store.held, copyExpiry_data, copyExpiry_expiry, expiry, (Prod.mk.inj before).2]
    · exact (ahead.near other own).congr (by simp [Store.held, copyExpiry_data, copyExpiry_expiry, equal])
        (by simp [Store.held, copyExpiry_data, copyExpiry_expiry, equal]) rfl

theorem moveToDb_source_keeps {s s' : Store} (ahead : db.Ahead t mine db')
    (same : db'.store.held key = db.store.held key) :
    Database.Ahead t mine { db with store := (moveToDb key db.store s).2.1 }
      { db' with store := (moveToDb key db'.store s').2.1 } := by
  rw [moveToDb, moveToDb, (Prod.mk.inj same).1]
  cases db.store.data.lookup key with
  | none => exact ahead
  | some value =>
    have none_ : Store.SameAt [] db.store db'.store := fun _ member => by cases member
    exact (Edit.remove key).ahead ahead none_ trivial

/-! ### Traversals -/

theorem manyGetLoop_keeps {now : Nat → Time} {keys : List Str} (ahead : db.Ahead t mine db')
    (own : ∀ key ∈ keys, key ∈ mine) (later : ∀ n, t ≤ now n) :
    (manyGetLoop now keys db').1 = (manyGetLoop now keys db).1 ∧
      (manyGetLoop now keys db).2.Ahead t mine (manyGetLoop now keys db').2 := by
  induction keys generalizing now db db' with
  | nil => exact ⟨rfl, ahead⟩
  | cons key keys ih =>
    obtain ⟨next, equal⟩ := ahead.check (own key List.mem_cons_self) (later 0)
    obtain ⟨values, last⟩ := ih next (fun other member => own other (List.mem_cons_of_mem key member)) fun n => later (n + 1)
    refine ⟨?_, last⟩
    show _ :: _ = _ :: _
    rw [values]
    exact congrArg (· :: _) (Prod.mk.inj equal).1

theorem manyGet_keeps {keys : List Str} (ahead : db.Ahead t mine db') (own : ∀ key ∈ keys, key ∈ mine)
    (later : ∀ n, t ≤ env.now n) :
    (manyGet keys env db').1 = (manyGet keys env db).1 ∧
      (manyGet keys env db).2.Ahead t mine (manyGet keys env db').2 :=
  manyGetLoop_keeps (ahead.checks own later).1 own fun _ => later _

theorem expiredAmong_still {now : Nat → Time} (still : ∀ n key, db.isExpired (now n) key = db.isExpired t key)
    (keys : List Str) : db.expiredAmong now keys = db.expiredAmong (fun _ => t) keys := by
  induction keys generalizing now with
  | nil => rfl
  | cons key keys ih => rw [Database.expiredAmong, Database.expiredAmong, ih fun n => still (n + 1), still 0 key]

/-- A purge in which no key comes to its time leaves what can be seen. -/
theorem deepPurge_held (readings : ∀ n, t ≤ env.now n ∧ env.now n ≤ t')
    (still : ∀ key, db.isExpired t' key = true → db.isExpired t key = true) (key : Str) :
    (db.deepPurge env).store.held key = db.view t key := by
  have same : ∀ n key, db.isExpired (env.now n) key = db.isExpired t key := by
    intro n key
    cases gone : db.isExpired t key with
    | true => exact isExpired_later gone (readings n).1
    | false =>
      refine Bool.eq_false_iff.mpr fun due => ?_
      rw [still key (isExpired_later due (readings n).2)] at gone
      cases gone
  have frozen : db.deepPurge env = db.deepPurge (env.at t) := by
    rw [Database.deepPurge, Database.deepPurge, expiredAmong_still same]
    rfl
  obtain ⟨sim, fresh⟩ := Database.deepPurge_sim env t db
  rw [frozen, sim.view key, Database.view_fresh (fresh key), Store.held]

theorem Near.view (near : Near t db db' key) (enabled : db'.expiryEnabled = db.expiryEnabled) :
    db'.view t key = db.view t key := by
  rcases near with same | ⟨none_, gone⟩
  · rw [Database.view, Database.view, Store.view, Store.view, enabled, (Prod.mk.inj same).1, (Prod.mk.inj same).2]
  · rw [Database.view_expired gone, Database.view_fresh (isExpired_none none_ t)]
    exact none_.symm

theorem keys_keeps (ahead : db.Ahead t mine db') (own : ∀ key, key ∈ mine)
    (readings : ∀ n, t ≤ env.now n ∧ env.now n ≤ t')
    (still : ∀ key, db'.isExpired t' key = true → db'.isExpired t key = true) :
    (keys db' env).1 = (keys db env).1 ∧ (keys db env).2.Ahead t mine (keys db' env).2 := by
  have still_ : ∀ key, db.isExpired t' key = true → db.isExpired t key = true := by
    intro key due
    rcases ahead.near key (own key) with same | ⟨none_, -⟩
    · rw [← isExpired_held ahead.enabled same] at due ⊢
      exact still key due
    · rw [isExpired_none none_] at due
      cases due
  have equal : ∀ key, (db'.deepPurge env).store.held key = (db.deepPurge env).store.held key := by
    intro key
    rw [deepPurge_held readings still, deepPurge_held readings still_]
    exact (ahead.near key (own key)).view ahead.enabled
  refine ⟨Finset.ext fun key => ?_, ?_, fun key _ => .inl (equal key)⟩
  · show key ∈ (db'.deepPurge env).store.data.keys ↔ key ∈ (db.deepPurge env).store.data.keys
    rw [Finmap.mem_keys, Finmap.mem_keys, ← Finmap.lookup_isSome, ← Finmap.lookup_isSome, (Prod.mk.inj (equal key)).1]
  · show (db'.deepPurge env).expiryEnabled = (db.deepPurge env).expiryEnabled
    rw [(Database.deepPurge_spared env db').2, (Database.deepPurge_spared env db).2, ahead.enabled]

end

/-! ### One call -/

/-- None of the places on which the call acts unchecked has expired, and no key comes to its time while the
keys are listed. -/
def Op.Careful (op : Op) (P : Set Place) (i : Index) (began ended : Time) (dbs : Databases) : Prop :=
  (∀ place ∈ op.unchecked i, place ∈ P → (dbs place.1).isExpired began place.2 = false) ∧
    (op.kind = .keys → ∀ key, (dbs i).isExpired ended key = true → (dbs i).isExpired began key = true)

section
variable {t t' : Time} {P : Set Place} {dbs alone after : Databases} {env : Env} {i : Index} {op : Op} {reply : Reply}

/-- A call of the client has the same reply on both servers. -/
theorem Ahead.own (ahead : Ahead t P dbs alone) (reads : op.reads i ⊆ P)
    (readings : ∀ n, t ≤ env.now n ∧ env.now n ≤ t') (careful : op.Careful P i t t' alone)
    (runs : exec op env i dbs = some (reply, after)) :
    ∃ after', exec op env i alone = some (reply, after') ∧ Ahead t P after after' := by
  have later : ∀ n, t ≤ env.now n := fun n => (readings n).1
  obtain ⟨alive, still⟩ := careful
  cases action : op.action env with
  | idle =>
    rw [exec_idle i dbs action] at runs
    obtain ⟨rfl, rfl⟩ := Prod.mk.inj (Option.some.inj runs)
    exact ⟨alone, exec_idle i alone action, ahead⟩
  | here operation =>
    cases plain : op.direct with
    | false => exact ahead.plain action plain reads later runs
    | true =>
      refine ahead.here action reads later (fun db db' near same kept => ?_) runs
      have fresh : ∀ key, (i, key) ∈ op.unchecked i → (i, key) ∈ P → db'.isExpired t key = false :=
        fun key member own => kept key (alive (i, key) member own)
      cases op with
      | reset =>
        obtain rfl := Action.here.inj action
        exact reset_keeps near
      | del key =>
        obtain rfl := Action.here.inj action
        exact del_keeps near (reads rfl) (fresh key rfl (reads rfl))
      | setExpiry key =>
        obtain rfl := Action.here.inj action
        exact setExpiry_keeps near (reads rfl) (fresh key rfl (reads rfl))
      | clearExpiry key =>
        obtain rfl := Action.here.inj action
        exact clearExpiry_keeps near (fresh key rfl)
      | clearAllExpiry =>
        obtain rfl := Action.here.inj action
        exact clearAllExpiry_keeps near fun key own => fresh key rfl own
      | moveTo source dest =>
        obtain rfl := Action.here.inj action
        refine moveTo_keeps near same fun different own => fresh dest ?_ own
        rw [Op.unchecked, if_neg different]
        rfl
      | _ => cases plain
  | across transfer key to_ =>
    rw [exec_across i dbs action] at runs
    obtain ⟨rfl, rfl⟩ := Prod.mk.inj (Option.some.inj runs)
    have moved : (transferDb transfer key i to_ env alone).1 = (transferDb transfer key i to_ env dbs).1 ∧
        Ahead t P (transferDb transfer key i to_ env dbs).2 (transferDb transfer key i to_ env alone).2 := by
      cases op with
      | copyToDb moved to_ =>
        obtain ⟨rfl, rfl, rfl⟩ := Action.across.inj action
        refine ahead.transfer (reads rfl) (later 0) fun different db db' near same => ?_
        obtain ⟨flags, dest⟩ := copyToDb_keeps (ahead to_) same
        rw [copyToDb_source, copyToDb_source]
        exact ⟨flags, near, dest⟩
      | moveToDb moved to_ =>
        obtain ⟨rfl, rfl, rfl⟩ := Action.across.inj action
        refine ahead.transfer (reads rfl) (later 0) fun different db db' near same => ?_
        obtain ⟨flags, dest⟩ := moveToDb_keeps (ahead to_) same (alive (to_, moved) (by
          rw [Op.unchecked, if_neg different]
          rfl))
        exact ⟨flags, moveToDb_source_keeps near same, dest⟩
      | _ => cases action
    rw [exec_across i alone action, moved.1]
    exact ⟨_, rfl, moved.2⟩
  | reading read =>
    rw [exec_reading i dbs action] at runs
    obtain ⟨rfl, rfl⟩ := Prod.mk.inj (Option.some.inj runs)
    have both : (read env (alone i)).1 = (read env (dbs i)).1 ∧
        (read env (dbs i)).2.Ahead t {key | (i, key) ∈ P} (read env (alone i)).2 := by
      cases op with
      | keys =>
        obtain rfl := Action.reading.inj action
        obtain ⟨found, kept⟩ := keys_keeps (ahead i) (fun key => reads rfl) readings (still rfl)
        exact ⟨congrArg Reply.keys found, kept⟩
      | manyGet ks =>
        obtain rfl := Action.reading.inj action
        obtain ⟨values, kept⟩ := manyGet_keeps (ahead i) (fun key member => reads ⟨rfl, member⟩) later
        exact ⟨congrArg Reply.values values, kept⟩
      | _ => cases action
    rw [exec_reading i alone action, both.1]
    exact ⟨_, rfl, ahead.update both.2⟩

end

end Vanity.Db

namespace Vanity.Isolation
open Db

inductive Turn (C : Type) where
  | call (client : C) (i : Index) (op : Op)
  | shallowPurge (i : Index)
  | deepPurge (i : Index)

/-- A call or a purge, with the times between which it reads the clock. -/
structure Event (C : Type) where
  turn : Turn C
  env : Env
  began : Time
  ended : Time
  readings : ∀ n, began ≤ env.now n ∧ env.now n ≤ ended

structure State where
  now : Time
  dbs : Databases

variable {C : Type}

/-- The clock does not go back. -/
def step (s : State) (event : Event C) : Option (Option Reply × State) :=
  if s.now ≤ event.began then
    match event.turn with
    | .call _ i op => (exec op event.env i s.dbs).map fun (reply, dbs) => (some reply, ⟨event.ended, dbs⟩)
    | .shallowPurge i =>
      some (none, ⟨event.ended, Function.update s.dbs i ((s.dbs i).shallowPurge event.env)⟩)
    | .deepPurge i => some (none, ⟨event.ended, Function.update s.dbs i ((s.dbs i).deepPurge event.env)⟩)
  else none

def Event.isOf [DecidableEq C] (client : C) (event : Event C) : Bool :=
  match event.turn with
  | .call caller _ _ => decide (caller = client)
  | .shallowPurge _ | .deepPurge _ => false

/-- The client reads no other places than these, and no other client writes one of them. -/
def KeepsTo (client : C) (P : Set Place) (event : Event C) : Prop :=
  match event.turn with
  | .call caller i op => (caller = client → op.reads i ⊆ P) ∧ (caller ≠ client → ∀ place ∈ op.writes i, place ∉ P)
  | .shallowPurge _ | .deepPurge _ => True

def Careful (P : Set Place) (s : State) (event : Event C) : Prop :=
  match event.turn with
  | .call _ i op => op.Careful P i event.began event.ended s.dbs
  | .shallowPurge _ | .deepPurge _ => True

structure Alike (P : Set Place) (s alone : State) : Prop where
  clock : alone.now ≤ s.now
  ahead : Ahead s.now P s.dbs alone.dbs

theorem Alike.refl (P : Set Place) (s : State) : Alike P s s := ⟨Int64.le_refl _, fun _ => .refl ..⟩

theorem step_eq {s t : State} {event : Event C} {output : Option Reply} (taken : step s event = some (output, t)) :
    s.now ≤ event.began ∧ t.now = event.ended := by
  unfold step at taken
  split at taken
  · rename_i later
    refine ⟨later, ?_⟩
    split at taken
    · obtain ⟨ran, -, same⟩ := Option.map_eq_some_iff.mp taken
      rw [← (Prod.mk.inj same).2]
    · rw [← (Prod.mk.inj (Option.some.inj taken)).2]
    · rw [← (Prod.mk.inj (Option.some.inj taken)).2]
  · cases taken

section
variable {client : C} {P : Set Place} {s alone t : State} {event : Event C} {output : Option Reply}

/-- What a step leaves of the places that it does not write. -/
theorem step_spared (taken : step s event = some (output, t)) {place : Place}
    (apart : ∀ caller i op, event.turn = .call caller i op → place ∉ op.writes i) :
    Spared event.env.now (s.dbs place.1) (t.dbs place.1) place.2 := by
  have purged : ∀ {i : Index} {db : Database}, (∀ key, Spared event.env.now (s.dbs i) db key) →
      Spared event.env.now (s.dbs place.1) (Function.update s.dbs i db place.1) place.2 := by
    intro i db spared
    by_cases same : place.1 = i
    · subst same
      rw [Function.update_self]
      exact spared place.2
    · rw [Function.update_of_ne same]
      exact .refl ..
  unfold step at taken
  split at taken
  · split at taken
    · rename_i caller i op turn
      obtain ⟨⟨reply, after⟩, runs, same⟩ := Option.map_eq_some_iff.mp taken
      rw [← (Prod.mk.inj same).2]
      exact exec_spared runs (apart caller i op turn)
    · rw [← (Prod.mk.inj (Option.some.inj taken)).2]
      exact purged (Database.shallowPurge_spared event.env _).1
    · rw [← (Prod.mk.inj (Option.some.inj taken)).2]
      exact purged (Database.deepPurge_spared event.env _).1
  · cases taken

theorem step_enabled (taken : step s event = some (output, t)) (j : Index) :
    (t.dbs j).expiryEnabled = (s.dbs j).expiryEnabled := by
  unfold step at taken
  split at taken
  · split at taken
    · obtain ⟨⟨reply, after⟩, runs, same⟩ := Option.map_eq_some_iff.mp taken
      rw [← (Prod.mk.inj same).2]
      exact exec_enabled runs j
    · rw [← (Prod.mk.inj (Option.some.inj taken)).2]
      exact update_enabled (Database.shallowPurge_spared event.env _).2 j
    · rw [← (Prod.mk.inj (Option.some.inj taken)).2]
      exact update_enabled (Database.deepPurge_spared event.env _).2 j
  · cases taken

theorem began_le_ended (event : Event C) : event.began ≤ event.ended :=
  Int64.le_trans (event.readings 0).1 (event.readings 0).2

variable [DecidableEq C]

theorem others_alike (keeps : KeepsTo client P event) (other : event.isOf client = false) (alike : Alike P s alone)
    (taken : step s event = some (output, t)) : Alike P t alone := by
  obtain ⟨later, now⟩ := step_eq taken
  have passed : s.now ≤ event.ended := Int64.le_trans later (began_le_ended event)
  rw [← now] at passed
  refine ⟨Int64.le_trans alike.clock passed, fun i => ?_⟩
  have spared : ∀ key ∈ {key | (i, key) ∈ P}, Spared event.env.now (s.dbs i) (t.dbs i) key := by
    intro key own
    have apart : ∀ caller j op, event.turn = .call caller j op → (i, key) ∉ op.writes j := by
      intro caller j op turn written
      unfold KeepsTo at keeps
      unfold Event.isOf at other
      rw [turn] at keeps other
      exact keeps.2 (of_decide_eq_false other) (i, key) written own
    exact step_spared taken apart
  have readings : ∀ n, event.env.now n ≤ t.now := fun n => now ▸ (event.readings n).2
  exact (alike.ahead i).spared spared (step_enabled taken i) readings passed

theorem own_alike (keeps : KeepsTo client P event) (own : event.isOf client = true) (alike : Alike P s alone)
    (careful : Careful P alone event) (taken : step s event = some (output, t)) :
    ∃ t', step alone event = some (output, t') ∧ Alike P t t' := by
  obtain ⟨later, now⟩ := step_eq taken
  have late : alone.now ≤ event.began := Int64.le_trans alike.clock later
  unfold step at taken ⊢
  rw [if_pos later] at taken
  rw [if_pos late]
  unfold KeepsTo at keeps
  unfold Event.isOf at own
  unfold Careful at careful
  cases turn : event.turn with
  | call caller i op =>
    rw [turn] at keeps own careful taken
    obtain ⟨⟨reply, after⟩, runs, same⟩ := Option.map_eq_some_iff.mp taken
    obtain ⟨rfl, rfl⟩ := Prod.mk.inj same
    obtain ⟨after', ran, ahead⟩ := (alike.ahead.later later).own (keeps.1 (of_decide_eq_true own)) event.readings careful runs
    refine ⟨⟨event.ended, after'⟩, ?_, Int64.le_refl _, ahead.later (began_le_ended event)⟩
    show (exec op event.env i alone.dbs).map _ = _
    rw [ran]
    rfl
  | shallowPurge | deepPurge =>
    rw [turn] at own
    cases own

theorem unwinding (client : C) (P : Set Place) :
    Unwinding step (KeepsTo client P) (Careful P) (Event.isOf client) (Alike P) where
  mine _ _ _ _ _ keeps own alike careful taken := own_alike keeps own alike careful taken
  others _ _ _ _ _ keeps other alike taken := others_alike keeps other alike taken

/-- A client that reads only what nobody else writes gets the replies that it would get alone, and finds the
same at its places. -/
theorem isolated {run : List (Event C)} {outputs : List (Event C × Option Reply)}
    (keeps : ∀ event ∈ run, KeepsTo client P event) (runs : traceAll step run s = some (outputs, t))
    (careful : EachTurn step (Careful P) (run.filter (Event.isOf client)) s) :
    ∃ t', traceAll step (run.filter (Event.isOf client)) s = some (outputs.filter (Event.isOf client ·.1), t') ∧
      ∀ place ∈ P, ∀ time, t.now ≤ time → (t.dbs place.1).view time place.2 = (t'.dbs place.1).view time place.2 := by
  obtain ⟨t', same, alike⟩ := (unwinding client P).alone keeps (.refl P s) runs careful
  refine ⟨t', same, fun place own time later => ?_⟩
  have ahead := (alike.ahead.later later) place.1
  exact ((ahead.near place.2 own).view ahead.enabled).symm

end

/-- An event at one moment. -/
noncomputable def Event.at_ (turn : Turn C) (time : Time) : Event C where
  turn := turn
  env := .frozen time
  began := time
  ended := time
  readings _ := ⟨Int64.le_refl _, Int64.le_refl _⟩

/-- One client stores a key that expires, another one a key of its own; the purge finds the first key expired. -/
noncomputable def twoClients : List (Event ℕ) :=
  [.at_ (.call 0 0 (.strSet [97] [1])) 0, .at_ (.call 0 0 (.setExpiry [97] 10)) 0,
    .at_ (.call 1 0 (.strSet [98] [2])) 5, .at_ (.deepPurge 0) 20, .at_ (.call 0 0 (.get [97])) 20]

theorem twoClients_isolated : ∃ outputs t t', traceAll step twoClients ⟨0, fun _ => {}⟩ = some (outputs, t) ∧
    traceAll step (twoClients.filter (Event.isOf 0)) ⟨0, fun _ => {}⟩ =
      some (outputs.filter (Event.isOf 0 ·.1), t') ∧
    ∀ place ∈ ({(0, [97])} : Set Place), ∀ time, t.now ≤ time →
      (t.dbs place.1).view time place.2 = (t'.dbs place.1).view time place.2 := by
  have keeps : ∀ event ∈ twoClients, KeepsTo 0 {(0, [97])} event := by
    simp [twoClients, Event.at_, KeepsTo, Op.reads, Op.writes]
  have runs : ∃ outputs t, traceAll step twoClients ⟨0, fun _ => {}⟩ = some (outputs, t) := ⟨_, _, rfl⟩
  obtain ⟨outputs, t, runs⟩ := runs
  have careful : EachTurn step (Careful {(0, [97])}) (twoClients.filter (Event.isOf 0)) ⟨0, fun _ => {}⟩ := by
    refine ⟨⟨nofun, nofun⟩, fun _ stored taken => ?_⟩
    obtain ⟨-, rfl⟩ := Prod.mk.inj (Option.some.inj taken)
    refine ⟨⟨fun place at_ _ => ?_, nofun⟩, fun _ _ _ => ⟨⟨nofun, nofun⟩, fun _ _ _ => trivial⟩⟩
    obtain rfl := Set.mem_singleton_iff.mp at_
    rfl
  obtain ⟨t', alone, same⟩ := isolated keeps runs careful
  exact ⟨outputs, t, t', runs, alone, same⟩

end Vanity.Isolation
