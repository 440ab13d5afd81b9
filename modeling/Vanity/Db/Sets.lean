import Vanity.Db.Expiry
import Mathlib.Data.Finset.SDiff

/-!
# Set operations

`set_database.cpp`. A result is `none` for `std::nullopt`, the type error of the set operations.
-/

namespace Vanity.Db

def setAdd (key : Str) (values : SetT) : Operation (Option Nat) where
  checks := [key]
  body s := some (
    if values = ∅ then (some 0, s)
    else
      let s := if s.contains key then s else s.put key (.set ∅)
      match s.data.lookup key with
      | some (.set set) => (some ((set ∪ values).card - set.card), s.put key (.set (set ∪ values)))
      | _ => (none, s))

def setAll (key : Str) : Operation (Option SetT) where
  checks := [key]
  body s := some (match s.data.lookup key with
    | none => (some ∅, s)
    | some (.set set) => (some set, s)
    | some _ => (none, s))

/-- The loop of `set_remove`: `begin()` advanced by a draw from `[0, size - 1]`, `count` times. The
result is what was removed and what is left. -/
def drawOut (env : Env) : Nat → Nat → SetT → SetT × SetT
  | 0, _, set => (∅, set)
  | count + 1, i, set =>
    match (env.order.list set)[env.draw i % set.card]? with
    | none => (∅, set)
    | some element =>
      let (out, kept) := drawOut env count (i + 1) (set.erase element)
      (insert element out, kept)

def Store.putSetOrDel (s : Store) (key : Str) (set : SetT) : Store :=
  if set = ∅ then (s.expiryAwareDel key).2 else s.put key (.set set)

def setRemove (env : Env) (key : Str) (count : UInt64) : Operation (Option SetT) where
  checks := [key]
  body s := some (match s.data.lookup key with
    | none => (some ∅, s)
    | some (.set set) =>
      let (out, kept) := drawOut env (min count.toNat set.card) 0 set
      (some out, s.putSetOrDel key kept)
    | some _ => (none, s))

-- the result reads the size of the set again, after the emptied set has been destroyed
def setDiscard (env : Env) (key : Str) (values : SetT) : Operation (Option Nat) where
  checks := [key]
  body s := some (match s.data.lookup key with
    | none => (some 0, s)
    | some (.set set) =>
      let left := if set \ values = ∅ then env.staleSize else (set \ values).card
      (some (sizeDiff set.card left), s.putSetOrDel key (set \ values))
    | some _ => (none, s))

def setLen (key : Str) : Operation (Option Nat) where
  checks := [key]
  body s := some (match s.data.lookup key with
    | none => (some 0, s)
    | some (.set set) => (some set.card, s)
    | some _ => (none, s))

def setContains (key value : Str) : Operation (Option Bool) where
  checks := [key]
  body s := some (match s.data.lookup key with
    | none => (some false, s)
    | some (.set set) => (some (decide (value ∈ set)), s)
    | some _ => (none, s))

/-- The insertion of `set_move`: the element is extracted from the source set and inserted into the
destination set, which may be the same one. -/
def Store.moveElement (s : Store) (source dest value : Str) (set : SetT) : Option Bool × Store :=
  let s := if s.contains dest then s else s.put dest (.set ∅)
  match s.data.lookup dest with
  | some (.set _) =>
    let s := s.put source (.set (set.erase value))
    match s.data.lookup dest with
    | some (.set destSet) =>
      let s := s.put dest (.set (insert value destSet))
      match s.data.lookup source with
      | some (.set left) => (some true, if left = ∅ then (s.expiryAwareDel source).2 else s)
      | _ => (none, s)
    | _ => (none, s)
  | _ => (none, s)

def setMove (source dest value : Str) : Operation (Option Bool) where
  checks := [source, dest]
  body s := some (match s.data.lookup source with
    | none => (some false, s)
    | some (.set set) => if value ∈ set then s.moveElement source dest value set else (some false, s)
    | some _ => (none, s))

inductive Gathered where
  | sets (sets : List SetT)
  | missing
  | notSet

/-- The collecting loop of `set_union`, which skips a missing key. -/
def gatherPresent (s : Store) : List Str → Gathered
  | [] => .sets []
  | key :: keys =>
    match s.data.lookup key with
    | none => gatherPresent s keys
    | some (.set set) =>
      match gatherPresent s keys with
      | .sets sets => .sets (set :: sets)
      | other => other
    | some _ => .notSet

/-- The collecting loop of `set_intersection`, which returns at the first missing key. -/
def gatherAll (s : Store) : List Str → Gathered
  | [] => .sets []
  | key :: keys =>
    match s.data.lookup key with
    | none => .missing
    | some (.set set) =>
      match gatherAll s keys with
      | .sets sets => .sets (set :: sets)
      | other => other
    | some _ => .notSet

def unionOf (s : Store) (keys : List Str) : Option SetT :=
  match gatherPresent s keys with
  | .sets sets => some (sets.foldl (· ∪ ·) ∅)
  | .missing => some ∅
  | .notSet => none

def smallest : List SetT → SetT
  | [] => ∅
  | set :: sets => sets.foldl (fun best other => if other.card < best.card then other else best) set

def intersectionOf (s : Store) (keys : List Str) : Option SetT :=
  match gatherAll s keys with
  | .sets sets => some ((smallest sets).filter fun value => ∀ set ∈ sets, value ∈ set)
  | .missing => some ∅
  | .notSet => none

def differenceOf (s : Store) (key1 key2 : Str) : Option SetT :=
  match s.data.lookup key1, s.data.lookup key2 with
  | none, _ => some ∅
  | some _, none => some ∅
  | some (.set set1), some (.set set2) => some (set1 \ set2)
  | some _, some _ => none

def setQuery (checks : List Str) (eval : Store → Option SetT) : Operation (Option SetT) where
  checks := checks
  body s := some (eval s, s)

def setQueryLen (checks : List Str) (eval : Store → Option SetT) : Operation (Option Nat) where
  checks := checks
  body s := some ((eval s).map Finset.card, s)

def setQueryInto (checks : List Str) (eval : Store → Option SetT) (dest : Str) : Operation (Option Nat) where
  checks := checks
  body s := some (match eval s with
    | none => (none, s)
    | some set => (some set.card, (s.put dest (.set set)).clearExpiry dest))

def setUnion (keys : List Str) := setQuery keys (unionOf · keys)
def setUnionLen (keys : List Str) := setQueryLen keys (unionOf · keys)
def setUnionInto (dest : Str) (keys : List Str) := setQueryInto keys (unionOf · keys) dest

def setIntersection (keys : List Str) := setQuery keys (intersectionOf · keys)
def setIntersectionLen (keys : List Str) := setQueryLen keys (intersectionOf · keys)
def setIntersectionInto (dest : Str) (keys : List Str) := setQueryInto keys (intersectionOf · keys) dest

def setDifference (key1 key2 : Str) := setQuery [key1, key2] (differenceOf · key1 key2)
def setDifferenceLen (key1 key2 : Str) := setQueryLen [key1, key2] (differenceOf · key1 key2)
def setDifferenceInto (dest key1 key2 : Str) := setQueryInto [key1, key2] (differenceOf · key1 key2) dest

end Vanity.Db
