import Vanity.Db.Expiry

/-!
# List operations

`list_database.cpp`. An iterator into a list is the position it stands at, with the length for
`end()`; a reverse iterator is its distance from the back, with the length for `rend()`.
-/

namespace Vanity.Db

inductive ListErrorKind where
  | notList
  | outOfRange
  deriving DecidableEq

def iteratorOrEnd (l : ListT) (index : Int64) : Nat :=
  let size : Int := l.length
  let idx := index.toInt
  if idx ≥ size ∨ idx < -size then l.length
  else if idx < 0 then (idx + size).toNat
  else idx.toNat

-- the same arithmetic as `iterator_or_end`, counted from the back
def reverseIteratorOrRend (l : ListT) (index : Int64) : Nat := iteratorOrEnd l index

def iteratorPairInclusive (l : ListT) (start stop : Int64) : Nat × Nat :=
  let it := iteratorOrEnd l start
  let it := if it = l.length ∧ start < 0 then 0 else it
  let endIt := iteratorOrEnd l stop
  let endIt :=
    if endIt = l.length ∧ stop < 0 then 0
    else if endIt ≠ l.length then endIt + 1
    else endIt
  (it, endIt)

def isInvalidRange (start stop : Int64) : Bool :=
  decide ((start > 0 ∧ stop > 0 ∧ start > stop) ∨ (start < 0 ∧ stop < 0 ∧ start > stop))

/-- The elements between the two iterators. The walk from the first one reaches the second only if
it does not start behind it; otherwise it leaves the list. -/
def slice (l : ListT) (start stop : Int64) : Option ListT :=
  let (it, endIt) := iteratorPairInclusive l start stop
  if it ≤ endIt then some ((l.drop it).take (endIt - it)) else none

def Store.putOrDel (s : Store) (key : Str) (l : ListT) : Store :=
  if l.isEmpty then (s.expiryAwareDel key).2 else s.put key (.list l)

def listLen (key : Str) : Operation (Except ListErrorKind Nat) where
  checks := [key]
  body s := some (match s.data.lookup key with
    | none => (.ok 0, s)
    | some (.list l) => (.ok l.length, s)
    | some _ => (.error .notList, s))

def iteratorOrError (s : Store) (key : Str) (index : Int64) : Except ListErrorKind (ListT × Nat) :=
  match s.data.lookup key with
  | none => .error .outOfRange
  | some (.list l) =>
    let it := iteratorOrEnd l index
    if it = l.length then .error .outOfRange else .ok (l, it)
  | some _ => .error .notList

-- the key is checked here and once more by `iterator_or_error`
def listGet (key : Str) (index : Int64) : Operation (Except ListErrorKind Str) where
  checks := [key, key]
  body s := some (match iteratorOrError s key index with
    | .error e => (.error e, s)
    | .ok (l, it) => (.ok (l.getD it []), s))

def listSet (key : Str) (index : Int64) (value : Str) : Operation (Except ListErrorKind Str) where
  checks := [key, key]
  body s := some (match iteratorOrError s key index with
    | .error e => (.error e, s)
    | .ok (l, it) => (.ok (l.getD it []), s.put key (.list (l.set it value))))

/-- `list_push_left` and `list_push_right` up to the end at which `values` are spliced in. -/
def listPush (join : ListT → ListT) (key : Str) (values : ListT) : Operation (Except ListErrorKind Nat) where
  checks := [key]
  body s := some (
    if values.isEmpty then (.ok 0, s)
    else
      let s := if s.contains key then s else s.put key (.list [])
      match s.data.lookup key with
      | some (.list l) => (.ok (join l).length, s.put key (.list (join l)))
      | _ => (.error .notList, s))

def listPushLeft (key : Str) (values : ListT) : Operation (Except ListErrorKind Nat) :=
  listPush (fun l => values.reverse ++ l) key values

def listPushRight (key : Str) (values : ListT) : Operation (Except ListErrorKind Nat) :=
  listPush (fun l => l ++ values) key values

def listPopLeft (key : Str) (n : Int64) : Operation (Except ListErrorKind ListT) where
  checks := [key]
  body s := some (match s.data.lookup key with
    | none => (.ok [], s)
    | some (.list l) =>
      let it := iteratorOrEnd l n
      if it = l.length ∧ n < 0 then (.ok [], s)
      else (.ok (l.take it), s.putOrDel key (l.drop it))
    | some _ => (.error .notList, s))

def listPopRight (key : Str) (n : Int64) : Operation (Except ListErrorKind ListT) where
  checks := [key]
  body s := some (match s.data.lookup key with
    | none => (.ok [], s)
    | some (.list l) =>
      let rit := reverseIteratorOrRend l n
      if rit = l.length ∧ n < 0 then (.ok [], s)
      else (.ok (l.drop (l.length - rit)), s.putOrDel key (l.take (l.length - rit)))
    | some _ => (.error .notList, s))

def listRange (key : Str) (start stop : Int64) : Operation (Except ListErrorKind ListT) where
  checks := [key]
  body s := match s.data.lookup key with
    | none => some (.ok [], s)
    | some (.list l) =>
      if isInvalidRange start stop then some (.ok [], s)
      else (slice l start stop).map fun kept => (.ok kept, s)
    | some _ => some (.error .notList, s)

-- the second `erase` of the source starts at an iterator that the first one has invalidated when
-- the range is reversed, so the trim is defined where the slice is
def listTrim (key : Str) (start stop : Int64) : Operation (Except ListErrorKind Nat) where
  checks := [key]
  body s := match s.data.lookup key with
    | none => some (.ok 0, s)
    | some (.list l) =>
      if isInvalidRange start stop then some (.ok 0, s)
      else (slice l start stop).map fun kept => (.ok (l.length - kept.length), s.putOrDel key kept)
    | some _ => some (.error .notList, s)

def eraseForward (element : Str) : Nat → ListT → ListT
  | 0, l => l
  | _ + 1, [] => []
  | n + 1, x :: xs => if x = element then eraseForward element n xs else x :: eraseForward element (n + 1) xs

/-- The loop of `list_remove` for a negative count, over the reversed list. `rend()` is taken before
the loop and stands on the first element: once that element is erased no later position compares
equal to it, and the loop walks off the list unless the count is exhausted. -/
def eraseBackward (element : Str) : Nat → ListT → Option ListT
  | 0, l => some l
  | _ + 1, [] => some []
  | n + 1, x :: xs =>
    if x = element then
      if xs.isEmpty ∧ n ≠ 0 then none else eraseBackward element n xs
    else (eraseBackward element (n + 1) xs).map (x :: ·)

def removed (l : ListT) (element : Str) (count : Int64) : Option ListT :=
  if count > 0 then some (eraseForward element count.toInt.toNat l)
  else if count < 0 then (eraseBackward element count.toInt.natAbs l.reverse).map List.reverse
  else some (l.filter (· ≠ element))

def listRemove (key element : Str) (count : Int64) : Operation (Except ListErrorKind Nat) where
  checks := [key]
  body s := match s.data.lookup key with
    | none => some (.ok 0, s)
    | some (.list l) =>
      (removed l element count).map fun kept => (.ok (l.length - kept.length), s.putOrDel key kept)
    | some _ => some (.error .notList, s)

end Vanity.Db
