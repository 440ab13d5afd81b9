import Vanity.Request.Numbers

/-!
# Operations and permissions

`operations.h` and the authentication levels of `session_info.h`.
-/

namespace Vanity.Request

open Db (Str)

/-- `operation_t`, in the order of the enumerators. -/
inductive OperationT where
  | exit | terminate | ping | pipe
  | bind | unbind
  | addUser | editUser | delUser | auth | changePassword | authLevel | username
  | switchDb | persist
  | transactBegin | transactCommit | transactDiscard
  | publish | subscribe | subscribed | unsubscribe | unsubscribeAll
  | del | type | exists_ | reset | keys | copyTo | moveTo | copyToDb | moveToDb
  | setExpiry | getExpiry | clearExpiry
  | get | strSet | intSet | floatSet | incrInt | incrFloat | strLen | manyGet
  | listLen | listGet | listSet | listPushLeft | listPushRight | listPopLeft | listPopRight | listRange
  | listTrim | listRemove
  | setAdd | setAll | setRemove | setDiscard | setLen | setContains | setMove | setUnion | setUnionInto
  | setUnionLen | setIntersect | setIntersectInto | setIntersectLen | setDiff | setDiffInto | setDiffLen
  | hashSet | hashAll | hashGet | hashContains | hashLen | hashKeyLen | hashRemove | hashKeys | hashValues
  | hashUpdate | hashManyGet
  | clusterJoin | clusterKey | clusterId | clusterLeave | clusterNew
  | peers | peerIds | peerAuth
  deriving DecidableEq

/-- `client_auth`. -/
inductive ClientAuth where
  | unknown | user | peer | admin
  deriving DecidableEq

/-- `OPERATION_T_STRINGS`. A name that starts with another name stands before it. -/
def operationStrings : List (OperationT × Str) :=
  [(.exit, ascii "EXIT"), (.terminate, ascii "TERMINATE"), (.ping, ascii "PING"), (.pipe, ascii "PIPE"),
   (.bind, ascii "BIND"), (.unbind, ascii "UNBIND"),
   (.authLevel, ascii "AUTH_LEVEL"), (.auth, ascii "AUTH"), (.addUser, ascii "ADD_USER"),
   (.editUser, ascii "EDIT_USER"), (.delUser, ascii "DEL_USER"), (.changePassword, ascii "CHANGE_PASSWORD"),
   (.username, ascii "USERNAME"),
   (.switchDb, ascii "SWITCH_DB"), (.persist, ascii "PERSIST"),
   (.transactBegin, ascii "TRANSACT_BEGIN"), (.transactCommit, ascii "TRANSACT_COMMIT"),
   (.transactDiscard, ascii "TRANSACT_DISCARD"),
   (.publish, ascii "PUBLISH"), (.subscribed, ascii "SUBSCRIBED"), (.subscribe, ascii "SUBSCRIBE"),
   (.unsubscribeAll, ascii "UNSUBSCRIBE_ALL"), (.unsubscribe, ascii "UNSUBSCRIBE"),
   (.del, ascii "DEL"), (.type, ascii "TYPE"), (.exists_, ascii "EXISTS"), (.reset, ascii "RESET"),
   (.keys, ascii "KEYS"), (.copyToDb, ascii "COPY_TO_DB"), (.moveToDb, ascii "MOVE_TO_DB"),
   (.copyTo, ascii "COPY_TO"), (.moveTo, ascii "MOVE_TO"),
   (.setExpiry, ascii "SET_EXPIRY"), (.getExpiry, ascii "GET_EXPIRY"), (.clearExpiry, ascii "CLEAR_EXPIRY"),
   (.get, ascii "GET"), (.strSet, ascii "STR_SET"), (.intSet, ascii "INT_SET"),
   (.floatSet, ascii "FLOAT_SET"), (.incrInt, ascii "INCR_INT"), (.incrFloat, ascii "INCR_FLOAT"),
   (.strLen, ascii "STR_LEN"), (.manyGet, ascii "MANY_GET"),
   (.listLen, ascii "LIST_LEN"), (.listGet, ascii "LIST_GET"), (.listSet, ascii "LIST_SET"),
   (.listPushLeft, ascii "LIST_PUSH_LEFT"), (.listPushRight, ascii "LIST_PUSH_RIGHT"),
   (.listPopLeft, ascii "LIST_POP_LEFT"), (.listPopRight, ascii "LIST_POP_RIGHT"),
   (.listRange, ascii "LIST_RANGE"), (.listTrim, ascii "LIST_TRIM"), (.listRemove, ascii "LIST_REMOVE"),
   (.setAdd, ascii "SET_ADD"), (.setAll, ascii "SET_ALL"), (.setRemove, ascii "SET_REMOVE"),
   (.setDiscard, ascii "SET_DISCARD"), (.setLen, ascii "SET_LEN"), (.setContains, ascii "SET_CONTAINS"),
   (.setMove, ascii "SET_MOVE"), (.setUnionInto, ascii "SET_UNION_INTO"),
   (.setUnionLen, ascii "SET_UNION_LEN"), (.setUnion, ascii "SET_UNION"),
   (.setIntersectInto, ascii "SET_INTERSECT_INTO"), (.setIntersectLen, ascii "SET_INTERSECT_LEN"),
   (.setIntersect, ascii "SET_INTERSECT"), (.setDiffInto, ascii "SET_DIFF_INTO"),
   (.setDiffLen, ascii "SET_DIFF_LEN"), (.setDiff, ascii "SET_DIFF"),
   (.hashSet, ascii "HASH_SET"), (.hashAll, ascii "HASH_ALL"), (.hashGet, ascii "HASH_GET"),
   (.hashContains, ascii "HASH_CONTAINS"), (.hashLen, ascii "HASH_LEN"), (.hashKeyLen, ascii "HASH_KEY_LEN"),
   (.hashRemove, ascii "HASH_REMOVE"), (.hashKeys, ascii "HASH_KEYS"), (.hashValues, ascii "HASH_VALUES"),
   (.hashUpdate, ascii "HASH_UPDATE"), (.hashManyGet, ascii "HASH_MANY_GET"),
   (.clusterJoin, ascii "CLUSTER_JOIN"), (.clusterKey, ascii "CLUSTER_KEY"),
   (.clusterId, ascii "CLUSTER_ID"), (.clusterLeave, ascii "CLUSTER_LEAVE"),
   (.clusterNew, ascii "CLUSTER_NEW"),
   (.peers, ascii "PEERS"), (.peerIds, ascii "PEER_IDS"), (.peerAuth, ascii "PEER_AUTH")]

theorem operationStrings_letters :
    ∀ entry ∈ operationStrings, entry.2 ≠ [] ∧ ∀ c ∈ entry.2, 65 ≤ c := by
  have all : (operationStrings.all fun entry => !entry.2.isEmpty && entry.2.all fun c => decide (65 ≤ c)) = true := by
    decide +kernel
  intro entry listed
  have letters := List.all_eq_true.mp all entry listed
  simp only [Bool.and_eq_true, Bool.not_eq_true', List.isEmpty_eq_false_iff, List.all_eq_true, decide_eq_true_eq] at letters
  exact letters

theorem operationStrings_ordered :
    operationStrings.Pairwise fun earlier later => earlier.2.isPrefixOf later.2 = false := by
  decide +kernel

theorem isSpace_of_letter {c : UInt8} (letter : 65 ≤ c) : isSpace c = false := by
  rw [isSpace, decide_eq_false_iff_not]
  rintro (rfl | ⟨-, small⟩)
  · exact absurd letter (by decide)
  · exact absurd (UInt8.le_trans letter small) (by decide)

def clientAuthStrings : List (ClientAuth × Str) :=
  [(.unknown, ascii "UNKNOWN"), (.user, ascii "USER"), (.admin, ascii "ADMIN"), (.peer, ascii "PEER")]

def unknownIsPermitted : OperationT → Bool
  | .ping | .exit | .auth | .authLevel | .peerAuth => true
  | _ => false

def userIsPermitted : OperationT → Bool
  | .terminate | .bind | .unbind | .reset | .auth | .addUser | .editUser | .delUser | .clusterJoin
  | .clusterKey | .clusterId | .clusterLeave | .clusterNew | .peers | .peerIds | .peerAuth => false
  | _ => true

def peerIsPermitted : OperationT → Bool
  | .bind | .unbind | .auth | .changePassword | .addUser | .editUser | .delUser | .authLevel | .username
  | .transactBegin | .transactCommit | .transactDiscard | .publish | .subscribe | .subscribed | .unsubscribe
  | .unsubscribeAll | .clusterJoin | .clusterKey | .clusterId | .clusterLeave | .clusterNew | .peerAuth => false
  | _ => true

def adminIsPermitted : OperationT → Bool
  | .auth | .peerAuth => false
  | _ => true

def isPermitted (op : OperationT) : ClientAuth → Bool
  | .unknown => unknownIsPermitted op
  | .user => userIsPermitted op
  | .peer => peerIsPermitted op
  | .admin => adminIsPermitted op

end Vanity.Request
