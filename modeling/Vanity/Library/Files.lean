import Vanity.Library.Stream
import Mathlib.Logic.Function.Basic

/-!
# Files and crashes

A disk maps paths to contents. Each operation is atomic and the operations of a program reach the
disk in order, so a crash leaves what a prefix of them has done.
-/

namespace Vanity

abbrev Disk (P : Type) := P → Option Bytes

inductive FileOp (P : Type) where
  | create (path : P)
  | touch (path : P)
  | append (path : P) (bytes : Bytes)
  | rename (source dest : P)
  | remove (path : P)

variable {P Q : Type} [DecidableEq P] [DecidableEq Q]

namespace FileOp

/-- The effect of an operation; only the rename of a file that does not exist fails. -/
def exec : FileOp P → Disk P → Option (Disk P)
  | .create path, disk => some (Function.update disk path (some []))
  | .touch path, disk => some (Function.update disk path (some ((disk path).getD [])))
  | .append path bytes, disk => some (Function.update disk path (some ((disk path).getD [] ++ bytes)))
  | .rename source dest, disk =>
    match disk source with
    | none => none
    | some bytes => some (Function.update (Function.update disk source none) dest (some bytes))
  | .remove path, disk => some (Function.update disk path none)

def execAll : List (FileOp P) → Disk P → Option (Disk P)
  | [], disk => some disk
  | op :: ops, disk => (op.exec disk).bind (execAll ops)

def map (f : P → Q) : FileOp P → FileOp Q
  | .create path => .create (f path)
  | .touch path => .touch (f path)
  | .append path bytes => .append (f path) bytes
  | .rename source dest => .rename (f source) (f dest)
  | .remove path => .remove (f path)

theorem execAll_append (first second : List (FileOp P)) (disk : Disk P) :
    execAll (first ++ second) disk = (execAll first disk).bind (execAll second) := by
  induction first generalizing disk with
  | nil => rfl
  | cons op rest ih =>
    rw [List.cons_append, execAll, execAll, Option.bind_assoc]
    congr 1
    funext next
    exact ih next

theorem exec_map {f : P → Q} (injective : Function.Injective f) (op : FileOp P) (disk : Disk Q) :
    ((op.map f).exec disk).map (· ∘ f) = op.exec (disk ∘ f) := by
  have update : ∀ (disk : Disk Q) path value,
      Function.update disk (f path) value ∘ f = Function.update (disk ∘ f) path value :=
    fun disk path value => Function.update_comp_eq_of_injective disk injective path value
  cases op with
  | create path => simp [map, exec, update]
  | touch path => simp [map, exec, update]
  | append path bytes => simp [map, exec, update]
  | rename source dest =>
    simp only [map, exec, Function.comp_apply]
    cases disk (f source) with
    | none => rfl
    | some bytes => simp [update]
  | remove path => simp [map, exec, update]

theorem execAll_map {f : P → Q} (injective : Function.Injective f) (ops : List (FileOp P)) (disk : Disk Q) :
    (execAll (ops.map (FileOp.map f)) disk).map (· ∘ f) = execAll ops (disk ∘ f) := by
  induction ops generalizing disk with
  | nil => rfl
  | cons op rest ih =>
    rw [List.map_cons, execAll, execAll, ← exec_map injective]
    cases (op.map f).exec disk with
    | none => rfl
    | some next => exact ih next

end FileOp

end Vanity
