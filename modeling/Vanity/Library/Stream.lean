import Mathlib.Algebra.Group.Nat.Defs
import Mathlib.Data.List.Basic
import Mathlib.Tactic.Common

/-!
# Binary input streams

Reading fixed-width words from a byte stream whose reads are not checked. A read past the end
sets the failure flag and leaves the part of its target that it could not fill unspecified;
every later read fails as well and leaves its whole target unspecified. `Frames r bytes a`
collects what a format needs to know about a reader `r` for the bytes of `a`: it reads them back
and stops behind them, a proper prefix of them breaks it, and it never recovers from a failure.
-/

namespace Vanity

abbrev Bytes := List UInt8

/-! ### Little-endian words -/

def toLE : Nat → Nat → Bytes
  | 0, _ => []
  | width + 1, n => UInt8.ofNat n :: toLE width (n / 256)

def ofLE : Bytes → Nat
  | [] => 0
  | byte :: rest => byte.toNat + 256 * ofLE rest

@[simp] theorem toLE_length (width n : Nat) : (toLE width n).length = width := by
  induction width generalizing n with
  | zero => rfl
  | succ width ih => simp [toLE, ih]

theorem ofLE_toLE (width n : Nat) (small : n < 256 ^ width) : ofLE (toLE width n) = n := by
  induction width generalizing n with
  | zero =>
    have zero : n = 0 := by simpa using small
    simp [toLE, ofLE, zero]
  | succ width ih =>
    have quotient : n / 256 < 256 ^ width := by
      rw [Nat.pow_succ] at small
      omega
    rw [toLE, ofLE, ih _ quotient, UInt8.toNat_ofNat']
    omega

/-! ### Streams and readers -/

structure Stream where
  rest : Bytes
  failed : Bool
  /-- The bytes that stand in a target before a failing read. -/
  junk : Nat → UInt8

abbrev Reader (ε α : Type) := StateT Stream (Except ε) α

def Stream.fail (s : Stream) : Stream := { s with rest := [], failed := true }

def Stream.peek (s : Stream) : Option UInt8 := if s.failed then none else s.rest.head?

variable {ε α β γ δ ι : Type}

/-- Read `n` bytes over a target that holds `old`. -/
def readOver (n : Nat) (old : Nat → UInt8) : Reader ε Bytes := fun s =>
  if s.failed = false ∧ n ≤ s.rest.length then
    .ok (s.rest.take n, { s with rest := s.rest.drop n })
  else
    let got := if s.failed then [] else s.rest
    .ok (got ++ (List.range (n - got.length)).map fun i => old (got.length + i), s.fail)

/-- Read `n` bytes into an uninitialized variable. -/
def readRaw (n : Nat) : Reader ε Bytes := fun s =>
  (readOver n s.junk s).map fun (bytes, t) =>
    (bytes, if t.failed then { t with junk := fun i => s.junk (n + i) } else t)

def readInto (n : Nat) : Reader ε Bytes := readOver n fun _ => 0

def getByte : Reader ε (Option UInt8) := fun s =>
  match s.peek with
  | some byte => .ok (some byte, { s with rest := s.rest.tail })
  | none => .ok (none, s.fail)

def readMany (r : Reader ε α) : Nat → Reader ε (List α)
  | 0 => pure []
  | n + 1 => do
    let first ← r
    let others ← readMany r n
    pure (first :: others)

def writeU8 (x : UInt8) : Bytes := [x]
def writeU32 (x : UInt32) : Bytes := toLE 4 x.toNat
def writeU64 (x : UInt64) : Bytes := toLE 8 x.toNat
def writeI64 (x : Int64) : Bytes := writeU64 x.toUInt64

def readU8 : Reader ε UInt8 := do return UInt8.ofNat (ofLE (← readRaw 1))
def readU32 : Reader ε UInt32 := do return UInt32.ofNat (ofLE (← readRaw 4))
def readU64 : Reader ε UInt64 := do return UInt64.ofNat (ofLE (← readRaw 8))
def readI64 : Reader ε Int64 := do return (← readU64).toInt64

/-! ### What a reader does with the bytes of a value -/

def Broken : Except ε (α × Stream) → Prop
  | .error _ => True
  | .ok (_, s) => s.failed = true

def Reads (r : Reader ε α) (bytes : Bytes) (a : α) : Prop :=
  ∀ rest junk, r ⟨bytes ++ rest, false, junk⟩ = .ok (a, ⟨rest, false, junk⟩)

def Tears (r : Reader ε α) (bytes : Bytes) : Prop :=
  ∀ part junk, part <+: bytes → part ≠ bytes → Broken (r ⟨part, false, junk⟩)

def Sticky (r : Reader ε α) : Prop := ∀ s, s.failed = true → Broken (r s)

structure Frames (r : Reader ε α) (bytes : Bytes) (a : α) : Prop where
  reads : Reads r bytes a
  tears : Tears r bytes
  sticky : Sticky r

theorem bind_read {r : Reader ε α} {f : α → Reader ε β} {s t : Stream} {a : α} (read : r s = .ok (a, t)) :
    (r >>= f) s = f a t := by
  change Except.bind (r s) (fun p => f p.1 p.2) = _
  rw [read]
  rfl

theorem bind_broken {r : Reader ε α} {f : α → Reader ε β} {s : Stream} (broken : Broken (r s))
    (sticky : ∀ a, Sticky (f a)) : Broken ((r >>= f) s) := by
  change Broken (Except.bind (r s) fun p => f p.1 p.2)
  cases result : r s with
  | error e => trivial
  | ok pair =>
    rw [result] at broken
    exact sticky pair.1 pair.2 broken

theorem sticky_pure (a : α) : Sticky (pure a : Reader ε α) := fun _ failed => failed

theorem sticky_throw (e : ε) : Sticky (throw e : Reader ε α) := fun _ _ => trivial

theorem sticky_bind {r : Reader ε α} {f : α → Reader ε β} (first : Sticky r)
    (next : ∀ a, Sticky (f a)) : Sticky (r >>= f) :=
  fun s failed => bind_broken (first s failed) next

theorem sticky_ite {p : Prop} [Decidable p] {r t : Reader ε α} (yes : Sticky r) (no : Sticky t) :
    Sticky (if p then r else t) := by
  split
  · exact yes
  · exact no

theorem sticky_many {r : Reader ε α} (each : Sticky r) (n : Nat) : Sticky (readMany r n) := by
  induction n with
  | zero => exact sticky_pure _
  | succ n ih => exact sticky_bind each fun _ => sticky_bind ih fun _ => sticky_pure _

theorem sticky_map {r : Reader ε α} (f : α → β) (sticky : Sticky r) :
    Sticky (do return f (← r) : Reader ε β) :=
  sticky_bind sticky fun _ => sticky_pure _

theorem sticky_two {r : Reader ε α} {t : Reader ε β} (f : α → β → γ) (first : Sticky r) (second : Sticky t) :
    Sticky (do return f (← r) (← t) : Reader ε γ) :=
  sticky_bind first fun a => sticky_map (f a) second

theorem sticky_three {r : Reader ε α} {t : Reader ε β} {u : Reader ε γ} (f : α → β → γ → δ)
    (first : Sticky r) (second : Sticky t) (third : Sticky u) :
    Sticky (do return f (← r) (← t) (← u) : Reader ε δ) :=
  sticky_bind first fun a => sticky_two (f a) second third

theorem frames_pure (a : α) : Frames (pure a : Reader ε α) [] a where
  reads _ _ := rfl
  tears _ _ start proper := (proper (List.prefix_nil.mp start)).elim
  sticky := sticky_pure a

theorem frames_bind {r : Reader ε α} {f : α → Reader ε β} {bytes more : Bytes} {a : α} {b : β}
    (first : Frames r bytes a) (next : Frames (f a) more b) (sticky : ∀ a, Sticky (f a)) :
    Frames (r >>= f) (bytes ++ more) b where
  reads rest junk := by
    change Except.bind (r ⟨bytes ++ more ++ rest, false, junk⟩) (fun p => f p.1 p.2) = _
    rw [List.append_assoc, first.reads]
    exact next.reads rest junk
  tears part junk start proper := by
    by_cases short : part.length < bytes.length
    · -- the cut lies in what the first reader reads
      have within : part <+: bytes :=
        List.prefix_of_prefix_length_le start (List.prefix_append _ _) (Nat.le_of_lt short)
      exact bind_broken (first.tears part junk within (by rintro rfl; omega)) sticky
    · obtain ⟨tail, rfl⟩ : bytes <+: part :=
        List.prefix_of_prefix_length_le (List.prefix_append _ _) start (Nat.le_of_not_lt short)
      change Broken (Except.bind (r ⟨bytes ++ tail, false, junk⟩) fun p => f p.1 p.2)
      rw [first.reads]
      exact next.tears tail junk ((List.prefix_append_right_inj bytes).mp start)
        (fun same => proper (by rw [same]))
  sticky := sticky_bind first.sticky sticky

theorem frames_map {r : Reader ε α} {bytes : Bytes} {a : α} (f : α → β) (first : Frames r bytes a) :
    Frames (do return f (← r)) bytes (f a) := by
  have both := frames_bind (f := fun a => pure (f a)) first (frames_pure (f a)) fun _ => sticky_pure _
  rwa [List.append_nil] at both

theorem frames_two {r : Reader ε α} {t : Reader ε β} {bytes more : Bytes} {a : α} {b : β} (f : α → β → γ)
    (first : Frames r bytes a) (second : Frames t more b) :
    Frames (do return f (← r) (← t)) (bytes ++ more) (f a b) :=
  frames_bind first (frames_map (f a) second) fun a => sticky_map (f a) second.sticky

theorem frames_three {r : Reader ε α} {t : Reader ε β} {u : Reader ε γ} {bytes more last : Bytes}
    {a : α} {b : β} {c : γ} (f : α → β → γ → δ) (first : Frames r bytes a) (second : Frames t more b)
    (third : Frames u last c) :
    Frames (do return f (← r) (← t) (← u)) (bytes ++ (more ++ last)) (f a b c) :=
  frames_bind first (frames_two (f a) second third) fun a => sticky_two (f a) second.sticky third.sticky

/-- A run of readings frames the concatenation of what each of them frames. -/
theorem frames_many {r : Reader ε α} {write : ι → Bytes} {value : ι → α} {items : List ι} (sticky : Sticky r)
    (each : ∀ item ∈ items, Frames r (write item) (value item)) :
    Frames (readMany r items.length) (items.flatMap write) (items.map value) := by
  induction items with
  | nil => exact frames_pure []
  | cons item rest ih =>
    rw [List.flatMap_cons, List.length_cons, List.map_cons]
    have tail := ih fun other member => each other (List.mem_cons_of_mem _ member)
    exact frames_bind (each item List.mem_cons_self) (frames_map (value item :: ·) tail) fun _ =>
      sticky_map _ (sticky_many sticky _)

theorem frames_items {r : Reader ε α} {write : α → Bytes} {items : List α} (sticky : Sticky r)
    (each : ∀ item ∈ items, Frames r (write item) item) :
    Frames (readMany r items.length) (items.flatMap write) items := by
  have run : Frames (readMany r items.length) (items.flatMap write) (items.map id) := frames_many sticky each
  rwa [List.map_id] at run

/-! ### Words -/

theorem sticky_over (n : Nat) (old : Nat → UInt8) : Sticky (readOver n old : Reader ε Bytes) := by
  intro s failed
  simp [readOver, failed, Broken, Stream.fail]

theorem sticky_raw (n : Nat) : Sticky (readRaw n : Reader ε Bytes) := by
  intro s failed
  simp [readRaw, readOver, failed, Broken, Stream.fail, Except.map]

theorem frames_over (bytes : Bytes) (old : Nat → UInt8) :
    Frames (readOver bytes.length old : Reader ε Bytes) bytes bytes where
  reads rest junk := by simp [readOver]
  tears part junk start proper := by
    have short : part.length < bytes.length := by
      have le := start.length_le
      have ne : part.length ≠ bytes.length := fun same => proper (start.eq_of_length same)
      omega
    simp [readOver, Nat.not_le.mpr short, Broken, Stream.fail]
  sticky := sticky_over _ _

theorem frames_raw (bytes : Bytes) : Frames (readRaw bytes.length : Reader ε Bytes) bytes bytes where
  reads rest junk := by
    rw [readRaw, (frames_over bytes _).reads]
    rfl
  tears part junk start proper := by
    have torn := (frames_over (ε := ε) bytes junk).tears part junk start proper
    unfold readRaw
    dsimp only
    generalize readOver bytes.length junk ⟨part, false, junk⟩ = result at torn
    cases result with
    | error e => trivial
    | ok pair =>
      have failed : pair.2.failed = true := torn
      simp [Except.map, Broken, failed]
  sticky := sticky_raw _

theorem frames_word (width n : Nat) :
    Frames (readRaw width : Reader ε Bytes) (toLE width n) (toLE width n) := by
  have whole := frames_raw (ε := ε) (toLE width n)
  rwa [toLE_length] at whole

theorem frames_u8 (x : UInt8) : Frames (readU8 : Reader ε UInt8) (writeU8 x) x := by
  have word := frames_map (fun bytes => UInt8.ofNat (ofLE bytes)) (frames_raw (ε := ε) [x])
  have value : UInt8.ofNat (ofLE [x]) = x := by simp [ofLE]
  rwa [value] at word

theorem frames_u32 (x : UInt32) : Frames (readU32 : Reader ε UInt32) (writeU32 x) x := by
  have word := frames_map (fun bytes => UInt32.ofNat (ofLE bytes)) (frames_word (ε := ε) 4 x.toNat)
  rwa [ofLE_toLE 4 _ x.toNat_lt, UInt32.ofNat_toNat] at word

theorem frames_u64 (x : UInt64) : Frames (readU64 : Reader ε UInt64) (writeU64 x) x := by
  have word := frames_map (fun bytes => UInt64.ofNat (ofLE bytes)) (frames_word (ε := ε) 8 x.toNat)
  rwa [ofLE_toLE 8 _ x.toNat_lt, UInt64.ofNat_toNat] at word

theorem frames_i64 (x : Int64) : Frames (readI64 : Reader ε Int64) (writeI64 x) x := by
  have word := frames_map UInt64.toInt64 (frames_u64 (ε := ε) x.toUInt64)
  rwa [Int64.toInt64_toUInt64] at word

end Vanity
