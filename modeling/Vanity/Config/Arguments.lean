import Vanity.Request.Numbers

/-!
# Command-line arguments

`arguments.h`. An argument is `--key` or `--key=value`. Keys may be written with dashes, and the loop that
replaces them by underscores reads the values as well.
-/

namespace Vanity.Config

open Db (Str)
open Request (ascii StoError stoa integerForm isNegative magnitude)

structure Arguments where
  args : Finset Str := ∅
  kwargs : Table Str Str := ∅
  multiKwargs : Table Str (List Str) := ∅

/-- The message of a `MalformedArgument`. -/
abbrev Malformed := Str

namespace Arguments

def addArg (a : Arguments) (arg : Str) : Arguments := { a with args := insert arg a.args }

def addKwarg (a : Arguments) (key value : Str) : Arguments :=
  match a.multiKwargs.lookup key with
  | some values => { a with multiKwargs := a.multiKwargs.insert key (values ++ [value]) }
  | none =>
    match a.kwargs.lookup key with
    | none => { a with kwargs := a.kwargs.insert key value }
    | some first =>
      { a with
        multiKwargs := a.multiKwargs.insert key [first, value]
        kwargs := a.kwargs.erase key }

-- the character at a position, with a NUL behind the last one
def charAt (arg : Str) : UInt8 := arg.headD 0

/-- The word, and the argument from the place on where the loop stops. -/
def extractWord : Str → Str × Str
  | [] => ([], [])
  | c :: arg =>
    if c = 0 ∨ c = 61 then ([], c :: arg)
    else
      let (word, rest) := extractWord arg
      ((if c = 45 then 95 else c) :: word, rest)

def extractArgument (a : Arguments) (arg : Str) : Except Malformed Arguments :=
  let (key, arg) := extractWord arg
  if charAt arg = 0 then .ok (a.addArg key)
  else
    let arg := arg.drop 1
    if charAt arg = 0 then .error (ascii "expected value after = at " ++ key)
    else
      let (value, arg) := extractWord arg
      if charAt arg ≠ 0 then .error (ascii "unexpected = after -" ++ value)
      else .ok (a.addKwarg key value)

def parseArg (a : Arguments) (arg : Str) : Except Malformed Arguments :=
  if arg.take 2 ≠ [45, 45] then .error (ascii "expected -- at start of argument")
  else
    let arg := arg.drop 2
    if charAt arg = 0 then .error (ascii "expected argument after --")
    else a.extractArgument arg

/-- The arguments behind the name of the program. -/
def parse (argv : List Str) : Except Malformed Arguments := argv.foldlM parseArg {}

def has (a : Arguments) (key : Str) : Bool := decide (key ∈ a.args)

def hasKwarg (a : Arguments) (key : Str) : Bool := decide (key ∈ a.kwargs)

def hasMultiKwarg (a : Arguments) (key : Str) : Bool := decide (key ∈ a.multiKwargs)

-- `at` throws where this is `none`
def getKwarg (a : Arguments) (key : Str) : Option Str := a.kwargs.lookup key

def getMultiKwarg (a : Arguments) (key : Str) : Option (List Str) := a.multiKwargs.lookup key

end Arguments

/-- An argument of the form `--key=value`. -/
structure Written where
  key : Str
  value : Str
  named : key ≠ []
  given : value ≠ []
  plainKey : ∀ c ∈ key, c ≠ 0 ∧ c ≠ 61
  plainValue : ∀ c ∈ value, c ≠ 0 ∧ c ≠ 61

def Written.text (arg : Written) : Str := [45, 45] ++ arg.key ++ [61] ++ arg.value

def normalize (word : Str) : Str := word.map fun c => if c = 45 then 95 else c

/-- The values written for a key, in order of appearance. -/
def valuesOf (argv : List Written) (key : Str) : List Str :=
  (argv.filter fun arg => normalize arg.key = key).map Written.value

/-- The key has been given these values. -/
def Arguments.Holds (a : Arguments) (key : Str) : List Str → Prop
  | [] => True
  | [value] => a.getKwarg key = some value
  | first :: second :: more =>
    a.getMultiKwarg key = some (first :: second :: more) ∧ a.hasKwarg key = false ∧ a.hasMultiKwarg key = true

/-- The arguments are accepted, and every key has the values that were written for it. -/
def Verbatim (argv : List Written) : Prop :=
  ∃ a, Arguments.parse (argv.map Written.text) = .ok a ∧ ∀ key, a.Holds key (valuesOf argv key)

/-! ### One argument -/

theorem extractWord_eq {word rest : Str} (plain : ∀ c ∈ word, c ≠ 0 ∧ c ≠ 61)
    (stops : ∀ c, rest.head? = some c → c = 0 ∨ c = 61) :
    Arguments.extractWord (word ++ rest) = (normalize word, rest) := by
  induction word with
  | nil =>
    cases rest with
    | nil => rfl
    | cons c rest => exact if_pos (stops c rfl)
  | cons c word ih =>
    obtain ⟨first, more⟩ := List.forall_mem_cons.mp plain
    rw [List.cons_append, Arguments.extractWord, if_neg (not_or.mpr first), ih more]
    rfl

theorem charAt_append {word : Str} (plain : ∀ c ∈ word, c ≠ 0 ∧ c ≠ 61) (some_ : word ≠ []) (rest : Str) :
    Arguments.charAt (word ++ rest) ≠ 0 := by
  cases word with
  | nil => exact absurd rfl some_
  | cons c word => exact (plain c List.mem_cons_self).1

/-- The value goes through the same loop as the key. -/
theorem parseArg_written (a : Arguments) (arg : Written) :
    a.parseArg arg.text = .ok (a.addKwarg (normalize arg.key) (normalize arg.value)) := by
  have text : arg.text = 45 :: 45 :: (arg.key ++ 61 :: arg.value) := by simp [Written.text]
  have key : Arguments.extractWord (arg.key ++ 61 :: arg.value) = (normalize arg.key, 61 :: arg.value) := by
    apply extractWord_eq arg.plainKey
    rintro c first
    exact .inr (Option.some.inj first).symm
  have value : Arguments.extractWord arg.value = (normalize arg.value, []) := by
    have whole : Arguments.extractWord (arg.value ++ []) = _ := extractWord_eq arg.plainValue nofun
    rwa [List.append_nil] at whole
  have given : Arguments.charAt arg.value ≠ 0 := by
    have first := charAt_append arg.plainValue arg.given []
    rwa [List.append_nil] at first
  have equals : Arguments.charAt (61 :: arg.value) ≠ 0 := by
    show (61 : UInt8) ≠ 0
    decide
  have accepted : a.extractArgument (arg.key ++ 61 :: arg.value) =
      .ok (a.addKwarg (normalize arg.key) (normalize arg.value)) := by
    rw [Arguments.extractArgument, key]
    dsimp only
    rw [if_neg equals, List.drop_one, List.tail_cons, if_neg given, value]
    rfl
  have dashes : ¬arg.text.take 2 ≠ [45, 45] := by
    rw [text]
    exact not_not.mpr rfl
  rw [Arguments.parseArg, if_neg dashes, text]
  exact (if_neg (charAt_append arg.plainKey arg.named _)).trans accepted

/-! ### What is stored -/

/-- The values that were added with a key, one in the one map and more than one in the other. -/
def Arguments.Stores (a : Arguments) (key : Str) : List Str → Prop
  | [] => a.kwargs.lookup key = none ∧ a.multiKwargs.lookup key = none
  | [value] => a.kwargs.lookup key = some value ∧ a.multiKwargs.lookup key = none
  | first :: second :: more =>
    a.kwargs.lookup key = none ∧ a.multiKwargs.lookup key = some (first :: second :: more)

theorem stores_empty (key : Str) : ({} : Arguments).Stores key [] := ⟨Finmap.lookup_empty key, Finmap.lookup_empty key⟩

theorem addKwarg_other (a : Arguments) {key other : Str} (value : Str) (different : other ≠ key) :
    (a.addKwarg key value).kwargs.lookup other = a.kwargs.lookup other ∧
      (a.addKwarg key value).multiKwargs.lookup other = a.multiKwargs.lookup other := by
  unfold Arguments.addKwarg
  cases a.multiKwargs.lookup key with
  | some values => simp [different]
  | none => cases a.kwargs.lookup key <;> simp [different]

theorem addKwarg_stores {a : Arguments} {key : Str} {values : List Str} (stores : a.Stores key values) (value : Str) :
    (a.addKwarg key value).Stores key (values ++ [value]) := by
  match values with
  | [] | [_] | _ :: _ :: _ =>
    obtain ⟨single, multi⟩ := stores
    simp [Arguments.addKwarg, Arguments.Stores, single, multi]

theorem stores_congr {a b : Arguments} {key : Str} {values : List Str} (stores : a.Stores key values)
    (same : b.kwargs.lookup key = a.kwargs.lookup key ∧ b.multiKwargs.lookup key = a.multiKwargs.lookup key) :
    b.Stores key values := by
  match values with
  | [] | [_] | _ :: _ :: _ => exact ⟨same.1.trans stores.1, same.2.trans stores.2⟩

/-- The arguments are added one by one. -/
theorem parse_stores (argv : List Written) (a : Arguments) (values : Str → List Str)
    (stores : ∀ key, a.Stores key (values key)) :
    ∃ b, (argv.map Written.text).foldlM Arguments.parseArg a = .ok b ∧
      ∀ key, b.Stores key (values key ++ (valuesOf argv key).map normalize) := by
  induction argv generalizing a values with
  | nil => exact ⟨a, rfl, fun key => by simpa [valuesOf] using stores key⟩
  | cons arg argv ih =>
    obtain ⟨b, parsed, after⟩ := ih (a.addKwarg (normalize arg.key) (normalize arg.value))
      (fun key => if key = normalize arg.key then values key ++ [normalize arg.value] else values key) (by
        intro key
        split
        · rename_i same
          rw [same]
          exact addKwarg_stores (stores _) _
        · rename_i different
          exact stores_congr (stores key) (addKwarg_other a _ different))
    refine ⟨b, ?_, fun key => ?_⟩
    · rw [List.map_cons, List.foldlM_cons, parseArg_written]
      exact parsed
    · have stored := after key
      by_cases same : normalize arg.key = key
      · subst same
        simpa [valuesOf] using stored
      · simpa [valuesOf, same, Ne.symm same] using stored

theorem parsed_stores {argv : List Written} {a : Arguments} (parsed : Arguments.parse (argv.map Written.text) = .ok a)
    (key : Str) : a.Stores key ((valuesOf argv key).map normalize) := by
  obtain ⟨b, again, stores⟩ := parse_stores argv {} (fun _ => []) stores_empty
  obtain rfl : a = b := Except.ok.inj (parsed.symm.trans again)
  exact stores key

theorem holds_iff {a : Arguments} {key : Str} {values : List Str} (stores : a.Stores key (values.map normalize)) :
    a.Holds key values ↔ values.map normalize = values := by
  match values with
  | [] => exact iff_of_true trivial rfl
  | [value] =>
    rw [Arguments.Holds, Arguments.getKwarg, stores.1]
    simp
  | first :: second :: more =>
    obtain ⟨single, multi⟩ := stores
    have apart : a.hasKwarg key = false := by
      simpa [Arguments.hasKwarg, Finmap.lookup_eq_none] using single
    have together : a.hasMultiKwarg key = true := by
      simpa [Arguments.hasMultiKwarg] using Finmap.mem_of_lookup_eq_some multi
    rw [Arguments.Holds, Arguments.getMultiKwarg, apart, together, multi]
    simp

theorem map_fixed_iff {α : Type} (f : α → α) (list : List α) : list.map f = list ↔ ∀ a ∈ list, f a = a := by
  induction list with
  | nil => simp
  | cons a list ih => simp [ih]

theorem normalize_eq_iff (word : Str) : normalize word = word ↔ 45 ∉ word := by
  unfold normalize
  rw [map_fixed_iff]
  constructor
  · intro same dash
    cases same 45 dash
  · intro plain c member
    apply if_neg
    rintro rfl
    exact plain member

theorem valuesOf_plain {argv : List Written} :
    (∀ key, (valuesOf argv key).map normalize = valuesOf argv key) ↔ ∀ arg ∈ argv, 45 ∉ arg.value := by
  simp only [map_fixed_iff, normalize_eq_iff]
  constructor
  · intro each arg member
    apply each (normalize arg.key)
    exact List.mem_map.mpr ⟨arg, List.mem_filter.mpr ⟨member, decide_eq_true rfl⟩, rfl⟩
  · intro plain key value member
    obtain ⟨arg, listed, rfl⟩ := List.mem_map.mp member
    exact plain arg (List.mem_filter.mp listed).1

/-- The arguments are taken verbatim exactly if there is no dash in a value. -/
theorem verbatim_iff (argv : List Written) : Verbatim argv ↔ ∀ arg ∈ argv, 45 ∉ arg.value := by
  rw [← valuesOf_plain]
  constructor
  · rintro ⟨a, parsed, holds⟩ key
    exact (holds_iff (parsed_stores parsed key)).mp (holds key)
  · intro plain
    obtain ⟨a, parsed, -⟩ := parse_stores argv {} (fun _ => []) stores_empty
    exact ⟨a, parsed, fun key => (holds_iff (parsed_stores parsed key)).mpr (plain key)⟩

/-- `--host=a-b`. -/
def dashedHost : Written where
  key := [104, 111, 115, 116]
  value := [97, 45, 98]
  named := nofun
  given := nofun
  plainKey := by simp
  plainValue := by simp

theorem dashedHost_changed : ¬Verbatim [dashedHost] := by
  rintro ⟨a, parsed, holds⟩
  have same := (holds_iff (parsed_stores parsed dashedHost.key)).mp (holds dashedHost.key)
  exact absurd same (by decide)

/-! ### What the configuration takes -/

def defaultHost : Str := ascii "localhost"

def defaultPorts : List UInt16 := [9955, 19955]

-- `std::stoi`
def stoi (str : Str) : Except StoError Int :=
  (stoa integerForm (fun text =>
    let n : Int := if isNegative text then -magnitude text else magnitude text
    if n < -2 ^ 31 ∨ n ≥ 2 ^ 31 then none else some n) str).map Prod.fst

-- the port goes into a `uint16_t`
def portOf (port : Str) : Except StoError UInt16 := (stoi port).map UInt16.ofInt

namespace Arguments

def extractHost (a : Arguments) : Str :=
  match a.getKwarg (ascii "host") with
  | some host => host
  | none => defaultHost

def extractPorts (a : Arguments) : Except StoError (List UInt16) :=
  match a.getMultiKwarg (ascii "port") with
  | some ports => ports.mapM portOf
  | none =>
    match a.getKwarg (ascii "port") with
    | some port => (portOf port).map fun port => [port]
    | none => .ok defaultPorts

end Arguments

section
variable {argv : List Written} {a : Arguments} (parsed : Arguments.parse (argv.map Written.text) = .ok a)
include parsed

/-- The host is the one that is written, with underscores for dashes, and the default one if none or several
are written. -/
theorem extractHost_eq :
    a.extractHost = match valuesOf argv (ascii "host") with
      | [host] => normalize host
      | _ => defaultHost := by
  have stores := parsed_stores parsed (ascii "host")
  unfold Arguments.extractHost Arguments.getKwarg
  match written : valuesOf argv (ascii "host") with
  | [] | [_] | _ :: _ :: _ =>
    rw [written] at stores
    rw [stores.1]

/-- All ports that are written are taken, in order. -/
theorem extractPorts_eq :
    a.extractPorts = match valuesOf argv (ascii "port") with
      | [] => .ok defaultPorts
      | ports => (ports.map normalize).mapM portOf := by
  have stores := parsed_stores parsed (ascii "port")
  unfold Arguments.extractPorts Arguments.getMultiKwarg Arguments.getKwarg
  match written : valuesOf argv (ascii "port") with
  | [] =>
    rw [written] at stores
    rw [stores.2, stores.1]
  | [port] =>
    rw [written] at stores
    rw [stores.2, stores.1]
    show (portOf (normalize port)).map (fun port => [port]) = [normalize port].mapM portOf
    rw [List.mapM_cons]
    cases portOf (normalize port) <;> rfl
  | first :: second :: more =>
    rw [written] at stores
    rw [stores.2]
    rfl

end

end Vanity.Config
