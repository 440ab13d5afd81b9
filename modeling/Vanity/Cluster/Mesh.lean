import Vanity.Library.Runs
import Mathlib.Data.Finset.Basic
import Mathlib.Data.Finset.Union

/-!
# How a mesh of nodes grows

The protocol without its messages. A link is a connection that one node has opened to another. The opener
applies; a target that is a member takes the application and any other denies it. An opener that was taken
is a member, asks the target for the nodes that it knows, and opens links to those among them that it does
not know. One node founds the mesh, every other joins it through some node.
-/

namespace Vanity.Cluster

inductive Stage (N : Type) where
  | applied
  | denied
  | gone
  | admitted
  | asking
  | told (peers : Finset N)
  | settled
  deriving DecidableEq

namespace Stage

variable {N : Type}

/-- The target knows the opener. -/
def taken : Stage N → Bool
  | .admitted | .asking | .told _ | .settled => true
  | _ => false

def live : Stage N → Bool
  | .denied | .gone => false
  | _ => true

/-- Something is still to come for the opener. -/
def pending : Stage N → Bool
  | .gone | .settled => false
  | _ => true

/-- The opener has become a member. -/
def asked : Stage N → Bool
  | .asking | .told _ | .settled => true
  | _ => false

theorem live_of_taken {stage : Stage N} (taken : stage.taken = true) : stage.live = true := by
  cases stage with
  | applied | denied | gone => cases taken
  | _ => rfl

end Stage

structure Link (N : Type) where
  opener : N
  target : N
  stage : Stage N

@[ext] structure Mesh (N : Type) where
  members : Finset N
  started : Finset N
  links : List (Link N)

variable {N : Type} [DecidableEq N]

namespace Mesh

variable (mesh : Mesh N)

/-- The nodes that a node knows: those it has a link to, and those whose links it has taken. -/
def known (x : N) : Finset N :=
  ((mesh.links.filter fun link => decide (link.opener = x) && decide (link.stage ≠ .gone)).map Link.target).toFinset ∪
    ((mesh.links.filter fun link => decide (link.target = x) && link.stage.taken).map Link.opener).toFinset

def next (link : Link N) : Option (Stage N) :=
  match link.stage with
  | .applied => some (if link.target ∈ mesh.members then .admitted else .denied)
  | .denied => some .gone
  | .admitted => some .asking
  | .asking => some (.told (mesh.known link.target))
  | .told _ => some .settled
  | .gone | .settled => none

def unknown (link : Link N) : Finset N :=
  match link.stage with
  | .told peers => (peers.filter fun y => y ∉ mesh.known link.opener).erase link.opener
  | _ => ∅

def admits (link : Link N) : Finset N :=
  match link.stage with
  | .admitted => insert link.opener mesh.members
  | _ => mesh.members

end Mesh

inductive Move (N : Type) where
  | create
  | join (x target : N)
  | handle (i : Nat) (fresh : List N)

def Mesh.step (founder : N) (mesh : Mesh N) : Move N → Option (Mesh N)
  | .create => some { mesh with members := insert founder mesh.members }
  | .join x target =>
    if x = founder ∨ x ∈ mesh.started then none
    else some { mesh with started := insert x mesh.started, links := mesh.links ++ [⟨x, target, .applied⟩] }
  | .handle i fresh =>
    (mesh.links[i]?).bind fun link =>
      (mesh.next link).bind fun stage =>
        if fresh.toFinset = mesh.unknown link then
          some { mesh with
            members := mesh.admits link
            links := mesh.links.set i { link with stage } ++ fresh.map fun y => ⟨link.opener, y, .applied⟩ }
        else none

def Mesh.empty : Mesh N := { members := ∅, started := ∅, links := [] }

namespace Mesh

variable (mesh : Mesh N)

def Quiet : Prop := ∀ link ∈ mesh.links, link.stage.pending = false

def Joined (x y : N) : Prop :=
  ∃ link ∈ mesh.links, link.stage.live = true ∧
    ((link.opener = x ∧ link.target = y) ∨ (link.opener = y ∧ link.target = x))

def Contacted (founder x : N) : Prop :=
  ∃ link ∈ mesh.links, link.opener = x ∧ link.target = founder ∧ link.stage.live = true

def Expects (i : Nat) (x : N) : Prop :=
  ∃ j link, j ≠ i ∧ mesh.links[j]? = some link ∧ link.opener = x ∧ link.stage.pending = true

/-- A node that was told of others by the founder does not pass by a member that it knows only from a link
which was denied. And a node does not handle the last reply that it expects, to learn nothing new from it,
without having a link to the founder. -/
def PassesBy (founder : N) (i : Nat) (link : Link N) : Prop :=
  match link.stage with
  | .told peers =>
    (link.target = founder → ∀ y ∈ peers, y ∈ mesh.members → y ∈ mesh.known link.opener → mesh.Joined link.opener y) ∧
      (mesh.Expects i link.opener ∨ mesh.Contacted founder link.opener ∨ mesh.unknown link ≠ ∅)
  | .denied => link.opener ∈ mesh.members → mesh.Expects i link.opener ∨ mesh.Contacted founder link.opener
  | _ => True

def Passes (founder : N) (i : Nat) : Prop := ∀ link, mesh.links[i]? = some link → mesh.PassesBy founder i link

instance (x y : N) : Decidable (mesh.Joined x y) :=
  inferInstanceAs (Decidable (∃ link ∈ mesh.links, link.stage.live = true ∧
    ((link.opener = x ∧ link.target = y) ∨ (link.opener = y ∧ link.target = x))))

instance (founder x : N) : Decidable (mesh.Contacted founder x) :=
  inferInstanceAs (Decidable (∃ link ∈ mesh.links, link.opener = x ∧ link.target = founder ∧ link.stage.live = true))

instance (i : Nat) (x : N) : Decidable (mesh.Expects i x) :=
  decidable_of_iff (∃ j ∈ List.range mesh.links.length, j ≠ i ∧
      ∃ link ∈ mesh.links[j]?, link.opener = x ∧ link.stage.pending = true)
    ⟨fun ⟨j, _, different, link, here, holds⟩ => ⟨j, link, different, here, holds⟩,
      fun ⟨j, link, different, here, holds⟩ =>
        ⟨j, List.mem_range.mpr (List.getElem?_eq_some_iff.mp here).1, different, link, here, holds⟩⟩

instance (founder : N) (i : Nat) : (link : Link N) → Decidable (mesh.PassesBy founder i link)
  | ⟨_, _, .told _⟩ => inferInstanceAs (Decidable (_ ∧ _))
  | ⟨_, _, .denied⟩ => inferInstanceAs (Decidable (_ → _))
  | ⟨_, _, .applied⟩ | ⟨_, _, .gone⟩ | ⟨_, _, .admitted⟩ | ⟨_, _, .asking⟩ | ⟨_, _, .settled⟩ =>
    inferInstanceAs (Decidable True)

instance (founder : N) (i : Nat) : Decidable (mesh.Passes founder i) :=
  inferInstanceAs (Decidable (∀ link ∈ mesh.links[i]?, mesh.PassesBy founder i link))

/-- Every member knows exactly the other members. -/
def Full : Prop := ∀ x ∈ mesh.members, mesh.known x = mesh.members.erase x

end Mesh

theorem mem_known {mesh : Mesh N} {x y : N} :
    y ∈ mesh.known x ↔
      (∃ link ∈ mesh.links, link.opener = x ∧ link.target = y ∧ link.stage ≠ .gone) ∨
        ∃ link ∈ mesh.links, link.opener = y ∧ link.target = x ∧ link.stage.taken = true := by
  simp only [Mesh.known, Finset.mem_union, List.mem_toFinset, List.mem_map, List.mem_filter, Bool.and_eq_true,
    decide_eq_true_eq]
  constructor
  · rintro (⟨link, ⟨member, opener, stage⟩, target⟩ | ⟨link, ⟨member, target, stage⟩, opener⟩)
    · exact .inl ⟨link, member, opener, target, stage⟩
    · exact .inr ⟨link, member, opener, target, stage⟩
  · rintro (⟨link, member, opener, target, stage⟩ | ⟨link, member, opener, target, stage⟩)
    · exact .inl ⟨link, ⟨member, opener, stage⟩, target⟩
    · exact .inr ⟨link, ⟨member, target, stage⟩, opener⟩

/-! ### What a step does to the links -/

/-- The mesh in which a link has moved on and its opener has opened others. -/
def Mesh.handled (mesh : Mesh N) (i : Nat) (link : Link N) (stage : Stage N) (fresh : List N) : Mesh N :=
  { mesh with
    members := mesh.admits link
    links := mesh.links.set i { link with stage } ++ fresh.map fun y => ⟨link.opener, y, .applied⟩ }

variable {founder : N} {mesh after : Mesh N} {i : Nat} {link : Link N} {stage : Stage N} {fresh : List N}

theorem step_handle (taken : mesh.step founder (.handle i fresh) = some after) :
    ∃ link stage, mesh.links[i]? = some link ∧ mesh.next link = some stage ∧
      fresh.toFinset = mesh.unknown link ∧ after = mesh.handled i link stage fresh := by
  obtain ⟨link, found, taken⟩ := Option.bind_eq_some_iff.mp taken
  obtain ⟨stage, next, taken⟩ := Option.bind_eq_some_iff.mp taken
  split at taken
  · rename_i all
    exact ⟨link, stage, found, next, all, (Option.some.inj taken).symm⟩
  · cases taken

section
variable {P : Link N → Prop} (found : mesh.links[i]? = some link)

include found

theorem handled_exists (keeps : P link → P { link with stage }) (there : ∃ other ∈ mesh.links, P other) :
    ∃ other ∈ (mesh.handled i link stage fresh).links, P other := by
  obtain ⟨other, member, holds⟩ := there
  obtain ⟨j, here⟩ := List.mem_iff_getElem?.mp member
  by_cases same : i = j
  · subst same
    rw [found] at here
    cases here
    obtain ⟨short, -⟩ := List.getElem?_eq_some_iff.mp found
    exact ⟨{ link with stage }, List.mem_append_left _ (List.mem_set short _), keeps holds⟩
  · refine ⟨other, List.mem_append_left _ (List.mem_iff_getElem?.mpr ⟨j, ?_⟩), holds⟩
    rw [List.getElem?_set_ne same]
    exact here

omit found in
/-- A link that is not the one that moves. -/
theorem handled_exists_other {j : Nat} {other : Link N} (here : mesh.links[j]? = some other) (different : j ≠ i) :
    other ∈ (mesh.handled i link stage fresh).links := by
  refine List.mem_append_left _ (List.mem_iff_getElem?.mpr ⟨j, ?_⟩)
  rw [List.getElem?_set_ne (Ne.symm different)]
  exact here

theorem handled_moved : { link with stage } ∈ (mesh.handled i link stage fresh).links := by
  obtain ⟨short, -⟩ := List.getElem?_eq_some_iff.mp found
  exact List.mem_append_left _ (List.mem_set short _)

omit found in
theorem handled_forall (each : ∀ other ∈ mesh.links, P other) (moved : P { link with stage })
    (new : ∀ y ∈ fresh, P ⟨link.opener, y, .applied⟩) : ∀ other ∈ (mesh.handled i link stage fresh).links, P other := by
  intro other member
  rcases List.mem_append.mp member with old | opened
  · rcases List.mem_or_eq_of_mem_set old with old | rfl
    · exact each other old
    · exact moved
  · obtain ⟨y, listed, rfl⟩ := List.mem_map.mp opened
    exact new y listed

end

theorem members_subset (link : Link N) : mesh.members ⊆ mesh.admits link := by
  unfold Mesh.admits
  split
  · exact Finset.subset_insert ..
  · exact Finset.Subset.refl _

theorem mem_admits {x : N} (member : x ∈ mesh.admits link) :
    x ∈ mesh.members ∨ (x = link.opener ∧ link.stage = .admitted) := by
  unfold Mesh.admits at member
  split at member
  · rename_i stage
    rcases Finset.mem_insert.mp member with rfl | old
    · exact .inr ⟨rfl, stage⟩
    · exact .inl old
  · exact .inl member

theorem next_taken (next : mesh.next link = some stage) (taken : stage.taken = true) :
    link.stage.taken = true ∨ (link.stage = .applied ∧ stage = .admitted ∧ link.target ∈ mesh.members) := by
  unfold Mesh.next at next
  split at next
  · rename_i is
    split at next
    · rename_i member
      cases next
      exact .inr ⟨is, rfl, member⟩
    · cases next
      cases taken
  · cases next
    cases taken
  · rename_i is
    exact .inl (by rw [is]; rfl)
  · rename_i is
    exact .inl (by rw [is]; rfl)
  · rename_i is
    exact .inl (by rw [is]; rfl)
  · cases next
  · cases next

theorem next_asked (next : mesh.next link = some stage) (asked : stage.asked = true) :
    link.stage = .admitted ∨ link.stage.asked = true := by
  unfold Mesh.next at next
  split at next
  · split at next <;> cases next <;> cases asked
  · cases next
    cases asked
  · rename_i is
    exact .inl is
  · rename_i is
    exact .inr (by rw [is]; rfl)
  · rename_i is
    exact .inr (by rw [is]; rfl)
  · cases next
  · cases next

theorem next_live (next : mesh.next link = some stage) (member : link.target ∈ mesh.members)
    (live : link.stage.live = true) : stage.live = true := by
  unfold Mesh.next at next
  split at next
  · rw [if_pos member] at next
    cases next
    rfl
  · rename_i is
    rw [is] at live
    cases live
  all_goals cases next
  all_goals rfl

theorem told_of_unknown {y : N} (listed : y ∈ mesh.unknown link) :
    ∃ peers, link.stage = .told peers ∧ y ∈ peers ∧ y ∉ mesh.known link.opener ∧ y ≠ link.opener := by
  unfold Mesh.unknown at listed
  split at listed
  · rename_i peers is
    obtain ⟨other, filtered⟩ := Finset.mem_erase.mp listed
    obtain ⟨told, unknown⟩ := Finset.mem_filter.mp filtered
    exact ⟨peers, is, told, unknown, other⟩
  · cases listed

theorem mem_unknown {peers : Finset N} {y : N} (is : link.stage = .told peers) (told : y ∈ peers)
    (stranger : y ∉ mesh.known link.opener) (other : y ≠ link.opener) : y ∈ mesh.unknown link := by
  unfold Mesh.unknown
  rw [is]
  exact Finset.mem_erase.mpr ⟨other, Finset.mem_filter.mpr ⟨told, stranger⟩⟩

/-! ### Who is a member -/

structure Mesh.Inv (founder : N) (mesh : Mesh N) : Prop where
  taken : ∀ link ∈ mesh.links, link.stage.taken = true → link.target ∈ mesh.members
  asked : ∀ link ∈ mesh.links, link.stage.asked = true → link.opener ∈ mesh.members
  opened : ∀ link ∈ mesh.links, link.opener ∈ mesh.started ∧ link.opener ≠ founder
  started : ∀ x ∈ mesh.members, x = founder ∨ x ∈ mesh.started
  founded : ∀ x ∈ mesh.members, founder ∈ mesh.members
  /-- A node that is not a member has at most the link with which it joins. -/
  single : ∀ (i j : Nat) (a b : Link N), mesh.links[i]? = some a → mesh.links[j]? = some b → a.opener = b.opener →
    a.opener ∉ mesh.members → i = j
  straight : ∀ link ∈ mesh.links, link.opener = link.target → link.opener ∉ mesh.members

omit [DecidableEq N] in
theorem empty_inv : (Mesh.empty : Mesh N).Inv founder where
  taken _ member := absurd member List.not_mem_nil
  asked _ member := absurd member List.not_mem_nil
  opened _ member := absurd member List.not_mem_nil
  started _ member := absurd member (Finset.notMem_empty _)
  founded _ member := absurd member (Finset.notMem_empty _)
  single i j a b found := by cases found
  straight _ member := absurd member List.not_mem_nil

namespace Mesh.Inv

variable (inv : mesh.Inv founder)

include inv

theorem create : ({ mesh with members := insert founder mesh.members } : Mesh N).Inv founder where
  taken link member taken := Finset.mem_insert_of_mem (inv.taken link member taken)
  asked link member asked := Finset.mem_insert_of_mem (inv.asked link member asked)
  opened := inv.opened
  started x member := by
    rcases Finset.mem_insert.mp member with rfl | old
    · exact .inl rfl
    · exact inv.started x old
  founded _ _ := Finset.mem_insert_self ..
  single i j a b first second same stranger :=
    inv.single i j a b first second same fun member => stranger (Finset.mem_insert_of_mem member)
  straight link member same := by
    intro joined
    rcases Finset.mem_insert.mp joined with is | old
    · exact (inv.opened link member).2 is
    · exact inv.straight link member same old

theorem join {x target : N} (other : x ≠ founder) (unstarted : x ∉ mesh.started) :
    ({ mesh with started := insert x mesh.started, links := mesh.links ++ [⟨x, target, .applied⟩] } : Mesh N).Inv
      founder := by
  have each : ∀ {P : Link N → Prop}, (∀ link ∈ mesh.links, P link) → P ⟨x, target, .applied⟩ →
      ∀ link ∈ mesh.links ++ [⟨x, target, .applied⟩], P link := by
    intro P old new link member
    rcases List.mem_append.mp member with earlier | last
    · exact old link earlier
    · obtain rfl := List.mem_singleton.mp last
      exact new
  have stranger : x ∉ mesh.members := by
    intro member
    rcases inv.started x member with is | begun
    · exact other is
    · exact unstarted begun
  have alone : ∀ (j : Nat) (link : Link N), mesh.links[j]? = some link → link.opener ≠ x := by
    rintro j link found rfl
    exact unstarted (inv.opened link (List.mem_of_getElem? found)).1
  refine ⟨each inv.taken ?_, each inv.asked ?_, each ?_ ?_, ?_, inv.founded, ?_, each inv.straight fun _ => stranger⟩
  · intro taken
    cases taken
  · intro asked
    cases asked
  · intro link member
    exact ⟨Finset.mem_insert_of_mem (inv.opened link member).1, (inv.opened link member).2⟩
  · exact ⟨Finset.mem_insert_self .., other⟩
  · exact fun y member => (inv.started y member).imp_right Finset.mem_insert_of_mem
  · intro i j a b first second same outside
    rw [List.getElem?_append] at first second
    split at first
    · split at second
      · exact inv.single i j a b first second same outside
      · obtain rfl := List.mem_singleton.mp (List.mem_of_getElem? second)
        exact absurd same (alone i a first)
    · obtain rfl := List.mem_singleton.mp (List.mem_of_getElem? first)
      split at second
      · exact absurd same.symm (alone j b second)
      · have one := (List.getElem?_eq_some_iff.mp first).1
        have two := (List.getElem?_eq_some_iff.mp second).1
        simp only [List.length_singleton] at one two
        omega

section
variable (found : mesh.links[i]? = some link) (next : mesh.next link = some stage) (all : fresh.toFinset = mesh.unknown link)

omit inv in
include all in
theorem fresh_told {y : N} (listed : y ∈ fresh) :
    ∃ peers, link.stage = .told peers ∧ y ∈ peers ∧ y ∉ mesh.known link.opener ∧ y ≠ link.opener :=
  told_of_unknown (all ▸ List.mem_toFinset.mpr listed)

include found all in
/-- The links of a node that is still no member were there before. -/
theorem handled_before {j : Nat} {other : Link N} (here : (mesh.handled i link stage fresh).links[j]? = some other)
    (outside : other.opener ∉ mesh.admits link) : ∃ before, mesh.links[j]? = some before ∧ before.opener = other.opener := by
  unfold Mesh.handled at here
  rw [List.getElem?_append] at here
  split at here
  · by_cases same : i = j
    · subst same
      rw [List.getElem?_set_self (List.getElem?_eq_some_iff.mp found).1] at here
      cases here
      exact ⟨link, found, rfl⟩
    · rw [List.getElem?_set_ne same] at here
      exact ⟨other, here, rfl⟩
  · obtain ⟨y, listed, rfl⟩ := List.mem_map.mp (List.mem_of_getElem? here)
    obtain ⟨peers, is, -⟩ := fresh_told all listed
    have asked := inv.asked link (List.mem_of_getElem? found) (by rw [is]; rfl)
    exact absurd (members_subset link asked) outside

include found in
/-- A node that becomes a member has no link to itself. -/
theorem straight_admitted {other : Link N} (member : other ∈ mesh.links) (loop : other.opener = other.target) :
    other.opener ∉ mesh.admits link := by
  intro joined
  have stranger := inv.straight other member loop
  rcases mem_admits joined with old | ⟨same, is⟩
  · exact stranger old
  · obtain ⟨j, here⟩ := List.mem_iff_getElem?.mp member
    obtain rfl := inv.single j i other link here found same stranger
    rw [found] at here
    cases here
    have target := inv.taken link member (by rw [is]; rfl)
    exact stranger (loop ▸ target)

include found next all in
theorem handle : (mesh.handled i link stage fresh).Inv founder := by
  have here := List.mem_of_getElem? found
  have more : mesh.members ⊆ mesh.admits link := members_subset link
  refine ⟨handled_forall ?_ ?_ ?_, handled_forall ?_ ?_ ?_, handled_forall inv.opened (inv.opened link here) ?_, ?_, ?_, ?_,
    handled_forall ?_ ?_ ?_⟩
  · exact fun other member taken => more (inv.taken other member taken)
  · intro taken
    rcases next_taken next taken with before | ⟨_, _, member⟩
    · exact more (inv.taken link here before)
    · exact more member
  · intro y _ taken
    cases taken
  · exact fun other member asked => more (inv.asked other member asked)
  · intro asked
    rcases next_asked next asked with is | before
    · show link.opener ∈ mesh.admits link
      rw [Mesh.admits, is]
      exact Finset.mem_insert_self ..
    · exact more (inv.asked link here before)
  · intro y _ asked
    cases asked
  · exact fun _ _ => inv.opened link here
  · intro x member
    rcases mem_admits member with old | ⟨rfl, _⟩
    · exact inv.started x old
    · exact .inr (inv.opened link here).1
  · intro x member
    rcases mem_admits member with old | ⟨rfl, is⟩
    · exact more (inv.founded x old)
    · exact more (inv.founded link.target (inv.taken link here (by rw [is]; rfl)))
  · intro j k a b first second same outside
    obtain ⟨a', before, sameA⟩ := inv.handled_before found all first outside
    obtain ⟨b', before', sameB⟩ := inv.handled_before found all second (same ▸ outside)
    refine inv.single j k a' b' before before' (by rw [sameA, sameB, same]) fun member => outside ?_
    rw [← sameA]
    exact more member
  · exact fun other member loop => inv.straight_admitted found member loop
  · have stays : link.opener = link.target → link.opener ∉ mesh.admits link := inv.straight_admitted found here
    exact stays
  · intro y listed loop
    obtain ⟨_, _, _, _, other⟩ := fresh_told all listed
    exact absurd loop.symm other

end

theorem step (move : Move N) (taken : mesh.step founder move = some after) : after.Inv founder := by
  cases move with
  | create =>
    cases taken
    exact inv.create
  | join x target =>
    simp only [Mesh.step] at taken
    split at taken
    · cases taken
    · rename_i free
      cases taken
      exact inv.join (fun same => free (.inl same)) (fun begun => free (.inr begun))
  | handle i fresh =>
    obtain ⟨link, stage, found, next, all, rfl⟩ := step_handle taken
    exact inv.handle found next all

end Mesh.Inv

/-! ### Who finds whom -/

namespace Mesh

variable (mesh : Mesh N)

def Registered (founder x : N) : Prop :=
  ∃ link ∈ mesh.links, link.opener = x ∧ link.target = founder ∧ link.stage.taken = true

def Good (x y : N) : Prop := x ∈ mesh.members ∧ y ∈ mesh.members ∧ mesh.Joined x y

/-- The founder will tell `x` of `y`, or has sent it a reply that does. -/
def Told (founder x y : N) : Prop :=
  ∃ link ∈ mesh.links, link.opener = x ∧ link.target = founder ∧
    (link.stage = .admitted ∨ link.stage = .asking ∨ ∃ peers, link.stage = .told peers ∧ y ∈ peers)

structure Linking (founder : N) : Prop where
  expects : ∀ x ∈ mesh.members, x ≠ founder →
    mesh.Contacted founder x ∨ ∃ link ∈ mesh.links, link.opener = x ∧ link.stage.pending = true
  pairs : ∀ x y, x ≠ y → mesh.Registered founder x → mesh.Registered founder y →
    mesh.Good x y ∨ mesh.Told founder x y ∨ mesh.Told founder y x

end Mesh

variable {x y : N}

omit [DecidableEq N] in
theorem Mesh.Joined.symm (joined : mesh.Joined x y) : mesh.Joined y x := by
  obtain ⟨link, member, live, ends⟩ := joined
  exact ⟨link, member, live, ends.symm⟩

omit [DecidableEq N] in
theorem Mesh.Good.symm (good : mesh.Good x y) : mesh.Good y x := ⟨good.2.1, good.1, good.2.2.symm⟩

section
variable (found : mesh.links[i]? = some link) (next : mesh.next link = some stage)

include found next

theorem contacted_handled (founded : founder ∈ mesh.members) (contacted : mesh.Contacted founder x) :
    (mesh.handled i link stage fresh).Contacted founder x :=
  handled_exists found (fun before => ⟨before.1, before.2.1, next_live next (before.2.1 ▸ founded) before.2.2⟩) contacted

theorem good_handled (good : mesh.Good x y) : (mesh.handled i link stage fresh).Good x y := by
  obtain ⟨first, second, joined⟩ := good
  refine ⟨members_subset link first, members_subset link second, ?_⟩
  refine handled_exists found (fun before => ?_) joined
  obtain ⟨live, ends⟩ := before
  refine ⟨next_live next ?_ live, ends⟩
  rcases ends with ⟨_, rfl⟩ | ⟨_, rfl⟩
  · exact second
  · exact first

omit found next in
theorem expects_handled (expects : mesh.Expects i x) :
    ∃ other ∈ (mesh.handled i link stage fresh).links, other.opener = x ∧ other.stage.pending = true := by
  obtain ⟨j, other, different, here, opener, pending⟩ := expects
  exact ⟨other, handled_exists_other here different, opener, pending⟩

omit found in
theorem pending_handled (undenied : link.stage ≠ .denied) (untold : ∀ peers, link.stage ≠ .told peers) :
    stage.pending = true := by
  unfold Mesh.next at next
  split at next
  · split at next <;> cases next <;> rfl
  · rename_i is
    exact absurd is undenied
  · cases next
    rfl
  · cases next
    rfl
  · rename_i peers is
    exact absurd is (untold peers)
  · cases next
  · cases next

end

namespace Mesh.Linking

variable (linking : mesh.Linking founder) (inv : mesh.Inv founder) (found : mesh.links[i]? = some link)
  (next : mesh.next link = some stage) (all : fresh.toFinset = mesh.unknown link) (passes : mesh.Passes founder i)

include linking inv found next all passes in
theorem expects_handle (member : x ∈ mesh.admits link) (other : x ≠ founder) :
    (mesh.handled i link stage fresh).Contacted founder x ∨
      ∃ later ∈ (mesh.handled i link stage fresh).links, later.opener = x ∧ later.stage.pending = true := by
  rcases mem_admits member with old | ⟨rfl, is⟩
  · have founded := inv.founded x old
    rcases linking.expects x old other with contacted | ⟨later, there, opener, pending⟩
    · exact .inl (contacted_handled found next founded contacted)
    · obtain ⟨j, here⟩ := List.mem_iff_getElem?.mp there
      by_cases same : j = i
      · -- the link that moves on was all that the node has expected
        subst same
        rw [found] at here
        cases here
        subst opener
        have condition := passes link found
        unfold Mesh.PassesBy at condition
        cases is : link.stage with
        | told peers =>
          simp only [is] at condition
          rcases condition.2 with expects | contacted | new
          · exact .inr (expects_handled expects)
          · exact .inl (contacted_handled found next founded contacted)
          · obtain ⟨y, unknown⟩ := Finset.nonempty_iff_ne_empty.mpr new
            rw [← all, List.mem_toFinset] at unknown
            exact .inr ⟨⟨link.opener, y, .applied⟩, List.mem_append_right _ (List.mem_map.mpr ⟨y, unknown, rfl⟩), rfl, rfl⟩
        | denied =>
          simp only [is] at condition
          rcases condition old with expects | contacted
          · exact .inr (expects_handled expects)
          · exact .inl (contacted_handled found next founded contacted)
        | _ =>
          refine .inr ⟨{ link with stage }, handled_moved found, rfl, ?_⟩
          exact pending_handled next (by simp [is]) (by simp [is])
      · exact .inr ⟨later, handled_exists_other here same, opener, pending⟩
  · refine .inr ⟨{ link with stage }, handled_moved found, rfl, ?_⟩
    exact pending_handled next (by simp [is]) (by simp [is])

include inv found next all passes in
/-- Of a pair that the founder knows, one is told of the other as long as there is no link between them. -/
theorem told_handle (different : x ≠ y) (second : mesh.Registered founder y) (told : mesh.Told founder x y) :
    (mesh.handled i link stage fresh).Good x y ∨ (mesh.handled i link stage fresh).Told founder x y ∨
      (mesh.handled i link stage fresh).Told founder y x := by
  obtain ⟨teller, there, opener, target, stages⟩ := told
  obtain ⟨j, here⟩ := List.mem_iff_getElem?.mp there
  by_cases same : j = i
  · subst same
    rw [found] at here
    cases here
    have moved : { link with stage } ∈ (mesh.handled j link stage fresh).links := handled_moved found
    rcases stages with is | is | ⟨peers, is, listed⟩
    · simp only [Mesh.next, is] at next
      cases next
      exact .inr (.inl ⟨_, moved, opener, target, .inr (.inl rfl)⟩)
    · simp only [Mesh.next, is] at next
      cases next
      obtain ⟨other, member, ends, founds, taken⟩ := second
      have known : y ∈ mesh.known link.target := mem_known.mpr (.inr ⟨other, member, ends, founds.trans target.symm, taken⟩)
      exact .inr (.inl ⟨_, moved, opener, target, .inr (.inr ⟨_, rfl, known⟩)⟩)
    · have asked := inv.asked link there (by rw [is]; rfl)
      by_cases member : y ∈ mesh.members
      · refine .inl ?_
        by_cases known : y ∈ mesh.known link.opener
        · have condition := passes link found
          simp only [Mesh.PassesBy, is] at condition
          have joined := condition.1 target y listed member known
          exact good_handled found next ⟨opener ▸ asked, member, opener ▸ joined⟩
        · have unknown := mem_unknown is listed known (opener ▸ different.symm)
          rw [← all, List.mem_toFinset] at unknown
          refine ⟨opener ▸ members_subset link asked, members_subset link member, ⟨link.opener, y, .applied⟩, ?_, rfl,
            .inl ⟨opener, rfl⟩⟩
          exact List.mem_append_right _ (List.mem_map.mpr ⟨y, unknown, rfl⟩)
      · -- not yet a member, `y` is going to ask the founder
        obtain ⟨other, there', ends, founds, taken⟩ := second
        obtain ⟨k, here'⟩ := List.mem_iff_getElem?.mp there'
        have apart : k ≠ j := by
          rintro rfl
          rw [found] at here'
          cases here'
          exact different (opener.symm.trans ends)
        refine .inr (.inr ⟨other, handled_exists_other here' apart, ends, founds, .inl ?_⟩)
        have unasked : other.stage.asked ≠ true := fun asked => member (ends ▸ inv.asked other there' asked)
        cases stage' : other.stage with
        | admitted => rfl
        | applied | denied | gone => rw [stage'] at taken; cases taken
        | asking | told peers | settled => rw [stage'] at unasked; exact absurd rfl unasked
  · exact .inr (.inl ⟨teller, handled_exists_other here same, opener, target, stages⟩)

include found next in
omit all in
theorem registered_handle (registered : (mesh.handled i link stage fresh).Registered founder x) :
    mesh.Registered founder x ∨ ∀ y, (mesh.handled i link stage fresh).Told founder x y := by
  obtain ⟨other, member, opener, target, taken⟩ := registered
  rcases List.mem_append.mp member with old | opened
  · rcases List.mem_or_eq_of_mem_set old with old | rfl
    · exact .inl ⟨other, old, opener, target, taken⟩
    · rcases next_taken next taken with before | ⟨_, rfl, _⟩
      · exact .inl ⟨link, List.mem_of_getElem? found, opener, target, before⟩
      · exact .inr fun y => ⟨_, handled_moved found, opener, target, .inl rfl⟩
  · obtain ⟨y, _, rfl⟩ := List.mem_map.mp opened
    cases taken

include linking inv found next all passes in
theorem handle : (mesh.handled i link stage fresh).Linking founder := by
  refine ⟨fun x member other => linking.expects_handle inv found next all passes member other, ?_⟩
  intro x y different first second
  rcases registered_handle found next first with first | told
  · rcases registered_handle found next second with second | told
    · rcases linking.pairs x y different first second with good | told | told
      · exact .inl (good_handled found next good)
      · exact told_handle inv found next all passes different second told
      · rcases told_handle inv found next all passes different.symm first told with good | told | told
        · exact .inl good.symm
        · exact .inr (.inr told)
        · exact .inr (.inl told)
    · exact .inr (.inr (told x))
  · exact .inr (.inl (told y))

omit [DecidableEq N] in
theorem empty : (Mesh.empty : Mesh N).Linking founder where
  expects _ member := absurd member (Finset.notMem_empty _)
  pairs _ _ _ := by
    rintro ⟨_, member, _⟩
    cases member

include linking in
theorem create : ({ mesh with members := insert founder mesh.members } : Mesh N).Linking founder := by
  refine ⟨fun x member other => ?_, fun x y different first second => ?_⟩
  · rcases Finset.mem_insert.mp member with rfl | old
    · exact absurd rfl other
    · exact linking.expects x old other
  · rcases linking.pairs x y different first second with ⟨one, two, joined⟩ | told
    · exact .inl ⟨Finset.mem_insert_of_mem one, Finset.mem_insert_of_mem two, joined⟩
    · exact .inr told

include linking in
theorem join (target : N) :
    ({ mesh with started := insert x mesh.started, links := mesh.links ++ [⟨x, target, .applied⟩] } : Mesh N).Linking
      founder := by
  have more : ∀ {P : Link N → Prop}, (∃ link ∈ mesh.links, P link) →
      ∃ link ∈ mesh.links ++ [⟨x, target, .applied⟩], P link := by
    rintro P ⟨link, member, holds⟩
    exact ⟨link, List.mem_append_left _ member, holds⟩
  have before : ∀ y, ({ mesh with started := insert x mesh.started, links := mesh.links ++ [⟨x, target, .applied⟩] } :
      Mesh N).Registered founder y → mesh.Registered founder y := by
    rintro y ⟨link, member, opener, founds, taken⟩
    rcases List.mem_append.mp member with old | last
    · exact ⟨link, old, opener, founds, taken⟩
    · obtain rfl := List.mem_singleton.mp last
      cases taken
  refine ⟨fun y member other => ?_, fun y z different first second => ?_⟩
  · rcases linking.expects y member other with contacted | pending
    · exact .inl (more contacted)
    · exact .inr (more pending)
  · rcases linking.pairs y z different (before y first) (before z second) with ⟨one, two, joined⟩ | told | told
    · exact .inl ⟨one, two, more joined⟩
    · exact .inr (.inl (more told))
    · exact .inr (.inr (more told))

include linking inv in
theorem step (move : Move N) (passes : ∀ i fresh, move = .handle i fresh → mesh.Passes founder i)
    (taken : mesh.step founder move = some after) : after.Linking founder := by
  cases move with
  | create =>
    cases taken
    exact linking.create
  | join x target =>
    simp only [Mesh.step] at taken
    split at taken
    · cases taken
    · cases taken
      exact linking.join target
  | handle i fresh =>
    obtain ⟨link, stage, found, next, all, rfl⟩ := step_handle taken
    exact linking.handle inv found next all (passes i fresh rfl)

end Mesh.Linking

/-! ### When nothing is in flight -/

section
variable (inv : mesh.Inv founder) (linking : mesh.Linking founder) (quiet : mesh.Quiet)

include quiet

omit [DecidableEq N] in
theorem settled_of_live (member : link ∈ mesh.links) (live : link.stage.live = true) : link.stage = .settled := by
  have ended := quiet link member
  cases is : link.stage with
  | settled => rfl
  | denied | gone => rw [is] at live; cases live
  | applied | admitted | asking | told peers => rw [is] at ended; cases ended

omit [DecidableEq N] in
include linking in
theorem registered_of_quiet (member : x ∈ mesh.members) (other : x ≠ founder) : mesh.Registered founder x := by
  rcases linking.expects x member other with ⟨link, there, opener, target, live⟩ | ⟨link, there, _, pending⟩
  · exact ⟨link, there, opener, target, by rw [settled_of_live quiet there live]; rfl⟩
  · rw [quiet link there] at pending
    cases pending

omit [DecidableEq N] in
theorem untold_of_quiet : ¬mesh.Told founder x y := by
  rintro ⟨link, there, _, _, is⟩
  have ended := quiet link there
  rcases is with is | is | ⟨peers, is, _⟩
  · rw [is] at ended
    cases ended
  · rw [is] at ended
    cases ended
  · rw [is] at ended
    cases ended

theorem known_of_joined (joined : mesh.Joined x y) : y ∈ mesh.known x := by
  obtain ⟨link, there, live, ends⟩ := joined
  have settled := settled_of_live quiet there live
  rcases ends with ⟨opener, target⟩ | ⟨opener, target⟩
  · exact mem_known.mpr (.inl ⟨link, there, opener, target, by simp [settled]⟩)
  · exact mem_known.mpr (.inr ⟨link, there, opener, target, by rw [settled]; rfl⟩)

omit [DecidableEq N] in
include linking in
theorem joined_of_quiet (first : x ∈ mesh.members) (second : y ∈ mesh.members) (different : x ≠ y) :
    mesh.Joined x y := by
  have toFounder : ∀ {z}, z ∈ mesh.members → z ≠ founder → mesh.Joined z founder := by
    intro z member other
    obtain ⟨link, there, opener, target, taken⟩ := registered_of_quiet linking quiet member other
    exact ⟨link, there, Stage.live_of_taken taken, .inl ⟨opener, target⟩⟩
  by_cases one : x = founder
  · subst one
    exact (toFounder second different.symm).symm
  · by_cases two : y = founder
    · subst two
      exact toFounder first different
    · have firstKnown := registered_of_quiet linking quiet first one
      have secondKnown := registered_of_quiet linking quiet second two
      rcases linking.pairs x y different firstKnown secondKnown with good | told | told
      · exact good.2.2
      · exact absurd told (untold_of_quiet quiet)
      · exact absurd told (untold_of_quiet quiet)

include inv linking in
theorem full_of_quiet : mesh.Full := by
  intro x member
  ext y
  rw [Finset.mem_erase]
  constructor
  · intro known
    -- a link that is not gone has settled, so both its ends are members
    have ends : ∀ link ∈ mesh.links, link.stage = .settled →
        link.opener ∈ mesh.members ∧ link.target ∈ mesh.members ∧ link.opener ≠ link.target := by
      intro link there settled
      have asked := inv.asked link there (by rw [settled]; rfl)
      exact ⟨asked, inv.taken link there (by rw [settled]; rfl), fun loop => inv.straight link there loop asked⟩
    rcases mem_known.mp known with ⟨link, there, rfl, rfl, stays⟩ | ⟨link, there, rfl, rfl, taken⟩
    · have settled : link.stage = .settled := by
        have ended := quiet link there
        cases is : link.stage with
        | settled => rfl
        | gone => exact absurd is stays
        | denied | applied | admitted | asking | told peers => rw [is] at ended; cases ended
      exact ⟨(ends link there settled).2.2.symm, (ends link there settled).2.1⟩
    · have settled := settled_of_live quiet there (Stage.live_of_taken taken)
      exact ⟨(ends link there settled).2.2, (ends link there settled).1⟩
  · rintro ⟨different, second⟩
    exact known_of_joined quiet (joined_of_quiet linking quiet member second different.symm)

end

end Vanity.Cluster
