import Vanity.Cluster.Wiring

/-!
# Joining nodes form a mesh

Every run of a network is one of the mesh, so that a network whose steps pass nobody by is a full mesh when
nothing is in flight. Not every run is so.
-/

namespace Vanity.Cluster

open Db (Str)
open Request

variable {founder : Address} {key : Str} {net after : Network}

section
variable (wired : net.Wired founder key)

include wired

theorem clusterNew_founds (inv : (net.mesh founder).Inv founder.text) (random id : Str)
    (outside : (net.node founder).inCluster = false) :
    let after := net.setNode founder ((net.node founder).setClusterInfo random key id)
    after.Wired founder key ∧ (net.mesh founder).step founder.text .create = some (after.mesh founder) := by
  intro after
  have agrees : ∀ y client, Agrees (net.node y) (after.node y) client := by
    intro y client
    have same : Agrees (net.node founder) ((net.node founder).setClusterInfo random key id) client := ⟨Iff.rfl, rfl⟩
    exact agrees_setNode same y
  have wired' : after.Wired founder key := by
    refine ⟨?_, ?_, wired.distinct, ?_⟩
    · intro i connection there
      refine (wired.lines i connection there).frame (agrees _ _) (agrees _ _) ?_
      -- the founder has opened no connection
      have other : connection.opener ≠ founder := by
        intro same
        exact (inv.opened _ (mem_mesh_links.mpr ⟨i, connection, there, rfl⟩)).2 (congrArg Address.text same)
      intro id application _ found
      rw [setNode_other other]
      exact found
    · intro x client member
      rw [(agrees x client).peers] at member
      exact wired.owned x client member
    · refine setNode_forall (P := Network.Sound founder key net.started) ?_ wired.nodes
      refine ⟨fun id member => absurd member Finmap.notMem_empty, ?_, rfl, fun _ => .inl rfl⟩
      rintro own is
      exact (Option.some.inj is).symm
  refine ⟨wired', congrArg some (Mesh.ext ?_ rfl ?_)⟩
  · ext addr
    rw [Finset.mem_insert, mem_members_iff wired, mem_members_iff wired']
    constructor
    · rintro (rfl | ⟨y, inside, rfl⟩)
      · refine ⟨founder, ?_, rfl⟩
        simp [after, Node.setClusterInfo, Node.inCluster]
      · by_cases same : y = founder
        · rw [same, outside] at inside
          cases inside
        · exact ⟨y, by rw [setNode_other same]; exact inside, rfl⟩
    · rintro ⟨y, inside, rfl⟩
      by_cases same : y = founder
      · exact .inl (congrArg Address.text same)
      · rw [setNode_other same] at inside
        exact .inr ⟨y, inside, rfl⟩
  · refine List.ext_getElem? fun j => ?_
    have connections : after.connections = net.connections := rfl
    rw [mesh_getElem?, mesh_getElem?, connections]
    cases net.connections[j]? with
    | none => rfl
    | some connection => exact congrArg some (link_eq (agrees connection.opener _)).symm

theorem requestClusterJoin_applies {x : Address} (other : x ≠ founder) (unstarted : x ∉ net.started) (target : Address)
    (random id : Str) (user : Nat) :
    (net.requestClusterJoin key x target random id user).Wired founder key ∧
      ((net.requestClusterJoin key x target random id user).mesh founder = net.mesh founder ∨
        (net.mesh founder).step founder.text (.join x.text target.text) =
          some ((net.requestClusterJoin key x target random id user).mesh founder)) := by
  unfold Network.requestClusterJoin
  split
  · exact ⟨wired, .inl rfl⟩
  · split
    · exact ⟨wired, .inl rfl⟩
    · have begun : Network.Wired founder key { net with started := insert x net.started } := by
        refine ⟨fun i connection there => ?_, wired.owned, wired.distinct, fun y => ?_⟩
        · exact (wired.lines i connection there).frame (.refl _ _) (.refl _ _) fun _ _ _ found => found
        · have sound := wired.nodes y
          exact ⟨sound.fresh, sound.keys, sound.both, fun inside => (sound.started inside).imp_right Finset.mem_insert_of_mem⟩
      have members : (Network.mesh { net with started := insert x net.started } founder).members = (net.mesh founder).members :=
        members_of_same wired begun fun _ => rfl
      have started : (Network.mesh { net with started := insert x net.started } founder).started =
          insert x.text (net.mesh founder).started := Finset.image_insert ..
      have free : ¬(x.text = founder.text ∨ x.text ∈ (net.mesh founder).started) := by
        rintro (same | member)
        · exact other (Address.text_injective same)
        · obtain ⟨y, here, same⟩ := Finset.mem_image.mp member
          exact unstarted (Address.text_injective same ▸ here)
      refine ⟨peerConnect_wired begun x target rfl, .inr ?_⟩
      rw [peerConnect_mesh begun, Mesh.step, if_neg free]
      exact congrArg some (Mesh.ext members.symm started.symm rfl)

/-- A step of the network is one of the mesh, or a request that was refused. -/
theorem step_simulates (inv : (net.mesh founder).Inv founder.text) (action : Action)
    (taken : net.step founder key action = some after) :
    after.Wired founder key ∧ (after.mesh founder = net.mesh founder ∨
      ∃ move, (net.mesh founder).step founder.text move = some (after.mesh founder) ∧
        ∀ i fresh, move = .handle i fresh → net.Passes founder action → (net.mesh founder).Passes founder.text i) := by
  cases action with
  | clusterNew random id =>
    cases taken
    unfold Node.requestClusterNew
    split
    · rw [setNode_same]
      exact ⟨wired, .inl rfl⟩
    · rename_i outside
      split
      · rw [setNode_same]
        exact ⟨wired, .inl rfl⟩
      · split
        · rw [setNode_same]
          exact ⟨wired, .inl rfl⟩
        · obtain ⟨wired', founds⟩ := clusterNew_founds wired inv random id (Bool.eq_false_iff.mpr outside)
          exact ⟨wired', .inr ⟨.create, founds, fun i fresh same => by cases same⟩⟩
  | clusterJoin x target random id user =>
    simp only [Network.step] at taken
    split at taken
    · cases taken
    · rename_i free
      cases taken
      obtain ⟨wired', refused | joins⟩ := requestClusterJoin_applies wired (fun same => free (.inl same))
        (fun begun => free (.inr begun)) target random id user
      · exact ⟨wired', .inl refused⟩
      · exact ⟨wired', .inr ⟨_, joins, fun i fresh same => by cases same⟩⟩
  | handlePost i =>
    obtain ⟨wired', stepped⟩ := handlePost_simulates wired taken
    refine ⟨wired', .inr ⟨_, stepped, ?_⟩⟩
    rintro j fresh ⟨⟩ passes
    exact passes
  | handleReply i random order =>
    obtain ⟨wired', fresh, stepped⟩ := handleReply_simulates wired inv taken
    refine ⟨wired', .inr ⟨_, stepped, ?_⟩⟩
    rintro j fresh ⟨⟩ passes
    exact passes

end

/-! ### Runs -/

/-- If in a run no node passes others by, then whenever nothing is in flight the nodes with a key are peers of
each other. -/
theorem joining_converges (founder : Address) (key : Str) (run : List Action)
    (passes : EachStep (Network.step founder key) (Network.Passes founder) run {}) :
    EachState (Network.step founder key) Network.Converged run {} := by
  have preserved : ∀ (net : Network) (action : Action) (after : Network),
      (net.Wired founder key ∧ (net.mesh founder).Inv founder.text ∧ (net.mesh founder).Linking founder.text) →
      net.Passes founder action → net.step founder key action = some after →
      (after.Wired founder key ∧ (after.mesh founder).Inv founder.text ∧ (after.mesh founder).Linking founder.text) := by
    rintro net action after ⟨wired, inv, linking⟩ passes taken
    obtain ⟨wired', refused | ⟨move, stepped, each⟩⟩ := step_simulates wired inv action taken
    · rw [refused]
      exact ⟨wired', inv, linking⟩
    · exact ⟨wired', inv.step move stepped, linking.step inv move (fun i fresh same => each i fresh same passes) stepped⟩
  refine eachState_of_inv preserved ?_ ⟨empty_wired, empty_inv, Mesh.Linking.empty⟩ passes
  rintro net ⟨wired, inv, linking⟩
  exact converged_of_full wired fun quiet => full_of_quiet inv linking quiet

/-! ### Two runs -/

/-- A table whose keys are listed from the least. -/
def leastFirst : Order Str where
  list keys := Quot.liftOn keys.val (List.insertionSort (· ≤ ·)) fun first second perm =>
    ((List.perm_insertionSort _ first).trans (perm.trans (List.perm_insertionSort _ second).symm)).eq_of_pairwise
      (fun _ _ _ _ => List.le_antisymm) (List.pairwise_insertionSort _ first) (List.pairwise_insertionSort _ second)
  nodup := by
    rintro ⟨⟨keys⟩, nodup⟩
    exact (List.perm_insertionSort _ keys).nodup_iff.mpr nodup
  mem := by
    rintro ⟨⟨keys⟩, nodup⟩ key
    exact (List.perm_insertionSort _ keys).mem_iff

namespace Address

def first : Address := ⟨ascii "127.0.0.1", 9951, by decide⟩
def second : Address := ⟨ascii "127.0.0.1", 9952, by decide⟩
def third : Address := ⟨ascii "127.0.0.1", 9953, by decide⟩
def fourth : Address := ⟨ascii "127.0.0.1", 9954, by decide⟩

end Address

def sharedKey : Str := ascii "the-cluster-key"

def replied (i : Nat) : Action := .handleReply i (ascii "some-random-id") leastFirst

/-- The second node joins the first, the third the second. -/
def twoJoin : List Action :=
  [.clusterNew (ascii "some-random-id") [],
    .clusterJoin .second .first (ascii "some-random-id") [] 0, .handlePost 0, replied 0, .handlePost 0, replied 0,
    .clusterJoin .third .second (ascii "some-random-id") [] 0, .handlePost 1, replied 1, .handlePost 1, replied 1,
    .handlePost 2, replied 2, .handlePost 2, replied 2]

theorem two_join_converges :
    EachState (Network.step .first sharedKey) Network.Converged twoJoin {} ∧
      (runAll (Network.step .first sharedKey) twoJoin {}).any
        (fun net => decide (net.Quiet ∧ Address.third.text ∈ (net.node .first).peerAddresses)) = true :=
  ⟨joining_converges .first sharedKey twoJoin (by decide +kernel), by decide +kernel⟩

/-- The second and the third node join the first, which tells the second of the third. The fourth joins the
second, is told of the third too, and finds it before the third has read that it was taken. The third denies
the fourth. While the fourth has not read so, the first tells it of the third again. -/
def fourJoin : List Action :=
  [.clusterNew (ascii "some-random-id") [],
    .clusterJoin .second .first (ascii "some-random-id") [] 0, .handlePost 0,
    .clusterJoin .third .first (ascii "some-random-id") [] 0, .handlePost 1,
    replied 0, .handlePost 0, replied 0,
    .clusterJoin .fourth .second (ascii "some-random-id") [] 0, .handlePost 3, replied 3, .handlePost 3, replied 3,
    .handlePost 5,
    replied 1, .handlePost 1, .handlePost 2, replied 1, replied 2, .handlePost 2, replied 2,
    .handlePost 4, replied 4, .handlePost 4, replied 4,
    replied 5]

theorem denied_peer_is_lost : ¬EachState (Network.step .first sharedKey) Network.Converged fourJoin {} := by
  intro each
  have lost : (runAll (Network.step .first sharedKey) fourJoin {}).any (fun net =>
      decide (net.Quiet ∧ (net.node .third).inCluster = true ∧ (net.node .fourth).inCluster = true ∧
        Address.third.text ∉ (net.node .fourth).peerAddresses)) = true := by
    decide +kernel
  obtain ⟨net, runs, lost⟩ := (Option.any_eq_true ..).mp lost
  obtain ⟨quiet, third, fourth, unknown⟩ := of_decide_eq_true lost
  have converged := eachState_last each runs
  refine unknown ((converged quiet .fourth fourth Address.third.text).mpr ⟨.third, ?_, third, rfl⟩)
  decide

end Vanity.Cluster
