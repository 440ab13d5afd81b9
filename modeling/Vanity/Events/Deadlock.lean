import Vanity.Events.Locks

/-!
# No deadlock

Any number of threads that go through the code of the server, with signals that come at any time. No thread
waits for ever for a mutex, in whatever order the threads take them, unless a signal finds the thread that it
interrupts with the mutex of the event queue.
-/

namespace Vanity.Locks

open Locking
open Request (OperationT)
open Cluster (PeerCall)
open Events (ServerEvent)

/-! ### The order -/

section
variable {held : List Lock} {lock : Lock} {sender : Request.Client} {client : Nat}

def Below (rank : Nat) (held : List Lock) : Prop := ∀ other ∈ held, other.rank < rank

@[simp]
theorem below_nil {rank : Nat} : Below rank [] := by simp [Below]

@[simp]
theorem below_cons {rank : Nat} : Below rank (lock :: held) ↔ lock.rank < rank ∧ Below rank held :=
  List.forall_mem_cons

@[simp]
theorem guarded_fits (above : Below lock.rank held) : ranking.Fits held (guarded lock) :=
  ⟨by simpa using .inr above, trivial⟩

theorem hold_fits {body : Code Lock} (above : Below lock.rank held)
    (inside : ranking.Fits (lock :: held) body) : ranking.Fits held (.hold [lock] body) :=
  ⟨by simpa using .inr above, inside⟩

@[simp]
theorem log_fits (above : Below 3 held) : ranking.Fits held log := by
  have guarded : ranking.Fits held (guarded .logMutex) := guarded_fits above
  simpa [log] using guarded

@[simp]
theorem pushEvent_fits (above : Below 4 held) : ranking.Fits held pushEvent := guarded_fits above

@[simp]
theorem wal_fits (above : Below 3 held) : ranking.Fits held wal := guarded_fits above

@[simp]
theorem write_fits (above : Below 2 held) : ranking.Fits held (write client) := guarded_fits above

@[simp]
theorem send_fits (above : Below 2 held) : ranking.Fits held (send sender client) := by
  cases sender with
  | tcp => exact write_fits above
  | piped _ => trivial

@[simp]
theorem sendAny_fits (above : Below 2 held) : ranking.Fits held sendAny := fun _ => write_fits above

@[simp]
theorem post_fits (above : Below 2 held) : ranking.Fits held (post client) := by
  have id : ranking.Fits held (guarded .nextIdMutex) := guarded_fits above
  have op : ranking.Fits held (guarded .expectedOpsMutex) := guarded_fits above
  simp [post, newPost, id, op, write_fits above]

/-- Under the mutexes of databases the log is written, and databases that are held are locked again. -/
theorem databases_fit (indices : List Db.Index) {body : Code Lock}
    (inside : ranking.Fits (indices.map .database) body) : ranking.Fits [] (.hold (indices.map .database) body) :=
  ⟨fun _ _ => .inr (by simp), by simpa using inside⟩

@[simp]
theorem database_fits : ranking.Fits [] database := fun index =>
  databases_fit [index] (by simp [Lock.rank])

@[simp]
theorem twoDatabases_fits : ranking.Fits [] twoDatabases := fun pair =>
  databases_fit [pair.1.1, pair.1.2] (by simp [Lock.rank])

@[simp]
theorem deepPurgeDatabases_fits : ranking.Fits [] deepPurgeDatabases := by
  simp only [deepPurgeDatabases, Ranking.fits_seq, List.forall_mem_map]
  exact fun index _ => database_fits index

theorem doPersist_fits : ranking.Fits [] doPersist := by simp [doPersist]

/-- The thread that persists has all databases locked when it locks each of them. -/
theorem doPersist_inside : ranking.Fits (indices.map .database) doPersist := by
  simp only [doPersist, Ranking.fits_seq, List.forall_mem_map]
  intro index there
  refine ⟨fun lock wanted => .inl ?_, trivial⟩
  obtain rfl := List.mem_singleton.mp wanted
  exact ⟨rfl, List.mem_map_of_mem there⟩

theorem closed_fits {body : Code Lock} (inside : ranking.Fits [] body) : ranking.Fits [] (closed body) := by
  simp [closed, closeWal, walTo, inside]

@[simp]
theorem persist_fits : ranking.Fits [] persist := by
  have withWal : ranking.Fits [] persistWithWal := closed_fits (databases_fit _ doPersist_inside)
  simp [persist, persistNoCheck, persistWithoutWal, withWal, doPersist_fits]

@[simp]
theorem recover_fits : ranking.Fits [] recover := by
  have enabled : ranking.Fits [] enableDatabasesExpiry := doPersist_fits
  simp [recover, enabled, closed_fits]

theorem clearAuthApplications_fits : ranking.Fits [.clusterKeyMutex] clearAuthApplications :=
  hold_fits (by simp [Lock.rank]) (by simp [Lock.rank])

@[simp]
theorem setClusterInfo_fits : ranking.Fits [] setClusterInfo := hold_fits (by simp) clearAuthApplications_fits

@[simp]
theorem leaveCluster_fits : ranking.Fits [] leaveCluster := hold_fits (by simp) clearAuthApplications_fits

@[simp]
theorem clearPeers_fits : ranking.Fits [] clearPeers := hold_fits (by simp) (by simp [Lock.rank])

@[simp]
theorem peerConnect_fits : ranking.Fits [] peerConnect := by simp [peerConnect, registerPeer, addAuthApplication]

@[simp]
theorem postAskEvictAll_fits : ranking.Fits [] postAskEvictAll := by
  have asked : ranking.Fits [] (.hold [.askEvictRequestsMutex] (.again (.any post))) :=
    hold_fits (by simp) (by simp [Lock.rank])
  simp [postAskEvictAll, getPeers, asked]

@[simp]
theorem beginEvictProcess_fits : ranking.Fits [] beginEvictProcess := by
  simp [beginEvictProcess, similarIssueExists, insertEvictionIssue]

@[simp]
theorem reportPeer_fits : ranking.Fits [] reportPeer := by simp [reportPeer]

@[simp]
theorem handler_fits (call : PeerCall) : ranking.Fits [] (handler client call) := by
  cases call <;>
    simp [handler, getPeers, getEvictionIssue, selfOpinionOn, insertEvictionIssue, popAuthApplication, forgetPeer,
      getClusterInfo, popAskEvict, tryResolveIssue, doEvictPeer]

@[simp]
theorem handlePeer_fits : ranking.Fits [] (handlePeer client) := by
  simp [handlePeer, handleAsyncRequest, handlePostRequest, handleReplyRequest]

theorem changeLogins_fits : ranking.Fits [] (changeLogins sender client) :=
  hold_fits (by simp) (by simp [persistLogins, Lock.rank])

theorem requestAuth_fits : ranking.Fits [] (requestAuth sender client) := hold_fits (by simp) (by simp [Lock.rank])

theorem request_fits {requestPipe : Code Lock} (piped : ranking.Fits [] requestPipe) (op : OperationT) :
    ranking.Fits [] (request requestPipe sender client op) := by
  cases op <;>
    simp [request, piped, changeLogins_fits, requestAuth_fits, changeSubscriptions, requestPublish, requestPeerAuth,
      getClusterInfo, getPeers, registerPeer]

theorem doHandleSingle_fits (depth : Nat) (sender : Request.Client) :
    ranking.Fits [] (doHandleSingle depth sender client) := by
  induction depth generalizing sender with
  | zero => trivial
  | succ depth ih =>
    have piped : ranking.Fits [] (.seq [.again (doHandleSingle depth (.piped sender) client), send sender client]) := by
      simp [ih]
    simp [doHandleSingle, request_fits piped]

@[simp]
theorem handle_fits : ranking.Fits [] (handle client) := by
  have user : ranking.Fits [] (handleUser client) := fun depth => doHandleSingle_fits depth .tcp
  simp [handle, user]

@[simp]
theorem eventPublish_fits : ranking.Fits [] eventPublish := by
  have sent : ranking.Fits [] (.hold [.subscriptionsMutex] (.again sendAny)) := hold_fits (by simp) (by simp [Lock.rank])
  simp [eventPublish, sent]

@[simp]
theorem event_fits (kind : ServerEvent) : ranking.Fits [] (event kind) := by
  cases kind <;>
    simp [event, epollReady, clientReady, removeClient, forgetPeer, eventPulse, getClusterInfo, sendPulses, checkPulses,
      getPeers]

end

theorem job_fits (job : Job) : ranking.Fits [] job.code := by
  cases job <;> simp [Job.code, walTo]

/-! ### Runs -/

variable {T : Type} [DecidableEq T]

/-- A thread with nothing to do comes to a job, or a signal to a thread that is anywhere but in a scope of the mutex
of the event queue, which `signal::handle` takes. Or a thread locks or unlocks. -/
inductive Reachable : (T → Thread Lock) → Prop where
  | begin : Reachable fun _ => {}
  | job {s : T → Thread Lock} {t : T} {acts : List (Act Lock)} {ending : Ending} (reached : Reachable s)
      (idle : (s t).todo = []) (job : Job) (runs : job.code.Runs acts ending) : Reachable (enter s t acts)
  | signal {s : T → Thread Lock} {t : T} {acts : List (Act Lock)} {ending : Ending} (reached : Reachable s)
      (outside : .eventQueue ∉ (s t).held) (runs : pushEvent.Runs acts ending) : Reachable (enter s t acts)
  | goes {s s' : T → Thread Lock} {t : T} (reached : Reachable s) (goes : Goes ranking t s s') : Reachable s'

theorem signal_fits {held : List Lock} (outside : .eventQueue ∉ held) : ranking.Fits held pushEvent := by
  refine pushEvent_fits fun other there => ?_
  cases other with
  | eventQueue => exact absurd there outside
  | _ => simp [Lock.rank]

theorem reachable_inv {s : T → Thread Lock} (reached : Reachable s) : Inv ranking s := by
  induction reached with
  | begin => exact inv_idle
  | @job s t acts ending reached idle job runs inv =>
    have none_ : (s t).held = [] := by
      have leads := inv.leads t
      rwa [idle] at leads
    have leads := (job_fits job).leads runs
    exact inv.enter (by rwa [none_])
  | signal reached outside runs inv => exact inv.enter ((signal_fits outside).leads runs)
  | goes reached goes inv => exact inv.goes goes

/-- A thread with something to do goes, or it waits, over others that wait, for one that goes. And when nothing new
comes, the threads do what they have to do in any order, until all of them are done. -/
theorem no_deadlock [Fintype T] {s : T → Thread Lock} (reached : Reachable s) :
    (∀ t, (s t).todo ≠ [] → ∃ u, Relation.ReflTransGen (Awaits s) t u ∧ CanGo ranking s u) ∧
      ∀ n s', Acts ranking n s s' →
        n + work s' = work s ∧ ((∀ t, (s' t).todo = []) ∨ ∃ t, CanGo ranking s' t) :=
  ⟨fun _ busy => (reachable_inv reached).progress busy, fun _ _ acts => (reachable_inv reached).finishes acts⟩

def both (one other : Thread Lock) : Bool → Thread Lock := fun first => if first then one else other

section
variable {one other thread : Thread Lock} {held : List Lock} {lock : Lock} {acts : List (Act Lock)}

theorem update_one : Function.update (both one other) true thread = both thread other := by
  funext first
  cases first <;> simp [both]

theorem update_other : Function.update (both one other) false thread = both one thread := by
  funext first
  cases first <;> simp [both]

theorem one_takes (reached : Reachable (both ⟨held, .take [lock] :: acts⟩ other)) (free : lock ∉ other.held)
    (mine : lock ∉ held) : Reachable (both ⟨lock :: held, acts⟩ other) := by
  have goes := Reachable.goes reached
    (.take (t := true) rfl (by simpa [Free, both] using free) (by simpa using .inr mine))
  rwa [update_one] at goes

theorem one_gives (reached : Reachable (both ⟨lock :: held, .give [lock] :: acts⟩ other)) :
    Reachable (both ⟨held, acts⟩ other) := by
  have gives : Goes ranking true (both ⟨lock :: held, .give [lock] :: acts⟩ other) _ :=
    .give (rfl : _ = Thread.mk ([lock] ++ held) _)
  rw [update_one] at gives
  exact .goes reached gives

theorem other_takes (reached : Reachable (both one ⟨held, .take [lock] :: acts⟩)) (free : lock ∉ one.held)
    (mine : lock ∉ held) : Reachable (both one ⟨lock :: held, acts⟩) := by
  have goes := Reachable.goes reached
    (.take (t := false) rfl (by simpa [Free, both] using free) (by simpa using .inr mine))
  rwa [update_other] at goes

theorem other_gives (reached : Reachable (both one ⟨lock :: held, .give [lock] :: acts⟩)) :
    Reachable (both one ⟨held, acts⟩) := by
  have gives : Goes ranking false (both one ⟨lock :: held, .give [lock] :: acts⟩) _ :=
    .give (rfl : _ = Thread.mk ([lock] ++ held) _)
  rw [update_other] at gives
  exact .goes reached gives

end

/-- A batch with one message, for a client with connection 3. -/
def delivery : List (Act Lock) :=
  [.take [.subscriptionsMutex], .take [.writer 3], .give [.writer 3], .give [.subscriptionsMutex]]

theorem publish_runs :
    (Job.event .publish).code.Runs (.take [.publishQueueMutex] :: .give [.publishQueueMutex] :: delivery) .done := by
  have written : (write 3).Runs [.take [.writer 3], .give [.writer 3]] .done := .hold .rest
  have once : sendAny.Runs [.take [.writer 3], .give [.writer 3]] .done := .any 3 written
  have sent : (Code.again sendAny).Runs [.take [.writer 3], .give [.writer 3]] .done := .again once .stop
  have scope : (Code.hold [.subscriptionsMutex] (.again sendAny)).Runs delivery .done := .hold sent
  have batch : (Code.maybe (.hold [.subscriptionsMutex] (.again sendAny))).Runs delivery .done := .any true scope
  exact .andThen (.hold .rest) (.andThen batch .rest)

/-- Two threads deliver; the second one waits for the subscriptions. -/
def twoDeliver : Bool → Thread Lock :=
  both ⟨[.writer 3, .subscriptionsMutex], [.give [.writer 3], .give [.subscriptionsMutex]]⟩ ⟨[], delivery⟩

theorem idle_reachable : Reachable (both {} {}) := by
  have same : both {} {} = fun _ => {} := by
    funext first
    cases first <;> rfl
  exact same ▸ .begin

theorem twoDeliver_reachable : Reachable twoDeliver := by
  have one := Reachable.job (t := true) idle_reachable rfl (.event .publish) publish_runs
  rw [enter, update_one] at one
  have two := Reachable.job (t := false) one rfl (.event .publish) publish_runs
  rw [enter, update_other] at two
  have swapped := one_gives (one_takes two (by decide) (by decide))
  have delivering := one_takes (one_takes swapped (by decide) (by decide)) (by decide) (by decide)
  exact other_gives (other_takes delivering (by decide) (by decide))

theorem twoDeliver_finish :
    (∀ t, (twoDeliver t).todo ≠ [] →
      ∃ u, Relation.ReflTransGen (Awaits twoDeliver) t u ∧ CanGo ranking twoDeliver u) ∧
      ∀ n s', Acts ranking n twoDeliver s' →
        n + work s' = 6 ∧ ((∀ t, (s' t).todo = []) ∨ ∃ t, CanGo ranking s' t) :=
  no_deadlock twoDeliver_reachable

/-! ### A signal at the wrong moment -/

/-- What the signal handler does to the mutex of the event queue. -/
def signalled : List (Act Lock) := [.take [.eventQueue], .give [.eventQueue]]

theorem signalled_runs : pushEvent.Runs signalled .done := .hold .rest

/-- A signal leaves the thread that it interrupts waiting for itself if and only if the thread is in a scope of the
mutex of the event queue. -/
theorem signal_waits_iff {s : T → Thread Lock} (reached : Reachable s) (t : T) :
    (∀ u, Relation.ReflTransGen (Awaits (enter s t signalled)) t u → ¬CanGo ranking (enter s t signalled) u) ↔
      .eventQueue ∈ (s t).held := by
  constructor
  · intro stuck
    by_contra outside
    have inv := reachable_inv (.signal reached outside signalled_runs)
    obtain ⟨u, path, goes⟩ := inv.progress (t := t) (by simp [enter, signalled])
    exact stuck u path goes
  · intro inside u path
    have alone : ∀ u, ¬Awaits (enter s t signalled) t u := by
      rintro u ⟨locks, acts, todo, lock, wanted, other, holds⟩
      simp only [enter, Function.update_self, Function.update_of_ne other, signalled, List.cons_append, List.cons.injEq,
        Act.take.injEq] at todo holds
      obtain ⟨rfl, -⟩ := todo
      obtain rfl := List.mem_singleton.mp wanted
      exact other ((reachable_inv reached).exclusive holds inside)
    obtain rfl : t = u := by
      rcases Relation.ReflTransGen.cases_head path with same | ⟨v, awaits, -⟩
      · exact same
      · exact absurd awaits (alone v)
    rintro ⟨s', goes⟩
    cases goes with
    | take at_ free allowed =>
      simp only [enter, Function.update_self, signalled, List.cons_append, Thread.mk.injEq, List.cons.injEq,
        Act.take.injEq] at at_
      obtain ⟨rfl, rfl, -⟩ := at_
      rcases allowed _ (List.mem_singleton_self _) with reentrant | free
      · cases reentrant
      · exact free inside
    | give at_ => simp [enter, signalled] at at_

/-- A thread that takes an event, with the mutex of the queue. -/
def getting : Bool → Thread Lock := both ⟨[.eventQueue], [.give [.eventQueue]]⟩ {}

theorem getting_reachable : Reachable getting := by
  have came := Reachable.job (t := true) idle_reachable rfl .get signalled_runs
  rw [enter, update_one] at came
  exact one_takes came (by decide) (by decide)

theorem getting_waits : Reachable getting ∧
    ∀ u, Relation.ReflTransGen (Awaits (enter getting true signalled)) true u →
      ¬CanGo ranking (enter getting true signalled) u :=
  ⟨getting_reachable, (signal_waits_iff getting_reachable true).mpr (List.mem_singleton_self _)⟩

end Vanity.Locks
