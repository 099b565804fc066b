import Imq.Verified.Eviction
import Imq.Verified.HealthPass
import Imq.Verified.Membership

/-! # The failure records of nodes that are gone

The map of potentially failing nodes is kept by the health checker, the table
also by the `GetNodesInCluster` handler and by `Bootstrap`.

* `Process.RecordsListed` — every node with a record is listed;
* `always_noStaleRecord_iff` — a run keeps this exactly if none of its
  `Bootstrap` steps overwrites a node with a record.
-/

namespace Imq

open Lib Cluster IMQNode

/-- What happens to a node, its health checks included. -/
inductive LifeEvent where
  | node (e : NodeEvent)
  | health (e : HealthEvent)

namespace Process

def lifeStep (p : Process) : LifeEvent → Process
  | .node e => p.step e
  | .health e => p.healthStep e

@[simp] theorem lifeStep_node (p : Process) (e : NodeEvent) : p.lifeStep (.node e) = p.step e := rfl

@[simp] theorem lifeStep_health (p : Process) (e : HealthEvent) :
    p.lifeStep (.health e) = p.healthStep e := rfl

/-- A `Bootstrap` asks another node, and only listed nodes are checked. -/
def CanOccur (self : HostAndPort) (p : Process) : LifeEvent → Prop
  | .node e => AsksOther self e
  | .health e => e.Possible p

/-- Every node with a record in the map of potentially failing nodes is listed. -/
def RecordsListed (p : Process) : Prop :=
  ∀ n, p.potentiallyFailing n ≠ none → n ∈ p.cluster.getNodesInCluster

/-- A `Bootstrap` stops before its call, or each node with a record sits in a
    slot that is not written or is itself written. -/
def KeepsRecorded (p : Process) : LifeEvent → Prop
  | .node (.bootstrap requester leader table) =>
    p.cluster.NoRoomFor leader ∨
      ∀ n, p.potentiallyFailing n ≠ none →
        (∃ i, (table.register requester).written i = some n) ∨
        ∃ i, (table.register requester).written i = none ∧ p.cluster.node i = n
  | _ => True

/-! ## One step -/

theorem recordsListed_setRetries {p : Process} (h : p.RecordsListed) {n : HostAndPort}
    (listed : n ∈ p.cluster.getNodesInCluster) (retries : Option Int32) :
    (p.setRetries n retries).RecordsListed := by
  intro m hm
  show m ∈ p.cluster.getNodesInCluster
  by_cases hmn : m = n
  · exact hmn ▸ listed
  · have hrecord : (p.setRetries n retries).potentiallyFailing m = p.potentiallyFailing m :=
      Function.update_of_ne hmn ..
    exact h m (hrecord ▸ hm)

theorem recordsListed_evict {p : Process} (h : p.RecordsListed) (n : HostAndPort) :
    (p.evict n).RecordsListed := by
  intro m hm
  have hmn : m ≠ n := by
    rintro rfl
    exact hm (Function.update_self ..)
  have hrecord : (p.evict n).potentiallyFailing m = p.potentiallyFailing m :=
    Function.update_of_ne hmn ..
  exact mem_getNodesInCluster_removeNode hmn (h m (hrecord ▸ hm))

theorem recordsListed_timedOut {p : Process} (h : p.RecordsListed) {n : HostAndPort}
    (listed : n ∈ p.cluster.getNodesInCluster) : (p.timedOut n).RecordsListed := by
  cases hr : p.potentiallyFailing n with
  | none =>
    rw [timedOut_of_none hr]
    exact recordsListed_setRetries h listed _
  | some r =>
    rw [timedOut_of_some hr]
    split
    · exact recordsListed_evict h n
    · exact recordsListed_setRetries h listed _

theorem recordsListed_healthStep {p : Process} (h : p.RecordsListed) {e : HealthEvent}
    (possible : e.Possible p) : (p.healthStep e).RecordsListed := by
  cases e with
  | answered n response =>
    rw [healthStep_answered possible.2]
    exact recordsListed_setRetries h possible.1 none
  | timedOut n response =>
    rw [healthStep_timedOut possible.2]
    exact recordsListed_timedOut h possible.1
  | register n => exact fun m hm => mem_getNodesInCluster_register (h m hm) n

theorem rpcStore_healthStep {p : Process} {e : HealthEvent} (possible : e.Possible p) :
    (p.healthStep e).rpcStore = p.rpcStore := by
  cases e with
  | answered n response =>
    rw [healthStep_answered possible.2]
    rfl
  | timedOut n response =>
    rw [healthStep_timedOut possible.2]
    exact rpcStore_settle p n .timedOut
  | register n => rfl

/-- Whoever answers, `Bootstrap` leaves the map alone. -/
theorem potentiallyFailing_step_bootstrap {self leader : HostAndPort} {p : Process}
    (hstore : p.rpcStore.ServersOnlyAt self) (hne : leader ≠ self) (requester : HostAndPort)
    (table : Cluster) :
    (p.step (.bootstrap requester leader table)).potentiallyFailing = p.potentiallyFailing := by
  show (Cpp.stateOf ((Cluster.bootstrap requester leader
    (answeredBy table)).run p)).potentiallyFailing = _
  rw [stateOf_bootstrap hstore hne]

theorem serversOnlyAt_lifeStep {self : HostAndPort} {p : Process} {e : LifeEvent}
    (h : p.rpcStore.ServersOnlyAt self) (occurs : CanOccur self p e) :
    (p.lifeStep e).rpcStore.ServersOnlyAt self := by
  cases e with
  | node e => exact serversOnlyAt_step h e
  | health e =>
    rw [lifeStep_health, rpcStore_healthStep occurs]
    exact h

/-- Of all steps, only a `Bootstrap` can leave a record behind. -/
theorem recordsListed_lifeStep_iff {self : HostAndPort} {p : Process} {e : LifeEvent}
    (hstore : p.rpcStore.ServersOnlyAt self) (occurs : CanOccur self p e) (h : p.RecordsListed) :
    (p.lifeStep e).RecordsListed ↔ p.KeepsRecorded e := by
  cases e with
  | health e => exact ⟨fun _ => trivial, fun _ => recordsListed_healthStep h occurs⟩
  | node e =>
    cases e with
    | request args =>
      refine ⟨fun _ => trivial, fun _ => ?_⟩
      rw [lifeStep_node, step_request]
      exact fun m hm => mem_getNodesInCluster_afterRequest (h m hm) args
    | evict n =>
      refine ⟨fun _ => trivial, fun _ => ?_⟩
      rw [lifeStep_node, step_evict]
      exact recordsListed_evict h n
    | bootstrap requester leader table =>
      show (∀ n, (p.step (.bootstrap requester leader table)).potentiallyFailing n ≠ none →
          n ∈ (p.step (.bootstrap requester leader table)).cluster.getNodesInCluster) ↔ _
      rw [potentiallyFailing_step_bootstrap hstore occurs, step_bootstrap hstore occurs]
      exact forall_mem_joined_iff h requester leader table

theorem potentiallyFailing_timedOut_of_ne (p : Process) {n m : HostAndPort} (hne : m ≠ n) :
    (p.timedOut n).potentiallyFailing m = p.potentiallyFailing m := by
  cases hr : p.potentiallyFailing n with
  | none =>
    rw [timedOut_of_none hr]
    exact Function.update_of_ne hne ..
  | some r =>
    rw [timedOut_of_some hr]
    split
    · exact Function.update_of_ne hne ..
    · exact Function.update_of_ne hne ..

/-- No step gives a record to a node that is not listed. -/
theorem potentiallyFailing_lifeStep {self : HostAndPort} {p : Process} {e : LifeEvent}
    (hstore : p.rpcStore.ServersOnlyAt self) (occurs : CanOccur self p e) {n : HostAndPort}
    (absent : n ∉ p.cluster.getNodesInCluster) (h : p.potentiallyFailing n = none) :
    (p.lifeStep e).potentiallyFailing n = none := by
  have herase : ∀ m, Function.update p.potentiallyFailing m none n = none := by
    intro m
    by_cases hm : n = m
    · rw [hm, Function.update_self]
    · rw [Function.update_of_ne hm, h]
  cases e with
  | health e =>
    cases e with
    | answered m response =>
      rw [lifeStep_health, healthStep_answered occurs.2]
      exact herase m
    | timedOut m response =>
      -- The node that is checked is listed, so it is another one.
      have hne : n ≠ m := fun he => absent (he ▸ occurs.1)
      rw [lifeStep_health, healthStep_timedOut occurs.2, potentiallyFailing_timedOut_of_ne p hne, h]
    | register m => exact h
  | node e =>
    cases e with
    | request args =>
      rw [lifeStep_node, step_request]
      exact h
    | evict m =>
      rw [lifeStep_node, step_evict]
      exact herase m
    | bootstrap requester leader table =>
      rw [lifeStep_node, potentiallyFailing_step_bootstrap hstore occurs, h]

/-! ## Whole runs -/

/-- Every node with a record is listed, and a node that enters the table by the
    next event has none. -/
structure NoStaleRecord (me : HostAndPort) (p : Process) : Prop where
  listed : p.RecordsListed
  entering : ∀ e, CanOccur me p e → ∀ n, n ∉ p.cluster.getNodesInCluster →
    n ∈ (p.lifeStep e).cluster.getNodesInCluster → (p.lifeStep e).potentiallyFailing n = none

theorem noStaleRecord_iff {self : HostAndPort} {p : Process}
    (hstore : p.rpcStore.ServersOnlyAt self) : NoStaleRecord self p ↔ p.RecordsListed := by
  refine ⟨fun h => h.listed, fun h => ⟨h, fun e occurs n absent _ => ?_⟩⟩
  have hnone : p.potentiallyFailing n = none := by
    by_contra hsome
    exact absent (h n hsome)
  exact potentiallyFailing_lifeStep hstore occurs absent hnone

/-- A run leaves no record of a node that is gone exactly if none of its
    `Bootstrap` steps overwrites a node with a record. -/
theorem always_noStaleRecord_iff (self metaStore : HostAndPort) (events : List LifeEvent)
    (occur : Guarded (CanOccur self) lifeStep (IMQNode.new self (initial metaStore)) events) :
    Always (NoStaleRecord self) lifeStep (IMQNode.new self (initial metaStore)) events ↔
      Guarded KeepsRecorded lifeStep (IMQNode.new self (initial metaStore)) events := by
  have hinv : ∀ (p : Process) (e : LifeEvent), p.rpcStore.ServersOnlyAt self →
      CanOccur self p e → (p.lifeStep e).rpcStore.ServersOnlyAt self :=
    fun _ _ => serversOnlyAt_lifeStep
  have hexact : ∀ (p : Process) (e : LifeEvent), p.rpcStore.ServersOnlyAt self →
      CanOccur self p e → NoStaleRecord self p →
      (NoStaleRecord self (p.lifeStep e) ↔ p.KeepsRecorded e) := by
    intro p e hstore occurs h
    rw [noStaleRecord_iff (serversOnlyAt_lifeStep hstore occurs)]
    exact recordsListed_lifeStep_iff hstore occurs h.listed
  have hstart := serversOnlyAt_new self metaStore
  have hempty : (IMQNode.new self (initial metaStore)).RecordsListed :=
    fun n hn => absurd rfl hn
  exact always_iff_guarded hinv hexact hstart ((noStaleRecord_iff hstart).mpr hempty) occur

/-- A leader that nobody has joined yet. -/
def freshLeader : Cluster := Cluster.new.addNode ⟨"l", 2⟩

/-- What `Bootstrap` writes when that leader answers the node `r:1`. -/
theorem written_freshLeader :
    (freshLeader.register ⟨"r", 1⟩).written = (freshLeader.register ⟨"r", 1⟩).view :=
  written_of_sendable (by decide)

/-- The response that the callbacks get for a check of the node `a:3`. -/
def responseOfA : Json := .object [("callee_info", calleeInfoJson ⟨"a", 3⟩)]

/-- A node joins another one and then misses an answer of a third one. -/
def joinThenFailure : List LifeEvent :=
  [.node (.bootstrap ⟨"r", 1⟩ ⟨"l", 2⟩ freshLeader),
    .health (.register ⟨"a", 3⟩), .health (.timedOut ⟨"a", 3⟩ responseOfA)]

/-- The same in another order: the third node fails before the join. -/
def failureThenJoin : List LifeEvent :=
  [.health (.register ⟨"a", 3⟩), .health (.timedOut ⟨"a", 3⟩ responseOfA),
    .node (.bootstrap ⟨"r", 1⟩ ⟨"l", 2⟩ freshLeader)]

theorem always_noStaleRecord_joinThenFailure :
    Always (NoStaleRecord ⟨"r", 1⟩) lifeStep (IMQNode.new ⟨"r", 1⟩ (initial ⟨"r", 1⟩))
      joinThenFailure := by
  have hne : (⟨"l", 2⟩ : HostAndPort) ≠ ⟨"r", 1⟩ := by decide
  have htable := step_bootstrap (serversOnlyAt_new ⟨"r", 1⟩ ⟨"r", 1⟩) hne ⟨"r", 1⟩ freshLeader
  have hroom : ¬ (Cluster.new.addNode ⟨"r", 1⟩).NoRoomFor ⟨"l", 2⟩ := by decide
  have hlisted : ⟨"a", 3⟩ ∈ (((IMQNode.new ⟨"r", 1⟩ (initial ⟨"r", 1⟩)).step
      (.bootstrap ⟨"r", 1⟩ ⟨"l", 2⟩ freshLeader)).cluster.register ⟨"a", 3⟩).getNodesInCluster := by
    rw [htable]
    show _ ∈ (((Cluster.new.addNode ⟨"r", 1⟩).joined _ _ _).register _).getNodesInCluster
    rw [joined, if_neg hroom, written_freshLeader]
    decide
  have hhost : (⟨"a", 3⟩ : HostAndPort).host ≠ "" := by decide
  -- No node has a record yet when the reply is written.
  exact (always_noStaleRecord_iff ⟨"r", 1⟩ ⟨"r", 1⟩ joinThenFailure
    ⟨hne, hhost, ⟨hlisted, rfl⟩, trivial⟩).mpr ⟨.inr fun n hn => absurd rfl hn, trivial, trivial, trivial⟩

/-- The node before its late join. -/
def failing : Process :=
  ((IMQNode.new ⟨"r", 1⟩ (initial ⟨"r", 1⟩)).register ⟨"a", 3⟩).timedOut ⟨"a", 3⟩

theorem exec_failureThenJoin :
    exec lifeStep (IMQNode.new ⟨"r", 1⟩ (initial ⟨"r", 1⟩)) failureThenJoin =
      failing.step (.bootstrap ⟨"r", 1⟩ ⟨"l", 2⟩ freshLeader) := by
  have hcallee : Health.calleeOf responseOfA = .ok ⟨"a", 3⟩ := rfl
  rw [failureThenJoin, exec_cons, exec_cons, exec_cons, exec_nil]
  rw [lifeStep_node, lifeStep_health, lifeStep_health, healthStep_timedOut hcallee, failing]
  rfl

theorem potentiallyFailing_failing : failing.potentiallyFailing ⟨"a", 3⟩ = some 0 := by
  decide

theorem cluster_failing : failing.cluster = (Cluster.new.addNode ⟨"r", 1⟩).register ⟨"a", 3⟩ := rfl

/-- The node that has failed once is overwritten by the joining node itself, and
    its record stays. -/
theorem failureThenJoin_leaves_record :
    Guarded (CanOccur ⟨"r", 1⟩) lifeStep (IMQNode.new ⟨"r", 1⟩ (initial ⟨"r", 1⟩)) failureThenJoin ∧
    ¬ Always (NoStaleRecord ⟨"r", 1⟩) lifeStep (IMQNode.new ⟨"r", 1⟩ (initial ⟨"r", 1⟩))
      failureThenJoin := by
  have hne : (⟨"l", 2⟩ : HostAndPort) ≠ ⟨"r", 1⟩ := by decide
  have hhost : (⟨"a", 3⟩ : HostAndPort).host ≠ "" := by decide
  refine ⟨⟨hhost, ⟨by decide, rfl⟩, hne, trivial⟩, fun h => ?_⟩
  have hlast := h.last.listed
  rw [exec_failureThenJoin] at hlast
  have hstore : failing.rpcStore.ServersOnlyAt ⟨"r", 1⟩ := serversOnlyAt_new ⟨"r", 1⟩ ⟨"r", 1⟩
  have hroom : ¬ ((Cluster.new.addNode ⟨"r", 1⟩).register ⟨"a", 3⟩).NoRoomFor ⟨"l", 2⟩ := by decide
  have hlisted := hlast ⟨"a", 3⟩
  rw [potentiallyFailing_step_bootstrap hstore hne, potentiallyFailing_failing,
    step_bootstrap hstore hne, cluster_failing, joined, if_neg hroom, written_freshLeader] at hlisted
  have habsent : ⟨"a", 3⟩ ∉ (((Cluster.new.addNode ⟨"r", 1⟩).register ⟨"a", 3⟩).register
      ⟨"l", 2⟩ |>.overwrite (freshLeader.register ⟨"r", 1⟩).view).getNodesInCluster := by
    decide
  exact habsent (hlisted (Option.some_ne_none 0))

end Process

end Imq
