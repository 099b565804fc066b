import Imq.Lib.Runs
import Imq.Verified.Bootstrap
import Imq.Verified.Callbacks

/-! # The members of a node over whole runs

A run starts with the constructor and goes on with requests to the handler,
`Bootstrap` calls answered by other nodes, and evictions, one after the other.

* `always_noDuplicate_iff` — a run lists no node twice exactly if all its
  `Bootstrap` steps fit the table they find;
* `bootstrap_keeps_members_iff` — which members a `Bootstrap` keeps.
-/

namespace Imq

open Lib Cluster IMQNode

/-- What happens to a node: a request to the `GetNodesInCluster` handler, a
    `Bootstrap` answered by the handler of a leader with the given table, or an
    eviction by the health checker. -/
inductive NodeEvent where
  | request (args : Json)
  | bootstrap (requester leader : HostAndPort) (leaderTable : Cluster)
  | evict (node : HostAndPort)

namespace Process

def step (p : Process) : NodeEvent → Process
  | .request args => Cpp.stateOf ((onCluster (getNodesInCluster args)).run p)
  | .bootstrap requester leader table =>
    Cpp.stateOf ((Cluster.bootstrap requester leader (answeredBy table)).run p)
  | .evict node => Cpp.stateOf ((Health.removeNodeFromCluster node).run p)

/-- The process after the constructor of the node `self` and some events. -/
def Reachable (self : HostAndPort) (p : Process) : Prop :=
  ∃ metaStore events, p = exec step (IMQNode.new self (initial metaStore)) events

/-! ## Steps -/

theorem step_request (p : Process) (args : Json) :
    p.step (.request args) = { p with cluster := afterRequest args p.cluster } := by
  show Cpp.stateOf ((onCluster (getNodesInCluster args)).run p) = _
  rw [cluster_stateOf_onCluster, stateOf_getNodesInCluster]

theorem step_bootstrap {self leader : HostAndPort} {p : Process}
    (hstore : p.rpcStore.ServersOnlyAt self) (hne : leader ≠ self) (requester : HostAndPort)
    (table : Cluster) :
    (p.step (.bootstrap requester leader table)).cluster =
      p.cluster.joined requester leader table := by
  show (Cpp.stateOf ((Cluster.bootstrap requester leader (answeredBy table)).run p)).cluster = _
  rw [stateOf_bootstrap hstore hne]

theorem step_evict (p : Process) (node : HostAndPort) : p.step (.evict node) = p.evict node := by
  show Cpp.stateOf ((Health.removeNodeFromCluster node).run p) = _
  rw [Health.run_removeNodeFromCluster]
  rfl

theorem serversOnlyAt_step {self : HostAndPort} {p : Process}
    (h : p.rpcStore.ServersOnlyAt self) (e : NodeEvent) : (p.step e).rpcStore.ServersOnlyAt self := by
  cases e with
  | request args =>
    rw [step_request]
    exact h
  | evict node =>
    rw [step_evict]
    exact h
  | bootstrap requester leader table =>
    show (Cpp.stateOf ((Cluster.bootstrap requester leader (answeredBy table)).run p)).rpcStore.ServersOnlyAt
      self
    rw [rpcStore_bootstrap]
    split
    · exact h
    · exact RPCStore.serversOnlyAt_getRPCClient h leader

theorem serversOnlyAt_new (self metaStore : HostAndPort) :
    (IMQNode.new self (initial metaStore)).rpcStore.ServersOnlyAt self :=
  RPCStore.serversOnlyAt_getRPCServer (RPCStore.serversOnlyAt_empty self)

theorem serversOnlyAt_of_reachable {self : HostAndPort} {p : Process} (h : p.Reachable self) :
    p.rpcStore.ServersOnlyAt self := by
  obtain ⟨metaStore, events, rfl⟩ := h
  have hkeep : ∀ (q : Process) (e : NodeEvent), q.rpcStore.ServersOnlyAt self →
      (q.step e).rpcStore.ServersOnlyAt self := fun _ e hq => serversOnlyAt_step hq e
  exact exec_invariant hkeep (serversOnlyAt_new self metaStore) events

/-! ## No node is listed twice -/

/-- A `Bootstrap` asks another node. -/
def AsksOther (self : HostAndPort) : NodeEvent → Prop
  | .bootstrap _ leader _ => leader ≠ self
  | _ => True

/-- What a `Bootstrap` writes fits the table it finds: it stops before its call,
    or no node is written into two slots and none is written that the table, with
    the leader registered, lists in a slot that is not written. -/
def Fits (p : Process) : NodeEvent → Prop
  | .bootstrap requester leader table =>
    p.cluster.NoRoomFor leader ∨
      ((listing (table.register requester).written).Unique ∧
        (listing (table.register requester).written).Covers (p.cluster.register leader).view)
  | _ => True

theorem noDuplicate_step_iff {self : HostAndPort} {p : Process} {e : NodeEvent}
    (hstore : p.rpcStore.ServersOnlyAt self) (he : AsksOther self e) (h : p.cluster.NoDuplicate) :
    (p.step e).cluster.NoDuplicate ↔ p.Fits e := by
  cases e with
  | request args =>
    refine ⟨fun _ => trivial, fun _ => ?_⟩
    rw [step_request]
    exact noDuplicate_afterRequest h args
  | evict node =>
    refine ⟨fun _ => trivial, fun _ => ?_⟩
    rw [step_evict]
    exact noDuplicate_removeNode h node
  | bootstrap requester leader table =>
    rw [step_bootstrap hstore he]
    by_cases hroom : p.cluster.NoRoomFor leader
    · rw [joined, if_pos hroom]
      exact ⟨fun _ => .inl hroom, fun _ => h⟩
    · -- The reply is an overlay on the table that lists the leader.
      have hiff := Slots.unique_patch_iff (noDuplicate_register h leader)
        (listing (table.register requester).written)
      rw [← view_overwrite] at hiff
      rw [joined, if_neg hroom]
      exact hiff.trans ⟨.inr, fun hfits => hfits.resolve_left hroom⟩

/-- A run lists no node twice exactly if each of its `Bootstrap` steps fits. -/
theorem always_noDuplicate_iff (self metaStore : HostAndPort) (events : List NodeEvent)
    (asks : ∀ e ∈ events, AsksOther self e) :
    Always (fun p => p.cluster.NoDuplicate) step (IMQNode.new self (initial metaStore)) events ↔
      Guarded Fits step (IMQNode.new self (initial metaStore)) events := by
  have hstart : (IMQNode.new self (initial metaStore)).cluster.NoDuplicate :=
    noDuplicate_addNode_new self
  have hinv : ∀ (p : Process) (e : NodeEvent), p.rpcStore.ServersOnlyAt self → AsksOther self e →
      (p.step e).rpcStore.ServersOnlyAt self := fun _ e hp _ => serversOnlyAt_step hp e
  have hexact : ∀ (p : Process) (e : NodeEvent), p.rpcStore.ServersOnlyAt self →
      AsksOther self e → p.cluster.NoDuplicate → ((p.step e).cluster.NoDuplicate ↔ p.Fits e) :=
    fun _ _ => noDuplicate_step_iff
  exact always_iff_guarded hinv hexact (serversOnlyAt_new self metaStore) hstart
    (guarded_of_forall fun _ => asks)

theorem always_noDuplicate_first_join :
    Always (fun p => p.cluster.NoDuplicate) step (IMQNode.new ⟨"r", 1⟩ (initial ⟨"r", 1⟩))
      [.bootstrap ⟨"r", 1⟩ ⟨"l", 2⟩ (Cluster.new.setNode 0 ⟨"l", 2⟩)] := by
  refine (always_noDuplicate_iff ⟨"r", 1⟩ ⟨"r", 1⟩ _ fun e he => ?_).mpr ⟨.inr ?_, trivial⟩
  · obtain rfl := List.mem_singleton.mp he
    show (⟨"l", 2⟩ : HostAndPort) ≠ ⟨"r", 1⟩
    decide
  · -- Slot 0 of both tables is taken, so the reply writes all that the joiner has.
    have hsend : ((Cluster.new.setNode 0 ⟨"l", 2⟩).register ⟨"r", 1⟩).Sendable := by decide
    have habsent : ¬ Cluster.new.view.Holds ⟨"l", 2⟩ := by
      rw [view_new]
      exact Slots.not_holds_empty _
    have hunique : ((Cluster.new.setNode 0 ⟨"l", 2⟩).register ⟨"r", 1⟩).NoDuplicate :=
      noDuplicate_register (noDuplicate_setNode noDuplicate_new 0 habsent (by decide)) _
    rw [written_of_sendable hsend, listing_view]
    exact ⟨Slots.unique_toPatch hunique, Slots.covers_toPatch (by decide)⟩

/-- A node that registers another one before it joins a new leader itself. -/
def joinAfterRegistration : List NodeEvent :=
  [.request (registerArgs ⟨"a", 3⟩),
    .bootstrap ⟨"r", 1⟩ ⟨"l", 2⟩ (Cluster.new.setNode 0 ⟨"l", 2⟩)]

theorem cluster_joinAfterRegistration :
    (exec step (IMQNode.new ⟨"r", 1⟩ (initial ⟨"r", 1⟩)) joinAfterRegistration).cluster =
      (((Cluster.new.addNode ⟨"r", 1⟩).register ⟨"a", 3⟩).register ⟨"l", 2⟩).overwrite
        ((Cluster.new.setNode 0 ⟨"l", 2⟩).register ⟨"r", 1⟩).view := by
  have hsend : ((Cluster.new.setNode 0 ⟨"l", 2⟩).register ⟨"r", 1⟩).Sendable := by decide
  have hroom : ¬ ((Cluster.new.addNode ⟨"r", 1⟩).register ⟨"a", 3⟩).NoRoomFor ⟨"l", 2⟩ := by decide
  have hstore := serversOnlyAt_step (serversOnlyAt_new ⟨"r", 1⟩ ⟨"r", 1⟩)
    (.request (registerArgs ⟨"a", 3⟩))
  have hne : (⟨"l", 2⟩ : HostAndPort) ≠ ⟨"r", 1⟩ := by decide
  rw [joinAfterRegistration, exec_cons, exec_cons, exec_nil, step_bootstrap hstore hne,
    step_request, afterRequest_registerArgs]
  show ((Cluster.new.addNode ⟨"r", 1⟩).register ⟨"a", 3⟩).joined _ _ _ = _
  rw [joined, if_neg hroom, written_of_sendable hsend]

/-- The leader ends up in slot 0, where its own table has it, and stays in slot
    2, where the joining node had put it. -/
theorem join_lists_leader_twice :
    (∀ e ∈ joinAfterRegistration, AsksOther ⟨"r", 1⟩ e) ∧
    (Cluster.new.setNode 0 ⟨"l", 2⟩).NoDuplicate ∧
    ¬ Always (fun p => p.cluster.NoDuplicate) step (IMQNode.new ⟨"r", 1⟩ (initial ⟨"r", 1⟩))
      joinAfterRegistration := by
  have habsent : ¬ Cluster.new.view.Holds ⟨"l", 2⟩ := by
    rw [view_new]
    exact Slots.not_holds_empty _
  refine ⟨fun e he => ?_, noDuplicate_setNode noDuplicate_new 0 habsent (by decide), fun h => ?_⟩
  · obtain rfl | he := List.mem_cons.mp he
    · trivial
    · obtain rfl := List.mem_singleton.mp he
      show (⟨"l", 2⟩ : HostAndPort) ≠ ⟨"r", 1⟩
      decide
  · have hlast : (exec step _ joinAfterRegistration).cluster.NoDuplicate := h.last
    rw [cluster_joinAfterRegistration] at hlast
    have hslots := hlast 0 2 ⟨"l", 2⟩ (by decide) (by decide)
    exact absurd hslots (by decide)

/-! ## Members that survive a `Bootstrap` -/

/-- Listed nodes all survive a `Bootstrap` that stops before its call, or if each
    of them sits in a slot that is not written, or is itself written. -/
theorem forall_mem_joined_iff {c : Cluster} {P : HostAndPort → Prop}
    (listed : ∀ m, P m → m ∈ c.getNodesInCluster) (requester leader : HostAndPort)
    (table : Cluster) :
    (∀ m, P m → m ∈ (c.joined requester leader table).getNodesInCluster) ↔
      c.NoRoomFor leader ∨ ∀ m, P m →
        (∃ i, (table.register requester).written i = some m) ∨
        ∃ i, (table.register requester).written i = none ∧ c.node i = m := by
  by_cases hroom : c.NoRoomFor leader
  · rw [joined, if_pos hroom]
    exact ⟨fun _ => .inl hroom, fun _ => listed⟩
  · rw [joined, if_neg hroom, or_iff_right hroom]
    refine forall₂_congr fun m hm => ?_
    have hold := mem_getNodesInCluster.mp (listed m hm)
    have hhost := host_of_holds hold
    rw [mem_getNodesInCluster, view_overwrite, Slots.holds_patch_iff]
    refine or_congr (exists_congr fun i => listing_eq_some_some_iff hhost)
      (exists_congr fun i => and_congr listing_eq_none_iff ?_)
    rw [view_register_apply_iff (.inr hold), view_eq_some_iff hhost]

/-- Every node that a reachable node lists is still listed after a `Bootstrap`
    exactly if it stops before its call, or each of them sits in a slot that is
    not written or is itself written. -/
theorem bootstrap_keeps_members_iff {self leader : HostAndPort} {p : Process}
    (reachable : p.Reachable self) (hne : leader ≠ self) (requester : HostAndPort)
    (table : Cluster) :
    (∀ m ∈ p.cluster.getNodesInCluster,
        m ∈ (p.step (.bootstrap requester leader table)).cluster.getNodesInCluster) ↔
      p.cluster.NoRoomFor leader ∨
        ∀ m ∈ p.cluster.getNodesInCluster,
          (∃ i, (table.register requester).written i = some m) ∨
          ∃ i, (table.register requester).written i = none ∧ p.cluster.node i = m := by
  rw [step_bootstrap (serversOnlyAt_of_reachable reachable) hne]
  exact forall_mem_joined_iff (fun _ listed => listed) requester leader table

theorem first_join_keeps_members :
    (IMQNode.new ⟨"r", 1⟩ (initial ⟨"r", 1⟩)).cluster.getNodesInCluster ⊆
      ((IMQNode.new ⟨"r", 1⟩ (initial ⟨"r", 1⟩)).step (.bootstrap ⟨"r", 1⟩ ⟨"l", 2⟩
        (Cluster.new.setNode 0 ⟨"l", 2⟩))).cluster.getNodesInCluster := by
  have hsend : ((Cluster.new.setNode 0 ⟨"l", 2⟩).register ⟨"r", 1⟩).Sendable := by decide
  have hreach : (IMQNode.new ⟨"r", 1⟩ (initial ⟨"r", 1⟩)).Reachable ⟨"r", 1⟩ := ⟨⟨"r", 1⟩, [], rfl⟩
  refine (bootstrap_keeps_members_iff hreach (by decide) _ _).mpr (.inr fun m hm => ?_)
  have hlist : (IMQNode.new ⟨"r", 1⟩ (initial ⟨"r", 1⟩)).cluster.getNodesInCluster = [⟨"r", 1⟩] := by
    decide
  rw [hlist] at hm
  obtain rfl := List.mem_singleton.mp hm
  rw [written_of_sendable hsend]
  exact .inl ⟨1, by decide⟩

/-- The node that registered with the joining node is overwritten by the
    joining node itself. -/
theorem bootstrap_loses_member :
    ∃ p q : Process, p.Reachable ⟨"r", 1⟩ ∧ q.Reachable ⟨"l", 2⟩ ∧
      (q.cluster.node 1).host = "" ∧
      ⟨"a", 3⟩ ∈ p.cluster.getNodesInCluster ∧
      ⟨"a", 3⟩ ∉ (p.step (.bootstrap ⟨"r", 1⟩ ⟨"l", 2⟩ q.cluster)).cluster.getNodesInCluster := by
  have hleader : (IMQNode.new ⟨"l", 2⟩ (initial ⟨"l", 2⟩)).cluster =
      Cluster.new.setNode 0 ⟨"l", 2⟩ := by
    decide
  refine ⟨exec step (IMQNode.new ⟨"r", 1⟩ (initial ⟨"r", 1⟩)) [.request (registerArgs ⟨"a", 3⟩)],
    IMQNode.new ⟨"l", 2⟩ (initial ⟨"l", 2⟩), ⟨⟨"r", 1⟩, _, rfl⟩, ⟨⟨"l", 2⟩, [], rfl⟩, by decide,
    ?_, ?_⟩
  · rw [exec_cons, exec_nil, step_request, afterRequest_registerArgs]
    decide
  · have hlast := cluster_joinAfterRegistration
    rw [joinAfterRegistration, exec_cons, exec_cons, exec_nil] at hlast
    rw [hleader, exec_cons, exec_nil, hlast]
    decide

end Process

end Imq
