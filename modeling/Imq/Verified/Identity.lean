import Imq.Lib.Runs
import Imq.NodeRun
import Imq.Verified.HealthPass
import Imq.Verified.Membership

/-! # The own address of a node

A node knows its address twice: the constructor puts the address it is given
into the table and into a server, and everything else reads the `MetaStore`.

* `OneIdentity` — whichever is read, it is the address the node was built for;
* `one_identity_iff` — this is so exactly if the `MetaStore` holds that address.
-/

namespace Imq

open Lib Cluster IMQNode

/-- The loop of a pass goes on past this address without a call, wherever it
    comes upon it. -/
def Health.PassesOver (me address : HostAndPort) : Prop :=
  ∀ (text : JsonText) (outcome : HostAndPort → CallOutcome) (rpcCall : RPCCall Process)
    (rest : List HostAndPort), checkNodes text outcome me rpcCall (address :: rest) =
      checkNodes text outcome me rpcCall rest

/-- Every address that the node takes for its own in this state is `address`. -/
structure OneIdentity (address : HostAndPort) (s : NodeState) : Prop where
  /-- `rpc_server_` is the server of this address. -/
  server : s.rpcServer.kind = .server ∧ s.rpcServer.hostAndPort = address
  /-- A leader that is asked to join is asked to register it. -/
  registers : ∀ leader rpcCall p,
    (bootstrapCall s.process.metaStore leader).run s.process = .ok rpcCall p →
    registration rpcCall.args = some address
  /-- `Run` adds `CheckHealth` to the server of this address. -/
  checkHealth : ∀ server s', Health.run.run s = .ok server s' → server.hostAndPort = address
  /-- The health loop passes over it, and over no other address. -/
  skips : ∀ n, Health.PassesOver s.process.metaStore n ↔ n = address

/-! ## The health loop -/

theorem Health.passesOver_iff {me n : HostAndPort} : PassesOver me n ↔ n = me := by
  constructor
  · intro h
    by_contra hne
    -- In a table that lists `me` alone, the look-up of another node throws.
    let p : Process := { Process.initial me with cluster := ⟨Vector.replicate MAX_NUM_NODES me⟩ }
    have habsent : p.cluster.nodeInCluster n = false := by
      rw [Bool.eq_false_iff, ne_eq, nodeInCluster_eq_true_iff]
      rintro ⟨i, hi⟩
      have hme : p.cluster.node i = me := Vector.getElem_replicate ..
      exact hne (hi.symm.trans hme)
    have hthrow : (checkNodes healthText (fun _ => .neither) me healthCall [n]).run p =
        .error (.logicError "Node not found.") p := by
      rw [checkNodes, if_neg (host_port_ne hne)]
      exact Cpp.run_bind_error (run_getNodeClient_of_absent habsent) _
    have hdone : (checkNodes healthText (fun _ => .neither) me healthCall []).run p = .ok [] p := rfl
    rw [h, hdone] at hthrow
    cases hthrow
  · rintro rfl text outcome rpcCall rest
    exact checkNodes_self rpcCall rest

/-! ## The request to the leader -/

theorem args_bootstrapCall {requester leader : HostAndPort} {p p' : Process}
    {rpcCall : RPCCall Process}
    (h : (bootstrapCall requester leader).run p = .ok rpcCall p') :
    rpcCall.args = registerArgs requester := by
  by_cases hroom : p.cluster.NoRoomFor leader
  · rw [run_bootstrapCall_of_noRoomFor hroom] at h
    cases h
  · rw [bootstrapCall_register,
      Cpp.run_bind_ok (run_getNodeClient (nodeInCluster_register hroom))] at h
    cases hcall : RPCClient.call (p.rpcStore.getRPCClient leader).1
      ({ rpc := "GetNodesInCluster", args := registerArgs requester } : RPCCall Process) with
    | error e =>
      rw [hcall, Cpp.run_ofExcept_error] at h
      cases h
    | ok called =>
      rw [hcall, Cpp.run_ofExcept_ok] at h
      cases h
      rw [call_eq_ok hcall]

/-! ## `Run` -/

theorem NodeState.addRPC_of_server (s : NodeState) {object : RPCObject}
    (h : object.kind = .server) (rpcName : String) (rpcFunc : RPCFunc Process) :
    ∃ s', s.addRPC object rpcName rpcFunc = .ok s' ∧ s'.rpcServer = s.rpcServer ∧
      s'.process = s.process := by
  simp [NodeState.addRPC, h]

/-- `Run` changes the store and a worker pool at most, and if it returns it has
    added `CheckHealth` to what the store holds for the `MetaStore`'s address. -/
theorem run_healthRun (s : NodeState) :
    ∃ s', (Health.run.run s = .ok (s.process.rpcStore.getRPCServer s.process.metaStore).1 s' ∨
        ∃ e, Health.run.run s = .error e s') ∧
      s'.rpcServer = s.rpcServer ∧ s'.process.metaStore = s.process.metaStore := by
  generalize hget : s.process.rpcStore.getRPCServer s.process.metaStore = found
  obtain ⟨server, store⟩ := found
  let s₁ : NodeState := { s with process := { s.process with rpcStore := store } }
  have hrun : Health.run.run s = (do
      set (← Cpp.ofExcept (s₁.addRPC server "CheckHealth" Health.checkHealthRPC))
      return server : EStateM Exn NodeState RPCObject).run s₁ := by
    unfold Health.run
    rw [Cpp.run_bind_ok (EStateM.run_get ..), hget]
    exact Cpp.run_bind_ok (EStateM.run_set ..) _
  rw [hrun]
  cases hkind : server.kind with
  | server =>
    obtain ⟨s₂, hadd, hserver, hprocess⟩ := NodeState.addRPC_of_server s₁ hkind "CheckHealth"
      Health.checkHealthRPC
    refine ⟨s₂, .inl ?_, hserver, ?_⟩
    · rw [hadd, Cpp.run_bind_ok (Cpp.run_ofExcept_ok s₂ s₁)]
      exact Cpp.run_bind_ok (EStateM.run_set ..) _
    · rw [hprocess]
  | client =>
    have hadd : s₁.addRPC server "CheckHealth" Health.checkHealthRPC =
        .error (.undefined "an RPCClient used as an RPCServer") := by
      simp only [NodeState.addRPC, hkind]
    refine ⟨s₁, .inr ⟨.undefined "an RPCClient used as an RPCServer", ?_⟩, rfl, rfl⟩
    rw [hadd]
    exact Cpp.run_bind_error (Cpp.run_ofExcept_error _ s₁) _

theorem stateOf_healthRun (s : NodeState) :
    (Cpp.stateOf (Health.run.run s)).rpcServer = s.rpcServer ∧
      (Cpp.stateOf (Health.run.run s)).process.metaStore = s.process.metaStore := by
  obtain ⟨s', h | ⟨e, h⟩, hkept⟩ := run_healthRun s
  · rw [h]
    exact hkept
  · rw [h]
    exact hkept

theorem hostAndPort_healthRun {s s' : NodeState} {server : RPCObject}
    (h : Health.run.run s = .ok server s') : server.hostAndPort = s.process.metaStore := by
  obtain ⟨s'', hrun | ⟨e, hrun⟩, _⟩ := run_healthRun s
  · rw [hrun] at h
    cases h
    exact RPCStore.hostAndPort_getOrConstruct ..
  · rw [hrun] at h
    cases h

/-! ## All calls -/

theorem metaStore_bootstrap (requester leader : HostAndPort)
    (answer : RPCCall Process → Except Exn Json) (p : Process) :
    (Cpp.stateOf ((bootstrap requester leader answer).run p)).metaStore = p.metaStore := by
  rw [stateOf_bootstrap_any]
  split <;> rfl

/-- Neither call changes the `MetaStore` or the server of the node. -/
theorem perform_keeps (s : NodeState) (call : NodeCall) :
    (perform s call).rpcServer = s.rpcServer ∧
      (perform s call).process.metaStore = s.process.metaStore := by
  cases call with
  | run => exact stateOf_healthRun s
  | joinCluster leader answer =>
    have hjoin : (joinCluster leader answer).run s.process =
        (bootstrap s.process.metaStore leader answer).run s.process := by
      unfold joinCluster
      rw [Cpp.run_bind_ok (EStateM.run_get ..)]
    refine ⟨rfl, ?_⟩
    show (Cpp.stateOf ((joinCluster leader answer).run s.process)).metaStore = _
    rw [hjoin, metaStore_bootstrap]

theorem oneIdentity_iff {address : HostAndPort} {s : NodeState}
    (server : s.rpcServer.kind = .server ∧ s.rpcServer.hostAndPort = address) :
    OneIdentity address s ↔ s.process.metaStore = address := by
  constructor
  · intro h
    exact ((h.skips _).mp (Health.passesOver_iff.mpr rfl))
  · rintro rfl
    refine ⟨server, fun leader rpcCall p hcall => ?_, fun found s' hrun => hostAndPort_healthRun hrun,
      fun n => Health.passesOver_iff⟩
    rw [args_bootstrapCall hcall, registration_registerArgs]

/-- From the constructor on, whatever is called, every address that the node
    takes for its own is the one it was built for exactly if the `MetaStore` holds
    that address. -/
theorem one_identity_iff (node metaStore : HostAndPort) (calls : List NodeCall) :
    (construct node metaStore).process.cluster.node 0 = node ∧
    (Always (OneIdentity node) perform (construct node metaStore) calls ↔ metaStore = node) := by
  have hslot : (Cluster.new.addNode node).node 0 = node := by
    have hfree : Cluster.new.view.firstFree = some 0 := by decide
    rw [addNode_of_firstFree hfree, node_setNode_self]
  have hserver : (construct node metaStore).rpcServer.kind = .server ∧
      (construct node metaStore).rpcServer.hostAndPort = node := ⟨rfl, rfl⟩
  refine ⟨hslot, fun h => (oneIdentity_iff hserver).mp h.head, fun hmeta => ?_⟩
  have hkeep : ∀ (s : NodeState) (call : NodeCall),
      (s.rpcServer.kind = .server ∧ s.rpcServer.hostAndPort = node) ∧ s.process.metaStore = node →
      True → ((perform s call).rpcServer.kind = .server ∧
        (perform s call).rpcServer.hostAndPort = node) ∧ (perform s call).process.metaStore = node := by
    intro s call h _
    rw [(perform_keeps s call).1, (perform_keeps s call).2]
    exact h
  have hguard : Guarded (fun _ _ => True) perform (construct node metaStore) calls :=
    guarded_of_forall fun _ _ _ => trivial
  exact (always_of_guarded hkeep ⟨hserver, hmeta⟩ hguard).mono fun s h =>
    (oneIdentity_iff h.1).mpr h.2

/-- In a process whose `MetaStore` nobody has set, a node asks its leader to
    register the empty address, and does not pass over itself. -/
theorem identity_of_unset_metaStore :
    ¬ Always (OneIdentity ⟨"h", 1⟩) perform (construct ⟨"h", 1⟩ {}) [.run] := by
  intro h
  have hserver : (construct ⟨"h", 1⟩ {}).rpcServer.kind = .server ∧
      (construct ⟨"h", 1⟩ {}).rpcServer.hostAndPort = ⟨"h", 1⟩ := ⟨rfl, rfl⟩
  have hmeta : ({} : HostAndPort) = ⟨"h", 1⟩ := (oneIdentity_iff hserver).mp h.head
  exact absurd hmeta (by decide)

end Imq
