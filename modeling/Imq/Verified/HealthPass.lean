import Imq.Verified.Bootstrap
import Imq.Verified.Callbacks

/-! # One pass of the health checker

The pass goes through a snapshot of the table while its callbacks change the
table.  As every callback concerns only the node that was called, what the pass
does to a node is what the outcome of that node's own check does to it.

* `Process.settle`, `NodeStatus.settle` — the effect of one outcome;
* `run_awaitOutcome` — one call of the pass;
* `run_checkNodes` — the rest of a pass, by induction over the snapshot;
* `run_performHealthChecksPass` — the whole pass.
-/

namespace Imq

open Lib

/-- A message that the callback of a call can be given: it is JSON text into
    which the callee can be put. -/
def IsReply (text : JsonText) (message : Message) : Prop :=
  ∀ rpcCall : RPCCall Process, ∃ response,
    RPCResponse.parsedResponse text rpcCall message = .ok response

/-- The messages that answers consist of are replies. -/
def CallOutcome.Readable (text : JsonText) : CallOutcome → Prop
  | .answered message => IsReply text message
  | _ => True

def CallOutcome.isNeither : CallOutcome → Bool
  | .neither => true
  | _ => false

def NodeStatus.settle (s : NodeStatus) : CallOutcome → NodeStatus
  | .answered _ => s.answered
  | .timedOut => s.timedOut
  | .neither => s

namespace Process

def settle (p : Process) (n : HostAndPort) : CallOutcome → Process
  | .answered _ => p.answered n
  | .timedOut => p.timedOut n
  | .neither => p

theorem status_settle {p : Process} (h : p.cluster.NoDuplicate) (n m : HostAndPort)
    (outcome : CallOutcome) :
    (p.settle n outcome).status m =
      if m = n then (p.status m).settle outcome else p.status m := by
  cases outcome with
  | answered message => exact status_answered p n m
  | timedOut => exact status_timedOut h n m
  | neither => exact (ite_self _).symm

theorem noDuplicate_settle {p : Process} (h : p.cluster.NoDuplicate) (n : HostAndPort)
    (outcome : CallOutcome) : (p.settle n outcome).cluster.NoDuplicate := by
  cases outcome with
  | answered message => exact h
  | timedOut => exact noDuplicate_timedOut h n
  | neither => exact h

theorem metaStore_settle (p : Process) (n : HostAndPort) (outcome : CallOutcome) :
    (p.settle n outcome).metaStore = p.metaStore := by
  cases outcome with
  | answered message => rfl
  | timedOut =>
    show (p.timedOut n).metaStore = p.metaStore
    unfold timedOut
    split
    next => rfl
    next => split <;> rfl
  | neither => rfl

theorem rpcStore_settle (p : Process) (n : HostAndPort) (outcome : CallOutcome) :
    (p.settle n outcome).rpcStore = p.rpcStore := by
  cases outcome with
  | answered message => rfl
  | timedOut =>
    show (p.timedOut n).rpcStore = p.rpcStore
    unfold timedOut
    split
    next => rfl
    next => split <;> rfl
  | neither => rfl

end Process

namespace Health

/-- Whatever the outcome, the callback that runs settles the node that was
    called, and is given that node's address. -/
theorem run_awaitOutcome {text : JsonText} {outcome : CallOutcome} (h : outcome.Readable text)
    (n : HostAndPort) (p : Process) :
    ∃ callback, (awaitOutcome text (callTo n) outcome).run p = .ok callback (p.settle n outcome) ∧
      (callback = none ↔ outcome.isNeither = true) ∧
      ∀ response, callback = some response → calleeOf response = .ok n := by
  cases outcome with
  | answered message =>
    obtain ⟨reply, hparsed⟩ := h (callTo n)
    have hcallee : calleeOf reply = .ok n := RPCResponse.calleeOf_parsedResponse hparsed
    refine ⟨_, RPCResponse.run_doMessageCallback rfl hparsed (run_healthyNodeCallback hcallee p),
      ⟨fun hn => (by cases hn), fun hn => (by cases hn)⟩, fun response hr => ?_⟩
    cases hr
    exact hcallee
  | timedOut =>
    have hfresh : [("error", Json.string "TimeoutException")].lookup "callee_info" = none := by
      simp
    have hmeta := RPCResponse.addResponseMetadata_object (callTo n) hfresh
    have hcallee := RPCResponse.calleeOf_addResponseMetadata hmeta
    refine ⟨_, RPCResponse.run_doTimeoutCallback rfl hmeta (run_timedoutNodeCallback hcallee p),
      ⟨fun hn => (by cases hn), fun hn => (by cases hn)⟩, fun response hr => ?_⟩
    cases hr
    exact hcallee
  | neither => exact ⟨none, rfl, ⟨fun _ => rfl, fun _ => rfl⟩, fun _ hn => by cases hn⟩

/-- What a pass has done when the nodes of `snapshot` have been dealt with. -/
structure PassResult (outcome : HostAndPort → CallOutcome) (me : HostAndPort)
    (snapshot : List HostAndPort) (p p' : Process) (events : List CheckEvent) : Prop where
  /-- Every node but the own one is called once, in the order of the snapshot. -/
  called : events.map (fun e => e.called.hostAndPort) = snapshot.filter (· ≠ me)
  /-- A callback runs unless the outcome is that none does, and it is given the
      address of the node that was called. -/
  callback : ∀ e ∈ events,
    (e.callback = none ↔ (outcome e.called.hostAndPort).isNeither = true) ∧
    ∀ response, e.callback = some response → calleeOf response = .ok e.called.hostAndPort
  /-- Each node called is settled by its own outcome, from its own status. -/
  status : ∀ n, p'.status n =
    if n ∈ snapshot ∧ n ≠ me then (p.status n).settle (outcome n) else p.status n

section

variable {text : JsonText} {outcome : HostAndPort → CallOutcome} {me : HostAndPort}

theorem checkNodes_self (rpcCall : RPCCall Process) (rest : List HostAndPort) :
    checkNodes text outcome me rpcCall (me :: rest) = checkNodes text outcome me rpcCall rest := by
  rw [checkNodes, if_pos ⟨rfl, rfl⟩]

theorem host_port_ne {n m : HostAndPort} (h : n ≠ m) : ¬ (n.host = m.host ∧ n.port = m.port) := by
  obtain ⟨host, port⟩ := n
  obtain ⟨host', port'⟩ := m
  intro ⟨hhost, hport⟩
  exact h (by rw [show host = host' from hhost, show port = port' from hport])

/-- One call of a pass settles the node called, and the rest of the pass goes on
    from there. -/
theorem run_checkNodes_call {p : Process} {n : HostAndPort} (nodup : p.cluster.NoDuplicate)
    (hstore : p.rpcStore.ServersOnlyAt me) (hne : n ≠ me)
    (hlisted : n ∈ p.cluster.getNodesInCluster) (readable : (outcome n).Readable text) :
    ∃ (called : RPCObject) (callback : Option Json) (q : Process),
      (∀ callee rest events p', (checkNodes text outcome me (callTo n) rest).run q = .ok events p' →
        (checkNodes text outcome me (callTo callee) (n :: rest)).run p =
          .ok ({ called := called, callback := callback } :: events) p') ∧
      called.hostAndPort = n ∧
      (callback = none ↔ (outcome n).isNeither = true) ∧
      (∀ response, callback = some response → calleeOf response = .ok n) ∧
      q.cluster.NoDuplicate ∧ q.rpcStore.ServersOnlyAt me ∧
      ∀ m, q.status m = if m = n then (p.status m).settle (outcome n) else p.status m := by
  have haddr : (p.rpcStore.getRPCClient n).1.hostAndPort = n :=
    RPCStore.hostAndPort_getOrConstruct p.rpcStore .client n
  have hclient := Cluster.run_getNodeClient (Cluster.nodeInCluster_of_mem hlisted)
  -- The look-up changes the store alone, which no status depends on.
  generalize hq : { p with rpcStore := (p.rpcStore.getRPCClient n).2 } = q₀ at hclient
  have hcluster : q₀.cluster.NoDuplicate := by
    rw [← hq]
    exact nodup
  have hservers : q₀.rpcStore.ServersOnlyAt me := by
    rw [← hq]
    exact RPCStore.serversOnlyAt_getRPCClient hstore n
  have hstatus : ∀ m, q₀.status m = p.status m := by
    intro m
    rw [← hq]
    rfl
  obtain ⟨callback, hawait, hnone, hcallee⟩ := run_awaitOutcome readable n q₀
  refine ⟨(p.rpcStore.getRPCClient n).1, callback, q₀.settle n (outcome n), ?_, haddr, hnone,
    hcallee, Process.noDuplicate_settle hcluster n _, ?_, fun m => ?_⟩
  · intro callee rest events p' hrest
    -- The call object still names the callee before; `Call` writes the new one over it.
    have hcall : RPCClient.call (p.rpcStore.getRPCClient n).1 (callTo callee) = .ok (callTo n) :=
      RPCStore.call_getRPCClient hstore hne (callTo callee)
    rw [checkNodes, if_neg (host_port_ne hne), Cpp.run_bind_ok hclient, hcall,
      Cpp.run_bind_ok (Cpp.run_ofExcept_ok _ _), haddr, Cpp.run_bind_ok hawait,
      Cpp.run_bind_ok hrest]
    rfl
  · rw [Process.rpcStore_settle]
    exact hservers
  · rw [Process.status_settle hcluster, hstatus]

theorem run_checkNodes {snapshot : List HostAndPort} (hnd : snapshot.Nodup) {p : Process}
    (nodup : p.cluster.NoDuplicate) (hstore : p.rpcStore.ServersOnlyAt me)
    (listed : ∀ n ∈ snapshot, n ∈ p.cluster.getNodesInCluster)
    (readable : ∀ n ∈ snapshot, n ≠ me → (outcome n).Readable text) (callee : HostAndPort) :
    ∃ events p', (checkNodes text outcome me (callTo callee) snapshot).run p = .ok events p' ∧
      PassResult outcome me snapshot p p' events := by
  induction snapshot generalizing p callee with
  | nil => exact ⟨[], p, rfl, rfl, fun e he => absurd he List.not_mem_nil, fun n => (by simp)⟩
  | cons n rest ih =>
    obtain ⟨hn, hnd⟩ := List.nodup_cons.mp hnd
    have hlater : ∀ m ∈ rest, m ∈ p.cluster.getNodesInCluster :=
      fun m hm => listed m (List.mem_cons_of_mem n hm)
    have hreadable : ∀ m ∈ rest, m ≠ me → (outcome m).Readable text :=
      fun m hm => readable m (List.mem_cons_of_mem n hm)
    by_cases hme : n = me
    · -- The own address is passed over.
      subst hme
      obtain ⟨events, p', hrun, hpass⟩ := ih hnd nodup hstore hlater hreadable callee
      refine ⟨events, p', ?_, ?_, hpass.callback, fun m => ?_⟩
      · rw [checkNodes_self, hrun]
      · rw [hpass.called, List.filter_cons_of_neg (by simp)]
      · rw [hpass.status m]
        refine if_congr ⟨fun hm => ⟨List.mem_cons_of_mem _ hm.1, hm.2⟩, fun hm => ?_⟩ rfl rfl
        exact ⟨(List.mem_cons.mp hm.1).resolve_left hm.2, hm.2⟩
    · obtain ⟨called, callback, q, hcall, haddr, hnone, hcallee, hdup, hservers, hstatus⟩ :=
        run_checkNodes_call nodup hstore hme (listed n List.mem_cons_self)
          (readable n List.mem_cons_self hme)
      -- The call has settled `n` only, so the later nodes are still listed.
      have hkept : ∀ m ∈ rest, m ∈ q.cluster.getNodesInCluster := by
        intro m hm
        have hne : m ≠ n := fun he => hn (he ▸ hm)
        have hslot : (q.status m).slot = (p.status m).slot := by rw [hstatus m, if_neg hne]
        by_contra hnot
        rw [Process.slot_status_eq_none_iff.mpr hnot, eq_comm, Process.slot_status_eq_none_iff] at hslot
        exact hslot (hlater m hm)
      obtain ⟨events, p', hrun, hpass⟩ := ih hnd hdup hservers hkept hreadable n
      refine ⟨_, p', hcall callee rest events p' hrun, ?_, fun e he => ?_, fun m => ?_⟩
      · rw [List.map_cons, hpass.called, haddr, List.filter_cons_of_pos (by simpa using hme)]
      · obtain rfl | he := List.mem_cons.mp he
        · show (callback = none ↔ (outcome called.hostAndPort).isNeither = true) ∧
            ∀ response, callback = some response → calleeOf response = .ok called.hostAndPort
          rw [haddr]
          exact ⟨hnone, hcallee⟩
        · exact hpass.callback e he
      · rw [hpass.status m, hstatus m]
        by_cases hm : m = n
        · subst hm
          rw [if_neg fun h => hn h.1, if_pos rfl, if_pos ⟨List.mem_cons_self, hme⟩]
        · rw [if_neg hm]
          refine if_congr (and_congr_left' ?_) rfl rfl
          exact ⟨List.mem_cons_of_mem n, fun h => (List.mem_cons.mp h).resolve_left hm⟩

end

/-- A pass never throws.  It calls every listed node but itself, none twice, each
    callback is given the address of the node called, and every node ends up as
    its own outcome alone makes it. -/
theorem run_performHealthChecksPass (text : JsonText) (outcome : HostAndPort → CallOutcome)
    (p : Process) (nodup : p.cluster.NoDuplicate) (servers : p.rpcStore.ServersOnlyAt p.metaStore)
    (readable : ∀ n ∈ p.cluster.getNodesInCluster, n ≠ p.metaStore → (outcome n).Readable text) :
    ∃ events p', (performHealthChecksPass text outcome).run p = .ok events p' ∧
      (events.map fun e => e.called.hostAndPort).Nodup ∧
      PassResult outcome p.metaStore p.cluster.getNodesInCluster p p' events := by
  have hcallee : healthCall = callTo {} := rfl
  obtain ⟨events, p', hrun, hpass⟩ := run_checkNodes
    (Cluster.nodup_getNodesInCluster nodup) nodup servers (fun _ hn => hn) readable {}
  refine ⟨events, p', ?_, ?_, hpass⟩
  · unfold performHealthChecksPass
    rw [Cpp.run_bind_ok (EStateM.run_get ..), hcallee, hrun]
  · rw [hpass.called]
    exact (Cluster.nodup_getNodesInCluster nodup).filter _

/-- A node with two others, one of which has timed out four times. -/
def beforePass : Process :=
  { IMQNode.new ⟨"r", 1⟩ (Process.initial ⟨"r", 1⟩) with
    cluster := ((Cluster.new.addNode ⟨"r", 1⟩).register ⟨"a", 2⟩).register ⟨"b", 3⟩
    potentiallyFailing := Function.update (fun _ => none) ⟨"a", 2⟩ (some 3) }

/-- The failing node does not answer, the other one does. -/
def passOutcome (n : HostAndPort) : CallOutcome :=
  if n = ⟨"a", 2⟩ then .timedOut else .answered ["\x7b\"health\":1\x7d"]

theorem run_performHealthChecksPass_beforePass :
    ∃ events p', (performHealthChecksPass healthText passOutcome).run beforePass = .ok events p' ∧
      (events.map fun e => e.called.hostAndPort) = [⟨"a", 2⟩, ⟨"b", 3⟩] ∧
      p'.status ⟨"r", 1⟩ = ⟨some 0, none⟩ ∧ p'.status ⟨"a", 2⟩ = ⟨none, none⟩ ∧
      p'.status ⟨"b", 3⟩ = ⟨some 2, none⟩ := by
  have hnodup : beforePass.cluster.NoDuplicate :=
    Cluster.noDuplicate_register (Cluster.noDuplicate_register
      (Cluster.noDuplicate_addNode_new ⟨"r", 1⟩) _) _
  have hservers : beforePass.rpcStore.ServersOnlyAt beforePass.metaStore :=
    RPCStore.serversOnlyAt_getRPCServer (RPCStore.serversOnlyAt_empty _)
  have hreadable : ∀ n ∈ beforePass.cluster.getNodesInCluster, n ≠ beforePass.metaStore →
      (passOutcome n).Readable healthText := by
    intro n _ _
    unfold passOutcome
    split
    · trivial
    · intro rpcCall
      have hparse : healthText.parse "\x7b\"health\":1\x7d" = .ok (.object [("health", .number 1)]) := rfl
      have hfresh : [("health", Json.number 1)].lookup "callee_info" = none := by decide
      exact ⟨_, (RPCResponse.parsedResponse_of_parse hparse rpcCall []).trans
        (RPCResponse.addResponseMetadata_object rpcCall hfresh)⟩
  obtain ⟨events, p', hrun, _, hpass⟩ :=
    run_performHealthChecksPass healthText passOutcome beforePass hnodup hservers hreadable
  refine ⟨events, p', hrun, hpass.called.trans (by decide), ?_, ?_, ?_⟩
  · exact (hpass.status _).trans (by decide)
  · exact (hpass.status _).trans (by decide)
  · exact (hpass.status _).trans (by decide)

end Health

end Imq
