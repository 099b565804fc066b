import Imq.Verified.Network
import Imq.Verified.Registration

/-! # A join and a pass that nothing interrupts

* `exists_run_join`, `join_completes` — a join;
* `exists_run_checks`, `exists_run_pass` — a pass of the health thread.
-/

namespace Imq.Network

open Lib Cluster IMQNode RPCServerWorkerPool Json

variable {n : Nat}

/-! ## A join -/

/-- A worker that nothing interrupts registers a node that joins, and answers with its table. -/
theorem run_workBody_getNodesCall (format : FloatFormat) {requester : HostAndPort}
    (utf8 : Utf8String requester.host) (leader : HostAndPort) (clientAddr : String) (p : Process) :
    (workBody (.ofFormat format) workerPool
      (some (clientAddr :: (getNodesCall requester leader).frames (.ofFormat format)))).run p =
        .ok (some [clientAddr, Json.dump format (p.cluster.register requester).replyOf])
          { p with cluster := p.cluster.register requester } := by
  have hrun := run_onCluster_ok (run_getNodesInCluster_register requester p.cluster)
  have hlookup : workerPool.rpcs.lookup "GetNodesInCluster" =
      some fun args => Process.onCluster (getNodesInCluster args) := rfl
  have hwork := workBody_of_registered (accepted_request clientAddr "GetNodesInCluster"
    ((JsonText.ofFormat format).dump (registerArgs requester))) hlookup
    (parse_dump_registerArgs utf8)
  show (workBody _ _ (some [_, "GetNodesInCluster",
    (JsonText.ofFormat format).dump (registerArgs requester)])).run p = _
  rw [hwork, Cpp.run_bind_ok hrun]
  rfl

/-- It answers a check, and changes nothing. -/
theorem run_workBody_callTo (format : FloatFormat) (callee : HostAndPort) (clientAddr : String)
    (p : Process) :
    (workBody (.ofFormat format) workerPool
      (some (clientAddr :: (Health.callTo callee).frames (.ofFormat format)))).run p =
        .ok (some [clientAddr, Json.dump format (.object [("health", .number 1)])]) p := by
  have hlookup : workerPool.rpcs.lookup "CheckHealth" = some Health.checkHealthRPC := rfl
  have hwork := workBody_of_registered
    (accepted_request clientAddr "CheckHealth" ((JsonText.ofFormat format).dump .null))
    hlookup parse_dump_null
  show (workBody _ _ (some [_, "CheckHealth", (JsonText.ofFormat format).dump .null])).run p = _
  rw [hwork]
  rfl

/-- Whatever the response to a join brings, at most a table is taken over. -/
theorem run_bootstrapEnd_of_brings {format : FloatFormat} {P : Cluster → Prop}
    (sendable : ∀ t, P t → t.Sendable) {receipt : Receipt} (brings : Brings format P receipt)
    {rpcCall : RPCCall Process} (sync : rpcCall.async = false) (p : Process) :
    ∃ c, (Cluster.bootstrapEnd (.ofFormat format) rpcCall receipt).run p =
        .ok () { p with cluster := c } ∧
      (c = p.cluster ∨ ∃ t, P t ∧ c = p.cluster.overwrite t.view) := by
  obtain ⟨response, hget, ⟨t, ht, hnodes⟩ | hnull⟩ := get_of_brings brings sync
  · have hreply := run_bootstrapReply_of_sendable (sendable t ht) hnodes p.cluster
    refine ⟨_, ?_, .inr ⟨t, ht, rfl⟩⟩
    rw [bootstrapEnd, hget]
    exact run_onCluster_ok hreply
  · have hreply : (bootstrapReply response).run p.cluster = .ok () p.cluster := by
      rw [bootstrapReply, hnull]
      rfl
    refine ⟨_, ?_, .inl rfl⟩
    rw [bootstrapEnd, hget]
    exact run_onCluster_ok hreply

/-- A table that arrives is taken over. -/
theorem run_bootstrapEnd_of_lists (format : FloatFormat) {address : Fin n → HostAndPort}
    (addresses : Addresses address) {K : Fin n → Prop} {t : Cluster} (ht : Lists address K t)
    (requester leader : HostAndPort) (p : Process) :
    (Cluster.bootstrapEnd (.ofFormat format) (getNodesCall requester leader)
      (.received [Json.dump format t.replyOf])).run p =
        .ok () { p with cluster := p.cluster.overwrite t.view } := by
  have hparse : (JsonText.ofFormat format).parse (Json.dump format t.replyOf) = .ok t.replyOf :=
    readBack_of_replied format (utf8Hosts_of_lists addresses ht) (.inl rfl)
  obtain ⟨response, hmeta, hnodes⟩ := addResponseMetadata_replyOf (getNodesCall requester leader) t
  have hget : RPCResponse.get (.ofFormat format) (getNodesCall requester leader)
      (.received [Json.dump format t.replyOf]) = .ok response :=
    (RPCResponse.get_received rfl hparse).trans hmeta
  have hreply := run_bootstrapReply_of_sendable (sendable_of_lists addresses ht) hnodes p.cluster
  rw [bootstrapEnd, hget]
  exact run_onCluster_ok hreply

section

variable {format : FloatFormat} {identity : String → Fin n → String}
  {address : Fin n → HostAndPort} {L : Fin n → Fin n → Prop}
  {guard : Network n → NetworkStep n → Prop} {s : Network n} {i l : Fin n}

end

/-- The call object of a pass after a call, whatever it was used for before. -/
theorem call_callTo (client : RPCObject) (callee : HostAndPort) :
    RPCClient.call client (Health.callTo callee) = RPCClient.call client Health.healthCall := rfl

theorem of_run_checkCall {callee : HostAndPort} {called : RPCCall Process} {p q : Process}
    (h : (Health.checkCall callee).run p = .ok called q) :
    called = Health.callTo called.calleeInfo ∧ q.metaStore = p.metaStore := by
  unfold Health.checkCall at h
  by_cases hlisted : p.cluster.nodeInCluster callee = true
  · rw [Cpp.run_bind_ok (run_getNodeClient hlisted)] at h
    cases hcall : RPCClient.call (p.rpcStore.getRPCClient callee).1 Health.healthCall with
    | error e =>
      rw [hcall] at h
      cases h
    | ok made =>
      rw [hcall] at h
      cases h
      rw [call_eq_ok hcall]
      exact ⟨rfl, rfl⟩
  · rw [Cpp.run_bind_error (run_getNodeClient_of_absent (Bool.eq_false_iff.mpr hlisted))] at h
    cases h

theorem run_checkCall_of_listed {p : Process} {self node : HostAndPort}
    (store : p.rpcStore.ServersOnlyAt self) (other : node ≠ self)
    (listed : p.cluster.nodeInCluster node = true) :
    (Health.checkCall node).run p =
      .ok (Health.callTo node) { p with rpcStore := (p.rpcStore.getRPCClient node).2 } := by
  rw [Health.checkCall, Cpp.run_bind_ok (run_getNodeClient listed),
    RPCStore.call_getRPCClient store other]
  rfl

/-- One round of the loop of a pass. -/
theorem stateOf_checkNodes_cons {text : JsonText} {outcome : HostAndPort → CallOutcome}
    {me callee : HostAndPort} (hne : ¬ (callee.host = me.host ∧ callee.port = me.port))
    (last : HostAndPort) (rest : List HostAndPort) (p : Process) :
    Cpp.stateOf ((Health.checkNodes text outcome me (Health.callTo last) (callee :: rest)).run p) =
      match (Health.checkCall callee).run p with
      | .ok called q =>
        match (Health.awaitOutcome text (Health.callTo called.calleeInfo)
          (outcome called.calleeInfo)).run q with
        | .ok _ q => Cpp.stateOf ((Health.checkNodes text outcome me
            (Health.callTo called.calleeInfo) rest).run q)
        | .error _ q => q
      | .error _ q => q := by
  rw [Health.checkNodes, if_neg hne, Health.checkCall]
  cases hclient : (getNodeClient callee).run p with
  | error e q => rw [Cpp.run_bind_error hclient, Cpp.run_bind_error hclient]; rfl
  | ok client q =>
    rw [Cpp.run_bind_ok hclient, Cpp.run_bind_ok hclient, call_callTo]
    cases hcall : RPCClient.call client Health.healthCall with
    | error e => rfl
    | ok called =>
      obtain rfl : called = Health.callTo client.hostAndPort := call_eq_ok hcall
      rw [Cpp.run_bind_ok (Cpp.run_ofExcept_ok _ q), Cpp.run_ofExcept_ok]
      show _ = match (Health.awaitOutcome text (Health.callTo client.hostAndPort)
        (outcome client.hostAndPort)).run q with
        | .ok _ q => _
        | .error _ q => _
      cases hawait : (Health.awaitOutcome text (Health.callTo client.hostAndPort)
        (outcome client.hostAndPort)).run q with
      | error e q => rw [Cpp.run_bind_error hawait]; rfl
      | ok callback q =>
        rw [Cpp.run_bind_ok hawait]
        show _ = Cpp.stateOf ((Health.checkNodes text outcome me
          (Health.callTo client.hostAndPort) rest).run q)
        cases hrest : (Health.checkNodes text outcome me (Health.callTo client.hostAndPort)
          rest).run q with
        | error e q => rw [Cpp.run_bind_error hrest]
        | ok events q => rw [Cpp.run_bind_ok hrest]; rfl

/-- The steps of the health thread of a node. -/
def OfHealth (i : Fin n) : NetworkStep n → Prop
  | .pass j | .check j | .checkEnd j _ | .health j => j = i
  | _ => False

section

variable (text : JsonText) (identity : String → Fin n → String) (address : Fin n → HostAndPort)
  {outcome : HostAndPort → CallOutcome} {i : Fin n} {rest : List HostAndPort} {s : Network n}

/-- Only the health thread of a node takes steps. -/
abbrev HealthOnly (i : Fin n) (_ : Network n) (label : NetworkStep n) : Prop := OfHealth i label

/-- One round of the loop: the call and the end of its response, or what comes before an
    exception. -/
theorem exists_run_round {callee : HostAndPort}
    (checking : (s.node i).health = .checking (callee :: rest))
    (other : ¬ (callee.host = (s.node i).process.metaStore.host ∧
      callee.port = (s.node i).process.metaStore.port))
    (possible : ∀ m, (outcome m).Possible identity s.replies i m) :
    ∃ labels s', Run (step text identity address) (HealthOnly i) s labels s' ∧
      s'.replies = s.replies ∧ (∀ j, j ≠ i → s'.node j = s.node j) ∧
      match (Health.checkCall callee).run (s.node i).process with
      | .ok called q =>
        match (Health.awaitOutcome text (Health.callTo called.calleeInfo)
          (outcome called.calleeInfo)).run q with
        | .ok _ q => s'.node i = { s.node i with process := q, health := .checking rest }
        | .error _ q => (s'.node i).process = q
      | .error _ q => (s'.node i).process = q := by
  obtain ⟨k, hrun⟩ := exists_run_check text identity address (HealthOnly i)
    (fun _ => rfl) rfl checking other
  cases hcheck : (Health.checkCall callee).run (s.node i).process with
  | error e q =>
    rw [hcheck] at hrun
    exact ⟨_, _, hrun, rfl, fun j hj => node_setNode_of_ne s hj _,
      congrArg NetworkNode.process (node_setNode_self ..)⟩
  | ok called q =>
    rw [hcheck] at hrun
    -- The node waits for the response to this call, and everything else is as before.
    generalize hs : s.afterCheck text i rest (.ok called q) = s₁ at hrun
    have hnode : s₁.node i =
        { s.node i with process := q, health := .awaiting called.calleeInfo rest } := by
      rw [← hs]
      exact node_setNode_self ..
    have hothers : ∀ j, j ≠ i → s₁.node j = s.node j := by
      intro j hj
      rw [← hs]
      exact node_setNode_of_ne s hj _
    have hreplies : s₁.replies = s.replies := by
      rw [← hs]
      rfl
    have hpossible : (outcome called.calleeInfo).Possible identity s₁.replies i
        called.calleeInfo := by
      rw [hreplies]
      exact possible _
    obtain ⟨m, hend⟩ := exists_run_checkEnd text identity address (HealthOnly i)
      (fun _ _ _ => rfl) rfl (by rw [hnode]) hpossible
    have hprocess : (s₁.node i).process = q := by rw [hnode]
    rw [hprocess] at hend
    cases hawait : (Health.awaitOutcome text (Health.callTo called.calleeInfo)
      (outcome called.calleeInfo)).run q with
    | error e q' =>
      rw [hawait] at hend
      refine ⟨_, _, hrun.append hend, hreplies, fun j hj => ?_, ?_⟩
      · exact (node_setNode_of_ne s₁ hj _).trans (hothers j hj)
      · simp only [hawait]
        exact congrArg NetworkNode.process (node_setNode_self ..)
    | ok callback q' =>
      rw [hawait] at hend
      refine ⟨_, _, hrun.append hend, hreplies, fun j hj => ?_, ?_⟩
      · exact (node_setNode_of_ne s₁ hj _).trans (hothers j hj)
      · simp only [hawait]
        rw [afterCheckEnd, node_setNode_self, hnode]

/-- A node goes through the rest of a pass without interruption: it ends as the pass
    alone makes it, and no other node is touched. -/
theorem exists_run_checks (checking : (s.node i).health = .checking rest) (last : HostAndPort)
    {me : HostAndPort} (hmeta : (s.node i).process.metaStore = me)
    (possible : ∀ m, (outcome m).Possible identity s.replies i m) :
    ∃ labels s', Run (step text identity address) (HealthOnly i) s labels s' ∧
      (s'.node i).process = Cpp.stateOf ((Health.checkNodes text outcome me
        (Health.callTo last) rest).run (s.node i).process) ∧
      ∀ j, j ≠ i → s'.node j = s.node j := by
  induction rest generalizing s last with
  | nil =>
    have hrun : Run (step text identity address) (HealthOnly i) s [.check i]
        (s.setNode i { s.node i with health := .asleep }) := by
      refine Run.single (rfl : OfHealth i (.check i)) ?_
      simp only [step, checking]
    refine ⟨_, _, hrun, ?_, fun j hj => node_setNode_of_ne s hj _⟩
    rw [node_setNode_self]
    rfl
  | cons callee rest ih =>
    by_cases hself : callee.host = me.host ∧ callee.port = me.port
    · -- The own address is passed over.
      have hrun : Run (step text identity address) (HealthOnly i) s [.check i]
          (s.setNode i { s.node i with health := .checking rest }) := by
        refine Run.single (rfl : OfHealth i (.check i)) ?_
        simp only [step, checking, hmeta, if_pos hself]
      have hnode := node_setNode_self s i { s.node i with health := .checking rest }
      have hchecking := congrArg NetworkNode.health hnode
      obtain ⟨labels, s', hrest, hprocess, hothers⟩ :=
        ih hchecking last (by rw [hnode]; exact hmeta) possible
      refine ⟨_, s', hrun.append hrest, ?_, fun j hj => ?_⟩
      · rw [hprocess, hnode, Health.checkNodes, if_pos hself]
      · rw [hothers j hj, node_setNode_of_ne s hj]
    · obtain ⟨labels, s₁, hrun, hreplies, hothers, hround⟩ :=
        exists_run_round text identity address checking (by rw [hmeta]; exact hself) possible
      rw [stateOf_checkNodes_cons hself]
      cases hcheck : (Health.checkCall callee).run (s.node i).process with
      | error e q =>
        -- The exception ends the pass, and it ends the thread.
        simp only [hcheck] at hround
        exact ⟨labels, s₁, hrun, hround, hothers⟩
      | ok called q =>
        have hq := (of_run_checkCall hcheck).2
        simp only [hcheck] at hround
        cases hawait : (Health.awaitOutcome text (Health.callTo called.calleeInfo)
          (outcome called.calleeInfo)).run q with
        | error e q' =>
          simp only [hawait] at hround ⊢
          exact ⟨labels, s₁, hrun, hround, hothers⟩
        | ok callback q' =>
          simp only [hawait] at hround ⊢
          -- The node's own address has not changed, so the rest passes over the same nodes.
          have hcheck : Health.IsCheck (Health.callTo called.calleeInfo) := ⟨rfl, rfl⟩
          have hkeeps := keeps_awaitOutcome (keptByChecks_metaStore me) text hcheck
            (outcome called.calleeInfo)
          have hmeta' := keeps_iff_stateOf.mp hkeeps q (hq.trans hmeta)
          rw [hawait] at hmeta'
          obtain ⟨labels', s', hrest, hprocess, hothers'⟩ :=
            ih (by rw [hround]) called.calleeInfo (by rw [hround]; exact hmeta')
              (by rw [hreplies]; exact possible)
          refine ⟨_, s', hrun.append hrest, ?_, fun j hj => ?_⟩
          · rw [hprocess, hround]
          · rw [hothers' j hj, hothers j hj]

end

/-- A pass of a node in any state of the network, without interruption: its process ends as
    the pass alone makes it, only its health thread takes steps, and no other node is
    touched. -/
theorem exists_run_pass (text : JsonText) (identity : String → Fin n → String)
    (address : Fin n → HostAndPort) {outcome : HostAndPort → CallOutcome} {i : Fin n}
    {s : Network n} (asleep : (s.node i).health = .asleep)
    (possible : ∀ m, (outcome m).Possible identity s.replies i m) :
    ∃ labels s', Run (step text identity address) unguarded s labels s' ∧
      (∀ label ∈ labels, OfHealth i label) ∧
      (s'.node i).process = Cpp.stateOf
        ((Health.performHealthChecksPass text outcome).run (s.node i).process) ∧
      ∀ j, j ≠ i → s'.node j = s.node j := by
  obtain ⟨k, hlisting⟩ := exists_run_snapshot text identity address (HealthOnly i)
    (fun _ => rfl) rfl asleep
  generalize hs : s.setNode i _ = s₁ at hlisting
  have hnode : s₁.node i = { s.node i with
      health := .checking (s.node i).process.cluster.getNodesInCluster } := by
    rw [← hs]
    exact node_setNode_self ..
  have hreplies : s₁.replies = s.replies := by
    rw [← hs]
    rfl
  have hchecking : (s₁.node i).health = .checking (s.node i).process.cluster.getNodesInCluster := by
    rw [hnode]
  obtain ⟨labels, s', hchecks, hprocess, hothers⟩ :=
    exists_run_checks text identity address hchecking {} (by rw [hnode])
      (by rw [hreplies]; exact possible)
  have hrun := hlisting.append hchecks
  refine ⟨_, s', hrun.mono fun _ _ _ => trivial, hrun.forall_mem fun _ _ ok => ok, ?_,
    fun j hj => ?_⟩
  · rw [hprocess, hnode]
    rfl
  · rw [hothers j hj, ← hs]
    exact node_setNode_of_ne s hj _

/-- A node that has called another to join it lists it, and goes through a pass. -/
theorem exists_run_pass_joinCall :
    ∃ k s labels s',
      Run (step (.ofFormat noFloats) (fun _ _ => "client") twoNodes) JoinsOther
        (initial twoNodes) (.joinCall 0 1 :: List.replicate k (.main 0)) s ∧
      Run (step (.ofFormat noFloats) (fun _ _ => "client") twoNodes) unguarded s labels s' ∧
      (∀ label ∈ labels, OfHealth 0 label) ∧
      (s'.node 0).process = Cpp.stateOf
        ((Health.performHealthChecksPass (.ofFormat noFloats) fun _ => .timedOut).run
          (s.node 0).process) ∧
      ∀ j, j ≠ 0 → s'.node j = s.node j := by
  have links : Equivalence (Linked (n := 2) []) := Relation.EqvGen.is_equivalence _
  have other : JoinsOther (initial twoNodes) (.joinCall 0 1) := by decide
  obtain ⟨k, run⟩ := exists_run_called (fun _ _ => "client") JoinsOther (fun _ => trivial) other
    addresses_twoNodes (inv_initial twoNodes links) (by decide) rfl (by decide)
  generalize hs : afterJoinCall _ _ _ _ = s at run
  have asleep : (s.node 0).health = .asleep := by
    rw [← hs]
    rfl
  have possible : ∀ m, CallOutcome.timedOut.Possible (fun _ _ => "client") s.replies (0 : Fin 2) m :=
    fun _ => trivial
  obtain ⟨labels, s', h⟩ := exists_run_pass (.ofFormat noFloats) (fun _ _ => "client") twoNodes
    asleep possible
  exact ⟨k, s, labels, s', run, h⟩

end Imq.Network
