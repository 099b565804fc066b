import Imq.Unlocked
import Imq.TurnNetwork
import Imq.Verified.NodeTraffic

/-! # Code that nothing comes in between

A thread that makes its accesses one after the other, while no other thread of its node
does anything, has done what the function it runs does in one piece.

* `run_nodeInCluster`, `run_addNode`, .. — the functions of the table;
* `run_bootstrapCall`, `run_bootstrapEnd` — a join;
* `run_workBody` — a request;
* `run_checkCall`, `run_awaitOutcome` — a health check.
-/

namespace Imq

open Lib (Thread insertByKey)
open Cluster IMQNode RPCServerWorkerPool

variable {α β : Type}

/-! ## Sequences -/

namespace Code

theorem run_bind (x : Code α) (f : α → Code β) :
    Code.run (x >>= f) = Code.run x >>= fun a => Code.run (f a) :=
  Thread.run_bind x f

theorem run_ofExcept (r : Except Exn α) : Code.run (.ofExcept r) = Cpp.ofExcept r := by
  funext p
  cases r <;> rfl

theorem run_bind_ok {x : Code α} {p q : Process} {a : α} (h : (Code.run x).run p = .ok a q)
    (f : α → Code β) : (Code.run (x >>= f)).run p = (Code.run (f a)).run q := by
  rw [run_bind, Cpp.run_bind_ok h]

theorem run_of_reaches {x : Code α} {result : Except Exn α} {p q : Process}
    (reaches : Thread.Reaches Access.perform x p (.ended result) q) :
    (Code.run x).run p = Thread.resultIn result q := reaches.run_of_ended

end Code

theorem Process.onCluster_bind (x : EStateM Exn Cluster α) (f : α → EStateM Exn Cluster β) :
    Process.onCluster (x >>= f) = Process.onCluster x >>= fun a => Process.onCluster (f a) := by
  funext p
  show p.withCluster ((x >>= f).run p.cluster) = (Process.onCluster x >>= _).run p
  cases h : x.run p.cluster with
  | ok a c =>
    rw [Cpp.run_bind_ok h, Cpp.run_bind_ok (run_onCluster_ok h)]
    rfl
  | error e c =>
    have hthrow : (Process.onCluster x).run p = .error e { p with cluster := c } := by
      show p.withCluster (x.run p.cluster) = _
      rw [h]
      rfl
    rw [Cpp.run_bind_error h, Cpp.run_bind_error hthrow]
    rfl

theorem Process.onCluster_ofExcept (r : Except Exn α) :
    Process.onCluster (Cpp.ofExcept r) = Cpp.ofExcept r := by
  funext p
  cases r <;> rfl

/-! ## The table -/

theorem run_getNodeClient_eq (node : HostAndPort) (p : Process) :
    (getNodeClient node).run p =
      if p.cluster.nodeInCluster node then
        .ok (p.rpcStore.getRPCClient node).1 { p with rpcStore := (p.rpcStore.getRPCClient node).2 }
      else .error (.logicError "Node not found.") p := by
  split
  next h => exact run_getNodeClient h
  next h => exact run_getNodeClient_of_absent (Bool.eq_false_iff.mpr h)

namespace Cluster.Unlocked

theorem run_readNode (i : Fin MAX_NUM_NODES) (p : Process) :
    (Code.run (readNode i)).run p = .ok (p.cluster.node i) p := rfl

theorem run_firstSlot (test : HostAndPort → Bool) (slots : List (Fin MAX_NUM_NODES)) (p : Process) :
    (Code.run (firstSlot test slots)).run p =
      .ok (slots.find? fun i => test (p.cluster.node i)) p := by
  induction slots with
  | nil => rfl
  | cons i rest ih =>
    rw [firstSlot, Code.run_bind_ok (run_readNode i p), List.find?_cons]
    cases test (p.cluster.node i) with
    | true => rfl
    | false => exact ih

theorem run_nodeInCluster (finding : HostAndPort) (p : Process) :
    (Code.run (nodeInCluster finding)).run p = .ok (p.cluster.nodeInCluster finding) p := by
  have hfound : ((List.finRange MAX_NUM_NODES).find? fun i => p.cluster.node i == finding).isSome =
      p.cluster.nodeInCluster finding := by
    rw [Bool.eq_iff_iff, List.find?_isSome, nodeInCluster_eq_true_iff]
    simp
  rw [nodeInCluster, Code.run_bind_ok (run_firstSlot ..), hfound]
  rfl

theorem run_addNode (node : HostAndPort) (p : Process) :
    (Code.run (addNode node)).run p = .ok () { p with cluster := p.cluster.addNode node } := by
  rw [addNode, Code.run_bind_ok (run_firstSlot ..)]
  unfold Cluster.addNode
  rw [Fin.find?_eq_find?_finRange]
  generalize (List.finRange MAX_NUM_NODES).find? _ = found
  cases found with
  | none => rfl
  | some i => rfl

theorem run_removeNode (toRemove : HostAndPort) (p : Process) :
    (Code.run (removeNode toRemove)).run p =
      .ok () { p with cluster := p.cluster.removeNode toRemove } := by
  rw [removeNode, Code.run_bind_ok (run_firstSlot ..)]
  unfold Cluster.removeNode
  rw [Fin.find?_eq_find?_finRange]
  generalize (List.finRange MAX_NUM_NODES).find? _ = found
  cases found with
  | none => rfl
  | some i => rfl

theorem run_listNodesWithIdx (slots : List (Fin MAX_NUM_NODES)) (p : Process) :
    (Code.run (listNodesWithIdx slots)).run p = .ok (slots.filterMap fun i =>
      if (p.cluster.node i).host ≠ "" then some (i, p.cluster.node i) else none) p := by
  induction slots with
  | nil => rfl
  | cons i rest ih =>
    rw [listNodesWithIdx, Code.run_bind_ok (run_readNode i p), Code.run_bind_ok ih,
      List.filterMap_cons]
    by_cases h : (p.cluster.node i).host ≠ ""
    · rw [if_pos h, if_pos h]
      rfl
    · rw [if_neg h, if_neg h]
      rfl

theorem run_getNodesWithIdxInCluster (p : Process) :
    (Code.run getNodesWithIdxInCluster).run p = .ok p.cluster.getNodesWithIdxInCluster p :=
  run_listNodesWithIdx _ p

theorem run_listNodes (slots : List (Fin MAX_NUM_NODES)) (p : Process) :
    (Code.run (listNodes slots)).run p = .ok (slots.filterMap fun i =>
      if (p.cluster.node i).host ≠ "" then some (p.cluster.node i) else none) p := by
  induction slots with
  | nil => rfl
  | cons i rest ih =>
    rw [listNodes, Code.run_bind_ok (run_readNode i p), List.filterMap_cons]
    by_cases h : (p.cluster.node i).host ≠ ""
    · rw [if_pos h, if_pos h, Code.run_bind_ok (run_readNode i p), Code.run_bind_ok ih]
      rfl
    · rw [if_neg h, if_neg h]
      exact ih

theorem run_getNodesInCluster (p : Process) :
    (Code.run getNodesInCluster).run p = .ok p.cluster.getNodesInCluster p :=
  run_listNodes _ p

/-! ## Joins -/

theorem run_getRPCClient (address : HostAndPort) (p : Process) :
    (Code.run (getRPCClient address)).run p =
      .ok (p.rpcStore.getRPCClient address).1
        { p with rpcStore := (p.rpcStore.getRPCClient address).2 } := by
  have hlookup : (Code.run (getRPCObject address)).run p =
      .ok (p.rpcStore.rpcObjects address) p := rfl
  rw [getRPCClient, Code.run_bind_ok hlookup]
  unfold RPCStore.getRPCClient RPCStore.getOrConstruct
  cases p.rpcStore.rpcObjects address with
  | some object => rfl
  | none => rfl

theorem run_getNodeClient (node : HostAndPort) :
    Code.run (getNodeClient node) = Cluster.getNodeClient node := by
  funext p
  show (Code.run (getNodeClient node)).run p = (Cluster.getNodeClient node).run p
  rw [getNodeClient, Code.run_bind_ok (run_nodeInCluster ..), run_getNodeClient_eq]
  cases p.cluster.nodeInCluster node with
  | true => exact run_getRPCClient node p
  | false => rfl

/-- The look-up of a client, and a call on it. -/
theorem run_getNodeClient_call (node : HostAndPort) (rpcCall : RPCCall Process) :
    Code.run (getNodeClient node >>= fun client => .ofExcept (RPCClient.call client rpcCall)) =
      Cluster.getNodeClient node >>= fun client =>
        Cpp.ofExcept (RPCClient.call client rpcCall) := by
  rw [Code.run_bind, run_getNodeClient]
  exact congrArg _ (funext fun client => Code.run_ofExcept _)

theorem run_bootstrapCall (requester leader : HostAndPort) :
    Code.run (bootstrapCall requester leader) = Cluster.bootstrapCall requester leader := by
  funext p
  show (Code.run (bootstrapCall requester leader)).run p =
    (Cluster.bootstrapCall requester leader).run p
  rw [bootstrapCall, Code.run_bind_ok (run_nodeInCluster ..), bootstrapCall_register,
    ← run_getNodeClient_call, Cluster.register]
  cases p.cluster.nodeInCluster leader with
  | true => rfl
  | false => exact Code.run_bind_ok (run_addNode leader p) _

theorem run_addNodeAt (idx : UInt32) (node : HostAndPort) :
    Code.run (addNodeAt idx node) =
      Process.onCluster (do set (← Cpp.ofExcept ((← get).addNodeAt idx node))) := by
  funext p
  unfold addNodeAt
  by_cases h : idx.toNat < MAX_NUM_NODES
  · have hwrite : p.cluster.addNodeAt idx node = .ok (p.cluster.setNode ⟨idx.toNat, h⟩ node) :=
      dif_pos h
    rw [dif_pos h]
    show _ = p.withCluster (EStateM.run (_ >>= _) p.cluster)
    rw [Cpp.run_bind_ok (EStateM.run_get ..), hwrite]
    rfl
  · have hthrow : p.cluster.addNodeAt idx node =
        .error (.undefined "nodes_[idx] outside the vector") := dif_neg h
    rw [dif_neg h]
    show _ = p.withCluster (EStateM.run (_ >>= _) p.cluster)
    rw [Cpp.run_bind_ok (EStateM.run_get ..), hthrow]
    rfl

theorem run_addAddresses (idx : UInt32) (addresses : List Json) :
    Code.run (addAddresses idx addresses) =
      Process.onCluster (Cluster.addAddresses idx addresses) := by
  induction addresses with
  | nil => rfl
  | cons address rest ih =>
    rw [addAddresses, Cluster.addAddresses, Process.onCluster_bind, Process.onCluster_ofExcept,
      Code.run_bind, Code.run_ofExcept]
    refine congrArg _ (funext fun nodeStr => ?_)
    rw [Process.onCluster_bind, Process.onCluster_ofExcept, Code.run_bind, Code.run_ofExcept]
    refine congrArg _ (funext fun node => ?_)
    rw [Code.run_bind, run_addNodeAt, ih, ← Process.onCluster_bind]
    simp only [bind_assoc]

theorem run_addMembers (members : List (Except Exn String × Json)) :
    Code.run (addMembers members) = Process.onCluster (Cluster.addMembers members) := by
  induction members with
  | nil => rfl
  | cons member rest ih =>
    obtain ⟨key, value⟩ := member
    rw [addMembers, Cluster.addMembers, Process.onCluster_bind, Process.onCluster_ofExcept,
      Code.run_bind, Code.run_ofExcept]
    refine congrArg _ (funext fun idx => ?_)
    rw [Process.onCluster_bind, Code.run_bind, run_addAddresses, ih]

theorem run_bootstrapEnd (text : JsonText) (rpcCall : RPCCall Process) (receipt : Receipt) :
    Code.run (bootstrapEnd text rpcCall receipt) = Cluster.bootstrapEnd text rpcCall receipt := by
  rw [bootstrapEnd, Cluster.bootstrapEnd, Code.run_bind, Code.run_ofExcept]
  refine congrArg _ (funext fun response => ?_)
  rw [bootstrapReply, Process.onCluster_bind, Process.onCluster_ofExcept, Code.run_bind,
    Code.run_ofExcept]
  exact congrArg _ (funext fun nodes => run_addMembers nodes.items)

end Cluster.Unlocked

/-! ## Requests -/

theorem messageToParts_of_registered {text : JsonText} {pool : RPCServerWorkerPool Process}
    {clientAddr rpc argsStr : String} {rest : Message}
    (h : Accepted (clientAddr :: rpc :: argsStr :: rest)) {f : RPCFunc Process} {args : Json}
    (hf : pool.rpcs.lookup rpc = some f) (hargs : text.parse argsStr = .ok args) :
    messageToParts text pool (clientAddr :: rpc :: argsStr :: rest) =
      .ok { valid := true, clientAddr := clientAddr, rpc := some f, args := args } := by
  rw [messageToParts_of_accepted h]
  simp only [Message.extract_cons, Cpp.ok_bind]
  rw [hf, hargs]
  rfl

theorem messageToParts_forms (text : JsonText) (pool : RPCServerWorkerPool Process)
    (message : Message) :
    (∃ e, messageToParts text pool message = .error e) ∨
      (∃ parts, parts.valid = false ∧ messageToParts text pool message = .ok parts) ∨
      ∃ clientAddr rpc argsStr rest f args, message = clientAddr :: rpc :: argsStr :: rest ∧
        pool.rpcs.lookup rpc = some f ∧ text.parse argsStr = .ok args ∧
        messageToParts text pool message =
          .ok { valid := true, clientAddr := clientAddr, rpc := some f, args := args } := by
  by_cases haccepted : Accepted message
  · have hparts := @messageToParts_of_accepted _ text pool _ haccepted
    match message, haccepted with
    | [], haccepted => exact absurd (.inl rfl) haccepted
    | [_], _ => exact .inl ⟨_, hparts⟩
    | [_, _], _ => exact .inl ⟨_, hparts⟩
    | clientAddr :: rpc :: argsStr :: rest, haccepted =>
      simp only [Message.extract_cons, Cpp.ok_bind] at hparts
      cases hf : pool.rpcs.lookup rpc with
      | none => exact .inr (.inl ⟨_, by rw [hf]; rfl, hparts⟩)
      | some f =>
        cases hargs : text.parse argsStr with
        | error e => exact .inr (.inl ⟨_, by rw [hargs]; exact Bool.and_false _, hparts⟩)
        | ok args =>
          exact .inr (.inr ⟨clientAddr, rpc, argsStr, rest, f, args, rfl, hf, hargs,
            messageToParts_of_registered haccepted hf hargs⟩)
  · exact .inr (.inl ⟨_, rfl, messageToParts_of_rejected (not_not.mp haccepted)⟩)

namespace IMQNode.Unlocked

open Cluster.Unlocked

/-- The guarded registration of the handler. -/
def register (requester : HostAndPort) : Code Unit := do
  if !(← nodeInCluster requester) then
    addNode requester

/-- The handler once the registration is done. -/
def reply : Code Json := do
  let nodes ← getNodesWithIdxInCluster
  let ret ← .ofExcept (Json.null.set "nodes" .null)
  let nodesPart ← .ofExcept (encodeNodes nodes)
  .ofExcept (ret.set "nodes" nodesPart)

/-- The handler only reads, or it registers a node first, or it throws at once. -/
theorem getNodesInCluster_forms (args : Json) :
    (args.constAt "register_node").bind Json.getBool = .ok false ∧
        getNodesInCluster args = reply ∨
      (∃ requester, registration args = some requester ∧
        getNodesInCluster args = register requester >>= fun _ => reply) ∨
      ∃ e, getNodesInCluster args = .ended (.error e) ∧
        ∀ c, (IMQNode.getNodesInCluster args).run c = .error e c := by
  unfold getNodesInCluster IMQNode.getNodesInCluster registration
  generalize (args.constAt "register_node").bind Json.getBool = flag
  generalize (args.constAt "host").bind Json.getString = host
  generalize (args.constAt "port").bind Json.getUnsigned = port
  match flag, host, port with
  | .error e, _, _ => exact .inr (.inr ⟨e, rfl, fun _ => rfl⟩)
  | .ok false, _, _ => exact .inl ⟨rfl, rfl⟩
  | .ok true, .error e, _ => exact .inr (.inr ⟨e, rfl, fun _ => rfl⟩)
  | .ok true, .ok _, .error e => exact .inr (.inr ⟨e, rfl, fun _ => rfl⟩)
  | .ok true, .ok host, .ok port =>
    refine .inr (.inl ⟨⟨host, port⟩, rfl, ?_⟩)
    rw [register, bind_assoc]
    show nodeInCluster _ >>= _ = nodeInCluster _ >>= _
    refine congrArg _ (funext fun found => ?_)
    cases found <;> rfl

theorem reply_of_nodes (t : Cluster) :
    (do
      let ret ← .ofExcept (Json.null.set "nodes" .null)
      let nodesPart ← .ofExcept (encodeNodes t.getNodesWithIdxInCluster)
      .ofExcept (ret.set "nodes" nodesPart) : Code Json) = .ended (.ok t.replyOf) := by
  have hset : (Json.object [("nodes", .null)]).set "nodes" t.nodesJson = .ok t.replyOf := by
    simp [Json.set, Json.updateAt, Json.insertMember, insertByKey, Except.map, replyOf]
  rw [encodeNodes_eq]
  show Thread.ofExcept ((Json.object [("nodes", .null)]).set "nodes" t.nodesJson) = _
  rw [hset]
  rfl

theorem run_register (requester : HostAndPort) (p : Process) :
    (Code.run (register requester)).run p =
      .ok () { p with cluster := p.cluster.register requester } := by
  rw [register, Code.run_bind_ok (run_nodeInCluster ..), Cluster.register]
  cases p.cluster.nodeInCluster requester with
  | true => rfl
  | false => exact run_addNode requester p

theorem run_reply (p : Process) : (Code.run reply).run p = .ok p.cluster.replyOf p := by
  rw [reply, Code.run_bind_ok (run_getNodesWithIdxInCluster p), reply_of_nodes]
  rfl

theorem run_getNodesInCluster (args : Json) :
    Code.run (getNodesInCluster args) = Process.onCluster (IMQNode.getNodesInCluster args) := by
  funext p
  show (Code.run (getNodesInCluster args)).run p =
    p.withCluster ((IMQNode.getNodesInCluster args).run p.cluster)
  obtain ⟨reads, hcode⟩ | ⟨requester, hreg, hcode⟩ | ⟨e, hcode, hthrows⟩ :=
    getNodesInCluster_forms args
  · rw [hcode, run_getNodesInCluster_of_read reads, run_reply]
    rfl
  · rw [hcode, run_getNodesInCluster_of_registration hreg, Code.run_bind_ok (run_register ..),
      run_reply]
    rfl
  · rw [hcode, hthrows]
    rfl

/-- The functions that a node offers, and the code of their accesses. -/
theorem lookup_rpcs (rpc : String) {f : RPCFunc Process} (h : workerPool.rpcs.lookup rpc = some f) :
    ∃ code, rpcs.lookup rpc = some code ∧ ∀ args, Code.run (code args) = f args := by
  rw [workerPool, lookup_ofRegistrations, IMQNode.rpcs, List.lookup_cons, List.lookup_cons] at h
  rw [rpcs, List.lookup_cons, List.lookup_cons]
  split at h
  next =>
    cases h
    exact ⟨_, rfl, run_getNodesInCluster⟩
  next =>
    split at h
    next =>
      cases h
      exact ⟨_, rfl, fun args => rfl⟩
    next => cases h

theorem workBody_of_parts {text : JsonText} {message : Message} {clientAddr rpc : String}
    {rest : Message} {f : RPCFunc Process} {args : Json} (hmessage : message = clientAddr :: rpc :: rest)
    (hparts : messageToParts text workerPool message =
      .ok { valid := true, clientAddr := clientAddr, rpc := some f, args := args }) :
    workBody text message = (do
      let result ← performRPC rpc args
      return some (constructMessage text clientAddr result)) := by
  rw [workBody, hparts, hmessage]
  rfl

theorem run_workBody (text : JsonText) (message : Message) :
    Code.run (workBody text message) =
      RPCServerWorkerPool.workBody text workerPool (some message) := by
  obtain ⟨e, h⟩ | ⟨parts, hvalid, h⟩ | ⟨clientAddr, rpc, argsStr, rest, f, args, rfl, hf, _, h⟩ :=
    messageToParts_forms text workerPool message
  · rw [workBody, workBody_some, h]
    rfl
  · rw [workBody, workBody_some, h]
    show Code.run (if parts.valid then _ else _) = if parts.valid then _ else _
    rw [hvalid]
    rfl
  · obtain ⟨code, hcode, hrun⟩ := lookup_rpcs rpc hf
    rw [workBody_of_parts rfl h, workBody_some, h, performRPC, hcode, Code.run_bind, hrun]
    rfl

end IMQNode.Unlocked

/-! ## Health checks -/

namespace Health.Unlocked

open Cluster.Unlocked

theorem run_checkCall (node : HostAndPort) :
    Code.run (checkCall node) = Health.checkCall node :=
  run_getNodeClient_call node healthCall

theorem run_isPotentiallyFailing (node : HostAndPort) :
    Code.run (isPotentiallyFailing node) = Health.isPotentiallyFailing node := rfl

/-- A number that is there is only read. -/
theorem perform_numRetries_of_some {node : HostAndPort} {p : Process} {retries : Int32}
    (h : p.potentiallyFailing node = some retries) :
    (Access.numRetries node).perform p = (retries, p) := by
  have hsame : Function.update p.potentiallyFailing node (some retries) = p.potentiallyFailing :=
    Function.update_eq_self_iff.mpr h.symm
  simp only [Access.perform, Access.setNumRetries, h, Option.getD_some, hsame]

theorem run_getNumberOfRetriesForNode (node : HostAndPort) :
    Code.run (getNumberOfRetriesForNode node) = Health.getNumberOfRetriesForNode node := by
  funext p
  rw [getNumberOfRetriesForNode, Code.run_bind, run_isPotentiallyFailing]
  show Code.run (if (p.potentiallyFailing node).isSome = true then _ else _) p =
    (if (p.potentiallyFailing node).isSome = true then _ else _ : EStateM Exn Process UInt32) p
  cases hretries : p.potentiallyFailing node with
  | none => rfl
  | some retries =>
    -- The number is there, so that nothing is put in.
    have hrun : (Code.run (numRetries node)).run p = .ok retries p :=
      congrArg (fun r : Int32 × Process => EStateM.Result.ok r.1 r.2)
        (perform_numRetries_of_some hretries)
    refine (Code.run_bind_ok hrun _).trans ?_
    show EStateM.Result.ok _ p = EStateM.Result.ok _ p
    rw [hretries]
    rfl

theorem run_removeNodeFromCluster (node : HostAndPort) :
    Code.run (removeNodeFromCluster node) = Health.removeNodeFromCluster node :=
  funext fun p => Code.run_bind_ok (run_removeNode node p) _

theorem run_healthyNodeCallback (response : Json) :
    Code.run (healthyNodeCallback response) = Health.healthyNodeCallback response := by
  rw [healthyNodeCallback, Health.healthyNodeCallback, Code.run_bind, Code.run_ofExcept]
  refine congrArg _ (funext fun callee => ?_)
  rw [Code.run_bind, run_isPotentiallyFailing]
  exact congrArg _ (funext fun failing => by cases failing <;> rfl)

theorem run_timedoutNodeCallback (response : Json) :
    Code.run (timedoutNodeCallback response) = Health.timedoutNodeCallback response := by
  rw [timedoutNodeCallback, Health.timedoutNodeCallback, Code.run_bind, Code.run_ofExcept]
  refine congrArg _ (funext fun callee => ?_)
  rw [Code.run_bind, run_isPotentiallyFailing]
  refine congrArg _ (funext fun failing => ?_)
  cases failing with
  | false => rfl
  | true =>
    simp only [if_true]
    rw [Code.run_bind, run_getNumberOfRetriesForNode]
    refine congrArg _ (funext fun retries => ?_)
    split
    · exact run_removeNodeFromCluster callee
    · rfl

/-- The thread of a response goes on without what the callback was given. -/
theorem run_awaitOutcome (text : JsonText) (callee : HostAndPort) (outcome : CallOutcome) :
    Code.run (awaitOutcome text callee outcome) =
      Health.awaitOutcome text (callTo callee) outcome >>= fun _ => pure () := by
  cases outcome with
  | answered message =>
    show _ = (Cpp.ofExcept (RPCResponse.parsedResponse text (callTo callee) message) >>= _) >>= _
    rw [awaitOutcome, Code.run_bind, Code.run_ofExcept, bind_assoc]
    refine congrArg _ (funext fun parsed => ?_)
    rw [run_healthyNodeCallback]
    simp
  | timedOut =>
    show _ = (Cpp.ofExcept (RPCResponse.addResponseMetadata (callTo callee)
      TimeoutException.asJson) >>= _) >>= _
    rw [awaitOutcome, Code.run_bind, Code.run_ofExcept, bind_assoc]
    refine congrArg _ (funext fun error => ?_)
    rw [run_timedoutNodeCallback]
    simp
  | neither => rfl

end Health.Unlocked

end Imq
