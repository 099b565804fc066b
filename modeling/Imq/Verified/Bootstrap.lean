import Imq.RPC.ServerWorkerPool
import Imq.Verified.Store
import Imq.Verified.Wire

/-! # What `Bootstrap` does to the table

`Bootstrap` registers the leader in its own table and then writes the entries of
the reply, up to the first that does not decode.  Answered by the handler of a
node with table `t`, it lays the nodes of `t` over its own.

* `stateOf_bootstrap_any`, `failed_join_table` — the table that is left,
  whatever comes back on the call;
* `Cluster.joined` — the table that is left, whether or not `Bootstrap` throws;
* `cluster_bootstrap` — that this is so;
* `fresh_join_eq_iff` — when a new node ends up with a copy of the leader's
  table.
-/

namespace Imq

open Lib

/-! ## The call -/

namespace Cluster

/-- The node is not listed and finds no free slot. -/
def NoRoomFor (c : Cluster) (n : HostAndPort) : Prop := c.nodeInCluster n = false ∧ c.view.Full

instance (c : Cluster) (n : HostAndPort) : Decidable (c.NoRoomFor n) :=
  inferInstanceAs (Decidable (_ ∧ ∀ i, c.view i ≠ none))

theorem register_of_noRoomFor {c : Cluster} {n : HostAndPort} (h : c.NoRoomFor n) :
    c.register n = c := by
  unfold register
  rw [h.1, if_neg (by decide)]
  exact addNode_of_full h.2 n

theorem nodeInCluster_register {c : Cluster} {n : HostAndPort} (h : ¬ c.NoRoomFor n) :
    (c.register n).nodeInCluster n = true := by
  unfold register
  split
  next hn => exact hn
  next hn =>
    have hfree : ¬ c.view.Full := fun hfull => h ⟨Bool.eq_false_iff.mpr hn, hfull⟩
    cases hf : c.view.firstFree with
    | none => exact absurd (Slots.firstFree_eq_none_iff.mp hf) hfree
    | some i =>
      rw [addNode_of_firstFree hf, nodeInCluster_eq_true_iff]
      exact ⟨i, node_setNode_self c i n⟩

/-- The call of `Bootstrap`, with its callee. -/
def getNodesCall (requester leader : HostAndPort) : RPCCall Process where
  rpc := "GetNodesInCluster"
  args := registerArgs requester
  calleeInfo := leader

theorem run_getNodeClient_of_absent {p : Process} {n : HostAndPort}
    (h : p.cluster.nodeInCluster n = false) :
    (getNodeClient n).run p = .error (.logicError "Node not found.") p := by
  unfold getNodeClient
  rw [Cpp.run_bind_ok (EStateM.run_get ..), h, if_pos (by decide)]
  exact Cpp.run_bind_error rfl _

theorem run_getNodeClient {p : Process} {n : HostAndPort} (h : p.cluster.nodeInCluster n = true) :
    (getNodeClient n).run p = .ok (p.rpcStore.getRPCClient n).1
      { p with rpcStore := (p.rpcStore.getRPCClient n).2 } := by
  unfold getNodeClient
  rw [Cpp.run_bind_ok (EStateM.run_get ..), h, if_neg (by decide)]
  rfl

theorem bootstrapCall_register (requester leader : HostAndPort) (p : Process) :
    (bootstrapCall requester leader).run p = (do
      let node ← getNodeClient leader
      Cpp.ofExcept (RPCClient.call node
        { rpc := "GetNodesInCluster", args := registerArgs requester }) :
          EStateM Exn Process (RPCCall Process)).run
        { p with cluster := p.cluster.register leader } := by
  unfold bootstrapCall
  rw [Cpp.run_bind_ok (EStateM.run_get ..)]
  -- The guarded `AddNode` comes before the look-up of the leader's client.
  by_cases hl : p.cluster.nodeInCluster leader = true
  · have hreg : p.cluster.register leader = p.cluster := if_pos hl
    rw [if_neg (by simp [hl]), hreg]
  · have hreg : p.cluster.register leader = p.cluster.addNode leader := if_neg hl
    rw [if_pos (by simp [hl]), Cpp.run_bind_ok (EStateM.run_set ..), hreg]

theorem run_bootstrapCall_of_noRoomFor {p : Process} {leader : HostAndPort}
    (h : p.cluster.NoRoomFor leader) (requester : HostAndPort) :
    (bootstrapCall requester leader).run p = .error (.logicError "Node not found.") p := by
  rw [bootstrapCall_register, register_of_noRoomFor h]
  exact Cpp.run_bind_error (run_getNodeClient_of_absent h.1) _

theorem run_bootstrapCall {p : Process} {self leader : HostAndPort}
    (hstore : p.rpcStore.ServersOnlyAt self) (hne : leader ≠ self)
    (h : ¬ p.cluster.NoRoomFor leader) (requester : HostAndPort) :
    (bootstrapCall requester leader).run p = .ok (getNodesCall requester leader)
      { p with
        cluster := p.cluster.register leader
        rpcStore := (p.rpcStore.getRPCClient leader).2 } := by
  rw [bootstrapCall_register, Cpp.run_bind_ok (run_getNodeClient (nodeInCluster_register h)),
    RPCStore.call_getRPCClient hstore hne]
  rfl

/-! ## The whole of `Bootstrap` -/

/-- The table that `Bootstrap` leaves when a node with table `t` answers. -/
def joined (c : Cluster) (requester leader : HostAndPort) (t : Cluster) : Cluster :=
  if c.NoRoomFor leader then c else (c.register leader).overwrite (t.register requester).written

end Cluster

open Cluster IMQNode

theorem run_onCluster_ok {α : Type} {x : EStateM Exn Cluster α} {p : Process} {a : α} {c : Cluster}
    (h : x.run p.cluster = .ok a c) :
    (Process.onCluster x).run p = .ok a { p with cluster := c } := by
  show p.withCluster (x.run p.cluster) = _
  rw [h]
  rfl

theorem cluster_stateOf_onCluster {α : Type} (x : EStateM Exn Cluster α) (p : Process) :
    (Cpp.stateOf ((Process.onCluster x).run p)) =
      { p with cluster := Cpp.stateOf (x.run p.cluster) } := by
  show Cpp.stateOf (p.withCluster (x.run p.cluster)) = _
  cases x.run p.cluster <;> rfl

/-- The writes that the loops of `Bootstrap` make of what `Get` returned, up to
    the exception that `Get` or a step of theirs throws. -/
def entriesOf (response : Except Exn Json) : List (Except Exn (Fin MAX_NUM_NODES × HostAndPort)) :=
  match response.bind (·.elementAt "nodes") with
  | .ok nodes => nodes.items.flatMap readMember
  | .error e => [.error e]

theorem run_bootstrapReply_any (response : Except Exn Json) (c : Cluster) :
    (do bootstrapReply (← Cpp.ofExcept response)).run c =
      endedBy (upToError (entriesOf response)).2 (c.writeNodes (upToError (entriesOf response)).1) := by
  cases response with
  | error e => exact Cpp.run_bind_error (Cpp.run_ofExcept_error e c) _
  | ok response =>
    rw [Cpp.run_bind_ok (Cpp.run_ofExcept_ok response c), bootstrapReply]
    have hentries : entriesOf (.ok response) = match response.elementAt "nodes" with
      | .ok nodes => nodes.items.flatMap readMember
      | .error e => [.error e] := rfl
    cases hnodes : response.elementAt "nodes" with
    | error e =>
      rw [hentries, hnodes]
      exact Cpp.run_bind_error (Cpp.run_ofExcept_error e c) _
    | ok nodes =>
      rw [hentries, hnodes, Cpp.run_bind_ok (Cpp.run_ofExcept_ok nodes c)]
      exact run_addMembers_any nodes.items c

/-- What comes back on the call that `Bootstrap` makes of its leader. -/
def received (p : Process) (requester leader : HostAndPort)
    (answer : RPCCall Process → Except Exn Json) : Except Exn Json :=
  (RPCClient.call (p.rpcStore.getRPCClient leader).1
    { rpc := "GetNodesInCluster", args := registerArgs requester }).bind answer

/-- Whoever answers, and whatever: the leader is registered, and then the entries
    received are written, up to the first that does not decode. -/
theorem stateOf_bootstrap_any (requester leader : HostAndPort)
    (answer : RPCCall Process → Except Exn Json) (p : Process) :
    Cpp.stateOf ((bootstrap requester leader answer).run p) =
      if p.cluster.NoRoomFor leader then p
      else { p with
        cluster := (p.cluster.register leader).writeNodes
          (upToError (entriesOf (received p requester leader answer))).1
        rpcStore := (p.rpcStore.getRPCClient leader).2 } := by
  unfold bootstrap
  by_cases hroom : p.cluster.NoRoomFor leader
  · rw [Cpp.run_bind_error (run_bootstrapCall_of_noRoomFor hroom requester), if_pos hroom]
    rfl
  · rw [if_neg hroom, EStateM.run_bind, bootstrapCall_register,
      Cpp.run_bind_ok (run_getNodeClient (nodeInCluster_register hroom))]
    unfold received
    cases RPCClient.call (p.rpcStore.getRPCClient leader).1
      ({ rpc := "GetNodesInCluster", args := registerArgs requester } : RPCCall Process) with
    | error e => rfl
    | ok rpcCall =>
      -- From here on only the table changes.
      have hreply := run_bootstrapReply_any (answer rpcCall) (p.cluster.register leader)
      rw [Cpp.run_ofExcept_ok]
      show Cpp.stateOf ((do
        let response ← Cpp.ofExcept (answer rpcCall)
        Process.onCluster (bootstrapReply response)).run _) = ({ p with
          cluster := (p.cluster.register leader).writeNodes
            (upToError (entriesOf (answer rpcCall))).1
          rpcStore := (p.rpcStore.getRPCClient leader).2 } : Process)
      cases hanswer : answer rpcCall with
      | error e => rw [Cpp.run_bind_error (Cpp.run_ofExcept_error e _)]; rfl
      | ok response =>
        rw [hanswer, Cpp.run_bind_ok (Cpp.run_ofExcept_ok response _)] at hreply
        have htable := congrArg Cpp.stateOf hreply
        rw [stateOf_endedBy] at htable
        rw [Cpp.run_bind_ok (Cpp.run_ofExcept_ok response _), cluster_stateOf_onCluster]
        exact congrArg (fun c => ({ p with
          cluster := c
          rpcStore := (p.rpcStore.getRPCClient leader).2 } : Process)) htable

/-- Whoever answers, and whatever, the store gains at most the leader's client. -/
theorem rpcStore_bootstrap (requester leader : HostAndPort)
    (answer : RPCCall Process → Except Exn Json) (p : Process) :
    (Cpp.stateOf ((bootstrap requester leader answer).run p)).rpcStore =
      if p.cluster.NoRoomFor leader then p.rpcStore else (p.rpcStore.getRPCClient leader).2 := by
  rw [stateOf_bootstrap_any]
  split <;> rfl

theorem cluster_bootstrap (requester leader : HostAndPort)
    (answer : RPCCall Process → Except Exn Json) (p : Process) :
    (Cpp.stateOf ((bootstrap requester leader answer).run p)).cluster =
      if p.cluster.NoRoomFor leader then p.cluster
      else (p.cluster.register leader).writeNodes
        (upToError (entriesOf (received p requester leader answer))).1 := by
  rw [stateOf_bootstrap_any]
  split <;> rfl

theorem answeredBy_getNodesCall (requester leader : HostAndPort) (t : Cluster) :
    ∃ response, answeredBy t (getNodesCall requester leader) = .ok response ∧
      response.constAt "nodes" = .ok (t.register requester).nodesJson := by
  obtain ⟨response, hmeta, hnodes⟩ :=
    addResponseMetadata_replyOf (getNodesCall requester leader) (t.register requester)
  refine ⟨response, ?_, hnodes⟩
  have hargs : (getNodesCall requester leader).args = registerArgs requester := rfl
  unfold answeredBy
  rw [hargs, run_getNodesInCluster_register]
  exact hmeta

section

variable {p : Process} {self leader : HostAndPort} (hstore : p.rpcStore.ServersOnlyAt self)
  (hne : leader ≠ self)

include hstore hne

theorem upToError_received_answeredBy (requester : HostAndPort) (t : Cluster) :
    upToError (entriesOf (received p requester leader (answeredBy t))) =
      decodeEntries (t.register requester).sentEntries := by
  obtain ⟨response, hanswer, hnodes⟩ := answeredBy_getNodesCall requester leader t
  have hcall := RPCStore.call_getRPCClient hstore hne
    ({ rpc := "GetNodesInCluster", args := registerArgs requester } : RPCCall Process)
  have hreceived : received p requester leader (answeredBy t) = .ok response := by
    unfold received
    rw [hcall]
    exact hanswer
  have hentries : entriesOf (.ok response) = (t.register requester).nodesJson.items.flatMap readMember := by
    have hat : (Except.ok response : Except Exn Json).bind (·.elementAt "nodes") =
        .ok (t.register requester).nodesJson := Json.elementAt_of_constAt hnodes
    simp only [entriesOf, hat]
  rw [hreceived, hentries, items_nodesJson, upToError_sent]

theorem stateOf_bootstrap (requester : HostAndPort) (t : Cluster) :
    Cpp.stateOf ((bootstrap requester leader (answeredBy t)).run p) =
      { p with
        cluster := p.cluster.joined requester leader t
        rpcStore := if p.cluster.NoRoomFor leader then p.rpcStore
          else (p.rpcStore.getRPCClient leader).2 } := by
  rw [stateOf_bootstrap_any, upToError_received_answeredBy hstore hne, writeNodes_sentEntries, joined]
  split <;> rfl

theorem run_bootstrap_of_sendable {requester : HostAndPort} {t : Cluster}
    (hroom : ¬ p.cluster.NoRoomFor leader) (hsend : (t.register requester).Sendable) :
    (bootstrap requester leader (answeredBy t)).run p = .ok ()
      { p with
        cluster := (p.cluster.register leader).overwrite (t.register requester).view
        rpcStore := (p.rpcStore.getRPCClient leader).2 } := by
  obtain ⟨response, hanswer, hnodes⟩ := answeredBy_getNodesCall requester leader t
  unfold bootstrap
  rw [Cpp.run_bind_ok (run_bootstrapCall hstore hne hroom requester), hanswer,
    Cpp.run_bind_ok (Cpp.run_ofExcept_ok _ _)]
  exact run_onCluster_ok (run_bootstrapReply_of_sendable hsend hnodes _)

end

/-! ## Failed joins -/

theorem entriesOf_timedOut (text : JsonText) {rpcCall : RPCCall Process}
    (sync : rpcCall.async = false) :
    entriesOf (RPCResponse.get text rpcCall .timedOut) = [] := by
  rw [RPCResponse.get, sync, if_neg (by decide)]
  rfl

/-- The error object of a worker, completed with the callee, has no entries. -/
theorem entriesOf_errorResult {text : JsonText} {rpcCall : RPCCall Process} {frame : String}
    {rest : Message} (sync : rpcCall.async = false)
    (h : text.parse frame = .ok RPCServerWorkerPool.errorResult) :
    entriesOf (RPCResponse.get text rpcCall (.received (frame :: rest))) = [] := by
  have hnone : [("error", Json.number 1)].lookup "callee_info" = none := by
    simp
  rw [RPCResponse.get_received sync h, RPCServerWorkerPool.errorResult,
    RPCResponse.addResponseMetadata_object rpcCall hnone]
  have hlookup : (Json.insertMember "callee_info" (calleeInfoJson rpcCall.calleeInfo)
      [("error", .number 1)]).lookup "nodes" = none := by
    rw [Json.lookup_insertMember_of_ne (by decide)]
    simp
  show (Json.items (Option.getD _ .null)).flatMap readMember = []
  rw [hlookup]
  rfl

/-- A call that is made names the client's address, and is otherwise as it was. -/
theorem call_eq_ok {σ : Type} {client : RPCObject} {rpcCall called : RPCCall σ}
    (h : RPCClient.call client rpcCall = .ok called) :
    called = { rpcCall with calleeInfo := client.hostAndPort } := by
  unfold RPCClient.call at h
  split at h
  · cases h
    rfl
  · cases h

/-- Without an entry in what comes back, only the leader is added. -/
theorem cluster_bootstrap_of_nil {requester leader : HostAndPort}
    {answer : RPCCall Process → Except Exn Json}
    (h : ∀ rpcCall : RPCCall Process, rpcCall.async = false → entriesOf (answer rpcCall) = [])
    (p : Process) :
    (Cpp.stateOf ((bootstrap requester leader answer).run p)).cluster =
      p.cluster.register leader := by
  rw [cluster_bootstrap]
  split
  next hroom => exact (register_of_noRoomFor hroom).symm
  next =>
    have hnil : (upToError (entriesOf (received p requester leader answer))).1 = [] := by
      unfold received
      cases hcall : RPCClient.call (p.rpcStore.getRPCClient leader).1
        ({ rpc := "GetNodesInCluster", args := registerArgs requester } : RPCCall Process) with
      | error e => rfl
      | ok rpcCall =>
        have hsync : rpcCall.async = false := by
          rw [call_eq_ok hcall]
        exact congrArg (fun entries => (upToError entries).1) (h rpcCall hsync)
    rw [hnil]
    rfl

/-- A join that fails still registers the leader, and leaves what it has
    written: nothing else if the call times out or the worker's error object
    comes back, and otherwise the entries before the first key or address on
    which decoding throws. -/
theorem failed_join_table (text : JsonText) (requester leader : HostAndPort) (p : Process) :
    (Cpp.stateOf ((bootstrap requester leader fun rpcCall =>
        RPCResponse.get text rpcCall .timedOut).run p)).cluster = p.cluster.register leader ∧
    (∀ frame rest, text.parse frame = .ok RPCServerWorkerPool.errorResult →
      (Cpp.stateOf ((bootstrap requester leader fun rpcCall =>
        RPCResponse.get text rpcCall (.received (frame :: rest))).run p)).cluster =
          p.cluster.register leader) ∧
    (∀ answer decoded e rest,
      entriesOf (received p requester leader answer) = decoded.map .ok ++ .error e :: rest →
      (Cpp.stateOf ((bootstrap requester leader answer).run p)).cluster =
        if p.cluster.NoRoomFor leader then p.cluster
        else (p.cluster.register leader).writeNodes decoded) := by
  have htimeout : ∀ rpcCall : RPCCall Process, rpcCall.async = false →
      entriesOf (RPCResponse.get text rpcCall .timedOut) = [] := fun _ => entriesOf_timedOut text
  refine ⟨cluster_bootstrap_of_nil htimeout p, fun frame rest hparse => ?_,
    fun answer decoded e rest hentries => ?_⟩
  · have herror : ∀ rpcCall : RPCCall Process, rpcCall.async = false →
        entriesOf (RPCResponse.get text rpcCall (.received (frame :: rest))) = [] :=
      fun _ sync => entriesOf_errorResult sync hparse
    exact cluster_bootstrap_of_nil herror p
  · rw [cluster_bootstrap, hentries, upToError_append_error]

/-- A new node whose leader does not answer lists the leader all the same. -/
theorem timedOut_join_adds_leader :
    (Cpp.stateOf ((bootstrap ⟨"r", 1⟩ ⟨"l", 2⟩ fun rpcCall =>
        RPCResponse.get healthText rpcCall .timedOut).run
      (IMQNode.new ⟨"r", 1⟩ (Process.initial ⟨"r", 1⟩)))).cluster ≠
      (IMQNode.new ⟨"r", 1⟩ (Process.initial ⟨"r", 1⟩)).cluster := by
  have htimeout : ∀ rpcCall : RPCCall Process, rpcCall.async = false →
      entriesOf (RPCResponse.get healthText rpcCall .timedOut) = [] :=
    fun _ => entriesOf_timedOut healthText
  rw [cluster_bootstrap_of_nil htimeout]
  decide

/-! ## Joining with a new node -/

namespace Cluster

theorem view_addNode_new {n : HostAndPort} (hn : n.host ≠ "") :
    (new.addNode n).view = Slots.ofList [n] := by
  have hnew : new.view = Slots.ofList [] := by
    rw [view_new]
    rfl
  rw [view_addNode _ hn, hnew]
  exact Slots.insert_ofList (by simp [MAX_NUM_NODES]) n

theorem view_fresh_register {R L : HostAndPort} (hR : R.host ≠ "") (hL : L.host ≠ "")
    (hne : L ≠ R) : ((new.addNode R).register L).view = Slots.ofList [R, L] := by
  have habsent : ¬ (new.addNode R).view.Holds L := by
    rw [view_addNode_new hR, Slots.holds_ofList (by simp [MAX_NUM_NODES]), List.mem_singleton]
    exact hne
  rw [view_register _ hL, Slots.register_of_not_holds habsent, view_addNode_new hR]
  exact Slots.insert_ofList (by simp [MAX_NUM_NODES]) L

theorem hasRoom_fresh {R L : HostAndPort} (hR : R.host ≠ "") (hL : L.host ≠ "") (hne : L ≠ R) :
    ¬ (new.addNode R).NoRoomFor L := by
  intro h
  have hview := view_fresh_register hR hL hne
  rw [register_of_noRoomFor h] at hview
  -- Slot 2 is free in a table of two.
  have h2 : (new.addNode R).view 2 = none := by
    rw [hview]
    rfl
  exact h.2 2 h2

/-- Registering fills the two lowest slots exactly if one of them was empty at
    most, or none if the node is listed already. -/
theorem lowest_two_register {c : Cluster} {n : HostAndPort} (hn : n.host ≠ "") :
    ((c.register n).view 0 ≠ none ∧ (c.register n).view 1 ≠ none) ↔
      if c.view.Holds n then c.view 0 ≠ none ∧ c.view 1 ≠ none
      else c.view 0 ≠ none ∨ c.view 1 ≠ none := by
  rw [view_register c hn]
  by_cases hold : c.view.Holds n
  · rw [Slots.register_of_holds hold, if_pos hold]
  · rw [Slots.register_of_not_holds hold, if_neg hold]
    constructor
    · intro ⟨h0, h1⟩
      -- Both slots cannot be the one that the node has gone into.
      obtain ⟨a, ha⟩ := Option.ne_none_iff_exists'.mp h0
      obtain ⟨b, hb⟩ := Option.ne_none_iff_exists'.mp h1
      obtain ha | ⟨hf, _⟩ := Slots.insert_apply_inv ha
      · exact .inl (by simp [ha])
      · obtain hb | ⟨hf', _⟩ := Slots.insert_apply_inv hb
        · exact .inr (by simp [hb])
        · rw [hf] at hf'
          cases hf'
    · intro h
      have hslot : ∀ i, c.view i ≠ none → c.view.insert n i ≠ none := by
        intro i hi
        obtain ⟨a, ha⟩ := Option.ne_none_iff_exists'.mp hi
        rw [Slots.insert_apply_of_some ha]
        exact Option.some_ne_none a
      have hfill : ∀ i, c.view i = none → (∀ j < i, c.view j ≠ none) → c.view.insert n i ≠ none := by
        intro i hi hlow
        rw [Slots.insert_of_firstFree (Slots.firstFree_eq_some_iff.mpr ⟨hi, hlow⟩),
          Function.update_self]
        exact Option.some_ne_none n
      by_cases h0 : c.view 0 = none
      · have h1 : c.view 1 ≠ none := h.resolve_left (not_not.mpr h0)
        exact ⟨hfill 0 h0 fun j hj => absurd hj (Fin.not_lt_zero j), hslot 1 h1⟩
      · refine ⟨hslot 0 h0, ?_⟩
        by_cases h1 : c.view 1 = none
        · refine hfill 1 h1 fun j hj => ?_
          have hlt : j.val < 1 := hj
          have hj0 : j = 0 := Fin.ext (Nat.lt_one_iff.mp hlt)
          exact hj0 ▸ h0
        · exact hslot 1 h1

/-- A table laid over that of a new node is copied exactly if its two lowest
    slots are occupied. -/
theorem overlay_fresh_eq_iff {R L : HostAndPort} (t : Slots MAX_NUM_NODES HostAndPort) :
    (Slots.ofList [R, L]).patch t.toPatch = t ↔ t 0 ≠ none ∧ t 1 ≠ none := by
  rw [Slots.patch_toPatch_eq_iff]
  constructor
  · intro h
    exact ⟨fun h0 => absurd (h 0 h0) (by simp [Slots.ofList]),
      fun h1 => absurd (h 1 h1) (by simp [Slots.ofList])⟩
  · intro ⟨h0, h1⟩ i hi
    -- A slot that is empty in `t` is neither of the two.
    have hge : 2 ≤ i.val := by
      by_contra hlt
      have hi01 : i.val = 0 ∨ i.val = 1 := by omega
      obtain h | h := hi01
      · have hi0 : i = 0 := Fin.ext h
        exact h0 (hi0 ▸ hi)
      · have hi1 : i = 1 := Fin.ext h
        exact h1 (hi1 ▸ hi)
    rw [Slots.ofList_apply]
    exact List.getElem?_eq_none hge

/-- One of the two lowest slots may be left for the node to register. -/
def FillsLowestTwo (c : Cluster) (n : HostAndPort) : Prop :=
  if c.nodeInCluster n then (c.node 0).host ≠ "" ∧ (c.node 1).host ≠ ""
  else (c.node 0).host ≠ "" ∨ (c.node 1).host ≠ ""

instance (c : Cluster) (n : HostAndPort) : Decidable (c.FillsLowestTwo n) :=
  inferInstanceAs (Decidable (if c.nodeInCluster n then (c.node 0).host ≠ "" ∧ (c.node 1).host ≠ ""
    else (c.node 0).host ≠ "" ∨ (c.node 1).host ≠ ""))

theorem fillsLowestTwo_iff {c : Cluster} {n : HostAndPort} (hn : n.host ≠ "") :
    c.FillsLowestTwo n ↔ (c.register n).view 0 ≠ none ∧ (c.register n).view 1 ≠ none := by
  rw [lowest_two_register hn, FillsLowestTwo]
  simp only [view_apply, ne_eq, listed_eq_none_iff, nodeInCluster_iff hn]

end Cluster

/-- A new node that joins ends up with its leader's table exactly if the leader,
    before or by registering it, has filled its two lowest slots. -/
theorem fresh_join_eq_iff (metaStore R L : HostAndPort) (T : Cluster)
    (hne : L ≠ R) (hR : R.host ≠ "") (hL : L.host ≠ "") (sendR : R.Sendable)
    (sendT : T.Sendable) :
    ∃ p' reply T',
      (bootstrap R L (answeredBy T)).run (IMQNode.new R (Process.initial metaStore)) = .ok () p' ∧
      (getNodesInCluster (registerArgs R)).run T = .ok reply T' ∧
      ((∀ i, p'.cluster.view i = T'.view i) ↔ T.FillsLowestTwo R) ∧
      (T.Clean → (p'.cluster = T' ↔ T.FillsLowestTwo R)) := by
  have hroom : ¬ (IMQNode.new R (Process.initial metaStore)).cluster.NoRoomFor L :=
    hasRoom_fresh hR hL hne
  have hstore : (IMQNode.new R (Process.initial metaStore)).rpcStore.ServersOnlyAt R :=
    RPCStore.serversOnlyAt_getRPCServer (RPCStore.serversOnlyAt_empty R)
  have hview : (((new.addNode R).register L).overwrite (T.register R).view).view =
      (Slots.ofList [R, L]).patch (T.register R).view.toPatch := by
    rw [view_overwrite, listing_view, view_fresh_register hR hL hne]
  have hiff : (((new.addNode R).register L).overwrite (T.register R).view).view =
      (T.register R).view ↔ T.FillsLowestTwo R := by
    rw [hview, overlay_fresh_eq_iff, fillsLowestTwo_iff hR]
  refine ⟨_, _, _, run_bootstrap_of_sendable hstore hne hroom
    (sendable_register sendT sendR), run_getNodesInCluster_register R T,
    funext_iff.symm.trans hiff, fun hclean => ?_⟩
  -- Free slots hold the default address on both sides, so the views decide.
  refine Iff.trans ⟨congrArg view, fun h => ?_⟩ hiff
  refine eq_of_view ?_ (clean_register hclean hR) h
  exact clean_overwrite (clean_register (clean_addNode clean_new hR) hL) fun i n hi =>
    host_of_holds ⟨i, hi⟩

theorem fresh_join_copies_fresh_leader :
    ∃ p' reply T',
      (bootstrap ⟨"r", 1⟩ ⟨"l", 2⟩ (answeredBy (new.setNode 0 ⟨"l", 2⟩))).run
        (IMQNode.new ⟨"r", 1⟩ (Process.initial {})) = .ok () p' ∧
      (getNodesInCluster (registerArgs ⟨"r", 1⟩)).run (new.setNode 0 ⟨"l", 2⟩) = .ok reply T' ∧
      p'.cluster = T' := by
  have hfresh : (new.setNode 0 ⟨"l", 2⟩).Sendable := by decide
  obtain ⟨p', reply, T', hrun, hanswer, _, htable⟩ :=
    fresh_join_eq_iff {} ⟨"r", 1⟩ ⟨"l", 2⟩ (new.setNode 0 ⟨"l", 2⟩) (by decide) (by decide)
      (by decide) (by decide) hfresh
  exact ⟨p', reply, T', hrun, hanswer,
    (htable (clean_iff_forall.mpr ((clean_iff_forall.mp clean_new).setNode 0 (by decide)))).mpr
      (by decide)⟩

/-- A leader that has lost its two lowest slots: the joiner lists it twice. -/
theorem fresh_join_differs :
    (new.setNode 2 ⟨"l", 2⟩).NoDuplicate ∧ (new.setNode 2 ⟨"l", 2⟩).Sendable ∧
    (new.setNode 2 ⟨"l", 2⟩).nodeInCluster ⟨"l", 2⟩ = true ∧
    ((new.setNode 2 ⟨"l", 2⟩).node 0).host = "" ∧
    ∃ p' reply T',
      (bootstrap ⟨"r", 1⟩ ⟨"l", 2⟩ (answeredBy (new.setNode 2 ⟨"l", 2⟩))).run
        (IMQNode.new ⟨"r", 1⟩ (Process.initial ⟨"r", 1⟩)) = .ok () p' ∧
      (getNodesInCluster (registerArgs ⟨"r", 1⟩)).run (new.setNode 2 ⟨"l", 2⟩) = .ok reply T' ∧
      p'.cluster.node 1 = ⟨"l", 2⟩ ∧ T'.node 1 = {} := by
  have habsent : ¬ new.view.Holds ⟨"l", 2⟩ := by
    rw [view_new]
    exact Slots.not_holds_empty _
  have hunique : (new.setNode 2 ⟨"l", 2⟩).NoDuplicate :=
    noDuplicate_setNode noDuplicate_new 2 habsent (by decide)
  have hsend : (new.setNode 2 ⟨"l", 2⟩).Sendable := by decide
  have hstore : (IMQNode.new ⟨"r", 1⟩ (Process.initial ⟨"r", 1⟩)).rpcStore.ServersOnlyAt ⟨"r", 1⟩ :=
    RPCStore.serversOnlyAt_getRPCServer (RPCStore.serversOnlyAt_empty _)
  refine ⟨hunique, hsend, by decide, by decide, _, _, _,
    run_bootstrap_of_sendable hstore (by decide) (by decide)
      (sendable_register hsend (by decide)),
    run_getNodesInCluster_register _ _, by decide, by decide⟩

end Imq
