import Imq.Lib.Keeps
import Imq.NodeTraffic
import Imq.Verified.Identity
import Imq.Verified.JsonRoundTrip
import Imq.Verified.NodesRequest

/-! # What a node sends can be read

With the texts of the vendored JSON library on the wire, whatever reaches the node.

* `utf8Hosts_receive` — a node whose own host is UTF-8 lists only such hosts;
* `replies_read_back` — so all that its workers send is read back.
-/

namespace Imq

open Lib Cluster IMQNode RPCServerWorkerPool Json

/-! ## Addresses -/

theorem utf8_toString_iff (n : HostAndPort) : Utf8String n.toString ↔ Utf8String n.host := by
  have hport : Utf8.Valid Char.toNat (Cpp.toString n.port.toNat).toList := by
    apply Utf8.Valid.of_ascii
    intro c hc
    have hdecimal := (isDecimal_iff c).mp (isDecimal_of_mem_toString hc)
    omega
  rw [Utf8String, HostAndPort.toList_toString, Utf8.valid_append_cons_iff (by decide)]
  exact and_iff_left hport

theorem host_of_map {r : Except Exn Int} {host : String} {n : HostAndPort}
    (h : (r.map fun v => ({ host := host, port := UInt32.ofInt v } : HostAndPort)) = .ok n) :
    n.host = host := by
  cases r with
  | error e => cases h
  | ok v =>
    cases h
    rfl

/-- The host is cut off at a colon, or it is the whole text. -/
theorem utf8_host_of_fromString {s : String} {n : HostAndPort}
    (h : HostAndPort.fromString s = .ok n) (utf8 : Utf8String s) (short : s.length < 4294967295) :
    Utf8String n.host := by
  have hlength : s.toList.length = s.length := String.length_toList
  by_cases hcolon : ':' ∈ s.toList
  · obtain ⟨front, back, hs, first⟩ := List.eq_append_cons_of_mem hcolon
    have hnpos : Cpp.npos = 18446744073709551615 := rfl
    rw [hs, List.length_append, List.length_cons] at hlength
    rw [HostAndPort.fromString_of_colon hs first (by omega) (by omega)] at h
    rw [Utf8String, hs] at utf8
    rw [host_of_map h, Utf8String, String.toList_ofList]
    exact (utf8.cut (by decide)).1
  · rw [HostAndPort.fromString_of_no_colon hcolon short] at h
    rw [host_of_map h]
    exact utf8

/-! ## What holds of every slot -/

namespace Cluster

section

variable {Q : HostAndPort → Prop} {c : Cluster}

theorem Forall.writeNodes (h : c.Forall Q) {writes : List (Fin MAX_NUM_NODES × HostAndPort)}
    (hw : ∀ w ∈ writes, Q w.2) : (c.writeNodes writes).Forall Q := by
  induction writes generalizing c with
  | nil => exact h
  | cons w writes ih =>
    exact ih (h.setNode w.1 (hw w List.mem_cons_self)) fun w' hw' => hw w' (List.mem_cons_of_mem w hw')

end

/-- Every host in the table is UTF-8. -/
abbrev Utf8Hosts (c : Cluster) : Prop := c.Forall fun n => Utf8String n.host

end Cluster

theorem utf8_empty : Utf8String "" := .nil

/-! ## Replies -/

theorem utf8_ofMembers_iff {ms : List (String × Json)} :
    Utf8 (.ofMembers ms) ↔ ∀ m ∈ ms, Utf8String m.1 ∧ Utf8 m.2 := by
  cases ms with
  | nil =>
    simp only [Json.ofMembers, List.not_mem_nil, false_imp_iff, implies_true, iff_true]
    exact .null trivial
  | cons m ms => exact utf8_object_iff

theorem all_ofMembers {P : Json → Prop} {ms : List (String × Json)} (hnull : P null)
    (hobject : P (object ms)) (hvalue : ∀ m ∈ ms, All P m.2) : All P (.ofMembers ms) := by
  cases ms with
  | nil => exact .null hnull
  | cons m ms => exact .object hobject hvalue

namespace Cluster

variable (c : Cluster)

theorem held_replyOf : Held c.replyOf := by
  have ordered : OrderedByKey Prod.fst (c.sentEntries.map memberOf) := by
    rw [OrderedByKey, List.pairwise_map]
    exact c.ordered_sentEntries
  have hnodes : Held c.nodesJson := by
    apply all_ofMembers trivial ordered
    intro m hm
    obtain ⟨e, _, rfl⟩ := List.mem_map.mp hm
    exact .string trivial
  exact .object (List.pairwise_singleton _ _) (List.forall_mem_singleton.mpr hnodes)

theorem floatFree_replyOf : FloatFree c.replyOf := by
  have hnodes : FloatFree c.nodesJson := by
    apply all_ofMembers trivial trivial
    intro m hm
    obtain ⟨e, _, rfl⟩ := List.mem_map.mp hm
    exact .string trivial
  exact .object trivial (List.forall_mem_singleton.mpr hnodes)

theorem utf8_memberOf_iff (e : Fin MAX_NUM_NODES × HostAndPort) :
    Utf8String (memberOf e).1 ∧ Utf8 (memberOf e).2 ↔ Utf8String e.2.host := by
  have hkey : Utf8String (memberOf e).1 := by
    apply Utf8.Valid.of_ascii
    intro d hd
    have hdecimal := (isDecimal_iff d).mp (isDecimal_of_mem_toString hd)
    omega
  rw [and_iff_right hkey, ← utf8_toString_iff]
  show Utf8 (string e.2.toString) ↔ _
  exact ⟨fun h => h.self, fun h => .string h⟩

/-- The member list is UTF-8 exactly if the hosts are. -/
theorem utf8_replyOf_iff : Utf8 c.replyOf ↔ c.Utf8Hosts := by
  have hnodes : Utf8 c.replyOf ↔ Utf8 c.nodesJson := by
    have hname : Utf8String "nodes" := .of_ascii (by decide)
    simp [replyOf, utf8_object_iff, hname]
  rw [hnodes, nodesJson, utf8_ofMembers_iff]
  simp only [List.forall_mem_map, utf8_memberOf_iff]
  constructor
  · intro h i
    by_cases hi : (c.node i).host = ""
    · rw [hi]
      exact utf8_empty
    · exact h (i, c.node i) (mem_sentEntries.mpr ((view_eq_some_iff hi).mpr rfl))
  · intro h e he
    have hview := mem_sentEntries.mp he
    rw [view_apply, listed_eq_some_iff] at hview
    rw [← hview.1]
    exact h e.1

end Cluster

/-! ## Requests -/

theorem lookup_workerPool {rpc : String} {f : RPCFunc Process}
    (h : workerPool.rpcs.lookup rpc = some f) :
    f = (fun args => Process.onCluster (getNodesInCluster args)) ∨ f = Health.checkHealthRPC := by
  rw [workerPool, lookup_ofRegistrations, IMQNode.rpcs, List.lookup_cons, List.lookup_cons] at h
  split at h
  · exact .inl (Option.some.inj h).symm
  · split at h
    · exact .inr (Option.some.inj h).symm
    · cases h

/-- `Run` adds `CheckHealth` to the own server, if that is the one the store has for
    the address in the `MetaStore`. -/
theorem workerPools_healthRun {s : NodeState}
    (own : s.process.rpcStore.getRPCServer s.process.metaStore = (s.rpcServer, s.process.rpcStore))
    (hkind : s.rpcServer.kind = .server) :
    (Cpp.stateOf (Health.run.run s)).workerPools s.rpcServer.id =
      (s.workerPools s.rpcServer.id).addRPC "CheckHealth" Health.checkHealthRPC := by
  have hadd : s.addRPC s.rpcServer "CheckHealth" Health.checkHealthRPC = .ok { s with
      workerPools := Function.update s.workerPools s.rpcServer.id
        ((s.workerPools s.rpcServer.id).addRPC "CheckHealth" Health.checkHealthRPC) } := by
    simp only [NodeState.addRPC, hkind]
  unfold Health.run
  rw [Cpp.run_bind_ok (EStateM.run_get ..), own, Cpp.run_bind_ok (EStateM.run_set ..), hadd]
  exact Function.update_self ..

/-- The constructor and `Run` register these functions, in a process that is set up
    for the address of its node. -/
theorem workerPools_run (address : HostAndPort) :
    (Cpp.stateOf (Health.run.run (construct address address))).workerPools
      (construct address address).rpcServer.id = workerPool := by
  have own : (construct address address).process.rpcStore.getRPCServer address =
      ((construct address address).rpcServer, (construct address address).process.rpcStore) :=
    RPCStore.getOrConstruct_of_some (RPCStore.rpcObjects_getOrConstruct_self ..)
  rw [workerPools_healthRun own rfl]
  rfl

theorem getNodesInCluster_eq_ok {args result : Json} {c c' : Cluster}
    (h : (getNodesInCluster args).run c = .ok result c') : result = c'.replyOf := by
  cases hreg : registration args with
  | some requester =>
    rw [run_getNodesInCluster_of_registration hreg] at h
    cases h
    rfl
  | none =>
    by_cases reads : (args.constAt "register_node").bind Json.getBool = .ok false
    · rw [run_getNodesInCluster_of_read reads] at h
      cases h
      rfl
    · obtain ⟨e, hthrows⟩ := run_getNodesInCluster_throws hreg reads
      rw [hthrows] at h
      cases h

theorem utf8_lookup {ms : List (String × Json)} (h : Utf8 (object ms)) {key s : String}
    (hkey : ms.lookup key = some (string s)) : Utf8String s := by
  obtain ⟨before, after, rfl, _⟩ := List.lookup_eq_some_iff.mp hkey
  have hmember := utf8_object_iff.mp h (key, string s) (by simp)
  exact hmember.2.self

theorem utf8Hosts_afterRequest {args : Json} (hargs : Utf8 args) {c : Cluster} (h : c.Utf8Hosts) :
    (afterRequest args c).Utf8Hosts := by
  unfold afterRequest
  cases hreg : registration args with
  | none => exact h
  | some n =>
    obtain ⟨members, port, rfl, _, hhost, _⟩ := registration_eq_some_iff.mp hreg
    exact h.register (utf8_lookup hargs hhost)

/-! ## What the table keeps -/

theorem keeps_iff_stateOf {σ α : Type} {P : σ → Prop} {x : EStateM Exn σ α} :
    Keeps P x ↔ ∀ s, P s → P (Cpp.stateOf (x.run s)) := by
  refine forall₂_congr fun s _ => ?_
  cases x.run s <;> rfl

theorem keeps_ofExcept {σ α : Type} {P : σ → Prop} (r : Except Exn α) :
    Keeps P (Cpp.ofExcept r : EStateM Exn σ α) := by
  intro s hs
  cases r <;> exact hs

theorem keeps_ofExcept_bind {σ α β : Type} {P : σ → Prop} {r : Except Exn α}
    {f : α → EStateM Exn σ β} (h : ∀ a, r = .ok a → Keeps P (f a)) :
    Keeps P (Cpp.ofExcept r >>= f) := by
  cases r with
  | ok a => exact h a rfl
  | error e => exact fun _ hs => hs

theorem keeps_onCluster {α : Type} {Q : Cluster → Prop} {x : EStateM Exn Cluster α}
    (h : Keeps Q x) : Keeps (fun p => Q p.cluster) (Process.onCluster x) := by
  rw [keeps_iff_stateOf] at h ⊢
  intro p hp
  rw [cluster_stateOf_onCluster]
  exact h p.cluster hp

/-- The hosts in the table of a process are UTF-8. -/
abbrev Process.Utf8Hosts (p : Process) : Prop := p.cluster.Utf8Hosts

theorem keeps_request (format : FloatFormat) (message : Message) :
    Keeps Process.Utf8Hosts (workBody (.ofFormat format) workerPool (some message)) := by
  obtain ⟨e, h⟩ | ⟨clientAddr, h⟩ | ⟨clientAddr, rpc, argsStr, f, args, hf, hargs, h⟩ :=
    workBody_forms (.ofFormat format) workerPool message
  · rw [h]
    exact .throw e
  · rw [h]
    exact .pure _
  · rw [h]
    apply Keeps.bind _ fun _ => .pure _
    obtain rfl | rfl := lookup_workerPool hf
    · -- What the handler is given has been parsed.
      have hutf8 : Utf8 args := by
        obtain ⟨j, hj, hsound⟩ | ⟨what, hwhat⟩ := parse_yields format argsStr
        · cases hj.symm.trans hargs
          exact hsound.utf8
        · cases hwhat.symm.trans hargs
      apply keeps_onCluster (keeps_iff_stateOf.mpr fun c hc => ?_)
      rw [stateOf_getNodesInCluster]
      exact utf8Hosts_afterRequest hutf8 hc
    · exact .pure _

/-! ### Health passes -/

theorem keeps_getNodeClient {P : Process → Prop}
    (kept : ∀ p store, P p → P { p with rpcStore := store }) (n : HostAndPort) :
    Keeps P (Cluster.getNodeClient n) := by
  rw [keeps_iff_stateOf]
  intro p hp
  by_cases hn : p.cluster.nodeInCluster n = true
  · rw [run_getNodeClient hn]
    exact kept p _ hp
  · rw [run_getNodeClient_of_absent (Bool.eq_false_iff.mpr hn)]
    exact hp

/-- What no change that a pass makes can end. -/
structure KeptByChecks (P : Process → Prop) : Prop where
  removeNode : ∀ p n, P p → P { p with cluster := p.cluster.removeNode n }
  potentiallyFailing : ∀ p failing, P p → P { p with potentiallyFailing := failing }
  rpcStore : ∀ p store, P p → P { p with rpcStore := store }

theorem keptByChecks_forall {Q : HostAndPort → Prop} (unused : Q {}) :
    KeptByChecks fun p => p.cluster.Forall Q where
  removeNode _ n hp := hp.removeNode unused n
  potentiallyFailing _ _ hp := hp
  rpcStore _ _ hp := hp

theorem keptByChecks_metaStore (me : HostAndPort) : KeptByChecks fun p => p.metaStore = me where
  removeNode _ _ hp := hp
  potentiallyFailing _ _ hp := hp
  rpcStore _ _ hp := hp

/-- The call object of a pass, whichever nodes it has been used for. -/
def Health.IsCheck (rpcCall : RPCCall Process) : Prop :=
  rpcCall.messageReceiptCallback = some healthyNodeCallback ∧
    rpcCall.timeoutCallback = some timedoutNodeCallback

section

open Health

variable {P : Process → Prop} (kept : KeptByChecks P)

include kept

theorem keeps_removeNodeFromCluster (n : HostAndPort) : Keeps P (removeNodeFromCluster n) := by
  apply Keeps.bind (.modify fun p hp => kept.removeNode p n hp)
  intro _
  exact .modify fun p hp => kept.potentiallyFailing p _ hp

omit kept in
theorem keeps_isPotentiallyFailing (n : HostAndPort) : Keeps P (isPotentiallyFailing n) :=
  .bind .get fun _ => .pure _

theorem keeps_healthyNodeCallback (response : Json) : Keeps P (healthyNodeCallback response) := by
  apply (keeps_ofExcept _).bind
  intro callee
  apply (keeps_isPotentiallyFailing callee).bind
  intro failing
  exact .ite (.modify fun p hp => kept.potentiallyFailing p _ hp) (.pure _)

omit kept in
theorem keeps_getNumberOfRetriesForNode (n : HostAndPort) :
    Keeps P (getNumberOfRetriesForNode n) := by
  apply (keeps_isPotentiallyFailing n).bind
  intro failing
  exact .ite (.bind .get fun _ => .pure _) (.pure _)

theorem keeps_timedoutNodeCallback (response : Json) : Keeps P (timedoutNodeCallback response) := by
  apply (keeps_ofExcept _).bind
  intro callee
  apply (keeps_isPotentiallyFailing callee).bind
  intro failing
  apply Keeps.ite
  · apply (keeps_getNumberOfRetriesForNode callee).bind
    intro retries
    apply Keeps.ite (keeps_removeNodeFromCluster kept callee)
    exact .modify fun p hp => kept.potentiallyFailing p _ hp
  · exact .modify fun p hp => kept.potentiallyFailing p _ hp

theorem keeps_awaitOutcome (text : JsonText) {rpcCall : RPCCall Process} (hcall : IsCheck rpcCall)
    (outcome : CallOutcome) : Keeps P (awaitOutcome text rpcCall outcome) := by
  cases outcome with
  | answered message =>
    simp only [awaitOutcome, RPCResponse.doMessageCallback, hcall.1]
    exact .bind (keeps_ofExcept _) fun parsed =>
      .bind (keeps_healthyNodeCallback kept parsed) fun _ => .pure _
  | timedOut =>
    simp only [awaitOutcome, RPCResponse.doTimeoutCallback, hcall.2]
    exact .bind (keeps_ofExcept _) fun error =>
      .bind (keeps_timedoutNodeCallback kept error) fun _ => .pure _
  | neither => exact .pure _

theorem keeps_checkNodes (text : JsonText) (outcome : HostAndPort → CallOutcome) (me : HostAndPort)
    {rpcCall : RPCCall Process} (hcall : IsCheck rpcCall) (snapshot : List HostAndPort) :
    Keeps P (checkNodes text outcome me rpcCall snapshot) := by
  induction snapshot generalizing rpcCall with
  | nil => exact .pure _
  | cons n rest ih =>
    rw [checkNodes]
    apply Keeps.ite (ih hcall)
    apply (keeps_getNodeClient kept.rpcStore n).bind
    intro client
    apply keeps_ofExcept_bind
    intro called hcalled
    have hcall' : IsCheck called := by
      rw [call_eq_ok hcalled]
      exact hcall
    apply (keeps_awaitOutcome kept text hcall' _).bind
    intro callback
    exact .bind (ih hcall') fun _ => .pure _

theorem keeps_performHealthChecksPass (text : JsonText) (outcome : HostAndPort → CallOutcome) :
    Keeps P (performHealthChecksPass text outcome) :=
  .bind .get fun p => keeps_checkNodes kept text outcome p.metaStore ⟨rfl, rfl⟩ _

end

/-! ### `JoinCluster` -/

/-- Other members than `callee_info` are as received. -/
theorem elementAt_addResponseMetadata {σ : Type} {rpcCall : RPCCall σ} {j response : Json}
    (h : RPCResponse.addResponseMetadata rpcCall j = .ok response) {key : String}
    (hkey : key ≠ "callee_info") : response.elementAt key = j.elementAt key := by
  unfold RPCResponse.addResponseMetadata at h
  cases hhost : j.updateAt "callee_info" (·.set "host" (.string rpcCall.calleeInfo.host)) with
  | error e =>
    rw [hhost] at h
    cases h
  | ok j' =>
    rw [hhost, Cpp.ok_bind] at h
    rw [elementAt_updateAt_of_ne h hkey, elementAt_updateAt_of_ne hhost hkey]

theorem utf8_host_of_readAddress {n : Nat} (hn : n < 4294967295) {idx : UInt32} {address : Json}
    (hutf8 : Utf8 address) (hshort : Short n address) {w : Fin MAX_NUM_NODES × HostAndPort}
    (h : readAddress idx address = .ok w) : Utf8String w.2.host := by
  unfold readAddress at h
  cases hs : address.getString with
  | error e =>
    rw [hs] at h
    cases h
  | ok s =>
    obtain rfl := getString_eq_ok_iff.mp hs
    have hlength : s.length ≤ n := hshort.self
    rw [hs, Cpp.ok_bind] at h
    cases hnode : HostAndPort.fromString s with
    | error e =>
      rw [hnode] at h
      cases h
    | ok node =>
      rw [hnode, Cpp.ok_bind] at h
      split at h
      · cases h
        exact utf8_host_of_fromString hnode hutf8.self (by omega)
      · cases h

/-- The addresses in a reply have hosts in UTF-8. -/
theorem utf8_host_of_entriesOf {n : Nat} (hn : n < 4294967295) {response : Json}
    (hnodes : ∀ nodes, response.elementAt "nodes" = .ok nodes → Utf8 nodes ∧ Short n nodes)
    {w : Fin MAX_NUM_NODES × HostAndPort} (hw : .ok w ∈ entriesOf (.ok response)) :
    Utf8String w.2.host := by
  cases hat : response.elementAt "nodes" with
  | error e =>
    simp only [entriesOf, Except.bind, hat] at hw
    cases List.mem_singleton.mp hw
  | ok nodes =>
    obtain ⟨hutf8, hshort⟩ := hnodes nodes hat
    simp only [entriesOf, Except.bind, hat] at hw
    obtain ⟨m, hm, hw⟩ := List.mem_flatMap.mp hw
    unfold readMember at hw
    split at hw
    · obtain ⟨address, haddress, hread⟩ := List.mem_map.mp hw
      exact utf8_host_of_readAddress hn ((hutf8.of_mem_items hm).of_mem_elements haddress)
        ((hshort.of_mem_items hm).of_mem_elements haddress) hread
    · cases List.mem_singleton.mp hw

/-- The text of a reply has fewer than 2 ^ 32 - 1 bytes. -/
def Receipt.Short : Receipt → Prop
  | .received (frame :: _) => frame.length < 4294967295
  | _ => True

theorem utf8_host_of_parsedResponse {format : FloatFormat} {σ : Type} {rpcCall : RPCCall σ}
    {frame : String} {rest : Message} (short : frame.length < 4294967295)
    {w : Fin MAX_NUM_NODES × HostAndPort}
    (hw : .ok w ∈ entriesOf (RPCResponse.parsedResponse (.ofFormat format) rpcCall (frame :: rest))) :
    Utf8String w.2.host := by
  cases hparsed : RPCResponse.parsedResponse (.ofFormat format) rpcCall (frame :: rest) with
  | error e =>
    rw [hparsed] at hw
    cases List.mem_singleton.mp hw
  | ok response =>
    rw [hparsed] at hw
    obtain ⟨j, hj, hsound⟩ | ⟨what, hwhat⟩ := parse_yields format frame
    · have hread : (JsonText.ofFormat format).parse frame = .ok j := hj
      rw [RPCResponse.parsedResponse_of_parse hread] at hparsed
      apply utf8_host_of_entriesOf short (fun nodes hnodes => ?_) hw
      rw [elementAt_addResponseMetadata hparsed (by decide)] at hnodes
      exact ⟨hsound.utf8.elementAt trivial hnodes, hsound.short.elementAt trivial hnodes⟩
    · have hthrow : RPCResponse.parsedResponse (.ofFormat format) rpcCall (frame :: rest) =
          .error (.invalidArgument what) := by
        show (do
          let parsed ← Json.parse format frame
          RPCResponse.addResponseMetadata rpcCall parsed) = _
        rw [hwhat]
        rfl
      rw [hthrow] at hparsed
      cases hparsed

theorem utf8_host_of_get {format : FloatFormat} {σ : Type} {rpcCall : RPCCall σ} {receipt : Receipt}
    (short : receipt.Short) {w : Fin MAX_NUM_NODES × HostAndPort}
    (hw : .ok w ∈ entriesOf (RPCResponse.get (.ofFormat format) rpcCall receipt)) :
    Utf8String w.2.host := by
  unfold RPCResponse.get at hw
  split at hw
  · cases List.mem_singleton.mp hw
  · match receipt, short with
    | .received [], _ => cases List.mem_singleton.mp hw
    | .received (frame :: rest), short => exact utf8_host_of_parsedResponse short hw
    | .timedOut, _ => cases hw
    | .stopped, _ => cases hw

theorem mem_of_mem_upToError {ε α : Type} {rs : List (Except ε α)} {a : α}
    (h : a ∈ (upToError rs).1) : .ok a ∈ rs := by
  induction rs with
  | nil => cases h
  | cons r rs ih =>
    cases r with
    | error e => cases h
    | ok b =>
      rw [upToError_cons_ok] at h
      obtain rfl | h := List.mem_cons.mp h
      · exact List.mem_cons_self
      · exact List.mem_cons_of_mem _ (ih h)

/-- The leaders that a node joins have hosts in UTF-8, and their replies are not too
    long. -/
def Traffic.Proper : Traffic → Prop
  | .join leader receipt => Utf8String leader.host ∧ receipt.Short
  | _ => True

theorem keeps_joinCluster (format : FloatFormat) {leader : HostAndPort} {receipt : Receipt}
    (hleader : Utf8String leader.host) (short : receipt.Short) :
    Keeps Process.Utf8Hosts (joinCluster leader fun rpcCall =>
      RPCResponse.get (.ofFormat format) rpcCall receipt) := by
  rw [keeps_iff_stateOf]
  intro p hp
  show (Cpp.stateOf ((bootstrap p.metaStore leader _).run p)).cluster.Utf8Hosts
  rw [cluster_bootstrap]
  split
  · exact hp
  · refine (hp.register hleader).writeNodes fun w hw => ?_
    have hentry := mem_of_mem_upToError hw
    unfold received at hentry
    cases hcall : RPCClient.call (p.rpcStore.getRPCClient leader).1
        ({ rpc := "GetNodesInCluster", args := registerArgs p.metaStore } : RPCCall Process) with
    | error e =>
      rw [hcall] at hentry
      cases List.mem_singleton.mp hentry
    | ok rpcCall =>
      rw [hcall] at hentry
      exact utf8_host_of_get short hentry

/-! ## Whatever reaches the node -/

theorem utf8Hosts_receive (format : FloatFormat) {t : Traffic} (proper : t.Proper) {p : Process}
    (h : p.Utf8Hosts) : (receive (.ofFormat format) p t).Utf8Hosts := by
  cases t with
  | request message => exact keeps_iff_stateOf.mp (keeps_request format message) p h
  | health outcome =>
    exact keeps_iff_stateOf.mp
      (keeps_performHealthChecksPass (keptByChecks_forall utf8_empty) _ outcome) p h
  | join leader receipt =>
    exact keeps_iff_stateOf.mp (keeps_joinCluster format proper.1 proper.2) p h

theorem utf8Hosts_exec (format : FloatFormat) {traffic : List Traffic}
    (proper : ∀ t ∈ traffic, t.Proper) {p : Process} (h : p.Utf8Hosts) :
    (exec (receive (.ofFormat format)) p traffic).Utf8Hosts := by
  induction traffic generalizing p with
  | nil => exact h
  | cons t traffic ih =>
    rw [exec_cons]
    exact ih (fun t' ht' => proper t' (List.mem_cons_of_mem t ht'))
      (utf8Hosts_receive format (proper t List.mem_cons_self) h)

/-- A value that some handler of a node, or the worker itself, replies with. -/
def Replied (c : Cluster) (result : Json) : Prop :=
  result = c.replyOf ∨ result = .object [("health", .number 1)] ∨ result = errorResult

theorem readBack_of_replied (format : FloatFormat) {c : Cluster} (h : c.Utf8Hosts) {result : Json}
    (hresult : Replied c result) : Json.parse format (Json.dump format result) = .ok result := by
  have hdump : ∀ {j : Json}, Held j → FloatFree j → Utf8 j →
      Json.parse format (Json.dump format j) = .ok j := by
    intro j held floatFree hutf8
    obtain ⟨_, h⟩ | ⟨hnot, _⟩ := parse_dump_decides format held floatFree
    · exact h
    · exact absurd hutf8 hnot
  have hname : ∀ {name : String}, Utf8String name →
      Json.parse format (Json.dump format (.object [(name, .number 1)])) =
        .ok (.object [(name, .number 1)]) := by
    intro name hname
    apply hdump
    · exact .object (List.pairwise_singleton _ _)
        (List.forall_mem_singleton.mpr (.number ⟨by decide, by decide⟩))
    · exact .object trivial (List.forall_mem_singleton.mpr (.number trivial))
    · exact .object (List.forall_mem_singleton.mpr hname)
        (List.forall_mem_singleton.mpr (.number trivial))
  obtain rfl | rfl | rfl := hresult
  · exact hdump (held_replyOf c) (floatFree_replyOf c) ((utf8_replyOf_iff c).mpr h)
  · exact hname (.of_ascii (by decide))
  · exact hname (.of_ascii (by decide))

/-- What a worker sends. -/
theorem replied_of_workBody {text : JsonText} {message reply : Message} {p p' : Process}
    (h : (workBody text workerPool (some message)).run p = .ok (some reply) p') :
    ∃ clientAddr result, reply = [clientAddr, text.dump result] ∧ Replied p'.cluster result := by
  obtain ⟨e, hwork⟩ | ⟨clientAddr, hwork⟩ | ⟨clientAddr, rpc, argsStr, f, args, hf, _, hwork⟩ :=
    workBody_forms text workerPool message
  · rw [hwork] at h
    cases h
  · rw [hwork] at h
    cases h
    exact ⟨clientAddr, errorResult, rfl, .inr (.inr rfl)⟩
  · rw [hwork] at h
    obtain rfl | rfl := lookup_workerPool hf
    · cases hrun : (getNodesInCluster args).run p.cluster with
      | error e c =>
        have hthrow : (Process.onCluster (getNodesInCluster args)).run p =
            .error e { p with cluster := c } := by
          show p.withCluster ((getNodesInCluster args).run p.cluster) = _
          rw [hrun]
          rfl
        rw [Cpp.run_bind_error hthrow] at h
        cases h
      | ok result c =>
        rw [Cpp.run_bind_ok (run_onCluster_ok hrun)] at h
        cases h
        exact ⟨clientAddr, result, rfl, .inl (getNodesInCluster_eq_ok hrun)⟩
    · cases h
      exact ⟨clientAddr, _, rfl, .inr (.inl rfl)⟩

/-- Whatever has reached a node whose own host is UTF-8, it lists such hosts only, and
    all that its workers send is read back as it was computed. -/
theorem replies_read_back (format : FloatFormat) (self metaStore : HostAndPort)
    (utf8 : Utf8String self.host) (traffic : List Traffic) (proper : ∀ t ∈ traffic, t.Proper)
    (p : Process)
    (hp : p = exec (receive (.ofFormat format)) (new self (Process.initial metaStore)) traffic) :
    p.Utf8Hosts ∧ ∀ message reply p',
      (workBody (.ofFormat format) workerPool (some message)).run p = .ok (some reply) p' →
        ∃ clientAddr result, reply = [clientAddr, Json.dump format result] ∧
          Replied p'.cluster result ∧ Json.parse format (Json.dump format result) = .ok result := by
  subst hp
  have hnew : (new self (Process.initial metaStore)).Utf8Hosts := (forall_new utf8_empty).addNode utf8
  have hosts := utf8Hosts_exec format proper hnew
  refine ⟨hosts, fun message reply p' hrun => ?_⟩
  obtain ⟨clientAddr, result, hreply, hresult⟩ := replied_of_workBody hrun
  -- The handler has registered nothing else, either.
  have hafter := keeps_iff_stateOf.mp (keeps_request format message) _ hosts
  rw [hrun] at hafter
  exact ⟨clientAddr, result, hreply, hresult, readBack_of_replied format hafter hresult⟩

/-- A node registers another, finds it gone, and joins a leader that answers with two
    addresses. -/
def someTraffic : List Traffic :=
  [.request ["client", "GetNodesInCluster",
      "\x7b\"host\":\"a\",\"port\":2,\"register_node\":true\x7d"],
    .health fun _ => .timedOut,
    .join ⟨"b", 3⟩ (.received ["\x7b\"nodes\":\x7b\"0\":\"b:3\",\"1\":\"c:4\"\x7d\x7d"])]

theorem replies_read_back_someTraffic :
    (exec (receive (.ofFormat noFloats)) (new ⟨"r", 1⟩ (Process.initial ⟨"r", 1⟩))
        someTraffic).Utf8Hosts ∧
      ∀ message reply p',
        (workBody (.ofFormat noFloats) workerPool (some message)).run
            (exec (receive (.ofFormat noFloats)) (new ⟨"r", 1⟩ (Process.initial ⟨"r", 1⟩))
              someTraffic) = .ok (some reply) p' →
          ∃ clientAddr result, reply = [clientAddr, Json.dump noFloats result] ∧
            Replied p'.cluster result ∧
            Json.parse noFloats (Json.dump noFloats result) = .ok result := by
  apply replies_read_back noFloats ⟨"r", 1⟩ ⟨"r", 1⟩ (.of_ascii (by decide)) someTraffic _ _ rfl
  intro t ht
  simp only [someTraffic, List.mem_cons, List.not_mem_nil, or_false] at ht
  obtain rfl | rfl | rfl := ht
  · trivial
  · trivial
  · exact ⟨.of_ascii (by decide), by rw [Receipt.Short]; decide⟩

end Imq
