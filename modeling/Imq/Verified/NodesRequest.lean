import Imq.Health
import Imq.Verified.Bootstrap
import Imq.Verified.JsonRoundTrip
import Imq.Verified.RemoteCall

/-! # Requests with any arguments

The `GetNodesInCluster` handler reads the fields of its arguments unchecked, and
nothing between it and the loop of `Work` catches what it throws.

* `registration_eq_some_iff` — the arguments that register somebody;
* `nodesRequest_answered_iff` — the arguments that a worker answers as it should.
-/

namespace Imq

open Lib Cluster IMQNode RPCServerWorkerPool

/-! ## Arguments -/

theorem getBool_eq_ok_iff {j : Json} {b : Bool} : j.getBool = .ok b ↔ j = .boolean b := by
  cases j <;> simp [Json.getBool]

theorem getString_eq_ok_iff {j : Json} {s : String} : j.getString = .ok s ↔ j = .string s := by
  cases j <;> simp [Json.getString]

theorem readsOnly_iff {args : Json} :
    (args.constAt "register_node").bind Json.getBool = .ok false ↔
      ∃ members, args = .object members ∧
        members.lookup "register_node" = some (.boolean false) := by
  simp [Json.bind_constAt_eq_ok_iff, getBool_eq_ok_iff]

/-- A request that registers a node has it in three members of an object. -/
theorem registration_eq_some_iff {args : Json} {n : HostAndPort} :
    registration args = some n ↔
      ∃ members port, args = .object members ∧
        members.lookup "register_node" = some (.boolean true) ∧
        members.lookup "host" = some (.string n.host) ∧
        members.lookup "port" = some port ∧ port.getUnsigned = .ok n.port := by
  have hparts : registration args = some n ↔
      (args.constAt "register_node").bind Json.getBool = .ok true ∧
        (args.constAt "host").bind Json.getString = .ok n.host ∧
        (args.constAt "port").bind Json.getUnsigned = .ok n.port := by
    obtain ⟨host, port⟩ := n
    unfold registration
    split
    next hflag hhost hport => simp [hflag, hhost, hport]
    next hother =>
      simp only [reduceCtorEq, false_iff]
      rintro ⟨hflag, hhost, hport⟩
      exact hother host port hflag hhost hport
  rw [hparts]
  simp only [Json.bind_constAt_eq_ok_iff, getBool_eq_ok_iff, getString_eq_ok_iff]
  constructor
  · rintro ⟨⟨members, _, rfl, hflag, rfl⟩, ⟨_, _, he, hhost, rfl⟩, ⟨_, port, he', hport, hread⟩⟩
    cases he
    cases he'
    exact ⟨members, port, rfl, hflag, hhost, hport, hread⟩
  · rintro ⟨members, port, rfl, hflag, hhost, hport, hread⟩
    exact ⟨⟨members, _, rfl, hflag, rfl⟩, ⟨members, _, rfl, hhost, rfl⟩,
      ⟨members, port, rfl, hport, hread⟩⟩

/-- An object that asks for the registration of a host and a port. -/
def AsksToRegister (args : Json) : Prop :=
  ∃ members host port, args = .object members ∧
    members.lookup "register_node" = some (.boolean true) ∧
    members.lookup "host" = some (.string host) ∧
    members.lookup "port" = some port ∧ port.typeName = "number"

/-- An object with a flag that is false, or with one that is true, a host, and a
    port that an `unsigned` can be made of: a number, or else a boolean that does
    not bring a node into the table. -/
def Answerable (args : Json) (c : Cluster) : Prop :=
  ∃ members, args = .object members ∧
    (members.lookup "register_node" = some (.boolean false) ∨
      members.lookup "register_node" = some (.boolean true) ∧
        ∃ host value port, members.lookup "host" = some (.string host) ∧
          members.lookup "port" = some value ∧ value.getUnsigned = .ok port ∧
          (value.typeName = "number" ∨ c.nodeInCluster ⟨host, port⟩ = true ∨
            ∀ i, (c.node i).host ≠ ""))

/-! ## The worker -/

/-- The pool offers the handler of a node, as the constructor registers it. -/
def ServesNodes (pool : RPCServerWorkerPool Process) : Prop :=
  pool.rpcs.lookup "GetNodesInCluster" = some fun args => Process.onCluster (getNodesInCluster args)

/-- The worker has replied with the member list or an error object, and the table
    has changed only if the arguments ask for it. -/
def Answered (text : JsonText) (identity : String) (args : Json) (c : Cluster) :
    EStateM.Result Exn Process (Option Message) → Prop
  | .ok (some sent) p =>
    (sent = [identity, text.dump p.cluster.replyOf] ∨ sent = [identity, text.dump errorResult]) ∧
      (p.cluster ≠ c → AsksToRegister args)
  | _ => False

/-- A guarded registration that changes nothing. -/
theorem register_eq_self_iff {c : Cluster} {n : HostAndPort} :
    c.register n = c ↔ c.nodeInCluster n = true ∨ ∀ i, (c.node i).host ≠ "" := by
  by_cases hn : c.nodeInCluster n = true
  · simp [register, hn]
  · rw [register, if_neg hn, or_iff_right hn]
    constructor
    · intro h
      cases hf : c.view.firstFree with
      | none => exact full_view_iff.mp (Slots.firstFree_eq_none_iff.mp hf)
      | some i =>
        -- The slot that is written would hold the node already.
        rw [addNode_of_firstFree hf] at h
        have hi : c.node i = n := by
          rw [← h]
          simp
        exact absurd (nodeInCluster_eq_true_iff.mpr ⟨i, hi⟩) hn
    · intro h
      exact addNode_of_full (full_view_iff.mpr h) n

section

variable {text : JsonText} {pool : RPCServerWorkerPool Process} {identity argsStr : String}
  {args : Json} (serves : ServesNodes pool) (parses : text.parse argsStr = .ok args)

include serves parses

theorem workBody_of_handled {p : Process} {reply : Json} {c : Cluster}
    (h : (getNodesInCluster args).run p.cluster = .ok reply c) :
    (workBody text pool (some [identity, "GetNodesInCluster", argsStr])).run p =
      .ok (some [identity, text.dump reply]) { p with cluster := c } := by
  rw [workBody_of_registered (accepted_request _ _ _) serves parses,
    Cpp.run_bind_ok (run_onCluster_ok h)]
  rfl

theorem workBody_of_thrown {p : Process} {e : Exn} {c : Cluster}
    (h : (getNodesInCluster args).run p.cluster = .error e c) :
    (workBody text pool (some [identity, "GetNodesInCluster", argsStr])).run p =
      .error e { p with cluster := c } := by
  have hrun : (Process.onCluster (getNodesInCluster args)).run p =
      .error e { p with cluster := c } := by
    show p.withCluster ((getNodesInCluster args).run p.cluster) = _
    rw [h]
    rfl
  rw [workBody_of_registered (accepted_request _ _ _) serves parses]
  exact Cpp.run_bind_error hrun _

/-- A worker answers a `GetNodesInCluster` request as it should exactly if the
    arguments can be answered. -/
theorem nodesRequest_answered_iff (p : Process) :
    Answered text identity args p.cluster
        ((workBody text pool (some [identity, "GetNodesInCluster", argsStr])).run p) ↔
      Answerable args p.cluster := by
  cases hreg : registration args with
  | some n =>
    -- A registration is always answered: what counts is whether it may change the table.
    rw [workBody_of_handled serves parses (run_getNodesInCluster_of_registration hreg p.cluster)]
    obtain ⟨members, value, rfl, hflag, hhost, hport, hread⟩ := registration_eq_some_iff.mp hreg
    have hasks : AsksToRegister (.object members) ↔ value.typeName = "number" := by
      simp [AsksToRegister, hflag, hhost, hport]
    have hanswerable : Answerable (.object members) p.cluster ↔
        value.typeName = "number" ∨ p.cluster.register n = p.cluster := by
      simp [Answerable, hflag, hhost, hport, hread, register_eq_self_iff]
    rw [hanswerable, Answered, hasks]
    by_cases hsame : p.cluster.register n = p.cluster
    · simp [hsame]
    · simp [hsame]
  | none =>
    by_cases hreads : (args.constAt "register_node").bind Json.getBool = .ok false
    · rw [workBody_of_handled serves parses (run_getNodesInCluster_of_read hreads p.cluster)]
      obtain ⟨members, rfl, hflag⟩ := readsOnly_iff.mp hreads
      simp [Answered, Answerable, hflag]
    · obtain ⟨e, hthrows⟩ := run_getNodesInCluster_throws hreg hreads
      rw [workBody_of_thrown serves parses (hthrows p.cluster)]
      simp only [Answered, false_iff]
      rintro ⟨members, rfl, hflag | ⟨hflag, host, value, port, hhost, hport, hread, -⟩⟩
      · exact hreads (readsOnly_iff.mpr ⟨members, rfl, hflag⟩)
      · have hsome : registration (.object members) = some ⟨host, port⟩ :=
          registration_eq_some_iff.mpr ⟨members, value, rfl, hflag, hhost, hport, hread⟩
        rw [hreg] at hsome
        cases hsome

end

/-- The pool of a node, and a request that only reads. -/
def nodesPool : RPCServerWorkerPool Process :=
  ofRegistrations [("GetNodesInCluster", fun args => Process.onCluster (getNodesInCluster args))]

def readRequest : Json := .object [("register_node", .boolean false)]

theorem servesNodes_nodesPool : ServesNodes nodesPool := by
  rw [ServesNodes, nodesPool, lookup_ofRegistrations]
  rfl

theorem nodesRequest_answered_read :
    Answered (.ofFormat Json.noFloats) "client" readRequest (new.addNode ⟨"r", 1⟩)
        ((workBody (.ofFormat Json.noFloats) nodesPool
          (some ["client", "GetNodesInCluster", "\x7b\"register_node\":false\x7d"])).run
            (IMQNode.new ⟨"r", 1⟩ (Process.initial {}))) ↔
      Answerable readRequest (new.addNode ⟨"r", 1⟩) := by
  have hparse : (JsonText.ofFormat Json.noFloats).parse "\x7b\"register_node\":false\x7d" =
      .ok readRequest := rfl
  exact nodesRequest_answered_iff servesNodes_nodesPool hparse
    (IMQNode.new ⟨"r", 1⟩ (Process.initial {}))

/-- Without arguments the handler throws, and the worker is gone. -/
theorem nodesRequest_ends_worker :
    (workBody (.ofFormat Json.noFloats) nodesPool
      (some ["client", "GetNodesInCluster", "null"])).run
        (IMQNode.new ⟨"r", 1⟩ (Process.initial {})) =
      .error (.domainError "cannot use operator[] with null")
        (IMQNode.new ⟨"r", 1⟩ (Process.initial {})) := by
  have hthrows : (getNodesInCluster .null).run (new.addNode ⟨"r", 1⟩) =
      .error (.domainError "cannot use operator[] with null") (new.addNode ⟨"r", 1⟩) := rfl
  exact workBody_of_thrown servesNodes_nodesPool rfl hthrows

end Imq
