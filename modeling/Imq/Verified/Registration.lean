import Imq.Lib.Runs
import Imq.Verified.Membership

/-! # Registrations and removals, one at a time

* `registration_acknowledged_iff` — a requester learns from the reply that it
  has been registered exactly if it was listed or there was a free slot;
* `table_refines_bounded_set` — over runs of registrations and removals the
  table is a set of at most `MAX_NUM_NODES` nodes whose members keep their slots.
-/

namespace Imq

open Lib Cluster IMQNode

/-! ## What the requester learns -/

/-- The reply lists the node, under the index of some slot. -/
def ListedIn (reply : Json) (n : HostAndPort) : Prop :=
  ∃ nodes i, reply.constAt "nodes" = .ok nodes ∧
    (Except.ok (keyOf i), Json.string n.toString) ∈ nodes.items

def ReportsError (reply : Json) : Prop := ∃ error, reply.constAt "error" = .ok error

/-- The requester is in the table and in the list returned, or an error is
    reported to it. -/
def Acknowledges (requester : HostAndPort) : EStateM.Result Exn Cluster Json → Prop
  | .ok reply c =>
    (requester ∈ c.getNodesInCluster ∧ ListedIn reply requester) ∨ ReportsError reply
  | .error _ _ => True

theorem listedIn_replyOf {c : Cluster} {n : HostAndPort} (h : n ∈ c.getNodesInCluster) :
    ListedIn c.replyOf n := by
  obtain ⟨i, hi⟩ := mem_getNodesInCluster.mp h
  have hnodes : c.replyOf.constAt "nodes" = .ok c.nodesJson := by
    simp [replyOf, Json.constAt]
  refine ⟨c.nodesJson, i, hnodes, ?_⟩
  rw [nodesJson, Json.items_ofMembers, List.map_map]
  exact List.mem_map.mpr ⟨(i, n), mem_sentEntries.mpr hi, rfl⟩

theorem not_reportsError_replyOf (c : Cluster) : ¬ ReportsError c.replyOf := by
  rintro ⟨error, h⟩
  have hnone : [("nodes", c.nodesJson)].lookup "error" = none := by
    simp
  rw [replyOf, Json.constAt, hnone] at h
  cases h

theorem mem_getNodesInCluster_register_iff {c : Cluster} {n : HostAndPort} (hn : n.host ≠ "") :
    n ∈ (c.register n).getNodesInCluster ↔
      c.nodeInCluster n = true ∨ ∃ i, (c.node i).host = "" := by
  rw [mem_getNodesInCluster, view_register c hn, nodeInCluster_iff hn]
  by_cases hold : c.view.Holds n
  · simp [Slots.register_of_holds hold, hold]
  · rw [Slots.register_of_not_holds hold, or_iff_right hold]
    have hfree : (∃ i, (c.node i).host = "") ↔ ¬ c.view.Full := by
      simp [full_view_iff]
    rw [hfree]
    by_cases hfull : c.view.Full
    · -- `AddNode` falls through its loop.
      rw [Slots.insert_of_full hfull]
      simp [hold, hfull]
    · simp [Slots.holds_insert_iff hfull, hfull]

/-- A registration is acknowledged exactly if the requester was listed already
    or there was a free slot for it. -/
theorem registration_acknowledged_iff {args : Json} {requester : HostAndPort}
    (h : registration args = some requester) (hhost : requester.host ≠ "") (c : Cluster) :
    Acknowledges requester ((getNodesInCluster args).run c) ↔
      c.nodeInCluster requester = true ∨ ∃ i, (c.node i).host = "" := by
  rw [run_getNodesInCluster_of_registration h, ← mem_getNodesInCluster_register_iff hhost]
  constructor
  · intro hack
    exact (hack.resolve_right (not_reportsError_replyOf _)).1
  · intro hmem
    exact .inl ⟨hmem, listedIn_replyOf hmem⟩

theorem registration_acknowledged_fresh :
    Acknowledges ⟨"a", 1⟩ ((getNodesInCluster (registerArgs ⟨"a", 1⟩)).run (new.addNode ⟨"r", 1⟩)) :=
  (registration_acknowledged_iff (registration_registerArgs ⟨"a", 1⟩) (by decide)
    (new.addNode ⟨"r", 1⟩)).mpr (.inr ⟨1, by decide⟩)

theorem cluster_exec_request (p : Process) (requesters : List HostAndPort) :
    (exec Process.step p (requesters.map fun n => .request (registerArgs n))).cluster =
      requesters.foldl register p.cluster := by
  induction requesters generalizing p with
  | nil => rfl
  | cons n rest ih =>
    rw [List.map_cons, exec_cons, ih, Process.step_request, afterRequest_registerArgs]
    rfl

/-- As many other nodes as the table of a new node has free slots. -/
def otherNodes : List HostAndPort := (List.range 29).map fun k => ⟨"n", UInt32.ofNat k⟩

theorem view_foldl_register {l ns : List HostAndPort} {c : Cluster} (h : c.view = Slots.ofList l)
    (hnd : (l ++ ns).Nodup) (hlen : (l ++ ns).length ≤ MAX_NUM_NODES)
    (hosts : ∀ n ∈ ns, n.host ≠ "") :
    (ns.foldl register c).view = Slots.ofList (l ++ ns) := by
  rw [← Slots.foldl_register_ofList hnd hlen, ← h]
  clear h hnd hlen
  induction ns generalizing c with
  | nil => rfl
  | cons n rest ih =>
    rw [List.foldl_cons, ih fun m hm => hosts m (List.mem_cons_of_mem n hm),
      view_register c (hosts n List.mem_cons_self), List.foldl_cons]

theorem nodup_otherNodes : (⟨"r", 1⟩ :: otherNodes).Nodup := by
  decide

theorem host_otherNodes {n : HostAndPort} (h : n ∈ otherNodes) : n.host ≠ "" := by
  obtain ⟨k, _, rfl⟩ := List.mem_map.mp h
  show "n" ≠ ""
  decide

/-- A node with which all of them have registered. -/
def fullNode : Process :=
  exec Process.step (IMQNode.new ⟨"r", 1⟩ (Process.initial {}))
    (otherNodes.map fun n => .request (registerArgs n))

theorem view_fullNode : fullNode.cluster.view = Slots.ofList (⟨"r", 1⟩ :: otherNodes) := by
  have hself : (new.addNode ⟨"r", 1⟩).view = Slots.ofList [⟨"r", 1⟩] :=
    view_addNode_new (by decide)
  rw [fullNode, cluster_exec_request]
  exact view_foldl_register hself nodup_otherNodes (by decide) fun _ => host_otherNodes

theorem not_holds_fullNode : ¬ fullNode.cluster.view.Holds ⟨"a", 1⟩ := by
  rw [view_fullNode, Slots.holds_ofList (by decide)]
  decide

theorem full_fullNode : fullNode.cluster.view.Full := by
  rw [view_fullNode]
  exact Slots.full_ofList (by decide)

/-- The requester of one registration too many gets a member list that lacks
    it. -/
theorem registration_dropped :
    fullNode.Reachable ⟨"r", 1⟩ ∧
      ¬ Acknowledges ⟨"a", 1⟩
        ((getNodesInCluster (registerArgs ⟨"a", 1⟩)).run fullNode.cluster) := by
  have hreach : fullNode.Reachable ⟨"r", 1⟩ :=
    ⟨{}, otherNodes.map fun n => .request (registerArgs n), rfl⟩
  have hsame : (fullNode.cluster.register ⟨"a", 1⟩).view = fullNode.cluster.view := by
    rw [view_register _ (by decide), Slots.register_of_not_holds not_holds_fullNode,
      Slots.insert_of_full full_fullNode]
  rw [run_getNodesInCluster_register]
  refine ⟨hreach, fun hack => ?_⟩
  have hmem := (hack.resolve_right (not_reportsError_replyOf _)).1
  rw [mem_getNodesInCluster, hsame] at hmem
  exact not_holds_fullNode hmem

/-! ## The table as a bounded set -/

/-- A request of a node to be registered, answered by the handler, or a call of
    `RemoveNode`. -/
inductive TableEvent where
  | register (node : HostAndPort)
  | remove (node : HostAndPort)

namespace TableEvent

def node : TableEvent → HostAndPort
  | register node => node
  | remove node => node

/-- A node that registers has a host. -/
def Named : TableEvent → Prop
  | register node => node.host ≠ ""
  | remove _ => True

end TableEvent

/-- The set of nodes after an event. -/
def setStep (s : Finset HostAndPort) : TableEvent → Finset HostAndPort
  | .register node => insertBounded MAX_NUM_NODES s node
  | .remove node => s.erase node

namespace Cluster

def tableStep (c : Cluster) : TableEvent → Cluster
  | .register node => Cpp.stateOf ((IMQNode.getNodesInCluster (registerArgs node)).run c)
  | .remove node => c.removeNode node

theorem tableStep_register (c : Cluster) (n : HostAndPort) :
    c.tableStep (.register n) = c.register n := by
  show Cpp.stateOf ((IMQNode.getNodesInCluster (registerArgs n)).run c) = _
  rw [run_getNodesInCluster_register]
  rfl

theorem tableStep_remove (c : Cluster) (n : HostAndPort) :
    c.tableStep (.remove n) = c.removeNode n := rfl

/-- The table holds a set of nodes in slots of their own: what the next event
    does to it, and what its listings say. -/
structure BoundedSetRule (c : Cluster) : Prop where
  /-- A node that is not listed takes the lowest empty slot, as long as there are
      fewer than `MAX_NUM_NODES`. -/
  added : ∀ n, n.host ≠ "" → n ∉ c.getNodesInCluster →
    c.getNodesInCluster.length < MAX_NUM_NODES →
    ∃ i, (c.node i).host = "" ∧ (∀ j < i, (c.node j).host ≠ "") ∧
      c.tableStep (.register n) = c.setNode i n
  unchanged : ∀ n, n.host ≠ "" →
    n ∈ c.getNodesInCluster ∨ c.getNodesInCluster.length = MAX_NUM_NODES →
    c.tableStep (.register n) = c
  removed : ∀ n ∈ c.getNodesInCluster, ∃ i, c.node i = n ∧
    c.tableStep (.remove n) = c.setNode i {} ∧
    n ∉ (c.tableStep (.remove n)).getNodesInCluster
  absent : ∀ n, n ∉ c.getNodesInCluster → c.tableStep (.remove n) = c
  /-- Every other node keeps its slot. -/
  others : ∀ e : TableEvent, ∀ m ≠ e.node, m.host ≠ "" → ∀ i,
    (c.tableStep e).node i = m ↔ c.node i = m
  once : c.getNodesInCluster.Nodup
  /-- The listing with indices holds exactly the occupied slots, in order. -/
  indexed : ∀ i n, (i, n) ∈ c.getNodesWithIdxInCluster ↔ c.node i = n ∧ n.host ≠ ""
  increasing : (c.getNodesWithIdxInCluster.map Prod.fst).Pairwise (· < ·)
  nodes : c.getNodesInCluster = c.getNodesWithIdxInCluster.map Prod.snd

/-! ### Listings -/

theorem map_fst_getNodesWithIdxInCluster (c : Cluster) :
    c.getNodesWithIdxInCluster.map Prod.fst =
      (List.finRange MAX_NUM_NODES).filter fun i => (c.view i).isSome := by
  rw [getNodesWithIdxInCluster_eq, List.map_filterMap, ← List.filterMap_eq_filter]
  congr 1
  funext i
  cases h : c.view i <;> simp [Option.guard, h]

theorem map_snd_getNodesWithIdxInCluster (c : Cluster) :
    c.getNodesWithIdxInCluster.map Prod.snd = c.getNodesInCluster := by
  rw [getNodesWithIdxInCluster_eq, List.map_filterMap, getNodesInCluster_eq]
  congr 1
  funext i
  cases h : c.view i <;> simp

/-! ### One event -/

section

variable {c : Cluster} (nodup : c.NoDuplicate) (clean : c.Clean)

theorem tableStep_added {n : HostAndPort} (hn : n.host ≠ "") (absent : n ∉ c.getNodesInCluster)
    (few : c.getNodesInCluster.length < MAX_NUM_NODES) :
    ∃ i, (c.node i).host = "" ∧ (∀ j < i, (c.node j).host ≠ "") ∧
      c.tableStep (.register n) = c.setNode i n := by
  rw [getNodesInCluster_eq_elements, Slots.length_elements_lt_iff] at few
  rw [mem_getNodesInCluster, ← nodeInCluster_iff hn] at absent
  cases hf : c.view.firstFree with
  | none => exact absurd (Slots.firstFree_eq_none_iff.mp hf) few
  | some i =>
    obtain ⟨hi, hlow⟩ := Slots.firstFree_eq_some_iff.mp hf
    refine ⟨i, listed_eq_none_iff.mp hi, fun j hj he => hlow j hj (listed_of_empty he), ?_⟩
    rw [tableStep_register, register, if_neg absent, addNode_of_firstFree hf]

theorem tableStep_unchanged {n : HostAndPort} (hn : n.host ≠ "")
    (h : n ∈ c.getNodesInCluster ∨ c.getNodesInCluster.length = MAX_NUM_NODES) :
    c.tableStep (.register n) = c := by
  rw [tableStep_register, register]
  by_cases hold : c.nodeInCluster n = true
  · rw [if_pos hold]
  · rw [if_neg hold]
    rw [mem_getNodesInCluster, ← nodeInCluster_iff hn, or_iff_right hold,
      getNodesInCluster_eq_elements, Slots.length_elements_eq_iff] at h
    exact addNode_of_full h n

include nodup in
theorem tableStep_removed {n : HostAndPort} (listed : n ∈ c.getNodesInCluster) :
    ∃ i, c.node i = n ∧ c.tableStep (.remove n) = c.setNode i {} ∧
      n ∉ (c.tableStep (.remove n)).getNodesInCluster := by
  have hold := mem_getNodesInCluster.mp listed
  have hn := host_of_holds hold
  have hsome : c.view.slotOf n ≠ none := fun hnone => Slots.slotOf_eq_none_iff.mp hnone hold
  obtain ⟨i, hs⟩ := Option.ne_none_iff_exists'.mp hsome
  have hi : c.view i = some n := (Slots.slotOf_eq_some_iff.mp hs).1
  have hremove : c.removeNode n = c.setNode i {} := by
    rw [slotOf_view c hn] at hs
    unfold removeNode
    rw [hs]
  have hgone : ¬ (c.removeNode n).view.Holds n := by
    rw [view_removeNode c hn, Slots.holds_erase_iff nodup]
    exact fun h => h.2 rfl
  exact ⟨i, (view_eq_some_iff hn).mp hi, hremove, fun h => hgone (mem_getNodesInCluster.mp h)⟩

include clean in
theorem removeNode_of_absent {n : HostAndPort} (absent : n ∉ c.getNodesInCluster) :
    c.removeNode n = c := by
  obtain hsame | ⟨i, hi, hset⟩ := removeNode_cases c n
  · exact hsame
  · -- Only a free slot can hold the address, and it is made what it is.
    have hhost : (c.node i).host = "" := by
      by_contra hne
      exact absent (mem_getNodesInCluster.mpr ⟨i, (view_eq_some_iff (hi ▸ hne)).mpr hi⟩)
    rw [hset]
    refine ext_node fun j => ?_
    by_cases hj : j = i
    · rw [hj, node_setNode_self, clean i hhost]
    · rw [node_setNode_of_ne c hj]

include nodup in
theorem node_tableStep_iff (e : TableEvent) {m : HostAndPort} (hne : m ≠ e.node)
    (hm : m.host ≠ "") (i : Fin MAX_NUM_NODES) :
    (c.tableStep e).node i = m ↔ c.node i = m := by
  rw [← view_eq_some_iff hm, ← view_eq_some_iff hm]
  cases e with
  | register n =>
    rw [tableStep_register]
    exact view_register_apply_iff (.inl hne) i
  | remove n =>
    rw [tableStep_remove]
    by_cases hn : n.host = ""
    · rw [view_removeNode_of_empty c hn]
    · rw [view_removeNode c hn, Slots.erase_apply nodup]
      by_cases hi : c.view i = some n
      · rw [if_pos hi, hi, Option.some.injEq]
        exact ⟨fun h => (by cases h), fun h => absurd h.symm hne⟩
      · rw [if_neg hi]

include nodup clean in
theorem boundedSetRule_of_inv : BoundedSetRule c where
  added _ := tableStep_added
  unchanged _ := tableStep_unchanged
  removed _ := tableStep_removed nodup
  absent _ := removeNode_of_absent clean
  others e _ := node_tableStep_iff nodup e
  once := nodup_getNodesInCluster nodup
  indexed i n := by
    rw [mem_getNodesWithIdxInCluster, view_apply, listed_eq_some_iff]
  increasing := by
    rw [map_fst_getNodesWithIdxInCluster]
    exact (List.pairwise_lt_finRange MAX_NUM_NODES).filter _
  nodes := c.map_snd_getNodesWithIdxInCluster.symm

include nodup in
theorem noDuplicate_tableStep (e : TableEvent) : (c.tableStep e).NoDuplicate := by
  cases e with
  | register n =>
    rw [tableStep_register]
    exact noDuplicate_register nodup n
  | remove n => exact noDuplicate_removeNode nodup n

include clean in
theorem clean_tableStep {e : TableEvent} (named : e.Named) : (c.tableStep e).Clean := by
  cases e with
  | register n =>
    rw [tableStep_register]
    exact clean_register clean named
  | remove n => exact clean_removeNode clean n

include nodup in
theorem members_tableStep {e : TableEvent} (named : e.Named) :
    (c.tableStep e).view.members = setStep c.view.members e := by
  cases e with
  | register n =>
    rw [tableStep_register, view_register c named]
    exact Slots.members_register nodup n
  | remove n =>
    rw [tableStep_remove]
    show _ = c.view.members.erase n
    by_cases hn : n.host = ""
    · have hnot : n ∉ c.view.members := fun h => host_of_holds (Slots.mem_members.mp h) hn
      rw [view_removeNode_of_empty c hn, Finset.erase_eq_of_notMem hnot]
    · rw [view_removeNode c hn, Slots.members_erase nodup]

end

/-! ### Whole runs -/

/-- From the constructor's table on, whatever registers and is removed, the
    table is a set of at most `MAX_NUM_NODES` nodes with slots of their own. -/
theorem table_refines_bounded_set (metaStore : HostAndPort) {self : HostAndPort}
    (hself : self.host ≠ "") (events : List TableEvent) (named : ∀ e ∈ events, e.Named) :
    Always BoundedSetRule tableStep (IMQNode.new self (Process.initial metaStore)).cluster events ∧
    (exec tableStep (IMQNode.new self (Process.initial metaStore)).cluster events).view.members =
      exec setStep {self} events := by
  have hnew : (new.addNode self).view = Slots.ofList [self] := view_addNode_new hself
  have hinit : (new.addNode self).NoDuplicate ∧ (new.addNode self).Clean :=
    ⟨noDuplicate_addNode_new self, clean_addNode clean_new hself⟩
  have hkeep : ∀ (c : Cluster) (e : TableEvent), c.NoDuplicate ∧ c.Clean → e.Named →
      (c.tableStep e).NoDuplicate ∧ (c.tableStep e).Clean :=
    fun _ e h he => ⟨noDuplicate_tableStep h.1 e, clean_tableStep h.2 he⟩
  have hcommute : ∀ (c : Cluster) (e : TableEvent), c.NoDuplicate ∧ c.Clean → e.Named →
      (c.tableStep e).view.members = setStep c.view.members e :=
    fun _ _ h he => members_tableStep h.1 he
  have hguard : Guarded (fun _ e => e.Named) tableStep (new.addNode self) events :=
    guarded_of_forall fun _ => named
  constructor
  · exact (always_of_guarded hkeep hinit hguard).mono fun _ h => boundedSetRule_of_inv h.1 h.2
  · -- The set of a table with one member.
    have hself : (new.addNode self).view.members = {self} := by
      ext n
      rw [Slots.mem_members, hnew, Slots.holds_ofList (by simp [MAX_NUM_NODES])]
      simp
    rw [← hself]
    exact exec_abstract (fun c => c.view.members) hkeep hcommute hinit hguard

/-- A hole that is used again. -/
def reuse : List TableEvent :=
  [.register ⟨"a", 1⟩, .register ⟨"b", 2⟩, .remove ⟨"a", 1⟩, .register ⟨"c", 3⟩]

theorem table_refines_bounded_set_reuse :
    Always BoundedSetRule tableStep (IMQNode.new ⟨"r", 1⟩ (Process.initial {})).cluster reuse ∧
    (exec tableStep (IMQNode.new ⟨"r", 1⟩ (Process.initial {})).cluster reuse).view.members =
      exec setStep {⟨"r", 1⟩} reuse := by
  have hnamed : ∀ e ∈ reuse, e.Named := by
    simp [reuse, TableEvent.Named]
  exact table_refines_bounded_set {} (by decide) reuse hnamed

end Cluster

end Imq
