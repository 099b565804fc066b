import Imq.Lib.Runs
import Imq.Verified.Bootstrap

/-! # The three views of membership

`NodeInCluster` compares with every slot, free ones included, while the two
listings leave out the slots with the empty host.

* `viewsAgree_iff` — when the three agree on a node, in one table;
* `always_viewsAgree_iff` — when they do so throughout a run.
-/

namespace Imq

open Lib Cluster IMQNode

/-- A call of `AddNode`, a request to the `GetNodesInCluster` handler, or a call
    of `RemoveNode`. -/
inductive TableCall where
  | addNode (node : HostAndPort)
  | request (args : Json)
  | removeNode (node : HostAndPort)

/-- The node that the call puts into the table, if there is a slot for it. -/
def TableCall.adds : TableCall → Option HostAndPort
  | addNode node => some node
  | request args => registration args
  | removeNode _ => none

namespace Cluster

def perform (c : Cluster) : TableCall → Cluster
  | .addNode node => c.addNode node
  | .request args => Cpp.stateOf ((IMQNode.getNodesInCluster args).run c)
  | .removeNode node => c.removeNode node

/-- `NodeInCluster`, the two listings and `GetNodeClient` agree on a node. -/
structure ViewsAgree (c : Cluster) (n : HostAndPort) : Prop where
  listed : c.nodeInCluster n = true ↔ n ∈ c.getNodesInCluster
  indexed : n ∈ c.getNodesInCluster ↔ ∃ i, (i, n) ∈ c.getNodesWithIdxInCluster
  client : ∀ p : Process, p.cluster = c →
    ((∃ e p', (getNodeClient n).run p = .error e p') ↔ n ∉ c.getNodesInCluster)

/-! ## One table -/

theorem mem_getNodesInCluster_iff_indexed {c : Cluster} {n : HostAndPort} :
    n ∈ c.getNodesInCluster ↔ ∃ i, (i, n) ∈ c.getNodesWithIdxInCluster := by
  simp [mem_getNodesInCluster, mem_getNodesWithIdxInCluster, Slots.Holds]

theorem getNodeClient_throws_iff {p : Process} {n : HostAndPort} :
    (∃ e p', (getNodeClient n).run p = .error e p') ↔ p.cluster.nodeInCluster n = false := by
  cases h : p.cluster.nodeInCluster n with
  | true => simp [run_getNodeClient h]
  | false => simp [run_getNodeClient_of_absent h]

/-- A node with the empty host is never listed. -/
theorem notMem_getNodesInCluster_of_empty {c : Cluster} {n : HostAndPort} (h : n.host = "") :
    n ∉ c.getNodesInCluster := by
  intro hmem
  exact host_of_holds (mem_getNodesInCluster.mp hmem) h

theorem nodeInCluster_iff_mem {c : Cluster} {n : HostAndPort} :
    (c.nodeInCluster n = true ↔ n ∈ c.getNodesInCluster) ↔
      n.host ≠ "" ∨ c.nodeInCluster n = false := by
  by_cases hn : n.host = ""
  · simp [hn, notMem_getNodesInCluster_of_empty hn]
  · simp [hn, mem_getNodesInCluster, nodeInCluster_iff hn]

/-- The views agree on a node that has a host, and on one without exactly if no
    slot holds it. -/
theorem viewsAgree_iff {c : Cluster} {n : HostAndPort} :
    ViewsAgree c n ↔ n.host ≠ "" ∨ c.nodeInCluster n = false := by
  rw [← nodeInCluster_iff_mem]
  constructor
  · intro h
    exact h.listed
  · intro h
    refine ⟨h, mem_getNodesInCluster_iff_indexed, ?_⟩
    rintro p rfl
    rw [getNodeClient_throws_iff, ← h]
    simp

/-! ## One call -/

section

variable {c : Cluster} {n : HostAndPort} (absent : c.nodeInCluster n = false)

include absent

theorem nodeInCluster_setNode (i : Fin MAX_NUM_NODES) (m : HostAndPort) :
    (c.setNode i m).nodeInCluster n = false ↔ m ≠ n := by
  have hnone : ∀ j, c.node j ≠ n := by
    intro j hj
    rw [nodeInCluster_eq_true_iff.mpr ⟨j, hj⟩] at absent
    cases absent
  rw [← Bool.not_eq_true, nodeInCluster_eq_true_iff]
  constructor
  · intro h hm
    exact h ⟨i, by simp [hm]⟩
  · rintro hm ⟨j, hj⟩
    by_cases hji : j = i
    · simp [hji, hm] at hj
    · simp [hji, hnone j] at hj

theorem nodeInCluster_addNode (m : HostAndPort) :
    (c.addNode m).nodeInCluster n = false ↔ (m = n → ∀ i, (c.node i).host ≠ "") := by
  cases hf : c.view.firstFree with
  | none =>
    have hfull := Slots.firstFree_eq_none_iff.mp hf
    simp [addNode_of_full hfull, absent, full_view_iff.mp hfull]
  | some i =>
    have hi : (c.node i).host = "" := listed_eq_none_iff.mp (Slots.firstFree_eq_some_iff.mp hf).1
    have hfree : ¬ ∀ j, (c.node j).host ≠ "" := fun h => h i hi
    simp only [addNode_of_firstFree hf, nodeInCluster_setNode absent, hfree, imp_false, ne_eq]

theorem nodeInCluster_register_of_absent (m : HostAndPort) :
    (c.register m).nodeInCluster n = false ↔ (m = n → ∀ i, (c.node i).host ≠ "") := by
  by_cases hm : c.nodeInCluster m = true
  · have hne : m ≠ n := by
      rintro rfl
      simp [hm] at absent
    simp [register, hm, absent, hne]
  · rw [register, if_neg hm]
    exact nodeInCluster_addNode absent m

/-- A node with the empty host stays out of the table as long as no call puts it
    into a free slot. -/
theorem nodeInCluster_perform (port : n ≠ {}) (call : TableCall) :
    (c.perform call).nodeInCluster n = false ↔
      (call.adds = some n → ∀ i, (c.node i).host ≠ "") := by
  cases call with
  | addNode m => simpa [perform, TableCall.adds] using nodeInCluster_addNode absent m
  | request args =>
    simp only [perform, TableCall.adds, stateOf_getNodesInCluster, afterRequest]
    cases registration args with
    | none => simp [absent]
    | some m => simpa using nodeInCluster_register_of_absent absent m
  | removeNode m =>
    obtain hsame | ⟨i, _, hset⟩ := removeNode_cases c m
    · simp [perform, TableCall.adds, hsame, absent]
    · simp [perform, TableCall.adds, hset, nodeInCluster_setNode absent, port.symm]

end

/-! ## Whole runs -/

theorem nodeInCluster_new (n : HostAndPort) : new.nodeInCluster n = false ↔ n ≠ {} := by
  rw [← Bool.not_eq_true, nodeInCluster_eq_true_iff]
  simp [eq_comm]

/-- From a table without nodes on, the views agree on a node throughout a run
    exactly if the node has a host, or else has a port and no call finds a free
    slot for it. -/
theorem always_viewsAgree_iff (calls : List TableCall) (n : HostAndPort) :
    Always (fun c => ViewsAgree c n) perform new calls ↔
      n.host ≠ "" ∨ (n.port ≠ 0 ∧
        Guarded (fun c call => call.adds = some n → ∀ i, (c.node i).host ≠ "") perform new
          calls) := by
  by_cases hhost : n.host = ""
  · have hagree : ∀ c : Cluster, ViewsAgree c n ↔ c.nodeInCluster n = false := by
      simp [viewsAgree_iff, hhost]
    simp only [hhost, ne_eq, not_true_eq_false, false_or, hagree]
    by_cases hport : n.port = 0
    · -- Every slot holds such a node from the start.
      have hdefault : n = {} := by
        obtain ⟨host, port⟩ := n
        simp_all
      have hstart : new.nodeInCluster n ≠ false := by
        simp [nodeInCluster_new, hdefault]
      simp only [hport, not_true_eq_false, false_and, iff_false]
      exact fun h => hstart h.head
    · have hne : n ≠ {} := by
        rintro rfl
        exact hport rfl
      have hexact : ∀ (c : Cluster) (call : TableCall), True → True →
          c.nodeInCluster n = false → ((c.perform call).nodeInCluster n = false ↔
            (call.adds = some n → ∀ i, (c.node i).host ≠ "")) :=
        fun _ call _ _ absent => nodeInCluster_perform absent hne call
      rw [and_iff_right hport]
      exact always_iff_guarded (fun _ _ _ _ => trivial) hexact trivial
        ((nodeInCluster_new n).mpr hne) (guarded_of_forall fun _ _ _ => trivial)
  · have hagree : ∀ (c : Cluster) (call : TableCall), ViewsAgree c n → True →
        ViewsAgree (c.perform call) n := fun _ _ _ _ => viewsAgree_iff.mpr (.inl hhost)
    have hall : Always (fun c => ViewsAgree c n) perform new calls :=
      always_of_guarded hagree (viewsAgree_iff.mpr (.inl hhost))
        (guarded_of_forall fun _ _ _ => trivial)
    simp [hhost, hall]

/-- The free slots of a table pass for a node that nobody lists. -/
theorem views_disagree :
    (new.perform (.addNode ⟨"r", 1⟩)).nodeInCluster ⟨"", 0⟩ = true ∧
      ⟨"", 0⟩ ∉ (new.perform (.addNode ⟨"r", 1⟩)).getNodesInCluster := by
  decide

end Cluster

end Imq
