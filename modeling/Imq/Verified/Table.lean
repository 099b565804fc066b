import Imq.Cluster
import Imq.Lib.BoundedSet

/-! # The member table as a slot array

`Cluster.view` reads the table as a sparse slot array: a slot with the empty
host is empty.  Under this view the operations of the table are those of
`Lib.Slots`, and its three listings are the elements of the array.
-/

namespace Imq.Cluster

open Imq.Lib

theorem ext_node {c d : Cluster} (h : ∀ i, c.node i = d.node i) : c = d := by
  obtain ⟨ns⟩ := c
  obtain ⟨ms⟩ := d
  have hv : ns = ms := Vector.ext fun i hi => h ⟨i, hi⟩
  rw [hv]

@[simp] theorem node_setNode_self (c : Cluster) (i : Fin MAX_NUM_NODES) (n : HostAndPort) :
    (c.setNode i n).node i = n := by
  simp [node, setNode]

@[simp] theorem node_setNode_of_ne (c : Cluster) {i j : Fin MAX_NUM_NODES} (h : j ≠ i)
    (n : HostAndPort) : (c.setNode i n).node j = c.node j := by
  have hne : i.val ≠ j.val := fun he => h (Fin.ext he.symm)
  simp [node, setNode, Vector.getElem_set_ne _ _ hne]

@[simp] theorem node_new (i : Fin MAX_NUM_NODES) : new.node i = {} := by
  simp [node, new]

theorem node_setNode (c : Cluster) (i : Fin MAX_NUM_NODES) (n : HostAndPort) :
    (c.setNode i n).node = Function.update c.node i n := by
  funext j
  by_cases h : j = i
  · simp [h]
  · simp [h]

/-! ## The view -/

/-- What a slot with this content lists. -/
def listed (n : HostAndPort) : Option HostAndPort := if n.host = "" then none else some n

theorem listed_of_host {n : HostAndPort} (h : n.host ≠ "") : listed n = some n := if_neg h

theorem listed_of_empty {n : HostAndPort} (h : n.host = "") : listed n = none := if_pos h

theorem listed_eq_some_iff {n m : HostAndPort} : listed n = some m ↔ n = m ∧ m.host ≠ "" := by
  unfold listed
  split
  next h =>
    refine ⟨fun he => (by cases he), fun ⟨hnm, hm⟩ => absurd (hnm ▸ h) hm⟩
  next h =>
    refine ⟨fun he => ?_, fun ⟨hnm, _⟩ => congrArg some hnm⟩
    cases he
    exact ⟨rfl, h⟩

theorem listed_eq_none_iff {n : HostAndPort} : listed n = none ↔ n.host = "" := by
  unfold listed
  split
  next h => simp [h]
  next h => simp [h]

/-- The table as a slot array. -/
def view (c : Cluster) : Slots MAX_NUM_NODES HostAndPort := fun i => listed (c.node i)

theorem view_apply (c : Cluster) (i : Fin MAX_NUM_NODES) : c.view i = listed (c.node i) := rfl

theorem view_eq_some_iff {c : Cluster} {i : Fin MAX_NUM_NODES} {n : HostAndPort} (h : n.host ≠ "") :
    c.view i = some n ↔ c.node i = n := by
  rw [view_apply, listed_eq_some_iff, and_iff_left h]

theorem host_of_holds {c : Cluster} {n : HostAndPort} (h : c.view.Holds n) : n.host ≠ "" := by
  obtain ⟨i, hi⟩ := h
  exact (listed_eq_some_iff.mp hi).2

theorem full_view_iff {c : Cluster} : c.view.Full ↔ ∀ i, (c.node i).host ≠ "" := by
  simp [Slots.Full, view_apply, listed_eq_none_iff]

theorem view_new : new.view = Slots.empty := by
  funext i
  rw [view_apply, node_new]
  rfl

theorem view_setNode (c : Cluster) (i : Fin MAX_NUM_NODES) (n : HostAndPort) :
    (c.setNode i n).view = Function.update c.view i (listed n) := by
  funext j
  by_cases h : j = i
  · subst h
    simp [view_apply]
  · simp [view_apply, h]

/-! ## Operations -/

theorem nodeInCluster_eq_true_iff {c : Cluster} {n : HostAndPort} :
    c.nodeInCluster n = true ↔ ∃ i, c.node i = n := by
  simp only [nodeInCluster, List.any_eq_true, beq_iff_eq, exists_eq_right, Vector.mem_toList_iff,
    Vector.mem_iff_getElem, node]
  constructor
  · intro ⟨i, hi, h⟩
    exact ⟨⟨i, hi⟩, h⟩
  · intro ⟨i, h⟩
    exact ⟨i.val, i.isLt, h⟩

theorem nodeInCluster_iff {c : Cluster} {n : HostAndPort} (h : n.host ≠ "") :
    c.nodeInCluster n = true ↔ c.view.Holds n := by
  rw [nodeInCluster_eq_true_iff]
  exact exists_congr fun i => (view_eq_some_iff h).symm

/-- The search of `AddNode` is the search for the lowest empty slot. -/
theorem firstFree_view (c : Cluster) :
    c.view.firstFree = Fin.find? fun i => (c.node i).host == "" := by
  unfold Slots.firstFree
  congr 1
  funext i
  by_cases h : (c.node i).host = ""
  · simp [view_apply, listed_of_empty h, h]
  · simp [view_apply, listed_of_host h, h]

theorem addNode_of_firstFree {c : Cluster} {i : Fin MAX_NUM_NODES} (h : c.view.firstFree = some i)
    (n : HostAndPort) : c.addNode n = c.setNode i n := by
  rw [firstFree_view] at h
  unfold addNode
  rw [h]

theorem addNode_of_full {c : Cluster} (h : c.view.Full) (n : HostAndPort) : c.addNode n = c := by
  have hf := Slots.firstFree_eq_none_iff.mpr h
  rw [firstFree_view] at hf
  unfold addNode
  rw [hf]

/-- `AddNode` fills a free slot, or finds none. -/
theorem addNode_cases (c : Cluster) (n : HostAndPort) :
    c.addNode n = c ∨ ∃ i, c.view i = none ∧ c.addNode n = c.setNode i n := by
  cases hf : c.view.firstFree with
  | none => exact .inl (addNode_of_full (Slots.firstFree_eq_none_iff.mp hf) n)
  | some i => exact .inr ⟨i, (Slots.firstFree_eq_some_iff.mp hf).1, addNode_of_firstFree hf n⟩

theorem view_addNode (c : Cluster) {n : HostAndPort} (h : n.host ≠ "") :
    (c.addNode n).view = c.view.insert n := by
  cases hf : c.view.firstFree with
  | none =>
    have hfull := Slots.firstFree_eq_none_iff.mp hf
    rw [addNode_of_full hfull, Slots.insert_of_full hfull]
  | some i =>
    rw [addNode_of_firstFree hf, Slots.insert_of_firstFree hf, view_setNode, listed_of_host h]

/-- A node with the empty host goes into a free slot, which stays free. -/
theorem view_addNode_of_empty (c : Cluster) {n : HostAndPort} (h : n.host = "") :
    (c.addNode n).view = c.view := by
  obtain hsame | ⟨i, hi, hset⟩ := addNode_cases c n
  · rw [hsame]
  · -- The slot taken still counts as free.
    rw [hset, view_setNode, listed_of_empty h]
    exact Function.update_eq_self_iff.mpr hi.symm

/-- The search of `RemoveNode` is the search for the first slot of the node. -/
theorem slotOf_view (c : Cluster) {n : HostAndPort} (h : n.host ≠ "") :
    c.view.slotOf n = Fin.find? fun i => c.node i == n := by
  unfold Slots.slotOf
  congr 1
  funext i
  rw [Bool.eq_iff_iff, beq_iff_eq, beq_iff_eq, view_eq_some_iff h]

theorem view_removeNode (c : Cluster) {n : HostAndPort} (h : n.host ≠ "") :
    (c.removeNode n).view = c.view.erase n := by
  unfold removeNode
  rw [← slotOf_view c h]
  cases hf : c.view.slotOf n with
  | none => rw [Slots.erase_of_not_holds (Slots.slotOf_eq_none_iff.mp hf)]
  | some i =>
    rw [Slots.erase_of_slotOf hf]
    exact (view_setNode c i {}).trans rfl

/-- `RemoveNode` makes a slot of the node free, or finds none. -/
theorem removeNode_cases (c : Cluster) (n : HostAndPort) :
    c.removeNode n = c ∨ ∃ i, c.node i = n ∧ c.removeNode n = c.setNode i {} := by
  unfold removeNode
  cases hf : Fin.find? fun i => c.node i == n with
  | none => exact .inl rfl
  | some i => exact .inr ⟨i, by simpa using (Fin.find?_eq_some_iff.mp hf).1, rfl⟩

theorem view_removeNode_of_empty (c : Cluster) {n : HostAndPort} (h : n.host = "") :
    (c.removeNode n).view = c.view := by
  obtain hsame | ⟨i, hi, hset⟩ := removeNode_cases c n
  · rw [hsame]
  · rw [hset, view_setNode]
    refine Function.update_eq_self_iff.mpr ?_
    rw [view_apply, hi, listed_of_empty h]
    rfl

/-- The guarded registration: `NodeInCluster`, then `AddNode`. -/
def register (c : Cluster) (n : HostAndPort) : Cluster :=
  if c.nodeInCluster n then c else c.addNode n

theorem view_register (c : Cluster) {n : HostAndPort} (h : n.host ≠ "") :
    (c.register n).view = c.view.register n := by
  unfold register
  by_cases hn : c.view.Holds n
  · rw [if_pos ((nodeInCluster_iff h).mpr hn), Slots.register_of_holds hn]
  · rw [if_neg fun he => hn ((nodeInCluster_iff h).mp he), Slots.register_of_not_holds hn,
      view_addNode c h]

theorem view_register_of_empty (c : Cluster) {n : HostAndPort} (h : n.host = "") :
    (c.register n).view = c.view := by
  unfold register
  split
  · rfl
  · exact view_addNode_of_empty c h

theorem view_register_apply_iff {c : Cluster} {m n : HostAndPort} (hm : m ≠ n ∨ c.view.Holds m)
    (i : Fin MAX_NUM_NODES) :
    (c.register n).view i = some m ↔ c.view i = some m := by
  by_cases hn : n.host = ""
  · rw [view_register_of_empty c hn]
  · rw [view_register c hn, Slots.register_apply_iff hm]

/-- No node with a non-empty host occupies two slots. -/
def NoDuplicate (c : Cluster) : Prop := c.view.Unique

theorem noDuplicate_new : new.NoDuplicate := by
  unfold NoDuplicate
  rw [view_new]
  exact Slots.unique_empty

theorem noDuplicate_addNode_new (n : HostAndPort) : (new.addNode n).NoDuplicate := by
  unfold NoDuplicate
  by_cases hn : n.host = ""
  · rw [view_addNode_of_empty _ hn]
    exact noDuplicate_new
  · rw [view_addNode _ hn]
    refine Slots.unique_insert noDuplicate_new ?_
    rw [view_new]
    exact Slots.not_holds_empty n

theorem noDuplicate_setNode {c : Cluster} (h : c.NoDuplicate) (i : Fin MAX_NUM_NODES)
    {n : HostAndPort} (hn : ¬ c.view.Holds n) (hhost : n.host ≠ "") :
    (c.setNode i n).NoDuplicate := by
  unfold NoDuplicate
  rw [view_setNode, listed_of_host hhost]
  exact Slots.unique_update h hn i

theorem noDuplicate_register {c : Cluster} (h : c.NoDuplicate) (n : HostAndPort) :
    (c.register n).NoDuplicate := by
  unfold NoDuplicate
  by_cases hn : n.host = ""
  · rwa [view_register_of_empty c hn]
  · rw [view_register c hn]
    exact Slots.unique_register h n

theorem noDuplicate_addNode_iff {c : Cluster} (nodup : c.NoDuplicate) (n : HostAndPort) :
    (c.addNode n).NoDuplicate ↔
      n.host = "" ∨ c.nodeInCluster n = false ∨ ∀ k, (c.node k).host ≠ "" := by
  by_cases hn : n.host = ""
  · have hsame : (c.addNode n).view = c.view := view_addNode_of_empty c hn
    simp only [NoDuplicate, hsame, hn, true_or, iff_true]
    exact nodup
  · have hlisted : c.nodeInCluster n = false ↔ ¬ c.view.Holds n := by
      rw [← nodeInCluster_iff hn, Bool.not_eq_true]
    rw [NoDuplicate, view_addNode c hn, Slots.unique_insert_iff nodup, hlisted, full_view_iff,
      or_iff_right hn]

theorem noDuplicate_removeNode {c : Cluster} (h : c.NoDuplicate) (n : HostAndPort) :
    (c.removeNode n).NoDuplicate := by
  unfold NoDuplicate
  by_cases hn : n.host = ""
  · rwa [view_removeNode_of_empty c hn]
  · rw [view_removeNode c hn]
    exact Slots.unique_erase h n

/-! ## What holds of every slot -/

/-- `Q` holds of what every slot of the table holds. -/
def Forall (Q : HostAndPort → Prop) (c : Cluster) : Prop := ∀ i, Q (c.node i)

section

variable {Q : HostAndPort → Prop} {c : Cluster}

theorem forall_new (unused : Q {}) : Forall Q new := by
  intro i
  rw [node_new]
  exact unused

theorem Forall.setNode (h : c.Forall Q) (i : Fin MAX_NUM_NODES) {n : HostAndPort} (hn : Q n) :
    (c.setNode i n).Forall Q := by
  intro j
  rw [node_setNode, Function.update_apply]
  split
  · exact hn
  · exact h j

theorem Forall.addNode (h : c.Forall Q) {n : HostAndPort} (hn : Q n) : (c.addNode n).Forall Q := by
  unfold Cluster.addNode
  split
  · exact h.setNode _ hn
  · exact h

theorem Forall.removeNode (h : c.Forall Q) (unused : Q {}) (n : HostAndPort) :
    (c.removeNode n).Forall Q := by
  unfold Cluster.removeNode
  split
  · exact h.setNode _ unused
  · exact h

theorem Forall.register (h : c.Forall Q) {n : HostAndPort} (hn : Q n) :
    (c.register n).Forall Q := by
  unfold Cluster.register
  split
  · exact h
  · exact h.addNode hn

/-- Of a slot that is free, a table says no more than that. -/
theorem forall_of_view (listed : ∀ i n, c.view i = some n → Q n) (unused : ∀ n, n.host = "" → Q n) :
    c.Forall Q := by
  intro i
  by_cases hhost : (c.node i).host = ""
  · exact unused _ hhost
  · exact listed i _ (listed_of_host hhost)

end

/-! ## Tables without leftovers -/

/-- Every slot that is free holds the default address. -/
def Clean (c : Cluster) : Prop := ∀ i, (c.node i).host = "" → c.node i = {}

theorem clean_iff_forall {c : Cluster} : c.Clean ↔ c.Forall fun n => n.host = "" → n = {} := Iff.rfl

theorem eq_of_view {c d : Cluster} (hc : c.Clean) (hd : d.Clean) (h : c.view = d.view) : c = d := by
  refine ext_node fun i => ?_
  have hi : listed (c.node i) = listed (d.node i) := congrFun h i
  by_cases hhost : (c.node i).host = ""
  · -- Free on both sides: both hold the default address.
    rw [listed_of_empty hhost, eq_comm, listed_eq_none_iff] at hi
    rw [hc i hhost, hd i hi]
  · rw [listed_of_host hhost, eq_comm, listed_eq_some_iff] at hi
    exact hi.1.symm

theorem clean_new : new.Clean := clean_iff_forall.mpr (forall_new fun _ => rfl)

theorem clean_addNode {c : Cluster} (hc : c.Clean) {n : HostAndPort} (hn : n.host ≠ "") :
    (c.addNode n).Clean :=
  clean_iff_forall.mpr ((clean_iff_forall.mp hc).addNode fun h => absurd h hn)

theorem clean_register {c : Cluster} (hc : c.Clean) {n : HostAndPort} (hn : n.host ≠ "") :
    (c.register n).Clean :=
  clean_iff_forall.mpr ((clean_iff_forall.mp hc).register fun h => absurd h hn)

theorem clean_removeNode {c : Cluster} (hc : c.Clean) (n : HostAndPort) : (c.removeNode n).Clean :=
  clean_iff_forall.mpr ((clean_iff_forall.mp hc).removeNode (fun _ => rfl) n)

/-! ## Listings -/

/-- The test of the two listings. -/
theorem ite_host_eq_listed (n : HostAndPort) :
    (if n.host ≠ "" then some n else none) = listed n :=
  ite_not _ _ _

theorem getNodesWithIdxInCluster_eq (c : Cluster) :
    c.getNodesWithIdxInCluster =
      (List.finRange MAX_NUM_NODES).filterMap fun i => (c.view i).map (i, ·) := by
  unfold getNodesWithIdxInCluster
  congr 1
  funext i
  rw [view_apply, ← ite_host_eq_listed]
  split <;> rfl

theorem getNodesInCluster_eq (c : Cluster) :
    c.getNodesInCluster = (List.finRange MAX_NUM_NODES).filterMap c.view := by
  unfold getNodesInCluster
  congr 1
  funext i
  exact ite_host_eq_listed _

theorem mem_getNodesInCluster {c : Cluster} {n : HostAndPort} :
    n ∈ c.getNodesInCluster ↔ c.view.Holds n := by
  simp [getNodesInCluster_eq, Slots.Holds]

theorem mem_getNodesInCluster_register {c : Cluster} {m : HostAndPort}
    (h : m ∈ c.getNodesInCluster) (n : HostAndPort) : m ∈ (c.register n).getNodesInCluster := by
  rw [mem_getNodesInCluster] at h ⊢
  obtain ⟨i, hi⟩ := h
  exact ⟨i, (view_register_apply_iff (.inr ⟨i, hi⟩) i).mpr hi⟩

theorem mem_getNodesInCluster_removeNode {c : Cluster} {m n : HostAndPort} (hne : m ≠ n)
    (h : m ∈ c.getNodesInCluster) : m ∈ (c.removeNode n).getNodesInCluster := by
  rw [mem_getNodesInCluster] at h ⊢
  by_cases hn : n.host = ""
  · rwa [view_removeNode_of_empty c hn]
  · rw [view_removeNode c hn]
    exact Slots.holds_erase_of_ne hne h

theorem nodup_getNodesInCluster {c : Cluster} (h : c.NoDuplicate) : c.getNodesInCluster.Nodup := by
  rw [getNodesInCluster_eq]
  exact (List.nodup_finRange _).filterMap fun i j n hi hj => h i j n hi hj

theorem getNodesInCluster_eq_elements (c : Cluster) : c.getNodesInCluster = c.view.elements :=
  c.getNodesInCluster_eq

theorem nodeInCluster_of_mem {c : Cluster} {n : HostAndPort} (h : n ∈ c.getNodesInCluster) :
    c.nodeInCluster n = true := by
  have hheld := mem_getNodesInCluster.mp h
  exact (nodeInCluster_iff (host_of_holds hheld)).mpr hheld

/-! ## How often a node is listed -/

theorem count_setNode (c : Cluster) (i : Fin MAX_NUM_NODES) (m n : HostAndPort) :
    (c.setNode i m).getNodesInCluster.count n + (if c.view i = some n then 1 else 0) =
      c.getNodesInCluster.count n + (if listed m = some n then 1 else 0) := by
  rw [getNodesInCluster_eq_elements, getNodesInCluster_eq_elements, view_setNode]
  exact Slots.count_elements_update c.view i (listed m) n

/-- A write over another node, or over a free slot, takes no listing away. -/
theorem count_le_setNode {c : Cluster} {i : Fin MAX_NUM_NODES} {n : HostAndPort}
    (h : c.view i ≠ some n) (m : HostAndPort) :
    c.getNodesInCluster.count n ≤ (c.setNode i m).getNodesInCluster.count n := by
  have hcount := count_setNode c i m n
  rw [if_neg h] at hcount
  omega

theorem count_le_setNode_add_one (c : Cluster) (i : Fin MAX_NUM_NODES) (m n : HostAndPort) :
    c.getNodesInCluster.count n ≤ (c.setNode i m).getNodesInCluster.count n + 1 := by
  have hcount := count_setNode c i m n
  split at hcount <;> omega

theorem count_le_register (c : Cluster) (m n : HostAndPort) :
    c.getNodesInCluster.count n ≤ (c.register m).getNodesInCluster.count n := by
  unfold register
  split
  · exact Nat.le_refl _
  · obtain hsame | ⟨i, hi, hset⟩ := addNode_cases c m
    · rw [hsame]
    · rw [hset]
      exact count_le_setNode (by simp [hi]) m

/-- A removal takes one listing of the node away, and none of another. -/
theorem count_removeNode (c : Cluster) (n m : HostAndPort) :
    (c.removeNode n).getNodesInCluster.count m =
      c.getNodesInCluster.count m - if n = m then 1 else 0 := by
  by_cases hhost : n.host = ""
  · -- A node without a host is not listed, so that there is nothing to take away.
    have hzero : n = m → c.getNodesInCluster.count m = 0 := by
      rintro rfl
      exact List.count_eq_zero.mpr fun h => host_of_holds (mem_getNodesInCluster.mp h) hhost
    rw [getNodesInCluster_eq_elements, view_removeNode_of_empty c hhost,
      ← getNodesInCluster_eq_elements]
    split
    next heq => rw [hzero heq]
    next => rfl
  · unfold removeNode
    rw [← slotOf_view c hhost]
    cases hslot : c.view.slotOf n with
    | none =>
      have hzero : c.getNodesInCluster.count n = 0 := List.count_eq_zero.mpr fun h =>
        Slots.slotOf_eq_none_iff.mp hslot (mem_getNodesInCluster.mp h)
      dsimp only
      split
      next heq => rw [← heq, hzero]
      next => rfl
    | some i =>
      have hview : c.view i = some n := (Slots.slotOf_eq_some_iff.mp hslot).1
      have hcount := count_setNode c i {} m
      have hfree : listed {} ≠ some m := by
        rw [listed_of_empty rfl]
        exact nofun
      simp only [hview, if_neg hfree, Option.some_inj] at hcount
      exact Nat.eq_sub_of_add_eq hcount

end Imq.Cluster
