import Imq.ConcurrentRegistration
import Imq.Verified.Membership
import Mathlib.Data.Fintype.Option

/-! # What registrations at the same time do to the table

* `RegistrationSystem.always_oneSlot_iff` — no node gets a second slot
  exactly as long as every `AddNode` finds its requester unlisted, or no slot
  for it;
* `AddNodeSystem.all_added_iff` — all nodes are in the table in the end exactly
  if no call has written over the node of another one.
-/

namespace Imq

open Lib Cluster IMQNode

namespace RegistrationSystem

variable {ι : Type}

/-- If `AddNode` comes next for request `i`, its requester is not listed or there
    is no slot for it.  A requester without a host takes no slot. -/
def AddsAbsent (requester : ι → HostAndPort) (s : RegistrationSystem ι) (i : ι) : Prop :=
  s.phase i = .addNode → (requester i).host = "" ∨ s.cluster.nodeInCluster (requester i) = false ∨
    ∀ k, (s.cluster.node k).host ≠ ""

instance (requester : ι → HostAndPort) (s : RegistrationSystem ι) (i : ι) :
    Decidable (AddsAbsent requester s i) :=
  inferInstanceAs (Decidable (_ = _ → _))

variable [DecidableEq ι]

@[simp] theorem goTo_cluster (s : RegistrationSystem ι) (i : ι) (phase : RequestPhase) :
    (s.goTo i phase).cluster = s.cluster := rfl

@[simp] theorem goTo_phase_self (s : RegistrationSystem ι) (i : ι) (phase : RequestPhase) :
    (s.goTo i phase).phase i = phase :=
  Function.update_self ..

variable (requester : ι → HostAndPort)

theorem step_addNode {s : RegistrationSystem ι} {i : ι} (h : s.phase i = .addNode) :
    step requester s i =
      { s with cluster := s.cluster.addNode (requester i) }.goTo i .getNodesWithIdxInCluster := by
  simp [step, h]

/-- Only `AddNode` changes the table. -/
theorem cluster_step (s : RegistrationSystem ι) (i : ι) :
    (step requester s i).cluster = s.cluster ∨
      (s.phase i = .addNode ∧
        (step requester s i).cluster = s.cluster.addNode (requester i)) := by
  cases hphase : s.phase i with
  | nodeInCluster =>
    refine .inl ?_
    simp only [step, hphase]
    split <;> rfl
  | addNode => exact .inr ⟨rfl, by simp [step_addNode requester hphase]⟩
  | getNodesWithIdxInCluster => simp [step, hphase]
  | answered nodes => simp [step, hphase]

/-- The steps of one request, one after the other, are the handler. -/
theorem exec_alone {s : RegistrationSystem ι} {i : ι} (h : s.phase i = .nodeInCluster) :
    (exec (step requester) s [i, i, i]).cluster =
        Cpp.stateOf ((getNodesInCluster (registerArgs (requester i))).run s.cluster) ∧
      (exec (step requester) s [i, i, i]).phase i =
        .answered (s.cluster.register (requester i)).getNodesWithIdxInCluster := by
  rw [run_getNodesInCluster_register]
  show _ = s.cluster.register (requester i) ∧ _
  cases hold : s.cluster.nodeInCluster (requester i) with
  | true => simp [step, h, hold, register]
  | false => simp [step, h, hold, register]

theorem noDuplicate_step_iff {s : RegistrationSystem ι} (nodup : s.cluster.NoDuplicate) (i : ι) :
    (step requester s i).cluster.NoDuplicate ↔ AddsAbsent requester s i := by
  by_cases hphase : s.phase i = .addNode
  · have hadds : AddsAbsent requester s i ↔ (requester i).host = "" ∨
        s.cluster.nodeInCluster (requester i) = false ∨ ∀ k, (s.cluster.node k).host ≠ "" := by
      simp [AddsAbsent, hphase]
    rw [step_addNode requester hphase, hadds]
    exact noDuplicate_addNode_iff nodup (requester i)
  · have hsame := (cluster_step requester s i).resolve_right fun h => hphase h.1
    rw [hsame]
    exact ⟨fun _ h => absurd h hphase, fun _ => nodup⟩

/-- Whatever the order of the steps of all requests, no node ever has two slots
    exactly if every `AddNode` finds its requester unlisted or no slot for it. -/
theorem always_oneSlot_iff {c : Cluster} (nodup : c.NoDuplicate) (run : List ι) :
    Always (fun s => s.cluster.NoDuplicate) (step requester) (start c) run ↔
      Guarded (AddsAbsent requester) (step requester) (start c) run := by
  have hexact : ∀ (s : RegistrationSystem ι) (i : ι), True → True → s.cluster.NoDuplicate →
      ((step requester s i).cluster.NoDuplicate ↔ AddsAbsent requester s i) :=
    fun _ i _ _ h => noDuplicate_step_iff requester h i
  exact always_iff_guarded (fun _ _ _ _ => trivial) hexact trivial nodup
    (guarded_of_forall fun _ _ _ => trivial)

/-- The second request of a node is tested after the first one has added it. -/
theorem always_oneSlot_retry :
    Always (fun s => s.cluster.NoDuplicate) (step fun _ : Fin 2 => ⟨"a", 3⟩)
      (start (new.addNode ⟨"r", 1⟩)) [0, 0, 1, 0, 1] :=
  (always_oneSlot_iff (fun _ => ⟨"a", 3⟩) (noDuplicate_addNode_new ⟨"r", 1⟩)
    [0, 0, 1, 0, 1]).mpr (by decide)

/-- Both requests of a node are tested before either is added. -/
theorem retry_takes_second_slot :
    (new.addNode ⟨"r", 1⟩).NoDuplicate ∧
      ¬ Always (fun s => s.cluster.NoDuplicate) (step fun _ : Fin 2 => ⟨"a", 3⟩)
        (start (new.addNode ⟨"r", 1⟩)) [0, 1, 0, 1] := by
  refine ⟨noDuplicate_addNode_new ⟨"r", 1⟩, fun h => ?_⟩
  have htwo : (exec (step fun _ : Fin 2 => ⟨"a", 3⟩) (start (new.addNode ⟨"r", 1⟩))
      [0, 1, 0, 1]).cluster.view 1 = some ⟨"a", 3⟩ ∧
      (exec (step fun _ : Fin 2 => ⟨"a", 3⟩) (start (new.addNode ⟨"r", 1⟩))
        [0, 1, 0, 1]).cluster.view 2 = some ⟨"a", 3⟩ := by
    decide
  exact absurd (h.last 1 2 ⟨"a", 3⟩ htwo.1 htwo.2) (by decide)

end RegistrationSystem

/-! ## Calls of `AddNode` -/

namespace AddNodeSystem

variable {ι : Type}

/-- The state without what the table is made of. -/
def firstFit (s : AddNodeSystem ι) : FirstFit.State MAX_NUM_NODES HostAndPort ι :=
  ⟨s.cluster.node, s.call⟩

/-- What the test in the loop asks of a slot. -/
def isFree (n : HostAndPort) : Bool := n.host == ""

/-- If the next step of call `j` is its write, then into a slot that does not
    hold the node of any of the calls. -/
def WritesFresh (node : ι → HostAndPort) (s : AddNodeSystem ι) (j : ι) : Prop :=
  ∀ i, s.call j = .writing i → ∀ m, s.cluster.node i ≠ node m

instance [Fintype ι] (node : ι → HostAndPort) (s : AddNodeSystem ι) (j : ι) :
    Decidable (WritesFresh node s j) :=
  inferInstanceAs (Decidable (∀ _, _ = _ → ∀ _, _ ≠ _))

variable [DecidableEq ι] (node : ι → HostAndPort)

/-- The calls are first-fit insertions into the slots. -/
theorem firstFit_step (s : AddNodeSystem ι) (j : ι) :
    (step node s j).firstFit = FirstFit.step isFree node s.firstFit j := by
  cases hcall : s.call j with
  | testing i =>
    by_cases hhost : (s.cluster.node i).host = ""
    · simp [step, FirstFit.step, firstFit, hcall, isFree, hhost, goTo, FirstFit.State.goTo]
    · simp [step, FirstFit.step, firstFit, hcall, isFree, hhost, goTo, FirstFit.State.goTo]
  | writing i =>
    simp [step, FirstFit.step, firstFit, hcall, goTo, FirstFit.State.goTo, FirstFit.State.put,
      node_setNode]
  | done cell => simp [step, FirstFit.step, firstFit, hcall]

theorem node_exec (s : AddNodeSystem ι) (run : List ι) (i : Fin MAX_NUM_NODES) :
    (exec (step node) s run).cluster.node i =
      (exec (FirstFit.step isFree node) s.firstFit run).cells i :=
  congrArg (FirstFit.State.cells · i) (exec_map (firstFit_step node) s run)

theorem call_exec (s : AddNodeSystem ι) (run : List ι) (j : ι) :
    (exec (step node) s run).call j = (exec (FirstFit.step isFree node) s.firstFit run).phase j :=
  congrArg (FirstFit.State.phase · j) (exec_map (firstFit_step node) s run)

omit [DecidableEq ι] in
theorem isFree_cells_iff (s : AddNodeSystem ι) (i : Fin MAX_NUM_NODES) :
    isFree (s.firstFit.cells i) = true ↔ s.cluster.view i = none := by
  simp [isFree, firstFit, view_apply, listed_eq_none_iff]

/-- The steps of one call, one after the other, are `AddNode`. -/
theorem exec_alone {s : AddNodeSystem ι} {j : ι} (h : s.call j = .testing 0) :
    ∃ d cell, (exec (step node) s (List.replicate d j)).cluster = s.cluster.addNode (node j) ∧
      (exec (step node) s (List.replicate d j)).call j = .done cell := by
  cases hf : s.cluster.view.firstFree with
  | some i =>
    obtain ⟨hi, hlow⟩ := Slots.firstFree_eq_some_iff.mp hf
    have hfree : isFree (s.firstFit.cells i) = true := (isFree_cells_iff s i).mpr hi
    have htaken : ∀ l < i, isFree (s.firstFit.cells l) = false :=
      fun l hl => Bool.eq_false_iff.mpr fun h => hlow l hl ((isFree_cells_iff s l).mp h)
    have halone : ∃ d, exec (FirstFit.step isFree node) s.firstFit (List.replicate d j) =
        (s.firstFit.put i (node j)).goTo j (.done (some i)) := FirstFit.exec_alone hfree htaken h
    obtain ⟨d, hd⟩ := halone
    refine ⟨d, some i, ext_node fun k => ?_, ?_⟩
    · rw [node_exec, hd, addNode_of_firstFree hf, node_setNode]
      rfl
    · rw [call_exec, hd, FirstFit.State.goTo_phase_self]
  | none =>
    have hfull := Slots.firstFree_eq_none_iff.mp hf
    have htaken : ∀ l, isFree (s.firstFit.cells l) = false :=
      fun l => Bool.eq_false_iff.mpr fun h => hfull l ((isFree_cells_iff s l).mp h)
    have halone : ∃ d, exec (FirstFit.step isFree node) s.firstFit (List.replicate d j) =
        s.firstFit.goTo j (.done none) := FirstFit.exec_alone_taken htaken h
    obtain ⟨d, hd⟩ := halone
    refine ⟨d, none, ext_node fun k => ?_, ?_⟩
    · rw [node_exec, hd, addNode_of_full hfull]
      rfl
    · rw [call_exec, hd, FirstFit.State.goTo_phase_self]

/-- When all calls for nodes that the table did not hold have ended, and there
    was a free slot for each of them, all of them are in the table, and what was
    listed before has kept its slot, exactly if every write went into a slot that
    no other call had written. -/
theorem all_added_iff [Fintype ι] {node : ι → HostAndPort} (distinct : Function.Injective node)
    {c : Cluster} (absent : ∀ j, c.nodeInCluster (node j) = false)
    (room : Fintype.card ι ≤ (Finset.univ.filter fun i => (c.node i).host = "").card)
    {run : List ι}
    (complete : ∀ j, ∃ cell, (exec (step node) (start c) run).call j = .done cell) :
    ((∀ j, (exec (step node) (start c) run).cluster.nodeInCluster (node j) = true) ∧
      ∀ i, (c.node i).host ≠ "" →
        (exec (step node) (start c) run).cluster.node i = c.node i) ↔
    Guarded (WritesFresh node) (step node) (start c) run := by
  have habsent : ∀ j i, c.node i ≠ node j := by
    intro j i hi
    have hlisted := nodeInCluster_eq_true_iff.mpr ⟨i, hi⟩
    simp [absent j] at hlisted
  have hroom : Fintype.card ι ≤ (Finset.univ.filter fun i => isFree (c.node i) = true).card := by
    simpa [isFree] using room
  -- No call writes a slot that is taken, in whatever order.
  have hkept : ∀ i, (c.node i).host ≠ "" →
      (exec (step node) (start c) run).cluster.node i = c.node i := by
    intro i hi
    rw [node_exec]
    exact (FirstFit.inv_exec distinct habsent run).kept (by simp [isFree, hi])
  have hcomplete : ∀ j, ∃ cell,
      (exec (FirstFit.step isFree node) (FirstFit.start c.node) run).phase j = .done cell :=
    fun j => (complete j).imp fun _ h => (call_exec node (start c) run j).symm.trans h
  have hall := FirstFit.all_inserted_iff distinct habsent hroom hcomplete
  rw [and_iff_left hkept]
  simp only [nodeInCluster_eq_true_iff, node_exec]
  exact hall.trans (guarded_map_iff (firstFit_step node) (start c) run)

/-- Two nodes that register at the same time. -/
def twoNodes (j : Fin 2) : HostAndPort := ⟨"n", UInt32.ofNat j⟩

theorem injective_twoNodes : Function.Injective twoNodes := by
  decide

/-- There are 29 slots for the two. -/
theorem room_twoNodes :
    Fintype.card (Fin 2) ≤
      (Finset.univ.filter fun i => ((new.addNode ⟨"r", 1⟩).node i).host = "").card := by
  decide

/-- The second search begins after the first write. -/
theorem all_added_oneByOne :
    (∀ j, (exec (step twoNodes) (start (new.addNode ⟨"r", 1⟩))
        [0, 0, 0, 1, 1, 1, 1]).cluster.nodeInCluster (twoNodes j) = true) ∧
      ∀ i, ((new.addNode ⟨"r", 1⟩).node i).host ≠ "" →
        (exec (step twoNodes) (start (new.addNode ⟨"r", 1⟩)) [0, 0, 0, 1, 1, 1, 1]).cluster.node i =
          (new.addNode ⟨"r", 1⟩).node i :=
  (all_added_iff injective_twoNodes (by decide) room_twoNodes (by decide)).mpr
    (by decide)

/-- Both searches find slot 1 free before either of them writes it. -/
theorem concurrent_addition_lost :
    Function.Injective twoNodes ∧ (new.addNode ⟨"r", 1⟩).NoDuplicate ∧
      (∀ j, (new.addNode ⟨"r", 1⟩).nodeInCluster (twoNodes j) = false) ∧
      Fintype.card (Fin 2) ≤
        (Finset.univ.filter fun i => ((new.addNode ⟨"r", 1⟩).node i).host = "").card ∧
      (∀ j, ∃ cell, (exec (step twoNodes) (start (new.addNode ⟨"r", 1⟩))
        [0, 1, 0, 1, 0, 1]).call j = .done cell) ∧
      (exec (step twoNodes) (start (new.addNode ⟨"r", 1⟩))
        [0, 1, 0, 1, 0, 1]).cluster.nodeInCluster (twoNodes 0) = false :=
  ⟨injective_twoNodes, noDuplicate_addNode_new ⟨"r", 1⟩, by decide, room_twoNodes, by decide,
    by decide⟩

end AddNodeSystem

end Imq
