import Imq.Verified.Response
import Imq.Verified.Table

/-! # What the health callbacks do to one node

A node's status is its slot in the table and its entry in the map of potentially
failing nodes.  A callback changes the status of the node that its response
names, and of no other.

* `Process.status`, `NodeStatus.answered`, `NodeStatus.timedOut` — the abstract
  view of one node;
* `run_healthyNodeCallback`, `run_timedoutNodeCallback` — the callbacks;
* `status_answered`, `status_timedOut` — their effect on every node.
-/

namespace Imq

open Lib

structure NodeStatus where
  slot : Option (Fin MAX_NUM_NODES)
  retries : Option Int32
  deriving DecidableEq

namespace NodeStatus

/-- The node has answered a health check. -/
def answered (s : NodeStatus) : NodeStatus := { s with retries := none }

/-- A health check of the node has timed out. -/
def timedOut (s : NodeStatus) : NodeStatus :=
  match s.retries with
  | none => { s with retries := some 0 }
  | some r =>
    if Health.REMOVE_AFTER_NUM_RETRIES ≤ r then ⟨none, none⟩ else { s with retries := some (r + 1) }

end NodeStatus

namespace Process

def status (p : Process) (n : HostAndPort) : NodeStatus where
  slot := p.cluster.view.slotOf n
  retries := p.potentiallyFailing n

theorem slot_status_eq_none_iff {p : Process} {n : HostAndPort} :
    (p.status n).slot = none ↔ n ∉ p.cluster.getNodesInCluster := by
  rw [Cluster.mem_getNodesInCluster]
  show p.cluster.view.slotOf n = none ↔ _
  exact Slots.slotOf_eq_none_iff

def setRetries (p : Process) (n : HostAndPort) (retries : Option Int32) : Process :=
  { p with potentiallyFailing := Function.update p.potentiallyFailing n retries }

def evict (p : Process) (n : HostAndPort) : Process :=
  { p with
    cluster := p.cluster.removeNode n
    potentiallyFailing := Function.update p.potentiallyFailing n none }

/-- The process after a health check of the node has been answered. -/
def answered (p : Process) (n : HostAndPort) : Process := p.setRetries n none

/-- The process after a health check of the node has timed out. -/
def timedOut (p : Process) (n : HostAndPort) : Process :=
  match p.potentiallyFailing n with
  | none => p.setRetries n (some 0)
  | some r =>
    if Health.REMOVE_AFTER_NUM_RETRIES ≤ r then p.evict n else p.setRetries n (some (r + 1))

theorem timedOut_of_none {p : Process} {n : HostAndPort} (h : p.potentiallyFailing n = none) :
    p.timedOut n = p.setRetries n (some 0) := by
  unfold timedOut
  rw [h]

theorem timedOut_of_some {p : Process} {n : HostAndPort} {r : Int32}
    (h : p.potentiallyFailing n = some r) :
    p.timedOut n =
      if Health.REMOVE_AFTER_NUM_RETRIES ≤ r then p.evict n else p.setRetries n (some (r + 1)) := by
  unfold timedOut
  rw [h]

/-! ## The status of every node -/

theorem status_setRetries (p : Process) (n m : HostAndPort) (retries : Option Int32) :
    (p.setRetries n retries).status m =
      if m = n then { p.status m with retries := retries } else p.status m := by
  show (⟨p.cluster.view.slotOf m, Function.update p.potentiallyFailing n retries m⟩ :
    NodeStatus) = _
  by_cases h : m = n
  · rw [if_pos h, h, Function.update_self]
    rfl
  · rw [if_neg h, Function.update_of_ne h]
    rfl

theorem slotOf_removeNode {c : Cluster} (h : c.NoDuplicate) (n m : HostAndPort) :
    (c.removeNode n).view.slotOf m = if m = n then none else c.view.slotOf m := by
  by_cases hn : n.host = ""
  · -- `RemoveNode` of the empty host clears a free slot, and no node has that host.
    rw [Cluster.view_removeNode_of_empty c hn]
    by_cases hm : m = n
    · rw [if_pos hm, Slots.slotOf_eq_none_iff]
      exact fun hold => Cluster.host_of_holds hold (hm ▸ hn)
    · rw [if_neg hm]
  · rw [Cluster.view_removeNode c hn, Slots.slotOf_erase h]

theorem status_evict {p : Process} (h : p.cluster.NoDuplicate) (n m : HostAndPort) :
    (p.evict n).status m = if m = n then ⟨none, none⟩ else p.status m := by
  show (⟨(p.cluster.removeNode n).view.slotOf m, Function.update p.potentiallyFailing n none m⟩ :
    NodeStatus) = _
  rw [slotOf_removeNode h]
  by_cases hm : m = n
  · rw [if_pos hm, if_pos hm, hm, Function.update_self]
  · rw [if_neg hm, if_neg hm, Function.update_of_ne hm]
    rfl

theorem status_answered (p : Process) (n m : HostAndPort) :
    (p.answered n).status m = if m = n then (p.status m).answered else p.status m :=
  status_setRetries p n m none

theorem status_timedOut {p : Process} (h : p.cluster.NoDuplicate) (n m : HostAndPort) :
    (p.timedOut n).status m = if m = n then (p.status m).timedOut else p.status m := by
  by_cases hm : m = n
  · subst hm
    rw [if_pos rfl]
    have hretries : (p.status m).retries = p.potentiallyFailing m := rfl
    unfold NodeStatus.timedOut
    cases hr : p.potentiallyFailing m with
    | none => rw [timedOut_of_none hr, status_setRetries, if_pos rfl, hretries, hr]
    | some r =>
      rw [timedOut_of_some hr, hretries, hr]
      show _ = if Health.REMOVE_AFTER_NUM_RETRIES ≤ r then _ else _
      split
      · rw [status_evict h, if_pos rfl]
      · rw [status_setRetries, if_pos rfl]
  · rw [if_neg hm]
    cases hr : p.potentiallyFailing n with
    | none => rw [timedOut_of_none hr, status_setRetries, if_neg hm]
    | some r =>
      rw [timedOut_of_some hr]
      split
      · rw [status_evict h, if_neg hm]
      · rw [status_setRetries, if_neg hm]

theorem noDuplicate_timedOut {p : Process} (h : p.cluster.NoDuplicate) (n : HostAndPort) :
    (p.timedOut n).cluster.NoDuplicate := by
  unfold timedOut
  split
  next => exact h
  next =>
    split
    · exact Cluster.noDuplicate_removeNode h n
    · exact h

end Process

namespace Health

variable (n : HostAndPort) (p : Process)

theorem run_isPotentiallyFailing :
    (isPotentiallyFailing n).run p = .ok (p.potentiallyFailing n).isSome p := rfl

theorem run_removeNodeFromPotentiallyFailingMap :
    (removeNodeFromPotentiallyFailingMap n).run p = .ok () (p.setRetries n none) := rfl

theorem run_removeNodeFromCluster : (removeNodeFromCluster n).run p = .ok () (p.evict n) := by
  unfold removeNodeFromCluster
  rw [EStateM.run_bind, EStateM.run_modify]
  exact run_removeNodeFromPotentiallyFailingMap n _

theorem run_markAsPotentiallyFailing {n : HostAndPort} {p : Process}
    (h : p.potentiallyFailing n = none) :
    (markAsPotentiallyFailing n).run p = .ok () (p.setRetries n (some 0)) := by
  unfold markAsPotentiallyFailing
  rw [EStateM.run_modify, h]
  rfl

theorem run_incrementNumberOfRetriesForNode {n : HostAndPort} {p : Process} {r : Int32}
    (h : p.potentiallyFailing n = some r) :
    (incrementNumberOfRetriesForNode n).run p = .ok () (p.setRetries n (some (r + 1))) := by
  unfold incrementNumberOfRetriesForNode
  rw [EStateM.run_modify, h]
  rfl

theorem run_getNumberOfRetriesForNode {n : HostAndPort} {p : Process} {r : Int32}
    (h : p.potentiallyFailing n = some r) :
    (getNumberOfRetriesForNode n).run p = .ok r.toUInt32 p := by
  unfold getNumberOfRetriesForNode
  rw [Cpp.run_bind_ok (run_isPotentiallyFailing n p), h, Option.isSome_some, if_pos rfl,
    Cpp.run_bind_ok (EStateM.run_get ..), h]
  rfl

theorem run_healthyNodeCallback {response : Json} {n : HostAndPort}
    (h : calleeOf response = .ok n) (p : Process) :
    (healthyNodeCallback response).run p = .ok () (p.answered n) := by
  unfold healthyNodeCallback
  rw [h, Cpp.run_bind_ok (Cpp.run_ofExcept_ok n p), Cpp.run_bind_ok (run_isPotentiallyFailing n p)]
  cases hn : p.potentiallyFailing n with
  | some r =>
    rw [Option.isSome_some, if_pos rfl]
    exact run_removeNodeFromPotentiallyFailingMap n p
  | none =>
    -- Nothing is removed from the map, and there is nothing to remove.
    have hsame : p.answered n = p := by
      unfold Process.answered Process.setRetries
      rw [Function.update_eq_self_iff.mpr hn.symm]
    rw [hsame]
    rfl

theorem run_timedoutNodeCallback {response : Json} {n : HostAndPort}
    (h : calleeOf response = .ok n) (p : Process) :
    (timedoutNodeCallback response).run p = .ok () (p.timedOut n) := by
  unfold timedoutNodeCallback
  rw [h, Cpp.run_bind_ok (Cpp.run_ofExcept_ok n p), Cpp.run_bind_ok (run_isPotentiallyFailing n p)]
  cases hn : p.potentiallyFailing n with
  | none =>
    rw [Process.timedOut_of_none hn, Option.isSome_none, if_neg (by decide)]
    exact run_markAsPotentiallyFailing hn
  | some r =>
    -- The count goes through `unsigned` and comes back as it was.
    have hback : r.toUInt32.toInt32 = r := Int32.toInt32_toUInt32 r
    rw [Process.timedOut_of_some hn, Option.isSome_some, if_pos rfl,
      Cpp.run_bind_ok (run_getNumberOfRetriesForNode hn), hback]
    show (if REMOVE_AFTER_NUM_RETRIES ≤ r then _ else _ : EStateM Exn Process Unit).run p = _
    split
    · exact run_removeNodeFromCluster n p
    · exact run_incrementNumberOfRetriesForNode hn

end Health

end Imq
