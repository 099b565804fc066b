import Imq.Lib.Runs
import Imq.Verified.Callbacks

/-! # When the health checker evicts a node

A history is a list of answers, time-outs and guarded registrations of any
nodes.  Along it, `track` counts for each node the time-outs in a row since the
node last entered the table or last answered.

* `EvictionInv` — the map of potentially failing nodes holds these counts;
* `eviction_rule` — the fifth time-out in a row evicts, and nothing else does.
-/

namespace Imq

open Lib

/-- What happens to the node of the event: it answers a health check, a health
    check of it times out (each with the response given to the callback), or it
    registers. -/
inductive HealthEvent where
  | answered (node : HostAndPort) (response : Json)
  | timedOut (node : HostAndPort) (response : Json)
  | register (node : HostAndPort)

namespace HealthEvent

def node : HealthEvent → HostAndPort
  | answered node _ => node
  | timedOut node _ => node
  | register node => node

def isTimeOut : HealthEvent → Bool
  | timedOut _ _ => true
  | _ => false

/-- Only listed nodes are checked, the response names the node checked, and a
    node that registers has a host. -/
def Possible (p : Process) : HealthEvent → Prop
  | answered node response =>
    node ∈ p.cluster.getNodesInCluster ∧ Health.calleeOf response = .ok node
  | timedOut node response =>
    node ∈ p.cluster.getNodesInCluster ∧ Health.calleeOf response = .ok node
  | register node => node.host ≠ ""

end HealthEvent

namespace Process

/-- `NodeInCluster`, then `AddNode`. -/
def register (p : Process) (n : HostAndPort) : Process :=
  { p with cluster := p.cluster.register n }

def healthStep (p : Process) : HealthEvent → Process
  | .answered _ response => Cpp.stateOf ((Health.healthyNodeCallback response).run p)
  | .timedOut _ response => Cpp.stateOf ((Health.timedoutNodeCallback response).run p)
  | .register node => p.register node

/-- A process with the number of time-outs in a row of each node. -/
abbrev Tracked : Type := Process × (HostAndPort → Nat)

/-- The count of a node after an event. -/
def nextCount (p : Process) (count : HostAndPort → Nat) (e : HealthEvent) (n : HostAndPort) : Nat :=
  match e with
  | .answered m _ => if n = m then 0 else count n
  | .timedOut m _ => if n = m then count n + 1 else count n
  | .register m =>
    -- A node that is not listed enters the table.
    if n = m ∧ n ∉ p.cluster.getNodesInCluster then 0 else count n

def track (s : Tracked) (e : HealthEvent) : Tracked :=
  (s.1.healthStep e, s.1.nextCount s.2 e)

/-! ## One step -/

theorem healthStep_answered {p : Process} {n : HostAndPort} {response : Json}
    (h : Health.calleeOf response = .ok n) :
    p.healthStep (.answered n response) = p.answered n := by
  show Cpp.stateOf ((Health.healthyNodeCallback response).run p) = _
  rw [Health.run_healthyNodeCallback h]
  rfl

theorem healthStep_timedOut {p : Process} {n : HostAndPort} {response : Json}
    (h : Health.calleeOf response = .ok n) :
    p.healthStep (.timedOut n response) = p.timedOut n := by
  show Cpp.stateOf ((Health.timedoutNodeCallback response).run p) = _
  rw [Health.run_timedoutNodeCallback h]
  rfl

theorem status_register {p : Process} {n m : HostAndPort}
    (hm : m ≠ n ∨ m ∈ p.cluster.getNodesInCluster) : (p.register n).status m = p.status m := by
  have hslots : (p.cluster.register n).view.slotOf m = p.cluster.view.slotOf m :=
    Slots.slotOf_congr fun i =>
      Cluster.view_register_apply_iff (hm.imp_right Cluster.mem_getNodesInCluster.mp) i
  show (⟨(p.cluster.register n).view.slotOf m, p.potentiallyFailing m⟩ : NodeStatus) = _
  rw [hslots]
  rfl

theorem noDuplicate_healthStep {p : Process} {e : HealthEvent} (h : p.cluster.NoDuplicate)
    (possible : e.Possible p) : (p.healthStep e).cluster.NoDuplicate := by
  cases e with
  | answered n response =>
    rw [healthStep_answered possible.2]
    exact h
  | timedOut n response =>
    rw [healthStep_timedOut possible.2]
    exact noDuplicate_timedOut h n
  | register n => exact Cluster.noDuplicate_register h n

theorem status_healthStep_of_ne {p : Process} {e : HealthEvent} {m : HostAndPort}
    (h : p.cluster.NoDuplicate) (possible : e.Possible p) (hm : m ≠ e.node) :
    (p.healthStep e).status m = p.status m := by
  cases e with
  | answered n response =>
    rw [healthStep_answered possible.2, status_answered]
    exact if_neg hm
  | timedOut n response =>
    rw [healthStep_timedOut possible.2, status_timedOut h]
    exact if_neg hm
  | register n => exact status_register (.inl hm)

theorem nextCount_of_ne {p : Process} {e : HealthEvent} {m : HostAndPort} (hm : m ≠ e.node)
    (count : HostAndPort → Nat) : p.nextCount count e m = count m := by
  cases e with
  | answered n response => exact if_neg hm
  | timedOut n response => exact if_neg hm
  | register n => exact if_neg fun h => hm h.1

/-! ## The invariant -/

/-- The map entry of a listed node after a number of time-outs in a row. -/
def entryOf (count : Nat) : Option Int32 :=
  if count = 0 then none else some (Int32.ofNat (count - 1))

theorem timedOut_entryOf {count : Nat} (h : count ≤ 4) (slot : Option (Fin MAX_NUM_NODES)) :
    (⟨slot, entryOf count⟩ : NodeStatus).timedOut =
      if count = 4 then ⟨none, none⟩ else ⟨slot, entryOf (count + 1)⟩ := by
  -- Five counts, five evaluations of the callback's test.
  obtain rfl | rfl | rfl | rfl | rfl : count = 0 ∨ count = 1 ∨ count = 2 ∨ count = 3 ∨ count = 4 := by
    omega
  all_goals rfl

structure EvictionInv (s : Tracked) : Prop where
  nodup : s.1.cluster.NoDuplicate
  few : ∀ n ∈ s.1.cluster.getNodesInCluster, s.2 n ≤ 4
  entry : ∀ n ∈ s.1.cluster.getNodesInCluster, s.1.potentiallyFailing n = entryOf (s.2 n)
  absent : ∀ n, n ∉ s.1.cluster.getNodesInCluster → s.1.potentiallyFailing n = none

/-- The node of an event, if it was listed: it loses its slot exactly by its
    fifth time-out in a row, and its entry follows its count. -/
theorem status_track_of_listed {s : Tracked} {e : HealthEvent} {n : HostAndPort}
    (h : EvictionInv s) (possible : e.Possible s.1) (hn : e.node = n)
    (listed : n ∈ s.1.cluster.getNodesInCluster) :
    (track s e).1.status n =
      if e.isTimeOut ∧ s.2 n = 4 then ⟨none, none⟩
      else ⟨(s.1.status n).slot, entryOf ((track s e).2 n)⟩ := by
  -- By the invariant the entry is that of the count.
  have hstatus : s.1.status n = ⟨(s.1.status n).slot, entryOf (s.2 n)⟩ := by
    rw [← h.entry n listed]
    rfl
  cases e with
  | answered m response =>
    obtain rfl : m = n := hn
    have hcount : (track s (.answered m response)).2 m = 0 := if_pos rfl
    rw [hcount, if_neg fun hf => Bool.noConfusion hf.1]
    show (s.1.healthStep (.answered m response)).status m = _
    rw [healthStep_answered possible.2, status_answered, if_pos rfl]
    rfl
  | timedOut m response =>
    obtain rfl : m = n := hn
    have hcount : (track s (.timedOut m response)).2 m = s.2 m + 1 := if_pos rfl
    have htimeout := timedOut_entryOf (h.few m listed) (s.1.status m).slot
    rw [← hstatus] at htimeout
    show (s.1.healthStep (.timedOut m response)).status m = _
    rw [healthStep_timedOut possible.2, status_timedOut h.nodup, if_pos rfl, hcount, htimeout]
    exact if_congr (and_iff_right rfl).symm rfl rfl
  | register m =>
    obtain rfl : m = n := hn
    have hcount : (track s (.register m)).2 m = s.2 m := if_neg fun hm => hm.2 listed
    rw [hcount, if_neg fun hf => Bool.noConfusion hf.1, ← hstatus]
    exact status_register (.inr listed)

theorem track_of_not_listed {s : Tracked} {e : HealthEvent} {n : HostAndPort}
    (h : EvictionInv s) (possible : e.Possible s.1) (hn : e.node = n)
    (absent : n ∉ s.1.cluster.getNodesInCluster) :
    (track s e).1.potentiallyFailing n = none ∧ (track s e).2 n = 0 := by
  cases e with
  | answered m response => exact absurd (hn ▸ possible.1) absent
  | timedOut m response => exact absurd (hn ▸ possible.1) absent
  | register m =>
    obtain rfl : m = n := hn
    exact ⟨h.absent m absent, if_pos ⟨rfl, absent⟩⟩

theorem count_track_le {s : Tracked} {e : HealthEvent} {n : HostAndPort} (hn : e.node = n) :
    (track s e).2 n ≤ if e.isTimeOut then s.2 n + 1 else s.2 n := by
  cases e with
  | answered m response =>
    obtain rfl : m = n := hn
    show (if m = m then 0 else s.2 m) ≤ s.2 m
    rw [if_pos rfl]
    exact Nat.zero_le _
  | timedOut m response =>
    obtain rfl : m = n := hn
    show (if m = m then s.2 m + 1 else s.2 m) ≤ s.2 m + 1
    rw [if_pos rfl]
  | register m =>
    obtain rfl : m = n := hn
    show (if m = m ∧ m ∉ s.1.cluster.getNodesInCluster then 0 else s.2 m) ≤ s.2 m
    split <;> omega

section Step

variable {s : Tracked} {e : HealthEvent} {n : HostAndPort} (h : EvictionInv s)
  (possible : e.Possible s.1)

include h possible

theorem status_track_of_ne (hn : n ≠ e.node) : (track s e).1.status n = s.1.status n :=
  status_healthStep_of_ne h.nodup possible hn

theorem listed_track_of_ne (hn : n ≠ e.node) :
    n ∈ (track s e).1.cluster.getNodesInCluster ↔ n ∈ s.1.cluster.getNodesInCluster := by
  rw [← not_iff_not, ← slot_status_eq_none_iff, ← slot_status_eq_none_iff,
    status_track_of_ne h possible hn]

theorem not_listed_track_iff (listed : n ∈ s.1.cluster.getNodesInCluster) :
    n ∉ (track s e).1.cluster.getNodesInCluster ↔
      e.node = n ∧ e.isTimeOut = true ∧ s.2 n = 4 := by
  by_cases hn : e.node = n
  · have hslot : (s.1.status n).slot ≠ none := fun hnone =>
      slot_status_eq_none_iff.mp hnone listed
    rw [← slot_status_eq_none_iff, status_track_of_listed h possible hn listed]
    by_cases hfifth : e.isTimeOut = true ∧ s.2 n = 4
    · rw [if_pos hfifth]
      exact ⟨fun _ => ⟨hn, hfifth⟩, fun _ => rfl⟩
    · rw [if_neg hfifth]
      exact ⟨fun hnone => absurd hnone hslot, fun hev => absurd hev.2 hfifth⟩
  · rw [listed_track_of_ne h possible (Ne.symm hn)]
    exact ⟨fun hnot => absurd listed hnot, fun hev => absurd hev.1 hn⟩

theorem status_track_of_kept (listed : n ∈ s.1.cluster.getNodesInCluster)
    (kept : n ∈ (track s e).1.cluster.getNodesInCluster) :
    (track s e).1.status n = ⟨(s.1.status n).slot, entryOf ((track s e).2 n)⟩ := by
  by_cases hn : e.node = n
  · rw [status_track_of_listed h possible hn listed]
    exact if_neg fun hfifth => (not_listed_track_iff h possible listed).mpr ⟨hn, hfifth⟩ kept
  · rw [status_track_of_ne h possible (Ne.symm hn)]
    show _ = (⟨_, entryOf (s.1.nextCount s.2 e n)⟩ : NodeStatus)
    rw [nextCount_of_ne (Ne.symm hn), ← h.entry n listed]
    rfl

theorem retries_track_of_absent (absent : n ∉ (track s e).1.cluster.getNodesInCluster) :
    (track s e).1.potentiallyFailing n = none := by
  have hretries : ((track s e).1.status n).retries = (track s e).1.potentiallyFailing n := rfl
  rw [← hretries]
  by_cases listed : n ∈ s.1.cluster.getNodesInCluster
  · obtain ⟨hn, hfifth⟩ := (not_listed_track_iff h possible listed).mp absent
    rw [status_track_of_listed h possible hn listed, if_pos hfifth]
  · by_cases hn : e.node = n
    · exact (track_of_not_listed h possible hn listed).1
    · rw [status_track_of_ne h possible (Ne.symm hn)]
      exact h.absent n listed

theorem entered_track (absent : n ∉ s.1.cluster.getNodesInCluster)
    (listed : n ∈ (track s e).1.cluster.getNodesInCluster) :
    (track s e).1.potentiallyFailing n = none ∧ (track s e).2 n = 0 := by
  by_cases hn : e.node = n
  · exact track_of_not_listed h possible hn absent
  · exact absurd ((listed_track_of_ne h possible (Ne.symm hn)).mp listed) absent

theorem evictionInv_track : EvictionInv (track s e) := by
  refine ⟨noDuplicate_healthStep h.nodup possible, fun n kept => ?_, fun n kept => ?_,
    fun n => retries_track_of_absent h possible⟩
  · by_cases listed : n ∈ s.1.cluster.getNodesInCluster
    · have hfew := h.few n listed
      by_cases hn : e.node = n
      · have hle : (track s e).2 n ≤ _ := count_track_le hn
        -- A node that is still there has not just had its fifth.
        have hnot : ¬ (e.isTimeOut = true ∧ s.2 n = 4) := fun hfifth =>
          (not_listed_track_iff h possible listed).mpr ⟨hn, hfifth⟩ kept
        by_cases ht : e.isTimeOut = true
        · rw [if_pos ht] at hle
          have hne : s.2 n ≠ 4 := fun hfour => hnot ⟨ht, hfour⟩
          omega
        · rw [if_neg ht] at hle
          omega
      · show s.1.nextCount s.2 e n ≤ 4
        rwa [nextCount_of_ne (Ne.symm hn)]
    · rw [(entered_track h possible listed kept).2]
      exact Nat.zero_le 4
  · by_cases listed : n ∈ s.1.cluster.getNodesInCluster
    · exact congrArg NodeStatus.retries (status_track_of_kept h possible listed kept)
    · obtain ⟨hnone, hzero⟩ := entered_track h possible listed kept
      rw [hnone, hzero]
      rfl

end Step

/-! ## The rule -/

/-- The rule in a state of a history, for its listed nodes and its next event. -/
structure EvictionRule (s : Tracked) : Prop where
  /-- A listed node has timed out at most four times in a row, and has no entry
      after none of these and the number of retries after the others. -/
  entry : ∀ n ∈ s.1.cluster.getNodesInCluster, s.2 n ≤ 4 ∧
    s.1.potentiallyFailing n = if s.2 n = 0 then none else some (Int32.ofNat (s.2 n - 1))
  /-- It leaves the table exactly by the next time-out after four. -/
  evicted : ∀ e, e.Possible s.1 → ∀ n ∈ s.1.cluster.getNodesInCluster,
    (n ∉ (track s e).1.cluster.getNodesInCluster ↔
      e.node = n ∧ e.isTimeOut = true ∧ s.2 n = 4)
  forgotten : ∀ e, e.Possible s.1 → ∀ n, n ∉ (track s e).1.cluster.getNodesInCluster →
    (track s e).1.potentiallyFailing n = none
  /-- As long as it stays it keeps its slot. -/
  kept : ∀ e, e.Possible s.1 → ∀ n ∈ s.1.cluster.getNodesInCluster,
    n ∈ (track s e).1.cluster.getNodesInCluster →
    ((track s e).1.status n).slot = (s.1.status n).slot
  /-- A node that enters the table starts from zero. -/
  entered : ∀ e, e.Possible s.1 → ∀ n, n ∉ s.1.cluster.getNodesInCluster →
    n ∈ (track s e).1.cluster.getNodesInCluster →
    (track s e).1.potentiallyFailing n = none ∧ (track s e).2 n = 0
  /-- No event concerns another node. -/
  others : ∀ e, e.Possible s.1 → ∀ n, n ≠ e.node →
    (track s e).1.status n = s.1.status n ∧ (track s e).2 n = s.2 n

theorem evictionRule_of_inv {s : Tracked} (h : EvictionInv s) : EvictionRule s where
  entry n hn := ⟨h.few n hn, h.entry n hn⟩
  evicted _ possible _ := not_listed_track_iff h possible
  forgotten _ possible _ := retries_track_of_absent h possible
  kept _ possible _ hn hkept := by rw [status_track_of_kept h possible hn hkept]
  entered _ possible _ := entered_track h possible
  others _ possible _ hn := ⟨status_track_of_ne h possible hn, nextCount_of_ne hn _⟩

/-- From a table without duplicates and an empty map, the rule holds throughout
    every history. -/
theorem eviction_rule (p : Process) (nodup : p.cluster.NoDuplicate)
    (empty : ∀ n, p.potentiallyFailing n = none) (events : List HealthEvent)
    (possible : Guarded (fun s e => e.Possible s.1) track (p, fun _ => 0) events) :
    Always EvictionRule track (p, fun _ => 0) events := by
  have hinit : EvictionInv (p, fun _ => 0) :=
    ⟨nodup, fun _ _ => Nat.zero_le 4, fun n _ => empty n, fun n _ => empty n⟩
  have hkeep : ∀ (s : Tracked) (e : HealthEvent), EvictionInv s → e.Possible s.1 →
      EvictionInv (track s e) := fun _ _ => evictionInv_track
  exact (always_of_guarded hkeep hinit possible).mono fun _ => evictionRule_of_inv

/-- A node joins, is out of reach, and joins again. -/
def lostNode : List HealthEvent :=
  let late : Json := .object [("callee_info", calleeInfoJson ⟨"a", 1⟩)]
  [.register ⟨"a", 1⟩, .timedOut ⟨"a", 1⟩ late, .timedOut ⟨"a", 1⟩ late, .timedOut ⟨"a", 1⟩ late,
    .timedOut ⟨"a", 1⟩ late, .timedOut ⟨"a", 1⟩ late, .register ⟨"a", 1⟩]

theorem eviction_rule_lostNode :
    Always EvictionRule track (IMQNode.new ⟨"r", 1⟩ (initial {}), fun _ => 0) lostNode := by
  have hnodup : (IMQNode.new ⟨"r", 1⟩ (initial {})).cluster.NoDuplicate :=
    Cluster.noDuplicate_addNode_new ⟨"r", 1⟩
  have hhost : (⟨"a", 1⟩ : HostAndPort).host ≠ "" := by decide
  exact eviction_rule _ hnodup (fun _ => rfl) lostNode ⟨hhost, ⟨by decide, rfl⟩,
    ⟨by decide, rfl⟩, ⟨by decide, rfl⟩, ⟨by decide, rfl⟩, ⟨by decide, rfl⟩, hhost, trivial⟩

end Process

end Imq
