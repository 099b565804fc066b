import Imq.Joining
import Imq.Lib.Runs
import Imq.Verified.Bootstrap
import Mathlib.Data.Fintype.Card

/-! # Joining through one leader, in any order

The leader's table always holds itself and the nodes it has registered, in that
order and without holes, and each reply in flight carries a prefix of it.

* `JoinSystem.Inv` — the invariant, with the order of the registrations;
* `inv_send`, `inv_handle`, `inv_apply` — each step keeps it;
* `joined_tables_agree` — what follows for the tables.
-/

namespace Imq.JoinSystem

open Lib Cluster IMQNode

variable {k : Nat}

/-- The leader and the joiners are different nodes with sendable addresses, and
    all of them fit into one table. -/
structure Party (leader : HostAndPort) (joiners : Fin k → HostAndPort) : Prop where
  few : k ≤ 29
  distinct : Function.Injective joiners
  notLeader : ∀ i, joiners i ≠ leader
  leaderHost : leader.host ≠ ""
  joinerHost : ∀ i, (joiners i).host ≠ ""
  leaderSendable : leader.Sendable
  joinerSendable : ∀ i, (joiners i).Sendable

/-- The table lists the leader and then the joiners in order, without holes. -/
structure Holds (leader : HostAndPort) (joiners : Fin k → HostAndPort) (c : Cluster)
    (order : List (Fin k)) : Prop where
  clean : c.Clean
  view : c.view = Slots.ofList (leader :: order.map joiners)

/-- The table that the leader had right after it registered joiner `i`. -/
def Snapshot (leader : HostAndPort) (joiners : Fin k → HostAndPort) (order : List (Fin k))
    (i : Fin k) (c : Cluster) : Prop :=
  ∃ front, front ++ [i] <+: order ∧ Holds leader joiners c (front ++ [i])

/-- What holds of joiner `i` in a phase: of its process, and of the table that
    the leader had when it registered it. -/
def PhaseInv (leader : HostAndPort) (joiners : Fin k → HostAndPort) (order : List (Fin k))
    (i : Fin k) (p : Process) (registered : Option Cluster) : JoinPhase → Prop
  | .idle => i ∉ order ∧ p = IMQNode.new (joiners i) (Process.initial (joiners i))
  | .requested rpcCall =>
    i ∉ order ∧ rpcCall = getNodesCall (joiners i) leader ∧
      p.cluster = (Cluster.new.addNode (joiners i)).register leader
  | .replied rpcCall result =>
    rpcCall = getNodesCall (joiners i) leader ∧
      p.cluster = (Cluster.new.addNode (joiners i)).register leader ∧
      ∃ c, registered = some c ∧ Snapshot leader joiners order i c ∧ result = c.replyOf
  | .applied => registered = some p.cluster ∧ Snapshot leader joiners order i p.cluster
  | .failed _ => False

def JoinerInv (leader : HostAndPort) (joiners : Fin k → HostAndPort) (s : JoinSystem k)
    (order : List (Fin k)) (i : Fin k) : Prop :=
  PhaseInv leader joiners order i (s.joiner i) (s.registeredAt i) (s.phase i)

/-- The invariant: `order` lists the joiners in the order of their registration. -/
structure Inv (leader : HostAndPort) (joiners : Fin k → HostAndPort) (s : JoinSystem k)
    (order : List (Fin k)) : Prop where
  once : order.Nodup
  table : Holds leader joiners s.leader.cluster order
  joiner : ∀ i, JoinerInv leader joiners s order i
  registered : ∀ i c, s.registeredAt i = some c → Snapshot leader joiners order i c

/-! ## Hole-free tables -/

section Tables

variable {leader : HostAndPort} {joiners : Fin k → HostAndPort}

theorem nodup_members (party : Party leader joiners) {order : List (Fin k)} (h : order.Nodup) :
    (leader :: order.map joiners).Nodup := by
  refine List.nodup_cons.mpr ⟨fun hmem => ?_, h.map party.distinct⟩
  obtain ⟨i, _, hi⟩ := List.mem_map.mp hmem
  exact party.notLeader i hi

theorem forall_of_holds {Q : HostAndPort → Prop} {c : Cluster} {order : List (Fin k)}
    (h : Holds leader joiners c order) (hleader : Q leader) (hjoiner : ∀ i, Q (joiners i))
    (unused : ∀ m, m.host = "" → Q m) : c.Forall Q := by
  refine forall_of_view (fun slot m hm => ?_) unused
  rw [h.view] at hm
  obtain rfl | hmem := List.mem_cons.mp (List.mem_of_getElem? hm)
  · exact hleader
  · obtain ⟨i, _, rfl⟩ := List.mem_map.mp hmem
    exact hjoiner i

theorem sendable_of_holds (party : Party leader joiners) {c : Cluster} {order : List (Fin k)}
    (h : Holds leader joiners c order) : c.Sendable :=
  sendable_iff_forall.mpr (forall_of_holds h (fun _ => party.leaderSendable)
    (fun i _ => party.joinerSendable i) fun _ hfree hhost => absurd hfree hhost)

theorem holds_register (party : Party leader joiners) {c : Cluster} {order : List (Fin k)}
    (h : Holds leader joiners c order) {i : Fin k} (hi : (order ++ [i]).Nodup) :
    Holds leader joiners (c.register (joiners i)) (order ++ [i]) := by
  -- At most `k` joiners and the leader: there is a free slot, and it is the next one.
  have hlen : (order ++ [i]).length ≤ k := by
    have hcard := hi.length_le_card
    rwa [Fintype.card_fin] at hcard
  have hroom : (leader :: order.map joiners).length < MAX_NUM_NODES := by
    have hfew := party.few
    simp only [List.length_append, List.length_cons, List.length_nil, List.length_map] at hlen ⊢
    show order.length + 1 < 30
    omega
  have habsent : joiners i ∉ leader :: order.map joiners := by
    intro hmem
    obtain heq | hmem := List.mem_cons.mp hmem
    · exact party.notLeader i heq
    · obtain ⟨j, hj, hji⟩ := List.mem_map.mp hmem
      rw [party.distinct hji] at hj
      exact (List.disjoint_of_nodup_append hi) hj List.mem_cons_self
  refine ⟨clean_register h.clean (party.joinerHost i), ?_⟩
  rw [view_register _ (party.joinerHost i), h.view, Slots.register_ofList hroom habsent,
    List.map_append]
  rfl

/-- Laid over a new node's table, a table with two members is copied. -/
theorem overwrite_fresh (party : Party leader joiners) {c : Cluster} {order : List (Fin k)}
    (h : Holds leader joiners c order) (hne : order ≠ []) (i : Fin k) :
    ((Cluster.new.addNode (joiners i)).register leader).overwrite c.view = c := by
  have hL := party.leaderHost
  have hR := party.joinerHost i
  refine eq_of_view ?_ h.clean ?_
  · exact clean_overwrite (clean_register (clean_addNode clean_new hR) hL) fun slot n hn =>
      host_of_holds ⟨slot, hn⟩
  · rw [view_overwrite, listing_view, view_fresh_register hR hL (party.notLeader i).symm,
      overlay_fresh_eq_iff, h.view]
    obtain ⟨j, rest, rfl⟩ := List.exists_cons_of_ne_nil hne
    exact ⟨Option.some_ne_none _, Option.some_ne_none _⟩

theorem snapshot_mono {order order' : List (Fin k)} {i : Fin k} {c : Cluster}
    (h : Snapshot leader joiners order i c) (hpre : order <+: order') :
    Snapshot leader joiners order' i c := by
  obtain ⟨front, hfront, hc⟩ := h
  exact ⟨front, hfront.trans hpre, hc⟩

end Tables

/-! ## Steps -/

section Steps

variable {leader : HostAndPort} {joiners : Fin k → HostAndPort} {s : JoinSystem k}
  {order order' : List (Fin k)} {i j : Fin k}

theorem phaseInv_of_joinerInv {phase : JoinPhase} (h : JoinerInv leader joiners s order i)
    (hphase : s.phase i = phase) :
    PhaseInv leader joiners order i (s.joiner i) (s.registeredAt i) phase :=
  hphase ▸ h

theorem phaseInv_mono {p : Process} {registered : Option Cluster} {phase : JoinPhase}
    (h : PhaseInv leader joiners order j p registered phase) (hpre : order <+: order')
    (hmem : j ∈ order' → j ∈ order) : PhaseInv leader joiners order' j p registered phase := by
  cases phase with
  | idle => exact ⟨fun hj => h.1 (hmem hj), h.2⟩
  | requested rpcCall => exact ⟨fun hj => h.1 (hmem hj), h.2⟩
  | replied rpcCall result =>
    obtain ⟨hcall, htable, c, hc, hsnap, hresult⟩ := h
    exact ⟨hcall, htable, c, hc, snapshot_mono hsnap hpre, hresult⟩
  | applied => exact ⟨h.1, snapshot_mono h.2 hpre⟩
  | failed e => exact h

theorem joinerInv_of_frame {s' : JoinSystem k} (h : JoinerInv leader joiners s order j)
    (hphase : s'.phase j = s.phase j) (hjoiner : s'.joiner j = s.joiner j)
    (hreg : s'.registeredAt j = s.registeredAt j) (hpre : order <+: order')
    (hmem : j ∈ order' → j ∈ order) : JoinerInv leader joiners s' order' j := by
  unfold JoinerInv
  rw [hphase, hjoiner, hreg]
  exact phaseInv_mono h hpre hmem

theorem joinerInv_advance_self {phase : JoinPhase} {p : Process}
    (h : PhaseInv leader joiners order i p (s.registeredAt i) phase) :
    JoinerInv leader joiners (s.advance i phase p) order i := by
  show PhaseInv leader joiners order i (Function.update s.joiner i p i) (s.registeredAt i)
    (Function.update s.phase i phase i)
  rw [Function.update_self, Function.update_self]
  exact h

theorem joinerInv_advance_of_ne (h : JoinerInv leader joiners s order j) (hne : j ≠ i)
    (phase : JoinPhase) (p : Process) : JoinerInv leader joiners (s.advance i phase p) order j :=
  joinerInv_of_frame h (Function.update_of_ne hne _ _) (Function.update_of_ne hne _ _) rfl
    (List.prefix_refl order) id

theorem send_of_run {rpcCall : RPCCall Process} {p : Process}
    (h : (bootstrapCall (s.joiner i).metaStore leader).run (s.joiner i) = .ok rpcCall p) :
    s.send leader i = s.advance i (.requested rpcCall) p := by
  unfold send
  rw [h]

theorem handle_of_run {rpcCall : RPCCall Process} {result : Json} {c : Cluster}
    (h : (getNodesInCluster rpcCall.args).run s.leader.cluster = .ok result c) :
    s.handle i rpcCall =
      { s with
        leader := { s.leader with cluster := c }
        phase := Function.update s.phase i (.replied rpcCall result)
        registeredAt := Function.update s.registeredAt i (some c) } := by
  unfold handle
  rw [run_onCluster_ok h]

theorem apply_of_run {rpcCall : RPCCall Process} {result : Json} {p : Process}
    (h : (receive rpcCall result).run (s.joiner i) = .ok () p) :
    s.apply i rpcCall result = s.advance i .applied p := by
  unfold apply
  rw [h]

theorem inv_send (party : Party leader joiners) (h : Inv leader joiners s order)
    (hphase : s.phase i = .idle) : Inv leader joiners (s.send leader i) order := by
  obtain ⟨hnot, hnew⟩ := phaseInv_of_joinerInv (h.joiner i) hphase
  have hne : leader ≠ joiners i := (party.notLeader i).symm
  have hstore : (s.joiner i).rpcStore.ServersOnlyAt (joiners i) := by
    rw [hnew]
    exact RPCStore.serversOnlyAt_getRPCServer (RPCStore.serversOnlyAt_empty _)
  have hcluster : (s.joiner i).cluster = Cluster.new.addNode (joiners i) := by
    rw [hnew]
    rfl
  have hroom : ¬ (s.joiner i).cluster.NoRoomFor leader := by
    rw [hcluster]
    exact hasRoom_fresh (party.joinerHost i) party.leaderHost hne
  have hmeta : (s.joiner i).metaStore = joiners i := by
    rw [hnew]
    rfl
  have hrun := run_bootstrapCall hstore hne hroom (s.joiner i).metaStore
  rw [send_of_run hrun]
  refine ⟨h.once, h.table, fun j => ?_, h.registered⟩
  by_cases hji : j = i
  · subst hji
    refine joinerInv_advance_self ⟨hnot, ?_, ?_⟩
    · rw [hmeta]
    · rw [← hcluster]
  · exact joinerInv_advance_of_ne (h.joiner j) hji _ _

theorem inv_handle (party : Party leader joiners) (h : Inv leader joiners s order)
    {rpcCall : RPCCall Process} (hphase : s.phase i = .requested rpcCall) :
    Inv leader joiners (s.handle i rpcCall) (order ++ [i]) := by
  obtain ⟨hnot, rfl, htable⟩ := phaseInv_of_joinerInv (h.joiner i) hphase
  -- A joiner whose request is in flight has not been registered.
  have hnodup : (order ++ [i]).Nodup :=
    List.nodup_append.mpr ⟨h.once, List.nodup_singleton i, fun a ha b hb hab => by
      rw [List.mem_singleton.mp hb] at hab
      exact hnot (hab ▸ ha)⟩
  have hholds := holds_register party h.table hnodup
  have hrun : (getNodesInCluster (getNodesCall (joiners i) leader).args).run s.leader.cluster = _ :=
    run_getNodesInCluster_register (joiners i) s.leader.cluster
  rw [handle_of_run hrun]
  have hsnapshot : Snapshot leader joiners (order ++ [i]) i (s.leader.cluster.register (joiners i)) :=
    ⟨order, List.prefix_refl _, hholds⟩
  have hregistered : ∀ j c, Function.update s.registeredAt i
      (some (s.leader.cluster.register (joiners i))) j = some c →
        Snapshot leader joiners (order ++ [i]) j c := by
    intro j c hc
    by_cases hji : j = i
    · subst hji
      rw [Function.update_self] at hc
      exact Option.some.inj hc ▸ hsnapshot
    · rw [Function.update_of_ne hji] at hc
      exact snapshot_mono (h.registered j c hc) (List.prefix_append order [i])
  refine ⟨hnodup, hholds, fun j => ?_, hregistered⟩
  by_cases hji : j = i
  · subst hji
    show PhaseInv leader joiners _ j (s.joiner j) (Function.update s.registeredAt j _ j)
      (Function.update s.phase j _ j)
    rw [Function.update_self, Function.update_self]
    exact ⟨rfl, htable, _, rfl, hsnapshot, rfl⟩
  · refine joinerInv_of_frame (h.joiner j) (Function.update_of_ne hji _ _) rfl
      (Function.update_of_ne hji _ _) (List.prefix_append order [i]) fun hj => ?_
    obtain hj | hj := List.mem_append.mp hj
    · exact hj
    · exact absurd (List.mem_singleton.mp hj) hji

theorem inv_apply (party : Party leader joiners) (h : Inv leader joiners s order)
    {rpcCall : RPCCall Process} {result : Json} (hphase : s.phase i = .replied rpcCall result) :
    Inv leader joiners (s.apply i rpcCall result) order := by
  obtain ⟨rfl, htable, c, hreg, ⟨front, hpre, hholds⟩, rfl⟩ :=
    phaseInv_of_joinerInv (h.joiner i) hphase
  obtain ⟨response, hmeta, hnodes⟩ :=
    addResponseMetadata_replyOf (getNodesCall (joiners i) leader) c
  -- The table of the reply lists at least the leader and this joiner.
  have hcopy := overwrite_fresh party hholds (List.append_ne_nil_of_right_ne_nil front (by simp)) i
  have hreply : (bootstrapReply response).run (s.joiner i).cluster = .ok () c := by
    rw [run_bootstrapReply_of_sendable (sendable_of_holds party hholds) hnodes, htable, hcopy]
  have hrun : (receive (getNodesCall (joiners i) leader) c.replyOf).run (s.joiner i) =
      .ok () { s.joiner i with cluster := c } := by
    unfold receive
    rw [hmeta, Cpp.run_bind_ok (Cpp.run_ofExcept_ok response _)]
    exact run_onCluster_ok hreply
  rw [apply_of_run hrun]
  refine ⟨h.once, h.table, fun j => ?_, h.registered⟩
  by_cases hji : j = i
  · subst hji
    exact joinerInv_advance_self ⟨hreg, front, hpre, hholds⟩
  · exact joinerInv_advance_of_ne (h.joiner j) hji _ _

end Steps

/-! ## Runs -/

section Runs

variable {leader : HostAndPort} {joiners : Fin k → HostAndPort}

theorem inv_initial (party : Party leader joiners) :
    Inv leader joiners (initial leader joiners) [] := by
  exact ⟨List.nodup_nil,
    ⟨clean_addNode clean_new party.leaderHost, view_addNode_new party.leaderHost⟩,
    fun i => ⟨List.not_mem_nil, rfl⟩, nofun⟩

/-- Every step keeps the invariant, and at most appends to the order. -/
theorem inv_step (party : Party leader joiners) {s s' : JoinSystem k} {l : JoinStep k}
    {order : List (Fin k)} (h : Inv leader joiners s order) (next : step leader s l = some s') :
    ∃ order', Inv leader joiners s' order' := by
  cases l with
  | send i =>
    simp only [step] at next
    split at next
    next hphase =>
      cases next
      exact ⟨order, inv_send party h hphase⟩
    next => cases next
  | handle i =>
    simp only [step] at next
    split at next
    next rpcCall hphase =>
      cases next
      exact ⟨order ++ [i], inv_handle party h hphase⟩
    next => cases next
  | apply i =>
    simp only [step] at next
    split at next
    next rpcCall result hphase =>
      cases next
      exact ⟨order, inv_apply party h hphase⟩
    next => cases next

theorem exists_inv_of_run (party : Party leader joiners) {s : JoinSystem k}
    {labels : List (JoinStep k)}
    (run : Run (step leader) unguarded (initial leader joiners) labels s) :
    ∃ order, Inv leader joiners s order := by
  have hkeep : ∀ (s : JoinSystem k) (l : JoinStep k) (s' : JoinSystem k),
      (∃ order, Inv leader joiners s order) → unguarded s l → step leader s l = some s' →
      ∃ order, Inv leader joiners s' order :=
    fun _ _ _ ⟨_, h⟩ _ next => inv_step party h next
  exact run.invariant ⟨[], inv_initial party⟩ hkeep

/-- A settled table lists a prefix of what the leader lists, without holes. -/
theorem holds_of_settled {s : JoinSystem k} {order : List (Fin k)}
    (h : Inv leader joiners s order) {c : Cluster} (hc : s.Settled c) :
    ∃ front, front <+: order ∧ Holds leader joiners c front := by
  obtain rfl | ⟨i, hphase, rfl⟩ := hc
  · exact ⟨order, List.prefix_refl order, h.table⟩
  · obtain ⟨_, front, hpre, hholds⟩ := phaseInv_of_joinerInv (h.joiner i) hphase
    exact ⟨front ++ [i], hpre, hholds⟩

/-- A joiner is listed in the table that the leader had right after registering it. -/
theorem listed_of_snapshot {order : List (Fin k)} {i : Fin k} {c : Cluster}
    (party : Party leader joiners) (once : order.Nodup)
    (h : Snapshot leader joiners order i c) : joiners i ∈ c.getNodesInCluster := by
  obtain ⟨front, hpre, hholds⟩ := h
  have hlen := (hpre.sublist.nodup once).length_le_card
  rw [Fintype.card_fin] at hlen
  have hfew := party.few
  have hroom : (leader :: (front ++ [i]).map joiners).length ≤ MAX_NUM_NODES := by
    rw [List.length_cons, List.length_map]
    show _ ≤ 30
    omega
  rw [mem_getNodesInCluster, hholds.view, Slots.holds_ofList hroom]
  simp

end Runs

/-- However the steps of the joiners are interleaved: a joiner that has applied
    its reply has the table that the leader had right after registering it, it is
    listed there, the settled tables hold no different nodes in one slot and no
    node twice, and no step has thrown. -/
theorem joined_tables_agree {leader : HostAndPort} {joiners : Fin k → HostAndPort}
    (party : Party leader joiners) {s : JoinSystem k} {labels : List (JoinStep k)}
    (run : Run (step leader) unguarded (initial leader joiners) labels s) :
    (∀ i, s.phase i = .applied → s.registeredAt i = some (s.joiner i).cluster) ∧
    (∀ i c, s.registeredAt i = some c → joiners i ∈ c.getNodesInCluster) ∧
    (∀ c d, s.Settled c → s.Settled d → ∀ slot a b,
      c.view slot = some a → d.view slot = some b → a = b) ∧
    (∀ c, s.Settled c → c.NoDuplicate) ∧
    (∀ i e, s.phase i ≠ .failed e) := by
  obtain ⟨order, h⟩ := exists_inv_of_run party run
  refine ⟨fun i hphase => ?_, fun i c hc => ?_, fun c d hc hd slot a b ha hb => ?_,
    fun c hc => ?_, fun i e hphase => ?_⟩
  · exact (phaseInv_of_joinerInv (h.joiner i) hphase).1
  · exact listed_of_snapshot party h.once (h.registered i c hc)
  · -- Both tables hold what the leader's holds in that slot.
    have hfull : ∀ c, s.Settled c → ∀ a, c.view slot = some a →
        (Slots.ofList (leader :: order.map joiners) : Slots MAX_NUM_NODES HostAndPort) slot =
          some a := by
      intro c hc a ha
      obtain ⟨front, hpre, hholds⟩ := holds_of_settled h hc
      rw [hholds.view] at ha
      refine Slots.ofList_apply_of_prefix ?_ ha
      exact (List.prefix_cons_inj leader).mpr (hpre.map joiners)
    exact Option.some.inj ((hfull c hc a ha).symm.trans (hfull d hd b hb))
  · obtain ⟨front, hpre, hholds⟩ := holds_of_settled h hc
    unfold NoDuplicate
    rw [hholds.view]
    exact Slots.unique_ofList (nodup_members party (hpre.sublist.nodup h.once))
  · exact phaseInv_of_joinerInv (h.joiner i) hphase

/-- Two joiners. -/
def pair (i : Fin 2) : HostAndPort := if i = 0 then ⟨"a", 1⟩ else ⟨"b", 2⟩

theorem party_pair : Party ⟨"l", 3⟩ pair where
  few := by decide
  distinct := by decide
  notLeader := by decide
  leaderHost := by decide
  joinerHost := by decide
  leaderSendable := by decide
  joinerSendable := by decide

/-- Their requests are handled in the other order than they were sent. -/
theorem joined_pair_agrees :
    ∃ s : JoinSystem 2, s.phase 0 = .applied ∧ s.phase 1 = .applied ∧
      s.registeredAt 0 = some (s.joiner 0).cluster ∧
      s.registeredAt 1 = some (s.joiner 1).cluster ∧
      (∀ i, pair i ∈ (s.joiner i).cluster.getNodesInCluster) := by
  have h₁ : Run (step ⟨"l", 3⟩) unguarded (initial ⟨"l", 3⟩ pair) [.send 0] _ :=
    .snoc .nil trivial rfl
  have h₂ := Run.snoc (l := .send 1) h₁ trivial rfl
  have h₃ := Run.snoc (l := .handle 1) h₂ trivial rfl
  have h₄ := Run.snoc (l := .handle 0) h₃ trivial rfl
  have h₅ := Run.snoc (l := .apply 0) h₄ trivial rfl
  have h₆ := Run.snoc (l := .apply 1) h₅ trivial rfl
  obtain ⟨s, run, h0, h1⟩ : ∃ s, Run (step ⟨"l", 3⟩) unguarded (initial ⟨"l", 3⟩ pair)
      [.send 0, .send 1, .handle 1, .handle 0, .apply 0, .apply 1] s ∧
      s.phase 0 = .applied ∧ s.phase 1 = .applied := ⟨_, h₆, rfl, rfl⟩
  obtain ⟨hcopied, hlisted, _⟩ := joined_tables_agree party_pair run
  have hcopied0 := hcopied 0 h0
  have hcopied1 := hcopied 1 h1
  exact ⟨s, h0, h1, hcopied0, hcopied1,
    Fin.forall_fin_two.mpr ⟨hlisted 0 _ hcopied0, hlisted 1 _ hcopied1⟩⟩

end Imq.JoinSystem
