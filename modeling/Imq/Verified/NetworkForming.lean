import Imq.Verified.NetworkJoining

/-! # A cluster can always be formed

Whatever has happened in a network whose nodes join one leader, and whose threads take
turns, they can still come to one table that lists all of them: each node joins once more,
so that the leader has all of them, and then once again, so that each of them has all that
the leader has.

* `exists_run_free` — a node gives up the join it waits for;
* `exists_run_joins` — a node joins;
* `exists_run_takeover` — a node joins, and has the leader's table;
* `cluster_forms` — all nodes, twice.
-/

namespace Imq

namespace TurnNetwork

open Lib Cluster IMQNode Json Network

variable {n : Nat}

/-- The states of a network whose nodes join `l`. -/
def Reached (format : FloatFormat) (identity : String → Fin n → String)
    (address : Fin n → HostAndPort) (l : Fin n) (t : TurnNetwork n) : Prop :=
  ∃ turns, Run (step (.ofFormat format) identity address) (Allows (TurnNode.JoinsLeader l))
    (initial address) turns t

section

variable {format : FloatFormat} {identity : String → Fin n → String}
  {address : Fin n → HostAndPort} {l i : Fin n} {order : List (Fin n)} {t t' : TurnNetwork n}

theorem Reached.append {turns : List (TurnStep n)} (reached : Reached format identity address l t)
    (run : Run (step (.ofFormat format) identity address) (Allows (TurnNode.JoinsLeader l)) t
      turns t') : Reached format identity address l t' := by
  obtain ⟨before, hrun⟩ := reached
  exact ⟨before ++ turns, hrun.append run⟩

theorem Reached.leaderInv (addresses : Addresses address) (few : n ≤ MAX_NUM_NODES)
    (reached : Reached format identity address l t) :
    ∃ order, LeaderInv (.ofFormat format) identity address l order t := by
  obtain ⟨turns, hrun⟩ := reached
  exact exists_leaderInv_of_run addresses few hrun

theorem Reached.inv (addresses : Addresses address) (reached : Reached format identity address l t) :
    Inv (.ofFormat format) address (fun _ _ => True) t.atRest := by
  obtain ⟨turns, hrun⟩ := reached
  exact inv_of_turns addresses (fun _ _ => TurnNode.JoinsLeader.joinsOther) hrun

/-- A node whose main thread waits for the end of a join can give it up. -/
theorem exists_run_free (h : LeaderInv (.ofFormat format) identity address l order t) (i : Fin n) :
    ∃ turns t', Run (step (.ofFormat format) identity address) (Allows (TurnNode.JoinsLeader l))
        t turns t' ∧
      (t'.node i).joining = none ∧
      ∀ j, (t'.node j).process.cluster = (t.node j).process.cluster := by
  cases hjoining : (t.node i).joining with
  | none => exact ⟨[], t, .nil, hjoining, fun _ => rfl⟩
  | some rpcCall =>
    obtain ⟨_, rfl⟩ := (h.node i).joining rpcCall hjoining
    have hsync : (getNodesCall (address i) (address l)).async = false := rfl
    have hbrings : Brings format (fun _ => False) .timedOut := trivial
    have possible : Receipt.timedOut.Possible identity t.replies i (address l) := trivial
    obtain ⟨c, hrun, rfl | ⟨_, hfalse, _⟩⟩ :=
      run_bootstrapEnd_of_brings (fun _ => False.elim) hbrings hsync (t.node i).process
    · have next : step (.ofFormat format) identity address t (.joinEnd i .timedOut) =
          some (t.setNode i { t.node i with joining := none }) := by
        simp only [step, hjoining, joinEnd_of_ok hrun]
        exact if_pos possible
      have allowed : t.Allows (TurnNode.JoinsLeader l) (.joinEnd i .timedOut) := trivial
      refine ⟨_, _, Run.single allowed next, ?_, fun j => ?_⟩
      · rw [node_setNode_self]
      · by_cases hj : j = i
        · rw [hj, node_setNode_self]
        · rw [node_setNode_of_ne t hj]
    · exact hfalse.elim

/-! ### A join -/

/-- What a node sends that joins another. -/
def joinRequest (format : FloatFormat) (address : Fin n → HostAndPort) (i l : Fin n) : Request n :=
  ⟨(address l).endpoint, i, (getNodesCall (address i) (address l)).frames (.ofFormat format)⟩

variable (format identity) in
/-- The call, which registers the leader. -/
theorem exists_step_calls (addresses : Addresses address)
    (h : Inv (.ofFormat format) address (fun _ _ => True) t.atRest) (other : i ≠ l)
    (free : (t.node i).joining = none)
    (room : ¬ (t.node i).process.cluster.NoRoomFor (address l)) :
    ∃ t', step (.ofFormat format) identity address t (.joinCall i l) = some t' ∧
      (t'.node i).process.cluster = (t.node i).process.cluster.register (address l) ∧
      (t'.node i).joining = some (getNodesCall (address i) (address l)) ∧
      joinRequest format address i l ∈ t'.requests ∧ ∀ j, j ≠ i → t'.node j = t.node j := by
  have hmeta : (t.node i).process.metaStore = address i := (h.node i).process.metaStore
  have hstore : (t.node i).process.rpcStore.ServersOnlyAt (address i) := (h.node i).process.store
  have hne : address l ≠ address i := fun he => other (addresses.distinct he).symm
  have next : step (.ofFormat format) identity address t (.joinCall i l) =
      some (t.joinCall (.ofFormat format) address i l) := by
    simp only [step, free]
  rw [joinCall_of_ok (run_bootstrapCall hstore hne room _), hmeta] at next
  refine ⟨_, next, ?_, ?_, List.mem_cons_self, fun j hj => node_setNode_of_ne t hj _⟩
  · exact congrArg (fun node => node.process.cluster) (node_setNode_self t i _)
  · exact congrArg TurnNode.joining (node_setNode_self t i _)

variable (identity) in
/-- The leader registers the node, and its table is there for it. -/
theorem exists_step_serves (addresses : Addresses address)
    (sent : joinRequest format address i l ∈ t.requests) :
    ∃ t', step (.ofFormat format) identity address t (.serve l (joinRequest format address i l)) =
        some t' ∧
      (t'.node l).process = { (t.node l).process with
        cluster := (t.node l).process.cluster.register (address i) } ∧
      Arrives identity t'.replies i (address l)
        [Json.dump format ((t.node l).process.cluster.register (address i)).replyOf] ∧
      (∀ j, j ≠ l → t'.node j = t.node j) ∧ t'.requests = t.requests ∧
      t.replies ⊆ t'.replies := by
  have hserve : t.serve (.ofFormat format) identity l (joinRequest format address i l) = _ :=
    serve_of_ok (run_workBody_getNodesCall format (addresses.utf8 i) (address l)
      (identity (address l).endpoint i) (t.node l).process)
  have next : step (.ofFormat format) identity address t
      (.serve l (joinRequest format address i l)) =
        some (t.serve (.ofFormat format) identity l (joinRequest format address i l)) :=
    if_pos ⟨sent, rfl⟩
  rw [hserve] at next
  refine ⟨_, next, ?_, ⟨_, List.mem_cons_self, rfl, if_pos rfl⟩,
    fun j hj => node_setNode_of_ne t hj _, rfl, List.subset_cons_self _ _⟩
  exact congrArg TurnNode.process (node_setNode_self t l _)

/-- The node takes the table over. -/
theorem exists_step_takes (addresses : Addresses address) {c : Cluster}
    (hc : Lists address (fun _ => True) c)
    (waiting : (t.node i).joining = some (getNodesCall (address i) (address l)))
    (arrives : Arrives identity t.replies i (address l) [Json.dump format c.replyOf]) :
    ∃ receipt t', step (.ofFormat format) identity address t (.joinEnd i receipt) = some t' ∧
      (t'.node i).process.cluster = (t.node i).process.cluster.overwrite c.view ∧
      ∀ j, j ≠ i → t'.node j = t.node j := by
  have hrun := run_bootstrapEnd_of_lists format addresses hc (address i) (address l)
    (t.node i).process
  have next : step (.ofFormat format) identity address t
      (.joinEnd i (.received [Json.dump format c.replyOf])) = some (t.joinEnd (.ofFormat format) i
        (getNodesCall (address i) (address l)) (.received [Json.dump format c.replyOf])) := by
    simp only [step, waiting]
    exact if_pos arrives
  rw [joinEnd_of_ok hrun] at next
  refine ⟨_, _, next, ?_, fun j hj => node_setNode_of_ne t hj _⟩
  exact congrArg (fun node => node.process.cluster) (node_setNode_self t i _)

/-- A node joins the leader, for which it has room. -/
theorem exists_run_joins (addresses : Addresses address)
    (h : Inv (.ofFormat format) address (fun _ _ => True) t.atRest) (other : i ≠ l)
    (free : (t.node i).joining = none)
    (room : ¬ (t.node i).process.cluster.NoRoomFor (address l)) :
    ∃ turns t', Run (step (.ofFormat format) identity address) (Allows (TurnNode.JoinsLeader l))
        t turns t' ∧
      (t'.node l).process.cluster = (t.node l).process.cluster.register (address i) ∧
      (t'.node i).process.cluster = ((t.node i).process.cluster.register (address l)).overwrite
        ((t.node l).process.cluster.register (address i)).view ∧
      ∀ j, j ≠ i → j ≠ l → t'.node j = t.node j := by
  obtain ⟨t₁, next₁, hcluster₁, hwaiting, hsent, hothers₁⟩ :=
    exists_step_calls format identity addresses h other free room
  obtain ⟨t₂, next₂, hprocess₂, harrives, hothers₂, _⟩ :=
    exists_step_serves identity addresses hsent
  have hcluster₂ := congrArg Process.cluster hprocess₂
  have hl : t₁.node l = t.node l := hothers₁ l (Ne.symm other)
  have hi : t₂.node i = t₁.node i := hothers₂ i other
  rw [hl] at hcluster₂ harrives
  have hlists : Lists address (fun _ => True) ((t.node l).process.cluster.register (address i)) :=
    Cluster.Forall.register (h.node l).process.cluster (.inr ⟨i, trivial, rfl⟩)
  obtain ⟨receipt, t₃, next₃, hcluster₃, hothers₃⟩ :=
    exists_step_takes addresses hlists (by rw [hi]; exact hwaiting) harrives
  have allowed₁ : t.Allows (TurnNode.JoinsLeader l) (.joinCall i l) := ⟨other, rfl⟩
  have allowed₂ : t₁.Allows (TurnNode.JoinsLeader l)
    (.serve l (joinRequest format address i l)) := trivial
  have allowed₃ : t₂.Allows (TurnNode.JoinsLeader l) (.joinEnd i receipt) := trivial
  refine ⟨_, t₃, ((Run.single allowed₁ next₁).snoc allowed₂ next₂).snoc allowed₃ next₃, ?_, ?_,
    fun j hj hjl => ?_⟩
  · rw [hothers₃ l (Ne.symm other), hcluster₂]
  · rw [hcluster₃, hi, hcluster₁]
  · rw [hothers₃ j hj, hothers₂ j hjl, hothers₁ j hj]

/-- A node joins, and has the table that the leader has with it. -/
theorem exists_run_takeover (addresses : Addresses address) (few : n ≤ MAX_NUM_NODES)
    (reached : Reached format identity address l t) (other : i ≠ l) :
    ∃ turns t', Run (step (.ofFormat format) identity address) (Allows (TurnNode.JoinsLeader l))
        t turns t' ∧
      (t'.node l).process.cluster = (t.node l).process.cluster.register (address i) ∧
      address i ∈ (t'.node l).process.cluster.getNodesInCluster ∧
      (t'.node i).process.cluster.view = (t'.node l).process.cluster.view ∧
      ∀ j, j ≠ i → j ≠ l → (t'.node j).process.cluster = (t.node j).process.cluster := by
  obtain ⟨order, h⟩ := reached.leaderInv addresses few
  obtain ⟨turns, t₁, hrun, hfree, hsame⟩ := exists_run_free h i
  have reached₁ := reached.append hrun
  obtain ⟨order₁, h₁⟩ := reached₁.leaderInv addresses few
  obtain ⟨ms, hms, hview⟩ := (h₁.node i).table.joiner other
  have hlen := length_joined few h₁.once hms
  obtain ⟨turns', t₂, hjoin, hleader, hjoiner, hothers⟩ := exists_run_joins addresses
    (reached₁.inv addresses) other hfree (hasRoom_of_joined addresses hlen hms hview)
  rw [hsame l] at hleader hjoiner
  obtain ⟨order', hpre, once', hmem, hregister⟩ := members_register addresses few h₁.once other
  have hlog : ((t.node l).process.cluster.register (address i)).view =
      Slots.ofList (members address l order') := by
    rw [view_register _ (addresses.host i), ← hsame l, (h₁.node l).table.leader rfl, hregister]
  refine ⟨_, t₂, hrun.append hjoin, hleader, ?_, ?_, fun j hj hjl => ?_⟩
  · rw [hleader, mem_of_view (length_members few once') hlog]
    exact address_mem_members hmem
  · -- The log that is laid over the node's table is at least as long.
    obtain ⟨ms', hms', hasked, _⟩ := joined_register addresses other hlen hms
    rw [hjoiner, hleader, view_overwrite, listing_view, hlog, view_register _ (addresses.host l),
      hview, hasked]
    exact Slots.patch_ofList_of_length_le (length_joined_le hpre hmem hms')
  · rw [hothers j hj hjl, hsame j]

/-- All nodes come to one table, in which all of them are. -/
theorem exists_run_forms (addresses : Addresses address) (few : n ≤ MAX_NUM_NODES)
    (reached : Reached format identity address l t) :
    ∃ turns t', Run (step (.ofFormat format) identity address) (Allows (TurnNode.JoinsLeader l))
        t turns t' ∧
      (∀ i, (t'.node i).process.cluster.view = (t'.node l).process.cluster.view) ∧
      ∀ i j, address j ∈ (t'.node i).process.cluster.getNodesInCluster := by
  have hleader : ∀ t, Reached format identity address l t →
      address l ∈ (t.node l).process.cluster.getNodesInCluster := by
    intro t reached
    obtain ⟨order, h⟩ := reached.leaderInv addresses few
    rw [mem_of_view (length_members few h.once) ((h.node l).table.leader rfl)]
    exact List.mem_cons_self
  -- First the leader registers every node, ...
  have hregister : ∀ i t, Reached format identity address l t → ∃ turns t',
      Run (step (.ofFormat format) identity address) (Allows (TurnNode.JoinsLeader l)) t turns t' ∧
        Reached format identity address l t' ∧
        address i ∈ (t'.node l).process.cluster.getNodesInCluster ∧
        ∀ j, address j ∈ (t.node l).process.cluster.getNodesInCluster →
          address j ∈ (t'.node l).process.cluster.getNodesInCluster := by
    intro i t reached
    by_cases other : i = l
    · exact ⟨[], t, .nil, reached, other ▸ hleader t reached, fun _ => id⟩
    · obtain ⟨turns, t', hrun, hcluster, hlisted, _⟩ :=
        exists_run_takeover addresses few reached other
      refine ⟨turns, t', hrun, reached.append hrun, hlisted, fun j hj => ?_⟩
      rw [hcluster]
      exact mem_getNodesInCluster_register hj _
  -- ... and then its table, which has all of them, does not change any more.
  have hagree : ∀ i t, (Reached format identity address l t ∧
      ∀ j, address j ∈ (t.node l).process.cluster.getNodesInCluster) → ∃ turns t',
      Run (step (.ofFormat format) identity address) (Allows (TurnNode.JoinsLeader l)) t turns t' ∧
        (Reached format identity address l t' ∧
          ∀ j, address j ∈ (t'.node l).process.cluster.getNodesInCluster) ∧
        (t'.node i).process.cluster.view = (t'.node l).process.cluster.view ∧
        ∀ j, (t.node j).process.cluster.view = (t.node l).process.cluster.view →
          (t'.node j).process.cluster.view = (t'.node l).process.cluster.view := by
    intro i t ⟨reached, hall⟩
    by_cases other : i = l
    · exact ⟨[], t, .nil, ⟨reached, hall⟩, by rw [other], fun _ => id⟩
    · obtain ⟨turns, t', hrun, hcluster, _, hsame, hothers⟩ :=
        exists_run_takeover addresses few reached other
      rw [register, if_pos (nodeInCluster_of_mem (hall i))] at hcluster
      refine ⟨turns, t', hrun, ⟨reached.append hrun, by rw [hcluster]; exact hall⟩, hsame,
        fun j hj => ?_⟩
      by_cases hji : j = i
      · rw [hji, hsame]
      · by_cases hjl : j = l
        · rw [hjl]
        · rw [hothers j hji hjl, hcluster, hj]
  obtain ⟨turns₁, t₁, hrun₁, reached₁, hall⟩ :=
    Run.exists_forall hregister (List.finRange n) reached
  obtain ⟨turns₂, t₂, hrun₂, ⟨_, hall₂⟩, hsame⟩ :=
    Run.exists_forall hagree (List.finRange n) ⟨reached₁, fun j => hall j (List.mem_finRange j)⟩
  refine ⟨_, t₂, hrun₁.append hrun₂, fun i => hsame i (List.mem_finRange i), fun i j => ?_⟩
  rw [mem_getNodesInCluster, hsame i (List.mem_finRange i), ← mem_getNodesInCluster]
  exact hall₂ j

end

end TurnNetwork

namespace Network

open Lib Cluster IMQNode Json TurnNetwork

variable {n : Nat}

/-- From every state that a network reaches whose nodes join one leader, the threads of each
    node taking turns, and whatever is still under way, there is a way on to a state in which
    no thread is in the middle of anything, all nodes have the same table, and all of them are
    in it. -/
theorem cluster_forms (format : FloatFormat) (identity : String → Fin n → String)
    (address : Fin n → HostAndPort) (addresses : Addresses address) (few : n ≤ MAX_NUM_NODES)
    (l : Fin n) (labels : List (NetworkStep n)) (s : Network n)
    (run : Run (step (.ofFormat format) identity address) (TakesTurns (TurnNode.JoinsLeader l))
      (initial address) labels s) :
    ∃ labels' s', Run (step (.ofFormat format) identity address)
        (TakesTurns (TurnNode.JoinsLeader l)) s labels' s' ∧
      (∀ i, s'.Rests i) ∧
      (∀ i, (s'.node i).process.cluster.view = (s'.node l).process.cluster.view) ∧
      ∀ i j, address j ∈ (s'.node i).process.cluster.getNodesInCluster := by
  obtain ⟨turns, t, before, sim⟩ := sim_of_run (t := TurnNetwork.initial address) run
  -- First all threads end what they have begun.
  obtain ⟨labels₁, turns₁, t₁, hrun₁, hturns₁⟩ := exists_run_atRest sim
  obtain ⟨turns₂, t₂, hturns₂, hsame, hall⟩ :=
    exists_run_forms addresses few ⟨_, before.append hturns₁⟩
  obtain ⟨labels₂, hrun₂⟩ := exists_run_turns hturns₂
  exact ⟨_, t₂.atRest, hrun₁.append hrun₂, fun i => ⟨_, rfl⟩, hsame, hall⟩

/-- A node is in the middle of a join. -/
theorem cluster_forms_joinCall :
    ∃ s labels' s',
      Run (step (.ofFormat noFloats) twoClients twoNodes) (TakesTurns (TurnNode.JoinsLeader 1))
        (initial twoNodes) [.joinCall 0 1] s ∧
      Run (step (.ofFormat noFloats) twoClients twoNodes) (TakesTurns (TurnNode.JoinsLeader 1))
        s labels' s' ∧
      (∀ i, s'.Rests i) ∧
      (∀ i, (s'.node i).process.cluster.view = (s'.node 1).process.cluster.view) ∧
      ∀ i j, twoNodes j ∈ (s'.node i).process.cluster.getNodesInCluster := by
  have allowed : (TurnNetwork.initial twoNodes).Allows (TurnNode.JoinsLeader 1) (.joinCall 0 1) :=
    ⟨by decide, rfl⟩
  have turns : (initial twoNodes).TakesTurns (TurnNode.JoinsLeader 1) (.joinCall 0 1) :=
    takesTurns_atRest rfl allowed
  have next : step (.ofFormat noFloats) twoClients twoNodes (initial twoNodes) (.joinCall 0 1) =
      some _ := rfl
  have run := Run.single turns next
  obtain ⟨labels', s', h⟩ := cluster_forms noFloats twoClients twoNodes addresses_twoNodes
    (by decide) 1 [.joinCall 0 1] _ run
  exact ⟨_, labels', s', run, h⟩

end Network

end Imq
