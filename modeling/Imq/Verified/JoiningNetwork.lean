import Imq.Verified.Joining
import Imq.Verified.NetworkForming

/-! # Joining through one leader, as a network does it

A `JoinSystem` says nothing of how a request and a reply travel.  Each of its steps is a
step of a network in which the leader is the first node and the joiners are the others:
the request is there as text, and so is the reply.

* `Tracks` — a network that is where the system is;
* `tracks_send`, `tracks_handle`, `tracks_apply` — each step of the system;
* `joins_in_network` — all of its runs.
-/

namespace Imq

/-- The call whose end a joiner waits for. -/
def JoinPhase.joining : JoinPhase → Option (RPCCall Process)
  | idle | applied | failed _ => none
  | requested rpcCall | replied rpcCall _ => some rpcCall

namespace JoinSystem

open Lib Cluster IMQNode Json RPCServerWorkerPool Network

variable {k : Nat}

section

variable (text : JsonText) (identity : String → Fin (k + 1) → String)
  (address : Fin (k + 1) → HostAndPort)

/-- The addresses of the nodes but the first. -/
def joinerAt (i : Fin k) : HostAndPort := address i.succ

/-- The network has the processes of the system, and what is under way in it. -/
structure Tracks (s : JoinSystem k) (t : TurnNetwork (k + 1)) : Prop where
  leader : (t.node 0).process = s.leader
  joiner : ∀ i, (t.node i.succ).process = s.joiner i
  joining : ∀ i, (t.node i.succ).joining = (s.phase i).joining
  request : ∀ i rpcCall, s.phase i = .requested rpcCall →
    (⟨rpcCall.calleeInfo.endpoint, i.succ, rpcCall.frames text⟩ : Request (k + 1)) ∈ t.requests
  reply : ∀ i rpcCall result, s.phase i = .replied rpcCall result →
    Arrives identity t.replies i.succ (address 0) [text.dump result]

end

section

variable {text : JsonText} {identity : String → Fin (k + 1) → String}
  {address : Fin (k + 1) → HostAndPort} {s s' : JoinSystem k} {t t' : TurnNetwork (k + 1)}
  {i : Fin k}

theorem party_of_addresses (addresses : Addresses address) (few : k ≤ 29) :
    Party (address 0) (joinerAt address) where
  few := few
  distinct := addresses.distinct.comp (Fin.succ_injective k)
  notLeader i h := Fin.succ_ne_zero i (addresses.distinct h)
  leaderHost := addresses.host 0
  joinerHost i := addresses.host i.succ
  leaderSendable := addresses.sendable 0
  joinerSendable i := addresses.sendable i.succ

theorem tracks_initial :
    Tracks text identity address (initial (address 0) (joinerAt address))
      (TurnNetwork.initial address) where
  leader := rfl
  joiner _ := rfl
  joining _ := rfl
  request _ _ h := JoinPhase.noConfusion h
  reply _ _ _ h := JoinPhase.noConfusion h

/-- One joiner goes on, and what has been sent stays. -/
theorem Tracks.goTo (h : Tracks text identity address s t) {phase : JoinPhase}
    (hphase : s'.phase = Function.update s.phase i phase)
    (hleader : (t'.node 0).process = s'.leader)
    (hjoiner : ∀ j : Fin k, (t'.node j.succ).process = s'.joiner j)
    (hself : (t'.node i.succ).joining = phase.joining)
    (hothers : ∀ j : Fin k, j ≠ i → (t'.node j.succ).joining = (t.node j.succ).joining)
    (hrequests : t.requests ⊆ t'.requests) (hreplies : t.replies ⊆ t'.replies)
    (hrequest : ∀ rpcCall, phase = .requested rpcCall →
      (⟨rpcCall.calleeInfo.endpoint, i.succ, rpcCall.frames text⟩ : Request (k + 1)) ∈ t'.requests)
    (hreply : ∀ rpcCall result, phase = .replied rpcCall result →
      Arrives identity t'.replies i.succ (address 0) [text.dump result]) :
    Tracks text identity address s' t' := by
  have here : s'.phase i = phase := by rw [hphase, Function.update_self]
  have there : ∀ {j}, j ≠ i → s'.phase j = s.phase j := by
    intro j hj
    rw [hphase, Function.update_of_ne hj]
  refine ⟨hleader, hjoiner, fun j => ?_, fun j rpcCall hj => ?_, fun j rpcCall result hj => ?_⟩
  · by_cases hji : j = i
    · rw [hji, here, hself]
    · rw [there hji, hothers j hji, h.joining]
  · by_cases hji : j = i
    · subst hji
      exact hrequest rpcCall (here.symm.trans hj)
    · exact hrequests (h.request j rpcCall ((there hji).symm.trans hj))
  · by_cases hji : j = i
    · subst hji
      exact hreply rpcCall result (here.symm.trans hj)
    · obtain ⟨reply, hmem, hsent⟩ := h.reply j rpcCall result ((there hji).symm.trans hj)
      exact ⟨reply, hreplies hmem, hsent⟩

/-- The joiner goes on by itself. -/
theorem Tracks.advance (h : Tracks text identity address s t) {phase : JoinPhase} {p : Process}
    (hprocess : (t'.node i.succ).process = p) (hjoining : (t'.node i.succ).joining = phase.joining)
    (hothers : ∀ j, j ≠ i.succ → t'.node j = t.node j) (hrequests : t.requests ⊆ t'.requests)
    (hreplies : t.replies ⊆ t'.replies)
    (hrequest : ∀ rpcCall, phase = .requested rpcCall →
      (⟨rpcCall.calleeInfo.endpoint, i.succ, rpcCall.frames text⟩ : Request (k + 1)) ∈ t'.requests)
    (hreply : ∀ rpcCall result, phase ≠ .replied rpcCall result) :
    Tracks text identity address (s.advance i phase p) t' := by
  have apart : ∀ {j : Fin k}, j ≠ i → j.succ ≠ i.succ := fun hj he => hj (Fin.succ_injective k he)
  refine h.goTo rfl ?_ (fun j => ?_) hjoining (fun j hj => by rw [hothers _ (apart hj)])
    hrequests hreplies hrequest fun rpcCall result he => absurd he (hreply rpcCall result)
  · rw [hothers _ (Fin.succ_ne_zero i).symm]
    exact h.leader
  · show (t'.node j.succ).process = Function.update s.joiner i p j
    by_cases hji : j = i
    · rw [hji, hprocess, Function.update_self]
    · rw [hothers _ (apart hji), h.joiner, Function.update_of_ne hji]

/-! ## Steps -/

theorem tracks_send (h : Tracks text identity address s t) (hphase : s.phase i = .idle) :
    ∃ t', TurnNetwork.step text identity address t (.joinCall i.succ 0) = some t' ∧
      Tracks text identity address (s.send (address 0) i) t' := by
  have hjoining : (t.node i.succ).joining = none := by rw [h.joining, hphase]; rfl
  refine ⟨t.joinCall text address i.succ 0, by simp only [TurnNetwork.step, hjoining], ?_⟩
  unfold send TurnNetwork.joinCall
  simp only [h.joiner]
  cases (bootstrapCall (s.joiner i).metaStore (address 0)).run (s.joiner i) with
  | ok rpcCall p =>
    refine h.advance (congrArg TurnNode.process (TurnNetwork.node_setNode_self t _ _))
      (congrArg TurnNode.joining (TurnNetwork.node_setNode_self t _ _))
      (fun j hj => TurnNetwork.node_setNode_of_ne t hj _) (List.subset_cons_self _ _)
      (List.Subset.refl _) (fun rpcCall' he => ?_) (by simp)
    cases he
    exact List.mem_cons_self
  | error e p =>
    exact h.advance (congrArg TurnNode.process (TurnNetwork.node_setNode_self t _ _))
      ((congrArg TurnNode.joining (TurnNetwork.node_setNode_self t _ _)).trans hjoining)
      (fun j hj => TurnNetwork.node_setNode_of_ne t hj _) (List.Subset.refl _)
      (List.Subset.refl _) (by simp) (by simp)

end

section

variable {format : FloatFormat} {identity : String → Fin (k + 1) → String}
  {address : Fin (k + 1) → HostAndPort} {s : JoinSystem k} {t : TurnNetwork (k + 1)} {i : Fin k}
  {order : List (Fin k)}

theorem Tracks.joinRequest (h : Tracks (.ofFormat format) identity address s t)
    (hphase : s.phase i = .requested (getNodesCall (joinerAt address i) (address 0))) :
    TurnNetwork.joinRequest format address i.succ 0 ∈ t.requests := by
  have hsent := h.request i _ hphase
  unfold TurnNetwork.joinRequest
  exact hsent

theorem tracks_handle (addresses : Addresses address)
    (hinv : Inv (address 0) (joinerAt address) s order)
    (h : Tracks (.ofFormat format) identity address s t) {rpcCall : RPCCall Process}
    (hphase : s.phase i = .requested rpcCall) :
    ∃ request t', TurnNetwork.step (.ofFormat format) identity address t (.serve 0 request) =
        some t' ∧
      Tracks (.ofFormat format) identity address (s.handle i rpcCall) t' := by
  obtain ⟨_, rfl, _⟩ := phaseInv_of_joinerInv (hinv.joiner i) hphase
  obtain ⟨t', next, hprocess, harrives, hothers, hrequests, hreplies⟩ :=
    TurnNetwork.exists_step_serves identity addresses (h.joinRequest hphase)
  rw [h.leader] at hprocess harrives
  have hrun : (getNodesInCluster (getNodesCall (joinerAt address i) (address 0)).args).run
      s.leader.cluster = _ :=
    run_getNodesInCluster_register (joinerAt address i) s.leader.cluster
  have hjoiner : ∀ j : Fin k, t'.node j.succ = t.node j.succ :=
    fun j => hothers j.succ (Fin.succ_ne_zero j)
  refine ⟨_, t', next, ?_⟩
  rw [handle_of_run hrun]
  refine h.goTo rfl hprocess (fun j => ?_) ?_ (fun j _ => by rw [hjoiner])
    (by rw [hrequests]; exact List.Subset.refl _) hreplies (by simp) fun rpcCall result he => ?_
  · rw [hjoiner]
    exact h.joiner j
  · rw [hjoiner, h.joining, hphase]
    rfl
  · cases he
    exact harrives

/-- `Get` reads the reply back, and what follows it is the same. -/
theorem bootstrapEnd_received {text : JsonText} {rpcCall : RPCCall Process} {frame : String}
    {j : Json} (sync : rpcCall.async = false) (hparse : text.parse frame = .ok j) :
    Cluster.bootstrapEnd text rpcCall (.received [frame]) = receive rpcCall j := by
  unfold Cluster.bootstrapEnd receive
  rw [RPCResponse.get_received sync hparse]

theorem tracks_apply (addresses : Addresses address)
    (hinv : Inv (address 0) (joinerAt address) s order)
    (h : Tracks (.ofFormat format) identity address s t) {rpcCall : RPCCall Process} {result : Json}
    (hphase : s.phase i = .replied rpcCall result) :
    ∃ receipt t', TurnNetwork.step (.ofFormat format) identity address t
        (.joinEnd i.succ receipt) = some t' ∧
      Tracks (.ofFormat format) identity address (s.apply i rpcCall result) t' := by
  have harrives := h.reply i rpcCall result hphase
  have hjoining : (t.node i.succ).joining = some rpcCall := by rw [h.joining, hphase]; rfl
  obtain ⟨rfl, _, c, _, ⟨front, _, hholds⟩, rfl⟩ := phaseInv_of_joinerInv (hinv.joiner i) hphase
  -- All hosts of the nodes are UTF-8, so the text of the reply is read as what was sent.
  have utf8 : c.Utf8Hosts :=
    forall_of_holds hholds (addresses.utf8 0) (fun i => addresses.utf8 i.succ) fun m hfree => by
      rw [hfree]
      exact utf8_empty
  have hparse : (JsonText.ofFormat format).parse ((JsonText.ofFormat format).dump c.replyOf) =
      .ok c.replyOf :=
    readBack_of_replied format utf8 (.inl rfl)
  have hsync : (getNodesCall (joinerAt address i) (address 0)).async = false := rfl
  have next : TurnNetwork.step (.ofFormat format) identity address t
      (.joinEnd i.succ (.received [(JsonText.ofFormat format).dump c.replyOf])) =
        some (t.joinEnd (.ofFormat format) i.succ (getNodesCall (joinerAt address i) (address 0))
          (.received [(JsonText.ofFormat format).dump c.replyOf])) := by
    simp only [TurnNetwork.step, hjoining]
    exact if_pos harrives
  refine ⟨_, _, next, ?_⟩
  unfold apply TurnNetwork.joinEnd
  simp only [bootstrapEnd_received hsync hparse, h.joiner]
  cases (receive (getNodesCall (joinerAt address i) (address 0)) c.replyOf).run (s.joiner i) with
  | ok _ p | error e p =>
    exact h.advance (congrArg TurnNode.process (TurnNetwork.node_setNode_self t _ _))
      (congrArg TurnNode.joining (TurnNetwork.node_setNode_self t _ _))
      (fun j hj => TurnNetwork.node_setNode_of_ne t hj _) (List.Subset.refl _)
      (List.Subset.refl _) (by simp) (by simp)

/-! ## Runs -/

/-- Each step of the system is one step of a network that takes turns. -/
theorem exists_turn_of_step (addresses : Addresses address) (few : k ≤ 29) {l : JoinStep k}
    {s' : JoinSystem k} (hinv : Inv (address 0) (joinerAt address) s order)
    (h : Tracks (.ofFormat format) identity address s t) (next : step (address 0) s l = some s') :
    ∃ turn t', t.Allows (TurnNode.JoinsLeader 0) turn ∧
      TurnNetwork.step (.ofFormat format) identity address t turn = some t' ∧
      (∃ order', Inv (address 0) (joinerAt address) s' order') ∧
      Tracks (.ofFormat format) identity address s' t' := by
  have hinv' := inv_step (party_of_addresses addresses few) hinv next
  cases l with
  | send i =>
    simp only [step] at next
    split at next
    next hphase =>
      cases next
      obtain ⟨t', hturn, htracks⟩ := tracks_send h hphase
      exact ⟨.joinCall i.succ 0, t', ⟨Fin.succ_ne_zero i, rfl⟩, hturn, hinv', htracks⟩
    next => cases next
  | handle i =>
    simp only [step] at next
    split at next
    next rpcCall hphase =>
      cases next
      obtain ⟨request, t', hturn, htracks⟩ := tracks_handle addresses hinv h hphase
      exact ⟨.serve 0 request, t', trivial, hturn, hinv', htracks⟩
    next => cases next
  | apply i =>
    simp only [step] at next
    split at next
    next rpcCall result hphase =>
      cases next
      obtain ⟨receipt, t', hturn, htracks⟩ := tracks_apply addresses hinv h hphase
      exact ⟨.joinEnd i.succ receipt, t', trivial, hturn, hinv', htracks⟩
    next => cases next

end

/-- Whatever the system does, a network does whose first node is the leader: the nodes join no
    other, the threads of each of them take turns, and in the end none is in the middle of
    anything. -/
theorem joins_in_network (format : FloatFormat) (identity : String → Fin (k + 1) → String)
    (address : Fin (k + 1) → HostAndPort) (addresses : Addresses address) (few : k ≤ 29)
    (labels : List (JoinStep k)) (s : JoinSystem k)
    (run : Run (step (address 0)) unguarded (initial (address 0) (joinerAt address)) labels s) :
    ∃ labels' t, Run (Network.step (.ofFormat format) identity address)
        (TakesTurns (TurnNode.JoinsLeader 0)) (Network.initial address) labels'
        (TurnNetwork.atRest t) ∧
      Tracks (.ofFormat format) identity address s t := by
  obtain ⟨turns, t, hrun, _, htracks⟩ := run.simulate
    (R := fun s t => (∃ order, Inv (address 0) (joinerAt address) s order) ∧
      Tracks (.ofFormat format) identity address s t)
    (fun s l s' t ⟨⟨_, hinv⟩, h⟩ _ next => by
      obtain ⟨turn, t', allowed, hturn, h'⟩ :=
        exists_turn_of_step addresses few hinv h next
      exact ⟨[turn], t', Run.single allowed hturn, h'⟩)
    ⟨⟨[], inv_initial (party_of_addresses addresses few)⟩, tracks_initial⟩
  obtain ⟨labels', hrun'⟩ := exists_run_turns hrun
  exact ⟨labels', t, hrun', htracks⟩

/-- The second of `twoNodes` joins the first. -/
theorem joins_in_network_twoNodes :
    ∃ labels' t, Run (Network.step (.ofFormat noFloats) twoClients twoNodes)
        (TakesTurns (TurnNode.JoinsLeader 0)) (Network.initial twoNodes) labels'
        (TurnNetwork.atRest t) ∧
      (t.node 1).process.cluster.getNodesInCluster = [⟨"a", 1⟩, ⟨"b", 2⟩] := by
  have hnodes : ([.send 0, .handle 0, .apply 0].foldlM (fun s l =>
      if unguarded s l then step (twoNodes 0) s l else none)
      (initial (twoNodes 0) (joinerAt twoNodes))).map
        (fun s : JoinSystem 1 => (s.joiner 0).cluster.getNodesInCluster) =
      some [⟨"a", 1⟩, ⟨"b", 2⟩] := by
    decide +kernel
  obtain ⟨s, hs, hnodes⟩ := Option.map_eq_some_iff.mp hnodes
  obtain ⟨labels', t, run, tracks⟩ := joins_in_network noFloats twoClients twoNodes
    addresses_twoNodes (by decide) _ s (Run.of_foldlM hs)
  exact ⟨labels', t, run, (congrArg (fun p => p.cluster.getNodesInCluster) (tracks.joiner 0)).trans
    hnodes⟩

end JoinSystem

end Imq
