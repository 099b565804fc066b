import Imq.Verified.NetworkPass
import Imq.Verified.Turns
import Mathlib.Data.Fintype.Card

/-! # Networks whose nodes join one leader

The threads of each node take turns.  Then the leader's table is a log: the leader itself
and then the nodes it has registered, in that order.  A node that has taken the table over
has a prefix of this log, whatever was lost, delayed or delivered again, and however often
it has joined.

* `JoinsLeader` — which runs are looked at;
* `Joined` — what the table of a node can be;
* `LeaderInv` — the invariant, with `inv_join`, `inv_registration`, `inv_takeover` and so on
  for the steps;
* `members_agree` — what follows for the tables.
-/

namespace Imq

/-- A node joins no other than `l`, and no check times out so often that the node called is
    removed. -/
def TurnNode.JoinsLeader {n : Nat} (l : Fin n) (node : TurnNode) : TurnStep n → Prop
  | .joinCall i l' => i ≠ l ∧ l' = l
  | .checkEnd _ .timedOut =>
    match node.health with
    | .awaiting callee _ =>
      ∀ r ∈ node.process.potentiallyFailing callee, ¬ Health.REMOVE_AFTER_NUM_RETRIES ≤ r
    | _ => True
  | _ => True

instance {n : Nat} (l : Fin n) (node : TurnNode) (turn : TurnStep n) :
    Decidable (node.JoinsLeader l turn) :=
  match turn with
  | .joinCall i l' => inferInstanceAs (Decidable (i ≠ l ∧ l' = l))
  | .checkEnd _ .timedOut =>
    match h : node.health with
    | .awaiting callee _ =>
      have : Decidable (∀ r ∈ node.process.potentiallyFailing callee,
          ¬ Health.REMOVE_AFTER_NUM_RETRIES ≤ r) := Option.decidableForallMem _
      decidable_of_iff _ (by rw [TurnNode.JoinsLeader, h])
    | .asleep | .checking _ | .ended => .isTrue (by rw [TurnNode.JoinsLeader, h]; trivial)
  | .checkEnd _ (.answered _) | .checkEnd _ .neither => .isTrue trivial
  | .serve _ _ | .joinEnd _ _ | .pass _ | .check _ => .isTrue trivial

theorem TurnNode.JoinsLeader.joinsOther {n : Nat} {l : Fin n} {node : TurnNode} {turn : TurnStep n}
    (h : node.JoinsLeader l turn) : node.JoinsOther turn := by
  cases turn with
  | joinCall i l' =>
    obtain ⟨hi, rfl⟩ := h
    exact hi.symm
  | _ => trivial

namespace TurnNetwork

open Lib Cluster IMQNode RPCServerWorkerPool Json Network

variable {n : Nat}

/-! ## Logs and tables -/

section Tables

variable (identity : String → Fin n → String) (address : Fin n → HostAndPort) (l : Fin n)

/-- The leader and the nodes it has registered. -/
def members (order : List (Fin n)) : List HostAndPort := (l :: order).map address

/-- The leader's client identities tell the nodes apart. -/
def Apart : Prop := Function.Injective (identity (address l).endpoint)

/-- What a node lists that joins `l`: itself, then the leader as well, and then a part of the
    leader's log. -/
inductive Joined (order : List (Fin n)) (i : Fin n) : List HostAndPort → Prop where
  | alone : Joined order i [address i]
  | asking : Joined order i [address i, address l]
  | member {front : List (Fin n)} (part : front <+: order) (ne_nil : front ≠ [])
      (own : Apart identity address l → i ∈ front) : Joined order i (members address l front)

/-- What the table of a node is, in slots. -/
structure TableInv (order : List (Fin n)) (i : Fin n) (c : Cluster) : Prop where
  leader : i = l → c.view = Slots.ofList (members address l order)
  joiner : i ≠ l → ∃ ms, Joined identity address l order i ms ∧ c.view = Slots.ofList ms

end Tables

section

variable {identity : String → Fin n → String} {address : Fin n → HostAndPort} {l i : Fin n}
  {order front : List (Fin n)}

theorem Joined.mono {order' : List (Fin n)} (h : order <+: order') {ms : List HostAndPort}
    (hms : Joined identity address l order i ms) : Joined identity address l order' i ms := by
  cases hms with
  | alone => exact .alone
  | asking => exact .asking
  | member part ne_nil own => exact .member (part.trans h) ne_nil own

theorem members_mono (h : front <+: order) : members address l front <+: members address l order :=
  List.IsPrefix.map address (List.cons_prefix_cons.mpr ⟨rfl, h⟩)

theorem length_members (few : n ≤ MAX_NUM_NODES) (once : (l :: order).Nodup) :
    (members address l order).length ≤ MAX_NUM_NODES := by
  have hcard := once.length_le_card
  rw [Fintype.card_fin] at hcard
  rw [members, List.length_map]
  omega

theorem nodup_members (addresses : Addresses address) (once : (l :: order).Nodup) :
    (members address l order).Nodup :=
  once.map addresses.distinct

theorem once_of_front (once : (l :: order).Nodup) (h : front <+: order) : (l :: front).Nodup :=
  once.sublist ((List.cons_prefix_cons.mpr ⟨rfl, h⟩).sublist)

theorem address_mem_members {i : Fin n} (h : i ∈ front) : address i ∈ members address l front :=
  List.mem_map_of_mem (List.mem_cons_of_mem _ h)

/-- The members of a hole-free table. -/
theorem mem_of_view {c : Cluster} {ms : List HostAndPort} (few : ms.length ≤ MAX_NUM_NODES)
    (h : c.view = Slots.ofList ms) {m : HostAndPort} : m ∈ c.getNodesInCluster ↔ m ∈ ms := by
  rw [mem_getNodesInCluster, ← Slots.holds_ofList few, h]

theorem length_joined (few : n ≤ MAX_NUM_NODES) (once : (l :: order).Nodup) {ms : List HostAndPort}
    (h : Joined identity address l order i ms) : ms.length ≤ MAX_NUM_NODES := by
  cases h with
  | alone => simp [MAX_NUM_NODES]
  | asking => simp [MAX_NUM_NODES]
  | member part => exact length_members few (once_of_front once part)

/-- A part of the log, laid over what a node lists, gives the longer of the two; the node
    loses at most itself. -/
theorem joined_overwrite {ms : List HostAndPort} (h : Joined identity address l order i ms)
    (part : front <+: order) (ne_nil : front ≠ [])
    (own : Apart identity address l → i ∈ front) :
    ∃ ms', Joined identity address l order i ms' ∧
      (Slots.ofList ms : Slots MAX_NUM_NODES HostAndPort).patch
        (Slots.ofList (members address l front)).toPatch = Slots.ofList ms' ∧
      ∀ m ∈ ms, m ≠ address i → m ∈ ms' := by
  have hfront : 2 ≤ (members address l front).length := by
    have hpos := List.length_pos_iff.mpr ne_nil
    simp only [members, List.length_map, List.length_cons]
    omega
  cases h with
  | alone =>
    refine ⟨_, .member part ne_nil own, Slots.patch_ofList_of_length_le ?_, ?_⟩
    · exact (Nat.le_succ 1).trans hfront
    · intro m hm hne
      exact absurd (List.mem_singleton.mp hm) hne
  | asking =>
    refine ⟨_, .member part ne_nil own, Slots.patch_ofList_of_length_le hfront, ?_⟩
    intro m hm hne
    obtain rfl | hm := List.mem_cons.mp hm
    · exact absurd rfl hne
    · rw [List.mem_singleton.mp hm]
      exact List.mem_cons_self
  | @member front' part' ne_nil' own' =>
    obtain hle | hle := Nat.le_total front'.length front.length
    · have hpre : front' <+: front := List.prefix_of_prefix_length_le part' part hle
      refine ⟨_, .member part ne_nil own, Slots.patch_ofList_of_length_le ?_, ?_⟩
      · exact (members_mono hpre).length_le
      · exact fun m hm _ => (members_mono hpre).subset hm
    · have hpre : front <+: front' := List.prefix_of_prefix_length_le part part' hle
      refine ⟨_, .member part' ne_nil' own', ?_, fun m hm _ => hm⟩
      exact Slots.patch_ofList_of_prefix (members_mono hpre)

/-- The leader, registered by a node that asks it. -/
theorem joined_register (addresses : Addresses address) (other : i ≠ l) {ms : List HostAndPort}
    (few : ms.length ≤ MAX_NUM_NODES) (h : Joined identity address l order i ms) :
    ∃ ms', Joined identity address l order i ms' ∧
      (Slots.ofList ms : Slots MAX_NUM_NODES HostAndPort).register (address l) =
        Slots.ofList ms' ∧
      address l ∈ ms' ∧ ∀ m ∈ ms, m ∈ ms' := by
  cases h with
  | alone =>
    have habsent : address l ∉ [address i] := fun hmem =>
      other (addresses.distinct (List.mem_singleton.mp hmem)).symm
    refine ⟨_, .asking, Slots.register_ofList (by simp [MAX_NUM_NODES]) habsent, by simp, ?_⟩
    exact fun m hm => List.mem_append_left _ hm
  | asking =>
    have hmem : address l ∈ [address i, address l] := by simp
    exact ⟨_, .asking, Slots.register_of_holds ((Slots.holds_ofList few).mpr hmem), hmem,
      fun _ => id⟩
  | @member front part ne_nil own =>
    have hmem : address l ∈ members address l front := List.mem_cons_self
    exact ⟨_, .member part ne_nil own,
      Slots.register_of_holds ((Slots.holds_ofList few).mpr hmem), hmem, fun _ => id⟩

/-- The leader always fits in. -/
theorem hasRoom_of_joined (addresses : Addresses address) {ms : List HostAndPort}
    (few : ms.length ≤ MAX_NUM_NODES) (h : Joined identity address l order i ms) {c : Cluster}
    (hview : c.view = Slots.ofList ms) : ¬ c.NoRoomFor (address l) := by
  intro ⟨habsent, hfull⟩
  have hunlisted : address l ∉ ms := by
    intro hmem
    have hlisted := (Slots.holds_ofList few).mpr hmem
    rw [← hview, ← nodeInCluster_iff (addresses.host l), habsent] at hlisted
    cases hlisted
  cases h with
  | alone => exact hfull 1 (congrFun hview 1)
  | asking => exact hunlisted (by simp)
  | member => exact hunlisted List.mem_cons_self

/-- A part of a log is no longer than the whole. -/
theorem length_joined_le {order' : List (Fin n)} (h : order <+: order') (hi : i ∈ order')
    {ms : List HostAndPort} (hms : Joined identity address l order i ms) :
    ms.length ≤ (members address l order').length := by
  have hpos := List.length_pos_of_mem hi
  cases hms with
  | alone =>
    simp only [members, List.length_map, List.length_cons, List.length_nil]
    omega
  | asking =>
    simp only [members, List.length_map, List.length_cons, List.length_nil]
    omega
  | member part => exact (members_mono (part.trans h)).length_le

/-- A node registered by the leader is appended to its log, unless it is there. -/
theorem members_register (addresses : Addresses address) (few : n ≤ MAX_NUM_NODES)
    (once : (l :: order).Nodup) (other : i ≠ l) :
    ∃ order', order <+: order' ∧ (l :: order').Nodup ∧ i ∈ order' ∧
      (Slots.ofList (members address l order) : Slots MAX_NUM_NODES HostAndPort).register
        (address i) = Slots.ofList (members address l order') := by
  by_cases hi : i ∈ order
  · refine ⟨order, List.prefix_refl order, once, hi, Slots.register_of_holds ?_⟩
    exact (Slots.holds_ofList (length_members few once)).mpr (address_mem_members hi)
  · have hnew : i ∉ l :: order := by
      rw [List.mem_cons, not_or]
      exact ⟨other, hi⟩
    have once' : (l :: (order ++ [i])).Nodup := by
      rw [← List.cons_append]
      exact List.nodup_append.mpr ⟨once, List.nodup_singleton i, fun a ha b hb hab =>
        hnew (List.mem_singleton.mp hb ▸ hab ▸ ha)⟩
    have hlong : (members address l order).length < MAX_NUM_NODES := by
      have hlen : (members address l (order ++ [i])).length ≤ MAX_NUM_NODES :=
        length_members few once'
      simp only [members, List.length_map, List.length_cons, List.length_append] at hlen ⊢
      omega
    have habsent : address i ∉ members address l order := by
      intro hmem
      obtain ⟨j, hj, hji⟩ := List.mem_map.mp hmem
      exact hnew (addresses.distinct hji ▸ hj)
    refine ⟨order ++ [i], List.prefix_append _ _, once', by simp, ?_⟩
    rw [Slots.register_ofList hlong habsent, members, members, ← List.cons_append, List.map_append]
    rfl

end

/-! ## The invariant -/

/-- The nodes that a health thread has still to check. -/
def pendingChecks : CheckPhase → List HostAndPort
  | .asleep | .ended => []
  | .checking rest | .awaiting _ rest => rest

section

variable (text : JsonText) (identity : String → Fin n → String) (address : Fin n → HostAndPort)
  (l : Fin n) (order : List (Fin n))

structure LeaderNodeInv (i : Fin n) (node : TurnNode) : Prop where
  table : TableInv identity address l order i node.process.cluster
  pending : ∀ m ∈ pendingChecks node.health, m ≠ address i →
    m ∈ node.process.cluster.getNodesInCluster
  joining : ∀ rpcCall, node.joining = some rpcCall →
    i ≠ l ∧ rpcCall = getNodesCall (address i) (address l)

/-- A request joins the leader, or checks some node. -/
def LeaderRequest (request : Request n) : Prop :=
  (request.sender ≠ l ∧ request.endpoint = (address l).endpoint ∧
      request.frames = (getNodesCall (address request.sender) (address l)).frames text) ∨
    ∃ callee, request.frames = (Health.callTo callee).frames text

/-- The leader's log as it was when it had registered a client. -/
def SentTo (clientAddr : String) (t : Cluster) : Prop :=
  ∃ front j, front <+: order ∧ j ∈ front ∧ clientAddr = identity (address l).endpoint j ∧
    t.view = Slots.ofList (members address l front)

/-- A reply says that its sender is well, or carries the log. -/
def LeaderReply (reply : Reply) : Prop :=
  ∃ clientAddr result, reply.sent = [clientAddr, text.dump result] ∧
    ResultInv (SentTo identity address l order clientAddr) result

structure LeaderInv (s : TurnNetwork n) : Prop where
  once : (l :: order).Nodup
  node : ∀ i, LeaderNodeInv identity address l order i (s.node i)
  request : ∀ r ∈ s.requests, LeaderRequest text address l r
  reply : ∀ r ∈ s.replies, LeaderReply text identity address l order r
  thrown : s.thrown = []

end

section Frame

variable {text : JsonText} {identity : String → Fin n → String} {address : Fin n → HostAndPort}
  {l i : Fin n} {order order' : List (Fin n)} {s : TurnNetwork n}

theorem LeaderNodeInv.mono (h : order <+: order') (other : i ≠ l) {node : TurnNode}
    (hnode : LeaderNodeInv identity address l order i node) :
    LeaderNodeInv identity address l order' i node where
  table :=
    { leader := fun he => absurd he other
      joiner := fun _ => by
        obtain ⟨ms, hms, hview⟩ := hnode.table.joiner other
        exact ⟨ms, hms.mono h, hview⟩ }
  pending := hnode.pending
  joining := hnode.joining

theorem LeaderReply.mono (h : order <+: order') {reply : Reply}
    (hreply : LeaderReply text identity address l order reply) :
    LeaderReply text identity address l order' reply := by
  obtain ⟨clientAddr, result, hsent, hresult⟩ := hreply
  refine ⟨clientAddr, result, hsent, hresult.imp_left ?_⟩
  intro ⟨t, ⟨front, j, hpre, ht⟩, he⟩
  exact ⟨t, ⟨front, j, hpre.trans h, ht⟩, he⟩

theorem LeaderInv.setNode (h : LeaderInv text identity address l order s) {node : TurnNode}
    (hnode : LeaderNodeInv identity address l order i node) :
    LeaderInv text identity address l order (s.setNode i node) where
  once := h.once
  node j := by
    by_cases hj : j = i
    · subst hj
      rwa [node_setNode_self]
    · rw [node_setNode_of_ne s hj]
      exact h.node j
  request := h.request
  reply := h.reply
  thrown := h.thrown

theorem LeaderInv.send (h : LeaderInv text identity address l order s) {rpcCall : RPCCall Process}
    (hrequest : LeaderRequest text address l
      ⟨rpcCall.calleeInfo.endpoint, i, rpcCall.frames text⟩) :
    LeaderInv text identity address l order (s.send text i rpcCall) where
  once := h.once
  node := h.node
  request r hr := by
    obtain rfl | hr := List.mem_cons.mp hr
    · exact hrequest
    · exact h.request r hr
  reply := h.reply
  thrown := h.thrown

/-- A worker has replied, and its node lists the same. -/
theorem LeaderInv.respond (h : LeaderInv text identity address l order s) {reply : Reply}
    (hreply : LeaderReply text identity address l order reply) :
    LeaderInv text identity address l order { s with replies := reply :: s.replies } where
  once := h.once
  node := h.node
  request := h.request
  reply r hr := by
    obtain rfl | hr := List.mem_cons.mp hr
    · exact hreply
    · exact h.reply r hr
  thrown := h.thrown

end Frame

/-! ## Steps -/

section Steps

variable {format : FloatFormat} {identity : String → Fin n → String}
  {address : Fin n → HostAndPort} {L : Fin n → Fin n → Prop} {l i : Fin n}
  {order : List (Fin n)} {s : TurnNetwork n}

theorem inv_join (addresses : Addresses address) (few : n ≤ MAX_NUM_NODES)
    (hinv : Inv (.ofFormat format) address L s.atRest)
    (h : LeaderInv (.ofFormat format) identity address l order s) (other : i ≠ l) :
    LeaderInv (.ofFormat format) identity address l order
      (s.joinCall (.ofFormat format) address i l) := by
  obtain ⟨htable, hpending, _⟩ := h.node i
  obtain ⟨ms, hms, hview⟩ := htable.joiner other
  have hlen := length_joined few h.once hms
  obtain ⟨ms', hms', hregister, _, hkept⟩ := joined_register addresses other hlen hms
  have hview' : ((s.node i).process.cluster.register (address l)).view = Slots.ofList ms' := by
    rw [view_register _ (addresses.host l), hview, hregister]
  have hlen' := length_joined few h.once hms'
  have hne : address l ≠ address i := fun he => other (addresses.distinct he).symm
  have hroom := hasRoom_of_joined addresses hlen hms hview
  have hmeta : (s.node i).process.metaStore = address i := (hinv.node i).process.metaStore
  have hstore : (s.node i).process.rpcStore.ServersOnlyAt (address i) :=
    (hinv.node i).process.store
  rw [joinCall_of_ok (run_bootstrapCall hstore hne hroom _), hmeta]
  refine (h.setNode ⟨⟨fun he => absurd he other, fun _ => ⟨ms', hms', hview'⟩⟩, ?_, ?_⟩).send ?_
  · intro m hm hself
    rw [mem_of_view hlen' hview']
    exact hkept m ((mem_of_view hlen hview).mp (hpending m hm hself))
  · exact fun rpcCall hcall => ⟨other, (Option.some.inj hcall).symm⟩
  · exact .inl ⟨other, rfl, rfl⟩

/-- A check is answered, and nothing changes. -/
theorem inv_health (h : LeaderInv (.ofFormat format) identity address l order s) {j : Fin n}
    {request : Request n} {callee : HostAndPort}
    (hframes : request.frames = (Health.callTo callee).frames (.ofFormat format)) :
    LeaderInv (.ofFormat format) identity address l order
      (s.serve (.ofFormat format) identity j request) := by
  have hrun := run_workBody_callTo format callee (identity request.endpoint request.sender)
    (s.node j).process
  rw [← hframes] at hrun
  rw [serve_of_ok hrun]
  exact (h.setNode (h.node j)).respond ⟨_, _, rfl, .inr rfl⟩

/-- The leader registers a node, and replies with its log. -/
theorem inv_registration (addresses : Addresses address) (few : n ≤ MAX_NUM_NODES)
    (h : LeaderInv (.ofFormat format) identity address l order s) {request : Request n}
    (other : request.sender ≠ l) (hendpoint : request.endpoint = (address l).endpoint)
    (hframes : request.frames =
      (getNodesCall (address request.sender) (address l)).frames (.ofFormat format)) :
    ∃ order', LeaderInv (.ofFormat format) identity address l order'
      (s.serve (.ofFormat format) identity l request) := by
  obtain ⟨order', hpre, once', hmem, hregister⟩ := members_register addresses few h.once other
  obtain ⟨htable, hpending, hjoining⟩ := h.node l
  have hrun := run_workBody_getNodesCall format (addresses.utf8 request.sender) (address l)
    (identity request.endpoint request.sender) (s.node l).process
  rw [← hframes] at hrun
  have hview : ((s.node l).process.cluster.register (address request.sender)).view =
      Slots.ofList (members address l order') := by
    rw [view_register _ (addresses.host _), htable.leader rfl, hregister]
  have hlater : LeaderInv (.ofFormat format) identity address l order'
      (s.setNode l { s.node l with
        process := { (s.node l).process with
          cluster := (s.node l).process.cluster.register (address request.sender) } }) := by
    refine ⟨once', fun i => ?_, h.request, fun r hr => (h.reply r hr).mono hpre, h.thrown⟩
    by_cases hi : i = l
    · subst hi
      rw [node_setNode_self]
      refine ⟨⟨fun _ => hview, fun he => absurd rfl he⟩, fun m hm hself => ?_, hjoining⟩
      exact mem_getNodesInCluster_register (hpending m hm hself) _
    · rw [node_setNode_of_ne s hi]
      exact (h.node i).mono hpre hi
  rw [serve_of_ok hrun]
  refine ⟨order', hlater.respond ⟨_, _, rfl, .inl ⟨_, ?_, rfl⟩⟩⟩
  exact ⟨order', request.sender, List.prefix_refl _, hmem, congrArg (identity · _) hendpoint, hview⟩

/-! ### The end of a join -/

/-- What all nodes of the network have in common, and free slots have as well, holds of every
    slot. -/
theorem forall_of_members {t : Cluster} (h : t.view = Slots.ofList (members address l order))
    {Q : HostAndPort → Prop} (nodes : ∀ j, Q (address j)) (unused : ∀ m, m.host = "" → Q m) :
    t.Forall Q := by
  refine forall_of_view (fun slot m hm => ?_) unused
  rw [h] at hm
  obtain ⟨j, _, rfl⟩ := List.mem_map.mp (List.mem_of_getElem? hm)
  exact nodes j

theorem sendable_of_members (addresses : Addresses address) {t : Cluster}
    (h : t.view = Slots.ofList (members address l order)) : t.Sendable :=
  sendable_iff_forall.mpr
    (forall_of_members h (fun j _ => addresses.sendable j) fun _ hfree hhost => absurd hfree hhost)

theorem utf8Hosts_of_members (addresses : Addresses address) {t : Cluster}
    (h : t.view = Slots.ofList (members address l order)) : t.Utf8Hosts :=
  forall_of_members h addresses.utf8 fun m hfree => by rw [hfree]; exact utf8_empty

/-- What a client receives from the leader. -/
theorem brings_of_possible (addresses : Addresses address)
    (h : LeaderInv (.ofFormat format) identity address l order s) {receipt : Receipt}
    (possible : receipt.Possible identity s.replies i (address l)) :
    Brings format (SentTo identity address l order (identity (address l).endpoint i)) receipt := by
  cases receipt with
  | received message =>
    obtain ⟨reply, hmem, hendpoint, hrouted⟩ := possible
    obtain ⟨clientAddr, result, hsent, hresult⟩ := h.reply reply hmem
    rw [hsent] at hrouted
    obtain ⟨rfl, rfl⟩ := of_routedTo hrouted
    rw [hendpoint] at hresult
    refine ⟨result, hresult, rfl, readBack_of_result (fun t ht => ?_) hresult⟩
    obtain ⟨_, _, _, _, _, hview⟩ := ht
    exact utf8Hosts_of_members addresses hview
  | timedOut => trivial
  | stopped => trivial

/-- The leader's log is taken over, as far as it has been received. -/
theorem inv_takeover (addresses : Addresses address) (few : n ≤ MAX_NUM_NODES)
    (h : LeaderInv (.ofFormat format) identity address l order s) {rpcCall : RPCCall Process}
    (hjoining : (s.node i).joining = some rpcCall) {receipt : Receipt}
    (possible : receipt.Possible identity s.replies i rpcCall.calleeInfo) :
    LeaderInv (.ofFormat format) identity address l order
      (s.joinEnd (.ofFormat format) i rpcCall receipt) := by
  obtain ⟨htable, hpending, hcall⟩ := h.node i
  obtain ⟨other, rfl⟩ := hcall rpcCall hjoining
  obtain ⟨ms, hms, hview⟩ := htable.joiner other
  have hlen := length_joined few h.once hms
  have hsendable : ∀ t, SentTo identity address l order (identity (address l).endpoint i) t →
      t.Sendable := by
    intro t ⟨_, _, _, _, _, ht⟩
    exact sendable_of_members addresses ht
  have hsync : (getNodesCall (address i) (address l)).async = false := rfl
  obtain ⟨c, hrun, hc⟩ := run_bootstrapEnd_of_brings hsendable
    (brings_of_possible addresses h possible) hsync (s.node i).process
  have htaken : ∃ ms', Joined identity address l order i ms' ∧ c.view = Slots.ofList ms' ∧
      ∀ m ∈ ms, m ≠ address i → m ∈ ms' := by
    -- Either nothing usable arrives, or a table that the leader has sent: a front of the order.
    obtain rfl | ⟨t, ⟨front, j, hpre, hj, hidentity, ht⟩, rfl⟩ := hc
    · exact ⟨ms, hms, hview, fun m hm _ => hm⟩
    · have hown : Apart identity address l → i ∈ front := fun apart => by
        rw [apart hidentity]
        exact hj
      obtain ⟨ms', hms', hpatch, hkept⟩ :=
        joined_overwrite hms hpre (List.ne_nil_of_mem hj) hown
      refine ⟨ms', hms', ?_, hkept⟩
      rw [view_overwrite, listing_view, hview, ht, hpatch]
  obtain ⟨ms', hms', hview', hkept⟩ := htaken
  rw [joinEnd_of_ok hrun]
  apply h.setNode
  refine ⟨⟨fun he => absurd he other, fun _ => ⟨ms', hms', hview'⟩⟩, fun m hm hself => ?_, ?_⟩
  · rw [mem_of_view (length_joined few h.once hms') hview']
    exact hkept m ((mem_of_view hlen hview).mp (hpending m hm hself)) hself
  · exact fun _ hnone => by cases hnone

/-! ### The health thread -/

theorem inv_checks (h : LeaderInv (.ofFormat format) identity address l order s) {health : CheckPhase}
    (hpending : ∀ m ∈ pendingChecks health, m ≠ address i →
      m ∈ (s.node i).process.cluster.getNodesInCluster) :
    LeaderInv (.ofFormat format) identity address l order
      (s.setNode i { s.node i with health := health }) :=
  h.setNode ⟨(h.node i).table, hpending, (h.node i).joining⟩

theorem inv_call (hinv : Inv (.ofFormat format) address L s.atRest)
    (h : LeaderInv (.ofFormat format) identity address l order s) {rest : List HostAndPort}
    (hhealth : (s.node i).health = .checking rest) :
    LeaderInv (.ofFormat format) identity address l order (s.check (.ofFormat format) i rest) := by
  obtain ⟨htable, hpending, hjoining⟩ := h.node i
  have hprocess := (hinv.node i).process
  have hmeta : (s.node i).process.metaStore = address i := hprocess.metaStore
  rw [hhealth] at hpending
  cases rest with
  | nil => exact inv_checks h fun _ hm => absurd hm List.not_mem_nil
  | cons callee rest =>
    have hlater : ∀ m ∈ rest, m ≠ address i →
        m ∈ (s.node i).process.cluster.getNodesInCluster :=
      fun m hm => hpending m (List.mem_cons_of_mem _ hm)
    by_cases hown : callee.host = (address i).host ∧ callee.port = (address i).port
    · rw [check, hmeta, if_pos hown]
      exact inv_checks h hlater
    · have hne : callee ≠ address i := fun he => hown (by rw [he]; exact ⟨rfl, rfl⟩)
      have hlisted := nodeInCluster_of_mem (hpending callee List.mem_cons_self hne)
      rw [check_of_ok (by rw [hmeta]; exact hown)
        (run_checkCall_of_listed hprocess.store hne hlisted)]
      refine (h.setNode ?_).send (.inr ⟨callee, rfl⟩)
      exact ⟨htable, hlater, hjoining⟩

theorem cluster_settle_of_few {p : Process} {callee : HostAndPort} {outcome : CallOutcome}
    (few : outcome = .timedOut →
      ∀ r ∈ p.potentiallyFailing callee, ¬ Health.REMOVE_AFTER_NUM_RETRIES ≤ r) :
    (p.settle callee outcome).cluster = p.cluster := by
  cases outcome with
  | answered message => rfl
  | timedOut =>
    show (p.timedOut callee).cluster = p.cluster
    cases hr : p.potentiallyFailing callee with
    | none =>
      rw [Process.timedOut_of_none hr]
      rfl
    | some r =>
      rw [Process.timedOut_of_some hr, if_neg (few rfl r hr)]
      rfl
  | neither => rfl

theorem inv_end (addresses : Addresses address) (hinv : Inv (.ofFormat format) address L s.atRest)
    (h : LeaderInv (.ofFormat format) identity address l order s) {callee : HostAndPort}
    {rest : List HostAndPort} (hhealth : (s.node i).health = .awaiting callee rest)
    {outcome : CallOutcome} (possible : outcome.Possible identity s.replies i callee)
    (ok : (s.node i).JoinsLeader l (.checkEnd i outcome)) :
    LeaderInv (.ofFormat format) identity address l order
      (s.checkEnd (.ofFormat format) i callee rest outcome) := by
  obtain ⟨htable, hpending, hjoining⟩ := h.node i
  rw [hhealth] at hpending
  obtain ⟨callback, hrun, _⟩ :=
    Health.run_awaitOutcome (readable_of_possible addresses hinv possible) callee (s.node i).process
  have hcluster : ((s.node i).process.settle callee outcome).cluster =
      (s.node i).process.cluster := by
    apply cluster_settle_of_few
    rintro rfl
    rw [TurnNode.JoinsLeader, hhealth] at ok
    exact ok
  rw [checkEnd_of_ok hrun]
  apply h.setNode
  refine ⟨?_, ?_, hjoining⟩
  · rw [hcluster]
    exact htable
  · rw [hcluster]
    exact hpending

end Steps

/-! ## Runs -/

section Runs

variable {format : FloatFormat} {identity : String → Fin n → String}
  {address : Fin n → HostAndPort} {l : Fin n}

theorem leaderInv_initial (addresses : Addresses address) :
    LeaderInv (.ofFormat format) identity address l [] (initial address) where
  once := List.nodup_singleton l
  node i :=
    { table :=
        { leader := fun he => by
            rw [← he]
            exact view_addNode_new (addresses.host i)
          joiner := fun _ => ⟨_, .alone, view_addNode_new (addresses.host i)⟩ }
      pending := fun _ hm => absurd hm List.not_mem_nil
      joining := fun _ h => by cases h }
  request r hr := absurd hr List.not_mem_nil
  reply r hr := absurd hr List.not_mem_nil
  thrown := rfl

/-- Every step keeps the invariant; a registration lets the log grow. -/
theorem leaderInv_step (addresses : Addresses address) (few : n ≤ MAX_NUM_NODES)
    {L : Fin n → Fin n → Prop} {order : List (Fin n)} {s s' : TurnNetwork n}
    (hinv : Inv (.ofFormat format) address L s.atRest)
    (h : LeaderInv (.ofFormat format) identity address l order s) {turn : TurnStep n}
    (ok : s.Allows (TurnNode.JoinsLeader l) turn)
    (next : step (.ofFormat format) identity address s turn = some s') :
    ∃ order', LeaderInv (.ofFormat format) identity address l order' s' := by
  cases moves_of_step next with
  | joinCall i l' free =>
    obtain ⟨other, rfl⟩ := ok
    exact ⟨order, inv_join addresses few hinv h other⟩
  | serve j request sent own =>
    -- Only the registration of a node that the leader has not seen yet makes the order longer.
    obtain ⟨other, hendpoint, hframes⟩ | ⟨callee, hframes⟩ := h.request request sent
    · obtain rfl : l = j :=
        addresses.distinct (HostAndPort.endpoint_injective (hendpoint.symm.trans own))
      exact inv_registration addresses few h other hendpoint hframes
    · exact ⟨order, inv_health h hframes⟩
  | joinEnd i receipt rpcCall joining possible =>
    exact ⟨order, inv_takeover addresses few h joining possible⟩
  | pass i asleep => exact ⟨order, inv_checks h fun _ hm _ => hm⟩
  | check i rest checking => exact ⟨order, inv_call hinv h checking⟩
  | checkEnd i outcome callee rest awaiting possible =>
    exact ⟨order, inv_end addresses hinv h awaiting possible ok⟩

theorem exists_leaderInv_of_run (addresses : Addresses address) (few : n ≤ MAX_NUM_NODES)
    {turns : List (TurnStep n)} {s : TurnNetwork n}
    (run : Run (step (.ofFormat format) identity address) (Allows (TurnNode.JoinsLeader l))
      (initial address) turns s) :
    ∃ order, LeaderInv (.ofFormat format) identity address l order s := by
  induction run with
  | nil => exact ⟨[], leaderInv_initial addresses⟩
  | snoc run ok next ih =>
    obtain ⟨order, h⟩ := ih
    have hinv := inv_of_turns addresses (fun _ _ => TurnNode.JoinsLeader.joinsOther) run
    exact leaderInv_step addresses few hinv h ok next

/-- A node has a part of the leader's log, or has not yet received any. -/
theorem table_cases {order : List (Fin n)} {s : TurnNetwork n}
    (h : LeaderInv (.ofFormat format) identity address l order s) (i : Fin n) :
    (∃ front, front <+: order ∧
        (s.node i).process.cluster.view = Slots.ofList (members address l front) ∧
        (Apart identity address l → i ∈ l :: front)) ∨
      i ≠ l ∧ ∃ asked, asked <+: [address l] ∧
        (s.node i).process.cluster.view = Slots.ofList (address i :: asked) := by
  by_cases hi : i = l
  · refine .inl ⟨order, List.prefix_refl order, (h.node i).table.leader hi, fun _ => ?_⟩
    rw [hi]
    exact List.mem_cons_self
  · obtain ⟨ms, hms, hview⟩ := (h.node i).table.joiner hi
    cases hms with
    | alone => exact .inr ⟨hi, [], List.nil_prefix, hview⟩
    | asking => exact .inr ⟨hi, [address l], List.prefix_refl _, hview⟩
    | @member front part ne_nil own =>
      exact .inl ⟨front, part, hview, fun apart => List.mem_cons_of_mem _ (own apart)⟩

end Runs

/-! ## What follows for the tables -/

section Tables

variable {format : FloatFormat} {identity : String → Fin n → String}
  {address : Fin n → HostAndPort} {l : Fin n} {order : List (Fin n)} {t : TurnNetwork n}

theorem noDuplicate_of_leaderInv (addresses : Addresses address)
    (h : LeaderInv (.ofFormat format) identity address l order t) (i : Fin n) :
    (t.node i).process.cluster.NoDuplicate := by
  unfold NoDuplicate
  obtain ⟨front, hpre, hview, _⟩ | ⟨hi, asked, hasked, hview⟩ := table_cases h i
  · rw [hview]
    exact Slots.unique_ofList (nodup_members addresses (once_of_front h.once hpre))
  · rw [hview]
    have habsent : address i ∉ asked := fun hmem =>
      hi (addresses.distinct (List.mem_singleton.mp (hasked.subset hmem)))
    have hnodup := (List.nodup_singleton (address l)).sublist hasked.sublist
    exact Slots.unique_ofList (List.nodup_cons.mpr ⟨habsent, hnodup⟩)

/-- A node that has the leader in its first slot has every node where the leader has it. -/
theorem slot_of_leaderInv (addresses : Addresses address)
    (h : LeaderInv (.ofFormat format) identity address l order t) {i : Fin n}
    (member : (t.node i).process.cluster.view 0 = some (address l)) {slot : Fin MAX_NUM_NODES}
    {m : HostAndPort} (hm : (t.node i).process.cluster.view slot = some m) :
    (t.node l).process.cluster.view slot = some m := by
  obtain ⟨front, hpre, hview, _⟩ | ⟨hi, asked, hasked, hview⟩ := table_cases h i
  · rw [hview] at hm
    rw [(h.node l).table.leader rfl]
    exact Slots.ofList_apply_of_prefix (members_mono hpre) hm
  · -- The first slot tells the two forms of a table apart.
    rw [hview] at member
    exact absurd (addresses.distinct (Option.some.inj member)) hi

theorem length_asking (i : Fin n) {asked : List HostAndPort} (h : asked <+: [address l]) :
    (address i :: asked).length ≤ MAX_NUM_NODES := by
  have hlen := h.length_le
  simp only [List.length_cons, List.length_nil, MAX_NUM_NODES] at hlen ⊢
  omega

/-- Any other lists itself and at most the leader. -/
theorem mem_of_leaderInv (h : LeaderInv (.ofFormat format) identity address l order t) {i : Fin n}
    (other : (t.node i).process.cluster.view 0 ≠ some (address l)) {m : HostAndPort}
    (hm : m ∈ (t.node i).process.cluster.getNodesInCluster) : m = address i ∨ m = address l := by
  obtain ⟨front, hpre, hview, _⟩ | ⟨hi, asked, hasked, hview⟩ := table_cases h i
  · exact absurd (congrFun hview 0) other
  · rw [mem_of_view (length_asking i hasked) hview] at hm
    exact (List.mem_cons.mp hm).imp_right fun hmem => List.mem_singleton.mp (hasked.subset hmem)

theorem own_of_leaderInv (few : n ≤ MAX_NUM_NODES)
    (h : LeaderInv (.ofFormat format) identity address l order t)
    (apart : Apart identity address l) (i : Fin n) :
    address i ∈ (t.node i).process.cluster.getNodesInCluster := by
  obtain ⟨front, hpre, hview, own⟩ | ⟨hi, asked, hasked, hview⟩ := table_cases h i
  · rw [mem_of_view (length_members few (once_of_front h.once hpre)) hview]
    exact List.mem_map_of_mem (own apart)
  · rw [mem_of_view (length_asking i hasked) hview]
    exact List.mem_cons_self

end Tables

end TurnNetwork

namespace Network

open Lib Cluster Json TurnNetwork

variable {n : Nat}

/-- As long as the threads of each node take turns, all nodes join one leader, and no check
    evicts anyone, whatever is lost, delayed or delivered again, and however often they join:
    no table of a node at rest lists a node twice; one that has the leader in its first slot
    has every node it lists in the slot that the leader, at rest, has it in; any other lists
    its own node and at most the leader; nodes that the leader can tell apart are in their own
    tables; and nothing is ever thrown. -/
theorem members_agree (format : FloatFormat) (identity : String → Fin n → String)
    (address : Fin n → HostAndPort) (addresses : Addresses address) (few : n ≤ MAX_NUM_NODES)
    (l : Fin n) (labels : List (NetworkStep n)) (s : Network n)
    (run : Run (step (.ofFormat format) identity address) (TakesTurns (TurnNode.JoinsLeader l))
      (initial address) labels s) :
    (∀ i, s.Rests i → (s.node i).process.cluster.NoDuplicate) ∧
    (∀ i, s.Rests i → s.Rests l → (s.node i).process.cluster.view 0 = some (address l) →
      ∀ slot m, (s.node i).process.cluster.view slot = some m →
        (s.node l).process.cluster.view slot = some m) ∧
    (∀ i, s.Rests i → (s.node i).process.cluster.view 0 ≠ some (address l) →
      ∀ m ∈ (s.node i).process.cluster.getNodesInCluster, m = address i ∨ m = address l) ∧
    (Function.Injective (identity (address l).endpoint) →
      ∀ i, s.Rests i → address i ∈ (s.node i).process.cluster.getNodesInCluster) ∧
    s.thrown = [] := by
  obtain ⟨turns, t, run', sim⟩ := sim_of_run (t := TurnNetwork.initial address) run
  obtain ⟨order, h⟩ := exists_leaderInv_of_run addresses few run'
  have hprocess : ∀ i, s.Rests i → (s.node i).process = (t.node i).process := by
    intro i ⟨node, hnode⟩
    rw [hnode, sim.eq_of_atRest hnode]
    rfl
  refine ⟨fun i rests => ?_, fun i rests rests' => ?_, fun i rests => ?_, fun apart i rests => ?_,
    sim.thrown.trans h.thrown⟩
  · rw [hprocess i rests]
    exact noDuplicate_of_leaderInv addresses h i
  · rw [hprocess i rests, hprocess l rests']
    exact fun member slot m hm => slot_of_leaderInv addresses h member hm
  · rw [hprocess i rests]
    exact fun other m hm => mem_of_leaderInv h other hm
  · rw [hprocess i rests]
    exact own_of_leaderInv few h apart i

/-- Identities of the clients of two nodes. -/
def twoClients (_ : String) : Fin 2 → String
  | 0 => "x"
  | 1 => "y"

/-- The first of `twoNodes` joins the second. -/
def oneJoin (a b : Fin 2) : List (TurnStep 2) :=
  [.joinCall a b,
    .serve b ⟨"tcp://b:2", a, ["GetNodesInCluster",
      "\x7b\"host\":\"a\",\"port\":1,\"register_node\":true\x7d"]⟩,
    .joinEnd a (.received ["\x7b\"nodes\":\x7b\"0\":\"b:2\",\"1\":\"a:1\"\x7d\x7d"])]

theorem exists_run_oneJoin :
    ∃ t, Run (TurnNetwork.step (.ofFormat noFloats) twoClients twoNodes)
        (TurnNetwork.Allows (TurnNode.JoinsLeader 1)) (TurnNetwork.initial twoNodes)
        (oneJoin 0 1) t ∧
      (t.node 0).process.cluster.view 0 = some ⟨"b", 2⟩ := by
  have hview : ((oneJoin 0 1).foldlM (fun t turn =>
      if TurnNetwork.Allows (TurnNode.JoinsLeader 1) t turn then
        TurnNetwork.step (.ofFormat noFloats) twoClients twoNodes t turn else none)
      (TurnNetwork.initial twoNodes)).map
        (fun t : TurnNetwork 2 => (t.node 0).process.cluster.view 0) = some (some ⟨"b", 2⟩) := by
    decide +kernel
  obtain ⟨t, ht, hview⟩ := Option.map_eq_some_iff.mp hview
  exact ⟨t, Run.of_foldlM ht, hview⟩

/-- A node has joined the other, and both are at rest. -/
theorem members_agree_oneJoin :
    ∃ labels s, Run (step (.ofFormat noFloats) twoClients twoNodes)
        (TakesTurns (TurnNode.JoinsLeader 1)) (initial twoNodes) labels s ∧
      (∀ i, s.Rests i) ∧ (s.node 0).process.cluster.view 0 = some ⟨"b", 2⟩ ∧
      (∀ i, s.Rests i → (s.node i).process.cluster.NoDuplicate) ∧
      (∀ i, s.Rests i → s.Rests 1 → (s.node i).process.cluster.view 0 = some ⟨"b", 2⟩ →
        ∀ slot m, (s.node i).process.cluster.view slot = some m →
          (s.node 1).process.cluster.view slot = some m) ∧
      (∀ i, s.Rests i → (s.node i).process.cluster.view 0 ≠ some ⟨"b", 2⟩ →
        ∀ m ∈ (s.node i).process.cluster.getNodesInCluster, m = twoNodes i ∨ m = ⟨"b", 2⟩) ∧
      (∀ i, s.Rests i → twoNodes i ∈ (s.node i).process.cluster.getNodesInCluster) ∧
      s.thrown = [] := by
  obtain ⟨t, run, hview⟩ := exists_run_oneJoin
  obtain ⟨labels, run'⟩ := exists_run_turns run
  have hapart : Function.Injective (twoClients (twoNodes 1).endpoint) := by
    intro i j
    revert i j
    decide
  obtain ⟨hnodup, hmember, hjoiner, hown, hthrown⟩ := members_agree noFloats twoClients twoNodes
    addresses_twoNodes (by decide) 1 labels t.atRest run'
  exact ⟨labels, t.atRest, run', fun i => ⟨_, rfl⟩, hview, hnodup, hmember, hjoiner, hown hapart,
    hthrown⟩

end Network

end Imq
