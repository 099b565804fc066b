import Imq.Verified.Unlocked

/-! # The threads of a node among each other

Whatever the other threads do between two accesses of a thread, as long as they keep to
their contracts:

* `callerContract` — the main thread and the workers write nodes that are known;
* `checkerContract` — the health thread frees slots, and no other thread does;
* `safe_bootstrapCall`, `safe_bootstrapEnd` — what the main thread does;
* `safe_getNodesInCluster` — what the workers do;
* `safe_getNodesInCluster_snapshot`, `safe_checkCall`, `safe_awaitOutcome` — what the health
  thread does.
-/

namespace Imq

open Lib Cluster IMQNode RPCServerWorkerPool

variable {α β : Type}

/-! ## Contracts -/

/-- What a thread writes into the table. -/
def Access.Writes (P : HostAndPort → Prop) : Access → Prop
  | .writeNode _ node => P node
  | _ => True

/-- What holds of the process of a node that knows some others. -/
structure ProcessInv (known : HostAndPort → Prop) (me : HostAndPort) (p : Process) : Prop where
  metaStore : p.metaStore = me
  cluster : p.cluster.Forall fun m => m = {} ∨ known m
  store : p.rpcStore.ServersOnlyAt me

/-- No slot that is occupied becomes free. -/
def StaysOccupied (p p' : Process) : Prop :=
  ∀ i, (p.cluster.node i).host ≠ "" → (p'.cluster.node i).host ≠ ""

def callerContract (known : HostAndPort → Prop) (me : HostAndPort) : Contract Process Access where
  inv := ProcessInv known me
  rely _ _ := True
  ok _ access := access.Writes known
  refl _ := trivial
  trans _ _ := trivial

def checkerContract (known : HostAndPort → Prop) (me : HostAndPort) : Contract Process Access where
  inv := ProcessInv known me
  rely := StaysOccupied
  ok _ access := access.Writes (· = {})
  refl _ _ := id
  trans first second i h := second i (first i h)

section

variable {known : HostAndPort → Prop} {me : HostAndPort} {p : Process} {access : Access}

theorem Access.Writes.mono {P Q : HostAndPort → Prop} (hPQ : ∀ m, P m → Q m)
    (h : access.Writes P) : access.Writes Q := by
  cases access with
  | writeNode i node => exact hPQ node h
  | _ => trivial

theorem processInv_perform (h : ProcessInv known me p)
    (ok : access.Writes fun m => m = {} ∨ known m) : ProcessInv known me (access.perform p).2 := by
  cases access with
  | writeNode i node => exact ⟨h.metaStore, h.cluster.setNode i ok, h.store⟩
  | addRPCClient address =>
    refine ⟨h.metaStore, h.cluster, fun other object hobject hne => ?_⟩
    have hupdate : Function.update p.rpcStore.rpcObjects address
        (some ((p.rpcStore.rpcObjects address).getD ⟨.client, address, p.rpcStore.constructed⟩))
        other = some object := hobject
    by_cases ho : other = address
    · subst ho
      rw [Function.update_self, Option.some.injEq] at hupdate
      -- An object that was there before is kept.
      cases hs : p.rpcStore.rpcObjects other with
      | none =>
        rw [← hupdate, hs]
        rfl
      | some old =>
        rw [← hupdate, hs]
        exact h.store other old hs hne
    · rw [Function.update_of_ne ho] at hupdate
      exact h.store other object hupdate hne
  | _ => exact ⟨h.metaStore, h.cluster, h.store⟩

theorem staysOccupied_perform (named : ∀ m, known m → m.host ≠ "") (ok : access.Writes known) :
    StaysOccupied p (access.perform p).2 := by
  cases access with
  | writeNode i node =>
    intro j hj
    show ((p.cluster.setNode i node).node j).host ≠ ""
    rw [node_setNode, Function.update_apply]
    split
    · exact named node ok
    · exact hj
  | _ => exact fun _ => id

end

/-- The code is safe in a process. -/
abbrev Code.Safe (c : Contract Process Access) (Q : Except Exn α → Process → Prop) (code : Code α)
    (p : Process) : Prop :=
  Thread.Safe Access.perform c Q code p

/-- The code does not throw. -/
def Returns (r : Except Exn α) (_ : Process) : Prop := ∃ a, r = .ok a

/-- The code returns a value with `Q`. -/
def Gives (Q : α → Prop) (r : Except Exn α) (_ : Process) : Prop := ∃ a, Q a ∧ r = .ok a

namespace Code

variable {c : Contract Process Access} {p : Process}

theorem safe_pure {Q : Except Exn α → Process → Prop} {a : α} (h : ∀ p, Q (.ok a) p) :
    Code.Safe c Q (pure a) p :=
  fun p' _ _ => h p'

theorem safe_make {access : Access} (ok : ∀ p, c.ok p access) :
    Code.Safe c Returns (.make access) p :=
  fun p' _ _ => ⟨ok p', fun _ _ _ => ⟨_, rfl⟩⟩

/-- The rule of sequence for code that does not throw. -/
theorem safe_bind {Q : Except Exn β → Process → Prop} {x : Code α} {f : α → Code β}
    (hx : Code.Safe c Returns x p) (hf : ∀ a p, Code.Safe c Q (f a) p) :
    Code.Safe c Q (x >>= f) p :=
  hx.bind (fun a p' _ _ => hf a p') fun e p' h => by
    obtain ⟨a, ha⟩ := h
    cases ha

theorem safe_bind_gives {P : α → Prop} {Q : Except Exn β → Process → Prop} {x : Code α}
    {f : α → Code β} (hx : Code.Safe c (Gives P) x p) (hf : ∀ a p, P a → Code.Safe c Q (f a) p) :
    Code.Safe c Q (x >>= f) p :=
  hx.bind
    (fun a p' _ h => by
      obtain ⟨b, hb, he⟩ := h
      cases he
      exact hf a p' hb)
    fun e p' h => by
      obtain ⟨a, _, ha⟩ := h
      cases ha

end Code

/-! ## The table -/

namespace Cluster.Unlocked

section

variable {c : Contract Process Access} {P : HostAndPort → Prop} {p : Process}
  (ok : ∀ p access, Access.Writes P access → c.ok p access)

include ok

theorem safe_readNode (i : Fin MAX_NUM_NODES) : Code.Safe c Returns (readNode i) p :=
  Code.safe_make fun p => ok p _ trivial

theorem safe_writeNode (i : Fin MAX_NUM_NODES) {node : HostAndPort} (hnode : P node) :
    Code.Safe c Returns (writeNode i node) p :=
  Code.safe_make fun p => ok p _ hnode

theorem safe_firstSlot (test : HostAndPort → Bool) (slots : List (Fin MAX_NUM_NODES)) :
    Code.Safe c Returns (firstSlot test slots) p := by
  induction slots generalizing p with
  | nil => exact Code.safe_pure fun _ => ⟨none, rfl⟩
  | cons i rest ih =>
    apply Code.safe_bind (safe_readNode ok i)
    intro found p
    split
    · exact Code.safe_pure fun _ => ⟨some i, rfl⟩
    · exact ih

theorem safe_nodeInCluster (finding : HostAndPort) :
    Code.Safe c Returns (nodeInCluster finding) p :=
  Code.safe_bind (safe_firstSlot ok _ _) fun _ _ => Code.safe_pure fun _ => ⟨_, rfl⟩

theorem safe_addNode {node : HostAndPort} (hnode : P node) :
    Code.Safe c Returns (addNode node) p := by
  apply Code.safe_bind (safe_firstSlot ok _ _)
  intro slot p
  cases slot with
  | some i => exact safe_writeNode ok i hnode
  | none => exact Code.safe_pure fun _ => ⟨(), rfl⟩

theorem safe_removeNode (unused : P {}) (toRemove : HostAndPort) :
    Code.Safe c Returns (removeNode toRemove) p := by
  apply Code.safe_bind (safe_firstSlot ok _ _)
  intro slot p
  cases slot with
  | some i => exact safe_writeNode ok i unused
  | none => exact Code.safe_pure fun _ => ⟨(), rfl⟩

/-! ## Joins -/

theorem safe_addAddresses {idx : UInt32} {addresses : List Json}
    (h : ∀ address ∈ addresses, ∃ w, P w.2 ∧ readAddress idx address = .ok w) :
    Code.Safe c Returns (addAddresses idx addresses) p := by
  induction addresses generalizing p with
  | nil => exact Code.safe_pure fun _ => ⟨(), rfl⟩
  | cons address rest ih =>
    -- The text is that of an address and the key an index, or it would not have been read.
    obtain ⟨w, hw, hread⟩ := h address List.mem_cons_self
    unfold readAddress at hread
    cases hstr : address.getString with
    | error e =>
      rw [hstr] at hread
      cases hread
    | ok nodeStr =>
      rw [hstr, Cpp.ok_bind] at hread
      cases hnode : HostAndPort.fromString nodeStr with
      | error e =>
        rw [hnode] at hread
        cases hread
      | ok node =>
        rw [hnode, Cpp.ok_bind] at hread
        split at hread
        next hidx =>
          cases hread
          rw [addAddresses, hstr]
          show Code.Safe c Returns (Thread.ofExcept (HostAndPort.fromString nodeStr) >>= _) p
          rw [hnode]
          show Code.Safe c Returns (addNodeAt idx node >>= _) p
          rw [addNodeAt, dif_pos hidx]
          exact Code.safe_bind (safe_writeNode ok _ hw) fun _ _ =>
            ih fun a ha => h a (List.mem_cons_of_mem _ ha)
        next => cases hread

theorem safe_addMembers {members : List (Except Exn String × Json)}
    (h : ∀ r ∈ members.flatMap readMember, ∃ w, P w.2 ∧ r = .ok w) :
    Code.Safe c Returns (addMembers members) p := by
  induction members generalizing p with
  | nil => exact Code.safe_pure fun _ => ⟨(), rfl⟩
  | cons member rest ih =>
    obtain ⟨key, value⟩ := member
    rw [List.flatMap_cons] at h
    unfold readMember at h
    cases hkey : key.bind Cpp.stoi with
    | error e =>
      obtain ⟨w, _, hw⟩ := h (.error e) (List.mem_append_left _ (by rw [hkey]; simp))
      cases hw
    | ok idx =>
      rw [addMembers, hkey]
      apply Code.safe_bind (safe_addAddresses ok fun address haddress => ?_)
      · exact fun _ _ => ih fun r hr => h r (List.mem_append_right _ hr)
      · apply h _ (List.mem_append_left _ _)
        rw [hkey]
        exact List.mem_map_of_mem haddress

theorem safe_bootstrapEnd {text : JsonText} {rpcCall : RPCCall Process} {receipt : Receipt}
    {response nodes : Json} (hget : RPCResponse.get text rpcCall receipt = .ok response)
    (hnodes : response.elementAt "nodes" = .ok nodes)
    (h : ∀ r ∈ nodes.items.flatMap readMember, ∃ w, P w.2 ∧ r = .ok w) :
    Code.Safe c Returns (bootstrapEnd text rpcCall receipt) p := by
  rw [bootstrapEnd, hget]
  show Code.Safe c Returns (Thread.ofExcept (response.elementAt "nodes") >>= _) p
  rw [hnodes]
  exact safe_addMembers ok h

end

section

variable {c : Contract Process Access} {me : HostAndPort} {p : Process}
  (ok : ∀ p access, Access.Writes (fun _ => False) access → c.ok p access)
  (servers : ∀ p, c.inv p → p.rpcStore.ServersOnlyAt me)

include ok servers

/-- What the store hands out for another node is a client for it. -/
theorem safe_getRPCClient {address : HostAndPort} (hne : address ≠ me) :
    Code.Safe c (Gives fun object => object = ⟨.client, address, object.id⟩)
      (getRPCClient address) p := by
  intro p' _ hinv
  refine ⟨ok p' _ trivial, ?_⟩
  have hkeyed := p'.rpcStore.keyed address
  have hclient := servers p' hinv address
  simp only [Access.perform]
  cases hfound : p'.rpcStore.rpcObjects address with
  | some object =>
    refine Code.safe_pure fun _ => ⟨object, ?_, rfl⟩
    rw [← hkeyed object hfound, ← hclient object hfound hne]
  | none => exact fun p _ _ => ⟨ok p _ trivial, fun _ _ _ => ⟨_, rfl, rfl⟩⟩

/-- A call of another node is made, or the node is not listed. -/
theorem safe_getNodeClient_call {node : HostAndPort} (hne : node ≠ me) (rpcCall : RPCCall Process) :
    Code.Safe c
      (fun r _ => r = .ok { rpcCall with calleeInfo := node } ∨
        r = .error (.logicError "Node not found."))
      (getNodeClient node >>= fun client => .ofExcept (RPCClient.call client rpcCall)) p := by
  rw [getNodeClient, bind_assoc]
  apply Code.safe_bind (safe_nodeInCluster (P := fun _ => False) ok node)
  intro listed p
  cases listed with
  | false => exact fun _ _ _ => .inr rfl
  | true =>
    apply Code.safe_bind_gives (safe_getRPCClient ok servers hne)
    intro object p hobject
    rw [hobject]
    exact fun _ _ _ => .inl rfl

end

theorem safe_bootstrapCall {P : HostAndPort → Prop} {c : Contract Process Access} {me : HostAndPort}
    {p : Process} (ok : ∀ p access, Access.Writes P access → c.ok p access)
    (servers : ∀ p, c.inv p → p.rpcStore.ServersOnlyAt me) {leader : HostAndPort}
    (hleader : P leader) (hne : leader ≠ me) (requester : HostAndPort) :
    Code.Safe c
      (fun r _ => r = .ok (getNodesCall requester leader) ∨
        r = .error (.logicError "Node not found."))
      (bootstrapCall requester leader) p := by
  have hcall : ∀ p, Code.Safe c _ (getNodeClient leader >>= fun client => .ofExcept
      (RPCClient.call client { rpc := "GetNodesInCluster", args := registerArgs requester })) p :=
    fun p => safe_getNodeClient_call (fun p _ hwrites => ok p _ (hwrites.mono fun _ => False.elim))
      servers hne _
  apply Code.safe_bind (safe_nodeInCluster ok leader)
  intro listed p
  cases listed with
  | false => exact Code.safe_bind (safe_addNode ok hleader) fun _ p => hcall p
  | true => exact hcall p

/-! ## Listings -/

/-- What the health thread lists: a slot that has passed the test is not freed before it
    is copied. -/
theorem safe_listNodes (known : HostAndPort → Prop) (me : HostAndPort)
    (slots : List (Fin MAX_NUM_NODES)) (p : Process) :
    Code.Safe (checkerContract known me) (Gives fun nodes => ∀ m ∈ nodes, known m)
      (listNodes slots) p := by
  induction slots generalizing p with
  | nil => exact Code.safe_pure fun _ => ⟨[], fun _ hm => absurd hm List.not_mem_nil, rfl⟩
  | cons i rest ih =>
    intro p' _ _
    refine ⟨trivial, ?_⟩
    show Code.Safe _ _ (if (p'.cluster.node i).host ≠ "" then _ else listNodes rest) p'
    split
    next occupied =>
      intro p'' moved hinv
      refine ⟨trivial, ?_⟩
      show Code.Safe _ _ (listNodes rest >>= _) p''
      refine Code.safe_bind_gives (ih p'') fun nodes _ hnodes => Code.safe_pure fun _ =>
        ⟨_, List.forall_mem_cons.mpr ⟨?_, hnodes⟩, rfl⟩
      obtain hfree | hknown := hinv.cluster i
      · exact absurd (congrArg HostAndPort.host hfree) (moved i occupied)
      · exact hknown
    next => exact ih p'

/-- What a worker lists is the content of some table, though perhaps of none that there
    has been. -/
theorem safe_listNodesWithIdx {P Q : HostAndPort → Prop} {c : Contract Process Access}
    (ok : ∀ p access, Access.Writes P access → c.ok p access) (unused : Q {})
    (holds : ∀ p, c.inv p → p.cluster.Forall Q) {slots : List (Fin MAX_NUM_NODES)}
    (once : slots.Nodup) (p : Process) :
    Code.Safe c
      (Gives fun nodes => ∃ t : Cluster, t.Forall Q ∧ nodes = slots.filterMap fun i =>
        if (t.node i).host ≠ "" then some (i, t.node i) else none)
      (listNodesWithIdx slots) p := by
  induction slots generalizing p with
  | nil => exact Code.safe_pure fun _ => ⟨[], ⟨.new, forall_new unused, rfl⟩, rfl⟩
  | cons i rest ih =>
    obtain ⟨hnew, hrest⟩ := List.nodup_cons.mp once
    intro p' _ hinv
    refine ⟨ok p' _ trivial, ?_⟩
    show Code.Safe _ _ (listNodesWithIdx rest >>= _) p'
    refine Code.safe_bind_gives (ih hrest p') fun nodes _ hnodes => Code.safe_pure fun _ =>
      ⟨_, ?_, rfl⟩
    obtain ⟨t, ht, rfl⟩ := hnodes
    refine ⟨t.setNode i (p'.cluster.node i), ht.setNode i (holds p' hinv i), ?_⟩
    -- The slots that come later are other ones.
    have hsame : ∀ j ∈ rest, (t.setNode i (p'.cluster.node i)).node j = t.node j := by
      intro j hj
      apply node_setNode_of_ne
      rintro rfl
      exact hnew hj
    have hfilter : (rest.filterMap fun j => if ((t.setNode i (p'.cluster.node i)).node j).host ≠ ""
        then some (j, (t.setNode i (p'.cluster.node i)).node j) else none) =
        rest.filterMap fun j => if (t.node j).host ≠ "" then some (j, t.node j) else none :=
      List.filterMap_congr fun j hj => by rw [hsame j hj]
    rw [List.filterMap_cons, hfilter, node_setNode_self]
    show (if (p'.cluster.node i).host ≠ "" then _ else _) = _
    split <;> rfl

end Cluster.Unlocked

/-! ## Requests -/

namespace IMQNode.Unlocked

open Cluster.Unlocked

section

variable {P Q : HostAndPort → Prop} {c : Contract Process Access} {p : Process}
  (ok : ∀ p access, Access.Writes P access → c.ok p access) (unused : Q {})
  (holds : ∀ p, c.inv p → p.cluster.Forall Q)

include ok

theorem safe_register {requester : HostAndPort} (hrequester : P requester) :
    Code.Safe c Returns (register requester) p := by
  apply Code.safe_bind (safe_nodeInCluster ok requester)
  intro listed p
  cases listed with
  | false => exact safe_addNode ok hrequester
  | true => exact Code.safe_pure fun _ => ⟨(), rfl⟩

include unused holds

theorem safe_reply :
    Code.Safe c (Gives fun result => ∃ t : Cluster, t.Forall Q ∧ result = t.replyOf) reply p := by
  apply Code.safe_bind_gives (safe_listNodesWithIdx ok unused holds (List.nodup_finRange _) p)
  rintro nodes p ⟨t, ht, rfl⟩
  show Code.Safe c _ (do
    let ret ← .ofExcept (Json.null.set "nodes" .null)
    let nodesPart ← .ofExcept (encodeNodes t.getNodesWithIdxInCluster)
    .ofExcept (ret.set "nodes" nodesPart)) p
  rw [reply_of_nodes]
  exact fun _ _ _ => ⟨_, ⟨t, ht, rfl⟩, rfl⟩

theorem safe_getNodesInCluster {requester : HostAndPort} (hrequester : P requester) :
    Code.Safe c (Gives fun result => ∃ t : Cluster, t.Forall Q ∧ result = t.replyOf)
      (getNodesInCluster (registerArgs requester)) p := by
  have hregistration := registration_registerArgs requester
  obtain ⟨reads, _⟩ | ⟨n, hreg, hcode⟩ | ⟨e, _, hthrows⟩ :=
    getNodesInCluster_forms (registerArgs requester)
  · cases reads
  · obtain rfl := Option.some.inj (hregistration.symm.trans hreg)
    rw [hcode]
    exact Code.safe_bind (safe_register ok hrequester) fun _ _ => safe_reply ok unused holds
  · have hrun := run_getNodesInCluster_register requester .new
    rw [hthrows] at hrun
    cases hrun

end

/-- A registered function runs on what it has parsed. -/
theorem workBody_of_registered {text : JsonText} {clientAddr rpc argsStr : String} {rest : Message}
    (h : Accepted (clientAddr :: rpc :: argsStr :: rest)) {f : RPCFunc Process} {args : Json}
    (hf : workerPool.rpcs.lookup rpc = some f) (hargs : text.parse argsStr = .ok args)
    {code : Json → Code Json} (hcode : rpcs.lookup rpc = some code) :
    workBody text (clientAddr :: rpc :: argsStr :: rest) = (do
      let result ← code args
      return some (constructMessage text clientAddr result)) := by
  rw [workBody_of_parts rfl (messageToParts_of_registered h hf hargs), performRPC, hcode]

end IMQNode.Unlocked

/-! ## Health checks -/

namespace Health.Unlocked

open Cluster.Unlocked

theorem safe_checkCall {c : Contract Process Access} {me : HostAndPort} {p : Process}
    (ok : ∀ p access, Access.Writes (fun _ => False) access → c.ok p access)
    (servers : ∀ p, c.inv p → p.rpcStore.ServersOnlyAt me) {node : HostAndPort} (hne : node ≠ me) :
    Code.Safe c
      (fun r _ => r = .ok (callTo node) ∨ r = .error (.logicError "Node not found."))
      (checkCall node) p :=
  safe_getNodeClient_call ok servers hne healthCall

section

variable {P : HostAndPort → Prop} {c : Contract Process Access} {p : Process}
  (ok : ∀ p access, Access.Writes P access → c.ok p access)

include ok

theorem safe_isPotentiallyFailing (node : HostAndPort) :
    Code.Safe c Returns (isPotentiallyFailing node) p :=
  Code.safe_make fun p => ok p _ trivial

theorem safe_getNumberOfRetriesForNode (node : HostAndPort) :
    Code.Safe c Returns (getNumberOfRetriesForNode node) p := by
  apply Code.safe_bind (safe_isPotentiallyFailing ok node)
  intro failing p
  cases failing with
  | false => exact Code.safe_pure fun _ => ⟨0, rfl⟩
  | true =>
    exact Code.safe_bind (Code.safe_make fun p => ok p _ trivial) fun retries _ =>
      Code.safe_pure fun _ => ⟨_, rfl⟩

theorem safe_healthyNodeCallback {response : Json} {callee : HostAndPort}
    (hcallee : calleeOf response = .ok callee) :
    Code.Safe c Returns (healthyNodeCallback response) p := by
  rw [healthyNodeCallback, hcallee]
  apply Code.safe_bind (safe_isPotentiallyFailing ok callee)
  intro failing p
  cases failing with
  | false => exact Code.safe_pure fun _ => ⟨(), rfl⟩
  | true => exact Code.safe_make fun p => ok p _ trivial

theorem safe_timedoutNodeCallback (unused : P {}) {response : Json} {callee : HostAndPort}
    (hcallee : calleeOf response = .ok callee) :
    Code.Safe c Returns (timedoutNodeCallback response) p := by
  rw [timedoutNodeCallback, hcallee]
  apply Code.safe_bind (safe_isPotentiallyFailing ok callee)
  intro failing p
  cases failing with
  | false => exact Code.safe_make fun p => ok p _ trivial
  | true =>
    apply Code.safe_bind (safe_getNumberOfRetriesForNode ok callee)
    intro retries p
    show Code.Safe c Returns (if _ then _ else _) p
    split
    · exact Code.safe_bind (safe_removeNode ok unused callee) fun _ p =>
        Code.safe_make fun p => ok p _ trivial
    · exact Code.safe_make fun p => ok p _ trivial

theorem safe_awaitOutcome (unused : P {}) {text : JsonText} {outcome : CallOutcome}
    (readable : outcome.Readable text) (callee : HostAndPort) :
    Code.Safe c Returns (awaitOutcome text callee outcome) p := by
  cases outcome with
  | answered message =>
    obtain ⟨response, hparsed⟩ := readable (callTo callee)
    rw [awaitOutcome, hparsed]
    exact safe_healthyNodeCallback ok (RPCResponse.calleeOf_parsedResponse hparsed)
  | timedOut =>
    have hfresh : [("error", Json.string "TimeoutException")].lookup "callee_info" = none := by
      simp
    have hmeta := RPCResponse.addResponseMetadata_object (callTo callee) hfresh
    rw [awaitOutcome, TimeoutException.asJson, RPCException.asJson, hmeta]
    exact safe_timedoutNodeCallback ok unused (RPCResponse.calleeOf_addResponseMetadata hmeta)
  | neither => exact Code.safe_pure fun _ => ⟨(), rfl⟩

end

end Health.Unlocked

/-! ## What the functions access -/

/-- An access of the table or of the store of clients, which may write if `writes` says so. -/
def Access.OnTable (writes : Prop) : Access → Prop
  | .readNode _ | .getRPCObject _ | .addRPCClient _ => True
  | .writeNode _ _ => writes
  | _ => False

namespace Cluster.Unlocked

section

variable {writes : Prop}

theorem only_firstSlot (test : HostAndPort → Bool) (slots : List (Fin MAX_NUM_NODES)) :
    (firstSlot test slots).Only (Access.OnTable writes) := by
  induction slots with
  | nil => exact .ended _
  | cons i rest ih =>
    refine .bind (.make trivial) fun found => ?_
    split
    · exact .ended _
    · exact ih

theorem only_nodeInCluster (finding : HostAndPort) :
    (nodeInCluster finding).Only (Access.OnTable writes) :=
  .bind (only_firstSlot ..) fun _ => .ended _

theorem only_listNodesWithIdx (slots : List (Fin MAX_NUM_NODES)) :
    (listNodesWithIdx slots).Only (Access.OnTable writes) := by
  induction slots with
  | nil => exact .ended _
  | cons i rest ih => exact .bind (.make trivial) fun _ => .bind ih fun _ => .ended _

theorem only_listNodes (slots : List (Fin MAX_NUM_NODES)) :
    (listNodes slots).Only (Access.OnTable writes) := by
  induction slots with
  | nil => exact .ended _
  | cons i rest ih =>
    refine .bind (.make trivial) fun found => ?_
    split
    · exact .bind (.make trivial) fun _ => .bind ih fun _ => .ended _
    · exact ih

theorem only_getNodeClient (node : HostAndPort) :
    (getNodeClient node).Only (Access.OnTable writes) := by
  refine .bind (only_nodeInCluster node) fun listed => ?_
  split
  · exact .ended _
  · refine .bind (.make trivial) fun found => ?_
    cases found with
    | some object => exact .ended _
    | none => exact .make trivial

end

theorem only_addNode (node : HostAndPort) : (addNode node).Only (Access.OnTable True) := by
  refine .bind (only_firstSlot ..) fun slot => ?_
  cases slot with
  | some i => exact .make trivial
  | none => exact .ended _

theorem only_bootstrapCall (requester leader : HostAndPort) :
    (bootstrapCall requester leader).Only (Access.OnTable True) := by
  refine .bind (only_nodeInCluster leader) fun listed => ?_
  cases listed with
  | false =>
    exact .bind (only_addNode leader) fun _ => .bind (only_getNodeClient leader) fun _ => .ended _
  | true => exact .bind (only_getNodeClient leader) fun _ => .ended _

theorem only_addAddresses (idx : UInt32) (addresses : List Json) :
    (addAddresses idx addresses).Only (Access.OnTable True) := by
  induction addresses with
  | nil => exact .ended _
  | cons address rest ih =>
    refine .bind (.ended _) fun nodeStr => .bind (.ended _) fun node => .bind ?_ fun _ => ih
    unfold addNodeAt
    split
    · exact .make trivial
    · exact .ended _

theorem only_bootstrapEnd (text : JsonText) (rpcCall : RPCCall Process) (receipt : Receipt) :
    (bootstrapEnd text rpcCall receipt).Only (Access.OnTable True) := by
  refine .bind (.ended _) fun response => .bind (.ended _) fun nodes => ?_
  induction nodes.items with
  | nil => exact .ended _
  | cons member rest ih =>
    exact .bind (.ended _) fun idx => .bind (only_addAddresses ..) fun _ => ih

end Cluster.Unlocked

namespace IMQNode.Unlocked

open Cluster.Unlocked

theorem only_getNodesInCluster (args : Json) :
    (getNodesInCluster args).Only (Access.OnTable True) := by
  have hreply : reply.Only (Access.OnTable True) :=
    .bind (only_listNodesWithIdx _) fun _ => .bind (.ended _) fun _ => .bind (.ended _) fun _ =>
      .ended _
  obtain ⟨_, hcode⟩ | ⟨requester, _, hcode⟩ | ⟨e, hcode, _⟩ := getNodesInCluster_forms args
  · rw [hcode]
    exact hreply
  · rw [hcode]
    refine .bind (.bind (only_nodeInCluster requester) fun listed => ?_) fun _ => hreply
    cases listed with
    | false => exact only_addNode requester
    | true => exact .ended _
  · rw [hcode]
    exact .ended _

theorem only_workBody (text : JsonText) (message : Message) :
    (workBody text message).Only (Access.OnTable True) := by
  refine .bind (.ended _) fun rpcAndArgs => ?_
  split
  · refine .bind ?_ fun _ => .ended _
    rw [performRPC, rpcs, List.lookup_cons, List.lookup_cons]
    split
    next f hf =>
      split at hf
      next =>
        cases hf
        exact only_getNodesInCluster _
      next =>
        split at hf
        next =>
          cases hf
          exact .ended _
        next => cases hf
    next => exact .ended _
  · exact .ended _

end IMQNode.Unlocked

theorem Health.Unlocked.only_checkCall (node : HostAndPort) :
    (checkCall node).Only (Access.OnTable False) :=
  .bind (Cluster.Unlocked.only_getNodeClient node) fun _ => .ended _

end Imq
