import Imq.Verified.NetworkAlone
import Imq.Verified.NodeThreads
import Mathlib.Logic.Relation

/-! # What holds in a network of nodes

* `HostAndPort.endpoint_injective` — no two addresses share an endpoint;
* `Network.Inv` — the invariant, for nodes that are linked by the joins of a run;
* `moves_of_step` — what the steps do;
* `inv_mainAccess`, `inv_healthAccess`, `inv_workerAccess` — every access keeps it;
* `inv_step` — so does every other step;
* `network_safe` — what follows for every run.
-/

namespace Imq

open Lib Cluster IMQNode RPCServerWorkerPool Json

/-! ## Endpoints -/

/-- A list is cut at the last of the elements that are equal to `a`. -/
theorem append_cons_inj_of_notMem_right {α : Type} {a : α} {l₁ l₂ r₁ r₂ : List α} (h₁ : a ∉ r₁)
    (h₂ : a ∉ r₂) (h : l₁ ++ a :: r₁ = l₂ ++ a :: r₂) : l₁ = l₂ ∧ r₁ = r₂ := by
  obtain ⟨t, ht, hr⟩ | ⟨t, ht, hr⟩ := List.append_eq_append_iff.mp h
  · cases t with
    | nil =>
      rw [List.append_nil] at ht
      exact ⟨ht.symm, List.tail_eq_of_cons_eq hr⟩
    | cons b t =>
      have hmem : a ∈ r₁ := by
        rw [List.tail_eq_of_cons_eq hr]
        simp
      exact absurd hmem h₁
  · cases t with
    | nil =>
      rw [List.append_nil] at ht
      exact ⟨ht, (List.tail_eq_of_cons_eq hr).symm⟩
    | cons b t =>
      have hmem : a ∈ r₂ := by
        rw [List.tail_eq_of_cons_eq hr]
        simp
      exact absurd hmem h₂

namespace HostAndPort

theorem toString_injective : Function.Injective toString := by
  intro n m h
  have hcolon : ∀ port : UInt32, ':' ∉ (Cpp.toString port.toNat).toList := fun port hmem =>
    absurd ((isDecimal_iff _).mp (isDecimal_of_mem_toString hmem)) (by decide)
  have hlist := congrArg String.toList h
  rw [toList_toString, toList_toString] at hlist
  obtain ⟨hhost, hport⟩ := append_cons_inj_of_notMem_right (hcolon _) (hcolon _) hlist
  have hport := UInt32.toNat_inj.mp (Cpp.toString_injective (String.toList_inj.mp hport))
  cases n
  cases m
  exact congr (congrArg HostAndPort.mk (String.toList_inj.mp hhost)) hport

theorem endpoint_injective : Function.Injective endpoint := by
  intro n m h
  apply toString_injective
  have hlist := congrArg String.toList h
  simp only [endpoint, constructTCPBindAddress, String.toList_append, List.append_assoc,
    List.append_cancel_left_eq] at hlist
  apply String.toList_inj.mp
  simpa only [toString, String.toList_append, List.append_assoc] using hlist

end HostAndPort

/-! ## Texts that are read back -/

section

variable {format : FloatFormat}

theorem parse_dump_of_utf8 {j : Json} (held : Held j) (floatFree : FloatFree j) (utf8 : Utf8 j) :
    (JsonText.ofFormat format).parse ((JsonText.ofFormat format).dump j) = .ok j := by
  obtain ⟨_, h⟩ | ⟨hnot, _⟩ := parse_dump_decides format held floatFree
  · exact h
  · exact absurd utf8 hnot

theorem parse_dump_null :
    (JsonText.ofFormat format).parse ((JsonText.ofFormat format).dump .null) = .ok .null :=
  parse_dump_of_utf8 (.null trivial) (.null trivial) (.null trivial)

theorem parse_dump_registerArgs {requester : HostAndPort} (utf8 : Utf8String requester.host) :
    (JsonText.ofFormat format).parse ((JsonText.ofFormat format).dump (registerArgs requester)) =
      .ok (registerArgs requester) := by
  have hport := requester.port.toNat_lt
  have hmembers : ∀ {P : Json → Prop}, P (.string requester.host) →
      P (.number requester.port.toNat) → P (.boolean true) →
      ∀ m ∈ [("host", Json.string requester.host), ("port", Json.number requester.port.toNat),
        ("register_node", Json.boolean true)], All P m.2 := by
    intro P hhost hport hflag m hm
    simp only [List.mem_cons, List.not_mem_nil, or_false] at hm
    obtain rfl | rfl | rfl := hm
    · exact .string hhost
    · exact .number hport
    · exact .boolean hflag
  have hkeys : ∀ {P : String → Prop}, P "host" → P "port" → P "register_node" →
      ∀ m ∈ [("host", Json.string requester.host), ("port", Json.number requester.port.toNat),
        ("register_node", Json.boolean true)], P m.1 := by
    intro P hhost hport hflag m hm
    simp only [List.mem_cons, List.not_mem_nil, or_false] at hm
    obtain rfl | rfl | rfl := hm
    · exact hhost
    · exact hport
    · exact hflag
  have hhost : "host" < "port" ∧ "host" < "register_node" := by decide
  have hport' : "port" < "register_node" := by decide
  apply parse_dump_of_utf8
  · apply All.object _ (hmembers trivial ⟨by omega, by omega⟩ trivial)
    refine .cons ?_ (.cons ?_ (List.pairwise_singleton _ _))
    · exact List.forall_mem_cons.mpr ⟨hhost.1, List.forall_mem_singleton.mpr hhost.2⟩
    · exact List.forall_mem_singleton.mpr hport'
  · exact .object trivial (hmembers trivial trivial trivial)
  · apply All.object _ (hmembers utf8 trivial trivial)
    exact hkeys (.of_ascii (by decide)) (.of_ascii (by decide)) (.of_ascii (by decide))

end

namespace Network

variable {n : Nat}

/-! ## The invariant -/

/-- Nodes have addresses of their own, which survive the way through text. -/
structure Addresses (address : Fin n → HostAndPort) : Prop where
  distinct : Function.Injective address
  host : ∀ i, (address i).host ≠ ""
  sendable : ∀ i, (address i).Sendable
  utf8 : ∀ i, Utf8String (address i).host

/-- The address of one of the nodes `K`. -/
def Known (address : Fin n → HostAndPort) (K : Fin n → Prop) (m : HostAndPort) : Prop :=
  ∃ j, K j ∧ m = address j

/-- A table of the nodes `K`. -/
abbrev Lists (address : Fin n → HostAndPort) (K : Fin n → Prop) (c : Cluster) : Prop :=
  c.Forall fun m => m = {} ∨ Known address K m

/-- The results that the workers of a node reply with, which sends tables with `P`. -/
def ResultInv (P : Cluster → Prop) (result : Json) : Prop :=
  (∃ t, P t ∧ result = t.replyOf) ∨ result = .object [("health", .number 1)]

section

variable (text : JsonText) (address : Fin n → HostAndPort) (L : Fin n → Fin n → Prop) (i : Fin n)

/-- The contracts of the threads of a node. -/
abbrev caller : Contract Process Access := callerContract (Known address (L i)) (address i)

abbrev checker : Contract Process Access := checkerContract (Known address (L i)) (address i)

/-- A call of a node that is known has been made, or the node is not listed. -/
def Calls (call : HostAndPort → RPCCall Process) (r : Except Exn (RPCCall Process))
    (_ : Process) : Prop :=
  (∃ l, L i l ∧ r = .ok (call (address l))) ∨ r = .error (.logicError "Node not found.")

/-- What a worker ends with. -/
def Replies (r : Except Exn (Option Message)) (_ : Process) : Prop :=
  ∃ clientAddr result, ResultInv (Lists address (L i)) result ∧
    r = .ok (some [clientAddr, text.dump result])

def MainInv (p : Process) : MainStage → Prop
  | .free => True
  | .calling code => code.Safe (caller address L i) (Calls address L i (getNodesCall (address i))) p
  | .waiting rpcCall => ∃ l, L i l ∧ rpcCall = getNodesCall (address i) (address l)
  | .taking code => code.Safe (caller address L i) Returns p

def HealthInv (p : Process) : HealthStage → Prop
  | .asleep | .ended => True
  | .listing code =>
    code.Safe (checker address L i) (Gives fun nodes => ∀ m ∈ nodes, Known address (L i) m) p
  | .checking rest | .awaiting _ rest => ∀ m ∈ rest, Known address (L i) m
  | .calling rest code => (∀ m ∈ rest, Known address (L i) m) ∧
    code.Safe (checker address L i) (Calls address L i Health.callTo) p
  | .settling _ rest code => (∀ m ∈ rest, Known address (L i) m) ∧
    code.Safe (checker address L i) Returns p

def JobInv (p : Process) (job : Job) : Prop :=
  job.endpoint = (address i).endpoint ∧ job.code.Safe (caller address L i) (Replies text address L i) p

structure NodeInv (node : NetworkNode) : Prop where
  process : ProcessInv (Known address (L i)) (address i) node.process
  main : MainInv address L i node.process node.main
  health : HealthInv address L i node.process node.health
  worker : ∀ w job, node.worker w = some job → JobInv text address L i node.process job

end

section

variable (text : JsonText) (address : Fin n → HostAndPort) (L : Fin n → Fin n → Prop)

/-- The calls that a node makes of another. -/
def CallInv (i l : Fin n) (rpcCall : RPCCall Process) : Prop :=
  rpcCall = getNodesCall (address i) (address l) ∨ rpcCall = Health.callTo (address l)

def RequestInv (request : Request n) : Prop :=
  ∃ l rpcCall, L request.sender l ∧ request.endpoint = (address l).endpoint ∧
    CallInv address request.sender l rpcCall ∧ request.frames = rpcCall.frames text

def ReplyInv (reply : Reply) : Prop :=
  ∃ l clientAddr result, reply.endpoint = (address l).endpoint ∧
    ResultInv (Lists address (L l)) result ∧ reply.sent = [clientAddr, text.dump result]

/-- The invariant, where `L` are the nodes that are linked by joins. -/
structure Inv (s : Network n) : Prop where
  node : ∀ i, NodeInv text address L i (s.node i)
  request : ∀ r ∈ s.requests, RequestInv text address L r
  reply : ∀ r ∈ s.replies, ReplyInv text address L r
  thrown : ∀ t ∈ s.thrown, t.1 ≠ .worker ∧ t.2 = .logicError "Node not found."

end

/-! ## What one thread changes -/

section Frame

variable {text : JsonText} {address : Fin n → HostAndPort} {L : Fin n → Fin n → Prop}
  {s : Network n} {i : Fin n}

theorem Inv.setNode (h : Inv text address L s) {node : NetworkNode}
    (hnode : NodeInv text address L i node) : Inv text address L (s.setNode i node) where
  node j := by
    by_cases hj : j = i
    · subst hj
      rwa [node_setNode_self]
    · rw [node_setNode_of_ne s hj]
      exact h.node j
  request := h.request
  reply := h.reply
  thrown := h.thrown

theorem Inv.send (h : Inv text address L s) {l : Fin n} (hl : L i l) {rpcCall : RPCCall Process}
    (hcall : CallInv address i l rpcCall) (hcallee : rpcCall.calleeInfo = address l) :
    Inv text address L (s.send text i rpcCall) where
  node := h.node
  request r hr := by
    obtain rfl | hr := List.mem_cons.mp hr
    · exact ⟨l, rpcCall, hl, congrArg HostAndPort.endpoint hcallee, hcall, rfl⟩
    · exact h.request r hr
  reply := h.reply
  thrown := h.thrown

theorem Inv.throw (h : Inv text address L s) {thread : NodeThread} (hthread : thread ≠ .worker) :
    Inv text address L (s.throw thread (.logicError "Node not found.")) where
  node := h.node
  request := h.request
  reply := h.reply
  thrown t ht := by
    obtain rfl | ht := List.mem_cons.mp ht
    · exact ⟨hthread, rfl⟩
    · exact h.thrown t ht

end Frame

/-! ## What the steps do -/

/-- A step, with what it found before it and what it left. -/
inductive Moves (text : JsonText) (identity : String → Fin n → String)
    (address : Fin n → HostAndPort) (s : Network n) : NetworkStep n → Network n → Prop where
  | joinCall (i l : Fin n) (free : (s.node i).main = .free) :
      Moves text identity address s (.joinCall i l) (s.setNode i { s.node i with
        main := .calling (Unlocked.bootstrapCall (s.node i).process.metaStore (address l)) })
  | serve (j : Fin n) (w : Fin NUM_WORKERS) (request : Request n)
      (idle : (s.node j).worker w = none) (sent : request ∈ s.requests)
      (own : request.endpoint = (address j).endpoint) :
      Moves text identity address s (.serve j w request) (s.setNode j ((s.node j).setWorker w
        (some ⟨request.endpoint, IMQNode.Unlocked.workBody text
          (identity request.endpoint request.sender :: request.frames)⟩)))
  | joinEnd (i : Fin n) (receipt : Receipt) (rpcCall : RPCCall Process)
      (waiting : (s.node i).main = .waiting rpcCall)
      (possible : receipt.Possible identity s.replies i rpcCall.calleeInfo) :
      Moves text identity address s (.joinEnd i receipt) (s.setNode i { s.node i with
        main := .taking (Unlocked.bootstrapEnd text rpcCall receipt) })
  | pass (i : Fin n) (asleep : (s.node i).health = .asleep) :
      Moves text identity address s (.pass i)
        (s.setNode i { s.node i with health := .listing Unlocked.getNodesInCluster })
  | passed (i : Fin n) (checking : (s.node i).health = .checking []) :
      Moves text identity address s (.check i) (s.setNode i { s.node i with health := .asleep })
  | checkSelf (i : Fin n) (callee : HostAndPort) (rest : List HostAndPort)
      (checking : (s.node i).health = .checking (callee :: rest))
      (own : callee.host = (s.node i).process.metaStore.host ∧
        callee.port = (s.node i).process.metaStore.port) :
      Moves text identity address s (.check i)
        (s.setNode i { s.node i with health := .checking rest })
  | check (i : Fin n) (callee : HostAndPort) (rest : List HostAndPort)
      (checking : (s.node i).health = .checking (callee :: rest))
      (other : ¬ (callee.host = (s.node i).process.metaStore.host ∧
        callee.port = (s.node i).process.metaStore.port)) :
      Moves text identity address s (.check i)
        (s.setNode i { s.node i with health := .calling rest (Health.Unlocked.checkCall callee) })
  | checkEnd (i : Fin n) (outcome : CallOutcome) (callee : HostAndPort) (rest : List HostAndPort)
      (awaiting : (s.node i).health = .awaiting callee rest)
      (possible : outcome.Possible identity s.replies i callee) :
      Moves text identity address s (.checkEnd i outcome) (s.setNode i { s.node i with
        health := .settling callee rest (Health.Unlocked.awaitOutcome text callee outcome) })
  | mainAccess (i : Fin n) (access : Access) (next : access.Answer → MainStage)
      (main : (s.node i).main.access = some ⟨access, next⟩) :
      Moves text identity address s (.main i) (s.setNode i { s.node i with
        process := (access.perform (s.node i).process).2
        main := next (access.perform (s.node i).process).1 })
  | mainCalled (i : Fin n) (rpcCall : RPCCall Process)
      (main : (s.node i).main = .calling (.ended (.ok rpcCall))) :
      Moves text identity address s (.main i)
        ((s.setNode i { s.node i with main := .waiting rpcCall }).send text i rpcCall)
  | mainTaken (i : Fin n) (main : (s.node i).main = .taking (.ended (.ok ()))) :
      Moves text identity address s (.main i) (s.setNode i { s.node i with main := .free })
  | mainThrew (i : Fin n) (e : Exn) (main : (s.node i).main = .calling (.ended (.error e)) ∨
        (s.node i).main = .taking (.ended (.error e))) :
      Moves text identity address s (.main i)
        ((s.setNode i { s.node i with main := .free }).throw .main e)
  | healthAccess (i : Fin n) (access : Access) (next : access.Answer → HealthStage)
      (health : (s.node i).health.access = some ⟨access, next⟩) :
      Moves text identity address s (.health i) (s.setNode i { s.node i with
        process := (access.perform (s.node i).process).2
        health := next (access.perform (s.node i).process).1 })
  | healthListed (i : Fin n) (nodes : List HostAndPort)
      (health : (s.node i).health = .listing (.ended (.ok nodes))) :
      Moves text identity address s (.health i)
        (s.setNode i { s.node i with health := .checking nodes })
  | healthCalled (i : Fin n) (rest : List HostAndPort) (rpcCall : RPCCall Process)
      (health : (s.node i).health = .calling rest (.ended (.ok rpcCall))) :
      Moves text identity address s (.health i) ((s.setNode i { s.node i with
        health := .awaiting rpcCall.calleeInfo rest }).send text i rpcCall)
  | healthSettled (i : Fin n) (callee : HostAndPort) (rest : List HostAndPort)
      (health : (s.node i).health = .settling callee rest (.ended (.ok ()))) :
      Moves text identity address s (.health i)
        (s.setNode i { s.node i with health := .checking rest })
  | healthThrew (i : Fin n) (e : Exn) (health : (s.node i).health = .listing (.ended (.error e)) ∨
        (∃ rest, (s.node i).health = .calling rest (.ended (.error e))) ∨
        ∃ callee rest, (s.node i).health = .settling callee rest (.ended (.error e))) :
      Moves text identity address s (.health i)
        ((s.setNode i { s.node i with health := .ended }).throw .health e)
  | workerAccess (j : Fin n) (w : Fin NUM_WORKERS) (job : Job) (access : Access)
      (next : access.Answer → Job) (working : (s.node j).worker w = some job)
      (code : job.access = some ⟨access, next⟩) :
      Moves text identity address s (.worker j w) (s.setNode j ({ s.node j with
        process := (access.perform (s.node j).process).2 }.setWorker w
          (some (next (access.perform (s.node j).process).1))))
  | workerReplied (j : Fin n) (w : Fin NUM_WORKERS) (endpoint : String) (sent : Message)
      (working : (s.node j).worker w = some ⟨endpoint, .ended (.ok (some sent))⟩) :
      Moves text identity address s (.worker j w)
        { s.setNode j ((s.node j).setWorker w none) with replies := ⟨endpoint, sent⟩ :: s.replies }
  | workerSilent (j : Fin n) (w : Fin NUM_WORKERS) (endpoint : String)
      (working : (s.node j).worker w = some ⟨endpoint, .ended (.ok none)⟩) :
      Moves text identity address s (.worker j w) (s.setNode j ((s.node j).setWorker w none))
  | workerThrew (j : Fin n) (w : Fin NUM_WORKERS) (endpoint : String) (e : Exn)
      (working : (s.node j).worker w = some ⟨endpoint, .ended (.error e)⟩) :
      Moves text identity address s (.worker j w)
        ((s.setNode j ((s.node j).setWorker w none)).throw .worker e)

section Inversion

variable {text : JsonText} {identity : String → Fin n → String} {address : Fin n → HostAndPort}
  {s s' : Network n}

theorem moves_of_mainStep {i : Fin n} (next : s.mainStep text i = some s') :
    Moves text identity address s (.main i) s' := by
  simp only [mainStep] at next
  split at next
  next access after main => cases next; exact .mainAccess i access after main
  next =>
    split at next
    next rpcCall main => cases next; exact .mainCalled i rpcCall main
    next main => cases next; exact .mainTaken i main
    next e main => cases next; exact .mainThrew i e (.inl main)
    next e main => cases next; exact .mainThrew i e (.inr main)
    next => cases next

theorem moves_of_healthStep {i : Fin n} (next : s.healthStep text i = some s') :
    Moves text identity address s (.health i) s' := by
  simp only [healthStep] at next
  split at next
  next access after health => cases next; exact .healthAccess i access after health
  next =>
    split at next
    next nodes health => cases next; exact .healthListed i nodes health
    next rest rpcCall health => cases next; exact .healthCalled i rest rpcCall health
    next callee rest _ health => cases next; exact .healthSettled i callee rest health
    next e health => cases next; exact .healthThrew i e (.inl health)
    next rest e health => cases next; exact .healthThrew i e (.inr (.inl ⟨rest, health⟩))
    next callee rest e health =>
      cases next
      exact .healthThrew i e (.inr (.inr ⟨callee, rest, health⟩))
    next => cases next

theorem moves_of_workerStep {j : Fin n} {w : Fin NUM_WORKERS} (next : s.workerStep j w = some s') :
    Moves text identity address s (.worker j w) s' := by
  simp only [workerStep] at next
  split at next
  next => cases next
  next job working =>
    split at next
    next access after code => cases next; exact .workerAccess j w job access after working code
    next ended =>
      obtain ⟨endpoint, code⟩ := job
      cases code with
      | access _ _ => cases ended
      | ended result =>
        cases result with
        | error e => cases next; exact .workerThrew j w endpoint e working
        | ok reply =>
          cases reply with
          | none => cases next; exact .workerSilent j w endpoint working
          | some sent => cases next; exact .workerReplied j w endpoint sent working

theorem moves_of_step {label : NetworkStep n}
    (next : step text identity address s label = some s') :
    Moves text identity address s label s' := by
  cases label with
  | joinCall i l =>
    simp only [step] at next
    split at next
    next free => cases next; exact .joinCall i l free
    next => cases next
  | serve j w request =>
    simp only [step] at next
    split at next
    next idle =>
      split at next
      next taken => cases next; exact .serve j w request idle taken.1 taken.2
      next => cases next
    next => cases next
  | joinEnd i receipt =>
    simp only [step] at next
    split at next
    next rpcCall waiting =>
      split at next
      next possible => cases next; exact .joinEnd i receipt rpcCall waiting possible
      next => cases next
    next => cases next
  | pass i =>
    simp only [step] at next
    split at next
    next asleep => cases next; exact .pass i asleep
    next => cases next
  | check i =>
    simp only [step] at next
    split at next
    next checking => cases next; exact .passed i checking
    next callee rest checking =>
      split at next
      next own => cases next; exact .checkSelf i callee rest checking own
      next other => cases next; exact .check i callee rest checking other
    next => cases next
  | checkEnd i outcome =>
    simp only [step] at next
    split at next
    next callee rest awaiting =>
      split at next
      next possible => cases next; exact .checkEnd i outcome callee rest awaiting possible
      next => cases next
    next => cases next
  | main i => exact moves_of_mainStep next
  | health i => exact moves_of_healthStep next
  | worker j w => exact moves_of_workerStep next

end Inversion

/-! ## Accesses -/

section Accesses

variable {text : JsonText} {address : Fin n → HostAndPort} {L : Fin n → Fin n → Prop} {i : Fin n}
  {p p' : Process} {access : Access}

theorem MainInv.stable {main : MainStage} (h : MainInv address L i p main) :
    MainInv address L i p' main := by
  cases main with
  | free => trivial
  | calling code => exact Thread.Safe.stable h trivial
  | waiting rpcCall => exact h
  | taking code => exact Thread.Safe.stable h trivial

theorem HealthInv.stable {health : HealthStage} (h : HealthInv address L i p health)
    (moved : StaysOccupied p p') : HealthInv address L i p' health := by
  cases health with
  | asleep => trivial
  | listing code => exact Thread.Safe.stable h moved
  | checking rest => exact h
  | calling rest code => exact ⟨h.1, h.2.stable moved⟩
  | awaiting callee rest => exact h
  | settling callee rest code => exact ⟨h.1, h.2.stable moved⟩
  | ended => trivial

theorem JobInv.stable {job : Job} (h : JobInv text address L i p job) :
    JobInv text address L i p' job :=
  ⟨h.1, h.2.stable trivial⟩

/-- A thread whose next access this is may make it, and is safe after it. -/
theorem MainInv.of_access {main : MainStage} (h : MainInv address L i p main)
    (hp : ProcessInv (Known address (L i)) (address i) p) {next : access.Answer → MainStage}
    (hmain : main.access = some ⟨access, next⟩) :
    access.Writes (Known address (L i)) ∧
      MainInv address L i (access.perform p).2 (next (access.perform p).1) := by
  cases main with
  | free => cases hmain
  | calling code =>
    cases code with
    | ended result => cases hmain
    | access access rest => cases hmain; exact Thread.Safe.next h hp
  | waiting rpcCall => cases hmain
  | taking code =>
    cases code with
    | ended result => cases hmain
    | access access rest => cases hmain; exact Thread.Safe.next h hp

/-- What is known of the end of a call. -/
theorem MainInv.calls {r : Except Exn (RPCCall Process)}
    (h : MainInv address L i p (.calling (.ended r)))
    (hp : ProcessInv (Known address (L i)) (address i) p) :
    Calls address L i (getNodesCall (address i)) r p :=
  h p trivial hp

theorem MainInv.returns {r : Except Exn Unit} (h : MainInv address L i p (.taking (.ended r)))
    (hp : ProcessInv (Known address (L i)) (address i) p) : ∃ a, r = .ok a :=
  h p trivial hp

theorem HealthInv.of_access {health : HealthStage} (h : HealthInv address L i p health)
    (hp : ProcessInv (Known address (L i)) (address i) p) {next : access.Answer → HealthStage}
    (hhealth : health.access = some ⟨access, next⟩) :
    access.Writes (· = {}) ∧
      HealthInv address L i (access.perform p).2 (next (access.perform p).1) := by
  cases health with
  | asleep => cases hhealth
  | listing code =>
    cases code with
    | ended result => cases hhealth
    | access access rest => cases hhealth; exact Thread.Safe.next h hp
  | checking rest => cases hhealth
  | calling rest code =>
    cases code with
    | ended result => cases hhealth
    | access access rest =>
      cases hhealth
      obtain ⟨ok, hrest⟩ := h.2.next hp
      exact ⟨ok, h.1, hrest⟩
  | awaiting callee rest => cases hhealth
  | settling callee rest code =>
    cases code with
    | ended result => cases hhealth
    | access access rest =>
      cases hhealth
      obtain ⟨ok, hrest⟩ := h.2.next hp
      exact ⟨ok, h.1, hrest⟩
  | ended => cases hhealth

theorem HealthInv.lists {r : Except Exn (List HostAndPort)}
    (h : HealthInv address L i p (.listing (.ended r)))
    (hp : ProcessInv (Known address (L i)) (address i) p) :
    ∃ nodes, (∀ m ∈ nodes, Known address (L i) m) ∧ r = .ok nodes :=
  h p (fun _ => id) hp

theorem HealthInv.calls {rest : List HostAndPort} {r : Except Exn (RPCCall Process)}
    (h : HealthInv address L i p (.calling rest (.ended r)))
    (hp : ProcessInv (Known address (L i)) (address i) p) :
    (∀ m ∈ rest, Known address (L i) m) ∧ Calls address L i Health.callTo r p :=
  ⟨h.1, h.2.result hp⟩

theorem HealthInv.returns {callee : HostAndPort} {rest : List HostAndPort} {r : Except Exn Unit}
    (h : HealthInv address L i p (.settling callee rest (.ended r)))
    (hp : ProcessInv (Known address (L i)) (address i) p) :
    (∀ m ∈ rest, Known address (L i) m) ∧ ∃ a, r = .ok a :=
  ⟨h.1, h.2.result hp⟩

theorem JobInv.of_access {job : Job} (h : JobInv text address L i p job)
    (hp : ProcessInv (Known address (L i)) (address i) p) {next : access.Answer → Job}
    (hjob : job.access = some ⟨access, next⟩) :
    access.Writes (Known address (L i)) ∧
      JobInv text address L i (access.perform p).2 (next (access.perform p).1) := by
  obtain ⟨endpoint, code⟩ := job
  cases code with
  | ended result => cases hjob
  | access access rest =>
    cases hjob
    obtain ⟨ok, hrest⟩ := h.2.next hp
    exact ⟨ok, h.1, hrest⟩

variable {node : NetworkNode}

theorem NodeInv.setWorker (h : NodeInv text address L i node) (w : Fin NUM_WORKERS)
    {job : Option Job} (hjob : ∀ j, job = some j → JobInv text address L i node.process j) :
    NodeInv text address L i (node.setWorker w job) where
  process := h.process
  main := h.main
  health := h.health
  worker w' j hj := by
    have hj : Function.update node.worker w job w' = some j := hj
    by_cases hw : w' = w
    · rw [hw, Function.update_self] at hj
      exact hjob j hj
    · rw [Function.update_of_ne hw] at hj
      exact h.worker w' j hj

/-- A write of a known node disturbs no thread. -/
theorem NodeInv.perform (h : NodeInv text address L i node) (addresses : Addresses address)
    (ok : access.Writes (Known address (L i))) :
    NodeInv text address L i { node with process := (access.perform node.process).2 } where
  process := processInv_perform h.process (ok.mono fun _ => .inr)
  main := h.main.stable
  health := by
    apply h.health.stable (staysOccupied_perform (fun m hm => ?_) ok)
    obtain ⟨j, _, rfl⟩ := hm
    exact addresses.host j
  worker w job hw := (h.worker w job hw).stable

theorem inv_mainAccess (h : NodeInv text address L i node) (addresses : Addresses address)
    {next : access.Answer → MainStage} (hmain : node.main.access = some ⟨access, next⟩) :
    NodeInv text address L i { node with
      process := (access.perform node.process).2
      main := next (access.perform node.process).1 } := by
  obtain ⟨ok, hnext⟩ := h.main.of_access h.process hmain
  have hnode := h.perform addresses ok
  exact ⟨hnode.process, hnext, hnode.health, hnode.worker⟩

theorem inv_healthAccess (h : NodeInv text address L i node) {next : access.Answer → HealthStage}
    (hhealth : node.health.access = some ⟨access, next⟩) :
    NodeInv text address L i { node with
      process := (access.perform node.process).2
      health := next (access.perform node.process).1 } := by
  obtain ⟨ok, hnext⟩ := h.health.of_access h.process hhealth
  exact ⟨processInv_perform h.process (ok.mono fun _ => .inl), h.main.stable, hnext,
    fun w job hw => (h.worker w job hw).stable⟩

theorem inv_workerAccess (h : NodeInv text address L i node) (addresses : Addresses address)
    {w : Fin NUM_WORKERS} {job : Job} (working : node.worker w = some job)
    {next : access.Answer → Job} (hjob : job.access = some ⟨access, next⟩) :
    NodeInv text address L i ({ node with
      process := (access.perform node.process).2 }.setWorker w
        (some (next (access.perform node.process).1))) := by
  obtain ⟨ok, hnext⟩ := (h.worker w job working).of_access h.process hjob
  exact (h.perform addresses ok).setWorker w fun j hj => by
    cases hj
    exact hnext

end Accesses

/-! ## Texts that travel -/

section Texts

variable {format : FloatFormat} {identity : String → Fin n → String}
  {address : Fin n → HostAndPort} {K : Fin n → Prop} {L : Fin n → Fin n → Prop}
  {s : Network n} {i l : Fin n}

theorem Known.mono {K' : Fin n → Prop} (hK : ∀ j, K j → K' j) {m : HostAndPort}
    (h : Known address K m) : Known address K' m := by
  obtain ⟨j, hj, rfl⟩ := h
  exact ⟨j, hK j hj, rfl⟩

/-- What all nodes of the network have in common, and a free slot has as well, holds of
    every slot. -/
theorem forall_of_lists {c : Cluster} (h : Lists address K c) {Q : HostAndPort → Prop}
    (unused : Q {}) (nodes : ∀ j, Q (address j)) : c.Forall Q := by
  intro slot
  obtain hfree | ⟨j, _, hnode⟩ := h slot
  · rw [hfree]
    exact unused
  · rw [hnode]
    exact nodes j

theorem utf8Hosts_of_lists (addresses : Addresses address) {c : Cluster}
    (h : Lists address K c) : c.Utf8Hosts :=
  forall_of_lists h utf8_empty addresses.utf8

theorem sendable_of_lists (addresses : Addresses address) {c : Cluster}
    (h : Lists address K c) : c.Sendable :=
  sendable_iff_forall.mpr (forall_of_lists h (absurd rfl) fun j _ => addresses.sendable j)

theorem mem_of_lists {c : Cluster} (h : Lists address K c) {m : HostAndPort}
    (hm : m ∈ c.getNodesInCluster) : Known address K m := by
  obtain ⟨slot, hslot⟩ := mem_getNodesInCluster.mp hm
  obtain ⟨rfl, hhost⟩ := listed_eq_some_iff.mp hslot
  obtain hfree | hknown := h slot
  · exact absurd (congrArg HostAndPort.host hfree) hhost
  · exact hknown

theorem of_routedTo {clientAddr client frame : String} {message : Message}
    (h : Exchange.routedTo client (some [clientAddr, frame]) = some message) :
    clientAddr = client ∧ message = [frame] := by
  rw [Exchange.routedTo] at h
  split at h
  next hclient => exact ⟨hclient, (Option.some.inj h).symm⟩
  next => cases h

theorem readBack_of_result {P : Cluster → Prop} (utf8 : ∀ t, P t → t.Utf8Hosts) {result : Json}
    (hresult : ResultInv P result) :
    (JsonText.ofFormat format).parse (Json.dump format result) = .ok result := by
  obtain ⟨t, ht, rfl⟩ | rfl := hresult
  · exact readBack_of_replied format (utf8 t ht) (.inl rfl)
  · exact readBack_of_replied format (forall_new utf8_empty) (.inr (.inl rfl))

/-- What arrives is the text of a result of the callee, and is read back. -/
theorem of_arrives (addresses : Addresses address) (h : Inv (.ofFormat format) address L s)
    {callee : HostAndPort} {message : Message}
    (arrives : Arrives identity s.replies i callee message) :
    ∃ l result, callee = address l ∧ ResultInv (Lists address (L l)) result ∧
      message = [Json.dump format result] ∧
      (JsonText.ofFormat format).parse (Json.dump format result) = .ok result := by
  obtain ⟨reply, hmem, hcallee, hrouted⟩ := arrives
  obtain ⟨l, clientAddr, result, hendpoint, hresult, hsent⟩ := h.reply reply hmem
  have haddress := HostAndPort.endpoint_injective (hcallee.symm.trans hendpoint)
  rw [hsent] at hrouted
  exact ⟨l, result, haddress, hresult, (of_routedTo hrouted).2,
    readBack_of_result (fun _ => utf8Hosts_of_lists addresses) hresult⟩

/-- A response holds a table, or no nodes at all. -/
def ResponseInv (P : Cluster → Prop) (response : Json) : Prop :=
  (∃ t, P t ∧ response.constAt "nodes" = .ok t.nodesJson) ∨
    response.elementAt "nodes" = .ok .null

theorem response_of_result {σ : Type} {P : Cluster → Prop} {result : Json}
    (hresult : ResultInv P result) (rpcCall : RPCCall σ) :
    ∃ response, RPCResponse.addResponseMetadata rpcCall result = .ok response ∧
      ResponseInv P response := by
  obtain ⟨t, ht, rfl⟩ | rfl := hresult
  · obtain ⟨response, hmeta, hnodes⟩ := addResponseMetadata_replyOf rpcCall t
    exact ⟨response, hmeta, .inl ⟨t, ht, hnodes⟩⟩
  · have hnone : [("health", Json.number 1)].lookup "callee_info" = none := by decide
    have hmeta := RPCResponse.addResponseMetadata_object rpcCall hnone
    refine ⟨_, hmeta, .inr ?_⟩
    rw [elementAt_addResponseMetadata hmeta (by decide)]
    rfl

/-- What a receipt brings, if anything: the text of a result. -/
def Brings (format : FloatFormat) (P : Cluster → Prop) : Receipt → Prop
  | .received message => ∃ result, ResultInv P result ∧ message = [Json.dump format result] ∧
      (JsonText.ofFormat format).parse (Json.dump format result) = .ok result
  | .timedOut | .stopped => True

theorem get_of_brings {P : Cluster → Prop} {receipt : Receipt} (brings : Brings format P receipt)
    {rpcCall : RPCCall Process} (sync : rpcCall.async = false) :
    ∃ response, RPCResponse.get (.ofFormat format) rpcCall receipt = .ok response ∧
      ResponseInv P response := by
  cases receipt with
  | received message =>
    obtain ⟨result, hresult, rfl, hparse⟩ := brings
    rw [RPCResponse.get_received sync hparse]
    exact response_of_result hresult rpcCall
  | timedOut =>
    refine ⟨TimeoutException.asJson, ?_, .inr rfl⟩
    rw [RPCResponse.get, sync, if_neg (by decide)]
  | stopped =>
    refine ⟨InternalException.asJson, ?_, .inr rfl⟩
    rw [RPCResponse.get, sync, if_neg (by decide)]

theorem brings_of_possible (addresses : Addresses address)
    (h : Inv (.ofFormat format) address L s) {receipt : Receipt}
    (possible : receipt.Possible identity s.replies i (address l)) :
    Brings format (Lists address (L l)) receipt := by
  cases receipt with
  | received message =>
    obtain ⟨l', result, haddress, hresult, hread⟩ := of_arrives addresses h possible
    obtain rfl : l = l' := addresses.distinct haddress
    exact ⟨result, hresult, hread⟩
  | timedOut => trivial
  | stopped => trivial

theorem readable_of_possible (addresses : Addresses address)
    (h : Inv (.ofFormat format) address L s) {callee : HostAndPort} {outcome : CallOutcome}
    (possible : outcome.Possible identity s.replies i callee) :
    outcome.Readable (.ofFormat format) := by
  cases outcome with
  | answered message =>
    obtain ⟨_, result, _, hresult, rfl, hparse⟩ := of_arrives addresses h possible
    intro rpcCall
    obtain ⟨response, hmeta, _⟩ := response_of_result hresult rpcCall
    exact ⟨response, (RPCResponse.parsedResponse_of_parse hparse rpcCall []).trans hmeta⟩
  | timedOut => trivial
  | neither => trivial

/-- The writes that a table leads to which has been received. -/
theorem readMember_nodesJson {t : Cluster} (sendable : t.Sendable)
    {r : Except Exn (Fin MAX_NUM_NODES × HostAndPort)}
    (hr : r ∈ t.nodesJson.items.flatMap readMember) :
    ∃ w, t.view w.1 = some w.2 ∧ r = .ok w := by
  rw [items_nodesJson, List.flatMap_map, List.mem_flatMap] at hr
  obtain ⟨⟨slot, m⟩, hsent, hr⟩ := hr
  have hview := mem_sentEntries.mp hsent
  rw [readMember_memberOf, HostAndPort.fromString_toString (sendable_of_view sendable hview)] at hr
  exact ⟨(slot, m), hview, List.mem_singleton.mp hr⟩

end Texts

/-! ## Steps -/

section Steps

variable {format : FloatFormat} {identity : String → Fin n → String}
  {address : Fin n → HostAndPort} {L : Fin n → Fin n → Prop}
  {s : Network n} {node : NetworkNode} {i j l : Fin n}

theorem inv_joinCall {text : JsonText} (h : NodeInv text address L i node)
    (addresses : Addresses address) (hl : L i l) (hne : l ≠ i) :
    NodeInv text address L i { node with
      main := .calling (Cluster.Unlocked.bootstrapCall node.process.metaStore (address l)) } := by
  have hother : address l ≠ address i := fun he => hne (addresses.distinct he)
  have hleader : Known address (L i) (address l) := ⟨l, hl, rfl⟩
  refine ⟨h.process, ?_, h.health, h.worker⟩
  rw [h.process.metaStore]
  refine Thread.Safe.mono ?_ (Cluster.Unlocked.safe_bootstrapCall (c := caller address L i)
    (fun _ _ ok => ok) (fun _ hp => hp.store) hleader hother (address i))
  exact fun r _ hr => hr.imp_left fun hcalled => ⟨l, hl, hcalled⟩

/-- What a worker does with a request of a node of the network. -/
theorem jobInv_of_request (addresses : Addresses address) (links : Equivalence L)
    {request : Request n} (hrequest : RequestInv (.ofFormat format) address L request)
    (own : request.endpoint = (address j).endpoint) (clientAddr : String) (p : Process) :
    JobInv (.ofFormat format) address L j p ⟨request.endpoint,
      IMQNode.Unlocked.workBody (.ofFormat format) (clientAddr :: request.frames)⟩ := by
  obtain ⟨l, rpcCall, hl, hendpoint, hcall, hframes⟩ := hrequest
  -- The endpoint is that of one node only.
  obtain rfl : l = j := addresses.distinct (HostAndPort.endpoint_injective (hendpoint.symm.trans own))
  refine ⟨own, ?_⟩
  rw [hframes]
  obtain rfl | rfl := hcall
  · have hrequester : Known address (L l) (address request.sender) :=
      ⟨request.sender, links.symm hl, rfl⟩
    have hwork := IMQNode.Unlocked.workBody_of_registered
      (accepted_request clientAddr "GetNodesInCluster" ((JsonText.ofFormat format).dump
        (registerArgs (address request.sender)))) rfl
      (parse_dump_registerArgs (addresses.utf8 request.sender)) rfl
    show Code.Safe _ _ (IMQNode.Unlocked.workBody _ [_, "GetNodesInCluster",
      (JsonText.ofFormat format).dump (registerArgs (address request.sender))]) p
    rw [hwork]
    refine Code.safe_bind_gives (IMQNode.Unlocked.safe_getNodesInCluster (c := caller address L l)
      (fun _ _ ok => ok) (.inl rfl) (fun _ hp => hp.cluster) hrequester) fun result _ hresult => ?_
    exact Code.safe_pure fun _ => ⟨clientAddr, result, .inl hresult, rfl⟩
  · have hwork := IMQNode.Unlocked.workBody_of_registered
      (accepted_request clientAddr "CheckHealth" ((JsonText.ofFormat format).dump .null)) rfl
      parse_dump_null rfl
    show Code.Safe _ _ (IMQNode.Unlocked.workBody _ [_, "CheckHealth",
      (JsonText.ofFormat format).dump .null]) p
    rw [hwork]
    exact Code.safe_pure fun _ => ⟨clientAddr, _, .inr rfl, rfl⟩

theorem inv_joinEnd (addresses : Addresses address) (links : Equivalence L)
    (h : Inv (.ofFormat format) address L s) {rpcCall : RPCCall Process}
    (waiting : (s.node i).main = .waiting rpcCall) {receipt : Receipt}
    (possible : receipt.Possible identity s.replies i rpcCall.calleeInfo) :
    NodeInv (.ofFormat format) address L i { s.node i with
      main := .taking (Cluster.Unlocked.bootstrapEnd (.ofFormat format) rpcCall receipt) } := by
  have hnode := h.node i
  have hmain := hnode.main
  rw [waiting] at hmain
  obtain ⟨l, hl, rfl⟩ := hmain
  have hsync : (getNodesCall (address i) (address l)).async = false := rfl
  obtain ⟨response, hget, hresponse⟩ :=
    get_of_brings (brings_of_possible addresses h possible) hsync
  have hok : ∀ p access, Access.Writes (Known address (L i)) access →
      (caller address L i).ok p access := fun _ _ ok => ok
  refine ⟨hnode.process, ?_, hnode.health, hnode.worker⟩
  obtain ⟨t, ht, hnodes⟩ | hnull := hresponse
  · refine Cluster.Unlocked.safe_bootstrapEnd hok hget (Json.elementAt_of_constAt hnodes) ?_
    intro r hr
    obtain ⟨w, hview, rfl⟩ := readMember_nodesJson (sendable_of_lists addresses ht) hr
    -- What the leader is linked to, the joiner is linked to through it.
    have hknown := mem_of_lists ht (mem_getNodesInCluster.mpr ⟨w.1, hview⟩)
    exact ⟨w, hknown.mono fun j hj => links.trans hl hj, rfl⟩
  · exact Cluster.Unlocked.safe_bootstrapEnd hok hget hnull fun r hr => absurd hr List.not_mem_nil

theorem inv_check {text : JsonText} (h : NodeInv text address L i node)
    {callee : HostAndPort} {rest : List HostAndPort} (checking : node.health = .checking (callee :: rest))
    (other : ¬ (callee.host = node.process.metaStore.host ∧
      callee.port = node.process.metaStore.port)) :
    NodeInv text address L i
      { node with health := .calling rest (Health.Unlocked.checkCall callee) } := by
  have hhealth := h.health
  rw [checking] at hhealth
  obtain ⟨l, hl, hcallee⟩ := hhealth callee List.mem_cons_self
  have hne : callee ≠ address i := by
    rintro rfl
    rw [h.process.metaStore] at other
    exact other ⟨rfl, rfl⟩
  refine ⟨h.process, h.main, ⟨fun m hm => hhealth m (List.mem_cons_of_mem _ hm), ?_⟩, h.worker⟩
  refine Thread.Safe.mono ?_ (Health.Unlocked.safe_checkCall (c := checker address L i)
    (fun _ _ ok => ok.mono fun _ => False.elim) (fun _ hp => hp.store) hne)
  exact fun r _ hr => hr.imp_left fun hcalled => ⟨l, hl, by rw [← hcallee]; exact hcalled⟩

/-- What a join throws is that the leader is not listed; taking the reply over throws nothing. -/
theorem inv_mainThrew {text : JsonText} (h : Inv text address L s) {e : Exn}
    (main : (s.node i).main = .calling (.ended (.error e)) ∨
      (s.node i).main = .taking (.ended (.error e))) :
    Inv text address L ((s.setNode i { s.node i with main := .free }).throw .main e) := by
  have hnode := h.node i
  have hmain := hnode.main
  have hfree : Inv text address L (s.setNode i { s.node i with main := .free }) :=
    h.setNode ⟨hnode.process, trivial, hnode.health, hnode.worker⟩
  obtain main | main := main
  · rw [main] at hmain
    obtain ⟨l, _, hcall⟩ | hthrow := hmain.calls hnode.process
    · cases hcall
    · cases hthrow
      exact hfree.throw (by decide)
  · rw [main] at hmain
    obtain ⟨_, hreturn⟩ := hmain.returns hnode.process
    cases hreturn

/-- What a pass throws is that a node of its snapshot is no longer listed. -/
theorem inv_healthThrew {text : JsonText} (h : Inv text address L s) {e : Exn}
    (health : (s.node i).health = .listing (.ended (.error e)) ∨
      (∃ rest, (s.node i).health = .calling rest (.ended (.error e))) ∨
      ∃ callee rest, (s.node i).health = .settling callee rest (.ended (.error e))) :
    Inv text address L ((s.setNode i { s.node i with health := .ended }).throw .health e) := by
  have hnode := h.node i
  have hhealth := hnode.health
  have hended : Inv text address L (s.setNode i { s.node i with health := .ended }) :=
    h.setNode ⟨hnode.process, hnode.main, trivial, hnode.worker⟩
  obtain health | ⟨rest, health⟩ | ⟨callee, rest, health⟩ := health
  · rw [health] at hhealth
    obtain ⟨_, _, hreturn⟩ := hhealth.lists hnode.process
    cases hreturn
  · rw [health] at hhealth
    obtain ⟨_, ⟨l, _, hcall⟩ | hthrow⟩ := hhealth.calls hnode.process
    · cases hcall
    · cases hthrow
      exact hended.throw (by decide)
  · rw [health] at hhealth
    obtain ⟨_, _, hreturn⟩ := hhealth.returns hnode.process
    cases hreturn

/-- Every step keeps the invariant, for nodes that are linked at least by the joins. -/
theorem inv_step (addresses : Addresses address) (links : Equivalence L) {s' : Network n}
    (h : Inv (.ofFormat format) address L s) {label : NetworkStep n}
    (joins : ∀ i l, label = .joinCall i l → L i l) (joinsOther : s.JoinsOther label)
    (next : step (.ofFormat format) identity address s label = some s') :
    Inv (.ofFormat format) address L s' := by
  cases moves_of_step next with
  | joinCall i l free => exact h.setNode (inv_joinCall (h.node i) addresses (joins i l rfl) joinsOther)
  | serve j w request idle sent own =>
    refine h.setNode ((h.node j).setWorker w fun job hjob => ?_)
    cases hjob
    exact jobInv_of_request addresses links (h.request request sent) own _ _
  | joinEnd i receipt rpcCall waiting possible =>
    exact h.setNode (inv_joinEnd addresses links h waiting possible)
  | pass i asleep =>
    have hnode := h.node i
    exact h.setNode ⟨hnode.process, hnode.main, Cluster.Unlocked.safe_listNodes .., hnode.worker⟩
  | passed i checking =>
    have hnode := h.node i
    exact h.setNode ⟨hnode.process, hnode.main, trivial, hnode.worker⟩
  | checkSelf i callee rest checking own =>
    have hnode := h.node i
    have hhealth := hnode.health
    rw [checking] at hhealth
    exact h.setNode ⟨hnode.process, hnode.main,
      fun m hm => hhealth m (List.mem_cons_of_mem _ hm), hnode.worker⟩
  | check i callee rest checking other => exact h.setNode (inv_check (h.node i) checking other)
  | checkEnd i outcome callee rest awaiting possible =>
    have hnode := h.node i
    have hhealth := hnode.health
    rw [awaiting] at hhealth
    exact h.setNode ⟨hnode.process, hnode.main,
      ⟨hhealth, Health.Unlocked.safe_awaitOutcome (c := checker address L i) (fun _ _ ok => ok) rfl
        (readable_of_possible addresses h possible) callee⟩, hnode.worker⟩
  | mainAccess i access next main => exact h.setNode (inv_mainAccess (h.node i) addresses main)
  | mainCalled i rpcCall main =>
    have hnode := h.node i
    have hmain := hnode.main
    rw [main] at hmain
    obtain ⟨l, hl, hcall⟩ | hthrow := hmain.calls hnode.process
    · cases hcall
      refine (h.setNode ?_).send hl (.inl rfl) rfl
      exact ⟨hnode.process, ⟨l, hl, rfl⟩, hnode.health, hnode.worker⟩
    · cases hthrow
  | mainTaken i main =>
    have hnode := h.node i
    exact h.setNode ⟨hnode.process, trivial, hnode.health, hnode.worker⟩
  | mainThrew i e main => exact inv_mainThrew h main
  | healthAccess i access next health => exact h.setNode (inv_healthAccess (h.node i) health)
  | healthListed i nodes health =>
    have hnode := h.node i
    have hhealth := hnode.health
    rw [health] at hhealth
    obtain ⟨_, hlisted, hreturn⟩ := hhealth.lists hnode.process
    cases hreturn
    exact h.setNode ⟨hnode.process, hnode.main, hlisted, hnode.worker⟩
  | healthCalled i rest rpcCall health =>
    have hnode := h.node i
    have hhealth := hnode.health
    rw [health] at hhealth
    obtain ⟨hrest, ⟨l, hl, hcall⟩ | hthrow⟩ := hhealth.calls hnode.process
    · cases hcall
      refine (h.setNode ?_).send hl (.inr rfl) rfl
      exact ⟨hnode.process, hnode.main, hrest, hnode.worker⟩
    · cases hthrow
  | healthSettled i callee rest health =>
    have hnode := h.node i
    have hhealth := hnode.health
    rw [health] at hhealth
    exact h.setNode ⟨hnode.process, hnode.main, (hhealth.returns hnode.process).1, hnode.worker⟩
  | healthThrew i e health => exact inv_healthThrew h health
  | workerAccess j w job access next working code =>
    exact h.setNode (inv_workerAccess (h.node j) addresses working code)
  | workerReplied j w endpoint sent working =>
    obtain ⟨hendpoint, hsafe⟩ := (h.node j).worker w _ working
    obtain ⟨clientAddr, result, hresult, hreply⟩ := hsafe.result (h.node j).process
    cases hreply
    have hidle : Inv (.ofFormat format) address L (s.setNode j ((s.node j).setWorker w none)) :=
      h.setNode ((h.node j).setWorker w fun _ hnone => by cases hnone)
    refine ⟨hidle.node, h.request, fun r hr => ?_, h.thrown⟩
    obtain rfl | hr := List.mem_cons.mp hr
    · exact ⟨j, clientAddr, result, hendpoint, hresult, rfl⟩
    · exact h.reply r hr
  -- A worker that has taken a request of a node ends with a reply.
  | workerSilent j w endpoint working =>
    obtain ⟨_, hsafe⟩ := (h.node j).worker w _ working
    obtain ⟨_, _, _, hreply⟩ := hsafe.result (h.node j).process
    cases hreply
  | workerThrew j w endpoint e working =>
    obtain ⟨_, hsafe⟩ := (h.node j).worker w _ working
    obtain ⟨_, _, _, hreply⟩ := hsafe.result (h.node j).process
    cases hreply

end Steps

/-! ## Runs -/

/-- The call of a join that nothing interrupts, for which the table has room. -/
theorem exists_run_called {format : FloatFormat} (identity : String → Fin n → String)
    {address : Fin n → HostAndPort} {L : Fin n → Fin n → Prop}
    (guard : Network n → NetworkStep n → Prop) {s : Network n} {i l : Fin n}
    (goesOn : ∀ s, guard s (.main i)) (ok : guard s (.joinCall i l)) (addresses : Addresses address)
    (h : Inv (.ofFormat format) address L s) (other : l ≠ i) (free : (s.node i).main = .free)
    (room : ¬ (s.node i).process.cluster.NoRoomFor (address l)) :
    ∃ k, Run (step (.ofFormat format) identity address) guard s
      (.joinCall i l :: List.replicate k (.main i))
      (s.afterJoinCall (.ofFormat format) i (.ok (getNodesCall (address i) (address l))
        { (s.node i).process with
          cluster := (s.node i).process.cluster.register (address l)
          rpcStore := ((s.node i).process.rpcStore.getRPCClient (address l)).2 })) := by
  have hprocess := (h.node i).process
  have hother : address l ≠ address i := fun he => other (addresses.distinct he)
  obtain ⟨k, run⟩ := exists_run_joinCall (.ofFormat format) identity address guard goesOn ok free
  rw [hprocess.metaStore, run_bootstrapCall hprocess.store hother room (address i)] at run
  exact ⟨k, run⟩

/-- Two nodes are linked by the joins among the steps: whom a node joins, and on from
    there in either direction. -/
def Linked (labels : List (NetworkStep n)) : Fin n → Fin n → Prop :=
  Relation.EqvGen fun i l => .joinCall i l ∈ labels

section Runs

variable {format : FloatFormat} {identity : String → Fin n → String}
  {address : Fin n → HostAndPort} {L : Fin n → Fin n → Prop}

theorem inv_initial (address : Fin n → HostAndPort) (links : Equivalence L) :
    Inv (.ofFormat format) address L (initial address) where
  node i :=
    { process :=
        { metaStore := rfl
          cluster := (forall_new (.inl rfl)).addNode (.inr ⟨i, links.refl i, rfl⟩)
          store := RPCStore.serversOnlyAt_getRPCServer (RPCStore.serversOnlyAt_empty _) }
      main := trivial
      health := trivial
      worker := fun _ _ h => by cases h }
  request r hr := absurd hr List.not_mem_nil
  reply r hr := absurd hr List.not_mem_nil
  thrown t ht := absurd ht List.not_mem_nil

theorem inv_of_run (addresses : Addresses address) (links : Equivalence L)
    {labels : List (NetworkStep n)} {s : Network n}
    (run : Run (step (.ofFormat format) identity address) JoinsOther (initial address) labels s)
    (joins : ∀ i l, .joinCall i l ∈ labels → L i l) : Inv (.ofFormat format) address L s := by
  apply run.with_mem.invariant (inv_initial address links)
  intro s label s' h ok next
  apply inv_step addresses links h (fun i l hlabel => ?_) ok.1 next
  exact joins i l (hlabel ▸ ok.2)

/-- Whatever is lost, delayed or delivered again, and however the accesses of all threads
    interleave: a node lists itself and nodes that joins have linked it to, and nothing else;
    no exception ever leaves a worker, and none other threads but that a node is not listed;
    and what has been sent is for exactly one server, that of a node linked to the sender. -/
theorem network_safe (format : FloatFormat) (identity : String → Fin n → String)
    (address : Fin n → HostAndPort) (addresses : Addresses address)
    (labels : List (NetworkStep n)) (s : Network n)
    (run : Run (step (.ofFormat format) identity address) JoinsOther (initial address) labels s) :
    (∀ i, ∀ m ∈ (s.node i).process.cluster.getNodesInCluster,
      ∃ j, Linked labels i j ∧ m = address j) ∧
    (∀ t ∈ s.thrown, t.1 ≠ .worker ∧ t.2 = .logicError "Node not found.") ∧
    (∀ r ∈ s.requests, ∃ j, Linked labels r.sender j ∧
      ∀ k, r.endpoint = (address k).endpoint ↔ k = j) := by
  have h := inv_of_run addresses (Relation.EqvGen.is_equivalence _) run
    fun i l hmem => Relation.EqvGen.rel i l hmem
  refine ⟨fun i m hm => mem_of_lists (h.node i).process.cluster hm, h.thrown, fun r hr => ?_⟩
  obtain ⟨l, _, hl, hendpoint, _⟩ := h.request r hr
  refine ⟨l, hl, fun k => ⟨fun hk => ?_, fun hk => by rw [hk]; exact hendpoint⟩⟩
  exact addresses.distinct (HostAndPort.endpoint_injective (hk.symm.trans hendpoint))

/-- Two nodes. -/
def twoNodes : Fin 2 → HostAndPort
  | 0 => ⟨"a", 1⟩
  | 1 => ⟨"b", 2⟩

theorem addresses_twoNodes : Addresses twoNodes where
  distinct i j := by
    revert i j
    decide
  host := by decide
  sendable := by decide
  utf8 i := by
    apply Utf8String.of_ascii
    revert i
    decide

/-- A node has called another to join it. -/
theorem network_safe_joinCall :
    ∃ k s, Run (step (.ofFormat noFloats) (fun _ _ => "client") twoNodes) JoinsOther
        (initial twoNodes) (.joinCall 0 1 :: List.replicate k (.main 0)) s ∧
      s.requests.length = 1 ∧
      (∀ i, ∀ m ∈ (s.node i).process.cluster.getNodesInCluster,
        ∃ j, Linked (.joinCall 0 1 :: List.replicate k (.main 0)) i j ∧ m = twoNodes j) ∧
      (∀ t ∈ s.thrown, t.1 ≠ .worker ∧ t.2 = .logicError "Node not found.") ∧
      (∀ r ∈ s.requests, ∃ j, Linked (.joinCall 0 1 :: List.replicate k (.main 0)) r.sender j ∧
        ∀ k, r.endpoint = (twoNodes k).endpoint ↔ k = j) := by
  have links : Equivalence (Linked (n := 2) []) := Relation.EqvGen.is_equivalence _
  have other : JoinsOther (initial twoNodes) (.joinCall 0 1) := by decide
  obtain ⟨k, run⟩ := exists_run_called (fun _ _ => "client") JoinsOther (fun _ => trivial) other
    addresses_twoNodes (inv_initial twoNodes links) (by decide) rfl (by decide)
  exact ⟨k, _, run, rfl,
    network_safe noFloats (fun _ _ => "client") twoNodes addresses_twoNodes _ _ run⟩

end Runs

end Network

end Imq
