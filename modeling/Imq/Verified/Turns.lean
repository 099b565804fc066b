import Imq.TurnNetwork
import Imq.Verified.Network

/-! # Nodes whose threads take turns

As long as a thread of a node begins something only while no other thread of the node is in
the middle of its code, a network does what the abstract one does whose nodes do one thing
at a time.

* `CarriesOut`, `Sim` — how far a network has got with the steps of the abstract one;
* `sim_step` — every step of such a network begins, carries on or ends an abstract one;
* `exists_run_turn` — and every abstract step is a run of the network;
* `turns_exact` — so the two reach the same states.
-/

namespace Imq

open Lib Cluster IMQNode RPCServerWorkerPool

variable {n : Nat}

/-! ## Nodes at rest -/

theorem CheckPhase.stage_injective : Function.Injective stage := by
  intro health health' h
  cases health <;> cases health' <;> cases h <;> rfl

namespace TurnNode

theorem atRest_injective : Function.Injective atRest := by
  intro node node' h
  obtain ⟨p, joining, health⟩ := node
  obtain ⟨p', joining', health'⟩ := node'
  obtain rfl : p = p' := congrArg NetworkNode.process h
  obtain rfl : health = health' := CheckPhase.stage_injective (congrArg NetworkNode.health h)
  have hmain := congrArg NetworkNode.main h
  cases joining <;> cases joining' <;> cases hmain <;> rfl

theorem joining_of_free {node : TurnNode} (h : node.atRest.main = .free) : node.joining = none := by
  obtain ⟨p, joining, health⟩ := node
  cases joining with
  | none => rfl
  | some rpcCall => cases h

theorem joining_of_waiting {node : TurnNode} {rpcCall : RPCCall Process}
    (h : node.atRest.main = .waiting rpcCall) : node.joining = some rpcCall := by
  obtain ⟨p, joining, health⟩ := node
  cases joining <;> cases h
  rfl

variable (node : TurnNode)

theorem main_atRest_ne_calling (code : Code (RPCCall Process)) : node.atRest.main ≠ .calling code := by
  obtain ⟨p, joining, health⟩ := node
  cases joining <;> exact nofun

theorem main_atRest_ne_taking (code : Code Unit) : node.atRest.main ≠ .taking code := by
  obtain ⟨p, joining, health⟩ := node
  cases joining <;> exact nofun

theorem health_atRest_ne_listing (code : Code (List HostAndPort)) :
    node.atRest.health ≠ .listing code := by
  obtain ⟨p, joining, health⟩ := node
  cases health <;> exact nofun

theorem health_atRest_ne_calling (rest : List HostAndPort) (code : Code (RPCCall Process)) :
    node.atRest.health ≠ .calling rest code := by
  obtain ⟨p, joining, health⟩ := node
  cases health <;> exact nofun

theorem health_atRest_ne_settling (callee : HostAndPort) (rest : List HostAndPort)
    (code : Code Unit) : node.atRest.health ≠ .settling callee rest code := by
  obtain ⟨p, joining, health⟩ := node
  cases health <;> exact nofun

end TurnNode

namespace TurnNetwork

theorem node_setNode_self (t : TurnNetwork n) (i : Fin n) (node : TurnNode) :
    (t.setNode i node).node i = node := Function.update_self ..

theorem node_setNode_of_ne (t : TurnNetwork n) {i j : Fin n} (hj : j ≠ i) (node : TurnNode) :
    (t.setNode i node).node j = t.node j := Function.update_of_ne hj ..

theorem atRest_injective : Function.Injective (atRest (n := n)) := by
  intro t t' h
  obtain ⟨node, requests, replies, thrown⟩ := t
  obtain ⟨node', requests', replies', thrown'⟩ := t'
  obtain rfl : node = node' :=
    funext fun i => TurnNode.atRest_injective (congrFun (congrArg Network.node h) i)
  cases h
  rfl

theorem atRest_setNode (t : TurnNetwork n) (i : Fin n) (node : TurnNode) :
    (t.setNode i node).atRest = t.atRest.setNode i node.atRest := by
  refine congrArg (fun nodes : Fin n → NetworkNode => { t.atRest with node := nodes }) ?_
  funext j
  exact Function.apply_update (fun _ => TurnNode.atRest) t.node i node j

/-! ### What the steps come to -/

section

variable {text : JsonText} {identity : String → Fin n → String} {address : Fin n → HostAndPort}
  {t : TurnNetwork n} {i : Fin n} {p : Process}

theorem joinCall_of_ok {l : Fin n} {rpcCall : RPCCall Process}
    (h : (Cluster.bootstrapCall (t.node i).process.metaStore (address l)).run (t.node i).process =
      .ok rpcCall p) :
    t.joinCall text address i l =
      (t.setNode i { t.node i with process := p, joining := some rpcCall }).send text i rpcCall := by
  simp only [joinCall, h]

theorem serve_of_ok {request : Request n} {sent : Message}
    (h : (RPCServerWorkerPool.workBody text workerPool
      (some (identity request.endpoint request.sender :: request.frames))).run (t.node i).process =
        .ok (some sent) p) :
    t.serve text identity i request = { t.setNode i { t.node i with process := p } with
      replies := ⟨request.endpoint, sent⟩ :: t.replies } := by
  simp only [serve, h]

theorem joinEnd_of_ok {rpcCall : RPCCall Process} {receipt : Receipt}
    (h : (Cluster.bootstrapEnd text rpcCall receipt).run (t.node i).process = .ok () p) :
    t.joinEnd text i rpcCall receipt =
      t.setNode i { t.node i with process := p, joining := none } := by
  simp only [joinEnd, h]

theorem check_of_ok {callee : HostAndPort} {rest : List HostAndPort} {rpcCall : RPCCall Process}
    (other : ¬ (callee.host = (t.node i).process.metaStore.host ∧
      callee.port = (t.node i).process.metaStore.port))
    (h : (Health.checkCall callee).run (t.node i).process = .ok rpcCall p) :
    t.check text i (callee :: rest) = (t.setNode i { t.node i with
      process := p
      health := .awaiting rpcCall.calleeInfo rest }).send text i rpcCall := by
  simp only [check, if_neg other, h]

theorem checkEnd_of_ok {callee : HostAndPort} {rest : List HostAndPort} {outcome : CallOutcome}
    {given : Option Json}
    (h : (Health.awaitOutcome text (Health.callTo callee) outcome).run (t.node i).process =
      .ok given p) :
    t.checkEnd text i callee rest outcome =
      t.setNode i { t.node i with process := p, health := .checking rest } := by
  simp only [checkEnd, h]

end

/-- A step, with what it found before it and what it left. -/
inductive Moves (text : JsonText) (identity : String → Fin n → String)
    (address : Fin n → HostAndPort) (t : TurnNetwork n) : TurnStep n → TurnNetwork n → Prop where
  | joinCall (i l : Fin n) (free : (t.node i).joining = none) :
      Moves text identity address t (.joinCall i l) (t.joinCall text address i l)
  | serve (j : Fin n) (request : Request n) (sent : request ∈ t.requests)
      (own : request.endpoint = (address j).endpoint) :
      Moves text identity address t (.serve j request) (t.serve text identity j request)
  | joinEnd (i : Fin n) (receipt : Receipt) (rpcCall : RPCCall Process)
      (waiting : (t.node i).joining = some rpcCall)
      (possible : receipt.Possible identity t.replies i rpcCall.calleeInfo) :
      Moves text identity address t (.joinEnd i receipt) (t.joinEnd text i rpcCall receipt)
  | pass (i : Fin n) (asleep : (t.node i).health = .asleep) :
      Moves text identity address t (.pass i) (t.pass i)
  | check (i : Fin n) (rest : List HostAndPort) (checking : (t.node i).health = .checking rest) :
      Moves text identity address t (.check i) (t.check text i rest)
  | checkEnd (i : Fin n) (outcome : CallOutcome) (callee : HostAndPort) (rest : List HostAndPort)
      (awaiting : (t.node i).health = .awaiting callee rest)
      (possible : outcome.Possible identity t.replies i callee) :
      Moves text identity address t (.checkEnd i outcome) (t.checkEnd text i callee rest outcome)

theorem moves_of_step {text : JsonText} {identity : String → Fin n → String}
    {address : Fin n → HostAndPort} {t t' : TurnNetwork n} {turn : TurnStep n}
    (next : step text identity address t turn = some t') :
    Moves text identity address t turn t' := by
  cases turn with
  | joinCall i l =>
    simp only [step] at next
    split at next
    next free => cases next; exact .joinCall i l free
    next => cases next
  | serve j request =>
    simp only [step] at next
    split at next
    next taken => cases next; exact .serve j request taken.1 taken.2
    next => cases next
  | joinEnd i receipt =>
    simp only [step] at next
    split at next
    next rpcCall waiting =>
      split at next
      next possible => cases next; exact .joinEnd i receipt rpcCall waiting possible
      next => cases next
    next => cases next
  | pass i =>
    simp only [step] at next
    split at next
    next asleep => cases next; exact .pass i asleep
    next => cases next
  | check i =>
    simp only [step] at next
    split at next
    next rest checking => cases next; exact .check i rest checking
    next => cases next
  | checkEnd i outcome =>
    simp only [step] at next
    split at next
    next callee rest awaiting =>
      split at next
      next possible => cases next; exact .checkEnd i outcome callee rest awaiting possible
      next => cases next
    next => cases next

end TurnNetwork

namespace Network

/-! ## The simulation -/

section

variable (ok : TurnNode → TurnStep n → Prop) (text : JsonText) (identity : String → Fin n → String)
  (address : Fin n → HostAndPort) (t : TurnNetwork n) (i : Fin n)

/-- A thread of the node has begun a step of the abstract network, and has got so far. -/
inductive CarriesOut : NetworkNode → Prop where
  | joinCall {l : Fin n} {code : Code (RPCCall Process)} {p : Process}
      (allowed : ok (t.node i) (.joinCall i l)) (free : (t.node i).joining = none)
      (reaches : Thread.Reaches Access.perform (Cluster.Unlocked.bootstrapCall
        (t.node i).process.metaStore (address l)) (t.node i).process code p) :
      CarriesOut { (t.node i).atRest with process := p, main := .calling code }
  | serve {w : Fin NUM_WORKERS} {request : Request n} {code : Code (Option Message)} {p : Process}
      (allowed : ok (t.node i) (.serve i request)) (sent : request ∈ t.requests)
      (own : request.endpoint = (address i).endpoint)
      (reaches : Thread.Reaches Access.perform (IMQNode.Unlocked.workBody text
        (identity request.endpoint request.sender :: request.frames)) (t.node i).process code p) :
      CarriesOut
        ({ (t.node i).atRest with process := p }.setWorker w (some ⟨request.endpoint, code⟩))
  | joinEnd {receipt : Receipt} {rpcCall : RPCCall Process} {code : Code Unit} {p : Process}
      (allowed : ok (t.node i) (.joinEnd i receipt)) (waiting : (t.node i).joining = some rpcCall)
      (possible : receipt.Possible identity t.replies i rpcCall.calleeInfo)
      (reaches : Thread.Reaches Access.perform (Cluster.Unlocked.bootstrapEnd text rpcCall receipt)
        (t.node i).process code p) :
      CarriesOut { (t.node i).atRest with process := p, main := .taking code }
  | pass {code : Code (List HostAndPort)} {p : Process} (allowed : ok (t.node i) (.pass i))
      (asleep : (t.node i).health = .asleep)
      (reaches : Thread.Reaches Access.perform Cluster.Unlocked.getNodesInCluster
        (t.node i).process code p) :
      CarriesOut { (t.node i).atRest with process := p, health := .listing code }
  | check {callee : HostAndPort} {rest : List HostAndPort} {code : Code (RPCCall Process)}
      {p : Process} (allowed : ok (t.node i) (.check i))
      (checking : (t.node i).health = .checking (callee :: rest))
      (other : ¬ (callee.host = (t.node i).process.metaStore.host ∧
        callee.port = (t.node i).process.metaStore.port))
      (reaches : Thread.Reaches Access.perform (Health.Unlocked.checkCall callee)
        (t.node i).process code p) :
      CarriesOut { (t.node i).atRest with process := p, health := .calling rest code }
  | checkEnd {outcome : CallOutcome} {callee : HostAndPort} {rest : List HostAndPort}
      {code : Code Unit} {p : Process} (allowed : ok (t.node i) (.checkEnd i outcome))
      (awaiting : (t.node i).health = .awaiting callee rest)
      (possible : outcome.Possible identity t.replies i callee)
      (reaches : Thread.Reaches Access.perform (Health.Unlocked.awaitOutcome text callee outcome)
        (t.node i).process code p) :
      CarriesOut { (t.node i).atRest with process := p, health := .settling callee rest code }

end

section

variable (ok : TurnNode → TurnStep n → Prop) (text : JsonText) (identity : String → Fin n → String)
  (address : Fin n → HostAndPort)

/-- Each node is at rest, or carries out one step. -/
structure Sim (s : Network n) (t : TurnNetwork n) : Prop where
  node : ∀ i, s.node i = (t.node i).atRest ∨ CarriesOut ok text identity address t i (s.node i)
  requests : s.requests = t.requests
  replies : s.replies = t.replies
  thrown : s.thrown = t.thrown

end

section

variable {ok : TurnNode → TurnStep n → Prop} {text : JsonText} {identity : String → Fin n → String}
  {address : Fin n → HostAndPort} {s : Network n} {t t' : TurnNetwork n} {i : Fin n}
  {node : NetworkNode}

theorem sim_atRest (t : TurnNetwork n) : Sim ok text identity address t.atRest t :=
  ⟨fun _ => .inl rfl, rfl, rfl, rfl⟩

/-- Only the worker that carries out a step has a request. -/
theorem of_worker_setWorker {w w' : Fin NUM_WORKERS} {job job' : Job}
    (idle : ∀ w, node.worker w = none) (h : (node.setWorker w (some job)).worker w' = some job') :
    w = w' ∧ job = job' := by
  have h : Function.update node.worker w (some job) w' = some job' := h
  by_cases hw : w' = w
  · subst hw
    rw [Function.update_self] at h
    exact ⟨rfl, Option.some.inj h⟩
  · rw [Function.update_of_ne hw, idle] at h
    cases h

/-- A node that carries out a step is not at rest. -/
theorem CarriesOut.ne_atRest (h : CarriesOut ok text identity address t i node) (node' : TurnNode) :
    node ≠ node'.atRest := by
  intro he
  obtain ⟨p, joining, health⟩ := node'
  cases h with
  | @serve w request code p allowed sent own reaches =>
    have hworker := congrFun (congrArg NetworkNode.worker he) w
    rw [worker_setWorker_self] at hworker
    cases hworker
  | joinCall allowed free reaches =>
    have hmain := congrArg NetworkNode.main he
    cases joining <;> cases hmain
  | joinEnd allowed waiting possible reaches =>
    have hmain := congrArg NetworkNode.main he
    cases joining <;> cases hmain
  | pass allowed asleep reaches =>
    have hhealth := congrArg NetworkNode.health he
    cases health <;> cases hhealth
  | check allowed checking other reaches =>
    have hhealth := congrArg NetworkNode.health he
    cases health <;> cases hhealth
  | checkEnd allowed awaiting possible reaches =>
    have hhealth := congrArg NetworkNode.health he
    cases health <;> cases hhealth

theorem Sim.eq_of_atRest (h : Sim ok text identity address s t) {node : TurnNode}
    (rest : s.node i = node.atRest) : node = t.node i := by
  obtain hnode | carries := h.node i
  · exact TurnNode.atRest_injective (rest.symm.trans hnode)
  · exact absurd rest (carries.ne_atRest node)

/-! ### Which step a thread carries out -/

theorem Sim.of_calling (h : Sim ok text identity address s t) {code : Code (RPCCall Process)}
    (calling : (s.node i).main = .calling code) :
    ∃ l p, ok (t.node i) (.joinCall i l) ∧ (t.node i).joining = none ∧
      Thread.Reaches Access.perform (Cluster.Unlocked.bootstrapCall
        (t.node i).process.metaStore (address l)) (t.node i).process code p ∧
      s.node i = { (t.node i).atRest with process := p, main := .calling code } := by
  obtain rest | carries := h.node i
  · rw [rest] at calling
    exact (TurnNode.main_atRest_ne_calling _ _ calling).elim
  · generalize s.node i = node at carries calling ⊢
    cases carries with
    | joinCall allowed free reaches =>
      cases calling
      exact ⟨_, _, allowed, free, reaches, rfl⟩
    | joinEnd => cases calling
    | _ => exact (TurnNode.main_atRest_ne_calling _ _ calling).elim

theorem Sim.of_taking (h : Sim ok text identity address s t) {code : Code Unit}
    (taking : (s.node i).main = .taking code) :
    ∃ receipt rpcCall p, ok (t.node i) (.joinEnd i receipt) ∧
      (t.node i).joining = some rpcCall ∧
      receipt.Possible identity t.replies i rpcCall.calleeInfo ∧
      Thread.Reaches Access.perform (Cluster.Unlocked.bootstrapEnd text rpcCall receipt)
        (t.node i).process code p ∧
      s.node i = { (t.node i).atRest with process := p, main := .taking code } := by
  obtain rest | carries := h.node i
  · rw [rest] at taking
    exact (TurnNode.main_atRest_ne_taking _ _ taking).elim
  · generalize s.node i = node at carries taking ⊢
    cases carries with
    | joinEnd allowed waiting possible reaches =>
      cases taking
      exact ⟨_, _, _, allowed, waiting, possible, reaches, rfl⟩
    | joinCall => cases taking
    | _ => exact (TurnNode.main_atRest_ne_taking _ _ taking).elim

theorem Sim.of_working (h : Sim ok text identity address s t) {w : Fin NUM_WORKERS} {job : Job}
    (working : (s.node i).worker w = some job) :
    ∃ request code p, ok (t.node i) (.serve i request) ∧ request ∈ t.requests ∧
      request.endpoint = (address i).endpoint ∧
      Thread.Reaches Access.perform (IMQNode.Unlocked.workBody text
        (identity request.endpoint request.sender :: request.frames)) (t.node i).process code p ∧
      job = ⟨request.endpoint, code⟩ ∧
      s.node i = { (t.node i).atRest with process := p }.setWorker w (some job) := by
  obtain rest | carries := h.node i
  · rw [rest] at working
    cases working
  · generalize s.node i = node at carries working ⊢
    cases carries with
    | serve allowed sent own reaches =>
      obtain ⟨rfl, rfl⟩ := of_worker_setWorker (fun _ => rfl) working
      exact ⟨_, _, _, allowed, sent, own, reaches, rfl, rfl⟩
    | _ => cases working

theorem Sim.of_listing (h : Sim ok text identity address s t) {code : Code (List HostAndPort)}
    (listing : (s.node i).health = .listing code) :
    ∃ p, ok (t.node i) (.pass i) ∧ (t.node i).health = .asleep ∧
      Thread.Reaches Access.perform Cluster.Unlocked.getNodesInCluster
        (t.node i).process code p ∧
      s.node i = { (t.node i).atRest with process := p, health := .listing code } := by
  obtain rest | carries := h.node i
  · rw [rest] at listing
    exact (TurnNode.health_atRest_ne_listing _ _ listing).elim
  · generalize s.node i = node at carries listing ⊢
    cases carries with
    | pass allowed asleep reaches =>
      cases listing
      exact ⟨_, allowed, asleep, reaches, rfl⟩
    | check => cases listing
    | checkEnd => cases listing
    | _ => exact (TurnNode.health_atRest_ne_listing _ _ listing).elim

theorem Sim.of_checking (h : Sim ok text identity address s t) {rest : List HostAndPort}
    {code : Code (RPCCall Process)} (calling : (s.node i).health = .calling rest code) :
    ∃ callee p, ok (t.node i) (.check i) ∧ (t.node i).health = .checking (callee :: rest) ∧
      ¬ (callee.host = (t.node i).process.metaStore.host ∧
        callee.port = (t.node i).process.metaStore.port) ∧
      Thread.Reaches Access.perform (Health.Unlocked.checkCall callee) (t.node i).process code p ∧
      s.node i = { (t.node i).atRest with process := p, health := .calling rest code } := by
  obtain rest | carries := h.node i
  · rw [rest] at calling
    exact (TurnNode.health_atRest_ne_calling _ _ _ calling).elim
  · generalize s.node i = node at carries calling ⊢
    cases carries with
    | check allowed checking other reaches =>
      cases calling
      exact ⟨_, _, allowed, checking, other, reaches, rfl⟩
    | pass => cases calling
    | checkEnd => cases calling
    | _ => exact (TurnNode.health_atRest_ne_calling _ _ _ calling).elim

theorem Sim.of_settling (h : Sim ok text identity address s t) {callee : HostAndPort}
    {rest : List HostAndPort} {code : Code Unit}
    (settling : (s.node i).health = .settling callee rest code) :
    ∃ outcome p, ok (t.node i) (.checkEnd i outcome) ∧
      (t.node i).health = .awaiting callee rest ∧ outcome.Possible identity t.replies i callee ∧
      Thread.Reaches Access.perform (Health.Unlocked.awaitOutcome text callee outcome)
        (t.node i).process code p ∧
      s.node i = { (t.node i).atRest with process := p, health := .settling callee rest code } := by
  obtain rest | carries := h.node i
  · rw [rest] at settling
    exact (TurnNode.health_atRest_ne_settling _ _ _ _ settling).elim
  · generalize s.node i = node at carries settling ⊢
    cases carries with
    | checkEnd allowed awaiting possible reaches =>
      cases settling
      exact ⟨_, _, allowed, awaiting, possible, reaches, rfl⟩
    | pass => cases settling
    | check => cases settling
    | _ => exact (TurnNode.health_atRest_ne_settling _ _ _ _ settling).elim

/-! ### What does not disturb a step -/

theorem Arrives.mono {replies replies' : List Reply} (h : replies ⊆ replies') {callee : HostAndPort}
    {message : Message} (arrives : Arrives identity replies i callee message) :
    Arrives identity replies' i callee message := by
  obtain ⟨reply, hmem, harrives⟩ := arrives
  exact ⟨reply, h hmem, harrives⟩

theorem possible_receipt_mono {replies replies' : List Reply} (h : replies ⊆ replies')
    {callee : HostAndPort} {receipt : Receipt} (possible : receipt.Possible identity replies i callee) :
    receipt.Possible identity replies' i callee := by
  cases receipt with
  | received message => exact Arrives.mono h possible
  | timedOut => trivial
  | stopped => trivial

theorem possible_outcome_mono {replies replies' : List Reply} (h : replies ⊆ replies')
    {callee : HostAndPort} {outcome : CallOutcome}
    (possible : outcome.Possible identity replies i callee) :
    outcome.Possible identity replies' i callee := by
  cases outcome with
  | answered message => exact Arrives.mono h possible
  | timedOut => trivial
  | neither => trivial

theorem CarriesOut.mono (h : CarriesOut ok text identity address t i node)
    (same : t'.node i = t.node i) (requests : t.requests ⊆ t'.requests)
    (replies : t.replies ⊆ t'.replies) : CarriesOut ok text identity address t' i node := by
  cases h with
  | joinCall allowed free reaches =>
    rw [← same] at allowed free reaches ⊢
    exact .joinCall allowed free reaches
  | serve allowed sent own reaches =>
    rw [← same] at allowed reaches ⊢
    exact .serve allowed (requests sent) own reaches
  | joinEnd allowed waiting possible reaches =>
    rw [← same] at allowed waiting reaches ⊢
    exact .joinEnd allowed waiting (possible_receipt_mono replies possible) reaches
  | pass allowed asleep reaches =>
    rw [← same] at allowed asleep reaches ⊢
    exact .pass allowed asleep reaches
  | check allowed checking other reaches =>
    rw [← same] at allowed checking other reaches ⊢
    exact .check allowed checking other reaches
  | checkEnd allowed awaiting possible reaches =>
    rw [← same] at allowed awaiting reaches ⊢
    exact .checkEnd allowed awaiting (possible_outcome_mono replies possible) reaches

/-- A node begins or carries on a step. -/
theorem Sim.setNode_left (h : Sim ok text identity address s t)
    (carries : CarriesOut ok text identity address t i node) :
    Sim ok text identity address (s.setNode i node) t where
  node j := by
    by_cases hj : j = i
    · subst hj
      rw [node_setNode_self]
      exact .inr carries
    · rw [node_setNode_of_ne s hj]
      exact h.node j
  requests := h.requests
  replies := h.replies
  thrown := h.thrown

/-- A node has carried out a step. -/
theorem Sim.setNode (h : Sim ok text identity address s t) {node' : TurnNode}
    (rest : node = node'.atRest) :
    Sim ok text identity address (s.setNode i node) (t.setNode i node') where
  node j := by
    by_cases hj : j = i
    · subst hj
      rw [node_setNode_self, TurnNetwork.node_setNode_self]
      exact .inl rest
    · have hsame := TurnNetwork.node_setNode_of_ne t hj node'
      rw [node_setNode_of_ne s hj, hsame]
      exact (h.node j).imp_right fun carries => carries.mono hsame (fun _ => id) (fun _ => id)
  requests := h.requests
  replies := h.replies
  thrown := h.thrown

theorem Sim.send (h : Sim ok text identity address s t) (i : Fin n) (rpcCall : RPCCall Process) :
    Sim ok text identity address (s.send text i rpcCall) (t.send text i rpcCall) where
  node j := (h.node j).imp_right fun carries =>
    carries.mono rfl (List.subset_cons_self _ _) fun _ => id
  requests := congrArg _ h.requests
  replies := h.replies
  thrown := h.thrown

theorem Sim.respond (h : Sim ok text identity address s t) (reply : Reply) :
    Sim ok text identity address { s with replies := reply :: s.replies }
      { t with replies := reply :: t.replies } where
  node j := (h.node j).imp_right fun carries =>
    carries.mono rfl (fun _ => id) (List.subset_cons_self _ _)
  requests := h.requests
  replies := congrArg _ h.replies
  thrown := h.thrown

theorem Sim.throw (h : Sim ok text identity address s t) (thread : NodeThread) (e : Exn) :
    Sim ok text identity address (s.throw thread e) (t.throw thread e) where
  node j := (h.node j).imp_right fun carries => carries.mono rfl (fun _ => id) fun _ => id
  requests := h.requests
  replies := h.replies
  thrown := congrArg _ h.thrown

/-! ### Steps that begin or carry on a step -/

theorem Sim.main_access (h : Sim ok text identity address s t) {access : Access}
    {next : access.Answer → MainStage} (main : (s.node i).main.access = some ⟨access, next⟩) :
    Sim ok text identity address (s.setNode i { s.node i with
      process := (access.perform (s.node i).process).2
      main := next (access.perform (s.node i).process).1 }) t := by
  cases hstage : (s.node i).main with
  | calling code =>
    rw [hstage] at main
    cases code with
    | ended result => cases main
    | access access rest =>
      obtain ⟨l, p, allowed, free, reaches, hnode⟩ := h.of_calling hstage
      cases main
      apply h.setNode_left
      rw [hnode]
      exact .joinCall allowed free reaches.access
  | taking code =>
    rw [hstage] at main
    cases code with
    | ended result => cases main
    | access access rest =>
      obtain ⟨receipt, rpcCall, p, allowed, waiting, possible, reaches, hnode⟩ := h.of_taking hstage
      cases main
      apply h.setNode_left
      rw [hnode]
      exact .joinEnd allowed waiting possible reaches.access
  | free => rw [hstage] at main; cases main
  | waiting rpcCall => rw [hstage] at main; cases main

theorem Sim.health_access (h : Sim ok text identity address s t) {access : Access}
    {next : access.Answer → HealthStage}
    (health : (s.node i).health.access = some ⟨access, next⟩) :
    Sim ok text identity address (s.setNode i { s.node i with
      process := (access.perform (s.node i).process).2
      health := next (access.perform (s.node i).process).1 }) t := by
  cases hstage : (s.node i).health with
  | listing code =>
    rw [hstage] at health
    cases code with
    | ended result => cases health
    | access access rest =>
      obtain ⟨p, allowed, asleep, reaches, hnode⟩ := h.of_listing hstage
      cases health
      apply h.setNode_left
      rw [hnode]
      exact .pass allowed asleep reaches.access
  | calling nodes code =>
    rw [hstage] at health
    cases code with
    | ended result => cases health
    | access access rest =>
      obtain ⟨callee, p, allowed, checking, other, reaches, hnode⟩ := h.of_checking hstage
      cases health
      apply h.setNode_left
      rw [hnode]
      exact .check allowed checking other reaches.access
  | settling callee nodes code =>
    rw [hstage] at health
    cases code with
    | ended result => cases health
    | access access rest =>
      obtain ⟨outcome, p, allowed, awaiting, possible, reaches, hnode⟩ := h.of_settling hstage
      cases health
      apply h.setNode_left
      rw [hnode]
      exact .checkEnd allowed awaiting possible reaches.access
  | asleep => rw [hstage] at health; cases health
  | checking nodes => rw [hstage] at health; cases health
  | awaiting callee nodes => rw [hstage] at health; cases health
  | ended => rw [hstage] at health; cases health

theorem Sim.worker_access (h : Sim ok text identity address s t) {w : Fin NUM_WORKERS} {job : Job}
    (working : (s.node i).worker w = some job) {access : Access} {next : access.Answer → Job}
    (hjob : job.access = some ⟨access, next⟩) :
    Sim ok text identity address (s.setNode i ({ s.node i with
      process := (access.perform (s.node i).process).2 }.setWorker w
        (some (next (access.perform (s.node i).process).1)))) t := by
  obtain ⟨request, code, p, allowed, sent, own, reaches, rfl, hnode⟩ := h.of_working working
  cases code with
  | ended result => cases hjob
  | access access rest =>
    cases hjob
    apply h.setNode_left
    rw [hnode]
    have carries := CarriesOut.serve (w := w) allowed sent own reaches.access
    rw [← setWorker_setWorker _ w (some ⟨request.endpoint, .access access rest⟩)] at carries
    exact carries

/-! ### Steps that end a step -/

variable (ok text identity address) in
/-- The abstract network goes on to a state that the network is in. -/
def Follows (s : Network n) (t : TurnNetwork n) : Prop :=
  ∃ turns t', Run (TurnNetwork.step text identity address) (TurnNetwork.Allows ok) t turns t' ∧
    Sim ok text identity address s t'

theorem Sim.follows (h : Sim ok text identity address s t) : Follows ok text identity address s t :=
  ⟨[], t, .nil, h⟩

theorem follows_of_step (turn : TurnStep n) (allowed : ok (t.node turn.node) turn)
    (next : TurnNetwork.step text identity address t turn = some t')
    (h : Sim ok text identity address s t') : Follows ok text identity address s t :=
  ⟨[turn], t', Run.single (show t.Allows ok turn from allowed) next, h⟩

theorem Sim.main_called (h : Sim ok text identity address s t) {rpcCall : RPCCall Process}
    (main : (s.node i).main = .calling (.ended (.ok rpcCall))) :
    Follows ok text identity address
      ((s.setNode i { s.node i with main := .waiting rpcCall }).send text i rpcCall) t := by
  obtain ⟨l, p, allowed, free, reaches, hnode⟩ := h.of_calling main
  have hrun := Code.run_of_reaches reaches
  rw [Unlocked.run_bootstrapCall] at hrun
  have next : TurnNetwork.step text identity address t (.joinCall i l) = some ((t.setNode i
      { t.node i with process := p, joining := some rpcCall }).send text i rpcCall) := by
    simp only [TurnNetwork.step, free, TurnNetwork.joinCall_of_ok hrun]
  refine follows_of_step (.joinCall i l) allowed next ((h.setNode ?_).send i rpcCall)
  rw [hnode]
  rfl

theorem Sim.main_threw (h : Sim ok text identity address s t) {e : Exn}
    (main : (s.node i).main = .calling (.ended (.error e)) ∨
      (s.node i).main = .taking (.ended (.error e))) :
    Follows ok text identity address
      ((s.setNode i { s.node i with main := .free }).throw .main e) t := by
  obtain main | main := main
  · obtain ⟨l, p, allowed, free, reaches, hnode⟩ := h.of_calling main
    have hrun := Code.run_of_reaches reaches
    rw [Unlocked.run_bootstrapCall] at hrun
    have next : TurnNetwork.step text identity address t (.joinCall i l) =
        some ((t.setNode i { t.node i with process := p }).throw .main e) := by
      simp only [TurnNetwork.step, free, TurnNetwork.joinCall, hrun]
      rfl
    refine follows_of_step (.joinCall i l) allowed next ((h.setNode ?_).throw .main e)
    rw [hnode, TurnNode.atRest, TurnNode.atRest, free]
  · obtain ⟨receipt, rpcCall, p, allowed, waiting, possible, reaches, hnode⟩ := h.of_taking main
    have hrun := Code.run_of_reaches reaches
    rw [Unlocked.run_bootstrapEnd] at hrun
    have next : TurnNetwork.step text identity address t (.joinEnd i receipt) =
        some ((t.setNode i { t.node i with process := p, joining := none }).throw .main e) := by
      simp only [TurnNetwork.step, waiting, if_pos possible, TurnNetwork.joinEnd, hrun]
      rfl
    refine follows_of_step (.joinEnd i receipt) allowed next ((h.setNode ?_).throw .main e)
    rw [hnode]
    rfl

theorem Sim.main_taken (h : Sim ok text identity address s t)
    (main : (s.node i).main = .taking (.ended (.ok ()))) :
    Follows ok text identity address (s.setNode i { s.node i with main := .free }) t := by
  obtain ⟨receipt, rpcCall, p, allowed, waiting, possible, reaches, hnode⟩ := h.of_taking main
  have hrun := Code.run_of_reaches reaches
  rw [Unlocked.run_bootstrapEnd] at hrun
  have next : TurnNetwork.step text identity address t (.joinEnd i receipt) =
      some (t.setNode i { t.node i with process := p, joining := none }) := by
    simp only [TurnNetwork.step, waiting, if_pos possible, TurnNetwork.joinEnd_of_ok hrun]
  refine follows_of_step (.joinEnd i receipt) allowed next (h.setNode ?_)
  rw [hnode]
  rfl

theorem Sim.health_listed (h : Sim ok text identity address s t) {nodes : List HostAndPort}
    (health : (s.node i).health = .listing (.ended (.ok nodes))) :
    Follows ok text identity address (s.setNode i { s.node i with health := .checking nodes }) t := by
  obtain ⟨p, allowed, asleep, reaches, hnode⟩ := h.of_listing health
  have hrun := Code.run_of_reaches reaches
  rw [Cluster.Unlocked.run_getNodesInCluster] at hrun
  cases hrun
  have next : TurnNetwork.step text identity address t (.pass i) = some (t.pass i) := by
    simp only [TurnNetwork.step, asleep]
  refine follows_of_step (.pass i) allowed next (h.setNode ?_)
  rw [hnode]
  rfl

theorem Sim.health_called (h : Sim ok text identity address s t) {rest : List HostAndPort}
    {rpcCall : RPCCall Process} (health : (s.node i).health = .calling rest (.ended (.ok rpcCall))) :
    Follows ok text identity address ((s.setNode i { s.node i with
        health := .awaiting rpcCall.calleeInfo rest }).send text i rpcCall) t := by
  obtain ⟨callee, p, allowed, checking, other, reaches, hnode⟩ := h.of_checking health
  have hrun := Code.run_of_reaches reaches
  rw [Health.Unlocked.run_checkCall] at hrun
  have next : TurnNetwork.step text identity address t (.check i) = some ((t.setNode i
      { t.node i with process := p, health := .awaiting rpcCall.calleeInfo rest }).send text i
        rpcCall) := by
    simp only [TurnNetwork.step, checking, TurnNetwork.check_of_ok other hrun]
  refine follows_of_step (.check i) allowed next ((h.setNode ?_).send i rpcCall)
  rw [hnode]
  rfl

theorem Sim.health_settled (h : Sim ok text identity address s t) {callee : HostAndPort}
    {rest : List HostAndPort} (health : (s.node i).health = .settling callee rest (.ended (.ok ()))) :
    Follows ok text identity address (s.setNode i { s.node i with health := .checking rest }) t := by
  obtain ⟨outcome, p, allowed, awaiting, possible, reaches, hnode⟩ := h.of_settling health
  have hrun := Code.run_of_reaches reaches
  rw [Health.Unlocked.run_awaitOutcome, EStateM.run_bind] at hrun
  cases hawait : (Health.awaitOutcome text (Health.callTo callee) outcome).run
      (t.node i).process with
  | error e q => rw [hawait] at hrun; cases hrun
  | ok given q =>
    rw [hawait] at hrun
    cases hrun
    have next : TurnNetwork.step text identity address t (.checkEnd i outcome) =
        some (t.setNode i { t.node i with process := p, health := .checking rest }) := by
      simp only [TurnNetwork.step, awaiting, if_pos possible, TurnNetwork.checkEnd_of_ok hawait]
    refine follows_of_step (.checkEnd i outcome) allowed next (h.setNode ?_)
    rw [hnode]
    rfl

theorem Sim.health_threw (h : Sim ok text identity address s t) {e : Exn}
    (health : (s.node i).health = .listing (.ended (.error e)) ∨
      (∃ rest, (s.node i).health = .calling rest (.ended (.error e))) ∨
      ∃ callee rest, (s.node i).health = .settling callee rest (.ended (.error e))) :
    Follows ok text identity address
      ((s.setNode i { s.node i with health := .ended }).throw .health e) t := by
  obtain health | ⟨rest, health⟩ | ⟨callee, rest, health⟩ := health
  · -- Nothing is thrown while the snapshot is taken.
    obtain ⟨p, allowed, asleep, reaches, hnode⟩ := h.of_listing health
    have hrun := Code.run_of_reaches reaches
    rw [Cluster.Unlocked.run_getNodesInCluster] at hrun
    cases hrun
  · obtain ⟨callee, p, allowed, checking, other, reaches, hnode⟩ := h.of_checking health
    have hrun := Code.run_of_reaches reaches
    rw [Health.Unlocked.run_checkCall] at hrun
    have next : TurnNetwork.step text identity address t (.check i) =
        some ((t.setNode i { t.node i with process := p, health := .ended }).throw .health e) := by
      simp only [TurnNetwork.step, checking, TurnNetwork.check, if_neg other, hrun]
      rfl
    refine follows_of_step (.check i) allowed next ((h.setNode ?_).throw .health e)
    rw [hnode]
    rfl
  · obtain ⟨outcome, p, allowed, awaiting, possible, reaches, hnode⟩ := h.of_settling health
    have hrun := Code.run_of_reaches reaches
    rw [Health.Unlocked.run_awaitOutcome, EStateM.run_bind] at hrun
    cases hawait : (Health.awaitOutcome text (Health.callTo callee) outcome).run
        (t.node i).process with
    | ok given q => rw [hawait] at hrun; cases hrun
    | error e' q =>
      rw [hawait] at hrun
      cases hrun
      have next : TurnNetwork.step text identity address t (.checkEnd i outcome) =
          some ((t.setNode i { t.node i with process := p, health := .ended }).throw .health e) := by
        simp only [TurnNetwork.step, awaiting, if_pos possible, TurnNetwork.checkEnd, hawait]
      refine follows_of_step (.checkEnd i outcome) allowed next ((h.setNode ?_).throw .health e)
      rw [hnode]
      rfl

theorem setWorker_atRest (node : TurnNode) (p : Process) (w : Fin NUM_WORKERS) (job : Option Job) :
    ({ node.atRest with process := p }.setWorker w job).setWorker w none =
      { node with process := p }.atRest := by
  rw [setWorker_setWorker, setWorker_none rfl]
  rfl

theorem Sim.worker_ended (h : Sim ok text identity address s t) {w : Fin NUM_WORKERS}
    {endpoint : String} {r : Except Exn (Option Message)}
    (working : (s.node i).worker w = some ⟨endpoint, .ended r⟩) :
    Follows ok text identity address (match r with
      | .ok (some sent) => { s.setNode i ((s.node i).setWorker w none) with
          replies := ⟨endpoint, sent⟩ :: s.replies }
      | .ok none => s.setNode i ((s.node i).setWorker w none)
      | .error e => (s.setNode i ((s.node i).setWorker w none)).throw .worker e) t := by
  obtain ⟨request, code, p, allowed, sent, own, reaches, hjob, hnode⟩ := h.of_working working
  cases hjob
  have hrun := Code.run_of_reaches reaches
  rw [IMQNode.Unlocked.run_workBody] at hrun
  have hrest : (s.node i).setWorker w none = { t.node i with process := p }.atRest := by
    rw [hnode]
    exact setWorker_atRest ..
  have next : TurnNetwork.step text identity address t (.serve i request) =
      some (t.serve text identity i request) := by
    simp only [TurnNetwork.step, if_pos (And.intro sent own)]
  refine follows_of_step (.serve i request) allowed next ?_
  obtain e | _ | message := r
  · simp only [TurnNetwork.serve, hrun]
    exact (h.setNode hrest).throw .worker e
  · simp only [TurnNetwork.serve, hrun]
    exact h.setNode hrest
  · simp only [TurnNetwork.serve, hrun]
    exact (h.setNode hrest).respond ⟨request.endpoint, message⟩

/-! ### All steps -/

/-- A node that begins a step is at rest, and may take the step. -/
theorem Sim.of_begins (h : Sim ok text identity address s t) {label : NetworkStep n}
    {turn : TurnStep n} (turns : s.TakesTurns ok label) (begins : label.begins = some turn)
    (own : turn.node = i) : s.node i = (t.node i).atRest ∧ ok (t.node i) turn := by
  obtain ⟨node, rest, allowed⟩ := turns turn begins
  rw [own] at rest
  obtain rfl := h.eq_of_atRest rest
  exact ⟨rest, allowed⟩

/-- Every step of a network whose threads take turns begins, carries on or ends a step of the
    abstract network. -/
theorem sim_step {s' : Network n} {label : NetworkStep n} (h : Sim ok text identity address s t)
    (turns : s.TakesTurns ok label) (next : step text identity address s label = some s') :
    Follows ok text identity address s' t := by
  cases moves_of_step next with
  -- What begins finds its node at rest, and the abstract network waits until it ends.
  | joinCall i l free =>
    obtain ⟨rest, allowed⟩ := h.of_begins (i := i) turns rfl rfl
    rw [rest] at free ⊢
    exact (h.setNode_left (.joinCall allowed (TurnNode.joining_of_free free) .refl)).follows
  | serve j w request idle sent own =>
    obtain ⟨rest, allowed⟩ := h.of_begins (i := j) turns rfl rfl
    rw [rest]
    rw [h.requests] at sent
    exact (h.setNode_left (.serve allowed sent own .refl)).follows
  | joinEnd i receipt rpcCall waiting possible =>
    obtain ⟨rest, allowed⟩ := h.of_begins (i := i) turns rfl rfl
    rw [rest] at waiting ⊢
    rw [h.replies] at possible
    exact (h.setNode_left
      (.joinEnd allowed (TurnNode.joining_of_waiting waiting) possible .refl)).follows
  | pass i asleep =>
    obtain ⟨rest, allowed⟩ := h.of_begins (i := i) turns rfl rfl
    rw [rest] at asleep ⊢
    exact (h.setNode_left (.pass allowed (CheckPhase.stage_injective asleep) .refl)).follows
  -- These two run no code: the abstract network takes its step at once.
  | passed i checking =>
    obtain ⟨rest, allowed⟩ := h.of_begins (i := i) turns rfl rfl
    rw [rest] at checking ⊢
    have hchecking : (t.node i).health = .checking [] := CheckPhase.stage_injective checking
    refine follows_of_step (.check i) allowed (by simp only [TurnNetwork.step, hchecking]; rfl)
      (h.setNode ?_)
    rfl
  | checkSelf i callee nodes checking own =>
    obtain ⟨rest, allowed⟩ := h.of_begins (i := i) turns rfl rfl
    rw [rest] at checking own ⊢
    have hchecking : (t.node i).health = .checking (callee :: nodes) :=
      CheckPhase.stage_injective checking
    have next : TurnNetwork.step text identity address t (.check i) =
        some (t.setNode i { t.node i with health := .checking nodes }) := by
      simp only [TurnNetwork.step, hchecking]
      exact congrArg some (if_pos own)
    refine follows_of_step (.check i) allowed next (h.setNode ?_)
    rfl
  | check i callee nodes checking other =>
    obtain ⟨rest, allowed⟩ := h.of_begins (i := i) turns rfl rfl
    rw [rest] at checking other ⊢
    exact (h.setNode_left
      (.check allowed (CheckPhase.stage_injective checking) other .refl)).follows
  | checkEnd i outcome callee nodes awaiting possible =>
    obtain ⟨rest, allowed⟩ := h.of_begins (i := i) turns rfl rfl
    rw [rest] at awaiting ⊢
    rw [h.replies] at possible
    exact (h.setNode_left
      (.checkEnd allowed (CheckPhase.stage_injective awaiting) possible .refl)).follows
  -- The rest carries on or ends what one thread of the node has begun.
  | mainAccess i access next main => exact (h.main_access main).follows
  | mainCalled i rpcCall main => exact h.main_called main
  | mainTaken i main => exact h.main_taken main
  | mainThrew i e main => exact h.main_threw main
  | healthAccess i access next health => exact (h.health_access health).follows
  | healthListed i nodes health => exact h.health_listed health
  | healthCalled i rest rpcCall health => exact h.health_called health
  | healthSettled i callee rest health => exact h.health_settled health
  | healthThrew i e health => exact h.health_threw health
  | workerAccess j w job access next working code => exact (h.worker_access working code).follows
  | workerReplied j w endpoint sent working => exact h.worker_ended working
  | workerSilent j w endpoint working => exact h.worker_ended working
  | workerThrew j w endpoint e working => exact h.worker_ended working

/-! ## The steps of the abstract network -/

theorem takesTurns_of_goesOn {label : NetworkStep n} (goesOn : label.begins = none)
    (s : Network n) : s.TakesTurns ok label := by
  intro turn begins
  rw [goesOn] at begins
  cases begins

theorem takesTurns_atRest {label : NetworkStep n} {turn : TurnStep n}
    (begins : label.begins = some turn) (allowed : t.Allows ok turn) :
    t.atRest.TakesTurns ok label := by
  intro turn' begins'
  rw [begins] at begins'
  cases begins'
  exact ⟨t.node turn.node, rfl, allowed⟩

variable (text address) in
theorem atRest_joinCall (free : (t.node i).joining = none) (l : Fin n) :
    (t.joinCall text address i l).atRest = t.atRest.afterJoinCall text i
      ((Cluster.bootstrapCall (t.node i).process.metaStore (address l)).run (t.node i).process) := by
  cases hrun : (Cluster.bootstrapCall (t.node i).process.metaStore (address l)).run
      (t.node i).process with
  | ok rpcCall p =>
    rw [TurnNetwork.joinCall_of_ok hrun]
    exact congrArg (fun s => s.send text i rpcCall) (TurnNetwork.atRest_setNode ..)
  | error e p =>
    simp only [TurnNetwork.joinCall, hrun]
    refine congrArg (fun s => s.throw .main e) ((TurnNetwork.atRest_setNode ..).trans ?_)
    rw [TurnNode.atRest, free]
    rfl

variable (text) in
theorem atRest_joinEnd (rpcCall : RPCCall Process) (receipt : Receipt) :
    (t.joinEnd text i rpcCall receipt).atRest = t.atRest.afterJoinEnd i
      ((Cluster.bootstrapEnd text rpcCall receipt).run (t.node i).process) := by
  cases hrun : (Cluster.bootstrapEnd text rpcCall receipt).run (t.node i).process with
  | ok _ p =>
    rw [TurnNetwork.joinEnd_of_ok hrun]
    exact TurnNetwork.atRest_setNode ..
  | error e p =>
    simp only [TurnNetwork.joinEnd, hrun]
    exact congrArg (fun s => s.throw .main e) (TurnNetwork.atRest_setNode ..)

variable (text identity) in
theorem atRest_serve (w : Fin NUM_WORKERS) (request : Request n) :
    (t.serve text identity i request).atRest = t.atRest.afterServe i w request.endpoint
      ((RPCServerWorkerPool.workBody text workerPool
        (some (identity request.endpoint request.sender :: request.frames))).run
          (t.node i).process) := by
  have hnode : ∀ p, (t.setNode i { t.node i with process := p }).atRest =
      t.atRest.setNode i ({ (t.node i).atRest with process := p }.setWorker w none) := by
    intro p
    rw [TurnNetwork.atRest_setNode, setWorker_none rfl]
    rfl
  rcases hrun : (RPCServerWorkerPool.workBody text workerPool
      (some (identity request.endpoint request.sender :: request.frames))).run
        (t.node i).process with ⟨_ | sent, p⟩ | ⟨e, p⟩
  · simp only [TurnNetwork.serve, hrun]
    exact hnode p
  · rw [TurnNetwork.serve_of_ok hrun]
    exact congrArg (fun s : Network n => { s with
      replies := ⟨request.endpoint, sent⟩ :: t.replies }) (hnode p)
  · simp only [TurnNetwork.serve, hrun]
    exact congrArg (fun s => s.throw .worker e) (hnode p)

variable (text) in
theorem atRest_check {callee : HostAndPort} {rest : List HostAndPort}
    (other : ¬ (callee.host = (t.node i).process.metaStore.host ∧
      callee.port = (t.node i).process.metaStore.port)) :
    (t.check text i (callee :: rest)).atRest = t.atRest.afterCheck text i rest
      ((Health.checkCall callee).run (t.node i).process) := by
  cases hrun : (Health.checkCall callee).run (t.node i).process with
  | ok rpcCall p =>
    rw [TurnNetwork.check_of_ok other hrun]
    exact congrArg (fun s => s.send text i rpcCall) (TurnNetwork.atRest_setNode ..)
  | error e p =>
    simp only [TurnNetwork.check, if_neg other, hrun]
    exact congrArg (fun s => s.throw .health e) (TurnNetwork.atRest_setNode ..)

variable (text) in
theorem atRest_checkEnd (callee : HostAndPort) (rest : List HostAndPort) (outcome : CallOutcome) :
    (t.checkEnd text i callee rest outcome).atRest = t.atRest.afterCheckEnd i rest
      ((Health.awaitOutcome text (Health.callTo callee) outcome).run (t.node i).process) := by
  cases hrun : (Health.awaitOutcome text (Health.callTo callee) outcome).run
      (t.node i).process with
  | ok _ p =>
    rw [TurnNetwork.checkEnd_of_ok hrun]
    exact TurnNetwork.atRest_setNode ..
  | error e p =>
    simp only [TurnNetwork.checkEnd, hrun]
    exact congrArg (fun s => s.throw .health e) (TurnNetwork.atRest_setNode ..)

/-- What `check` does is one step, if no code runs for it, or a call. -/
theorem exists_run_turn_check {rest : List HostAndPort}
    (checking : (t.node i).health = .checking rest) (turns : t.atRest.TakesTurns ok (.check i)) :
    ∃ labels, Run (step text identity address) (TakesTurns ok) t.atRest labels
      (t.check text i rest).atRest := by
  have hchecking : (t.node i).atRest.health = .checking rest := by
    rw [TurnNode.atRest, checking]
    rfl
  cases rest with
  | nil =>
    refine ⟨[.check i], Run.single turns ?_⟩
    rw [TurnNetwork.check, TurnNetwork.atRest_setNode]
    simp only [step, TurnNetwork.atRest, hchecking]
    rfl
  | cons callee rest =>
    by_cases own : callee.host = (t.node i).process.metaStore.host ∧
        callee.port = (t.node i).process.metaStore.port
    · refine ⟨[.check i], Run.single turns ?_⟩
      rw [TurnNetwork.check, if_pos own, TurnNetwork.atRest_setNode]
      simp only [step, TurnNetwork.atRest, hchecking]
      exact if_pos own
    · obtain ⟨k, run⟩ := exists_run_check text identity address (TakesTurns ok)
        (takesTurns_of_goesOn rfl) turns hchecking own
      refine ⟨.check i :: List.replicate k (.health i), ?_⟩
      rw [atRest_check text own]
      exact run

/-- Every step of the abstract network is a run of a network whose threads take turns: the
    thread begins, and makes all its accesses before any other thread goes on. -/
theorem exists_run_turn {turn : TurnStep n} (allowed : t.Allows ok turn)
    (next : TurnNetwork.step text identity address t turn = some t') :
    ∃ labels, Run (step text identity address) (TakesTurns ok) t.atRest labels t'.atRest := by
  have begins : ∀ {label : NetworkStep n}, label.begins = some turn →
      t.atRest.TakesTurns ok label := fun begins => takesTurns_atRest begins allowed
  cases TurnNetwork.moves_of_step next with
  | joinCall i l free =>
    have hfree : (t.node i).atRest.main = .free := by rw [TurnNode.atRest, free]
    obtain ⟨k, run⟩ := exists_run_joinCall text identity address (TakesTurns ok)
      (takesTurns_of_goesOn rfl) (begins rfl) hfree
    refine ⟨.joinCall i l :: List.replicate k (.main i), ?_⟩
    rw [atRest_joinCall text address free]
    exact run
  | serve j request sent own =>
    -- Any worker will do, and the first is idle.
    obtain ⟨k, run⟩ := exists_run_serve (w := 0) text identity address (TakesTurns ok)
      (takesTurns_of_goesOn rfl) (begins rfl) rfl sent own
    refine ⟨.serve j 0 request :: List.replicate k (.worker j 0), ?_⟩
    rw [atRest_serve text identity 0]
    exact run
  | joinEnd i receipt rpcCall waiting possible =>
    have hwaiting : (t.node i).atRest.main = .waiting rpcCall := by rw [TurnNode.atRest, waiting]
    obtain ⟨k, run⟩ := exists_run_joinEnd text identity address (TakesTurns ok)
      (takesTurns_of_goesOn rfl) (begins rfl) hwaiting possible
    refine ⟨.joinEnd i receipt :: List.replicate k (.main i), ?_⟩
    rw [atRest_joinEnd]
    exact run
  | pass i asleep =>
    have hasleep : (t.node i).atRest.health = .asleep := by rw [TurnNode.atRest, asleep]; rfl
    obtain ⟨k, run⟩ := exists_run_snapshot text identity address (TakesTurns ok)
      (takesTurns_of_goesOn rfl) (begins rfl) hasleep
    refine ⟨.pass i :: List.replicate k (.health i), ?_⟩
    rw [TurnNetwork.pass, TurnNetwork.atRest_setNode]
    exact run
  | check i rest checking => exact exists_run_turn_check checking (begins rfl)
  | checkEnd i outcome callee rest awaiting possible =>
    have hawaiting : (t.node i).atRest.health = .awaiting callee rest := by
      rw [TurnNode.atRest, awaiting]
      rfl
    obtain ⟨k, run⟩ := exists_run_checkEnd text identity address (TakesTurns ok)
      (fun s _ _ => takesTurns_of_goesOn rfl s) (begins rfl) hawaiting possible
    refine ⟨.checkEnd i outcome :: List.replicate k (.health i), ?_⟩
    rw [atRest_checkEnd]
    exact run

/-! ## The same states -/

theorem sim_of_run {labels : List (NetworkStep n)}
    (run : Run (step text identity address) (TakesTurns ok) t.atRest labels s) :
    Follows ok text identity address s t :=
  run.simulate (fun _ _ _ _ h turns next => sim_step h turns next) (sim_atRest t)

theorem exists_run_turns {turns : List (TurnStep n)}
    (run : Run (TurnNetwork.step text identity address) (TurnNetwork.Allows ok) t turns t') :
    ∃ labels, Run (step text identity address) (TakesTurns ok) t.atRest labels t'.atRest := by
  obtain ⟨labels, _, hrun, rfl⟩ := run.simulate (R := fun t s => s = t.atRest)
    (fun t turn t' _ h allowed next => by
      obtain ⟨labels, hrun⟩ := exists_run_turn allowed next
      exact ⟨labels, _, h ▸ hrun, rfl⟩) rfl
  exact ⟨labels, hrun⟩

theorem TakesTurns.joinsOther (allows : ∀ node turn, ok node turn → node.JoinsOther turn)
    {label : NetworkStep n} (turns : s.TakesTurns ok label) : s.JoinsOther label := by
  cases label with
  | joinCall i l =>
    obtain ⟨node, _, allowed⟩ := turns _ rfl
    exact allows node _ allowed
  | _ => trivial

/-- So the invariant of the network holds in the abstract one. -/
theorem inv_of_turns {format : FloatFormat} (addresses : Addresses address)
    (allows : ∀ node turn, ok node turn → node.JoinsOther turn) {turns : List (TurnStep n)}
    (run : Run (TurnNetwork.step (.ofFormat format) identity address) (TurnNetwork.Allows ok)
      (TurnNetwork.initial address) turns t) :
    Inv (.ofFormat format) address (fun _ _ => True) t.atRest := by
  obtain ⟨labels, hrun⟩ := exists_run_turns run
  have links : Equivalence fun _ _ : Fin n => True :=
    ⟨fun _ => trivial, fun _ => trivial, fun _ _ => trivial⟩
  exact inv_of_run addresses links (hrun.mono fun _ _ turns => turns.joinsOther allows)
    fun _ _ _ => trivial

theorem Sim.eq_atRest (h : Sim ok text identity address s t)
    (rest : ∀ i, s.Rests i) : s = t.atRest := by
  obtain ⟨node, requests, replies, thrown⟩ := s
  obtain rfl : node = fun i => (t.node i).atRest := by
    funext i
    obtain ⟨node', hnode⟩ := rest i
    rw [← h.eq_of_atRest hnode]
    exact hnode
  obtain rfl : requests = t.requests := h.requests
  obtain rfl : replies = t.replies := h.replies
  obtain rfl : thrown = t.thrown := h.thrown
  rfl

theorem ended_of_update {s' : Network n} (after : TurnNode)
    (h : s'.node = Function.update s.node i node) (rest : node = after.atRest) :
    s'.Rests i ∧ ∀ j, j ≠ i → s'.node j = s.node j := by
  refine ⟨⟨after, ?_⟩, fun j hj => ?_⟩
  · rw [h, Function.update_self, rest]
  · rw [h, Function.update_of_ne hj]

/-- A thread that has begun something can end it. -/
theorem exists_run_ended (h : Sim ok text identity address s t) (i : Fin n) :
    ∃ labels s', Run (step text identity address) (TakesTurns ok) s labels s' ∧
      s'.Rests i ∧ ∀ j, j ≠ i → s'.node j = s.node j := by
  obtain rest | carries := h.node i
  · exact ⟨[], s, .nil, ⟨_, rest⟩, fun _ _ => rfl⟩
  -- One thread of the node is in the middle of its code, and only this one makes accesses.
  generalize hnode : s.node i = node at carries
  cases carries with
  | @joinCall l code p allowed free reaches =>
    obtain ⟨k, run⟩ := exists_run_calling (s := s) (i := i) text identity address (TakesTurns ok)
      (takesTurns_of_goesOn rfl) (by rw [hnode])
    refine ⟨_, _, run, ?_⟩
    rw [hnode]
    cases (Code.run code).run p with
    | ok rpcCall q =>
      exact ended_of_update { t.node i with process := q, joining := some rpcCall } rfl
        (by rw [hnode]; rfl)
    | error e q =>
      exact ended_of_update { t.node i with process := q, joining := none } rfl
        (by rw [hnode]; rfl)
  | @serve w request code p allowed sent own reaches =>
    obtain ⟨k, run⟩ := exists_run_working (s := s) (i := i) (w := w) text identity address
      (TakesTurns ok) (takesTurns_of_goesOn rfl) (by rw [hnode]; exact worker_setWorker_self ..)
    refine ⟨_, _, run, ?_⟩
    have hended : ∀ q, ({ s.node i with process := q } : NetworkNode).setWorker w none =
        { t.node i with process := q }.atRest := by
      intro q
      rw [hnode]
      exact setWorker_atRest (t.node i) q w _
    rcases (Code.run code).run (s.node i).process with ⟨_ | sent, q⟩ | ⟨e, q⟩ <;>
      exact ended_of_update { t.node i with process := q } rfl (hended q)
  | @joinEnd receipt rpcCall code p allowed waiting possible reaches =>
    obtain ⟨k, run⟩ := exists_run_taking (s := s) (i := i) text identity address (TakesTurns ok)
      (takesTurns_of_goesOn rfl) (by rw [hnode])
    refine ⟨_, _, run, ?_⟩
    cases (Code.run code).run (s.node i).process with
    | ok _ q | error e q =>
      exact ended_of_update { t.node i with process := q, joining := none } rfl
        (by rw [hnode]; rfl)
  | @pass code p allowed asleep reaches =>
    obtain ⟨k, run⟩ := exists_run_listing (s := s) (i := i) text identity address (TakesTurns ok)
      (takesTurns_of_goesOn rfl) (by rw [hnode])
    refine ⟨_, _, run, ?_⟩
    cases (Code.run code).run (s.node i).process with
    | ok nodes q =>
      exact ended_of_update { t.node i with process := q, health := .checking nodes } rfl
        (by rw [hnode]; rfl)
    | error e q =>
      exact ended_of_update { t.node i with process := q, health := .ended } rfl
        (by rw [hnode]; rfl)
  | @check callee rest code p allowed checking other reaches =>
    obtain ⟨k, run⟩ := exists_run_checking (s := s) (i := i) text identity address (TakesTurns ok)
      (takesTurns_of_goesOn rfl) (by rw [hnode])
    refine ⟨_, _, run, ?_⟩
    cases (Code.run code).run (s.node i).process with
    | ok rpcCall q =>
      exact ended_of_update
        { t.node i with process := q, health := .awaiting rpcCall.calleeInfo rest } rfl
        (by rw [hnode]; rfl)
    | error e q =>
      exact ended_of_update { t.node i with process := q, health := .ended } rfl
        (by rw [hnode]; rfl)
  | @checkEnd outcome callee rest code p allowed awaiting possible reaches =>
    obtain ⟨k, run⟩ := exists_run_settling (s := s) (i := i) text identity address (TakesTurns ok)
      (fun s _ _ => takesTurns_of_goesOn rfl s) (by rw [hnode])
    refine ⟨_, _, run, ?_⟩
    cases (Code.run code).run (s.node i).process with
    | ok _ q =>
      exact ended_of_update { t.node i with process := q, health := .checking rest } rfl
        (by rw [hnode]; rfl)
    | error e q =>
      exact ended_of_update { t.node i with process := q, health := .ended } rfl
        (by rw [hnode]; rfl)

/-- All threads can end what they have begun. -/
theorem exists_run_atRest (h : Sim ok text identity address s t) :
    ∃ labels turns t', Run (step text identity address) (TakesTurns ok) s labels t'.atRest ∧
      Run (TurnNetwork.step text identity address) (TurnNetwork.Allows ok) t turns t' := by
  have reach : ∀ i s, Follows ok text identity address s t → ∃ labels s',
      Run (step text identity address) (TakesTurns ok) s labels s' ∧
        Follows ok text identity address s' t ∧ s'.Rests i ∧ ∀ j, s.Rests j → s'.Rests j := by
    intro i s ⟨turns, t', before, h⟩
    obtain ⟨labels, s', run, ended, hothers⟩ := exists_run_ended h i
    obtain ⟨turns', t'', after, h'⟩ :=
      run.simulate (fun _ _ _ _ h turns next => sim_step h turns next) h
    refine ⟨labels, s', run, ⟨_, t'', before.append after, h'⟩, ended, fun j hj => ?_⟩
    by_cases hji : j = i
    · rw [hji]
      exact ended
    · obtain ⟨node, hnode⟩ := hj
      exact ⟨node, (hothers j hji).trans hnode⟩
  obtain ⟨labels, s', run, ⟨turns, t', run', h'⟩, hall⟩ :=
    Run.exists_forall reach (List.finRange n) h.follows
  obtain rfl := h'.eq_atRest fun i => hall i (List.mem_finRange i)
  exact ⟨labels, turns, t', run, run'⟩

/-- Whatever is allowed to the nodes at the beginning of what their threads do: the states in
    which no thread is in the middle of its code are reached by a network whose threads take
    turns exactly if the abstract network reaches them, and from every other state that such
    a network reaches, all threads can get to one of these. -/
theorem turns_exact (ok : TurnNode → TurnStep n → Prop) (text : JsonText)
    (identity : String → Fin n → String) (address : Fin n → HostAndPort) :
    (∀ t, (∃ labels, Run (step text identity address) (TakesTurns ok) (initial address) labels
        (TurnNetwork.atRest t)) ↔
      ∃ turns, Run (TurnNetwork.step text identity address) (TurnNetwork.Allows ok)
        (TurnNetwork.initial address) turns t) ∧
    ∀ labels s, Run (step text identity address) (TakesTurns ok) (initial address) labels s →
      ∃ labels' t turns, Run (step text identity address) (TakesTurns ok) s labels'
          (TurnNetwork.atRest t) ∧
        Run (TurnNetwork.step text identity address) (TurnNetwork.Allows ok)
          (TurnNetwork.initial address) turns t := by
  have hinitial : initial address = (TurnNetwork.initial address).atRest := rfl
  rw [hinitial]
  refine ⟨fun t => ⟨fun ⟨labels, run⟩ => ?_, fun ⟨turns, run⟩ => exists_run_turns run⟩,
    fun labels s run => ?_⟩
  · obtain ⟨turns, t', run', h⟩ := sim_of_run run
    obtain rfl := TurnNetwork.atRest_injective (h.eq_atRest fun i => ⟨_, rfl⟩)
    exact ⟨turns, run'⟩
  · obtain ⟨turns, t, before, h⟩ := sim_of_run run
    obtain ⟨labels', turns', t', run', after⟩ := exists_run_atRest h
    exact ⟨labels', t', turns ++ turns', run', before.append after⟩

end

/-- A join has been called in both networks, and is being called in one. -/
theorem turns_exact_joinCall :
    ∃ t labels s labels' t' turns,
      Run (TurnNetwork.step (.ofFormat Json.noFloats) (fun _ _ => "client") twoNodes)
        (TurnNetwork.Allows TurnNode.JoinsOther) (TurnNetwork.initial twoNodes) [.joinCall 0 1] t ∧
      t.requests.length = 1 ∧
      Run (step (.ofFormat Json.noFloats) (fun _ _ => "client") twoNodes)
        (TakesTurns TurnNode.JoinsOther) (initial twoNodes) labels t.atRest ∧
      Run (step (.ofFormat Json.noFloats) (fun _ _ => "client") twoNodes)
        (TakesTurns TurnNode.JoinsOther) (initial twoNodes) [.joinCall 0 1] s ∧ ¬ s.Rests 0 ∧
      Run (step (.ofFormat Json.noFloats) (fun _ _ => "client") twoNodes)
        (TakesTurns TurnNode.JoinsOther) s labels' (TurnNetwork.atRest t') ∧
      Run (TurnNetwork.step (.ofFormat Json.noFloats) (fun _ _ => "client") twoNodes)
        (TurnNetwork.Allows TurnNode.JoinsOther) (TurnNetwork.initial twoNodes) turns t' := by
  obtain ⟨same, ends⟩ := turns_exact TurnNode.JoinsOther (.ofFormat Json.noFloats)
    (fun _ _ => "client") twoNodes
  have allowed : (TurnNetwork.initial twoNodes).Allows TurnNode.JoinsOther (.joinCall 0 1) :=
    show (1 : Fin 2) ≠ 0 by decide
  have next : TurnNetwork.step (.ofFormat Json.noFloats) (fun _ _ => "client") twoNodes
      (TurnNetwork.initial twoNodes) (.joinCall 0 1) = some _ := rfl
  have run := Run.single allowed next
  obtain ⟨labels, run'⟩ := (same _).mpr ⟨_, run⟩
  have begins : step (.ofFormat Json.noFloats) (fun _ _ => "client") twoNodes (initial twoNodes)
      (.joinCall 0 1) = some _ := rfl
  have turns : (initial twoNodes).TakesTurns TurnNode.JoinsOther (.joinCall 0 1) :=
    takesTurns_atRest rfl allowed
  have begun := Run.single turns begins
  obtain ⟨labels', t', turns', run'', after⟩ := ends _ _ begun
  refine ⟨_, labels, _, labels', t', turns', run, rfl, run', begun, ?_, run'', after⟩
  intro ⟨node, hnode⟩
  exact TurnNode.main_atRest_ne_calling node _ (congrArg NetworkNode.main hnode).symm

end Network

end Imq
