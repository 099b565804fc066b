import Imq.Verified.Unlocked

/-! # Threads of a network that nothing interrupts

A thread that is in the middle of its code can make its remaining accesses while nothing
else happens.  If it does so from where it takes the work up, what it has done in the end
is what the functions of `Imq.Node` and `Imq.Health` do in one piece.

* `afterJoinCall`, `afterServe` and so on — the effects;
* `exists_run_calling`, `exists_run_working` and so on — a thread runs on;
* `exists_run_joinCall`, `exists_run_joinEnd` — the main thread takes up a join, or the end
  of one;
* `exists_run_serve` — a worker takes up a request;
* `exists_run_snapshot`, `exists_run_check`, `exists_run_checkEnd` — the health thread takes up
  a snapshot, a call, or the end of one.
-/

namespace Imq

open Lib Cluster IMQNode RPCServerWorkerPool

/-- The result of code in a state, and back. -/
theorem exists_resultIn {ε σ α : Type} (r : EStateM.Result ε σ α) :
    ∃ result s, r = Thread.resultIn result s := by
  cases r with
  | ok a s => exact ⟨.ok a, s, rfl⟩
  | error e s => exact ⟨.error e, s, rfl⟩

namespace Network

variable {n : Nat}

theorem node_setNode_self (s : Network n) (i : Fin n) (node : NetworkNode) :
    (s.setNode i node).node i = node := Function.update_self ..

theorem node_setNode_of_ne (s : Network n) {i j : Fin n} (hj : j ≠ i) (node : NetworkNode) :
    (s.setNode i node).node j = s.node j := Function.update_of_ne hj ..

theorem setNode_setNode (s : Network n) (i : Fin n) (node node' : NetworkNode) :
    (s.setNode i node).setNode i node' = s.setNode i node' :=
  congrArg (fun nodes => { s with node := nodes }) (Function.update_idem ..)

theorem setNode_self {s : Network n} {i : Fin n} {node : NetworkNode} (same : s.node i = node) :
    s.setNode i node = s :=
  congrArg (fun nodes => { s with node := nodes }) (Function.update_eq_self_iff.mpr same.symm)

theorem worker_setWorker_self (node : NetworkNode) (w : Fin NUM_WORKERS) (job : Option Job) :
    (node.setWorker w job).worker w = job := Function.update_self ..

theorem setWorker_setWorker (node : NetworkNode) (w : Fin NUM_WORKERS) (job job' : Option Job) :
    (node.setWorker w job).setWorker w job' = node.setWorker w job' :=
  congrArg (fun worker => { node with worker := worker }) (Function.update_idem ..)

theorem setWorker_self {node : NetworkNode} {w : Fin NUM_WORKERS} {job : Option Job}
    (same : node.worker w = job) : node.setWorker w job = node :=
  congrArg (fun worker => { node with worker := worker }) (Function.update_eq_self_iff.mpr same.symm)

theorem setWorker_none {node : NetworkNode} {w : Fin NUM_WORKERS} (idle : node.worker w = none) :
    node.setWorker w none = node :=
  congrArg (fun worker => { node with worker := worker }) (Function.update_eq_self_iff.mpr idle.symm)

/-! ## The effects -/

section

variable (text : JsonText) (s : Network n) (i : Fin n)

/-- The call of a join. -/
def afterJoinCall : EStateM.Result Exn Process (RPCCall Process) → Network n
  | .ok rpcCall p =>
    (s.setNode i { s.node i with process := p, main := .waiting rpcCall }).send text i rpcCall
  | .error e p => (s.setNode i { s.node i with process := p, main := .free }).throw .main e

/-- The end of a join. -/
def afterJoinEnd : EStateM.Result Exn Process Unit → Network n
  | .ok _ p => s.setNode i { s.node i with process := p, main := .free }
  | .error e p => (s.setNode i { s.node i with process := p, main := .free }).throw .main e

/-- A request. -/
def afterServe (w : Fin NUM_WORKERS) (endpoint : String) :
    EStateM.Result Exn Process (Option Message) → Network n
  | .ok (some sent) p => { s.setNode i ({ s.node i with process := p }.setWorker w none) with
      replies := ⟨endpoint, sent⟩ :: s.replies }
  | .ok none p => s.setNode i ({ s.node i with process := p }.setWorker w none)
  | .error e p =>
    (s.setNode i ({ s.node i with process := p }.setWorker w none)).throw .worker e

/-- A listing. -/
def afterPass : EStateM.Result Exn Process (List HostAndPort) → Network n
  | .ok nodes p => s.setNode i { s.node i with process := p, health := .checking nodes }
  | .error e p => (s.setNode i { s.node i with process := p, health := .ended }).throw .health e

/-- The call of a check. -/
def afterCheck (rest : List HostAndPort) :
    EStateM.Result Exn Process (RPCCall Process) → Network n
  | .ok rpcCall p => (s.setNode i { s.node i with
      process := p
      health := .awaiting rpcCall.calleeInfo rest }).send text i rpcCall
  | .error e p => (s.setNode i { s.node i with process := p, health := .ended }).throw .health e

/-- The end of a check. -/
def afterCheckEnd {α : Type} (rest : List HostAndPort) : EStateM.Result Exn Process α → Network n
  | .ok _ p => s.setNode i { s.node i with process := p, health := .checking rest }
  | .error e p => (s.setNode i { s.node i with process := p, health := .ended }).throw .health e

/-! A thread has the same effect from any point of its code. -/

variable {text s i}

theorem afterJoinCall_setNode (main : MainStage) (r : EStateM.Result Exn Process (RPCCall Process)) :
    (s.setNode i { s.node i with main := main }).afterJoinCall text i r =
      s.afterJoinCall text i r := by
  cases r <;> simp only [afterJoinCall, node_setNode_self, setNode_setNode]

theorem afterJoinEnd_setNode (main : MainStage) (r : EStateM.Result Exn Process Unit) :
    (s.setNode i { s.node i with main := main }).afterJoinEnd i r = s.afterJoinEnd i r := by
  cases r <;> simp only [afterJoinEnd, node_setNode_self, setNode_setNode]

theorem afterServe_setNode (w : Fin NUM_WORKERS) (endpoint : String) (job : Option Job)
    (r : EStateM.Result Exn Process (Option Message)) :
    (s.setNode i ((s.node i).setWorker w job)).afterServe i w endpoint r =
      s.afterServe i w endpoint r := by
  have hidle : ∀ p, ({ (s.node i).setWorker w job with process := p } : NetworkNode).setWorker w
      none = { s.node i with process := p }.setWorker w none :=
    fun p => setWorker_setWorker { s.node i with process := p } w job none
  rcases r with ⟨_ | sent, p⟩ | ⟨e, p⟩ <;>
    simp only [afterServe, node_setNode_self, setNode_setNode, hidle]
  rfl

theorem afterPass_setNode (health : HealthStage)
    (r : EStateM.Result Exn Process (List HostAndPort)) :
    (s.setNode i { s.node i with health := health }).afterPass i r = s.afterPass i r := by
  cases r <;> simp only [afterPass, node_setNode_self, setNode_setNode]

theorem afterCheck_setNode (rest : List HostAndPort) (health : HealthStage)
    (r : EStateM.Result Exn Process (RPCCall Process)) :
    (s.setNode i { s.node i with health := health }).afterCheck text i rest r =
      s.afterCheck text i rest r := by
  cases r <;> simp only [afterCheck, node_setNode_self, setNode_setNode]

theorem afterCheckEnd_setNode {α : Type} (rest : List HostAndPort) (health : HealthStage)
    (r : EStateM.Result Exn Process α) :
    (s.setNode i { s.node i with health := health }).afterCheckEnd i rest r =
      s.afterCheckEnd i rest r := by
  cases r <;> simp only [afterCheckEnd, node_setNode_self, setNode_setNode]

/-- Nor does it matter what a callback was given. -/
theorem afterCheckEnd_bind {α : Type} (rest : List HostAndPort) (x : EStateM Exn Process α)
    (p : Process) :
    s.afterCheckEnd i rest ((x >>= fun _ => pure ()).run p) = s.afterCheckEnd i rest (x.run p) := by
  rw [EStateM.run_bind]
  cases x.run p <;> rfl

end

/-! ## Threads that run on -/

section

variable (text : JsonText) (identity : String → Fin n → String) (address : Fin n → HostAndPort)
  (guard : Network n → NetworkStep n → Prop) {s : Network n} {i : Fin n}

theorem exists_run_calling (goesOn : ∀ s, guard s (.main i)) {code : Code (RPCCall Process)}
    (calling : (s.node i).main = .calling code) :
    ∃ k, Run (step text identity address) guard s (List.replicate k (.main i))
      (s.afterJoinCall text i ((Code.run code).run (s.node i).process)) := by
  obtain ⟨result, p, hrun⟩ := exists_resultIn ((Code.run code).run (s.node i).process)
  rw [hrun]
  refine Thread.exists_run_of_last Access.perform
    (fun code p => s.setNode i { s.node i with process := p, main := .calling code })
    (setNode_self (by rw [← calling])) (fun _ _ => goesOn _) (fun access rest p => ?_) hrun ?_
  · simp only [step, mainStep, node_setNode_self, MainStage.access, setNode_setNode]
  · cases result <;>
      simp only [step, mainStep, node_setNode_self, MainStage.access, setNode_setNode] <;> rfl

theorem exists_run_taking (goesOn : ∀ s, guard s (.main i)) {code : Code Unit}
    (taking : (s.node i).main = .taking code) :
    ∃ k, Run (step text identity address) guard s (List.replicate k (.main i))
      (s.afterJoinEnd i ((Code.run code).run (s.node i).process)) := by
  obtain ⟨result, p, hrun⟩ := exists_resultIn ((Code.run code).run (s.node i).process)
  rw [hrun]
  refine Thread.exists_run_of_last Access.perform
    (fun code p => s.setNode i { s.node i with process := p, main := .taking code })
    (setNode_self (by rw [← taking])) (fun _ _ => goesOn _) (fun access rest p => ?_) hrun ?_
  · simp only [step, mainStep, node_setNode_self, MainStage.access, setNode_setNode]
  · cases result <;>
      simp only [step, mainStep, node_setNode_self, MainStage.access, setNode_setNode] <;> rfl

/-- A worker in front of an access. -/
theorem step_worker_access (s : Network n) (i : Fin n) (w : Fin NUM_WORKERS) (endpoint : String)
    (access : Access) (rest : access.Answer → Code (Option Message)) (p : Process) :
    step text identity address (s.setNode i ({ s.node i with process := p }.setWorker w
        (some ⟨endpoint, .access access rest⟩))) (.worker i w) =
      some (s.setNode i ({ s.node i with process := (access.perform p).2 }.setWorker w
        (some ⟨endpoint, rest (access.perform p).1⟩))) := by
  simp only [step, workerStep, node_setNode_self, worker_setWorker_self, Job.access,
    setNode_setNode]
  exact congrArg (fun node => some (s.setNode i node)) (setWorker_setWorker
    { s.node i with process := (access.perform p).2 } w _ _)

theorem setNode_working {w : Fin NUM_WORKERS} {job : Job}
    (working : (s.node i).worker w = some job) :
    s.setNode i ({ s.node i with process := (s.node i).process }.setWorker w (some job)) = s :=
  setNode_self (setWorker_self working).symm

theorem exists_run_working {w : Fin NUM_WORKERS} (goesOn : ∀ s, guard s (.worker i w))
    {endpoint : String} {code : Code (Option Message)}
    (working : (s.node i).worker w = some ⟨endpoint, code⟩) :
    ∃ k, Run (step text identity address) guard s (List.replicate k (.worker i w))
      (s.afterServe i w endpoint ((Code.run code).run (s.node i).process)) := by
  obtain ⟨result, p, hrun⟩ := exists_resultIn ((Code.run code).run (s.node i).process)
  rw [hrun]
  refine Thread.exists_run_of_last Access.perform
    (fun code p => s.setNode i
      ({ s.node i with process := p }.setWorker w (some ⟨endpoint, code⟩)))
    (setNode_working working) (fun _ _ => goesOn _)
    (step_worker_access text identity address s i w endpoint) hrun ?_
  rcases result with e | _ | sent <;>
    simp only [step, workerStep, node_setNode_self, worker_setWorker_self, Job.access,
      setNode_setNode, setWorker_setWorker] <;> rfl

theorem exists_run_listing (goesOn : ∀ s, guard s (.health i)) {code : Code (List HostAndPort)}
    (listing : (s.node i).health = .listing code) :
    ∃ k, Run (step text identity address) guard s (List.replicate k (.health i))
      (s.afterPass i ((Code.run code).run (s.node i).process)) := by
  obtain ⟨result, p, hrun⟩ := exists_resultIn ((Code.run code).run (s.node i).process)
  rw [hrun]
  refine Thread.exists_run_of_last Access.perform
    (fun code p => s.setNode i { s.node i with process := p, health := .listing code })
    (setNode_self (by rw [← listing])) (fun _ _ => goesOn _) (fun access rest p => ?_) hrun ?_
  · simp only [step, healthStep, node_setNode_self, HealthStage.access, setNode_setNode]
  · cases result <;>
      simp only [step, healthStep, node_setNode_self, HealthStage.access, setNode_setNode] <;> rfl

theorem exists_run_checking (goesOn : ∀ s, guard s (.health i)) {rest : List HostAndPort}
    {code : Code (RPCCall Process)} (calling : (s.node i).health = .calling rest code) :
    ∃ k, Run (step text identity address) guard s (List.replicate k (.health i))
      (s.afterCheck text i rest ((Code.run code).run (s.node i).process)) := by
  obtain ⟨result, p, hrun⟩ := exists_resultIn ((Code.run code).run (s.node i).process)
  rw [hrun]
  refine Thread.exists_run_of_last Access.perform
    (fun code p => s.setNode i { s.node i with process := p, health := .calling rest code })
    (setNode_self (by rw [← calling])) (fun _ _ => goesOn _) (fun access rest p => ?_) hrun ?_
  · simp only [step, healthStep, node_setNode_self, HealthStage.access, setNode_setNode]
  · cases result <;>
      simp only [step, healthStep, node_setNode_self, HealthStage.access, setNode_setNode] <;> rfl

theorem exists_run_settling {callee : HostAndPort} {rest : List HostAndPort}
    (goesOn : ∀ s code, (s.node i).health = .settling callee rest code → guard s (.health i))
    {code : Code Unit} (settling : (s.node i).health = .settling callee rest code) :
    ∃ k, Run (step text identity address) guard s (List.replicate k (.health i))
      (s.afterCheckEnd i rest ((Code.run code).run (s.node i).process)) := by
  obtain ⟨result, p, hrun⟩ := exists_resultIn ((Code.run code).run (s.node i).process)
  rw [hrun]
  refine Thread.exists_run_of_last Access.perform
    (fun code p => s.setNode i { s.node i with process := p, health := .settling callee rest code })
    (setNode_self (by rw [← settling]))
    (fun code p => goesOn _ code (by rw [node_setNode_self])) (fun access rest p => ?_) hrun ?_
  · simp only [step, healthStep, node_setNode_self, HealthStage.access, setNode_setNode]
  · cases result <;>
      simp only [step, healthStep, node_setNode_self, HealthStage.access, setNode_setNode] <;> rfl

end

/-! ## Threads that take up some work -/

section

variable (text : JsonText) (identity : String → Fin n → String) (address : Fin n → HostAndPort)
  (guard : Network n → NetworkStep n → Prop) {s : Network n} {i : Fin n}

theorem exists_run_joinCall (goesOn : ∀ s, guard s (.main i)) {l : Fin n}
    (ok : guard s (.joinCall i l)) (free : (s.node i).main = .free) :
    ∃ k, Run (step text identity address) guard s (.joinCall i l :: List.replicate k (.main i))
      (s.afterJoinCall text i ((Cluster.bootstrapCall (s.node i).process.metaStore
        (address l)).run (s.node i).process)) := by
  have first : step text identity address s (.joinCall i l) = some (s.setNode i { s.node i with
      main := .calling (Unlocked.bootstrapCall (s.node i).process.metaStore (address l)) }) := by
    simp only [step, free]
  generalize hs : s.setNode i _ = s₁ at first
  obtain ⟨k, rest⟩ := exists_run_calling (s := s₁) text identity address guard goesOn
    (by rw [← hs, node_setNode_self])
  have run := (Run.single ok first).append rest
  rw [Unlocked.run_bootstrapCall, ← hs, node_setNode_self, afterJoinCall_setNode] at run
  exact ⟨k, run⟩

theorem exists_run_joinEnd (goesOn : ∀ s, guard s (.main i)) {receipt : Receipt}
    (ok : guard s (.joinEnd i receipt)) {rpcCall : RPCCall Process}
    (waiting : (s.node i).main = .waiting rpcCall)
    (possible : receipt.Possible identity s.replies i rpcCall.calleeInfo) :
    ∃ k, Run (step text identity address) guard s (.joinEnd i receipt :: List.replicate k (.main i))
      (s.afterJoinEnd i ((Cluster.bootstrapEnd text rpcCall receipt).run (s.node i).process)) := by
  have first : step text identity address s (.joinEnd i receipt) = some (s.setNode i { s.node i with
      main := .taking (Unlocked.bootstrapEnd text rpcCall receipt) }) := by
    simp only [step, waiting, if_pos possible]
  generalize hs : s.setNode i _ = s₁ at first
  obtain ⟨k, rest⟩ := exists_run_taking (s := s₁) text identity address guard goesOn
    (by rw [← hs, node_setNode_self])
  have run := (Run.single ok first).append rest
  rw [Unlocked.run_bootstrapEnd, ← hs, node_setNode_self, afterJoinEnd_setNode] at run
  exact ⟨k, run⟩

theorem exists_run_serve {w : Fin NUM_WORKERS} (goesOn : ∀ s, guard s (.worker i w))
    {request : Request n} (ok : guard s (.serve i w request)) (idle : (s.node i).worker w = none)
    (sent : request ∈ s.requests) (own : request.endpoint = (address i).endpoint) :
    ∃ k, Run (step text identity address) guard s
      (.serve i w request :: List.replicate k (.worker i w))
      (s.afterServe i w request.endpoint ((RPCServerWorkerPool.workBody text workerPool
        (some (identity request.endpoint request.sender :: request.frames))).run
          (s.node i).process)) := by
  have first : step text identity address s (.serve i w request) =
      some (s.setNode i ((s.node i).setWorker w (some ⟨request.endpoint, IMQNode.Unlocked.workBody
        text (identity request.endpoint request.sender :: request.frames)⟩))) := by
    simp only [step, idle, if_pos (And.intro sent own)]
  generalize hs : s.setNode i _ = s₁ at first
  obtain ⟨k, rest⟩ := exists_run_working (s := s₁) text identity address guard goesOn
    (by rw [← hs, node_setNode_self]; exact worker_setWorker_self ..)
  have run := (Run.single ok first).append rest
  rw [IMQNode.Unlocked.run_workBody, ← hs, node_setNode_self, afterServe_setNode] at run
  exact ⟨k, run⟩

theorem exists_run_snapshot (goesOn : ∀ s, guard s (.health i)) (ok : guard s (.pass i))
    (asleep : (s.node i).health = .asleep) :
    ∃ k, Run (step text identity address) guard s (.pass i :: List.replicate k (.health i))
      (s.setNode i { s.node i with
        health := .checking (s.node i).process.cluster.getNodesInCluster }) := by
  have first : step text identity address s (.pass i) =
      some (s.setNode i { s.node i with health := .listing Unlocked.getNodesInCluster }) := by
    simp only [step, asleep]
  generalize hs : s.setNode i _ = s₁ at first
  obtain ⟨k, rest⟩ := exists_run_listing (s := s₁) text identity address guard goesOn
    (by rw [← hs, node_setNode_self])
  have run := (Run.single ok first).append rest
  rw [Cluster.Unlocked.run_getNodesInCluster, ← hs, node_setNode_self, afterPass_setNode] at run
  exact ⟨k, run⟩

theorem exists_run_check (goesOn : ∀ s, guard s (.health i)) (ok : guard s (.check i))
    {callee : HostAndPort} {rest : List HostAndPort}
    (checking : (s.node i).health = .checking (callee :: rest))
    (other : ¬ (callee.host = (s.node i).process.metaStore.host ∧
      callee.port = (s.node i).process.metaStore.port)) :
    ∃ k, Run (step text identity address) guard s (.check i :: List.replicate k (.health i))
      (s.afterCheck text i rest ((Health.checkCall callee).run (s.node i).process)) := by
  have first : step text identity address s (.check i) = some (s.setNode i { s.node i with
      health := .calling rest (Health.Unlocked.checkCall callee) }) := by
    simp only [step, checking, if_neg other]
  generalize hs : s.setNode i _ = s₁ at first
  obtain ⟨k, after⟩ := exists_run_checking (s := s₁) text identity address guard goesOn
    (by rw [← hs, node_setNode_self])
  have run := (Run.single ok first).append after
  rw [Health.Unlocked.run_checkCall, ← hs, node_setNode_self, afterCheck_setNode] at run
  exact ⟨k, run⟩

theorem exists_run_checkEnd {callee : HostAndPort} {rest : List HostAndPort}
    (goesOn : ∀ s code, (s.node i).health = .settling callee rest code → guard s (.health i))
    {outcome : CallOutcome} (ok : guard s (.checkEnd i outcome))
    (awaiting : (s.node i).health = .awaiting callee rest)
    (possible : outcome.Possible identity s.replies i callee) :
    ∃ k, Run (step text identity address) guard s
      (.checkEnd i outcome :: List.replicate k (.health i))
      (s.afterCheckEnd i rest ((Health.awaitOutcome text (Health.callTo callee) outcome).run
        (s.node i).process)) := by
  have first : step text identity address s (.checkEnd i outcome) = some (s.setNode i { s.node i with
      health := .settling callee rest (Health.Unlocked.awaitOutcome text callee outcome) }) := by
    simp only [step, awaiting, if_pos possible]
  generalize hs : s.setNode i _ = s₁ at first
  obtain ⟨k, after⟩ := exists_run_settling (s := s₁) text identity address guard goesOn
    (by rw [← hs, node_setNode_self])
  have run := (Run.single ok first).append after
  rw [Health.Unlocked.run_awaitOutcome, ← hs, node_setNode_self, afterCheckEnd_setNode,
    afterCheckEnd_bind] at run
  exact ⟨k, run⟩

end

end Network

end Imq
