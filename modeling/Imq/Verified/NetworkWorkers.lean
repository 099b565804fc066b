import Imq.Verified.ConcurrentRegistration
import Imq.Verified.NetworkForming

/-! # The workers of one node

What a `RegistrationSystem` and an `AddNodeSystem` do at the same time is done by the
workers of a node: a call on the table is a run of one worker, and a test or a write of a
slot is one step of it.

* `Network.Works` — how far the workers of a node have got, and what its table is;
* `RegistrationSystem.registrations_in_network` — requests that are handled at the same time;
* `AddNodeSystem.additions_in_network` — calls of `AddNode` at the same time.
-/

namespace Imq

open Lib Cluster IMQNode Json

namespace Network

variable {n : Nat}

/-- The workers of a node have this code before them, with what each does after it, and the
    table of the node is `c`. -/
structure Works {α : Type} (endpoint : Fin NUM_WORKERS → String) (code : Fin NUM_WORKERS → Code α)
    (rest : Fin NUM_WORKERS → α → Code (Option Message)) (j : Fin n) (c : Cluster)
    (s : Network n) : Prop where
  cluster : (s.node j).process.cluster = c
  worker : ∀ w, (s.node j).worker w = some ⟨endpoint w, code w >>= rest w⟩

section

variable {α β : Type} {text : JsonText} {identity : String → Fin n → String}
  {address : Fin n → HostAndPort} {guard : Network n → NetworkStep n → Prop}
  {endpoint : Fin NUM_WORKERS → String} {code : Fin NUM_WORKERS → Code α}
  {rest : Fin NUM_WORKERS → α → Code (Option Message)} {j : Fin n} {c c' : Cluster}
  {s : Network n}

/-- The code is looked at up to some point. -/
theorem Works.first (h : Works endpoint code rest j c s) {x : Fin NUM_WORKERS → Code β}
    {f : Fin NUM_WORKERS → β → Code α} (hcode : ∀ w, code w = x w >>= f w) :
    Works endpoint x (fun w b => f w b >>= rest w) j c s where
  cluster := h.cluster
  worker w := by rw [h.worker, hcode, bind_assoc]

/-- One worker goes on. -/
theorem Works.setWorker (h : Works endpoint code rest j c s) (w : Fin NUM_WORKERS) (p : Process)
    (next : Code α) :
    Works endpoint (Function.update code w next) rest j p.cluster
      (s.setNode j ({ s.node j with process := p }.setWorker w
        (some ⟨endpoint w, next >>= rest w⟩))) where
  cluster := by
    rw [node_setNode_self]
    rfl
  worker w' := by
    rw [node_setNode_self]
    by_cases hw : w' = w
    · subst hw
      rw [worker_setWorker_self, Function.update_self]
    · rw [Function.update_of_ne hw]
      exact (Function.update_of_ne hw ..).trans (h.worker w')

/-- An access of a worker is one step. -/
theorem Works.step_access (h : Works endpoint code rest j c s) {w : Fin NUM_WORKERS}
    {access : Access} {more : access.Answer → Code α} (hcode : code w = .access access more) :
    ∃ s', step text identity address s (.worker j w) = some s' ∧
      Works endpoint (Function.update code w (more (access.perform (s.node j).process).1)) rest j
        (access.perform (s.node j).process).2.cluster s' := by
  refine ⟨_, ?_, h.setWorker w _ _⟩
  have hworker : (s.node j).worker w =
      some ⟨endpoint w, .access access fun answer => more answer >>= rest w⟩ := by
    rw [h.worker w, hcode]
    rfl
  have next := step_worker_access text identity address s j w (endpoint w) access
    (fun answer => more answer >>= rest w) (s.node j).process
  rwa [setNode_working hworker] at next

variable (text identity address) in
/-- The next part of its code is a run. -/
theorem Works.exists_run (h : Works endpoint code rest j c s) {w : Fin NUM_WORKERS}
    (goesOn : ∀ s, guard s (.worker j w)) {x : Code β} {f : β → Code α} (hcode : code w = x >>= f)
    {b : β} (hrun : (Code.run x).run (s.node j).process =
      .ok b { (s.node j).process with cluster := c' }) :
    ∃ labels s', Run (step text identity address) guard s labels s' ∧
      Works endpoint (Function.update code w (f b)) rest j c' s' := by
  obtain ⟨k, run⟩ := Thread.exists_run_bind Access.perform (fun b => f b >>= rest w)
    (fun code p => s.setNode j
      ({ s.node j with process := p }.setWorker w (some ⟨endpoint w, code⟩)))
    (fun _ _ => goesOn _) (step_worker_access text identity address s j w (endpoint w)) hrun
  have hworker : (s.node j).worker w = some ⟨endpoint w, x >>= fun b => f b >>= rest w⟩ := by
    rw [h.worker w, hcode, bind_assoc]
  rw [setNode_working hworker] at run
  exact ⟨_, _, run, h.setWorker w { (s.node j).process with cluster := c' } (f b)⟩

end

end Network

/-! ## Requests -/

namespace Network

variable {n : Nat}

/-- A step of a worker of the node. -/
def ByWorkers (j : Fin n) (_ : Network n) : NetworkStep n → Prop
  | .serve j' _ _ | .worker j' _ => j' = j
  | _ => False

/-- The work that a request is for a worker. -/
def jobOf (text : JsonText) (identity : String → Fin n → String) (request : Request n) : Job :=
  ⟨request.endpoint, IMQNode.Unlocked.workBody text
    (identity request.endpoint request.sender :: request.frames)⟩

/-- All workers of a node take a request each. -/
theorem exists_run_taken (text : JsonText) (identity : String → Fin n → String)
    {address : Fin n → HostAndPort} {s : Network n} {j : Fin n}
    (idle : ∀ w, (s.node j).worker w = none) {request : Fin NUM_WORKERS → Request n}
    (sent : ∀ w, request w ∈ s.requests) (own : ∀ w, (request w).endpoint = (address j).endpoint) :
    ∃ labels s', Run (step text identity address) (ByWorkers j) s labels s' ∧
      (s'.node j).process = (s.node j).process ∧
      ∀ w, (s'.node j).worker w = some (jobOf text identity (request w)) := by
  -- A worker that takes a request leaves the process and what the others have taken alone.
  have reach : ∀ w s₁, (s₁.requests = s.requests ∧ (s₁.node j).process = (s.node j).process ∧
      ∀ w, (s₁.node j).worker w = none ∨
        (s₁.node j).worker w = some (jobOf text identity (request w))) →
      ∃ labels s₂, Run (step text identity address) (ByWorkers j) s₁ labels s₂ ∧
        (s₂.requests = s.requests ∧ (s₂.node j).process = (s.node j).process ∧
          ∀ w, (s₂.node j).worker w = none ∨
            (s₂.node j).worker w = some (jobOf text identity (request w))) ∧
        (s₂.node j).worker w = some (jobOf text identity (request w)) ∧
        ∀ w', (s₁.node j).worker w' = some (jobOf text identity (request w')) →
          (s₂.node j).worker w' = some (jobOf text identity (request w')) := by
    intro w s₁ ⟨hrequests, hprocess, hworkers⟩
    obtain hidle | hbusy := hworkers w
    · have next : step text identity address s₁ (.serve j w (request w)) = some (s₁.setNode j
          ((s₁.node j).setWorker w (some (jobOf text identity (request w))))) := by
        simp only [step, hidle]
        exact if_pos ⟨hrequests ▸ sent w, own w⟩
      have hself : ((s₁.node j).setWorker w (some (jobOf text identity (request w)))).worker w =
          some (jobOf text identity (request w)) := worker_setWorker_self ..
      have hother : ∀ {w'}, w' ≠ w → ((s₁.node j).setWorker w
          (some (jobOf text identity (request w)))).worker w' = (s₁.node j).worker w' :=
        fun hw => Function.update_of_ne hw ..
      have allowed : ByWorkers j s₁ (.serve j w (request w)) := rfl
      refine ⟨_, _, Run.single allowed next, ⟨hrequests, ?_, fun w' => ?_⟩, ?_, fun w' hw' => ?_⟩
      · rw [node_setNode_self]
        exact hprocess
      · rw [node_setNode_self]
        by_cases hw : w' = w
        · subst hw
          exact .inr hself
        · rw [hother hw]
          exact hworkers w'
      · rw [node_setNode_self]
        exact hself
      · rw [node_setNode_self]
        by_cases hw : w' = w
        · subst hw
          exact hself
        · rw [hother hw]
          exact hw'
    · exact ⟨[], s₁, .nil, ⟨hrequests, hprocess, hworkers⟩, hbusy, fun _ => id⟩
  obtain ⟨labels, s', hrun, ⟨_, hprocess, _⟩, hall⟩ := Run.exists_forall reach
    (List.finRange NUM_WORKERS) ⟨rfl, rfl, fun w => .inl (idle w)⟩
  exact ⟨labels, s', hrun, hprocess, fun w => hall w (List.mem_finRange w)⟩

end Network

namespace RegistrationSystem

open Network RPCServerWorkerPool

/-- What is left of a reply without the list; it makes no access. -/
def replyWith (nodes : List (Fin MAX_NUM_NODES × HostAndPort)) : Code Json := do
  let ret ← .ofExcept (Json.null.set "nodes" .null)
  let nodesPart ← .ofExcept (encodeNodes nodes)
  .ofExcept (ret.set "nodes" nodesPart)

/-- What the handler has still to do for a request. -/
def code (requester : HostAndPort) : RequestPhase → Code Json
  | .nodeInCluster => IMQNode.Unlocked.register requester >>= fun _ => IMQNode.Unlocked.reply
  | .addNode => Cluster.Unlocked.addNode requester >>= fun _ => IMQNode.Unlocked.reply
  | .getNodesWithIdxInCluster => IMQNode.Unlocked.reply
  | .answered nodes => replyWith nodes

section

variable {n : Nat} {text : JsonText} {identity : String → Fin n → String}
  {address : Fin n → HostAndPort} {guard : Network n → NetworkStep n → Prop}
  {endpoint : Fin NUM_WORKERS → String} {rest : Fin NUM_WORKERS → Json → Code (Option Message)}
  {requester : Fin NUM_WORKERS → HostAndPort} {j : Fin n} {s : Network n}
  {sys : RegistrationSystem (Fin NUM_WORKERS)} {w : Fin NUM_WORKERS}

theorem code_goTo (phase : RequestPhase) :
    (fun w' => code (requester w') ((sys.goTo w phase).phase w')) =
      Function.update (fun w' => code (requester w') (sys.phase w')) w (code (requester w) phase) :=
  funext fun w' => Function.apply_update (fun w' => code (requester w')) sys.phase w phase w'

/-- A step of the system is a run of the worker. -/
theorem exists_run_of_works (goesOn : ∀ s, guard s (.worker j w))
    (h : Works endpoint (fun w => code (requester w) (sys.phase w)) rest j sys.cluster s) :
    ∃ labels s', Run (Network.step text identity address) guard s labels s' ∧
      Works endpoint (fun w' => code (requester w') ((step requester sys w).phase w')) rest j
        (step requester sys w).cluster s' := by
  cases hphase : sys.phase w with
  | nodeInCluster =>
    -- What comes next depends on what the worker has found.
    have hcode : code (requester w) (sys.phase w) =
        Cluster.Unlocked.nodeInCluster (requester w) >>= fun found =>
          code (requester w) (if !found then .addNode else .getNodesWithIdxInCluster) := by
      rw [hphase, code, IMQNode.Unlocked.register, bind_assoc]
      refine congrArg _ (funext fun found => ?_)
      cases found <;> rfl
    have hrun : (Code.run (Cluster.Unlocked.nodeInCluster (requester w))).run (s.node j).process =
        .ok (sys.cluster.nodeInCluster (requester w))
          { (s.node j).process with cluster := sys.cluster } := by
      rw [← h.cluster]
      exact Cluster.Unlocked.run_nodeInCluster (requester w) (s.node j).process
    obtain ⟨labels, s', run, h'⟩ := h.exists_run text identity address goesOn hcode hrun
    refine ⟨labels, s', run, ?_⟩
    have hstep : step requester sys w = sys.goTo w
        (if !sys.cluster.nodeInCluster (requester w) then .addNode
          else .getNodesWithIdxInCluster) := by
      simp only [step, hphase]
      split <;> rfl
    rw [hstep, code_goTo]
    exact h'
  | addNode =>
    have hcode : code (requester w) (sys.phase w) =
        Cluster.Unlocked.addNode (requester w) >>= fun _ =>
          code (requester w) .getNodesWithIdxInCluster := by
      rw [hphase]
      rfl
    have hrun : (Code.run (Cluster.Unlocked.addNode (requester w))).run (s.node j).process =
        .ok () { (s.node j).process with cluster := sys.cluster.addNode (requester w) } := by
      rw [← h.cluster]
      exact Cluster.Unlocked.run_addNode (requester w) (s.node j).process
    obtain ⟨labels, s', run, h'⟩ := h.exists_run text identity address goesOn hcode hrun
    refine ⟨labels, s', run, ?_⟩
    rw [step_addNode requester hphase, code_goTo]
    exact h'
  | getNodesWithIdxInCluster =>
    have hcode : code (requester w) (sys.phase w) =
        Cluster.Unlocked.getNodesWithIdxInCluster >>= fun nodes =>
          code (requester w) (.answered nodes) := by
      rw [hphase]
      rfl
    have hrun : (Code.run Cluster.Unlocked.getNodesWithIdxInCluster).run (s.node j).process =
        .ok sys.cluster.getNodesWithIdxInCluster
          { (s.node j).process with cluster := sys.cluster } := by
      rw [← h.cluster]
      exact Cluster.Unlocked.run_getNodesWithIdxInCluster (s.node j).process
    obtain ⟨labels, s', run, h'⟩ := h.exists_run text identity address goesOn hcode hrun
    refine ⟨labels, s', run, ?_⟩
    have hstep : step requester sys w =
        sys.goTo w (.answered sys.cluster.getNodesWithIdxInCluster) := by
      simp only [step, hphase]
    rw [hstep, code_goTo]
    exact h'
  | answered nodes =>
    -- The worker has its list, and waits with the reply.
    have hstep : step requester sys w = sys := by simp only [step, hphase]
    rw [hstep]
    exact ⟨[], s, .nil, h⟩

end

section

variable {n : Nat} {format : FloatFormat} {identity : String → Fin n → String}
  {address : Fin n → HostAndPort} {s : Network n} {j : Fin n} {sender : Fin NUM_WORKERS → Fin n}

/-- What a worker does with the result of the handler. -/
def answer (format : FloatFormat) (identity : String → Fin n → String)
    (address : Fin n → HostAndPort) (sender : Fin NUM_WORKERS → Fin n) (j : Fin n)
    (w : Fin NUM_WORKERS) (result : Json) : Code (Option Message) :=
  return some (constructMessage (.ofFormat format) (identity (address j).endpoint (sender w)) result)

variable (format identity address sender j) in
/-- The workers have got as far with their requests as the system. -/
def Handles (sys : RegistrationSystem (Fin NUM_WORKERS)) (s : Network n) : Prop :=
  Works (fun _ => (address j).endpoint) (fun w => code (address (sender w)) (sys.phase w))
    (answer format identity address sender j) j sys.cluster s

/-- A worker that has taken a join is in front of the handler. -/
theorem code_of_joinRequest (addresses : Addresses address) (w : Fin NUM_WORKERS) :
    jobOf (.ofFormat format) identity (TurnNetwork.joinRequest format address (sender w) j) =
      ⟨(address j).endpoint, code (address (sender w)) .nodeInCluster >>=
        answer format identity address sender j w⟩ := by
  have hlookup : workerPool.rpcs.lookup "GetNodesInCluster" =
      some fun args => Process.onCluster (getNodesInCluster args) := rfl
  have hparts := messageToParts_of_registered
    (accepted_request (identity (address j).endpoint (sender w)) "GetNodesInCluster"
      ((JsonText.ofFormat format).dump (registerArgs (address (sender w))))) hlookup
    (parse_dump_registerArgs (addresses.utf8 (sender w)))
  have hcode : IMQNode.Unlocked.getNodesInCluster (registerArgs (address (sender w))) =
      code (address (sender w)) .nodeInCluster := by
    obtain ⟨hreads, _⟩ | ⟨requester, hreg, hcode⟩ | ⟨e, _, hthrows⟩ :=
      IMQNode.Unlocked.getNodesInCluster_forms (registerArgs (address (sender w)))
    · cases hreads
    · rw [registration_registerArgs] at hreg
      cases hreg
      exact hcode
    · have hrun := run_getNodesInCluster_register (address (sender w)) Cluster.new
      rw [hthrows] at hrun
      cases hrun
  rw [jobOf, TurnNetwork.joinRequest, ← hcode]
  exact congrArg (Job.mk (address j).endpoint) (IMQNode.Unlocked.workBody_of_parts rfl hparts)

variable (format identity) in
/-- Idle workers can take a request each. -/
theorem exists_run_start (addresses : Addresses address)
    (idle : ∀ w, (s.node j).worker w = none)
    (sent : ∀ w, TurnNetwork.joinRequest format address (sender w) j ∈ s.requests) :
    ∃ labels s', Run (Network.step (.ofFormat format) identity address) (ByWorkers j) s labels s' ∧
      Handles format identity address j sender (start (s.node j).process.cluster) s' := by
  obtain ⟨labels, s', run, hprocess, hworkers⟩ :=
    exists_run_taken (.ofFormat format) identity idle sent fun _ => rfl
  refine ⟨labels, s', run, congrArg Process.cluster hprocess, fun w => ?_⟩
  rw [hworkers, code_of_joinRequest addresses]
  rfl

/-- And then go on in any order. -/
theorem exists_run_handles {sys : RegistrationSystem (Fin NUM_WORKERS)}
    (h : Handles format identity address j sender sys s) (run : List (Fin NUM_WORKERS)) :
    ∃ labels s', Run (Network.step (.ofFormat format) identity address) (ByWorkers j) s labels s' ∧
      Handles format identity address j sender (exec (step fun w => address (sender w)) sys run)
        s' := by
  have match_step : ∀ (sys : RegistrationSystem (Fin NUM_WORKERS)) (w : Fin NUM_WORKERS)
      (s : Network n), Handles format identity address j sender sys s →
      ∃ labels s', Run (Network.step (.ofFormat format) identity address) (ByWorkers j) s labels
          s' ∧
        Handles format identity address j sender (step (fun w => address (sender w)) sys w) s' :=
    fun _ _ _ h => exists_run_of_works (fun _ => rfl) h
  exact exists_run_exec match_step h run

/-- Whenever the workers of a node are idle and requests to register have been sent to it: they
    can take a request each, and then do what the system does, in whatever order it does it. -/
theorem registrations_in_network (format : FloatFormat) (identity : String → Fin n → String)
    (address : Fin n → HostAndPort) (addresses : Addresses address) (s : Network n) (j : Fin n)
    (sender : Fin NUM_WORKERS → Fin n) (idle : ∀ w, (s.node j).worker w = none)
    (sent : ∀ w, TurnNetwork.joinRequest format address (sender w) j ∈ s.requests)
    (run : List (Fin NUM_WORKERS)) :
    ∃ labels s', Run (Network.step (.ofFormat format) identity address) (ByWorkers j) s labels s' ∧
      Handles format identity address j sender
        (exec (step fun w => address (sender w)) (start (s.node j).process.cluster) run) s' := by
  obtain ⟨labels₁, s₁, run₁, hstart⟩ := exists_run_start format identity addresses idle sent
  obtain ⟨labels₂, s₂, run₂, h⟩ := exists_run_handles hstart run
  exact ⟨_, s₂, run₁.append run₂, h⟩

end

/-- Two workers take the request of one node, and both register it. -/
theorem registrations_in_network_retry :
    ∃ labels s, Run (Network.step (.ofFormat noFloats) twoClients twoNodes) unguarded
        (Network.initial twoNodes) labels s ∧
      (s.node 1).process.cluster.view 1 = some ⟨"a", 1⟩ ∧
      (s.node 1).process.cluster.view 2 = some ⟨"a", 1⟩ := by
  -- The first node joins the second.
  obtain ⟨t, turn, hsent, hother⟩ : ∃ t, TurnNetwork.step (.ofFormat noFloats) twoClients
      twoNodes (TurnNetwork.initial twoNodes) (.joinCall 0 1) = some t ∧
      TurnNetwork.joinRequest noFloats twoNodes 0 1 ∈ t.requests ∧
      t.node 1 = (TurnNetwork.initial twoNodes).node 1 :=
    ⟨_, rfl, List.mem_cons_self, rfl⟩
  have allowed : (TurnNetwork.initial twoNodes).Allows TurnNode.JoinsOther
      (.joinCall 0 1) :=
    show (1 : Fin 2) ≠ 0 by decide
  obtain ⟨labels, run⟩ := exists_run_turns (Run.single allowed turn)
  obtain ⟨labels', s', run', h⟩ := registrations_in_network noFloats twoClients twoNodes
    addresses_twoNodes t.atRest 1 (fun _ => 0) (fun _ => rfl) (fun _ => hsent) [0, 1, 0, 1]
  have hstart : (t.atRest.node 1).process.cluster = Cluster.new.addNode ⟨"b", 2⟩ :=
    congrArg (fun node => node.process.cluster) hother
  have hcluster := h.cluster
  rw [hstart] at hcluster
  refine ⟨labels ++ labels', s', (run.mono fun _ _ _ => trivial).append
    (run'.mono fun _ _ _ => trivial), ?_, ?_⟩
  · rw [hcluster]
    decide
  · rw [hcluster]
    decide

end RegistrationSystem

/-! ## Calls of `AddNode` -/

namespace AddNodeSystem

open Network

/-- What a call has still to do. -/
def code (node : HostAndPort) : FirstFit.Phase MAX_NUM_NODES → Code Unit
  | .testing i => do
    match ← Cluster.Unlocked.firstSlot isFree ((List.finRange MAX_NUM_NODES).drop i) with
    | some i => Cluster.Unlocked.writeNode i node
    | none => pure ()
  | .writing i => Cluster.Unlocked.writeNode i node
  | .done _ => pure ()

theorem code_first (node : HostAndPort) :
    code node (.testing 0) = Cluster.Unlocked.addNode node := rfl

theorem code_testing (node : HostAndPort) (i : Fin MAX_NUM_NODES) :
    code node (.testing i) = .access (Access.readNode i) fun found =>
      if isFree found then code node (.writing i) else code node (.next i) := by
  have hdrop : (List.finRange MAX_NUM_NODES).drop i =
      i :: (List.finRange MAX_NUM_NODES).drop (i + 1) := by
    rw [List.drop_eq_getElem_cons (by simp), List.getElem_finRange]
    rfl
  rw [code, hdrop]
  refine congrArg (Thread.access (Access.readNode i)) (funext fun found => ?_)
  show (if isFree found then pure (some i)
    else Cluster.Unlocked.firstSlot isFree ((List.finRange MAX_NUM_NODES).drop (i + 1))) >>= _ = _
  cases isFree found with
  | true => rfl
  | false =>
    obtain ⟨k, hk, hnext⟩ | ⟨hlast, hnext⟩ := FirstFit.Phase.next_cases i
    · rw [hnext, code, hk]
      rfl
    · rw [hnext, hlast, List.drop_eq_nil_of_le (by simp)]
      rfl

/-- The call has not ended. -/
def Goes (s : AddNodeSystem (Fin NUM_WORKERS)) (w : Fin NUM_WORKERS) : Prop :=
  ∀ cell, s.call w ≠ .done cell

instance (s : AddNodeSystem (Fin NUM_WORKERS)) (w : Fin NUM_WORKERS) : Decidable (Goes s w) :=
  match h : s.call w with
  | .testing _ | .writing _ => .isTrue fun cell => by rw [h]; exact nofun
  | .done cell => .isFalse fun goes => goes cell h

section

variable {n : Nat} {text : JsonText} {identity : String → Fin n → String}
  {address : Fin n → HostAndPort} {endpoint : Fin NUM_WORKERS → String}
  {rest : Fin NUM_WORKERS → Unit → Code (Option Message)} {node : Fin NUM_WORKERS → HostAndPort}
  {j : Fin n} {s : Network n} {sys : AddNodeSystem (Fin NUM_WORKERS)} {w : Fin NUM_WORKERS}

theorem code_goTo (phase : FirstFit.Phase MAX_NUM_NODES) :
    (fun w' => code (node w') ((sys.goTo w phase).call w')) =
      Function.update (fun w' => code (node w') (sys.call w')) w (code (node w) phase) :=
  funext fun w' => Function.apply_update (fun w' => code (node w')) sys.call w phase w'

/-- A step of the system is one of the worker. -/
theorem exists_step_of_works
    (h : Works endpoint (fun w => code (node w) (sys.call w)) rest j sys.cluster s)
    (goes : Goes sys w) :
    ∃ s', Network.step text identity address s (.worker j w) = some s' ∧
      Works endpoint (fun w' => code (node w') ((step node sys w).call w')) rest j
        (step node sys w).cluster s' := by
  cases hcall : sys.call w with
  | testing i =>
    have hcode := (congrArg (code (node w)) hcall).trans (code_testing (node w) i)
    obtain ⟨s', next, h'⟩ := h.step_access hcode
    refine ⟨s', next, ?_⟩
    simp only [Access.perform, h.cluster] at h'
    have hstep : step node sys w = if isFree (sys.cluster.node i) then sys.goTo w (.writing i)
        else sys.goTo w (.next i) := by
      simp only [step, hcall]
      rfl
    by_cases hfree : isFree (sys.cluster.node i) = true
    · rw [if_pos hfree] at h' hstep
      rw [hstep, code_goTo]
      exact h'
    · rw [if_neg hfree] at h' hstep
      rw [hstep, code_goTo]
      exact h'
  | writing i =>
    have hcode : code (node w) (sys.call w) =
        .access (Access.writeNode i (node w)) fun _ => code (node w) (.done (some i)) := by
      rw [hcall]
      rfl
    obtain ⟨s', next, h'⟩ := h.step_access hcode
    refine ⟨s', next, ?_⟩
    have hwrite : step node sys w =
        { sys with cluster := sys.cluster.setNode i (node w) }.goTo w (.done (some i)) := by
      simp only [step, hcall]
    rw [hwrite, code_goTo]
    simp only [Access.perform, h.cluster] at h'
    exact h'
  | done cell => exact absurd hcall (goes cell)

end

/-- Workers that are in front of `AddNode` can do what the system does, one step of a worker
    for each step of the system that is not of a call which has ended. -/
theorem additions_in_network {n : Nat} (text : JsonText) (identity : String → Fin n → String)
    (address : Fin n → HostAndPort) (endpoint : Fin NUM_WORKERS → String)
    (rest : Fin NUM_WORKERS → Unit → Code (Option Message)) (node : Fin NUM_WORKERS → HostAndPort)
    (j : Fin n) (c : Cluster) (s : Network n)
    (h : Works endpoint (fun w => Cluster.Unlocked.addNode (node w)) rest j c s)
    (run : List (Fin NUM_WORKERS)) (goes : Guarded Goes (step node) (start c) run) :
    ∃ s', Run (Network.step text identity address) unguarded s (run.map (.worker j)) s' ∧
      Works endpoint (fun w => code (node w) ((exec (step node) (start c) run).call w)) rest j
        (exec (step node) (start c) run).cluster s' := by
  have hstart : Works endpoint (fun w => code (node w) ((start c).call w)) rest j
      (start c : AddNodeSystem (Fin NUM_WORKERS)).cluster s := by
    simpa only [start, code_first] using h
  refine exists_run_map (R := fun (sys : AddNodeSystem (Fin NUM_WORKERS)) (s : Network n) =>
    Works endpoint (fun w => code (node w) (sys.call w)) rest j sys.cluster s)
    (NetworkStep.worker j) (fun sys w s h goes => ?_) hstart goes
  obtain ⟨s', next, h'⟩ := exists_step_of_works h goes
  exact ⟨s', trivial, next, h'⟩

/-- Two nodes that join a third. -/
def threeNodes : Fin 3 → HostAndPort
  | 0 => ⟨"a", 1⟩
  | 1 => ⟨"b", 2⟩
  | 2 => ⟨"l", 3⟩

theorem addresses_threeNodes : Addresses threeNodes where
  distinct i j := by
    revert i j
    decide
  host := by decide
  sendable := by decide
  utf8 i := by
    apply Utf8String.of_ascii
    revert i
    decide

/-- One worker takes the request of the one, the others that of the other. -/
def sendsTo (w : Fin NUM_WORKERS) : Fin 3 := if w = 0 then 0 else 1

/-- Two workers find the same slot free, and the second writes over the first. -/
theorem additions_in_network_lost :
    ∃ labels s s', Run (Network.step (.ofFormat noFloats) (fun _ _ => "client") threeNodes)
        unguarded (Network.initial threeNodes) labels s ∧
      Run (Network.step (.ofFormat noFloats) (fun _ _ => "client") threeNodes) unguarded s
        ([0, 1, 0, 1, 0, 1].map (.worker 2)) s' ∧
      (s'.node 2).process.cluster.view 1 = some ⟨"b", 2⟩ ∧
      (s'.node 2).process.cluster.nodeInCluster ⟨"a", 1⟩ = false := by
  obtain ⟨t, run, hsent, hother⟩ : ∃ t, Run (TurnNetwork.step (.ofFormat noFloats)
      (fun _ _ => "client") threeNodes) (TurnNetwork.Allows TurnNode.JoinsOther)
        (TurnNetwork.initial threeNodes) [.joinCall 0 2, .joinCall 1 2] t ∧
      (∀ w, TurnNetwork.joinRequest noFloats threeNodes (sendsTo w) 2 ∈ t.requests) ∧
      t.node 2 = (TurnNetwork.initial threeNodes).node 2 := by
    have first : TurnNetwork.step (.ofFormat noFloats) (fun _ _ => "client") threeNodes
        (TurnNetwork.initial threeNodes) (.joinCall 0 2) = some _ := rfl
    have allowed : (TurnNetwork.initial threeNodes).Allows TurnNode.JoinsOther (.joinCall 0 2) :=
      show (2 : Fin 3) ≠ 0 by decide
    have allowed' : ∀ t : TurnNetwork 3, t.Allows TurnNode.JoinsOther (.joinCall 1 2) :=
      fun _ => show (2 : Fin 3) ≠ 1 by decide
    refine ⟨_, (Run.single allowed first).snoc (allowed' _) rfl, fun w => ?_, rfl⟩
    by_cases hw : w = 0
    · rw [sendsTo, if_pos hw]
      exact List.mem_cons_of_mem _ List.mem_cons_self
    · rw [sendsTo, if_neg hw]
      exact List.mem_cons_self
  obtain ⟨labels, run⟩ := exists_run_turns run
  -- All workers have seen that the two nodes are not listed.
  obtain ⟨labels₁, s₁, run₁, hstart⟩ := RegistrationSystem.exists_run_start noFloats
    (fun _ _ => "client") addresses_threeNodes (s := t.atRest) (j := 2) (fun _ => rfl) hsent
  obtain ⟨labels₂, s₂, run₂, h⟩ := RegistrationSystem.exists_run_handles hstart [0, 1, 2, 3]
  have hcluster : (t.atRest.node 2).process.cluster = Cluster.new.addNode ⟨"l", 3⟩ :=
    congrArg (fun node => node.process.cluster) hother
  rw [hcluster] at h
  have hphase : ∀ w, (exec (RegistrationSystem.step fun w => threeNodes (sendsTo w))
      (RegistrationSystem.start (Cluster.new.addNode ⟨"l", 3⟩)) [0, 1, 2, 3]).phase w =
        .addNode := by
    decide
  have hworks := h.first (x := fun w => Cluster.Unlocked.addNode (threeNodes (sendsTo w)))
    (f := fun _ _ => IMQNode.Unlocked.reply) fun w => by
      rw [hphase]
      rfl
  obtain ⟨s₃, run₃, h₃⟩ := additions_in_network (.ofFormat noFloats) (fun _ _ => "client")
    threeNodes _ _ _ 2 _ s₂ hworks [0, 1, 0, 1, 0, 1] (by decide)
  refine ⟨labels ++ labels₁ ++ labels₂, s₂, s₃, ?_, run₃, ?_, ?_⟩
  · exact ((run.mono fun _ _ _ => trivial).append (run₁.mono fun _ _ _ => trivial)).append
      (run₂.mono fun _ _ _ => trivial)
  · rw [h₃.cluster]
    decide
  · rw [h₃.cluster]
    decide

end AddNodeSystem

end Imq
