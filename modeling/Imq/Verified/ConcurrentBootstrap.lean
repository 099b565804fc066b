import Imq.ConcurrentBootstrap
import Imq.Lib.Runs
import Imq.Verified.HealthPass

/-! # A health pass while `Bootstrap` overwrites the table

* `PassMove`, `BootstrapMove` — the steps, by what they do to the process;
* `PassAndBootstrap.Inv` — the nodes of the snapshot still to be looked up are
  listed, as often as they are still due;
* `PassAndBootstrap.finds_every_node` — no look-up of the pass fails as long as
  `Bootstrap` overwrites none of them.
-/

namespace Imq

open Lib Cluster IMQNode Health

/-- The nodes that are still to be looked up. -/
def PassPhase.pending : PassPhase → List HostAndPort
  | lookUp _ rest | call _ _ rest | callback _ _ rest => rest
  | _ => []

/-- Those, and the one whose callback may still remove a slot of its own. -/
def PassPhase.due : PassPhase → List HostAndPort
  | lookUp _ rest => rest
  | call client _ rest | callback client _ rest => client.hostAndPort :: rest
  | _ => []

/-- The write of an address that comes next. -/
def BootstrapPhase.nextWrite : BootstrapPhase → Option (Fin MAX_NUM_NODES × HostAndPort)
  | addAddresses idx (address :: _) _ => (readAddress idx address).toOption
  | _ => none

namespace PassAndBootstrap

/-- The slot written holds the same node already, or the own one, or one that is
    not to be looked up any more, or one that sits in more slots than it is due. -/
def Spares (s : PassAndBootstrap) (i : Fin MAX_NUM_NODES) (m : HostAndPort) : Prop :=
  s.process.cluster.node i = m ∨ s.process.cluster.node i = s.me ∨
    s.process.cluster.node i ∉ s.pass.pending ∨
    s.pass.due.count (s.process.cluster.node i) <
      s.process.cluster.getNodesInCluster.count (s.process.cluster.node i)

instance (s : PassAndBootstrap) (i : Fin MAX_NUM_NODES) (m : HostAndPort) :
    Decidable (s.Spares i m) :=
  inferInstanceAs (Decidable (_ ∨ _ ∨ _ ∨ _))

/-- If a write of `Bootstrap` comes next, it spares what is still to be looked
    up. -/
def SparesPending (s : PassAndBootstrap) : PassOrBootstrap → Prop
  | .pass _ => True
  | .bootstrap => ∀ w ∈ s.bootstrap.nextWrite.toList, s.Spares w.1 w.2

instance (s : PassAndBootstrap) (l : PassOrBootstrap) : Decidable (s.SparesPending l) :=
  match l with
  | .pass _ => .isTrue trivial
  | .bootstrap => inferInstanceAs (Decidable (∀ w ∈ s.bootstrap.nextWrite.toList, _))

/-! ## The steps of `Bootstrap` -/

/-- A step of `Bootstrap`, by what it does to the process. -/
inductive BootstrapMove (leader : HostAndPort) (s : PassAndBootstrap) : PassAndBootstrap → Prop where
  | idle : BootstrapMove leader s s
  | goOn (next : BootstrapPhase) : BootstrapMove leader s { s with bootstrap := next }
  | addLeader (next : BootstrapPhase) :
      BootstrapMove leader s { s with
        process := { s.process with cluster := s.process.cluster.register leader }
        bootstrap := next }
  | getClient (next : BootstrapPhase) :
      BootstrapMove leader s { s with
        process := { s.process with rpcStore := (s.process.rpcStore.getRPCClient leader).2 }
        bootstrap := next }
  | write {i : Fin MAX_NUM_NODES} {m : HostAndPort} (now : s.bootstrap.nextWrite = some (i, m))
      (next : BootstrapPhase) :
      BootstrapMove leader s { s with
        process := { s.process with cluster := s.process.cluster.setNode i m }
        bootstrap := next }

theorem run_addAddresses_one (idx : UInt32) (address : Json) (p : Process) :
    (Process.onCluster (addAddresses idx [address])).run p =
      match readAddress idx address with
      | .ok w => .ok () { p with cluster := p.cluster.setNode w.1 w.2 }
      | .error e => .error e p := by
  show p.withCluster ((addAddresses idx [address]).run p.cluster) = _
  rw [run_addAddresses, List.map_singleton]
  cases readAddress idx address <;> rfl

theorem ite_not_nodeInCluster (c : Cluster) (n : HostAndPort) :
    (if (!c.nodeInCluster n) = true then c.addNode n else c) = c.register n := by
  unfold register
  cases c.nodeInCluster n <;> rfl

section

variable {requester leader : HostAndPort} {answer : RPCCall Process → Except Exn Json}
  {s : PassAndBootstrap} {idx : UInt32} {address : Json} {rest : List Json}
  {members : List (Except Exn String × Json)}
  (h : s.bootstrap = .addAddresses idx (address :: rest) members)

include h

theorem bootstrapStep_address_ok {w : Fin MAX_NUM_NODES × HostAndPort}
    (hread : readAddress idx address = .ok w) :
    s.bootstrapStep requester leader answer = { s with
      process := { s.process with cluster := s.process.cluster.setNode w.1 w.2 }
      bootstrap := .addAddresses idx rest members } := by
  simp only [bootstrapStep, h, run_addAddresses_one, hread]

theorem bootstrapStep_address_error {e : Exn} (hread : readAddress idx address = .error e) :
    s.bootstrapStep requester leader answer = { s with bootstrap := .thrown e } := by
  simp only [bootstrapStep, h, run_addAddresses_one, hread]

end

theorem bootstrapMove_step (requester leader : HostAndPort)
    (answer : RPCCall Process → Except Exn Json) (s : PassAndBootstrap) :
    BootstrapMove leader s (s.bootstrapStep requester leader answer) := by
  cases hphase : s.bootstrap with
  | addLeader =>
    simp only [bootstrapStep, hphase, ite_not_nodeInCluster]
    exact .addLeader .call
  | call =>
    simp only [bootstrapStep, hphase]
    cases hlisted : s.process.cluster.nodeInCluster leader with
    | false =>
      rw [Cpp.run_bind_error (run_getNodeClient_of_absent hlisted)]
      exact .goOn _
    | true =>
      rw [Cpp.run_bind_ok (run_getNodeClient hlisted)]
      cases RPCClient.call (s.process.rpcStore.getRPCClient leader).1
          ({ rpc := "GetNodesInCluster", args := registerArgs requester } : RPCCall Process) with
      | ok rpcCall => exact .getClient _
      | error e => exact .getClient _
  | get rpcCall =>
    simp only [bootstrapStep, hphase]
    cases (answer rpcCall).bind (·.elementAt "nodes") with
    | ok nodes => exact .goOn _
    | error e => exact .goOn _
  | addMembers members =>
    cases members with
    | nil =>
      simp only [bootstrapStep, hphase]
      exact .goOn _
    | cons member members =>
      simp only [bootstrapStep, hphase]
      cases member.1.bind Cpp.stoi with
      | ok idx => exact .goOn _
      | error e => exact .goOn _
  | addAddresses idx addresses members =>
    cases addresses with
    | nil =>
      simp only [bootstrapStep, hphase]
      exact .goOn _
    | cons address rest =>
      cases hread : readAddress idx address with
      | ok w =>
        have hnow : s.bootstrap.nextWrite = some (w.1, w.2) := by
          simp [hphase, BootstrapPhase.nextWrite, hread, Except.toOption]
        rw [bootstrapStep_address_ok hphase hread]
        exact .write hnow _
      | error e =>
        rw [bootstrapStep_address_error hphase hread]
        exact .goOn _
  | returned =>
    simp only [bootstrapStep, hphase]
    exact .idle
  | thrown e =>
    simp only [bootstrapStep, hphase]
    exact .idle

/-! ## The steps of the pass -/

section

variable (text : JsonText) (outcome : CallOutcome)

/-- A step of the pass, by what it does to the process and to what is due. -/
inductive PassMove (s : PassAndBootstrap) : PassAndBootstrap → Prop where
  | snapshot (now : s.pass = .snapshot) :
      PassMove s { s with pass := .lookUp healthCall s.process.cluster.getNodesInCluster }
  | finished {rpcCall : RPCCall Process} (now : s.pass = .lookUp rpcCall []) :
      PassMove s { s with pass := .finished }
  | self {rpcCall : RPCCall Process} {rest : List HostAndPort}
      (now : s.pass = .lookUp rpcCall (s.me :: rest)) :
      PassMove s { s with pass := .lookUp rpcCall rest }
  | found {rpcCall : RPCCall Process} {n : HostAndPort} {rest : List HostAndPort}
      (now : s.pass = .lookUp rpcCall (n :: rest)) (other : n ≠ s.me) :
      PassMove s { s with
        process := { s.process with rpcStore := (s.process.rpcStore.getRPCClient n).2 }
        pass := .call (s.process.rpcStore.getRPCClient n).1 rpcCall rest }
  | notFound {rpcCall : RPCCall Process} {n : HostAndPort} {rest : List HostAndPort}
      (now : s.pass = .lookUp rpcCall (n :: rest)) (other : n ≠ s.me)
      (absent : s.process.cluster.nodeInCluster n = false) :
      PassMove s { s with pass := .nodeNotFound (.logicError "Node not found.") }
  | called {client : RPCObject} {rpcCall : RPCCall Process} {rest : List HostAndPort}
      (now : s.pass = .call client rpcCall rest) :
      PassMove s { s with
        pass := .callback client { rpcCall with calleeInfo := client.hostAndPort } rest }
  | notCalled {client : RPCObject} {rpcCall : RPCCall Process} {rest : List HostAndPort} {e : Exn}
      (now : s.pass = .call client rpcCall rest) (isServer : client.kind = .server) :
      PassMove s { s with pass := .thrown e }
  | settled {client : RPCObject} {rpcCall : RPCCall Process} {rest : List HostAndPort}
      {given : Option Json} {p : Process} (now : s.pass = .callback client rpcCall rest)
      (ran : (awaitOutcome text rpcCall outcome).run s.process = .ok given p) :
      PassMove s { s with process := p, pass := .lookUp rpcCall rest }
  | threw {client : RPCObject} {rpcCall : RPCCall Process} {rest : List HostAndPort}
      {e : Exn} {p : Process} (now : s.pass = .callback client rpcCall rest)
      (ran : (awaitOutcome text rpcCall outcome).run s.process = .error e p) :
      PassMove s { s with process := p, pass := .thrown e }
  | idle (nothing : s.pass.due = []) : PassMove s s

end

section

variable {text : JsonText} {outcome : CallOutcome} {s : PassAndBootstrap}
  {rpcCall : RPCCall Process} {n : HostAndPort} {rest : List HostAndPort}

theorem passStep_last (h : s.pass = .lookUp rpcCall []) :
    s.passStep text outcome = { s with pass := .finished } := by
  simp only [passStep, h]

theorem passStep_self (h : s.pass = .lookUp rpcCall (n :: rest)) (own : n = s.me) :
    s.passStep text outcome = { s with pass := .lookUp rpcCall rest } := by
  simp [passStep, h, own]

theorem passStep_absent (h : s.pass = .lookUp rpcCall (n :: rest)) (other : n ≠ s.me)
    (absent : s.process.cluster.nodeInCluster n = false) :
    s.passStep text outcome = { s with pass := .nodeNotFound (.logicError "Node not found.") } := by
  simp only [passStep, h, if_neg (host_port_ne other), run_getNodeClient_of_absent absent]

theorem passStep_found (h : s.pass = .lookUp rpcCall (n :: rest)) (other : n ≠ s.me)
    (listed : s.process.cluster.nodeInCluster n = true) :
    s.passStep text outcome = { s with
      process := { s.process with rpcStore := (s.process.rpcStore.getRPCClient n).2 }
      pass := .call (s.process.rpcStore.getRPCClient n).1 rpcCall rest } := by
  simp only [passStep, h, if_neg (host_port_ne other), run_getNodeClient listed]

theorem passStep_call_ok {client : RPCObject} {called : RPCCall Process}
    (h : s.pass = .call client rpcCall rest) (hcall : RPCClient.call client rpcCall = .ok called) :
    s.passStep text outcome = { s with pass := .callback client called rest } := by
  simp only [passStep, h, hcall]

theorem passStep_call_error {client : RPCObject} {e : Exn} (h : s.pass = .call client rpcCall rest)
    (hcall : RPCClient.call client rpcCall = .error e) :
    s.passStep text outcome = { s with pass := .thrown e } := by
  simp only [passStep, h, hcall]

theorem passStep_callback_ok {client : RPCObject} {given : Option Json} {p : Process}
    (h : s.pass = .callback client rpcCall rest)
    (ran : (awaitOutcome text rpcCall outcome).run s.process = .ok given p) :
    s.passStep text outcome = { s with process := p, pass := .lookUp rpcCall rest } := by
  simp only [passStep, h, ran]

theorem passStep_callback_error {client : RPCObject} {e : Exn} {p : Process}
    (h : s.pass = .callback client rpcCall rest)
    (ran : (awaitOutcome text rpcCall outcome).run s.process = .error e p) :
    s.passStep text outcome = { s with process := p, pass := .thrown e } := by
  simp only [passStep, h, ran]

end

theorem passMove_step (text : JsonText) (outcome : CallOutcome) (s : PassAndBootstrap) :
    PassMove text outcome s (s.passStep text outcome) := by
  cases hphase : s.pass with
  | snapshot =>
    simp only [passStep, hphase]
    exact .snapshot hphase
  | lookUp rpcCall nodes =>
    cases nodes with
    | nil =>
      rw [passStep_last hphase]
      exact .finished hphase
    | cons n rest =>
      by_cases hme : n = s.me
      · rw [passStep_self hphase hme]
        rw [hme] at hphase
        exact .self hphase
      · cases hlisted : s.process.cluster.nodeInCluster n with
        | true =>
          rw [passStep_found hphase hme hlisted]
          exact .found hphase hme
        | false =>
          rw [passStep_absent hphase hme hlisted]
          exact .notFound hphase hme hlisted
  | call client rpcCall rest =>
    cases hkind : client.kind with
    | client =>
      have hcall : RPCClient.call client rpcCall =
          .ok { rpcCall with calleeInfo := client.hostAndPort } := by
        simp only [RPCClient.call, hkind]
      rw [passStep_call_ok hphase hcall]
      exact .called hphase
    | server =>
      have hcall : RPCClient.call client rpcCall =
          .error (.undefined "an RPCServer used as an RPCClient") := by
        simp only [RPCClient.call, hkind]
      rw [passStep_call_error hphase hcall]
      exact .notCalled hphase hkind
  | callback client rpcCall rest =>
    cases hrun : (awaitOutcome text rpcCall outcome).run s.process with
    | ok given p =>
      rw [passStep_callback_ok hphase hrun]
      exact .settled hphase hrun
    | error e p =>
      rw [passStep_callback_error hphase hrun]
      exact .threw hphase hrun
  | finished =>
    simp only [passStep, hphase]
    exact .idle (by simp [hphase, PassPhase.due])
  | nodeNotFound e =>
    simp only [passStep, hphase]
    exact .idle (by simp [hphase, PassPhase.due])
  | thrown e =>
    simp only [passStep, hphase]
    exact .idle (by simp [hphase, PassPhase.due])

/-! ## Each of the two alone -/

section

variable (text : JsonText) (requester leader : HostAndPort)
  (answer : RPCCall Process → Except Exn Json) (s : PassAndBootstrap)

theorem step_pass (outcome : CallOutcome) :
    s.step text requester leader answer (.pass outcome) = s.passStep text outcome := rfl

theorem step_bootstrap :
    s.step text requester leader answer .bootstrap = s.bootstrapStep requester leader answer := rfl

end

/-- What is left of a computation, with the exception that ended it if one did. -/
def codeEnd {α : Type} : EStateM.Result Exn Process α → Process × Option (Option Exn)
  | .ok _ p => (p, some none)
  | .error e p => (p, some (some e))

theorem codeEnd_map {α β : Type} (x : EStateM Exn Process α) (f : α → β) (p : Process) :
    codeEnd ((do return f (← x)).run p) = codeEnd (x.run p) := by
  cases hrun : x.run p with
  | ok a p' =>
    rw [Cpp.run_bind_ok hrun]
    rfl
  | error e p' =>
    rw [Cpp.run_bind_error hrun]
    rfl

/-- The same of the pass, once it has ended. -/
def passEnd (s : PassAndBootstrap) : Process × Option (Option Exn) :=
  (s.process, match s.pass with
    | .finished => some none
    | .nodeNotFound e | .thrown e => some (some e)
    | _ => none)

/-- The same of `Bootstrap`, once it has ended. -/
def bootstrapEnd (s : PassAndBootstrap) : Process × Option (Option Exn) :=
  (s.process, match s.bootstrap with
    | .returned => some none
    | .thrown e => some (some e)
    | _ => none)

section

variable (text : JsonText) (requester leader : HostAndPort)
  (answer : RPCCall Process → Except Exn Json)

/-- One call of the pass, if the rest of the pass is known. -/
theorem exec_call_alone (outcome : HostAndPort → CallOutcome) {rest : List HostAndPort}
    {me : HostAndPort}
    (later : ∀ (s : PassAndBootstrap) (rpcCall : RPCCall Process), s.me = me →
      s.pass = .lookUp rpcCall rest → ∃ outcomes : List CallOutcome,
        (exec (step text requester leader answer) s (outcomes.map .pass)).passEnd =
          codeEnd ((checkNodes text outcome me rpcCall rest).run s.process))
    {s : PassAndBootstrap} {client : RPCObject} {rpcCall : RPCCall Process} (hme : s.me = me)
    (h : s.pass = .call client rpcCall rest) :
    ∃ outcomes : List CallOutcome,
      (exec (step text requester leader answer) s (outcomes.map .pass)).passEnd =
        codeEnd ((do
          let rpcCall ← Cpp.ofExcept (RPCClient.call client rpcCall)
          let callback ← awaitOutcome text rpcCall (outcome client.hostAndPort)
          let events ← checkNodes text outcome me rpcCall rest
          return { called := client, callback := callback } :: events :
            EStateM Exn Process (List CheckEvent)).run s.process) := by
  cases hcall : RPCClient.call client rpcCall with
  | error e =>
    refine ⟨[.neither], ?_⟩
    rw [List.map_singleton, exec_cons, step_pass, passStep_call_error h hcall,
      Cpp.run_bind_error (Cpp.run_ofExcept_error e _)]
    rfl
  | ok called =>
    rw [Cpp.run_bind_ok (Cpp.run_ofExcept_ok called _)]
    generalize hs : { s with pass := PassPhase.callback client called rest } = s₁
    have hphase : s₁.pass = .callback client called rest := hs ▸ rfl
    have hprocess : s₁.process = s.process := hs ▸ rfl
    rw [← hprocess]
    cases hrun : (awaitOutcome text called (outcome client.hostAndPort)).run s₁.process with
    | error e p =>
      refine ⟨[.neither, outcome client.hostAndPort], ?_⟩
      rw [List.map_cons, List.map_singleton, exec_cons, step_pass, passStep_call_ok h hcall, hs,
        exec_cons, step_pass, passStep_callback_error hphase hrun, Cpp.run_bind_error hrun]
      rfl
    | ok given p =>
      have hme₁ : s₁.me = me := hs ▸ hme
      obtain ⟨outcomes, hrest⟩ := later { s₁ with process := p, pass := .lookUp called rest } called
        hme₁ rfl
      refine ⟨.neither :: outcome client.hostAndPort :: outcomes, ?_⟩
      rw [List.map_cons, List.map_cons, exec_cons, step_pass, passStep_call_ok h hcall, hs,
        exec_cons, step_pass, passStep_callback_ok hphase hrun, hrest, Cpp.run_bind_ok hrun]
      exact (codeEnd_map ..).symm

theorem exec_lookUps_alone (outcome : HostAndPort → CallOutcome) (nodes : List HostAndPort)
    (s : PassAndBootstrap) (rpcCall : RPCCall Process) (h : s.pass = .lookUp rpcCall nodes) :
    ∃ outcomes : List CallOutcome,
      (exec (step text requester leader answer) s (outcomes.map .pass)).passEnd =
        codeEnd ((checkNodes text outcome s.me rpcCall nodes).run s.process) := by
  induction nodes generalizing s rpcCall with
  | nil =>
    refine ⟨[.neither], ?_⟩
    rw [List.map_singleton, exec_cons, step_pass, passStep_last h]
    rfl
  | cons n rest ih =>
    by_cases hme : n = s.me
    · obtain ⟨outcomes, hrest⟩ := ih { s with pass := .lookUp rpcCall rest } rpcCall rfl
      refine ⟨.neither :: outcomes, ?_⟩
      rw [List.map_cons, exec_cons, step_pass, passStep_self h hme, hrest, hme, checkNodes_self]
    · rw [checkNodes, if_neg (host_port_ne hme)]
      cases hlisted : s.process.cluster.nodeInCluster n with
      | false =>
        refine ⟨[.neither], ?_⟩
        rw [List.map_singleton, exec_cons, step_pass, passStep_absent h hme hlisted,
          Cpp.run_bind_error (run_getNodeClient_of_absent hlisted)]
        rfl
      | true =>
        have hlater : ∀ (s' : PassAndBootstrap) (rpcCall : RPCCall Process), s'.me = s.me →
            s'.pass = .lookUp rpcCall rest → ∃ outcomes : List CallOutcome,
              (exec (step text requester leader answer) s' (outcomes.map .pass)).passEnd =
                codeEnd ((checkNodes text outcome s.me rpcCall rest).run s'.process) :=
          fun s' rpcCall he hs => he ▸ ih s' rpcCall hs
        obtain ⟨outcomes, hcall⟩ := exec_call_alone text requester leader answer outcome hlater
          (s := { s with
            process := { s.process with rpcStore := (s.process.rpcStore.getRPCClient n).2 }
            pass := .call (s.process.rpcStore.getRPCClient n).1 rpcCall rest }) rfl rfl
        refine ⟨.neither :: outcomes, ?_⟩
        rw [List.map_cons, exec_cons, step_pass, passStep_found h hme hlisted, hcall,
          Cpp.run_bind_ok (run_getNodeClient hlisted)]

/-- The steps of the pass, one after the other, are one pass of the health
    checker. -/
theorem exec_pass_alone (outcome : HostAndPort → CallOutcome) (p : Process) :
    ∃ outcomes : List CallOutcome,
      (exec (step text requester leader answer) (start p) (outcomes.map .pass)).passEnd =
        codeEnd ((performHealthChecksPass text outcome).run p) := by
  obtain ⟨outcomes, hpass⟩ := exec_lookUps_alone text requester leader answer outcome
    p.cluster.getNodesInCluster { start p with
      pass := .lookUp healthCall p.cluster.getNodesInCluster } healthCall rfl
  refine ⟨.neither :: outcomes, ?_⟩
  rw [List.map_cons, exec_cons]
  exact hpass

theorem run_addAddresses_cons_ok {idx : UInt32} {address : Json}
    {w : Fin MAX_NUM_NODES × HostAndPort} (h : readAddress idx address = .ok w) (rest : List Json)
    (c : Cluster) :
    (addAddresses idx (address :: rest)).run c = (addAddresses idx rest).run (c.setNode w.1 w.2) := by
  rw [run_addAddresses, run_addAddresses, List.map_cons, h, upToError_cons_ok]
  rfl

theorem run_addAddresses_cons_error {idx : UInt32} {address : Json} {e : Exn}
    (h : readAddress idx address = .error e) (rest : List Json) (c : Cluster) :
    (addAddresses idx (address :: rest)).run c = .error e c := by
  rw [run_addAddresses, List.map_cons, h, upToError_cons_error]
  rfl

/-- The addresses under one key, if the members behind it are known. -/
theorem exec_addAddresses_alone {members : List (Except Exn String × Json)}
    (later : ∀ s : PassAndBootstrap, s.bootstrap = .addMembers members →
      ∃ d, (exec (step text requester leader answer) s (List.replicate d .bootstrap)).bootstrapEnd =
        codeEnd ((Process.onCluster (addMembers members)).run s.process))
    (idx : UInt32) (addresses : List Json) (s : PassAndBootstrap)
    (h : s.bootstrap = .addAddresses idx addresses members) :
    ∃ d, (exec (step text requester leader answer) s (List.replicate d .bootstrap)).bootstrapEnd =
      codeEnd ((Process.onCluster (do addAddresses idx addresses; addMembers members)).run
        s.process) := by
  induction addresses generalizing s with
  | nil =>
    have hstep : s.bootstrapStep requester leader answer =
        { s with bootstrap := .addMembers members } := by
      simp only [bootstrapStep, h]
    obtain ⟨d, hd⟩ := later { s with bootstrap := .addMembers members } rfl
    refine ⟨d + 1, ?_⟩
    rw [List.replicate_succ, exec_cons, step_bootstrap, hstep, hd]
    rfl
  | cons address rest ih =>
    show ∃ d, _ = codeEnd (s.process.withCluster ((do
      addAddresses idx (address :: rest)
      addMembers members).run s.process.cluster))
    rw [EStateM.run_bind]
    cases hread : readAddress idx address with
    | error e =>
      refine ⟨1, ?_⟩
      rw [List.replicate_one, exec_cons, step_bootstrap, bootstrapStep_address_error h hread,
        run_addAddresses_cons_error hread]
      rfl
    | ok w =>
      obtain ⟨d, hd⟩ := ih { s with
        process := { s.process with cluster := s.process.cluster.setNode w.1 w.2 }
        bootstrap := .addAddresses idx rest members } rfl
      refine ⟨d + 1, ?_⟩
      rw [List.replicate_succ, exec_cons, step_bootstrap, bootstrapStep_address_ok h hread, hd,
        run_addAddresses_cons_ok hread, ← EStateM.run_bind]
      rfl

theorem exec_addMembers_alone (members : List (Except Exn String × Json)) (s : PassAndBootstrap)
    (h : s.bootstrap = .addMembers members) :
    ∃ d, (exec (step text requester leader answer) s (List.replicate d .bootstrap)).bootstrapEnd =
      codeEnd ((Process.onCluster (addMembers members)).run s.process) := by
  induction members generalizing s with
  | nil =>
    have hstep : s.bootstrapStep requester leader answer = { s with bootstrap := .returned } := by
      simp only [bootstrapStep, h]
    exact ⟨1, by rw [List.replicate_one, exec_cons, step_bootstrap, hstep]; rfl⟩
  | cons member rest ih =>
    obtain ⟨key, value⟩ := member
    show ∃ d, _ = codeEnd (s.process.withCluster ((addMembers ((key, value) :: rest)).run
      s.process.cluster))
    rw [addMembers]
    cases hkey : key.bind Cpp.stoi with
    | error e =>
      have hstep : s.bootstrapStep requester leader answer =
          { s with bootstrap := .thrown e } := by
        simp only [bootstrapStep, h, hkey]
      refine ⟨1, ?_⟩
      rw [List.replicate_one, exec_cons, step_bootstrap, hstep,
        Cpp.run_bind_error (Cpp.run_ofExcept_error e _)]
      rfl
    | ok idx =>
      have hstep : s.bootstrapStep requester leader answer =
          { s with bootstrap := .addAddresses (UInt32.ofInt idx) value.elements rest } := by
        simp only [bootstrapStep, h, hkey]
      obtain ⟨d, hd⟩ := exec_addAddresses_alone text requester leader answer ih (UInt32.ofInt idx)
        value.elements { s with
          bootstrap := .addAddresses (UInt32.ofInt idx) value.elements rest } rfl
      refine ⟨d + 1, ?_⟩
      rw [List.replicate_succ, exec_cons, step_bootstrap, hstep, hd,
        Cpp.run_bind_ok (Cpp.run_ofExcept_ok idx _)]
      rfl

/-- What follows the call, from what `Get` makes of it. -/
theorem exec_get_alone (s : PassAndBootstrap) (rpcCall : RPCCall Process)
    (h : s.bootstrap = .get rpcCall) :
    ∃ d, (exec (step text requester leader answer) s (List.replicate d .bootstrap)).bootstrapEnd =
      codeEnd ((do
        let response ← Cpp.ofExcept (answer rpcCall)
        Process.onCluster (bootstrapReply response) : EStateM Exn Process Unit).run s.process) := by
  have hthrow : ∀ e, (answer rpcCall).bind (·.elementAt "nodes") = .error e →
      (exec (step text requester leader answer) s (List.replicate 1 .bootstrap)).bootstrapEnd =
        (s.process, some (some e)) := by
    intro e he
    have hstep : s.bootstrapStep requester leader answer =
        { s with bootstrap := .thrown e } := by
      simp only [bootstrapStep, h, he]
    rw [List.replicate_one, exec_cons, step_bootstrap, hstep]
    rfl
  cases hanswer : answer rpcCall with
  | error e =>
    refine ⟨1, ?_⟩
    rw [hthrow e (by rw [hanswer]; rfl), Cpp.run_bind_error (Cpp.run_ofExcept_error e _)]
    rfl
  | ok response =>
    have hbind : (answer rpcCall).bind (·.elementAt "nodes") = response.elementAt "nodes" := by
      rw [hanswer]
      rfl
    rw [Cpp.run_bind_ok (Cpp.run_ofExcept_ok response _)]
    show ∃ d, _ = codeEnd (s.process.withCluster ((bootstrapReply response).run s.process.cluster))
    rw [bootstrapReply]
    cases hnodes : response.elementAt "nodes" with
    | error e =>
      refine ⟨1, ?_⟩
      rw [hthrow e (by rw [hbind, hnodes]), Cpp.run_bind_error (Cpp.run_ofExcept_error e _)]
      rfl
    | ok nodes =>
      have hstep : s.bootstrapStep requester leader answer =
          { s with bootstrap := .addMembers nodes.items } := by
        simp only [bootstrapStep, h, hbind, hnodes]
      obtain ⟨d, hd⟩ := exec_addMembers_alone text requester leader answer nodes.items
        { s with bootstrap := .addMembers nodes.items } rfl
      refine ⟨d + 1, ?_⟩
      rw [List.replicate_succ, exec_cons, step_bootstrap, hstep, hd,
        Cpp.run_bind_ok (Cpp.run_ofExcept_ok nodes _)]
      rfl

/-- The steps of `Bootstrap`, one after the other, are `Bootstrap`. -/
theorem exec_bootstrap_alone (p : Process) :
    ∃ d, (exec (step text requester leader answer) (start p)
      (List.replicate d .bootstrap)).bootstrapEnd =
        codeEnd ((Cluster.bootstrap requester leader answer).run p) := by
  obtain ⟨s, hadd, hphase, hprocess⟩ : ∃ s, (start p).bootstrapStep requester leader answer = s ∧
      s.bootstrap = .call ∧ s.process = { p with cluster := p.cluster.register leader } := by
    refine ⟨_, rfl, rfl, ?_⟩
    rw [← ite_not_nodeInCluster]
    rfl
  unfold Cluster.bootstrap
  rw [EStateM.run_bind, bootstrapCall_register, ← hprocess]
  cases hcall : (do
      let node ← getNodeClient leader
      Cpp.ofExcept (RPCClient.call node
        { rpc := "GetNodesInCluster", args := registerArgs requester }) :
        EStateM Exn Process (RPCCall Process)).run s.process with
  | error e q =>
    have hstep : s.bootstrapStep requester leader answer =
        { s with process := q, bootstrap := .thrown e } := by
      simp only [bootstrapStep, hphase, hcall]
    refine ⟨2, ?_⟩
    rw [List.replicate_succ, List.replicate_one, exec_cons, step_bootstrap, hadd, exec_cons,
      step_bootstrap, hstep]
    rfl
  | ok rpcCall q =>
    have hstep : s.bootstrapStep requester leader answer =
        { s with process := q, bootstrap := .get rpcCall } := by
      simp only [bootstrapStep, hphase, hcall]
    obtain ⟨d, hd⟩ := exec_get_alone text requester leader answer
      { s with process := q, bootstrap := .get rpcCall } rpcCall rfl
    refine ⟨d + 2, ?_⟩
    rw [List.replicate_succ, List.replicate_succ, exec_cons, step_bootstrap, hadd, exec_cons,
      step_bootstrap, hstep, hd]

end

/-! ## What is due is listed -/

/-- The call object is that of the pass, with the callee of the last call. -/
def Named : PassPhase → Prop
  | .lookUp rpcCall _ | .call _ rpcCall _ => ∃ callee, rpcCall = callTo callee
  | .callback client rpcCall _ => rpcCall = callTo client.hostAndPort
  | _ => True

structure Inv (s : PassAndBootstrap) : Prop where
  /-- What is still to be looked up is listed, as often as it is due. -/
  listed : ∀ n ∈ s.pass.pending, n ≠ s.me →
    s.pass.due.count n ≤ s.process.cluster.getNodesInCluster.count n
  named : Named s.pass
  found : ∀ e, s.pass ≠ .nodeNotFound e

theorem inv_start (p : Process) : (start p).Inv where
  listed n h := by simp [start, PassPhase.pending] at h
  named := trivial
  found := nofun

/-- A callback that returns has settled the node that was called. -/
theorem settled_of_awaitOutcome {text : JsonText} {n : HostAndPort} {outcome : CallOutcome}
    {p p' : Process} {given : Option Json}
    (ran : (awaitOutcome text (callTo n) outcome).run p = .ok given p') :
    p' = p.settle n outcome := by
  cases outcome with
  | answered message =>
    have hset : (callTo n).messageReceiptCallback = some healthyNodeCallback := rfl
    cases hparsed : RPCResponse.parsedResponse text (callTo n) message with
    | ok reply =>
      have hcallee : calleeOf reply = .ok n := RPCResponse.calleeOf_parsedResponse hparsed
      have hrun := RPCResponse.run_doMessageCallback hset hparsed (run_healthyNodeCallback hcallee p)
      rw [awaitOutcome, hrun] at ran
      cases ran
      rfl
    | error e =>
      simp only [awaitOutcome, RPCResponse.doMessageCallback, hset, hparsed] at ran
      rw [Cpp.run_bind_error (Cpp.run_ofExcept_error e p)] at ran
      cases ran
  | timedOut =>
    have hreadable : CallOutcome.timedOut.Readable text := trivial
    obtain ⟨callback, hrun, _⟩ := run_awaitOutcome hreadable n p
    rw [hrun] at ran
    cases ran
    rfl
  | neither =>
    cases ran
    rfl

theorem cluster_settle (p : Process) (n : HostAndPort) (outcome : CallOutcome) :
    (p.settle n outcome).cluster = p.cluster ∨
      (p.settle n outcome).cluster = p.cluster.removeNode n := by
  cases outcome with
  | answered message => exact .inl rfl
  | timedOut =>
    show (p.timedOut n).cluster = p.cluster ∨ (p.timedOut n).cluster = p.cluster.removeNode n
    cases hr : p.potentiallyFailing n with
    | none =>
      rw [Process.timedOut_of_none hr]
      exact .inl rfl
    | some r =>
      rw [Process.timedOut_of_some hr]
      split
      · exact .inr rfl
      · exact .inl rfl
  | neither => exact .inl rfl

/-- Settling one node costs it at most one of its slots, and no other node any. -/
theorem count_settle (p : Process) (n : HostAndPort) (outcome : CallOutcome)
    (rest : List HostAndPort) {m : HostAndPort}
    (h : (n :: rest).count m ≤ p.cluster.getNodesInCluster.count m) :
    rest.count m ≤ (p.settle n outcome).cluster.getNodesInCluster.count m := by
  obtain hsame | hremoved := cluster_settle p n outcome
  · rw [hsame]
    exact (List.count_le_count_cons ..).trans h
  · rw [hremoved, count_removeNode]
    by_cases hm : n = m
    · rw [hm, List.count_cons_self] at h
      rw [if_pos hm]
      omega
    · rw [List.count_cons_of_ne hm] at h
      rwa [if_neg hm]

section

variable {text : JsonText} {outcome : CallOutcome} {leader : HostAndPort} {s s' : PassAndBootstrap}

theorem inv_pass (h : s.Inv) (move : PassMove text outcome s s') : s'.Inv := by
  obtain ⟨listed, named, found⟩ := h
  cases move with
  | snapshot now => exact ⟨fun n _ _ => Nat.le_refl _, ⟨{}, rfl⟩, nofun⟩
  | finished now =>
    exact ⟨fun n hn => by simp [PassPhase.pending] at hn, trivial, nofun⟩
  | @self rpcCall rest now =>
    rw [now] at listed named
    refine ⟨fun n hn hne => ?_, named, nofun⟩
    have hle := listed n (List.mem_cons_of_mem s.me hn) hne
    exact (List.count_le_count_cons ..).trans hle
  | @found rpcCall n rest now other =>
    rw [now] at listed named
    have haddr : (s.process.rpcStore.getRPCClient n).1.hostAndPort = n :=
      RPCStore.hostAndPort_getOrConstruct s.process.rpcStore .client n
    refine ⟨fun m hm hne => ?_, named, nofun⟩
    have hle := listed m (List.mem_cons_of_mem n hm) hne
    simpa only [PassPhase.due, haddr] using hle
  | @notFound rpcCall n rest now other absent =>
    rw [now] at listed
    -- The node is due, so it is listed.
    have hle := listed n List.mem_cons_self other
    have hpos : 0 < (n :: rest).count n := List.count_pos_iff.mpr List.mem_cons_self
    have hmem := nodeInCluster_of_mem (List.count_pos_iff.mp (hpos.trans_le hle))
    simp [absent] at hmem
  | @called client rpcCall rest now =>
    rw [now] at listed named
    obtain ⟨callee, hcall⟩ := named
    exact ⟨listed, by simp only [Named, hcall, callTo], nofun⟩
  | notCalled now =>
    exact ⟨fun n hn => by simp [PassPhase.pending] at hn, trivial, nofun⟩
  | @settled client rpcCall rest given p now ran =>
    rw [now] at listed named
    simp only [Named] at named
    rw [named] at ran
    have hsettled := settled_of_awaitOutcome ran
    refine ⟨fun n hn hne => ?_, ⟨_, named⟩, nofun⟩
    rw [hsettled]
    exact count_settle s.process client.hostAndPort _ rest (listed n hn hne)
  | threw now ran =>
    exact ⟨fun n hn => by simp [PassPhase.pending] at hn, trivial, nofun⟩
  | idle => exact ⟨listed, named, found⟩

theorem inv_bootstrap (h : s.Inv) (spares : s.SparesPending .bootstrap)
    (move : BootstrapMove leader s s') : s'.Inv := by
  cases move with
  | idle => exact h
  | goOn next => exact ⟨h.listed, h.named, h.found⟩
  | addLeader next =>
    refine ⟨fun n hn hne => ?_, h.named, h.found⟩
    exact (h.listed n hn hne).trans (count_le_register s.process.cluster leader n)
  | getClient next => exact ⟨h.listed, h.named, h.found⟩
  | @write i m now next =>
    have hspares : s.Spares i m := spares (i, m) (by simp [now])
    refine ⟨fun n hn hne => ?_, h.named, h.found⟩
    have hle := h.listed n hn hne
    show s.pass.due.count n ≤ (s.process.cluster.setNode i m).getNodesInCluster.count n
    by_cases hv : s.process.cluster.view i = some n
    · obtain ⟨hnode, hhost⟩ := listed_eq_some_iff.mp hv
      rw [Spares, hnode] at hspares
      obtain hsame | hown | hnot | hmore := hspares
      · -- The slot is written with what it holds.
        have hcount := count_setNode s.process.cluster i m n
        rw [← hsame, listed_of_host hhost, hv] at hcount
        rw [← hsame]
        omega
      · exact absurd hown hne
      · exact absurd hn hnot
      · have hone := count_le_setNode_add_one s.process.cluster i m n
        omega
    · exact hle.trans (count_le_setNode hv m)

/-! ## No other exception -/

/-- What keeps the thread from ending by another exception. -/
structure Alive (s : PassAndBootstrap) : Prop where
  servers : s.process.rpcStore.ServersOnlyAt s.me
  client : ∀ client rpcCall rest, s.pass = .call client rpcCall rest → client.kind = .client
  alive : ∀ e, s.pass ≠ .thrown e

theorem alive_pass (inv : s.Inv) (h : s.Alive) (readable : outcome.Readable text)
    (move : PassMove text outcome s s') : s'.Alive := by
  obtain ⟨servers, client, alive⟩ := h
  cases move with
  | snapshot now => exact ⟨servers, nofun, nofun⟩
  | finished now => exact ⟨servers, nofun, nofun⟩
  | self now => exact ⟨servers, nofun, nofun⟩
  | @found rpcCall n rest now other =>
    refine ⟨RPCStore.serversOnlyAt_getRPCClient servers n, fun found called later he => ?_, nofun⟩
    cases he
    exact RPCStore.kind_getRPCClient servers other
  | notFound now => exact ⟨servers, nofun, nofun⟩
  | called now => exact ⟨servers, nofun, nofun⟩
  | notCalled now isServer =>
    have hclient := client _ _ _ now
    simp [isServer] at hclient
  | @settled called rpcCall rest given p now ran =>
    have hnamed := inv.named
    rw [now] at hnamed
    simp only [Named] at hnamed
    rw [hnamed] at ran
    refine ⟨?_, nofun, nofun⟩
    rw [settled_of_awaitOutcome ran, Process.rpcStore_settle]
    exact servers
  | @threw called rpcCall rest e p now ran =>
    have hnamed := inv.named
    rw [now] at hnamed
    simp only [Named] at hnamed
    obtain ⟨callback, hrun, _⟩ := run_awaitOutcome readable called.hostAndPort s.process
    rw [hnamed, hrun] at ran
    cases ran
  | idle => exact ⟨servers, client, alive⟩

theorem alive_bootstrap (h : s.Alive) (move : BootstrapMove leader s s') : s'.Alive := by
  cases move with
  | idle => exact h
  | goOn next => exact ⟨h.servers, h.client, h.alive⟩
  | addLeader next => exact ⟨h.servers, h.client, h.alive⟩
  | getClient next =>
    exact ⟨RPCStore.serversOnlyAt_getRPCClient h.servers leader, h.client, h.alive⟩
  | write now next => exact ⟨h.servers, h.client, h.alive⟩

end

/-! ## Whole runs -/

section

variable (text : JsonText) (requester leader : HostAndPort)
  (answer : RPCCall Process → Except Exn Json)

theorem inv_step {s : PassAndBootstrap} {l : PassOrBootstrap} (h : s.Inv)
    (spares : s.SparesPending l) : (s.step text requester leader answer l).Inv := by
  cases l with
  | pass outcome => exact inv_pass h (passMove_step text outcome s)
  | bootstrap => exact inv_bootstrap h spares (bootstrapMove_step requester leader answer s)

theorem alive_step {s : PassAndBootstrap} {l : PassOrBootstrap} (inv : s.Inv) (h : s.Alive)
    (readable : ∀ outcome, l = .pass outcome → outcome.Readable text) :
    (s.step text requester leader answer l).Alive := by
  cases l with
  | pass outcome => exact alive_pass inv h (readable outcome rfl) (passMove_step text outcome s)
  | bootstrap => exact alive_bootstrap h (bootstrapMove_step requester leader answer s)

/-- In every interleaving of a pass with a `Bootstrap` none of whose writes takes
    away what is still to be looked up, no look-up fails.  No other exception ends
    the health thread either, if the answers are JSON objects and no other node's
    address has a server here. -/
theorem finds_every_node (p : Process) (run : List PassOrBootstrap)
    (spares : Guarded SparesPending (step text requester leader answer) (start p) run) :
    Always (fun s => ∀ e, s.pass ≠ .nodeNotFound e) (step text requester leader answer) (start p)
      run ∧
    ((∀ outcome, .pass outcome ∈ run → outcome.Readable text) →
      p.rpcStore.ServersOnlyAt p.metaStore →
      Always (fun s => ∀ e, s.pass ≠ .thrown e) (step text requester leader answer) (start p)
        run) := by
  have hkeep : ∀ (s : PassAndBootstrap) (l : PassOrBootstrap), s.Inv → s.SparesPending l →
      (s.step text requester leader answer l).Inv :=
    fun _ _ => inv_step text requester leader answer
  have hinv := always_of_guarded hkeep (inv_start p) spares
  refine ⟨hinv.mono fun _ h => h.found, fun readable servers => ?_⟩
  have hstart : (start p).Inv ∧ (start p).Alive := ⟨inv_start p, servers, nofun, nofun⟩
  have hboth : ∀ (s : PassAndBootstrap) (l : PassOrBootstrap), s.Inv ∧ s.Alive →
      s.SparesPending l ∧ (∀ outcome, l = .pass outcome → outcome.Readable text) →
      (s.step text requester leader answer l).Inv ∧
        (s.step text requester leader answer l).Alive :=
    fun _ _ h hl => ⟨inv_step text requester leader answer h.1 hl.1,
      alive_step text requester leader answer h.1 h.2 hl.2⟩
  have hguard : Guarded (fun (_ : PassAndBootstrap) l =>
      ∀ outcome, l = .pass outcome → outcome.Readable text) (step text requester leader answer)
      (start p) run :=
    guarded_of_forall fun _ l hl outcome he => readable outcome (he ▸ hl)
  exact (always_of_guarded hboth hstart (spares.and hguard)).mono fun _ h => h.2.alive

end

/-! ## A write that spares them not -/

section

variable (text : JsonText) (requester leader : HostAndPort)
  (answer : RPCCall Process → Except Exn Json)

/-- If a node that is still to be looked up is not listed, the thread comes to
    the failing look-up when it goes on alone. -/
theorem meets_absent {n : HostAndPort} (rest : List HostAndPort) (s : PassAndBootstrap)
    (rpcCall : RPCCall Process) (h : s.pass = .lookUp rpcCall rest) (pending : n ∈ rest)
    (other : n ≠ s.me) (absent : s.process.cluster.nodeInCluster n = false)
    (servers : s.process.rpcStore.ServersOnlyAt s.me) :
    ∃ d e, (exec (step text requester leader answer) s (List.replicate d (.pass .neither))).pass =
      .nodeNotFound e := by
  induction rest generalizing s rpcCall with
  | nil => cases pending
  | cons k rest ih =>
    by_cases hk : k = s.me
    · have hlater : n ∈ rest := (List.mem_cons.mp pending).resolve_left fun he => other (he.trans hk)
      obtain ⟨d, e, hd⟩ := ih { s with pass := .lookUp rpcCall rest } rpcCall rfl hlater other absent
        servers
      exact ⟨d + 1, e, by rw [List.replicate_succ, exec_cons, step_pass, passStep_self h hk, hd]⟩
    · cases hlisted : s.process.cluster.nodeInCluster k with
      | false =>
        refine ⟨1, .logicError "Node not found.", ?_⟩
        rw [List.replicate_one, exec_cons, step_pass, passStep_absent h hk hlisted]
        rfl
      | true =>
        have hlater : n ∈ rest := by
          refine (List.mem_cons.mp pending).resolve_left fun he => ?_
          simp [he, hlisted] at absent
        have hservers := RPCStore.serversOnlyAt_getRPCClient servers k
        have hcall := RPCStore.call_getRPCClient servers hk rpcCall
        -- Look-up, call, and a callback that does nothing.
        have hthree : exec (step text requester leader answer) s
            (List.replicate 3 (.pass .neither)) = { s with
              process := { s.process with rpcStore := (s.process.rpcStore.getRPCClient k).2 }
              pass := .lookUp { rpcCall with calleeInfo := k } rest } := by
          rw [List.replicate_succ, exec_cons, step_pass, passStep_found h hk hlisted,
            List.replicate_succ, exec_cons, step_pass]
          simp only [passStep, hcall]
          rfl
        obtain ⟨d, e, hd⟩ := ih { s with
          process := { s.process with rpcStore := (s.process.rpcStore.getRPCClient k).2 }
          pass := .lookUp { rpcCall with calleeInfo := k } rest } _ rfl hlater other absent hservers
        exact ⟨3 + d, e, by rw [← List.replicate_append_replicate, exec_append, hthree, hd]⟩

theorem step_write {s : PassAndBootstrap} {i : Fin MAX_NUM_NODES} {m : HostAndPort}
    (now : s.bootstrap.nextWrite = some (i, m)) :
    ∃ next, s.step text requester leader answer .bootstrap = { s with
      process := { s.process with cluster := s.process.cluster.setNode i m }
      bootstrap := next } := by
  cases hphase : s.bootstrap with
  | addAddresses idx addresses members =>
    cases addresses with
    | nil => simp [hphase, BootstrapPhase.nextWrite] at now
    | cons address rest =>
      cases hread : readAddress idx address with
      | ok w =>
        simp only [hphase, BootstrapPhase.nextWrite, hread, Except.toOption, Option.some.injEq] at now
        rw [now] at hread
        exact ⟨_, bootstrapStep_address_ok hphase hread⟩
      | error e => simp [hphase, BootstrapPhase.nextWrite, hread, Except.toOption] at now
  | _ => simp [hphase, BootstrapPhase.nextWrite] at now

/-- In a table without duplicates no weaker condition would do: after a write
    that does not spare what is still to be looked up, the thread meets the node
    that is gone if it goes on before the next write. -/
theorem meets_overwritten {s : PassAndBootstrap} (inv : s.Inv) (alive : s.Alive)
    (nodup : s.process.cluster.NoDuplicate) {i : Fin MAX_NUM_NODES} {m : HostAndPort}
    (now : s.bootstrap.nextWrite = some (i, m)) (h : ¬ s.Spares i m)
    {rpcCall : RPCCall Process} {rest : List HostAndPort} (hpass : s.pass = .lookUp rpcCall rest) :
    ∃ d e, (exec (step text requester leader answer)
      (s.step text requester leader answer .bootstrap)
      (List.replicate d (.pass .neither))).pass = .nodeNotFound e := by
  rw [Spares, not_or, not_or, not_or, not_not] at h
  obtain ⟨hwritten, hother, hpending, _⟩ := h
  generalize hn : s.process.cluster.node i = n at hwritten hother hpending
  have hlisted := inv.listed n hpending hother
  rw [hpass] at hpending hlisted
  have hpos : 0 < rest.count n := List.count_pos_iff.mpr hpending
  have hmem := mem_getNodesInCluster.mp (List.count_pos_iff.mp (hpos.trans_le hlisted))
  have hhost := host_of_holds hmem
  -- The slot written was the only one of the node.
  have habsent : (s.process.cluster.setNode i m).nodeInCluster n = false := by
    rw [Bool.eq_false_iff, ne_eq, nodeInCluster_eq_true_iff]
    rintro ⟨j, hj⟩
    by_cases hji : j = i
    · rw [hji, node_setNode_self] at hj
      exact hwritten hj.symm
    · rw [node_setNode_of_ne _ hji] at hj
      exact hji (nodup j i n ((view_eq_some_iff hhost).mpr hj) ((view_eq_some_iff hhost).mpr hn))
  obtain ⟨next, hstep⟩ := step_write text requester leader answer now
  rw [hstep]
  exact meets_absent text requester leader answer rest _ rpcCall hpass hpending hother habsent
    alive.servers

end

/-- A node that lists itself and one other. -/
def joiner : Process :=
  { IMQNode.new ⟨"r", 1⟩ (Process.initial ⟨"r", 1⟩) with
    cluster := (Cluster.new.addNode ⟨"r", 1⟩).register ⟨"a", 3⟩ }

/-- A leader that lists the other one in the same slot. -/
def agreeingLeader : Cluster := (Cluster.new.addNode ⟨"l", 2⟩).register ⟨"a", 3⟩

/-- The look-up comes between the writes. -/
def lookUpBetweenWrites : List PassOrBootstrap :=
  .pass .neither :: List.replicate 6 .bootstrap ++ [.pass .neither, .pass .neither] ++
    List.replicate 5 .bootstrap ++ [.pass .neither, .pass .timedOut, .pass .neither]

theorem finds_every_node_agreeing :
    Always (fun s => ∀ e, s.pass ≠ .nodeNotFound e)
      (step healthText ⟨"r", 1⟩ ⟨"l", 2⟩ (answeredBy agreeingLeader)) (start joiner)
      lookUpBetweenWrites :=
  (finds_every_node healthText ⟨"r", 1⟩ ⟨"l", 2⟩ (answeredBy agreeingLeader) joiner
    lookUpBetweenWrites (by decide)).1

/-- A leader that nobody has joined yet answers with a table in which the joining
    node takes the slot of the other one. -/
theorem join_hides_node :
    ∃ e, (exec (step healthText ⟨"r", 1⟩ ⟨"l", 2⟩ (answeredBy (Cluster.new.addNode ⟨"l", 2⟩)))
      (start joiner) (.pass .neither :: List.replicate 8 .bootstrap ++
        [.pass .neither, .pass .neither])).pass = .nodeNotFound e :=
  ⟨.logicError "Node not found.", rfl⟩

end PassAndBootstrap

end Imq
