import Imq.RPC.Exchange
import Imq.Unlocked

/-! # A network of nodes

Every node has a main thread, which joins clusters, a health thread, and the workers of
its server.  A step is one access of a thread to the process of its node, or what the
thread does between two remote calls without any: it takes up a message, sends one, or
goes on to the next node of a pass.  The steps of all threads of all nodes interleave at
will.

What travels is text.  Anything that has been sent may be lost, overtaken, delayed, or
delivered again: it stays, and whoever it is addressed to may take it at any time.  A node
has one identity at a server; where two of its threads have built a client each, a reply
to either may reach either.  A node that an exception has ended may go on or take no
further step.

* `NetworkNode` — a process and where its threads are;
* `Network` — the nodes and what has been sent;
* `Network.step` — what may happen next.
-/

namespace Imq

open Lib (Thread)

/-! ## What is sent -/

/-- What a client has sent to the server at an endpoint. -/
structure Request (n : Nat) where
  endpoint : String
  sender : Fin n
  frames : Message
  deriving DecidableEq

instance {n : Nat} : LawfulBEq (Request n) := inferInstance

/-- What a worker of the server at an endpoint has sent. -/
structure Reply where
  endpoint : String
  sent : Message
  deriving DecidableEq

/-- `utils::ConstructTCPBindAddress`, of a host and a port: the text that a socket is bound
    or connected to. -/
def constructTCPBindAddress (host : String) (port : UInt32) : String :=
  "tcp://" ++ host ++ ":" ++ Cpp.toString port.toNat

/-- The endpoint of the server of a node, and of the clients for it. -/
def HostAndPort.endpoint (node : HostAndPort) : String :=
  constructTCPBindAddress node.host node.port

section

variable {n : Nat} (identity : String → Fin n → String) (replies : List Reply) (i : Fin n)
  (callee : HostAndPort)

/-- One of the replies of the server of the callee reaches the client of a node for it as
    this message. -/
def Arrives (message : Message) : Prop :=
  ∃ reply ∈ replies, reply.endpoint = callee.endpoint ∧
    Exchange.routedTo (identity reply.endpoint i) (some reply.sent) = some message

instance (message : Message) : Decidable (Arrives identity replies i callee message) :=
  inferInstanceAs (Decidable (∃ reply ∈ replies, _))

/-- How the response to a call may end. -/
def Receipt.Possible : Receipt → Prop
  | .received message => Arrives identity replies i callee message
  | .timedOut | .stopped => True

instance (receipt : Receipt) : Decidable (receipt.Possible identity replies i callee) :=
  match receipt with
  | .received message => inferInstanceAs (Decidable (Arrives identity replies i callee message))
  | .timedOut | .stopped => .isTrue trivial

def CallOutcome.Possible : CallOutcome → Prop
  | .answered message => Arrives identity replies i callee message
  | .timedOut | .neither => True

instance (outcome : CallOutcome) : Decidable (outcome.Possible identity replies i callee) :=
  match outcome with
  | .answered message => inferInstanceAs (Decidable (Arrives identity replies i callee message))
  | .timedOut | .neither => .isTrue trivial

end

/-! ## Nodes -/

/-- `RPCServer::num_workers_`. -/
abbrev NUM_WORKERS : Nat := 4

/-- `JoinCluster` up to `Call`, in `Get`, and from there on. -/
inductive MainStage where
  | free
  | calling (code : Code (RPCCall Process))
  | waiting (rpcCall : RPCCall Process)
  | taking (code : Code Unit)

/-- A pass of the health thread takes a snapshot, and for each node of it calls, waits for
    the end of the response, and lets the thread of the response run its callback.  The
    call object of the pass changes only in the callee. -/
inductive HealthStage where
  | asleep
  | listing (code : Code (List HostAndPort))
  | checking (rest : List HostAndPort)
  | calling (rest : List HostAndPort) (code : Code (RPCCall Process))
  | awaiting (callee : HostAndPort) (rest : List HostAndPort)
  | settling (callee : HostAndPort) (rest : List HostAndPort) (code : Code Unit)
  | ended

/-- What a worker does with a request, and the endpoint its reply goes out from. -/
structure Job where
  endpoint : String
  code : Code (Option Message)

namespace MainStage

/-- The next access, and where it leads. -/
def access : MainStage → Option ((access : Access) × (access.Answer → MainStage))
  | calling (.access access rest) => some ⟨access, fun answer => calling (rest answer)⟩
  | taking (.access access rest) => some ⟨access, fun answer => taking (rest answer)⟩
  | _ => none

end MainStage

namespace HealthStage

def access : HealthStage → Option ((access : Access) × (access.Answer → HealthStage))
  | listing (.access access rest) => some ⟨access, fun answer => listing (rest answer)⟩
  | calling nodes (.access access rest) =>
    some ⟨access, fun answer => calling nodes (rest answer)⟩
  | settling callee nodes (.access access rest) =>
    some ⟨access, fun answer => settling callee nodes (rest answer)⟩
  | _ => none

end HealthStage

namespace Job

def access : Job → Option ((access : Access) × (access.Answer → Job))
  | ⟨endpoint, .access access rest⟩ => some ⟨access, fun answer => ⟨endpoint, rest answer⟩⟩
  | _ => none

end Job

structure NetworkNode where
  process : Process
  main : MainStage := .free
  health : HealthStage := .asleep
  worker : Fin NUM_WORKERS → Option Job := fun _ => none

inductive NodeThread where
  | main
  | health
  | worker
  deriving DecidableEq

structure Network (n : Nat) where
  node : Fin n → NetworkNode
  requests : List (Request n) := []
  replies : List Reply := []
  /-- The exceptions that no thread has caught. -/
  thrown : List (NodeThread × Exn) := []

inductive NetworkStep (n : Nat) where
  /-- `JoinCluster` is called with the address of a node. -/
  | joinCall (i l : Fin n)
  /-- A worker of a node takes a request. -/
  | serve (j : Fin n) (w : Fin NUM_WORKERS) (request : Request n)
  /-- The loop in `Get` ends. -/
  | joinEnd (i : Fin n) (receipt : Receipt)
  /-- The health thread begins a pass. -/
  | pass (i : Fin n)
  /-- It goes on to the next node of its snapshot. -/
  | check (i : Fin n)
  /-- The response of its call ends. -/
  | checkEnd (i : Fin n) (outcome : CallOutcome)
  /-- A thread makes its next access, or ends what it was doing. -/
  | main (i : Fin n)
  | health (i : Fin n)
  | worker (j : Fin n) (w : Fin NUM_WORKERS)

namespace NetworkNode

def setWorker (node : NetworkNode) (w : Fin NUM_WORKERS) (job : Option Job) : NetworkNode :=
  { node with worker := Function.update node.worker w job }

end NetworkNode

namespace Network

variable {n : Nat}

/-- All nodes have just been built, in processes that are set up for their addresses. -/
def initial (address : Fin n → HostAndPort) : Network n where
  node i := { process := IMQNode.new (address i) (Process.initial (address i)) }

def setNode (s : Network n) (i : Fin n) (node : NetworkNode) : Network n :=
  { s with node := Function.update s.node i node }

def throw (s : Network n) (thread : NodeThread) (e : Exn) : Network n :=
  { s with thrown := (thread, e) :: s.thrown }

section

variable (text : JsonText) (identity : String → Fin n → String) (address : Fin n → HostAndPort)
  (s : Network n)

def send (i : Fin n) (rpcCall : RPCCall Process) : Network n :=
  { s with requests := ⟨rpcCall.calleeInfo.endpoint, i, rpcCall.frames text⟩ :: s.requests }

/-- The main thread of a node makes its next access or ends what it was doing. -/
def mainStep (i : Fin n) : Option (Network n) :=
  let node := s.node i
  match node.main.access with
  | some ⟨access, next⟩ =>
    let (answer, p) := access.perform node.process
    some (s.setNode i { node with process := p, main := next answer })
  | none =>
    match node.main with
    | .calling (.ended (.ok rpcCall)) =>
      some ((s.setNode i { node with main := .waiting rpcCall }).send text i rpcCall)
    | .taking (.ended (.ok _)) => some (s.setNode i { node with main := .free })
    | .calling (.ended (.error e)) | .taking (.ended (.error e)) =>
      some ((s.setNode i { node with main := .free }).throw .main e)
    | _ => none

def healthStep (i : Fin n) : Option (Network n) :=
  let node := s.node i
  match node.health.access with
  | some ⟨access, next⟩ =>
    let (answer, p) := access.perform node.process
    some (s.setNode i { node with process := p, health := next answer })
  | none =>
    match node.health with
    | .listing (.ended (.ok nodes)) => some (s.setNode i { node with health := .checking nodes })
    | .calling nodes (.ended (.ok rpcCall)) =>
      some ((s.setNode i { node with health := .awaiting rpcCall.calleeInfo nodes }).send text i
        rpcCall)
    | .settling _ nodes (.ended (.ok _)) => some (s.setNode i { node with health := .checking nodes })
    | .listing (.ended (.error e)) | .calling _ (.ended (.error e))
    | .settling _ _ (.ended (.error e)) =>
      some ((s.setNode i { node with health := .ended }).throw .health e)
    | _ => none

def workerStep (j : Fin n) (w : Fin NUM_WORKERS) : Option (Network n) :=
  let node := s.node j
  match node.worker w with
  | none => none
  | some job =>
    match job.access with
    | some ⟨access, next⟩ =>
      let (answer, p) := access.perform node.process
      some (s.setNode j ({ node with process := p }.setWorker w (some (next answer))))
    | none =>
      match job with
      | ⟨endpoint, .ended (.ok (some sent))⟩ =>
        some { s.setNode j (node.setWorker w none) with replies := ⟨endpoint, sent⟩ :: s.replies }
      | ⟨_, .ended (.error e)⟩ => some ((s.setNode j (node.setWorker w none)).throw .worker e)
      | _ => some (s.setNode j (node.setWorker w none))

/-- The ROUTER socket puts the identity of the sender in front of a request. -/
def step : NetworkStep n → Option (Network n)
  | .joinCall i l =>
    let node := s.node i
    match node.main with
    | .free =>
      let code := Cluster.Unlocked.bootstrapCall node.process.metaStore (address l)
      some (s.setNode i { node with main := .calling code })
    | _ => none
  | .serve j w request =>
    let node := s.node j
    match node.worker w with
    | none =>
      if request ∈ s.requests ∧ request.endpoint = (address j).endpoint then
        let message := identity request.endpoint request.sender :: request.frames
        let code := IMQNode.Unlocked.workBody text message
        some (s.setNode j (node.setWorker w (some ⟨request.endpoint, code⟩)))
      else none
    | some _ => none
  | .joinEnd i receipt =>
    let node := s.node i
    match node.main with
    | .waiting rpcCall =>
      if receipt.Possible identity s.replies i rpcCall.calleeInfo then
        let code := Cluster.Unlocked.bootstrapEnd text rpcCall receipt
        some (s.setNode i { node with main := .taking code })
      else none
    | _ => none
  | .pass i =>
    let node := s.node i
    match node.health with
    | .asleep => some (s.setNode i { node with health := .listing Cluster.Unlocked.getNodesInCluster })
    | _ => none
  | .check i =>
    let node := s.node i
    match node.health with
    | .checking [] => some (s.setNode i { node with health := .asleep })
    | .checking (callee :: rest) =>
      let me := node.process.metaStore
      if callee.host = me.host ∧ callee.port = me.port then
        some (s.setNode i { node with health := .checking rest })
      else
        let code := Health.Unlocked.checkCall callee
        some (s.setNode i { node with health := .calling rest code })
    | _ => none
  | .checkEnd i outcome =>
    let node := s.node i
    match node.health with
    | .awaiting callee rest =>
      if outcome.Possible identity s.replies i callee then
        let code := Health.Unlocked.awaitOutcome text callee outcome
        some (s.setNode i { node with health := .settling callee rest code })
      else none
    | _ => none
  | .main i => s.mainStep text i
  | .health i => s.healthStep text i
  | .worker j w => s.workerStep j w

end

/-- No node joins itself: its own address is the one for which its store holds a server. -/
def JoinsOther (_ : Network n) : NetworkStep n → Prop
  | .joinCall i l => l ≠ i
  | _ => True

instance (s : Network n) (label : NetworkStep n) : Decidable (s.JoinsOther label) :=
  match label with
  | .joinCall i l => inferInstanceAs (Decidable (l ≠ i))
  | .serve _ _ _ | .joinEnd _ _ | .pass _ | .check _ | .checkEnd _ _ | .main _ | .health _
  | .worker _ _ => .isTrue trivial

end Network

end Imq
