import Imq.Network

/-! # A network whose nodes do one thing at a time

An abstract `Network`: what a thread does up to its next remote call, or from the end of
one on, is one step, and runs the code of `Imq.Node` and `Imq.Health` in one piece.  So a
node never does two things at once.  Nothing of the sources sees to that: the steps are
those of the runs of a `Network` in which the threads of each node take turns.

* `TurnNetwork`, `TurnNetwork.step` — the abstract network;
* `TurnNetwork.atRest` — the network whose threads are between two pieces of work;
* `Network.TakesTurns` — which runs of a network it describes.
-/

namespace Imq

/-- The loop of a pass, with the rest of its snapshot. -/
inductive CheckPhase where
  | asleep
  | checking (rest : List HostAndPort)
  /-- The response of a call is under way. -/
  | awaiting (callee : HostAndPort) (rest : List HostAndPort)
  | ended

structure TurnNode where
  process : Process
  /-- The call of a `JoinCluster` that waits in `Get`. -/
  joining : Option (RPCCall Process) := none
  health : CheckPhase := .asleep

structure TurnNetwork (n : Nat) where
  node : Fin n → TurnNode
  requests : List (Request n) := []
  replies : List Reply := []
  thrown : List (NodeThread × Exn) := []

inductive TurnStep (n : Nat) where
  /-- `JoinCluster` with the address of a node, up to the call. -/
  | joinCall (i l : Fin n)
  /-- A worker of a node takes a request, and answers it. -/
  | serve (j : Fin n) (request : Request n)
  /-- `Get` returns, and the rest of `JoinCluster` runs. -/
  | joinEnd (i : Fin n) (receipt : Receipt)
  /-- The health thread begins a pass. -/
  | pass (i : Fin n)
  /-- It goes on to the next node of its snapshot. -/
  | check (i : Fin n)
  /-- The response of its call ends. -/
  | checkEnd (i : Fin n) (outcome : CallOutcome)

/-! ## Code between two remote calls -/

/-- `Bootstrap` from `Get` on. -/
def Cluster.bootstrapEnd (text : JsonText) (rpcCall : RPCCall Process) (receipt : Receipt) :
    EStateM Exn Process Unit := do
  let response ← Cpp.ofExcept (RPCResponse.get text rpcCall receipt)
  Process.onCluster (bootstrapReply response)

/-- The loop body of a pass, up to and including `Call`. -/
def Health.checkCall (node : HostAndPort) : EStateM Exn Process (RPCCall Process) := do
  let nodeClient ← Cluster.getNodeClient node
  Cpp.ofExcept (RPCClient.call nodeClient healthCall)

namespace TurnNetwork

variable {n : Nat}

def initial (address : Fin n → HostAndPort) : TurnNetwork n where
  node i := { process := IMQNode.new (address i) (Process.initial (address i)) }

def setNode (s : TurnNetwork n) (i : Fin n) (node : TurnNode) : TurnNetwork n :=
  { s with node := Function.update s.node i node }

def throw (s : TurnNetwork n) (thread : NodeThread) (e : Exn) : TurnNetwork n :=
  { s with thrown := (thread, e) :: s.thrown }

section

variable (text : JsonText) (identity : String → Fin n → String) (address : Fin n → HostAndPort)
  (s : TurnNetwork n)

def send (i : Fin n) (rpcCall : RPCCall Process) : TurnNetwork n :=
  { s with requests := ⟨rpcCall.calleeInfo.endpoint, i, rpcCall.frames text⟩ :: s.requests }

def joinCall (i l : Fin n) : TurnNetwork n :=
  let node := s.node i
  match (Cluster.bootstrapCall node.process.metaStore (address l)).run node.process with
  | .ok rpcCall p =>
    (s.setNode i { node with process := p, joining := some rpcCall }).send text i rpcCall
  | .error e p => (s.setNode i { node with process := p }).throw .main e

def serve (j : Fin n) (request : Request n) : TurnNetwork n :=
  let node := s.node j
  let message := identity request.endpoint request.sender :: request.frames
  match (RPCServerWorkerPool.workBody text IMQNode.workerPool (some message)).run node.process with
  | .ok (some sent) p =>
    { s.setNode j { node with process := p } with replies := ⟨request.endpoint, sent⟩ :: s.replies }
  | .ok none p => s.setNode j { node with process := p }
  | .error e p => (s.setNode j { node with process := p }).throw .worker e

def joinEnd (i : Fin n) (rpcCall : RPCCall Process) (receipt : Receipt) : TurnNetwork n :=
  let node := s.node i
  match (Cluster.bootstrapEnd text rpcCall receipt).run node.process with
  | .ok _ p => s.setNode i { node with process := p, joining := none }
  | .error e p => (s.setNode i { node with process := p, joining := none }).throw .main e

def pass (i : Fin n) : TurnNetwork n :=
  let node := s.node i
  s.setNode i { node with health := .checking node.process.cluster.getNodesInCluster }

def check (i : Fin n) : List HostAndPort → TurnNetwork n
  | [] => s.setNode i { s.node i with health := .asleep }
  | callee :: rest =>
    let node := s.node i
    let me := node.process.metaStore
    if callee.host = me.host ∧ callee.port = me.port then
      s.setNode i { node with health := .checking rest }
    else
      match (Health.checkCall callee).run node.process with
      | .ok rpcCall p =>
        (s.setNode i
          { node with process := p, health := .awaiting rpcCall.calleeInfo rest }).send text i rpcCall
      | .error e p => (s.setNode i { node with process := p, health := .ended }).throw .health e

def checkEnd (i : Fin n) (callee : HostAndPort) (rest : List HostAndPort) (outcome : CallOutcome) :
    TurnNetwork n :=
  let node := s.node i
  match (Health.awaitOutcome text (Health.callTo callee) outcome).run node.process with
  | .ok _ p => s.setNode i { node with process := p, health := .checking rest }
  | .error e p => (s.setNode i { node with process := p, health := .ended }).throw .health e

def step : TurnStep n → Option (TurnNetwork n)
  | .joinCall i l =>
    match (s.node i).joining with
    | none => some (s.joinCall text address i l)
    | some _ => none
  | .serve j request =>
    if request ∈ s.requests ∧ request.endpoint = (address j).endpoint then
      some (s.serve text identity j request)
    else none
  | .joinEnd i receipt =>
    match (s.node i).joining with
    | some rpcCall =>
      if receipt.Possible identity s.replies i rpcCall.calleeInfo then
        some (s.joinEnd text i rpcCall receipt)
      else none
    | none => none
  | .pass i =>
    match (s.node i).health with
    | .asleep => some (s.pass i)
    | _ => none
  | .check i =>
    match (s.node i).health with
    | .checking rest => some (s.check text i rest)
    | _ => none
  | .checkEnd i outcome =>
    match (s.node i).health with
    | .awaiting callee rest =>
      if outcome.Possible identity s.replies i callee then
        some (s.checkEnd text i callee rest outcome)
      else none
    | _ => none

end

end TurnNetwork

/-! ## Threads that take turns -/

/-- Where a health thread is that is not in the middle of its code. -/
def CheckPhase.stage : CheckPhase → HealthStage
  | asleep => .asleep
  | checking rest => .checking rest
  | awaiting callee rest => .awaiting callee rest
  | ended => .ended

/-- The node with no thread in the middle of its code. -/
def TurnNode.atRest (node : TurnNode) : NetworkNode where
  process := node.process
  main := match node.joining with
    | none => .free
    | some rpcCall => .waiting rpcCall
  health := node.health.stage

namespace TurnStep

variable {n : Nat}

/-- The node that takes the step. -/
def node : TurnStep n → Fin n
  | joinCall i _ => i
  | serve j _ => j
  | joinEnd i _ => i
  | pass i => i
  | check i => i
  | checkEnd i _ => i

end TurnStep

/-- What a thread begins with a step. -/
def NetworkStep.begins {n : Nat} : NetworkStep n → Option (TurnStep n)
  | joinCall i l => some (.joinCall i l)
  | serve j _ request => some (.serve j request)
  | joinEnd i receipt => some (.joinEnd i receipt)
  | pass i => some (.pass i)
  | check i => some (.check i)
  | checkEnd i outcome => some (.checkEnd i outcome)
  | main _ | health _ | worker _ _ => none

section

variable {n : Nat}

/-- The node that takes a step may do so. -/
def TurnNetwork.Allows (ok : TurnNode → TurnStep n → Prop) (t : TurnNetwork n)
    (label : TurnStep n) : Prop :=
  ok (t.node label.node) label

instance (ok : TurnNode → TurnStep n → Prop) [∀ node label, Decidable (ok node label)]
    (t : TurnNetwork n) (label : TurnStep n) : Decidable (t.Allows ok label) :=
  inferInstanceAs (Decidable (ok _ _))

/-- No thread of the node is in the middle of its code. -/
def Network.Rests (s : Network n) (i : Fin n) : Prop :=
  ∃ node, s.node i = TurnNode.atRest node

/-- A thread of a node begins something only while no thread of the node is in the middle of
    its code, and only what is allowed then. -/
def Network.TakesTurns (ok : TurnNode → TurnStep n → Prop) (s : Network n)
    (label : NetworkStep n) : Prop :=
  ∀ turn, label.begins = some turn → ∃ node, s.node turn.node = TurnNode.atRest node ∧ ok node turn

end

/-- All nodes with no thread in the middle of its code. -/
def TurnNetwork.atRest {n : Nat} (t : TurnNetwork n) : Network n where
  node i := (t.node i).atRest
  requests := t.requests
  replies := t.replies
  thrown := t.thrown

/-- No node joins itself: its own address is the one for which its store holds a server. -/
def TurnNode.JoinsOther {n : Nat} (_ : TurnNode) : TurnStep n → Prop
  | .joinCall i l => l ≠ i
  | _ => True

end Imq
