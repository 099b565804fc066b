import Imq.Health

/-! # A health pass while `Bootstrap` runs

The health thread and a `Bootstrap` work on the same process.  Each look-up, call
and callback of the pass is one step; so are, in `Bootstrap`, the adding of the
leader, the call, and each write of an address.  The callback of a call belongs
to the thread of its response, which the health thread waits for.
-/

namespace Imq

/-- What comes next in the pass.  `nodeNotFound` is for the exception of a
    look-up that has left the health thread, `thrown` for any other. -/
inductive PassPhase where
  | snapshot
  | lookUp (rpcCall : RPCCall Process) (rest : List HostAndPort)
  | call (client : RPCObject) (rpcCall : RPCCall Process) (rest : List HostAndPort)
  | callback (client : RPCObject) (rpcCall : RPCCall Process) (rest : List HostAndPort)
  | finished
  | nodeNotFound (e : Exn)
  | thrown (e : Exn)

/-- What comes next in `Bootstrap`. -/
inductive BootstrapPhase where
  | addLeader
  | call
  | get (rpcCall : RPCCall Process)
  | addMembers (members : List (Except Exn String × Json))
  | addAddresses (idx : UInt32) (addresses : List Json) (members : List (Except Exn String × Json))
  | returned
  | thrown (e : Exn)

/-- `me` is what the health thread has read from the `MetaStore`. -/
structure PassAndBootstrap where
  process : Process
  me : HostAndPort
  pass : PassPhase := .snapshot
  bootstrap : BootstrapPhase := .addLeader

/-- Whose step is taken; if it is the callback of a call, what has become of the
    call. -/
inductive PassOrBootstrap where
  | pass (outcome : CallOutcome)
  | bootstrap

namespace PassAndBootstrap

def start (p : Process) : PassAndBootstrap := { process := p, me := p.metaStore }

/-- A step of `PerformHealthChecks`. -/
def passStep (text : JsonText) (outcome : CallOutcome) (s : PassAndBootstrap) : PassAndBootstrap :=
  match s.pass with
  | .snapshot => { s with pass := .lookUp Health.healthCall s.process.cluster.getNodesInCluster }
  | .lookUp _ [] => { s with pass := .finished }
  | .lookUp rpcCall (node :: rest) =>
    if node.host = s.me.host ∧ node.port = s.me.port then { s with pass := .lookUp rpcCall rest }
    else
      match (Cluster.getNodeClient node).run s.process with
      | .ok client p => { s with process := p, pass := .call client rpcCall rest }
      | .error e p => { s with process := p, pass := .nodeNotFound e }
  | .call client rpcCall rest =>
    match RPCClient.call client rpcCall with
    | .ok rpcCall => { s with pass := .callback client rpcCall rest }
    | .error e => { s with pass := .thrown e }
  | .callback _ rpcCall rest =>
    match (Health.awaitOutcome text rpcCall outcome).run s.process with
    | .ok _ p => { s with process := p, pass := .lookUp rpcCall rest }
    | .error e p => { s with process := p, pass := .thrown e }
  | .finished | .nodeNotFound _ | .thrown _ => s

/-- A step of `Bootstrap`. -/
def bootstrapStep (requester leader : HostAndPort) (answer : RPCCall Process → Except Exn Json)
    (s : PassAndBootstrap) : PassAndBootstrap :=
  match s.bootstrap with
  | .addLeader =>
    let cluster := if !s.process.cluster.nodeInCluster leader then s.process.cluster.addNode leader
      else s.process.cluster
    { s with process := { s.process with cluster := cluster }, bootstrap := .call }
  | .call =>
    let rpcCall : RPCCall Process :=
      { rpc := "GetNodesInCluster", args := Cluster.registerArgs requester }
    match (do
      let node ← Cluster.getNodeClient leader
      Cpp.ofExcept (RPCClient.call node rpcCall) :
        EStateM Exn Process (RPCCall Process)).run s.process with
    | .ok rpcCall p => { s with process := p, bootstrap := .get rpcCall }
    | .error e p => { s with process := p, bootstrap := .thrown e }
  | .get rpcCall =>
    match (answer rpcCall).bind (·.elementAt "nodes") with
    | .ok nodes => { s with bootstrap := .addMembers nodes.items }
    | .error e => { s with bootstrap := .thrown e }
  | .addMembers [] => { s with bootstrap := .returned }
  | .addMembers ((key, value) :: members) =>
    match key.bind Cpp.stoi with
    | .ok idx => { s with bootstrap := .addAddresses (UInt32.ofInt idx) value.elements members }
    | .error e => { s with bootstrap := .thrown e }
  | .addAddresses _ [] members => { s with bootstrap := .addMembers members }
  | .addAddresses idx (address :: rest) members =>
    match (Process.onCluster (Cluster.addAddresses idx [address])).run s.process with
    | .ok _ p => { s with process := p, bootstrap := .addAddresses idx rest members }
    | .error e p => { s with process := p, bootstrap := .thrown e }
  | .returned | .thrown _ => s

def step (text : JsonText) (requester leader : HostAndPort)
    (answer : RPCCall Process → Except Exn Json) (s : PassAndBootstrap) :
    PassOrBootstrap → PassAndBootstrap
  | .pass outcome => s.passStep text outcome
  | .bootstrap => s.bootstrapStep requester leader answer

end PassAndBootstrap

end Imq
