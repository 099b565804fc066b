import Imq.Health
import Imq.RPC.ServerWorkerPool

/-! # Building, joining and running a node (`IMQNode`, `Health::Run`)

A node holds the server that its constructor has asked for.  The functions that
a server offers are those of its worker pool, which belongs to the server object
and is found here under the object's identity.  The threads that `Run` starts
leave no trace in the state.
-/

namespace Imq

structure NodeState where
  process : Process
  /-- `rpc_server_`. -/
  rpcServer : RPCObject
  workerPools : Nat → RPCServerWorkerPool Process

namespace NodeState

/-- `AddRPC` on what a server store has handed out; it may be no server. -/
def addRPC (s : NodeState) (object : RPCObject) (rpcName : String) (rpcFunc : RPCFunc Process) :
    Except Exn NodeState :=
  match object.kind with
  | .server =>
    let pool := (s.workerPools object.id).addRPC rpcName rpcFunc
    .ok { s with workerPools := Function.update s.workerPools object.id pool }
  | .client => .error (.undefined "an RPCClient used as an RPCServer")

end NodeState

/-- `Health::Run`, up to the start of its thread.  The result is the server to
    which the RPC has been added. -/
def Health.run : EStateM Exn NodeState RPCObject := do
  let s ← get
  let (server, rpcStore) := s.process.rpcStore.getRPCServer s.process.metaStore
  let s := { s with process := { s.process with rpcStore := rpcStore } }
  set s
  set (← Cpp.ofExcept (s.addRPC server "CheckHealth" checkHealthRPC))
  return server

namespace IMQNode

/-- The constructor, in a process that is new: the server is one that it builds. -/
def construct (node : HostAndPort) (metaStore : HostAndPort) : NodeState where
  process := new node (Process.initial metaStore)
  rpcServer := ((Process.initial metaStore).rpcStore.getRPCServer node).1
  workerPools := Function.update (fun _ => {})
    ((Process.initial metaStore).rpcStore.getRPCServer node).1.id
    (RPCServerWorkerPool.addRPC {} "GetNodesInCluster" fun args =>
      Process.onCluster (getNodesInCluster args))

/-- A call of `Run`, or of `JoinCluster` with what `Get` makes of its RPC. -/
inductive NodeCall where
  | run
  | joinCluster (leader : HostAndPort) (answer : RPCCall Process → Except Exn Json)

def perform (s : NodeState) : NodeCall → NodeState
  | .run => Cpp.stateOf (Health.run.run s)
  | .joinCluster leader answer =>
    { s with process := Cpp.stateOf ((joinCluster leader answer).run s.process) }

end IMQNode

end Imq
