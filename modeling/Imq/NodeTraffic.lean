import Imq.NodeRun
import Imq.RPC.RemoteCall

/-! # What reaches a running node from outside

Messages for its workers, what becomes of the calls of its health passes, and the
answers to its own `JoinCluster` calls, one after the other.  All of it may be any
bytes.
-/

namespace Imq

/-- A message for a worker, the outcomes of the calls of a health pass, or how the
    response to a `JoinCluster` ends. -/
inductive Traffic where
  | request (message : Message)
  | health (outcome : HostAndPort → CallOutcome)
  | join (leader : HostAndPort) (receipt : Receipt)

namespace IMQNode

/-- The functions that a node offers once it runs. -/
def rpcs : List (String × RPCFunc Process) :=
  [("GetNodesInCluster", fun args => Process.onCluster (getNodesInCluster args)),
    ("CheckHealth", Health.checkHealthRPC)]

def workerPool : RPCServerWorkerPool Process := .ofRegistrations rpcs

/-- An exception ends what throws it; the state stays as it is then. -/
def receive (text : JsonText) (p : Process) : Traffic → Process
  | .request message =>
    Cpp.stateOf ((RPCServerWorkerPool.workBody text workerPool (some message)).run p)
  | .health outcome => Cpp.stateOf ((Health.performHealthChecksPass text outcome).run p)
  | .join leader receipt =>
    Cpp.stateOf ((joinCluster leader fun rpcCall => RPCResponse.get text rpcCall receipt).run p)

end IMQNode

end Imq
