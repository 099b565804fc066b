import Imq.Cluster
import Imq.RPC.Call

/-! # A node and its process (`IMQNode`, `Cluster::Bootstrap`)

`Cluster`, `RPCStore` and `MetaStore` are singletons of a process, and the
health checker belongs to the node, so one `Process` holds all the state that a
node works on.  `Bootstrap` is cut at its one remote call: the part before it,
up to `Call`, and the part after it, from the JSON that `Get` returned.
-/

namespace Imq

structure Process where
  /-- `MetaStore::my_host_and_port_`. -/
  metaStore : HostAndPort
  cluster : Cluster
  rpcStore : RPCStore
  /-- `Health::potentially_failed_nodes_and_num_retires_`. -/
  potentiallyFailing : HostAndPort → Option Int32

/-- A process before any node has been built in it. -/
def Process.initial (metaStore : HostAndPort) : Process where
  metaStore := metaStore
  cluster := .new
  rpcStore := .empty
  potentiallyFailing := fun _ => none

def Process.withCluster {α : Type} (p : Process) :
    EStateM.Result Exn Cluster α → EStateM.Result Exn Process α
  | .ok a cluster => .ok a { p with cluster := cluster }
  | .error e cluster => .error e { p with cluster := cluster }

/-- Code that works on the table of the process. -/
def Process.onCluster {α : Type} (x : EStateM Exn Cluster α) : EStateM Exn Process α := fun p =>
  p.withCluster (x.run p.cluster)

namespace Cluster

def getNodeClient (node : HostAndPort) : EStateM Exn Process RPCObject := do
  let p ← get
  if !p.cluster.nodeInCluster node then
    throw (.logicError "Node not found.")
  let (client, rpcStore) := p.rpcStore.getRPCClient node
  set { p with rpcStore := rpcStore }
  return client

/-- The arguments of the `GetNodesInCluster` call. -/
def registerArgs (requester : HostAndPort) : Json :=
  .object [("host", .string requester.host), ("port", .number requester.port.toNat),
    ("register_node", .boolean true)]

/-- `Bootstrap` up to and including `Call`. -/
def bootstrapCall (requester leader : HostAndPort) : EStateM Exn Process (RPCCall Process) := do
  let p ← get
  if !p.cluster.nodeInCluster leader then
    set { p with cluster := p.cluster.addNode leader }
  let node ← getNodeClient leader
  let rpcCall : RPCCall Process := { rpc := "GetNodesInCluster", args := registerArgs requester }
  Cpp.ofExcept (RPCClient.call node rpcCall)

/-- The inner loop of `Bootstrap`, over the addresses found under one key. -/
def addAddresses (idx : UInt32) : List Json → EStateM Exn Cluster Unit
  | [] => pure ()
  | address :: rest => do
    let nodeStr ← Cpp.ofExcept address.getString
    let node ← Cpp.ofExcept (HostAndPort.fromString nodeStr)
    let cluster ← get
    set (← Cpp.ofExcept (cluster.addNodeAt idx node))
    addAddresses idx rest

/-- The loop of `Bootstrap` over the received `"nodes"`. -/
def addMembers : List (Except Exn String × Json) → EStateM Exn Cluster Unit
  | [] => pure ()
  | (key, value) :: rest => do
    let idx ← Cpp.ofExcept (key.bind Cpp.stoi)
    addAddresses (UInt32.ofInt idx) value.elements
    addMembers rest

/-- `Bootstrap` from the JSON that `Get` returned. -/
def bootstrapReply (response : Json) : EStateM Exn Cluster Unit := do
  let nodes ← Cpp.ofExcept (response.elementAt "nodes")
  addMembers nodes.items

/-- `Bootstrap`; `answer` gives what `Get` makes of the call. -/
def bootstrap (requester leader : HostAndPort) (answer : RPCCall Process → Except Exn Json) :
    EStateM Exn Process Unit := do
  let rpcCall ← bootstrapCall requester leader
  let response ← Cpp.ofExcept (answer rpcCall)
  Process.onCluster (bootstrapReply response)

end Cluster

namespace IMQNode

/-- The constructor. -/
def new (node : HostAndPort) (p : Process) : Process :=
  { p with
    rpcStore := (p.rpcStore.getRPCServer node).2
    cluster := p.cluster.addNode node }

/-- The `"nodes"` part of the reply, filled entry by entry from null. -/
def encodeNodes (nodes : List (Fin MAX_NUM_NODES × HostAndPort)) : Except Exn Json :=
  nodes.foldlM (fun nodesPart (idx, node) =>
    nodesPart.set (Cpp.toString idx.val) (.string node.toString)) .null

/-- The `GetNodesInCluster` RPC. -/
def getNodesInCluster (j : Json) : EStateM Exn Cluster Json := do
  let registerNode ← Cpp.ofExcept ((j.constAt "register_node").bind Json.getBool)
  if registerNode then
    let requesterHost ← Cpp.ofExcept ((j.constAt "host").bind Json.getString)
    let requesterPort ← Cpp.ofExcept ((j.constAt "port").bind Json.getUnsigned)
    let requester : HostAndPort := { host := requesterHost, port := requesterPort }
    let cluster ← get
    if !cluster.nodeInCluster requester then
      set (cluster.addNode requester)
  let cluster ← get
  let ret ← Cpp.ofExcept (Json.null.set "nodes" .null)
  let nodesPart ← Cpp.ofExcept (encodeNodes cluster.getNodesWithIdxInCluster)
  Cpp.ofExcept (ret.set "nodes" nodesPart)

/-- `JoinCluster`. -/
def joinCluster (leader : HostAndPort) (answer : RPCCall Process → Except Exn Json) :
    EStateM Exn Process Unit := do
  let p ← get
  Cluster.bootstrap p.metaStore leader answer

/-- What `Get` returns for a call that the handler of a node with this table has
    answered. -/
def answeredBy (table : Cluster) (rpcCall : RPCCall Process) : Except Exn Json :=
  match (getNodesInCluster rpcCall.args).run table with
  | .ok result _ => RPCResponse.addResponseMetadata rpcCall result
  | .error e _ => .error e

end IMQNode

end Imq
