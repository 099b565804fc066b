import Imq.Health
import Imq.Lib.Threads
import Imq.NodeTraffic

/-! # The code of a node, one access at a time

The main thread of a node, its health thread and the workers of its server share one
`Process`, and of that only the map of potentially failing nodes has a lock.  Here the
functions that they run are cut into their accesses: a read or a write of one slot of the
table, a look-up or an insertion in the store of clients, an operation on the map.

An access is made in one piece: what two of them do that overlap in one slot, or in the store
of clients, is left open by C++ and is not modelled.  `MetaStore` and the functions of the
worker pool do not change while the threads run, so reading them is no access.
-/

namespace Imq

open Lib (Thread)

inductive Access where
  /-- `nodes_[i]`. -/
  | readNode (i : Fin MAX_NUM_NODES)
  /-- `nodes_[i] = node`. -/
  | writeNode (i : Fin MAX_NUM_NODES) (node : HostAndPort)
  /-- `HasRPCObject`, and `GetRPCObject` if there is one: objects are never removed. -/
  | getRPCObject (address : HostAndPort)
  /-- `new RPCClient` and `AddRPCObject`. -/
  | addRPCClient (address : HostAndPort)
  | isPotentiallyFailing (node : HostAndPort)
  /-- `operator[]` of the map, which puts in a 0 where there is no number. -/
  | numRetries (node : HostAndPort)
  | markAsPotentiallyFailing (node : HostAndPort)
  | incrementNumberOfRetriesForNode (node : HostAndPort)
  | removeNodeFromPotentiallyFailingMap (node : HostAndPort)
  deriving DecidableEq

namespace Access

/-- What an access gives. -/
@[reducible] def Answer : Access → Type
  | readNode _ => HostAndPort
  | getRPCObject _ => Option RPCObject
  | addRPCClient _ => RPCObject
  | isPotentiallyFailing _ => Bool
  | numRetries _ => Int32
  | writeNode _ _ | markAsPotentiallyFailing _ | incrementNumberOfRetriesForNode _
  | removeNodeFromPotentiallyFailingMap _ => Unit

/-- The number of retries stored for a node is replaced. -/
def setNumRetries (p : Process) (node : HostAndPort) (retries : Option Int32) : Process :=
  { p with potentiallyFailing := Function.update p.potentiallyFailing node retries }

def perform : (access : Access) → Process → access.Answer × Process
  | readNode i, p => (p.cluster.node i, p)
  | writeNode i node, p => ((), { p with cluster := p.cluster.setNode i node })
  | getRPCObject address, p => (p.rpcStore.rpcObjects address, p)
  | addRPCClient address, p =>
    let (object, rpcStore) := p.rpcStore.construct .client address
    (object, { p with rpcStore := rpcStore.addRPCObject object })
  | isPotentiallyFailing node, p => ((p.potentiallyFailing node).isSome, p)
  | numRetries node, p =>
    let retries := (p.potentiallyFailing node).getD 0
    (retries, setNumRetries p node (some retries))
  | markAsPotentiallyFailing node, p =>
    ((), setNumRetries p node (some ((p.potentiallyFailing node).getD 0)))
  | incrementNumberOfRetriesForNode node, p =>
    ((), setNumRetries p node (some ((p.potentiallyFailing node).getD 0 + 1)))
  | removeNodeFromPotentiallyFailingMap node, p => ((), setNumRetries p node none)

end Access

/-- Code of a thread of a node. -/
abbrev Code (α : Type) : Type := Thread Exn Access.Answer α

/-- The code when nothing comes in between. -/
def Code.run {α : Type} (code : Code α) : EStateM Exn Process α := Thread.run Access.perform code

def Code.throw {α : Type} (e : Exn) : Code α := .ofExcept (.error e)

/-! ## `Cluster` -/

namespace Cluster.Unlocked

def readNode (i : Fin MAX_NUM_NODES) : Code HostAndPort := .make (Access.readNode i)

def writeNode (i : Fin MAX_NUM_NODES) (node : HostAndPort) : Code Unit :=
  .make (Access.writeNode i node)

/-- The loops over the table that end at the first slot which passes a test. -/
def firstSlot (test : HostAndPort → Bool) :
    List (Fin MAX_NUM_NODES) → Code (Option (Fin MAX_NUM_NODES))
  | [] => pure none
  | i :: rest => do
    if test (← readNode i) then return some i
    else firstSlot test rest

def nodeInCluster (finding : HostAndPort) : Code Bool := do
  return (← firstSlot (· == finding) (List.finRange MAX_NUM_NODES)).isSome

/-- `AddNode(hostname, port)`. -/
def addNode (node : HostAndPort) : Code Unit := do
  match ← firstSlot (fun found => found.host == "") (List.finRange MAX_NUM_NODES) with
  | some i => writeNode i node
  | none => pure ()

/-- `AddNode(idx, hostname, port)`. -/
def addNodeAt (idx : UInt32) (node : HostAndPort) : Code Unit :=
  if h : idx.toNat < MAX_NUM_NODES then writeNode ⟨idx.toNat, h⟩ node
  else .throw (.undefined "nodes_[idx] outside the vector")

def removeNode (toRemove : HostAndPort) : Code Unit := do
  match ← firstSlot (· == toRemove) (List.finRange MAX_NUM_NODES) with
  | some i => writeNode i {}
  | none => pure ()

/-- The loop of `GetNodesWithIdxInCluster`, which copies a slot before the test. -/
def listNodesWithIdx : List (Fin MAX_NUM_NODES) → Code (List (Fin MAX_NUM_NODES × HostAndPort))
  | [] => pure []
  | i :: rest => do
    let node ← readNode i
    let nodes ← listNodesWithIdx rest
    return if node.host ≠ "" then (i, node) :: nodes else nodes

def getNodesWithIdxInCluster : Code (List (Fin MAX_NUM_NODES × HostAndPort)) :=
  listNodesWithIdx (List.finRange MAX_NUM_NODES)

/-- The loop of `GetNodesInCluster`, which goes back to a slot that has passed the test. -/
def listNodes : List (Fin MAX_NUM_NODES) → Code (List HostAndPort)
  | [] => pure []
  | i :: rest => do
    if (← readNode i).host ≠ "" then
      let node ← readNode i
      let nodes ← listNodes rest
      return node :: nodes
    else listNodes rest

def getNodesInCluster : Code (List HostAndPort) := listNodes (List.finRange MAX_NUM_NODES)

def getRPCObject (address : HostAndPort) : Code (Option RPCObject) :=
  .make (Access.getRPCObject address)

def addRPCClient (address : HostAndPort) : Code RPCObject := .make (Access.addRPCClient address)

/-- `RPCClientStore::GetRPCClient`. -/
def getRPCClient (address : HostAndPort) : Code RPCObject := do
  match ← getRPCObject address with
  | some object => return object
  | none => addRPCClient address

def getNodeClient (node : HostAndPort) : Code RPCObject := do
  if !(← nodeInCluster node) then .throw (.logicError "Node not found.")
  else getRPCClient node

/-- `Bootstrap` up to and including `Call`. -/
def bootstrapCall (requester leader : HostAndPort) : Code (RPCCall Process) := do
  if !(← nodeInCluster leader) then
    addNode leader
  let node ← getNodeClient leader
  let rpcCall : RPCCall Process := { rpc := "GetNodesInCluster", args := registerArgs requester }
  .ofExcept (RPCClient.call node rpcCall)

/-- The inner loop of `Bootstrap`, over the addresses found under one key. -/
def addAddresses (idx : UInt32) : List Json → Code Unit
  | [] => pure ()
  | address :: rest => do
    let nodeStr ← .ofExcept address.getString
    let node ← .ofExcept (HostAndPort.fromString nodeStr)
    addNodeAt idx node
    addAddresses idx rest

/-- The loop of `Bootstrap` over the received `"nodes"`. -/
def addMembers : List (Except Exn String × Json) → Code Unit
  | [] => pure ()
  | (key, value) :: rest => do
    let idx ← .ofExcept (key.bind Cpp.stoi)
    addAddresses (UInt32.ofInt idx) value.elements
    addMembers rest

/-- `Bootstrap` from `Get` on. -/
def bootstrapEnd (text : JsonText) (rpcCall : RPCCall Process) (receipt : Receipt) : Code Unit := do
  let response ← .ofExcept (RPCResponse.get text rpcCall receipt)
  let nodes ← .ofExcept (response.elementAt "nodes")
  addMembers nodes.items

end Cluster.Unlocked

/-! ## `IMQNode` and the workers of its server -/

namespace IMQNode.Unlocked

open Cluster.Unlocked

/-- The `GetNodesInCluster` RPC. -/
def getNodesInCluster (j : Json) : Code Json := do
  let registerNode ← .ofExcept ((j.constAt "register_node").bind Json.getBool)
  if registerNode then
    let requesterHost ← .ofExcept ((j.constAt "host").bind Json.getString)
    let requesterPort ← .ofExcept ((j.constAt "port").bind Json.getUnsigned)
    let requester : HostAndPort := { host := requesterHost, port := requesterPort }
    if !(← nodeInCluster requester) then
      addNode requester
  let nodes ← getNodesWithIdxInCluster
  let ret ← .ofExcept (Json.null.set "nodes" .null)
  let nodesPart ← .ofExcept (encodeNodes nodes)
  .ofExcept (ret.set "nodes" nodesPart)

/-- The functions that a node offers once it runs. -/
def rpcs : List (String × (Json → Code Json)) :=
  [("GetNodesInCluster", getNodesInCluster),
    ("CheckHealth", fun _ => pure (.object [("health", .number 1)]))]

/-- `PerformRPC`, with the name that the function has been found under. -/
def performRPC (rpc : String) (args : Json) : Code Json :=
  match rpcs.lookup rpc with
  | some f => f args
  | none => .throw .badFunctionCall

/-- The body of the loop in `Work`, for a message that has been received. -/
def workBody (text : JsonText) (message : Message) : Code (Option Message) := do
  let rpcAndArgs ← .ofExcept (RPCServerWorkerPool.messageToParts text workerPool message)
  if rpcAndArgs.valid then
    let result ← performRPC (message.getD 1 "") rpcAndArgs.args
    return some (RPCServerWorkerPool.constructMessage text rpcAndArgs.clientAddr result)
  else
    return some (RPCServerWorkerPool.constructErrorMessage text rpcAndArgs.clientAddr)

end IMQNode.Unlocked

/-! ## `Health` -/

namespace Health.Unlocked

open Cluster.Unlocked

variable (node : HostAndPort)

def isPotentiallyFailing : Code Bool := .make (Access.isPotentiallyFailing node)

def numRetries : Code Int32 := .make (Access.numRetries node)

def markAsPotentiallyFailing : Code Unit := .make (Access.markAsPotentiallyFailing node)

def incrementNumberOfRetriesForNode : Code Unit :=
  .make (Access.incrementNumberOfRetriesForNode node)

def removeNodeFromPotentiallyFailingMap : Code Unit :=
  .make (Access.removeNodeFromPotentiallyFailingMap node)

def getNumberOfRetriesForNode : Code UInt32 := do
  if ← isPotentiallyFailing node then
    return (← numRetries node).toUInt32
  else
    return 0

def removeNodeFromCluster : Code Unit := do
  removeNode node
  removeNodeFromPotentiallyFailingMap node

omit node

def healthyNodeCallback (response : Json) : Code Unit := do
  let callee ← .ofExcept (calleeOf response)
  if ← isPotentiallyFailing callee then
    removeNodeFromPotentiallyFailingMap callee

def timedoutNodeCallback (response : Json) : Code Unit := do
  let callee ← .ofExcept (calleeOf response)
  if ← isPotentiallyFailing callee then
    let numRetriesSoFar := (← getNumberOfRetriesForNode callee).toInt32
    if numRetriesSoFar ≥ REMOVE_AFTER_NUM_RETRIES then
      removeNodeFromCluster callee
    else
      incrementNumberOfRetriesForNode callee
  else
    markAsPotentiallyFailing callee

/-- The loop body of a pass, up to and including `Call`. -/
def checkCall (node : HostAndPort) : Code (RPCCall Process) := do
  let nodeClient ← getNodeClient node
  .ofExcept (RPCClient.call nodeClient healthCall)

/-- What the thread of the response runs: `DoMessageCallback`, `DoTimeoutCallback`, or
    neither. -/
def awaitOutcome (text : JsonText) (callee : HostAndPort) : CallOutcome → Code Unit
  | .answered message => do
    healthyNodeCallback (← .ofExcept (RPCResponse.parsedResponse text (callTo callee) message))
  | .timedOut => do
    timedoutNodeCallback
      (← .ofExcept (RPCResponse.addResponseMetadata (callTo callee) TimeoutException.asJson))
  | .neither => pure ()

end Health.Unlocked

end Imq
