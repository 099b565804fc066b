import Imq.Node
import Mathlib.Logic.Function.Basic

/-! # The health checker (`Health`)

The map of potentially failing nodes is a field of the process.  One pass of the
loop in `PerformHealthChecks` is `performHealthChecksPass`.  The response of
each call is dropped at once, and its destructor joins the thread that runs the
callback, so a call and its callback are one step here.
-/

namespace Imq

/-- What becomes of one asynchronous call: the message callback runs on the
    message received, the timeout callback runs, or neither does. -/
inductive CallOutcome where
  | answered (message : Message)
  | timedOut
  | neither

namespace Health

def REMOVE_AFTER_NUM_RETRIES : Int32 := 3

variable (node : HostAndPort)

def markAsPotentiallyFailing : EStateM Exn Process Unit :=
  modify fun p => { p with
    potentiallyFailing := Function.update p.potentiallyFailing node
      (some ((p.potentiallyFailing node).getD 0)) }

def removeNodeFromPotentiallyFailingMap : EStateM Exn Process Unit :=
  modify fun p => { p with potentiallyFailing := Function.update p.potentiallyFailing node none }

def unmarkAsPotentiallyFailing : EStateM Exn Process Unit :=
  removeNodeFromPotentiallyFailingMap node

def isPotentiallyFailing : EStateM Exn Process Bool :=
  return ((← get).potentiallyFailing node).isSome

/-- The stored `int` is returned as an `unsigned`. -/
def getNumberOfRetriesForNode : EStateM Exn Process UInt32 := do
  if ← isPotentiallyFailing node then
    return (((← get).potentiallyFailing node).getD 0).toUInt32
  else
    return 0

def incrementNumberOfRetriesForNode : EStateM Exn Process Unit :=
  modify fun p => { p with
    potentiallyFailing := Function.update p.potentiallyFailing node
      (some ((p.potentiallyFailing node).getD 0 + 1)) }

def removeNodeFromCluster : EStateM Exn Process Unit := do
  modify fun p => { p with cluster := p.cluster.removeNode node }
  removeNodeFromPotentiallyFailingMap node

omit node

/-- The `CheckHealth` RPC. -/
def checkHealthRPC {σ : Type} (_ : Json) : EStateM Exn σ Json :=
  return .object [("health", .number 1)]

/-- The callee that a response names. -/
def calleeOf (response : Json) : Except Exn HostAndPort := do
  let calleeHost ← (← (← response.constAt "callee_info").constAt "host").getString
  let calleePort ← (← (← response.constAt "callee_info").constAt "port").getUnsigned
  return { host := calleeHost, port := calleePort }

def healthyNodeCallback (response : Json) : EStateM Exn Process Unit := do
  let callee ← Cpp.ofExcept (calleeOf response)
  if ← isPotentiallyFailing callee then
    unmarkAsPotentiallyFailing callee

def timedoutNodeCallback (response : Json) : EStateM Exn Process Unit := do
  let callee ← Cpp.ofExcept (calleeOf response)
  if ← isPotentiallyFailing callee then
    let numRetriesSoFar := (← getNumberOfRetriesForNode callee).toInt32
    if numRetriesSoFar ≥ REMOVE_AFTER_NUM_RETRIES then
      removeNodeFromCluster callee
    else
      incrementNumberOfRetriesForNode callee
  else
    markAsPotentiallyFailing callee

/-- The call object of one pass. -/
def healthCall : RPCCall Process :=
  (({ rpc := "CheckHealth", async := true } : RPCCall Process).setMessageCallback
    healthyNodeCallback).setTimeoutCallback 3000 timedoutNodeCallback

/-- The call object of a pass, after calls to some nodes. -/
def callTo (callee : HostAndPort) : RPCCall Process := { healthCall with calleeInfo := callee }

/-- What one call of a pass did: the client called, and what the callback that
    ran was given. -/
structure CheckEvent where
  called : RPCObject
  callback : Option Json

/-- The response of one call, from its construction to its destruction. -/
def awaitOutcome (text : JsonText) (rpcCall : RPCCall Process) :
    CallOutcome → EStateM Exn Process (Option Json)
  | .answered message => RPCResponse.doMessageCallback text rpcCall message
  | .timedOut => RPCResponse.doTimeoutCallback rpcCall
  | .neither => pure none

/-- The loop of a pass over the rest of its snapshot.  The call object goes from
    one iteration to the next as the last call left it. -/
def checkNodes (text : JsonText) (outcome : HostAndPort → CallOutcome) (me : HostAndPort) :
    RPCCall Process → List HostAndPort → EStateM Exn Process (List CheckEvent)
  | _, [] => pure []
  | rpcCall, node :: rest =>
    if node.host = me.host ∧ node.port = me.port then
      -- Checking our own health doesn't make sense.
      checkNodes text outcome me rpcCall rest
    else do
      let nodeClient ← Cluster.getNodeClient node
      let rpcCall ← Cpp.ofExcept (RPCClient.call nodeClient rpcCall)
      let callback ← awaitOutcome text rpcCall (outcome nodeClient.hostAndPort)
      let events ← checkNodes text outcome me rpcCall rest
      return { called := nodeClient, callback := callback } :: events

/-- One pass of the loop in `PerformHealthChecks`. -/
def performHealthChecksPass (text : JsonText) (outcome : HostAndPort → CallOutcome) :
    EStateM Exn Process (List CheckEvent) := do
  let p ← get
  checkNodes text outcome p.metaStore healthCall p.cluster.getNodesInCluster

end Health

end Imq
