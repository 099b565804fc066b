import Imq.RPC.Call

/-! # The worker pool of a server (`rpc::RPCServerWorkerPool`)

An RPC function works on the state `σ` of its server and may throw.
-/

namespace Imq

abbrev RPCFunc (σ : Type) := Json → EStateM Exn σ Json

structure RPCServerWorkerPool (σ : Type) where
  rpcs : List (String × RPCFunc σ) := []

/-- `RPCAndArgs`; an empty `std::function` is `none`. -/
structure RPCAndArgs (σ : Type) where
  valid : Bool
  clientAddr : String := ""
  rpc : Option (RPCFunc σ) := none
  args : Json := .null

/-- `try { .. } catch (const std::invalid_argument&)`, with `none` for a caught
    exception. -/
def catchInvalidArgument {α : Type} : Except Exn α → Except Exn (Option α)
  | .ok a => .ok (some a)
  | .error (.invalidArgument _) => .ok none
  | .error e => .error e

namespace RPCServerWorkerPool

variable {σ : Type}

/-- `AddRPC`: `insert` keeps a function that is already registered. -/
def addRPC (pool : RPCServerWorkerPool σ) (rpcName : String) (rpcFunc : RPCFunc σ) :
    RPCServerWorkerPool σ :=
  if (pool.rpcs.lookup rpcName).isSome then pool else ⟨(rpcName, rpcFunc) :: pool.rpcs⟩

def getRPC (pool : RPCServerWorkerPool σ) (rpc : String) : Except Exn (RPCFunc σ) :=
  match pool.rpcs.lookup rpc with
  | some got => .ok got
  | none => .error (.invalidArgument ("RPC " ++ rpc ++ " not found."))

def performRPC (rpcAndArgs : RPCAndArgs σ) : EStateM Exn σ Json :=
  match rpcAndArgs.rpc with
  | some rpc => rpc rpcAndArgs.args
  | none => throw .badFunctionCall

def messageToParts (text : JsonText) (pool : RPCServerWorkerPool σ) (message : Message) :
    Except Exn (RPCAndArgs σ) := do
  let numParts := Int32.ofNat message.length
  if numParts = 0 ∨ numParts > 3 then
    -- The message consists of [client-address] [empty] [rpc-name] [rpc-args]
    return { valid := false }
  let (clientAddr, message) ← message.extract
  let (rpc, message) ← message.extract
  let found ← catchInvalidArgument (pool.getRPC rpc)
  let (argsStr, _) ← message.extract
  let args ← catchInvalidArgument (text.parse argsStr)
  return {
    valid := found.isSome && args.isSome
    clientAddr := clientAddr
    rpc := found
    args := args.getD .null }

def constructMessage (text : JsonText) (clientAddr : String) (result : Json) : Message :=
  [clientAddr, text.dump result]

/-- The body of a worker's error reply. -/
def errorResult : Json := .object [("error", .number 1)]

def constructErrorMessage (text : JsonText) (clientAddr : String) : Message :=
  [clientAddr, text.dump errorResult]

/-- The body of the loop in `Work`: what `ReceiveMessage` gave (`none` if
    nothing was received), and the message sent in response. -/
def workBody (text : JsonText) (pool : RPCServerWorkerPool σ) (received : Option Message) :
    EStateM Exn σ (Option Message) :=
  match received with
  | none => pure none
  | some message => do
    let rpcAndArgs ← Cpp.ofExcept (messageToParts text pool message)
    if rpcAndArgs.valid then
      let result ← performRPC rpcAndArgs
      return some (constructMessage text rpcAndArgs.clientAddr result)
    else
      return some (constructErrorMessage text rpcAndArgs.clientAddr)

end RPCServerWorkerPool

end Imq
