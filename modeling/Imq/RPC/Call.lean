import Imq.Json
import Imq.RPC.Store

/-! # Calls and responses (`rpc::RPCCall`, `rpc::RPCClient`, `rpc::RPCResponse`)

A call is a value that the caller owns and `RPCClient::Call` mutates: it writes
the callee into it, and the response reads the callee back from it.  Callbacks
run on a state `σ` of the caller's choosing.  A `zmqpp::message` is the list of
its frames; reading a frame with `>>` takes it off the front.
-/

namespace Imq

/-- The frames of a message that are not read yet. -/
abbrev Message := List String

/-- `message >> frame`. -/
def Message.extract : Message → Except Exn (String × Message)
  | frame :: rest => .ok (frame, rest)
  | [] => .error (.zmqpp "read past the last frame")

@[simp] theorem Message.extract_cons (frame : String) (rest : Message) :
    Message.extract (frame :: rest) = .ok (frame, rest) := rfl

structure RPCCall (σ : Type) where
  rpc : String
  args : Json := .null
  async : Bool := false
  /-- Present once `SetMessageCallback` has been called. -/
  messageReceiptCallback : Option (Json → EStateM Exn σ Unit) := none
  timeoutDuration : UInt32 := 3000
  /-- Present once `SetTimeoutCallback` has been called. -/
  timeoutCallback : Option (Json → EStateM Exn σ Unit) := none
  calleeInfo : HostAndPort := {}

variable {σ : Type}

namespace RPCCall

def setMessageCallback (rpcCall : RPCCall σ) (callback : Json → EStateM Exn σ Unit) : RPCCall σ :=
  { rpcCall with messageReceiptCallback := some callback }

def setTimeoutCallback (rpcCall : RPCCall σ) (duration : UInt32)
    (callback : Json → EStateM Exn σ Unit) : RPCCall σ :=
  { rpcCall with timeoutDuration := duration, timeoutCallback := some callback }

/-- The frames that `RPCClient::Call` sends. -/
def frames (text : JsonText) (rpcCall : RPCCall σ) : Message :=
  [rpcCall.rpc, text.dump rpcCall.args]

end RPCCall

/-- `RPCClient::Call`, but for the sending: the callee is written into the call.
    The object comes out of an unchecked cast, so it may be no client at all. -/
def RPCClient.call (client : RPCObject) (rpcCall : RPCCall σ) : Except Exn (RPCCall σ) :=
  match client.kind with
  | .client => .ok { rpcCall with calleeInfo := client.hostAndPort }
  | .server => .error (.undefined "an RPCServer used as an RPCClient")

/-! ## Error objects -/

/-- `RPCException::AsJson`. -/
def RPCException.asJson (name : String) : Json := .object [("error", .string name)]

def TimeoutException.asJson : Json := RPCException.asJson "TimeoutException"

def InternalException.asJson : Json := RPCException.asJson "InternalException"

/-! ## Responses -/

/-- How `MessageReceiptMainWorkLoop` ends: `received_` is set and the message is
    kept, or `timedout_` is set, or neither is, when `running_` was cleared. -/
inductive Receipt where
  | received (message : Message)
  | timedOut
  | stopped

namespace RPCResponse

def addResponseMetadata (rpcCall : RPCCall σ) (j : Json) : Except Exn Json := do
  let j ← j.updateAt "callee_info" (·.set "host" (.string rpcCall.calleeInfo.host))
  j.updateAt "callee_info" (·.set "port" (.number rpcCall.calleeInfo.port.toNat))

/-- The first frame, parsed and completed with the callee: the lines that
    `DoMessageCallback` and `Get` share. -/
def parsedResponse (text : JsonText) (rpcCall : RPCCall σ) (message : Message) : Except Exn Json := do
  let (messageStr, _) ← message.extract
  let parsed ← text.parse messageStr
  addResponseMetadata rpcCall parsed

/-- `DoMessageCallback`.  The result is what the callback was given, if it ran. -/
def doMessageCallback (text : JsonText) (rpcCall : RPCCall σ) (message : Message) :
    EStateM Exn σ (Option Json) :=
  match rpcCall.messageReceiptCallback with
  | none => pure none
  | some callback => do
    let parsed ← Cpp.ofExcept (parsedResponse text rpcCall message)
    callback parsed
    return some parsed

/-- `DoTimeoutCallback`.  The result is what the callback was given, if it ran. -/
def doTimeoutCallback (rpcCall : RPCCall σ) : EStateM Exn σ (Option Json) :=
  match rpcCall.timeoutCallback with
  | none => pure none
  | some callback => do
    let error ← Cpp.ofExcept (addResponseMetadata rpcCall TimeoutException.asJson)
    callback error
    return some error

/-- `Get`, once its work loop has ended. -/
def get (text : JsonText) (rpcCall : RPCCall σ) (receipt : Receipt) : Except Exn Json :=
  if rpcCall.async then .error (.runtimeError "Cannot get on an async call.")
  else
    match receipt with
    | .received message => parsedResponse text rpcCall message
    | .timedOut => .ok TimeoutException.asJson
    | .stopped => .ok InternalException.asJson

end RPCResponse

end Imq
