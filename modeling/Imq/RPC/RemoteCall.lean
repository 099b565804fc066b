import Imq.RPC.ServerWorkerPool

/-! # A remote call from end to end

A synchronous call through one client and one worker.  The ROUTER socket of the
server puts the identity of the client before the frames of a request and takes
it off the reply; no frame is lost or changed.
-/

namespace Imq

variable {σ τ : Type}

/-- The pool after a sequence of `AddRPC` calls. -/
def RPCServerWorkerPool.ofRegistrations (registrations : List (String × RPCFunc σ)) :
    RPCServerWorkerPool σ :=
  registrations.foldl (fun pool r => pool.addRPC r.1 r.2) {}

/-- What the client receives of the message that a worker sent, if it sent one. -/
def receiptOf : Option Message → Receipt
  | some (_ :: frames) => .received frames
  | _ => .timedOut

def remoteCall (text : JsonText) (pool : RPCServerWorkerPool σ) (identity : String)
    (client : RPCObject) (rpcCall : RPCCall τ) : EStateM Exn σ Json := do
  let rpcCall ← Cpp.ofExcept (RPCClient.call client rpcCall)
  let sent ← RPCServerWorkerPool.workBody text pool (some (identity :: rpcCall.frames text))
  Cpp.ofExcept (RPCResponse.get text rpcCall (receiptOf sent))

end Imq
