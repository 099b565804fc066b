import Imq.Lib.Runs
import Imq.RPC.ServerWorkerPool

/-! # One client and its server as a message-passing system

Calls are issued on one client, whose DEALER socket they share.  The workers of
the server take requests in any order, replies are delayed at will, and no frame
is lost, changed or duplicated.  The frames carry no mark of the call they
belong to.

* `ClientCall` — a call that has been issued, and what became of it;
* `Exchange` — the server, the calls and the messages under way;
* `Exchange.step` — what may happen next.
-/

namespace Imq

variable {σ τ : Type}

/-- A call that has been issued.  `computed` records, for no other purpose than
    to speak about it, what the server sent in answer to this very call. -/
structure ClientCall (τ : Type) where
  rpcCall : RPCCall τ
  computed : Option Message := none
  /-- How `MessageReceiptMainWorkLoop` of the response ended, once it has. -/
  receipt : Option Receipt := none

/-- Calls are numbered in the order of issue.  A message under way stands with
    the number of its call, which only the statements look at. -/
structure Exchange (σ τ : Type) where
  /-- None once an exception has left a worker. -/
  server : Option σ
  calls : List (ClientCall τ) := []
  requests : List (Nat × Message) := []
  replies : List (Nat × Message) := []
  /-- The replies that have reached the socket of the client. -/
  inbox : List (Nat × Message) := []

inductive ExchangeStep (σ τ : Type) where
  | issue (rpcCall : RPCCall τ)
  /-- A worker takes the request at this position. -/
  | serve (position : Nat)
  /-- The reply at this position reaches the socket. -/
  | arrive (position : Nat)
  /-- The work loop of this call takes the next reply. -/
  | receive (c : Nat)
  /-- The timeout of this call has elapsed, which it may at any time. -/
  | timeOut (c : Nat)
  /-- `running_` is cleared. -/
  | stop (c : Nat)
  /-- What the server does for others. -/
  | elsewhere (server : Option σ)

namespace Exchange

/-- The frames of a message that the ROUTER passes on to a client. -/
def routedTo (identity : String) : Option Message → Option Message
  | some (clientAddr :: frames) => if clientAddr = identity then some frames else none
  | _ => none

def initial (server : σ) : Exchange σ τ where
  server := some server

/-- The work loop of call `c` is still running. -/
def Waiting (s : Exchange σ τ) (c : Nat) : Prop :=
  ∃ call, s.calls[c]? = some call ∧ call.receipt = none

def isWaiting (s : Exchange σ τ) (c : Nat) : Bool :=
  s.calls[c]?.any fun call => call.receipt.isNone

def finish (s : Exchange σ τ) (c : Nat) (receipt : Receipt) : Exchange σ τ :=
  { s with calls := s.calls.modify c fun call => { call with receipt := some receipt } }

def arrive (s : Exchange σ τ) (position : Nat) (reply : Nat × Message) : Exchange σ τ :=
  { s with
    replies := s.replies.eraseIdx position
    inbox := s.inbox ++ [reply] }

def receive (s : Exchange σ τ) (c : Nat) (reply : Message) (rest : List (Nat × Message)) :
    Exchange σ τ :=
  { s.finish c (.received reply) with inbox := rest }

section

variable (text : JsonText) (pool : RPCServerWorkerPool σ) (identity : String) (client : RPCObject)

/-- The sending of a call, into which the callee has been written. -/
def issue (s : Exchange σ τ) (rpcCall : RPCCall τ) : Exchange σ τ :=
  { s with
    calls := s.calls ++ [{ rpcCall := rpcCall }]
    requests := s.requests ++ [(s.calls.length, rpcCall.frames text)] }

/-- The work on the request of call `c`, which stands at a position. -/
def serve (s : Exchange σ τ) (position : Nat) (c : Nat) (request : Message) (server : σ) :
    Exchange σ τ :=
  let rest := s.requests.eraseIdx position
  match (RPCServerWorkerPool.workBody text pool (some (identity :: request))).run server with
  | .ok sent server =>
    match routedTo identity sent with
    | some reply =>
      { s with
        server := some server
        calls := s.calls.modify c fun call => { call with computed := some reply }
        requests := rest
        replies := s.replies ++ [(c, reply)] }
    | none => { s with server := some server, requests := rest }
  | .error _ _ => { s with server := none, requests := rest }

def step (s : Exchange σ τ) : ExchangeStep σ τ → Option (Exchange σ τ)
  | .issue rpcCall =>
    match RPCClient.call client rpcCall with
    | .ok rpcCall => some (s.issue text rpcCall)
    | .error _ => none
  | .serve position =>
    match s.server, s.requests[position]? with
    | some server, some (c, request) => some (s.serve text pool identity position c request server)
    | _, _ => none
  | .arrive position =>
    match s.replies[position]? with
    | some reply => some (s.arrive position reply)
    | none => none
  | .receive c =>
    match s.inbox with
    -- Whatever stands first is taken, whichever call it answers.
    | (_, reply) :: rest =>
      if s.isWaiting c then some (s.receive c reply rest) else none
    | [] => none
  | .timeOut c => if s.isWaiting c then some (s.finish c .timedOut) else none
  | .stop c => if s.isWaiting c then some (s.finish c .stopped) else none
  | .elsewhere server => if s.server.isSome then some { s with server := server } else none

end

/-! ## What is said of a state -/

/-- No message is under way or left unread. -/
def Quiet (s : Exchange σ τ) : Prop := s.requests = [] ∧ s.replies = [] ∧ s.inbox = []

instance (s : Exchange σ τ) : Decidable s.Quiet := inferInstanceAs (Decidable (_ ∧ _ ∧ _))

/-- Calls are issued only once nothing is left of earlier ones. -/
def IssuedWhenQuiet (s : Exchange σ τ) : ExchangeStep σ τ → Prop
  | .issue _ => s.Quiet
  | _ => True

instance (s : Exchange σ τ) (l : ExchangeStep σ τ) : Decidable (s.IssuedWhenQuiet l) :=
  match l with
  | .issue _ => inferInstanceAs (Decidable s.Quiet)
  | .serve _ | .arrive _ | .receive _ | .timeOut _ | .stop _ | .elsewhere _ => .isTrue trivial

end Exchange

/-- The JSON that `Get` returns or the message callback is given. -/
def ClientCall.delivered (text : JsonText) (call : ClientCall τ) : Option (Except Exn Json) :=
  match call.receipt with
  | some (.received message) => some (RPCResponse.parsedResponse text call.rpcCall message)
  | _ => none

/-- The result that the server computed for the call, decoded in the same way. -/
def ClientCall.answer (text : JsonText) (call : ClientCall τ) : Option (Except Exn Json) :=
  call.computed.map (RPCResponse.parsedResponse text call.rpcCall)

/-- Every reply that a call has got is the one to that call. -/
def Exchange.RepliesMatch (text : JsonText) (s : Exchange σ τ) : Prop :=
  ∀ call ∈ s.calls, ∀ response, call.delivered text = some response →
    call.answer text = some response

end Imq
