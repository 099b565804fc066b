import Imq.Cpp
import Mathlib.Logic.Function.Basic

/-! # The server and its threads (`rpc::RPCServer`)

`Run` starts a thread of `RunServer` unless it finds `running_` set, which the
thread does itself once it has bound the sockets and started the worker pool.
`Stop` clears `running_` and joins the thread that `server_thread_` points to.
Each load, store, start, bind and join is one step.
-/

namespace Imq

/-- A step of `RunServer` that may throw. -/
inductive ServerEvent where
  | bindSocket
  | bindIPCSocket
  | startWorkerPool
  deriving DecidableEq

/-- What comes next in a thread of `RunServer`.  `proxy` lasts for as long as the
    thread takes no step. -/
inductive ServerPhase where
  | notStarted
  | event (e : ServerEvent)
  | storeRunning
  | proxy
  | returned
  | joined
  deriving DecidableEq

/-- What follows a step that may throw. -/
def ServerEvent.next : ServerEvent → ServerPhase
  | bindSocket => .event bindIPCSocket
  | bindIPCSocket => .event startWorkerPool
  | startWorkerPool => .storeRunning

/-- What comes next in the caller: in `Run`, in `Stop`, or a call. -/
inductive ServerCallerPhase where
  | idle
  | testRunning
  | startThread
  | clearRunning
  | testServerThread
  | stopWorkerPool
  | join
  | resetServerThread
  deriving DecidableEq

inductive ServerCall where
  | run
  | stop
  deriving DecidableEq

structure RPCServer where
  /-- `running_`. -/
  running : Bool
  /-- `worker_pool_->running_`. -/
  workerPoolRunning : Bool
  /-- The thread that `server_thread_` points to. -/
  serverThread : Option Nat
  /-- The threads that `Run` has started so far are those below this number. -/
  started : Nat := 0
  threads : Nat → ServerPhase := fun _ => .notStarted
  caller : ServerCallerPhase
  /-- What the threads have done since the last `Stop` returned. -/
  sinceStop : List ServerEvent := []
  /-- The exception that has left a thread, and with it has ended the process. -/
  terminated : Option Exn := none

/-- Whose step is taken. -/
inductive ServerStep where
  | call (call : ServerCall)
  | caller
  | thread (i : Nat)
  deriving DecidableEq

namespace RPCServer

/-- The first call, which is of `Run`, on a server as the constructor leaves it: the
    flag of the pool and the pointer to the thread are as they happen to be. -/
def start (workerPoolRunning : Bool) (serverThread : Option Nat) : RPCServer where
  running := false
  workerPoolRunning := workerPoolRunning
  serverThread := serverThread
  caller := .testRunning

def goTo (s : RPCServer) (i : Nat) (phase : ServerPhase) : RPCServer :=
  { s with threads := Function.update s.threads i phase }

/-- A step of `RunServer`; `throws` gives the exceptions of its calls. -/
def threadStep (throws : Nat → ServerEvent → Option Exn) (s : RPCServer) (i : Nat) : RPCServer :=
  match s.threads i with
  | .event e =>
    match throws i e with
    | some exn => { s with terminated := some exn }
    | none =>
      { s with
        workerPoolRunning := if e = ServerEvent.startWorkerPool then true else s.workerPoolRunning
        sinceStop := s.sinceStop ++ [e] }.goTo i e.next
  | .storeRunning => { s with running := true }.goTo i .proxy
  | .proxy => s.goTo i .returned
  | .notStarted | .returned | .joined => s

/-- A step of `Run` or of `Stop`. -/
def callerStep (s : RPCServer) : RPCServer :=
  match s.caller with
  | .idle => s
  | .testRunning => { s with caller := if s.running then .idle else .startThread }
  | .startThread =>
    { s with
      serverThread := some s.started
      started := s.started + 1
      caller := .idle }.goTo s.started (.event .bindSocket)
  | .clearRunning => { s with running := false, caller := .testServerThread }
  | .testServerThread =>
    { s with caller := if s.serverThread.isSome then .stopWorkerPool else .resetServerThread }
  | .stopWorkerPool => { s with workerPoolRunning := false, caller := .join }
  | .join =>
    match s.serverThread with
    | some i =>
      if s.threads i = .returned then { s with caller := .resetServerThread }.goTo i .joined else s
    | none => s
  | .resetServerThread => { s with serverThread := none, sinceStop := [], caller := .idle }

/-- A call of `Run` or `Stop` begins once the call before it has returned. -/
def begin (s : RPCServer) (call : ServerCall) : RPCServer :=
  match s.caller, call with
  | .idle, .run => { s with caller := .testRunning }
  | .idle, .stop => { s with caller := .clearRunning }
  | _, _ => s

def step (throws : Nat → ServerEvent → Option Exn) (s : RPCServer) (l : ServerStep) : RPCServer :=
  match s.terminated, l with
  | some _, _ => s
  | none, .call call => s.begin call
  | none, .caller => s.callerStep
  | none, .thread i => s.threadStep throws i

end RPCServer

end Imq
