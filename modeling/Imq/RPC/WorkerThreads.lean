import Imq.Lib.Runs
import Imq.RPC.ServerWorkerPool

/-! # The threads of a worker pool

`Start` sets `running_` and creates its workers one after the other.  Each of them goes
through the loop of `Work` at a socket of its own.  The server takes in what any number
of clients send, behind the identity of the sender, and the backend passes it on in the
order of arrival, each message to the socket of one worker.  Each load, store, receive
and send is one step, and so is the work on one message.

* `WorkPhase` — where a worker is in its loop;
* `WorkerThreads` — the pool, its workers and the messages;
* `WorkerThreads.step` — what may happen next.
-/

namespace Imq

variable {σ : Type}

/-- A message with its number, which only the statements look at. -/
abbrev Numbered : Type := Nat × Message

/-- What a worker does next. -/
inductive WorkPhase where
  | testRunning
  | receive
  | perform (request : Numbered)
  | send (reply : Numbered)
  | returned
  deriving DecidableEq

structure ServerWorker where
  /-- What has reached the socket of the worker. -/
  inbox : List Numbered := []
  phase : WorkPhase := .testRunning

structure WorkerThreads (σ : Type) where
  /-- None once an exception has left a worker. -/
  server : Option σ
  /-- `running_`. -/
  running : Bool
  /-- How many workers `Start` has still to create. -/
  toCreate : Nat := 0
  workers : List ServerWorker := []
  /-- All that the server has taken in. -/
  received : List Message := []
  /-- What the backend has still to pass on. -/
  queue : List Numbered := []
  /-- What the workers have sent, with the numbers of the requests. -/
  replies : List Numbered := []

inductive WorkerThreadsStep (σ : Type) where
  /-- `Start` begins. -/
  | start
  | stop
  /-- `Start` goes on. -/
  | createServerWorker
  /-- The server receives what a client has sent. -/
  | request (identity : String) (frames : Message)
  | dispatch (w : Nat)
  | work (w : Nat)
  /-- A signal ends the `receive` of a worker. -/
  | interrupt (w : Nat)
  /-- What others do to the state of the server. -/
  | elsewhere (server : Option σ)

namespace WorkerThreads

/-- A pool as its constructor leaves it; the flag is as it happens to be. -/
def initial (server : σ) (running : Bool) : WorkerThreads σ where
  server := some server
  running := running

def setWorker (s : WorkerThreads σ) (w : Nat) (worker : ServerWorker) : WorkerThreads σ :=
  { s with workers := s.workers.set w worker }

def request (s : WorkerThreads σ) (message : Message) : WorkerThreads σ :=
  { s with
    received := s.received ++ [message]
    queue := s.queue ++ [(s.received.length, message)] }

section

variable (text : JsonText) (pool : RPCServerWorkerPool σ) (numWorkers : Nat)

/-- The body of the loop from `MessageToParts` up to the sending. -/
def perform (s : WorkerThreads σ) (server : σ) (w : Nat) (worker : ServerWorker)
    (request : Numbered) : WorkerThreads σ :=
  match (RPCServerWorkerPool.workBody text pool (some request.2)).run server with
  | .ok (some sent) server =>
    { s with server := some server }.setWorker w { worker with phase := .send (request.1, sent) }
  | .ok none server =>
    { s with server := some server }.setWorker w { worker with phase := .testRunning }
  | .error _ _ => { s with server := none }

/-- A step of `Work`; none while `receive` waits, and after the end. -/
def work (s : WorkerThreads σ) (server : σ) (w : Nat) (worker : ServerWorker) :
    Option (WorkerThreads σ) :=
  match worker.phase, worker.inbox with
  | .testRunning, _ =>
    some (s.setWorker w { worker with phase := if s.running then .receive else .returned })
  | .receive, request :: inbox => some (s.setWorker w ⟨inbox, .perform request⟩)
  | .receive, [] => none
  | .perform request, _ => some (s.perform text pool server w worker request)
  | .send reply, _ =>
    some ({ s with replies := s.replies ++ [reply] }.setWorker w
      { worker with phase := .testRunning })
  | .returned, _ => none

def dispatch (s : WorkerThreads σ) (w : Nat) (worker : ServerWorker) :
    Option (WorkerThreads σ) :=
  match s.queue with
  | request :: queue =>
    some ({ s with queue := queue }.setWorker w
      { worker with inbox := worker.inbox ++ [request] })
  | [] => none

def interrupt (s : WorkerThreads σ) (w : Nat) (worker : ServerWorker) :
    Option (WorkerThreads σ) :=
  if worker.phase = .receive then some (s.setWorker w { worker with phase := .testRunning })
  else none

def step (s : WorkerThreads σ) (l : WorkerThreadsStep σ) : Option (WorkerThreads σ) :=
  match s.server, l with
  | none, _ => none
  | some _, .start => some { s with running := true, toCreate := s.toCreate + numWorkers }
  | some _, .stop => some { s with running := false }
  | some _, .createServerWorker =>
    if s.toCreate = 0 then none
    else some { s with toCreate := s.toCreate - 1, workers := s.workers ++ [{}] }
  | some _, .request identity frames => some (s.request (identity :: frames))
  | some _, .dispatch w => s.workers[w]?.bind (s.dispatch w)
  | some server, .work w => s.workers[w]?.bind (s.work text pool server w)
  | some _, .interrupt w => s.workers[w]?.bind (s.interrupt w)
  | some _, .elsewhere server => some { s with server := server }

end

end WorkerThreads

end Imq
