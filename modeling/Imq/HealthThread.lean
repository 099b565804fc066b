import Imq.NodeRun

/-! # The health thread and its stop (`Health::Run`, `Health::Stop`)

`Run` starts the thread of `PerformHealthChecks`, which sets the flag that it
then tests before every pass; `Stop` clears the flag and joins the thread.  Each
store to the flag, each test of it and each pass is one step, and so is what
`Run` does up to the start of the thread.
-/

namespace Imq

/-- What comes next in `PerformHealthChecks`, with the number of the pass.
    `thrown` is for an exception that has left the thread. -/
inductive HealthPhase where
  | notStarted
  | storeRunning
  | testRunning (k : Nat)
  | pass (k : Nat)
  | sleep (k : Nat)
  | returned
  | thrown (e : Exn)
  deriving DecidableEq

/-- What comes next in the calls of `Run` and `Stop`. -/
inductive CallerPhase where
  | run
  | clearRunning
  | join
  | returned
  | thrown (e : Exn)
  deriving DecidableEq

structure HealthSystem where
  running : Bool
  node : NodeState
  thread : HealthPhase := .notStarted
  caller : CallerPhase := .run

inductive HealthStep where
  | thread
  | caller
  deriving DecidableEq

namespace HealthSystem

/-- Before `Run`, with `running_` as it happens to be. -/
def start (running : Bool) (node : NodeState) : HealthSystem := { running := running, node := node }

/-- A step of `PerformHealthChecks`; `outcome` gives what becomes of the calls of
    each pass. -/
def threadStep (text : JsonText) (outcome : Nat → HostAndPort → CallOutcome) (s : HealthSystem) :
    HealthSystem :=
  match s.thread with
  | .storeRunning => { s with running := true, thread := .testRunning 0 }
  | .testRunning k => { s with thread := if s.running then .pass k else .returned }
  | .pass k =>
    match (Health.performHealthChecksPass text (outcome k)).run s.node.process with
    | .ok _ p => { s with node := { s.node with process := p }, thread := .sleep k }
    | .error e p => { s with node := { s.node with process := p }, thread := .thrown e }
  | .sleep k => { s with thread := .testRunning (k + 1) }
  | .notStarted | .returned | .thrown _ => s

/-- A step of `Run`, then of `Stop`. -/
def callerStep (s : HealthSystem) : HealthSystem :=
  match s.caller with
  | .run =>
    match Health.run.run s.node with
    | .ok _ node => { s with node := node, thread := .storeRunning, caller := .clearRunning }
    | .error e node => { s with node := node, caller := .thrown e }
  | .clearRunning => { s with running := false, caller := .join }
  | .join => if s.thread = .returned then { s with caller := .returned } else s
  | .returned | .thrown _ => s

def step (text : JsonText) (outcome : Nat → HostAndPort → CallOutcome) (s : HealthSystem) :
    HealthStep → HealthSystem
  | .thread => s.threadStep text outcome
  | .caller => s.callerStep

end HealthSystem

end Imq
