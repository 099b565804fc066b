import Imq.RPC.Call
import Mathlib.Logic.Function.Iterate

/-! # The work loop of a response (`RPCResponse::MessageReceiptMainWorkLoop`)

`WorkLoop.step` is one atomic step of the loop.  What the polls and the clock
give is indexed by the iterations.  An asynchronous response runs the loop in a
thread of its own, at the same time as its destructor: `AsyncResponse.step`.
-/

namespace Imq

variable {σ : Type}

/-- What comes from outside: the results of the polls, and the readings of the
    clock in milliseconds, the first of which is taken before the loop. -/
structure Readings where
  poll : Nat → Option Message
  clock : Nat → Int

namespace RPCResponse

/-- `CurrentTime`: the milliseconds, cut off to an `unsigned`. -/
def currentTime (now : Int) : UInt32 := UInt32.ofInt now

def hasTimedOut (rpcCall : RPCCall σ) (startTime : UInt32) (now : Int) : Bool :=
  currentTime now - startTime ≥ rpcCall.timeoutDuration

end RPCResponse

/-- The step of the loop that comes next, with the number of the iteration.
    `thrown` is for an exception that has left the loop. -/
inductive LoopPhase where
  | storeRunning
  | readStartTime
  | testRunning (k : Nat)
  | receive (k : Nat)
  | testTimeout (k : Nat)
  | messageCallback
  | timeoutCallback
  | returned
  | thrown (e : Exn)
  deriving DecidableEq

/-- A callback that has been invoked, with its argument. -/
inductive Invocation where
  | message (response : Json)
  | timeout (error : Json)

/-- The members of the response that the loop uses, the state that the callbacks
    work on, and which of them have been invoked. -/
structure WorkLoop (σ : Type) where
  running : Bool
  received : Bool := false
  receivedMessage : Message := []
  timedout : Bool := false
  startTime : UInt32
  phase : LoopPhase := .storeRunning
  state : σ
  invoked : List Invocation := []

namespace WorkLoop

def goTo (w : WorkLoop σ) (phase : LoopPhase) : WorkLoop σ := { w with phase := phase }

/-- `DoMessageCallback` or `DoTimeoutCallback`, and the `return` behind it. -/
def callBack (w : WorkLoop σ) (kind : Json → Invocation) (callback : EStateM Exn σ (Option Json)) :
    WorkLoop σ :=
  match callback.run w.state with
  | .ok given state =>
    { w with state := state, invoked := w.invoked ++ given.toList.map kind, phase := .returned }
  | .error e state => { w with state := state, phase := .thrown e }

/-- One step of `MessageReceiptMainWorkLoop(do_cb)`. -/
def step (text : JsonText) (rpcCall : RPCCall σ) (doCb : Bool) (readings : Readings)
    (w : WorkLoop σ) : WorkLoop σ :=
  match w.phase with
  | .storeRunning => { w with running := true }.goTo .readStartTime
  | .readStartTime =>
    { w with startTime := RPCResponse.currentTime (readings.clock 0) }.goTo (.testRunning 0)
  | .testRunning k => if w.running then w.goTo (.receive k) else w.goTo .returned
  | .receive k =>
    match readings.poll k with
    | some message =>
      { w with received := true, receivedMessage := message }.goTo
        (if doCb then .messageCallback else .returned)
    | none => { w with received := false }.goTo (.testTimeout k)
  | .testTimeout k =>
    if RPCResponse.hasTimedOut rpcCall w.startTime (readings.clock (k + 1)) then
      { w with timedout := true }.goTo (if doCb then .timeoutCallback else .returned)
    else w.goTo (.testRunning (k + 1))
  | .messageCallback =>
    w.callBack .message (RPCResponse.doMessageCallback text rpcCall w.receivedMessage)
  | .timeoutCallback => w.callBack .timeout (RPCResponse.doTimeoutCallback rpcCall)
  | .returned | .thrown _ => w

/-- The members as the constructor leaves them: `running_` and the start time are
    as they happen to be. -/
def start (running : Bool) (startTime : UInt32) (state : σ) : WorkLoop σ :=
  { running := running, startTime := startTime, state := state }

/-- What `Get` finds in the members once its loop has ended. -/
def receipt (w : WorkLoop σ) : Receipt :=
  if w.received then .received w.receivedMessage
  else if w.timedout then .timedOut
  else .stopped

end WorkLoop

/-- A step of the loop, or a store to `running_` from outside. -/
inductive LoopEvent where
  | step
  | clearRunning
  deriving DecidableEq

def WorkLoop.react (text : JsonText) (rpcCall : RPCCall σ) (doCb : Bool) (readings : Readings)
    (w : WorkLoop σ) : LoopEvent → WorkLoop σ
  | .step => w.step text rpcCall doCb readings
  | .clearRunning => { w with running := false }

/-- `Get` returns this value: its loop, which nothing clears `running_` for, ends,
    and `Get` goes on from the members. -/
def RPCResponse.GetReturns (text : JsonText) (rpcCall : RPCCall σ) (readings : Readings)
    (w : WorkLoop σ) (value : Json) : Prop :=
  ∃ n, ((WorkLoop.step text rpcCall false readings)^[n] w).phase = .returned ∧
    get text rpcCall ((WorkLoop.step text rpcCall false readings)^[n] w).receipt = .ok value

/-! ## The thread and the destructor -/

/-- The step of the destructor that comes next. -/
inductive DestructorPhase where
  | clearRunning
  | join
  | returned
  deriving DecidableEq

structure AsyncResponse (σ : Type) where
  loop : WorkLoop σ
  destructor : DestructorPhase := .clearRunning

inductive ResponseStep where
  | thread
  | destructor
  deriving DecidableEq

namespace AsyncResponse

/-- The constructor, which leaves `running_` and the start time as they happen to
    be. -/
def construct (running : Bool) (startTime : UInt32) (state : σ) : AsyncResponse σ :=
  { loop := { running := running, startTime := startTime, state := state } }

/-- `join` waits for the thread, which there is only for an asynchronous call. -/
def step (text : JsonText) (rpcCall : RPCCall σ) (readings : Readings) (s : AsyncResponse σ) :
    ResponseStep → AsyncResponse σ
  | .thread =>
    if rpcCall.async then { s with loop := s.loop.step text rpcCall true readings } else s
  | .destructor =>
    match s.destructor with
    | .clearRunning => { s with loop := { s.loop with running := false }, destructor := .join }
    | .join =>
      if rpcCall.async ∧ s.loop.phase ≠ .returned then s else { s with destructor := .returned }
    | .returned => s

end AsyncResponse

end Imq
