import Imq.Node

/-! # Nodes that join through one leader

A leader and `k` joiners as a message-passing system.  A joiner's `JoinCluster`
is cut at its remote call: `send` runs it up to the request, `handle` lets the
leader's handler take the request, and `apply` runs the rest of it on the reply.
At any time any joiner may make its next step.
-/

namespace Imq

/-- How far a joiner has got: its request or its reply is in flight, or it has
    applied the reply.  `failed` is what an exception leads to. -/
inductive JoinPhase where
  | idle
  | requested (rpcCall : RPCCall Process)
  | replied (rpcCall : RPCCall Process) (result : Json)
  | applied
  | failed (e : Exn)

/-- Joiners are numbered; `registeredAt` records, for no other purpose than to
    speak about it, the leader's table right after it has handled a request. -/
structure JoinSystem (k : Nat) where
  leader : Process
  joiner : Fin k → Process
  phase : Fin k → JoinPhase
  registeredAt : Fin k → Option Cluster

inductive JoinStep (k : Nat) where
  | send (i : Fin k)
  | handle (i : Fin k)
  | apply (i : Fin k)

namespace JoinSystem

variable {k : Nat}

/-- Every node has just been built, in a process of its own that is set up for
    its address. -/
def initial (leader : HostAndPort) (joiners : Fin k → HostAndPort) : JoinSystem k where
  leader := IMQNode.new leader (Process.initial leader)
  joiner := fun i => IMQNode.new (joiners i) (Process.initial (joiners i))
  phase := fun _ => .idle
  registeredAt := fun _ => none

/-- Joiner `i` goes on to a phase with a process. -/
def advance (s : JoinSystem k) (i : Fin k) (phase : JoinPhase) (p : Process) : JoinSystem k :=
  { s with
    joiner := Function.update s.joiner i p
    phase := Function.update s.phase i phase }

def send (leader : HostAndPort) (s : JoinSystem k) (i : Fin k) : JoinSystem k :=
  match (Cluster.bootstrapCall (s.joiner i).metaStore leader).run (s.joiner i) with
  | .ok rpcCall p => s.advance i (.requested rpcCall) p
  | .error e p => s.advance i (.failed e) p

def handle (s : JoinSystem k) (i : Fin k) (rpcCall : RPCCall Process) : JoinSystem k :=
  match (Process.onCluster (IMQNode.getNodesInCluster rpcCall.args)).run s.leader with
  | .ok result p =>
    { s with
      leader := p
      phase := Function.update s.phase i (.replied rpcCall result)
      registeredAt := Function.update s.registeredAt i (some p.cluster) }
  | .error e p => { s with leader := p, phase := Function.update s.phase i (.failed e) }

/-- What `Get` and the rest of `Bootstrap` do with the reply. -/
def receive (rpcCall : RPCCall Process) (result : Json) : EStateM Exn Process Unit := do
  let response ← Cpp.ofExcept (RPCResponse.addResponseMetadata rpcCall result)
  Process.onCluster (Cluster.bootstrapReply response)

def apply (s : JoinSystem k) (i : Fin k) (rpcCall : RPCCall Process) (result : Json) :
    JoinSystem k :=
  match (receive rpcCall result).run (s.joiner i) with
  | .ok _ p => s.advance i .applied p
  | .error e p => s.advance i (.failed e) p

def step (leader : HostAndPort) (s : JoinSystem k) : JoinStep k → Option (JoinSystem k)
  | .send i =>
    match s.phase i with
    | .idle => some (s.send leader i)
    | _ => none
  | .handle i =>
    match s.phase i with
    | .requested rpcCall => some (s.handle i rpcCall)
    | _ => none
  | .apply i =>
    match s.phase i with
    | .replied rpcCall result => some (s.apply i rpcCall result)
    | _ => none

/-- The tables of the leader and of the joiners that are done. -/
def Settled (s : JoinSystem k) (c : Cluster) : Prop :=
  c = s.leader.cluster ∨ ∃ i, s.phase i = .applied ∧ c = (s.joiner i).cluster

end JoinSystem

end Imq
