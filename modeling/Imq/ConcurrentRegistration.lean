import Imq.Lib.FirstFit
import Imq.Node

/-! # Registrations that are handled at the same time

The workers of a pool run the `GetNodesInCluster` handler at the same time, on
the one table and without a lock.  In a `RegistrationSystem` each call that the
handler makes on the table is one step of its request; in an `AddNodeSystem`
each test of a slot in `AddNode`, and its write, is one step of that call.  The
label of a step says whose it is.
-/

namespace Imq

/-- How far the handling of a request is: the call on the table that comes next,
    or the list that it has got in the end. -/
inductive RequestPhase where
  | nodeInCluster
  | addNode
  | getNodesWithIdxInCluster
  | answered (nodes : List (Fin MAX_NUM_NODES × HostAndPort))
  deriving DecidableEq

structure RegistrationSystem (ι : Type) where
  cluster : Cluster
  phase : ι → RequestPhase

namespace RegistrationSystem

variable {ι : Type}

def start (cluster : Cluster) : RegistrationSystem ι := ⟨cluster, fun _ => .nodeInCluster⟩

variable [DecidableEq ι]

def goTo (s : RegistrationSystem ι) (i : ι) (phase : RequestPhase) : RegistrationSystem ι :=
  { s with phase := Function.update s.phase i phase }

/-- `requester i` is the node that request `i` registers. -/
def step (requester : ι → HostAndPort) (s : RegistrationSystem ι) (i : ι) : RegistrationSystem ι :=
  match s.phase i with
  | .nodeInCluster =>
    if !s.cluster.nodeInCluster (requester i) then s.goTo i .addNode
    else s.goTo i .getNodesWithIdxInCluster
  | .addNode =>
    { s with cluster := s.cluster.addNode (requester i) }.goTo i .getNodesWithIdxInCluster
  | .getNodesWithIdxInCluster => s.goTo i (.answered s.cluster.getNodesWithIdxInCluster)
  | .answered _ => s

end RegistrationSystem

/-- Calls of `AddNode(host, port)` with the phase of the loop that each is in:
    the test of a slot or the write comes next, or it has ended by `break` or by
    its condition. -/
structure AddNodeSystem (ι : Type) where
  cluster : Cluster
  call : ι → Lib.FirstFit.Phase MAX_NUM_NODES

namespace AddNodeSystem

variable {ι : Type}

def start (cluster : Cluster) : AddNodeSystem ι := ⟨cluster, fun _ => .testing 0⟩

variable [DecidableEq ι]

def goTo (s : AddNodeSystem ι) (j : ι) (phase : Lib.FirstFit.Phase MAX_NUM_NODES) :
    AddNodeSystem ι :=
  { s with call := Function.update s.call j phase }

/-- `node j` is the node that call `j` adds. -/
def step (node : ι → HostAndPort) (s : AddNodeSystem ι) (j : ι) : AddNodeSystem ι :=
  match s.call j with
  | .testing i =>
    if (s.cluster.node i).host == "" then s.goTo j (.writing i) else s.goTo j (.next i)
  | .writing i => { s with cluster := s.cluster.setNode i (node j) }.goTo j (.done (some i))
  | .done _ => s

end AddNodeSystem

end Imq
