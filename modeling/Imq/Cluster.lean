import Imq.HostAndPort
import Mathlib.Data.List.FinRange

/-! # The member table (`Cluster`)

The table is a vector of `MAX_NUM_NODES` addresses.  A slot with the empty host
is a free one.  The leader fields of the class are read by nobody and left out;
`Bootstrap` and `GetNodeClient`, which need the RPC layer, follow in `Imq.Node`.
-/

namespace Imq

abbrev MAX_NUM_NODES : Nat := 30

instance : @NeZero Nat Zero.ofOfNat0 MAX_NUM_NODES := ⟨Nat.succ_ne_zero 29⟩

structure Cluster where
  nodes : Vector HostAndPort MAX_NUM_NODES
  deriving DecidableEq

namespace Cluster

/-- The constructor: every slot is unused. -/
def new : Cluster := ⟨Vector.replicate MAX_NUM_NODES {}⟩

/-- `nodes_[i]`. -/
def node (c : Cluster) (i : Fin MAX_NUM_NODES) : HostAndPort := c.nodes[i]

/-- `nodes_[i] = node`. -/
def setNode (c : Cluster) (i : Fin MAX_NUM_NODES) (node : HostAndPort) : Cluster :=
  ⟨c.nodes.set i node⟩

def nodeInCluster (c : Cluster) (finding : HostAndPort) : Bool :=
  c.nodes.toList.any (· == finding)

/-- `AddNode(hostname, port)`: the first slot with the empty host takes the
    node; without one the call does nothing. -/
def addNode (c : Cluster) (node : HostAndPort) : Cluster :=
  match Fin.find? fun i => (c.node i).host == "" with
  | some i => c.setNode i node
  | none => c

/-- `AddNode(idx, hostname, port)`: whatever the slot holds is overwritten, and
    the index is not checked. -/
def addNodeAt (c : Cluster) (idx : UInt32) (node : HostAndPort) : Except Exn Cluster :=
  if h : idx.toNat < MAX_NUM_NODES then .ok (c.setNode ⟨idx.toNat, h⟩ node)
  else .error (.undefined "nodes_[idx] outside the vector")

/-- `RemoveNode`: the first slot equal to the node becomes unused. -/
def removeNode (c : Cluster) (toRemove : HostAndPort) : Cluster :=
  match Fin.find? fun i => c.node i == toRemove with
  | some i => c.setNode i {}
  | none => c

def getNodesWithIdxInCluster (c : Cluster) : List (Fin MAX_NUM_NODES × HostAndPort) :=
  (List.finRange MAX_NUM_NODES).filterMap fun i =>
    if (c.node i).host ≠ "" then some (i, c.node i) else none

def getNodesInCluster (c : Cluster) : List HostAndPort :=
  (List.finRange MAX_NUM_NODES).filterMap fun i =>
    if (c.node i).host ≠ "" then some (c.node i) else none

end Cluster

end Imq
