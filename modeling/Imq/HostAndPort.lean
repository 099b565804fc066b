import Imq.Cpp

/-! # Node addresses (`utils::HostAndPort`) -/

namespace Imq

/-- The address of a node; the default value, with the empty host, is what an
    unused slot of a table holds. -/
structure HostAndPort where
  host : String := ""
  port : UInt32 := 0
  deriving DecidableEq, Repr

namespace HostAndPort

/-- `ToString`. -/
def toString (node : HostAndPort) : String :=
  node.host ++ ":" ++ Cpp.toString node.port.toNat

/-- `FromString`: the index of the colon is kept in an `unsigned`, and the port
    is read as an `int`. -/
def fromString (s : String) : Except Exn HostAndPort := do
  let colonIdx := UInt32.ofNat (Cpp.find s ':')
  let host ← Cpp.substr s 0 colonIdx.toNat
  let port ← Cpp.stoi (← Cpp.substr s (colonIdx + 1).toNat)
  return { host := host, port := UInt32.ofInt port }

end HostAndPort

end Imq
