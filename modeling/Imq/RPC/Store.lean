import Imq.HostAndPort
import Mathlib.Logic.Function.Basic

/-! # RPC objects and their store (`rpc::RPCObject`, `rpc::RPCStore`)

`RPCClientStore` and `RPCServerStore` share the one `RPCStore` of the process
and cast what they find there without a check.  An object therefore remembers
what it was built as; `RPCObject.id` is its identity.
-/

namespace Imq

inductive RPCKind where
  | client
  | server
  deriving DecidableEq, Repr

structure RPCObject where
  kind : RPCKind
  hostAndPort : HostAndPort
  id : Nat
  deriving DecidableEq, Repr

/-- The store: objects by address, and how many objects have been built. -/
structure RPCStore where
  rpcObjects : HostAndPort → Option RPCObject
  constructed : Nat
  keyed : ∀ address object, rpcObjects address = some object → object.hostAndPort = address

namespace RPCStore

def empty : RPCStore where
  rpcObjects := fun _ => none
  constructed := 0
  keyed := fun _ _ h => by cases h

/-- `AddRPCObject`: `insert` under the object's own address, which keeps an
    entry that is already there. -/
def addRPCObject (store : RPCStore) (object : RPCObject) : RPCStore where
  rpcObjects := Function.update store.rpcObjects object.hostAndPort
    (some ((store.rpcObjects object.hostAndPort).getD object))
  constructed := store.constructed
  keyed := by
    intro address found h
    by_cases ha : address = object.hostAndPort
    · subst ha
      rw [Function.update_self, Option.some.injEq] at h
      subst h
      cases hs : store.rpcObjects object.hostAndPort with
      | none => rfl
      | some old => exact store.keyed _ old hs
    · rw [Function.update_of_ne ha] at h
      exact store.keyed address found h

/-- `new RPCClient(host, port)` or `new RPCServer(host, port)`. -/
def construct (store : RPCStore) (kind : RPCKind) (address : HostAndPort) : RPCObject × RPCStore :=
  (⟨kind, address, store.constructed⟩, { store with constructed := store.constructed + 1 })

/-- What `GetRPCClient` and `GetRPCServer` have in common: the object stored
    under the address, whatever it was built as, or else a new one. -/
def getOrConstruct (store : RPCStore) (kind : RPCKind) (address : HostAndPort) :
    RPCObject × RPCStore :=
  match store.rpcObjects address with
  | some object => (object, store)
  | none =>
    let (object, store) := store.construct kind address
    (object, store.addRPCObject object)

def getRPCClient (store : RPCStore) (address : HostAndPort) : RPCObject × RPCStore :=
  store.getOrConstruct .client address

def getRPCServer (store : RPCStore) (address : HostAndPort) : RPCObject × RPCStore :=
  store.getOrConstruct .server address

end RPCStore

/-- A call on one of the two stores. -/
inductive StoreCall where
  | getRPCClient (address : HostAndPort)
  | getRPCServer (address : HostAndPort)
  deriving DecidableEq, Repr

namespace StoreCall

/-- The kind of object that the static type of the result promises. -/
def kind : StoreCall → RPCKind
  | getRPCClient _ => .client
  | getRPCServer _ => .server

def address : StoreCall → HostAndPort
  | getRPCClient address => address
  | getRPCServer address => address

def perform (store : RPCStore) : StoreCall → RPCObject × RPCStore
  | getRPCClient address => store.getRPCClient address
  | getRPCServer address => store.getRPCServer address

end StoreCall

end Imq
