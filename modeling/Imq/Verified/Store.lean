import Imq.Lib.Runs
import Imq.RPC.Call

/-! # What the RPC store hands back

The store keeps the first object built for an address.

* `RPCStore.ServersOnlyAt` — in a process that asks for a server only under its
  own address, a client asked for under another address is one;
* `RPCStore.handsBackKind_iff` — a history of calls gets the kinds it asks for
  exactly if it asks for no address in both kinds.
-/

namespace Imq.RPCStore

theorem getOrConstruct_of_some {store : RPCStore} {kind : RPCKind} {address : HostAndPort}
    {object : RPCObject} (h : store.rpcObjects address = some object) :
    store.getOrConstruct kind address = (object, store) := by
  simp only [getOrConstruct, h]

theorem getOrConstruct_of_none {store : RPCStore} {kind : RPCKind} {address : HostAndPort}
    (h : store.rpcObjects address = none) :
    (store.getOrConstruct kind address).1 = ⟨kind, address, store.constructed⟩ ∧
      (store.getOrConstruct kind address).2.rpcObjects =
        Function.update store.rpcObjects address (some ⟨kind, address, store.constructed⟩) := by
  simp only [getOrConstruct, h]
  simp [construct, addRPCObject, h]

theorem hostAndPort_getOrConstruct (store : RPCStore) (kind : RPCKind) (address : HostAndPort) :
    (store.getOrConstruct kind address).1.hostAndPort = address := by
  cases h : store.rpcObjects address with
  | none => rw [(getOrConstruct_of_none h).1]
  | some object =>
    rw [getOrConstruct_of_some h]
    exact store.keyed address object h

/-- Only the address `self` may hold a server. -/
def ServersOnlyAt (self : HostAndPort) (store : RPCStore) : Prop :=
  ∀ address object, store.rpcObjects address = some object → address ≠ self →
    object.kind = .client

theorem serversOnlyAt_empty (self : HostAndPort) : empty.ServersOnlyAt self := by
  intro address object h
  cases h

theorem serversOnlyAt_getOrConstruct {self address : HostAndPort} {store : RPCStore}
    {kind : RPCKind} (h : store.ServersOnlyAt self) (hk : kind = .client ∨ address = self) :
    (store.getOrConstruct kind address).2.ServersOnlyAt self := by
  cases hs : store.rpcObjects address with
  | some object =>
    rw [getOrConstruct_of_some hs]
    exact h
  | none =>
    intro other object hobject hne
    rw [(getOrConstruct_of_none hs).2] at hobject
    -- A new object under the address itself, or one that was there before.
    by_cases ho : other = address
    · rw [ho, Function.update_self, Option.some.injEq] at hobject
      obtain hk | hk := hk
      · rw [← hobject]
        exact hk
      · exact absurd (ho.trans hk) hne
    · rw [Function.update_of_ne ho] at hobject
      exact h other object hobject hne

theorem serversOnlyAt_getRPCClient {self : HostAndPort} {store : RPCStore}
    (h : store.ServersOnlyAt self) (address : HostAndPort) :
    (store.getRPCClient address).2.ServersOnlyAt self :=
  serversOnlyAt_getOrConstruct h (.inl rfl)

theorem serversOnlyAt_getRPCServer {self : HostAndPort} {store : RPCStore}
    (h : store.ServersOnlyAt self) : (store.getRPCServer self).2.ServersOnlyAt self :=
  serversOnlyAt_getOrConstruct h (.inr rfl)

theorem kind_getRPCClient {self address : HostAndPort} {store : RPCStore}
    (h : store.ServersOnlyAt self) (hne : address ≠ self) :
    (store.getRPCClient address).1.kind = .client := by
  unfold getRPCClient
  cases hs : store.rpcObjects address with
  | some object =>
    rw [getOrConstruct_of_some hs]
    exact h address object hs hne
  | none => rw [(getOrConstruct_of_none hs).1]

theorem call_getRPCClient {σ : Type} {self address : HostAndPort} {store : RPCStore}
    (h : store.ServersOnlyAt self) (hne : address ≠ self) (rpcCall : RPCCall σ) :
    RPCClient.call (store.getRPCClient address).1 rpcCall =
      .ok { rpcCall with calleeInfo := address } := by
  unfold RPCClient.call
  rw [kind_getRPCClient h hne]
  show Except.ok { rpcCall with calleeInfo := (store.getRPCClient address).1.hostAndPort } = _
  rw [getRPCClient, hostAndPort_getOrConstruct]

/-! ## Histories of calls -/

open Lib

/-- The store with the calls made on it so far and what they returned. -/
abbrev Ledger : Type := RPCStore × List (StoreCall × RPCObject)

def record (ledger : Ledger) (call : StoreCall) : Ledger :=
  ((call.perform ledger.1).2, ledger.2 ++ [(call, (call.perform ledger.1).1)])

/-- The calls of a history with their results. -/
def results (calls : List StoreCall) : List (StoreCall × RPCObject) :=
  (exec record (empty, []) calls).2

/-- Every object handed back was built as the kind asked for, for the address
    asked for, and equal calls get the same object. -/
structure HandsBackKind (results : List (StoreCall × RPCObject)) : Prop where
  kind : ∀ r ∈ results, r.2.kind = r.1.kind
  address : ∀ r ∈ results, r.2.hostAndPort = r.1.address
  same : ∀ r ∈ results, ∀ s ∈ results, r.1 = s.1 → r.2 = s.2

theorem perform_eq (store : RPCStore) (call : StoreCall) :
    call.perform store = store.getOrConstruct call.kind call.address := by
  cases call <;> rfl

/-- What is stored under an address stays there. -/
theorem rpcObjects_getOrConstruct_of_some {store : RPCStore} {address : HostAndPort}
    {object : RPCObject} (h : store.rpcObjects address = some object) (kind : RPCKind)
    (asked : HostAndPort) :
    (store.getOrConstruct kind asked).2.rpcObjects address = some object := by
  cases hs : store.rpcObjects asked with
  | some found => rw [getOrConstruct_of_some hs, h]
  | none =>
    have hne : address ≠ asked := by
      rintro rfl
      rw [hs] at h
      cases h
    rw [(getOrConstruct_of_none hs).2, Function.update_of_ne hne, h]

/-- A call leaves what it returns under its address. -/
theorem rpcObjects_getOrConstruct_self (store : RPCStore) (kind : RPCKind)
    (asked : HostAndPort) :
    (store.getOrConstruct kind asked).2.rpcObjects asked =
      some (store.getOrConstruct kind asked).1 := by
  cases hs : store.rpcObjects asked with
  | some found => rw [getOrConstruct_of_some hs, hs]
  | none => rw [(getOrConstruct_of_none hs).1, (getOrConstruct_of_none hs).2, Function.update_self]

/-- What is stored after a call was stored before, or is of the call's kind. -/
theorem rpcObjects_getOrConstruct_inv {store : RPCStore} {kind : RPCKind}
    {asked address : HostAndPort} {object : RPCObject}
    (h : (store.getOrConstruct kind asked).2.rpcObjects address = some object) :
    store.rpcObjects address = some object ∨ (address = asked ∧ object.kind = kind) := by
  cases hs : store.rpcObjects asked with
  | some found =>
    rw [getOrConstruct_of_some hs] at h
    exact .inl h
  | none =>
    rw [(getOrConstruct_of_none hs).2] at h
    by_cases ha : address = asked
    · rw [ha, Function.update_self, Option.some.injEq] at h
      exact .inr ⟨ha, h ▸ rfl⟩
    · rw [Function.update_of_ne ha] at h
      exact .inl h

/-- The results of a history are what is stored under their addresses, and what
    is stored is of a kind that its address was asked for in. -/
structure LedgerInv (ledger : Ledger) : Prop where
  stored : ∀ r ∈ ledger.2, ledger.1.rpcObjects r.1.address = some r.2
  asked : ∀ address object, ledger.1.rpcObjects address = some object →
    ∃ r ∈ ledger.2, r.1.address = address ∧ r.1.kind = object.kind

theorem ledgerInv_record {ledger : Ledger} (h : LedgerInv ledger) (call : StoreCall) :
    LedgerInv (record ledger call) := by
  obtain ⟨store, results⟩ := ledger
  unfold record
  rw [perform_eq]
  constructor
  · intro r hr
    obtain hr | hr := List.mem_append.mp hr
    · exact rpcObjects_getOrConstruct_of_some (h.stored r hr) _ _
    · obtain rfl := List.mem_singleton.mp hr
      exact rpcObjects_getOrConstruct_self store _ _
  · intro address object hobject
    obtain hobject | ⟨ha, hk⟩ := rpcObjects_getOrConstruct_inv hobject
    · obtain ⟨r, hr, hra, hrk⟩ := h.asked address object hobject
      exact ⟨r, List.mem_append_left _ hr, hra, hrk⟩
    · -- The call has just built the object.
      exact ⟨_, List.mem_append_right _ (List.mem_singleton_self _), ha.symm, hk.symm⟩

theorem ledgerInv_exec (calls : List StoreCall) : LedgerInv (exec record (empty, []) calls) := by
  have hinit : LedgerInv (empty, []) :=
    ⟨fun r hr => absurd hr List.not_mem_nil, fun address object h => by cases h⟩
  have hkeep : ∀ (ledger : Ledger) (call : StoreCall), LedgerInv ledger →
      LedgerInv (record ledger call) := fun _ call h => ledgerInv_record h call
  exact exec_invariant hkeep hinit calls

theorem map_fst_exec_record (ledger : Ledger) (calls : List StoreCall) :
    (exec record ledger calls).2.map Prod.fst = ledger.2.map Prod.fst ++ calls := by
  induction calls generalizing ledger with
  | nil => simp
  | cons call rest ih => simp [ih, record]

theorem mem_results_iff {calls : List StoreCall} {call : StoreCall} :
    (∃ object, (call, object) ∈ results calls) ↔ call ∈ calls := by
  have hcalls : (results calls).map Prod.fst = calls := map_fst_exec_record (empty, []) calls
  have hmem : call ∈ (results calls).map Prod.fst ↔ ∃ object, (call, object) ∈ results calls := by
    simp
  rw [← hmem, hcalls]

/-- A history gets the kinds it asks for exactly if it asks for no address in
    both kinds. -/
theorem handsBackKind_iff (calls : List StoreCall) :
    HandsBackKind (results calls) ↔
      ∀ address, ¬ (StoreCall.getRPCClient address ∈ calls ∧
        StoreCall.getRPCServer address ∈ calls) := by
  have hinv := ledgerInv_exec calls
  constructor
  · intro h address ⟨hclient, hserver⟩
    obtain ⟨client, hclient⟩ := mem_results_iff.mpr hclient
    obtain ⟨server, hserver⟩ := mem_results_iff.mpr hserver
    -- Both calls got the one object that is stored.
    have hsame : some client = some server :=
      (hinv.stored _ hclient).symm.trans (hinv.stored _ hserver)
    have hkind : client.kind = .client := h.kind _ hclient
    rw [Option.some.inj hsame, h.kind _ hserver] at hkind
    cases hkind
  · intro honce
    refine ⟨fun r hr => ?_, fun r hr => ?_, fun r hr s hs he => ?_⟩
    · obtain ⟨s, hs, hsa, hsk⟩ := hinv.asked _ _ (hinv.stored r hr)
      rw [← hsk]
      have hr := mem_results_iff.mp ⟨r.2, hr⟩
      have hs := mem_results_iff.mp ⟨s.2, hs⟩
      -- Another kind would be asked for at the same address.
      cases hrc : r.1 with
      | getRPCClient a =>
        cases hsc : s.1 with
        | getRPCClient b => rfl
        | getRPCServer b =>
          rw [hrc, hsc] at hsa
          obtain rfl : b = a := hsa
          exact absurd ⟨hrc ▸ hr, hsc ▸ hs⟩ (honce b)
      | getRPCServer a =>
        cases hsc : s.1 with
        | getRPCClient b =>
          rw [hrc, hsc] at hsa
          obtain rfl : b = a := hsa
          exact absurd ⟨hsc ▸ hs, hrc ▸ hr⟩ (honce b)
        | getRPCServer b => rfl
    · exact (exec record (empty, []) calls).1.keyed _ _ (hinv.stored r hr)
    · have hstored := hinv.stored s hs
      rw [← he, hinv.stored r hr] at hstored
      exact Option.some.inj hstored

/-- A node that asks for its own server and then, as its own leader, for its
    client: it is handed the server. -/
theorem results_server_then_client :
    ¬ HandsBackKind (results [.getRPCServer ⟨"h", 1⟩, .getRPCClient ⟨"h", 1⟩]) := by
  intro h
  have hkind := h.kind (.getRPCClient ⟨"h", 1⟩, ⟨.server, ⟨"h", 1⟩, 0⟩) (by decide)
  cases hkind

end Imq.RPCStore
