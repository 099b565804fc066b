import Imq.Verified.Table
import Imq.Verified.Response

/-! # The member table on the wire

The `GetNodesInCluster` handler turns the occupied slots of a table into the
members of a JSON object, in the order of the indices as text, and the loop of
`Bootstrap` writes them into another table.

* `Cluster.run_getNodesInCluster_register` — what the handler does to the table and replies;
* `Cluster.written` — what that loop writes into each slot, up to the first
  entry that does not decode;
* `Cluster.run_bootstrapReply` — the loop leaves `written` laid over the table;
* `nodes_round_trip` — with addresses that survive the way through text, this is
  the sender's table laid over the receiver's.
-/

namespace Imq

open Lib

namespace Cluster

/-! ## Encoding -/

/-- The key under which a slot is sent. -/
def keyOf (i : Fin MAX_NUM_NODES) : String := Cpp.toString i.val

theorem keyOf_injective {i j : Fin MAX_NUM_NODES} (h : keyOf i = keyOf j) : i = j :=
  Fin.ext (Cpp.toString_injective h)

/-- The member under which an entry is sent. -/
def memberOf (entry : Fin MAX_NUM_NODES × HostAndPort) : String × Json :=
  (keyOf entry.1, .string entry.2.toString)

/-- The entries of the table in the order of their keys. -/
def sentEntries (c : Cluster) : List (Fin MAX_NUM_NODES × HostAndPort) :=
  orderByKey (fun e => keyOf e.1) c.getNodesWithIdxInCluster

/-- The `"nodes"` value that the handler sends. -/
def nodesJson (c : Cluster) : Json := .ofMembers (c.sentEntries.map memberOf)

/-- The reply of the handler. -/
def replyOf (c : Cluster) : Json := .object [("nodes", c.nodesJson)]

theorem mem_getNodesWithIdxInCluster {c : Cluster} {e : Fin MAX_NUM_NODES × HostAndPort} :
    e ∈ c.getNodesWithIdxInCluster ↔ c.view e.1 = some e.2 := by
  obtain ⟨i, n⟩ := e
  simp only [getNodesWithIdxInCluster_eq, List.mem_filterMap, List.mem_finRange, true_and,
    Option.map_eq_some_iff, Prod.mk.injEq]
  constructor
  · intro ⟨j, m, hm, hj, hn⟩
    exact hj ▸ hn ▸ hm
  · intro h
    exact ⟨i, n, h, rfl, rfl⟩

theorem nodup_keys_getNodesWithIdxInCluster (c : Cluster) :
    (c.getNodesWithIdxInCluster.map fun e => keyOf e.1).Nodup := by
  have hnd : (c.getNodesWithIdxInCluster.map Prod.fst).Nodup := by
    rw [getNodesWithIdxInCluster_eq, List.map_filterMap]
    refine (List.nodup_finRange _).filterMap fun i j k hi hj => ?_
    simp only [Option.map_map, Option.mem_def, Option.map_eq_some_iff] at hi hj
    obtain ⟨_, _, rfl⟩ := hi
    obtain ⟨_, _, hk⟩ := hj
    exact hk.symm
  have hmap : (c.getNodesWithIdxInCluster.map fun e => keyOf e.1) =
      (c.getNodesWithIdxInCluster.map Prod.fst).map keyOf := by
    rw [List.map_map]
    rfl
  rw [hmap]
  exact hnd.map fun _ _ => keyOf_injective

theorem mem_sentEntries {c : Cluster} {e : Fin MAX_NUM_NODES × HostAndPort} :
    e ∈ c.sentEntries ↔ c.view e.1 = some e.2 :=
  (mem_orderByKey c.nodup_keys_getNodesWithIdxInCluster).trans mem_getNodesWithIdxInCluster

theorem ordered_sentEntries (c : Cluster) : OrderedByKey (fun e => keyOf e.1) c.sentEntries :=
  orderedByKey_orderByKey _ _

theorem foldlM_set_ofMembers (entries : List (Fin MAX_NUM_NODES × HostAndPort))
    (members : List (String × Json)) :
    entries.foldlM (fun nodesPart (idx, node) =>
        nodesPart.set (Cpp.toString idx.val) (.string node.toString)) (Json.ofMembers members) =
      (.ok (Json.ofMembers (entries.foldl (fun ms e => insertByKey Prod.fst (memberOf e) ms) members)) :
        Except Exn Json) := by
  induction entries generalizing members with
  | nil => rfl
  | cons e rest ih =>
    obtain ⟨i, n⟩ := e
    rw [List.foldlM_cons]
    simp only [Json.set_ofMembers, bind, Except.bind]
    exact ih _

theorem encodeNodes_eq (c : Cluster) :
    IMQNode.encodeNodes c.getNodesWithIdxInCluster = .ok c.nodesJson := by
  have hkey : ∀ e, (memberOf e).fst = keyOf e.1 := fun _ => rfl
  have hmap : c.sentEntries.map memberOf = c.getNodesWithIdxInCluster.foldl
      (fun ms e => insertByKey Prod.fst (memberOf e) ms) [] :=
    map_foldl_insertByKey hkey c.getNodesWithIdxInCluster []
  have hloop := foldlM_set_ofMembers c.getNodesWithIdxInCluster []
  rw [← hmap] at hloop
  exact hloop

end Cluster

namespace IMQNode

open Cluster

/-- The handler once the registration is done. -/
theorem run_getNodesInCluster_reply (c : Cluster) :
    (do
      let cluster ← get
      let ret ← Cpp.ofExcept (Json.null.set "nodes" .null)
      let nodesPart ← Cpp.ofExcept (encodeNodes cluster.getNodesWithIdxInCluster)
      Cpp.ofExcept (ret.set "nodes" nodesPart) : EStateM Exn Cluster Json).run c =
      .ok c.replyOf c := by
  have hret : Json.null.set "nodes" .null = .ok (.object [("nodes", .null)]) := rfl
  have hset : (Json.object [("nodes", .null)]).set "nodes" c.nodesJson = .ok c.replyOf := by
    simp [Json.set, Json.updateAt, Json.insertMember, insertByKey, Except.map, replyOf]
  simp only [EStateM.run_bind, EStateM.run_get, hret, Cpp.run_ofExcept_ok, encodeNodes_eq, hset]

/-- Without the flag to register, the handler only reads. -/
theorem run_getNodesInCluster_of_read {args : Json}
    (h : (args.constAt "register_node").bind Json.getBool = .ok false) (c : Cluster) :
    (getNodesInCluster args).run c = .ok c.replyOf c := by
  unfold getNodesInCluster
  rw [h, Cpp.run_bind_ok (Cpp.run_ofExcept_ok false c)]
  exact run_getNodesInCluster_reply c

theorem run_getNodesInCluster_read {args : Json}
    (h : args.constAt "register_node" = .ok (.boolean false)) (c : Cluster) :
    (getNodesInCluster args).run c = .ok c.replyOf c := by
  apply run_getNodesInCluster_of_read
  rw [h]
  rfl

/-- The node that a request registers, if it gets that far. -/
def registration (args : Json) : Option HostAndPort :=
  match (args.constAt "register_node").bind Json.getBool,
    (args.constAt "host").bind Json.getString, (args.constAt "port").bind Json.getUnsigned with
  | .ok true, .ok host, .ok port => some { host := host, port := port }
  | _, _, _ => none

/-- A registration request registers the requester and is answered with the
    table that results. -/
theorem run_getNodesInCluster_of_registration {args : Json} {requester : HostAndPort}
    (h : registration args = some requester) (c : Cluster) :
    (getNodesInCluster args).run c = .ok (c.register requester).replyOf (c.register requester) := by
  unfold registration at h
  split at h
  next host port hflag hhost hport =>
    cases h
    unfold getNodesInCluster
    rw [hflag, hhost, hport, Cpp.run_bind_ok (Cpp.run_ofExcept_ok true c), if_pos rfl,
      Cpp.run_bind_ok (Cpp.run_ofExcept_ok _ c), Cpp.run_bind_ok (Cpp.run_ofExcept_ok _ c),
      Cpp.run_bind_ok (EStateM.run_get ..)]
    by_cases hn : c.nodeInCluster ⟨host, port⟩ = true
    · have hreg : c.register ⟨host, port⟩ = c := if_pos hn
      rw [if_neg (by simp [hn]), hreg]
      exact run_getNodesInCluster_reply c
    · have hreg : c.register ⟨host, port⟩ = c.addNode ⟨host, port⟩ := if_neg hn
      rw [if_pos (by simp [hn]), Cpp.run_bind_ok (EStateM.run_set ..), hreg]
      exact run_getNodesInCluster_reply _
  next => cases h

theorem registration_registerArgs (requester : HostAndPort) :
    registration (registerArgs requester) = some requester := by
  have hport : ((registerArgs requester).constAt "port").bind Json.getUnsigned =
      .ok requester.port := congrArg Except.ok (HostAndPort.ofInt_toNat requester.port)
  unfold registration
  rw [hport]
  rfl

theorem run_getNodesInCluster_register (requester : HostAndPort) (c : Cluster) :
    (getNodesInCluster (registerArgs requester)).run c =
      .ok (c.register requester).replyOf (c.register requester) :=
  run_getNodesInCluster_of_registration (registration_registerArgs requester) c

/-- Any other request throws, before it has changed anything. -/
theorem run_getNodesInCluster_throws {args : Json} (h : registration args = none)
    (reads : (args.constAt "register_node").bind Json.getBool ≠ .ok false) :
    ∃ e, ∀ c, (getNodesInCluster args).run c = .error e c := by
  unfold getNodesInCluster
  cases hflag : (args.constAt "register_node").bind Json.getBool with
  | error e => exact ⟨e, fun c => Cpp.run_bind_error (Cpp.run_ofExcept_error e c) _⟩
  | ok register =>
    cases register with
    | false => exact absurd hflag reads
    | true =>
      cases hhost : (args.constAt "host").bind Json.getString with
      | error e =>
        refine ⟨e, fun c => ?_⟩
        rw [Cpp.run_bind_ok (Cpp.run_ofExcept_ok true c)]
        exact Cpp.run_bind_error (Cpp.run_ofExcept_error e c) _
      | ok host =>
        cases hport : (args.constAt "port").bind Json.getUnsigned with
        | error e =>
          refine ⟨e, fun c => ?_⟩
          rw [Cpp.run_bind_ok (Cpp.run_ofExcept_ok true c), if_pos rfl,
            Cpp.run_bind_ok (Cpp.run_ofExcept_ok host c)]
          exact Cpp.run_bind_error (Cpp.run_ofExcept_error e c) _
        | ok port => simp [registration, hflag, hhost, hport] at h

/-- A request that registers nobody leaves the table alone, whether it is answered
    or throws. -/
theorem stateOf_getNodesInCluster_of_none {args : Json} (h : registration args = none)
    (c : Cluster) : Cpp.stateOf ((getNodesInCluster args).run c) = c := by
  by_cases reads : (args.constAt "register_node").bind Json.getBool = .ok false
  · rw [run_getNodesInCluster_of_read reads]
    rfl
  · obtain ⟨e, hrun⟩ := run_getNodesInCluster_throws h reads
    rw [hrun]
    rfl

/-- The table after a request. -/
def afterRequest (args : Json) (c : Cluster) : Cluster :=
  match registration args with
  | some requester => c.register requester
  | none => c

theorem afterRequest_registerArgs (requester : HostAndPort) (c : Cluster) :
    afterRequest (registerArgs requester) c = c.register requester := by
  rw [afterRequest, registration_registerArgs]

theorem noDuplicate_afterRequest {c : Cluster} (h : c.NoDuplicate) (args : Json) :
    (afterRequest args c).NoDuplicate := by
  unfold afterRequest
  cases registration args with
  | none => exact h
  | some requester => exact noDuplicate_register h requester

theorem mem_getNodesInCluster_afterRequest {c : Cluster} {m : HostAndPort}
    (h : m ∈ c.getNodesInCluster) (args : Json) : m ∈ (afterRequest args c).getNodesInCluster := by
  unfold afterRequest
  cases registration args with
  | none => exact h
  | some requester => exact mem_getNodesInCluster_register h requester

theorem stateOf_getNodesInCluster (args : Json) (c : Cluster) :
    Cpp.stateOf ((getNodesInCluster args).run c) = afterRequest args c := by
  unfold afterRequest
  cases h : registration args with
  | none => exact stateOf_getNodesInCluster_of_none h c
  | some requester => rw [run_getNodesInCluster_of_registration h]; rfl

end IMQNode

namespace Cluster

/-! ## Decoding -/

/-- The text of the address can be read back. -/
def decodes (n : HostAndPort) : Bool := (HostAndPort.fromString n.toString).toBool

/-- What the loop of `Bootstrap` writes into a slot when this table is received:
    the entry as it is read back, unless an entry of a smaller key, which comes
    first, cannot be read. -/
def written (c : Cluster) (i : Fin MAX_NUM_NODES) : Option HostAndPort :=
  if ∀ j, keyOf j < keyOf i → (c.view j).all decodes then
    (c.view i).bind fun n => (HostAndPort.fromString n.toString).toOption
  else none

/-- The table with some of its slots written. -/
def overwrite (c : Cluster) (content : Fin MAX_NUM_NODES → Option HostAndPort) : Cluster :=
  ⟨Vector.ofFn fun i => (content i).getD (c.node i)⟩

@[simp] theorem node_overwrite (c : Cluster) (content : Fin MAX_NUM_NODES → Option HostAndPort)
    (i : Fin MAX_NUM_NODES) : (c.overwrite content).node i = (content i).getD (c.node i) := by
  simp [overwrite, node]

/-- The overlay of the listed nodes that writing slots makes. -/
def listing (content : Fin MAX_NUM_NODES → Option HostAndPort) :
    Slots.Patch MAX_NUM_NODES HostAndPort := fun i => (content i).map listed

theorem listing_eq_none_iff {content : Fin MAX_NUM_NODES → Option HostAndPort}
    {i : Fin MAX_NUM_NODES} : listing content i = none ↔ content i = none :=
  Option.map_eq_none_iff

theorem listing_eq_some_some_iff {content : Fin MAX_NUM_NODES → Option HostAndPort}
    {i : Fin MAX_NUM_NODES} {n : HostAndPort} (hn : n.host ≠ "") :
    listing content i = some (some n) ↔ content i = some n := by
  unfold listing
  rw [Option.map_eq_some_iff]
  constructor
  · intro ⟨m, hm, hlisted⟩
    rw [hm, (listed_eq_some_iff.mp hlisted).1]
  · intro h
    exact ⟨n, h, listed_of_host hn⟩

theorem view_overwrite (c : Cluster) (content : Fin MAX_NUM_NODES → Option HostAndPort) :
    (c.overwrite content).view = c.view.patch (listing content) := by
  funext i
  rw [view_apply, node_overwrite]
  cases h : content i <;> simp [Slots.patch, listing, h, view_apply]

theorem clean_overwrite {c : Cluster} {content : Fin MAX_NUM_NODES → Option HostAndPort}
    (hc : c.Clean) (h : ∀ i n, content i = some n → n.host ≠ "") : (c.overwrite content).Clean := by
  intro i hi
  rw [node_overwrite] at hi ⊢
  cases hn : content i with
  | none =>
    rw [hn] at hi
    exact hc i hi
  | some n =>
    rw [hn] at hi
    exact absurd hi (h i n hn)

/-- The writes that a list of received entries leads to, and the exception that
    ends them. -/
def decodeEntries :
    List (Fin MAX_NUM_NODES × HostAndPort) → List (Fin MAX_NUM_NODES × HostAndPort) × Option Exn
  | [] => ([], none)
  | (i, n) :: rest =>
    match HostAndPort.fromString n.toString with
    | .ok m => ((i, m) :: (decodeEntries rest).1, (decodeEntries rest).2)
    | .error e => ([], some e)

theorem decodeEntries_cons (i : Fin MAX_NUM_NODES) (n : HostAndPort)
    (rest : List (Fin MAX_NUM_NODES × HostAndPort)) :
    decodeEntries ((i, n) :: rest) =
      match HostAndPort.fromString n.toString with
      | .ok m => ((i, m) :: (decodeEntries rest).1, (decodeEntries rest).2)
      | .error e => ([], some e) := by
  rfl

theorem decodeEntries_of_ok {i : Fin MAX_NUM_NODES} {n m : HostAndPort}
    (h : HostAndPort.fromString n.toString = .ok m) (rest : List (Fin MAX_NUM_NODES × HostAndPort)) :
    decodeEntries ((i, n) :: rest) = ((i, m) :: (decodeEntries rest).1, (decodeEntries rest).2) := by
  rw [decodeEntries_cons, h]

theorem decodeEntries_of_error {i : Fin MAX_NUM_NODES} {n : HostAndPort} {e : Exn}
    (h : HostAndPort.fromString n.toString = .error e)
    (rest : List (Fin MAX_NUM_NODES × HostAndPort)) :
    decodeEntries ((i, n) :: rest) = ([], some e) := by
  rw [decodeEntries_cons, h]

def writeNodes (c : Cluster) (writes : List (Fin MAX_NUM_NODES × HostAndPort)) : Cluster :=
  writes.foldl (fun c w => c.setNode w.1 w.2) c

theorem toNat_ofInt_index (i : Fin MAX_NUM_NODES) : (UInt32.ofInt (i.val : Int)).toNat = i.val := by
  have hlt : i.val < 30 := i.isLt
  simp only [UInt32.ofInt, UInt32.toNat_ofNat']
  omega

theorem writeNodes_append (c : Cluster) (first second : List (Fin MAX_NUM_NODES × HostAndPort)) :
    c.writeNodes (first ++ second) = (c.writeNodes first).writeNodes second :=
  List.foldl_append ..

/-- How a computation that may have thrown ends in a given state. -/
def endedBy (e : Option Exn) (c : Cluster) : EStateM.Result Exn Cluster Unit :=
  match e with
  | none => .ok () c
  | some e => .error e c

/-- The values before the first error, and that error. -/
def upToError {ε α : Type} : List (Except ε α) → List α × Option ε
  | [] => ([], none)
  | .ok a :: rest => (a :: (upToError rest).1, (upToError rest).2)
  | .error e :: _ => ([], some e)

@[simp] theorem upToError_cons_ok {ε α : Type} (a : α) (rest : List (Except ε α)) :
    upToError (.ok a :: rest) = (a :: (upToError rest).1, (upToError rest).2) := rfl

@[simp] theorem upToError_cons_error {ε α : Type} (e : ε) (rest : List (Except ε α)) :
    upToError (.error e :: rest) = ([], some e) := rfl

theorem upToError_append_error {ε α : Type} (as : List α) (e : ε) (rest : List (Except ε α)) :
    upToError (as.map .ok ++ .error e :: rest) = (as, some e) := by
  induction as with
  | nil => rfl
  | cons a as ih => rw [List.map_cons, List.cons_append, upToError_cons_ok, ih]

theorem upToError_append_of_none {ε α : Type} {first : List (Except ε α)}
    (h : (upToError first).2 = none) (second : List (Except ε α)) :
    upToError (first ++ second) =
      ((upToError first).1 ++ (upToError second).1, (upToError second).2) := by
  induction first with
  | nil => rfl
  | cons r rest ih =>
    cases r with
    | error e => cases h
    | ok a => rw [List.cons_append, upToError_cons_ok, ih h, upToError_cons_ok, List.cons_append]

/-- What stands behind an error does not count. -/
theorem upToError_append_of_some {ε α : Type} {first : List (Except ε α)} {e : ε}
    (h : (upToError first).2 = some e) (second : List (Except ε α)) :
    upToError (first ++ second) = upToError first := by
  induction first with
  | nil => cases h
  | cons r rest ih =>
    cases r with
    | error e => rfl
    | ok a => rw [List.cons_append, upToError_cons_ok, ih h, upToError_cons_ok]

/-- The write that one address received under a key of this number leads to. -/
def readAddress (idx : UInt32) (address : Json) : Except Exn (Fin MAX_NUM_NODES × HostAndPort) := do
  let node ← HostAndPort.fromString (← address.getString)
  if h : idx.toNat < MAX_NUM_NODES then .ok (⟨idx.toNat, h⟩, node)
  else .error (.undefined "nodes_[idx] outside the vector")

/-- The writes that one entry of the received `"nodes"` leads to. -/
def readMember (member : Except Exn String × Json) :
    List (Except Exn (Fin MAX_NUM_NODES × HostAndPort)) :=
  match member.1.bind Cpp.stoi with
  | .ok idx => member.2.elements.map (readAddress (UInt32.ofInt idx))
  | .error e => [.error e]

@[simp] theorem stateOf_endedBy (e : Option Exn) (c : Cluster) : Cpp.stateOf (endedBy e c) = c := by
  cases e <;> rfl

theorem run_addAddresses (idx : UInt32) (addresses : List Json) (c : Cluster) :
    (addAddresses idx addresses).run c =
      endedBy (upToError (addresses.map (readAddress idx))).2
        (c.writeNodes (upToError (addresses.map (readAddress idx))).1) := by
  induction addresses generalizing c with
  | nil => rfl
  | cons address rest ih =>
    rw [List.map_cons, addAddresses]
    cases hstr : address.getString with
    | error e =>
      have hread : readAddress idx address = .error e := by
        rw [readAddress, hstr]
        rfl
      rw [hread, Cpp.run_bind_error (Cpp.run_ofExcept_error e c)]
      rfl
    | ok str =>
      rw [Cpp.run_bind_ok (Cpp.run_ofExcept_ok str c)]
      cases hnode : HostAndPort.fromString str with
      | error e =>
        have hread : readAddress idx address = .error e := by
          rw [readAddress, hstr, Cpp.ok_bind, hnode]
          rfl
        rw [hread, Cpp.run_bind_error (Cpp.run_ofExcept_error e c)]
        rfl
      | ok node =>
        rw [Cpp.run_bind_ok (Cpp.run_ofExcept_ok node c), Cpp.run_bind_ok (EStateM.run_get ..)]
        by_cases hidx : idx.toNat < MAX_NUM_NODES
        · have hread : readAddress idx address = .ok (⟨idx.toNat, hidx⟩, node) := by
            rw [readAddress, hstr, Cpp.ok_bind, hnode, Cpp.ok_bind, dif_pos hidx]
          have hadd : c.addNodeAt idx node = .ok (c.setNode ⟨idx.toNat, hidx⟩ node) := dif_pos hidx
          rw [hread, hadd, Cpp.run_bind_ok (Cpp.run_ofExcept_ok _ c),
            Cpp.run_bind_ok (EStateM.run_set ..), ih, upToError_cons_ok]
          rfl
        · have hread : readAddress idx address =
              .error (.undefined "nodes_[idx] outside the vector") := by
            rw [readAddress, hstr, Cpp.ok_bind, hnode, Cpp.ok_bind, dif_neg hidx]
          have hadd : c.addNodeAt idx node =
              .error (.undefined "nodes_[idx] outside the vector") := dif_neg hidx
          rw [hread, hadd, Cpp.run_bind_error (Cpp.run_ofExcept_error _ c)]
          rfl

/-- Whatever is received, the loop writes the entries before the first one that
    does not decode, in their order. -/
theorem run_addMembers_any (members : List (Except Exn String × Json)) (c : Cluster) :
    (addMembers members).run c =
      endedBy (upToError (members.flatMap readMember)).2
        (c.writeNodes (upToError (members.flatMap readMember)).1) := by
  induction members generalizing c with
  | nil => rfl
  | cons member rest ih =>
    obtain ⟨key, value⟩ := member
    rw [addMembers, List.flatMap_cons]
    cases hkey : key.bind Cpp.stoi with
    | error e =>
      have hread : readMember (key, value) = [.error e] := by
        simp only [readMember, hkey]
      rw [hread, Cpp.run_bind_error (Cpp.run_ofExcept_error e c)]
      rfl
    | ok idx =>
      have hread : readMember (key, value) = value.elements.map (readAddress (UInt32.ofInt idx)) := by
        simp only [readMember, hkey]
      have hinner := run_addAddresses (UInt32.ofInt idx) value.elements c
      rw [hread, Cpp.run_bind_ok (Cpp.run_ofExcept_ok idx c)]
      cases hend : (upToError (value.elements.map (readAddress (UInt32.ofInt idx)))).2 with
      | some e =>
        rw [hend] at hinner
        rw [Cpp.run_bind_error hinner, upToError_append_of_some hend, hend]
        rfl
      | none =>
        rw [hend] at hinner
        rw [Cpp.run_bind_ok hinner, upToError_append_of_none hend, ih, writeNodes_append]

/-- An entry that the handler sends is read as one write into its slot. -/
theorem readMember_memberOf (i : Fin MAX_NUM_NODES) (n : HostAndPort) :
    readMember (.ok (memberOf (i, n)).1, (memberOf (i, n)).2) =
      [(HostAndPort.fromString n.toString).map (i, ·)] := by
  have hkey : (Except.ok (memberOf (i, n)).1 : Except Exn String).bind Cpp.stoi =
      .ok (i.val : Int) := by
    have hlt : i.val < 30 := i.isLt
    have hfit : i.val ≤ 2147483647 := by omega
    simp only [Except.bind, memberOf]
    exact Cpp.stoi_toString hfit
  -- Iterating over a JSON string visits that one string.
  have helements : (memberOf (i, n)).2.elements = [.string n.toString] := rfl
  have hidx : (UInt32.ofInt (i.val : Int)).toNat < MAX_NUM_NODES := by
    rw [toNat_ofInt_index]
    exact i.isLt
  have hslot : (⟨(UInt32.ofInt (i.val : Int)).toNat, hidx⟩ : Fin MAX_NUM_NODES) = i :=
    Fin.ext (toNat_ofInt_index i)
  have hread : readAddress (UInt32.ofInt (i.val : Int)) (.string n.toString) =
      (HostAndPort.fromString n.toString).map (i, ·) := by
    unfold readAddress
    show (HostAndPort.fromString n.toString >>= _) = _
    cases HostAndPort.fromString n.toString with
    | error e => rfl
    | ok m => rw [Cpp.ok_bind, dif_pos hidx, hslot]; rfl
  rw [readMember, hkey]
  show (memberOf (i, n)).2.elements.map (readAddress _) = _
  rw [helements, List.map_singleton, hread]

theorem upToError_sent (entries : List (Fin MAX_NUM_NODES × HostAndPort)) :
    upToError ((entries.map fun e => (.ok (memberOf e).1, (memberOf e).2)).flatMap readMember) =
      decodeEntries entries := by
  induction entries with
  | nil => rfl
  | cons e rest ih =>
    obtain ⟨i, n⟩ := e
    rw [List.map_cons, List.flatMap_cons, readMember_memberOf]
    cases hread : HostAndPort.fromString n.toString with
    | error e => rw [decodeEntries_of_error hread]; rfl
    | ok m =>
      rw [decodeEntries_of_ok hread, ← ih]
      rfl

theorem run_addMembers (entries : List (Fin MAX_NUM_NODES × HostAndPort)) (c : Cluster) :
    (addMembers (entries.map fun e => (.ok (memberOf e).1, (memberOf e).2))).run c =
      endedBy (decodeEntries entries).2 (c.writeNodes (decodeEntries entries).1) := by
  rw [run_addMembers_any, upToError_sent]

/-- The writes of an ordered list of entries: an entry is written when it and
    all entries of smaller keys can be read. -/
theorem mem_decodeEntries {entries : List (Fin MAX_NUM_NODES × HostAndPort)}
    (hord : OrderedByKey (fun e => keyOf e.1) entries) {i : Fin MAX_NUM_NODES} {m : HostAndPort} :
    (i, m) ∈ (decodeEntries entries).1 ↔
      ∃ n, (i, n) ∈ entries ∧ HostAndPort.fromString n.toString = .ok m ∧
        ∀ e ∈ entries, keyOf e.1 < keyOf i → decodes e.2 = true := by
  induction entries with
  | nil =>
    have hnil : (decodeEntries []).1 = [] := rfl
    simp [hnil]
  | cons e rest ih =>
    obtain ⟨k, n₀⟩ := e
    obtain ⟨hk, hrest⟩ := List.pairwise_cons.mp hord
    cases hread : HostAndPort.fromString n₀.toString with
    | error err =>
      rw [decodeEntries_of_error hread]
      refine ⟨fun h => (by cases h), fun ⟨n, hmem, hn, hsmall⟩ => ?_⟩
      obtain h | h := List.mem_cons.mp hmem
      · -- The entry itself cannot be read.
        cases h
        rw [hread] at hn
        cases hn
      · -- An entry of a smaller key cannot be read.
        have hdec := hsmall (k, n₀) List.mem_cons_self (hk (i, n) h)
        simp only [decodes, hread] at hdec
        cases hdec
    | ok m₀ =>
      rw [decodeEntries_of_ok hread, List.mem_cons, ih hrest]
      constructor
      · intro h
        obtain h | ⟨n, hmem, hn, hsmall⟩ := h
        · -- No key is smaller than the first one.
          cases h
          refine ⟨n₀, List.mem_cons_self, hread, fun e he hlt => ?_⟩
          obtain rfl | he := List.mem_cons.mp he
          · exact absurd hlt (lt_irrefl _)
          · exact absurd (lt_trans hlt (hk e he)) (lt_irrefl _)
        · refine ⟨n, List.mem_cons_of_mem _ hmem, hn, fun e he hlt => ?_⟩
          obtain rfl | he := List.mem_cons.mp he
          · simp only [decodes, hread]
            rfl
          · exact hsmall e he hlt
      · intro ⟨n, hmem, hn, hsmall⟩
        obtain h | h := List.mem_cons.mp hmem
        · cases h
          rw [hread] at hn
          cases hn
          exact .inl rfl
        · exact .inr ⟨n, h, hn, fun e he hlt => hsmall e (List.mem_cons_of_mem _ he) hlt⟩

theorem toOption_eq_some_iff {r : Except Exn HostAndPort} {m : HostAndPort} :
    r.toOption = some m ↔ r = .ok m := by
  cases r <;> simp [Except.toOption]

theorem mem_decodeEntries_sentEntries {c : Cluster} {i : Fin MAX_NUM_NODES} {m : HostAndPort} :
    (i, m) ∈ (decodeEntries c.sentEntries).1 ↔ c.written i = some m := by
  rw [mem_decodeEntries c.ordered_sentEntries]
  -- The entries of smaller keys are the occupied slots of smaller keys.
  have hsmall : (∀ e ∈ c.sentEntries, keyOf e.1 < keyOf i → decodes e.2 = true) ↔
      ∀ j, keyOf j < keyOf i → (c.view j).all decodes = true := by
    constructor
    · intro h j hj
      cases hv : c.view j with
      | none => rfl
      | some n => exact h (j, n) (mem_sentEntries.mpr hv) hj
    · intro h e he hlt
      have hall := h e.1 hlt
      rw [mem_sentEntries.mp he] at hall
      exact hall
  rw [hsmall]
  unfold written
  by_cases hall : ∀ j, keyOf j < keyOf i → (c.view j).all decodes = true
  · rw [if_pos hall, Option.bind_eq_some_iff]
    refine exists_congr fun n => ?_
    rw [mem_sentEntries, toOption_eq_some_iff]
    exact ⟨fun h => ⟨h.1, h.2.1⟩, fun h => ⟨h.1, h.2, hall⟩⟩
  · rw [if_neg hall]
    exact ⟨fun ⟨_, _, _, h⟩ => absurd h hall, fun h => (by cases h)⟩

theorem nodup_decodeEntries {entries : List (Fin MAX_NUM_NODES × HostAndPort)}
    (h : (entries.map Prod.fst).Nodup) : ((decodeEntries entries).1.map Prod.fst).Nodup := by
  -- The writes are those of a front of the list.
  have hsub : ∀ es : List (Fin MAX_NUM_NODES × HostAndPort),
      ((decodeEntries es).1.map Prod.fst).Sublist (es.map Prod.fst) := by
    intro es
    induction es with
    | nil => exact List.Sublist.refl _
    | cons e rest ih =>
      obtain ⟨i, n⟩ := e
      cases hread : HostAndPort.fromString n.toString with
      | error err => rw [decodeEntries_of_error hread]; exact List.nil_sublist _
      | ok m => rw [decodeEntries_of_ok hread]; exact ih.cons_cons _
  exact h.sublist (hsub entries)

theorem nodup_sentEntries (c : Cluster) : (c.sentEntries.map Prod.fst).Nodup := by
  refine List.Pairwise.map _ (fun e f h => ?_) c.ordered_sentEntries
  intro he
  have hlt : keyOf e.1 < keyOf f.1 := h
  rw [he] at hlt
  exact lt_irrefl _ hlt

theorem node_writeNodes_of_notMem {writes : List (Fin MAX_NUM_NODES × HostAndPort)}
    {i : Fin MAX_NUM_NODES} (h : i ∉ writes.map Prod.fst) (c : Cluster) :
    (c.writeNodes writes).node i = c.node i := by
  induction writes generalizing c with
  | nil => rfl
  | cons w rest ih =>
    simp only [List.map_cons, List.mem_cons, not_or] at h
    exact (ih h.2 _).trans (node_setNode_of_ne c h.1 w.2)

theorem node_writeNodes_of_mem {writes : List (Fin MAX_NUM_NODES × HostAndPort)}
    (hnd : (writes.map Prod.fst).Nodup) {i : Fin MAX_NUM_NODES} {m : HostAndPort}
    (h : (i, m) ∈ writes) (c : Cluster) : (c.writeNodes writes).node i = m := by
  induction writes generalizing c with
  | nil => cases h
  | cons w rest ih =>
    rw [List.map_cons, List.nodup_cons] at hnd
    obtain rfl | h := List.mem_cons.mp h
    · exact (node_writeNodes_of_notMem hnd.1 _).trans (node_setNode_self c i m)
    · exact ih hnd.2 h _

theorem writeNodes_sentEntries (c t : Cluster) :
    c.writeNodes (decodeEntries t.sentEntries).1 = c.overwrite t.written := by
  have hnd := nodup_decodeEntries t.nodup_sentEntries
  refine ext_node fun i => ?_
  rw [node_overwrite]
  cases hw : t.written i with
  | some m => exact node_writeNodes_of_mem hnd (mem_decodeEntries_sentEntries.mpr hw) c
  | none =>
    refine node_writeNodes_of_notMem (fun hmem => ?_) c
    obtain ⟨⟨j, m⟩, hj, rfl⟩ := List.mem_map.mp hmem
    rw [mem_decodeEntries_sentEntries.mp hj] at hw
    cases hw

theorem items_nodesJson (t : Cluster) :
    t.nodesJson.items = t.sentEntries.map fun e => (.ok (memberOf e).1, (memberOf e).2) := by
  rw [nodesJson, Json.items_ofMembers, List.map_map]
  rfl

/-- Received from the handler of a node with table `t`, the reply makes the loop
    lay `t.written` over the table, whether or not it throws in the end. -/
theorem run_addMembers_nodesJson (c t : Cluster) :
    (addMembers t.nodesJson.items).run c =
      endedBy (decodeEntries t.sentEntries).2 (c.overwrite t.written) := by
  rw [items_nodesJson, run_addMembers, writeNodes_sentEntries]

theorem run_bootstrapReply {response : Json} {t : Cluster}
    (h : response.constAt "nodes" = .ok t.nodesJson) (c : Cluster) :
    (bootstrapReply response).run c =
      endedBy (decodeEntries t.sentEntries).2 (c.overwrite t.written) := by
  unfold bootstrapReply
  rw [Json.elementAt_of_constAt h, Cpp.run_bind_ok (Cpp.run_ofExcept_ok _ c)]
  exact run_addMembers_nodesJson c t

theorem addResponseMetadata_replyOf {σ : Type} (rpcCall : RPCCall σ) (t : Cluster) :
    ∃ response, RPCResponse.addResponseMetadata rpcCall t.replyOf = .ok response ∧
      response.constAt "nodes" = .ok t.nodesJson := by
  have hnone : [("nodes", t.nodesJson)].lookup "callee_info" = none := by
    simp
  refine ⟨_, RPCResponse.addResponseMetadata_object rpcCall hnone, ?_⟩
  rw [Json.constAt_object, Json.lookup_insertMember_of_ne (by decide)]
  simp

/-! ## Tables of sendable addresses -/

/-- Every listed address survives the way through text. -/
def Sendable (c : Cluster) : Prop := ∀ i, (c.node i).host ≠ "" → (c.node i).Sendable

theorem sendable_iff_forall {c : Cluster} :
    c.Sendable ↔ c.Forall fun n => n.host ≠ "" → n.Sendable := Iff.rfl

instance (c : Cluster) : Decidable c.Sendable :=
  inferInstanceAs (Decidable (∀ i, (c.node i).host ≠ "" → (c.node i).Sendable))

theorem sendable_of_view {c : Cluster} (h : c.Sendable) {i : Fin MAX_NUM_NODES} {n : HostAndPort}
    (hi : c.view i = some n) : n.Sendable := by
  obtain ⟨rfl, hn⟩ := listed_eq_some_iff.mp hi
  exact h i hn

theorem sendable_register {c : Cluster} (hc : c.Sendable) {n : HostAndPort} (hn : n.Sendable) :
    (c.register n).Sendable :=
  sendable_iff_forall.mpr ((sendable_iff_forall.mp hc).register fun _ => hn)

theorem written_of_sendable {c : Cluster} (h : c.Sendable) : c.written = c.view := by
  funext i
  have hdecodes : ∀ j, (c.view j).all decodes = true := by
    intro j
    cases hv : c.view j with
    | none => rfl
    | some n =>
      show decodes n = true
      simp only [decodes, HostAndPort.fromString_toString (sendable_of_view h hv)]
      rfl
  unfold written
  rw [if_pos fun j _ => hdecodes j]
  cases hv : c.view i with
  | none => rfl
  | some n =>
    rw [Option.bind_some, HostAndPort.fromString_toString (sendable_of_view h hv)]
    rfl

theorem decodeEntries_of_sendable {entries : List (Fin MAX_NUM_NODES × HostAndPort)}
    (h : ∀ e ∈ entries, e.2.Sendable) : decodeEntries entries = (entries, none) := by
  induction entries with
  | nil => rfl
  | cons e rest ih =>
    have hread := HostAndPort.fromString_toString (h e List.mem_cons_self)
    rw [decodeEntries_of_ok hread, ih fun f hf => h f (List.mem_cons_of_mem _ hf)]

/-- Received from a node whose addresses survive, the table is laid over the
    own one and nothing is thrown. -/
theorem run_bootstrapReply_of_sendable {response : Json} {t : Cluster} (ht : t.Sendable)
    (h : response.constAt "nodes" = .ok t.nodesJson) (c : Cluster) :
    (bootstrapReply response).run c = .ok () (c.overwrite t.view) := by
  have hentries : ∀ e ∈ t.sentEntries, e.2.Sendable :=
    fun e he => sendable_of_view ht (mem_sentEntries.mp he)
  rw [run_bootstrapReply h, decodeEntries_of_sendable hentries, written_of_sendable ht]
  rfl

theorem listing_view (c : Cluster) : listing c.view = c.view.toPatch := by
  funext i
  show (c.view i).map listed = (c.view i).map some
  cases hv : c.view i with
  | none => rfl
  | some n => rw [Option.map_some, listed_of_host (host_of_holds ⟨i, hv⟩), Option.map_some]

end Cluster

/-! ## The round trip -/

open Cluster in
/-- A member table sent by the handler and received by `Bootstrap` is laid over
    the receiver's own: no step throws, and none writes outside the table. -/
theorem nodes_round_trip (text : JsonText) (rpcCall : RPCCall Process) (S J : Cluster)
    (sync : rpcCall.async = false)
    (readsOnly : rpcCall.args.constAt "register_node" = .ok (.boolean false))
    (sendable : S.Sendable)
    (codec : ∀ reply, (IMQNode.getNodesInCluster rpcCall.args).run S = .ok reply S →
      text.parse (text.dump reply) = .ok reply) :
    ∃ reply response J',
      (IMQNode.getNodesInCluster rpcCall.args).run S = .ok reply S ∧
      RPCResponse.get text rpcCall (.received [text.dump reply]) = .ok response ∧
      (bootstrapReply response).run J = .ok () J' ∧
      (∀ i, J'.node i = if (S.node i).host ≠ "" then S.node i else J.node i) ∧
      ((∀ i, (J.node i).host = "") →
        J'.getNodesWithIdxInCluster = S.getNodesWithIdxInCluster) := by
  have hread := IMQNode.run_getNodesInCluster_read readsOnly S
  obtain ⟨response, hmeta, hnodes⟩ := addResponseMetadata_replyOf rpcCall S
  have hget : RPCResponse.get text rpcCall (.received [text.dump S.replyOf]) = .ok response := by
    rw [RPCResponse.get_received sync (codec _ hread), hmeta]
  refine ⟨S.replyOf, response, _, hread, hget, run_bootstrapReply_of_sendable sendable hnodes J, ?_, ?_⟩
  · intro i
    rw [node_overwrite, view_apply]
    by_cases hi : (S.node i).host = ""
    · rw [listed_of_empty hi, if_neg (not_not.mpr hi), Option.getD_none]
    · rw [listed_of_host hi, if_pos hi, Option.getD_some]
  · intro hJ
    have hview : (J.overwrite S.view).view = S.view := by
      rw [view_overwrite, listing_view, Slots.patch_toPatch_eq_iff]
      exact fun i _ => listed_of_empty (hJ i)
    rw [getNodesWithIdxInCluster_eq, getNodesWithIdxInCluster_eq, hview]

/-- A table with holes whose keys come in another order than its slots. -/
def sparseTable : Cluster := (Cluster.new.setNode 2 ⟨"a", 1⟩).setNode 10 ⟨"b", 2⟩

/-- The text of its reply. -/
def sparseText : JsonText :=
  .ofValues (fun _ => "\x7b\"nodes\":\x7b\"10\":\"b:2\",\"2\":\"a:1\"\x7d\x7d") [sparseTable.replyOf]

/-- A call that only reads the table. -/
def readCall : RPCCall Process where
  rpc := "GetNodesInCluster"
  args := .object [("register_node", .boolean false)]

theorem nodes_round_trip_sparse :
    ∃ reply response J',
      (IMQNode.getNodesInCluster readCall.args).run sparseTable = .ok reply sparseTable ∧
      RPCResponse.get sparseText readCall (.received [sparseText.dump reply]) = .ok response ∧
      (Cluster.bootstrapReply response).run (Cluster.new.setNode 0 ⟨"c", 3⟩) = .ok () J' ∧
      J'.node 0 = ⟨"c", 3⟩ ∧ J'.node 2 = ⟨"a", 1⟩ ∧ J'.node 10 = ⟨"b", 2⟩ := by
  have hreads : readCall.args.constAt "register_node" = .ok (.boolean false) := rfl
  have hsend : sparseTable.Sendable := by decide
  have hcodec : ∀ reply, (IMQNode.getNodesInCluster readCall.args).run sparseTable =
      .ok reply sparseTable → sparseText.parse (sparseText.dump reply) = .ok reply := by
    intro reply h
    rw [IMQNode.run_getNodesInCluster_read hreads] at h
    cases h
    simp [sparseText, JsonText.ofValues]
  obtain ⟨reply, response, J', hrun, hget, hreply, hnode, _⟩ :=
    nodes_round_trip sparseText readCall sparseTable (Cluster.new.setNode 0 ⟨"c", 3⟩) rfl hreads
      hsend hcodec
  exact ⟨reply, response, J', hrun, hget, hreply, (hnode 0).trans (by decide),
    (hnode 2).trans (by decide), (hnode 10).trans (by decide)⟩

end Imq
