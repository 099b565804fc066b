import Imq.Health
import Imq.Verified.Address
import Imq.Verified.JsonObject

/-! # The callee in a response

`AddResponseMetadata` puts the address of the callee into the JSON that `Get`
returns and the callbacks receive.

* `addResponseMetadata_object` — what it makes of an object without that key;
* `calleeOf_addResponseMetadata` — the callbacks read the callee back from
  whatever it has been put into.
-/

namespace Imq

open Lib Json

variable {σ : Type}

/-- The value of `"callee_info"`. -/
def calleeInfoJson (callee : HostAndPort) : Json :=
  .object [("host", .string callee.host), ("port", .number callee.port.toNat)]

/-- The text of a call without arguments and of the answer to a health check. -/
def healthText : JsonText :=
  .ofValues (fun j => if j.typeName = "null" then "null" else "\x7b\"health\":1\x7d")
    [.null, .object [("health", .number 1)]]

namespace RPCResponse

theorem addResponseMetadata_object (rpcCall : RPCCall σ) {members : List (String × Json)}
    (h : members.lookup "callee_info" = none) :
    addResponseMetadata rpcCall (.object members) =
      .ok (.object (insertMember "callee_info" (calleeInfoJson rpcCall.calleeInfo) members)) := by
  have hhost : (Json.object members).updateAt "callee_info"
        (·.set "host" (.string rpcCall.calleeInfo.host)) =
      .ok (.object (insertMember "callee_info"
        (.object [("host", .string rpcCall.calleeInfo.host)]) members)) := by
    simp only [updateAt, h]
    rfl
  -- The second `operator[]` finds the object that the first one has made.
  have hport : (Json.object [("host", .string rpcCall.calleeInfo.host)]).set "port"
      (.number rpcCall.calleeInfo.port.toNat) = .ok (calleeInfoJson rpcCall.calleeInfo) := by
    show Except.ok (Json.object (insertMember _ _ _)) = _
    have hlt : ¬ "port" < "host" := by decide
    have hne : "port" ≠ "host" := by decide
    rw [insertMember, insertByKey, if_neg hlt, if_neg hne]
    rfl
  unfold addResponseMetadata
  rw [hhost, Cpp.ok_bind, updateAt, lookup_insertMember_self, Option.getD_some, hport]
  show Except.ok (Json.object (insertMember _ _ (insertMember _ _ members))) = _
  rw [insertMember_insertMember]

theorem addResponseMetadata_eq_ok {rpcCall : RPCCall σ} {j response : Json}
    (h : addResponseMetadata rpcCall j = .ok response) :
    ∃ info, response.constAt "callee_info" = .ok info ∧
      info.constAt "host" = .ok (.string rpcCall.calleeInfo.host) ∧
      info.constAt "port" = .ok (.number rpcCall.calleeInfo.port.toNat) := by
  unfold addResponseMetadata at h
  cases hhost : j.updateAt "callee_info" (·.set "host" (.string rpcCall.calleeInfo.host)) with
  | error e => rw [hhost] at h; cases h
  | ok j' =>
    rw [hhost, Cpp.ok_bind] at h
    -- The port is set on the element into which the host has been set.
    obtain ⟨_, info, _, hset, hat⟩ := updateAt_eq_ok hhost
    obtain ⟨info', info'', helem, hset', hat'⟩ := updateAt_eq_ok h
    rw [elementAt_of_constAt hat] at helem
    cases helem
    refine ⟨info'', hat', ?_, constAt_set hset'⟩
    exact constAt_updateAt_of_ne hset' (by decide) (constAt_set hset)

theorem calleeOf_addResponseMetadata {rpcCall : RPCCall σ} {j response : Json}
    (h : addResponseMetadata rpcCall j = .ok response) :
    Health.calleeOf response = .ok rpcCall.calleeInfo := by
  obtain ⟨info, hinfo, hhost, hport⟩ := addResponseMetadata_eq_ok h
  have hread : (Json.number rpcCall.calleeInfo.port.toNat).getUnsigned =
      .ok rpcCall.calleeInfo.port := congrArg Except.ok (HostAndPort.ofInt_toNat _)
  unfold Health.calleeOf
  rw [hinfo]
  simp only [bind, Except.bind, hhost, hport, getString, hread, pure, Except.pure]

theorem parsedResponse_of_parse {text : JsonText} {frame : String} {j : Json}
    (h : text.parse frame = .ok j) (rpcCall : RPCCall σ) (rest : Message) :
    parsedResponse text rpcCall (frame :: rest) = addResponseMetadata rpcCall j := by
  show (do
    let parsed ← text.parse frame
    addResponseMetadata rpcCall parsed) = _
  rw [h, Cpp.ok_bind]

/-- Whatever a callback is given names the callee of its call. -/
theorem calleeOf_parsedResponse {text : JsonText} {rpcCall : RPCCall σ} {message : Message}
    {response : Json} (h : parsedResponse text rpcCall message = .ok response) :
    Health.calleeOf response = .ok rpcCall.calleeInfo := by
  cases message with
  | nil => cases h
  | cons frame rest =>
    cases hparse : text.parse frame with
    | error e =>
      simp only [parsedResponse, Message.extract_cons, Cpp.ok_bind, hparse] at h
      cases h
    | ok parsed =>
      rw [parsedResponse_of_parse hparse] at h
      exact calleeOf_addResponseMetadata h

theorem get_received {text : JsonText} {rpcCall : RPCCall σ} {frame : String} {rest : Message}
    {j : Json} (sync : rpcCall.async = false) (h : text.parse frame = .ok j) :
    get text rpcCall (.received (frame :: rest)) = addResponseMetadata rpcCall j := by
  unfold get
  rw [sync, if_neg (by decide)]
  exact parsedResponse_of_parse h rpcCall rest

theorem run_doMessageCallback {text : JsonText} {rpcCall : RPCCall σ} {message : Message}
    {callback : Json → EStateM Exn σ Unit} {response : Json} {s s' : σ}
    (hset : rpcCall.messageReceiptCallback = some callback)
    (hparsed : parsedResponse text rpcCall message = .ok response)
    (hrun : (callback response).run s = .ok () s') :
    (doMessageCallback text rpcCall message).run s = .ok (some response) s' := by
  unfold doMessageCallback
  rw [hset, hparsed]
  show (Cpp.ofExcept (Except.ok response) >>= _).run s = _
  rw [Cpp.run_bind_ok (Cpp.run_ofExcept_ok response s), Cpp.run_bind_ok hrun]
  rfl

theorem run_doTimeoutCallback {rpcCall : RPCCall σ} {callback : Json → EStateM Exn σ Unit}
    {error : Json} {s s' : σ} (hset : rpcCall.timeoutCallback = some callback)
    (herror : addResponseMetadata rpcCall TimeoutException.asJson = .ok error)
    (hrun : (callback error).run s = .ok () s') :
    (doTimeoutCallback rpcCall).run s = .ok (some error) s' := by
  unfold doTimeoutCallback
  rw [hset, herror]
  show (Cpp.ofExcept (Except.ok error) >>= _).run s = _
  rw [Cpp.run_bind_ok (Cpp.run_ofExcept_ok error s), Cpp.run_bind_ok hrun]
  rfl

end RPCResponse

end Imq
