import Imq.Health
import Imq.RPC.RemoteCall
import Imq.Verified.Response

/-! # A remote call is the local call

* `lookup_ofRegistrations` — the function registered first under a name stays;
* `messageToParts_*` — what a worker makes of a message, by its frame count;
* `remote_call_eq_local_call` — the call from end to end;
* `workBody_returns_iff` — which messages a worker survives;
* `repliesToSender_iff` — which messages are answered to their sender.
-/

namespace Imq

open Json

variable {σ τ : Type}

namespace RPCServerWorkerPool

/-! ## Registration -/

theorem lookup_addRPC (pool : RPCServerWorkerPool σ) (name : String) (f : RPCFunc σ)
    (rpc : String) :
    (pool.addRPC name f).rpcs.lookup rpc =
      (pool.rpcs.lookup rpc).or (if rpc = name then some f else none) := by
  unfold addRPC
  -- `insert` into the map does not replace.
  by_cases hrpc : rpc = name
  · subst hrpc
    cases h : pool.rpcs.lookup rpc with
    | none => simp
    | some g => simp [h]
  · have hb : (rpc == name) = false := beq_eq_false_iff_ne.mpr hrpc
    rw [if_neg hrpc, Option.or_none]
    split
    · rfl
    · rw [List.lookup_cons, hb]

theorem lookup_foldl_addRPC (registrations : List (String × RPCFunc σ))
    (pool : RPCServerWorkerPool σ) (rpc : String) :
    (registrations.foldl (fun pool r => pool.addRPC r.1 r.2) pool).rpcs.lookup rpc =
      (pool.rpcs.lookup rpc).or (registrations.lookup rpc) := by
  induction registrations generalizing pool with
  | nil => simp
  | cons r rest ih =>
    obtain ⟨name, f⟩ := r
    rw [List.foldl_cons, ih, lookup_addRPC, Option.or_assoc, List.lookup_cons]
    by_cases hrpc : rpc = name
    · simp [hrpc]
    · simp [hrpc, beq_eq_false_iff_ne.mpr hrpc]

/-- The first registration under a name is the one that counts. -/
theorem lookup_ofRegistrations (registrations : List (String × RPCFunc σ)) (rpc : String) :
    (ofRegistrations registrations).rpcs.lookup rpc = registrations.lookup rpc := by
  unfold ofRegistrations
  rw [lookup_foldl_addRPC]
  rfl

/-! ## What a worker makes of a message -/

theorem catchInvalidArgument_getRPC (pool : RPCServerWorkerPool σ) (rpc : String) :
    catchInvalidArgument (pool.getRPC rpc) = .ok (pool.rpcs.lookup rpc) := by
  unfold getRPC
  cases pool.rpcs.lookup rpc <;> rfl

theorem catchInvalidArgument_parse (text : JsonText) (s : String) :
    catchInvalidArgument (text.parse s) = .ok (text.parse s).toOption := by
  cases h : text.parse s with
  | ok j => rfl
  | error e =>
    obtain ⟨what, rfl⟩ := text.parse_error s e h
    rfl

theorem workBody_some (text : JsonText) (pool : RPCServerWorkerPool σ) (message : Message) :
    workBody text pool (some message) = (do
      let rpcAndArgs ← Cpp.ofExcept (messageToParts text pool message)
      if rpcAndArgs.valid then
        let result ← performRPC rpcAndArgs
        return some (constructMessage text rpcAndArgs.clientAddr result)
      else
        return some (constructErrorMessage text rpcAndArgs.clientAddr)) := rfl

theorem messageToParts_of_rejected {text : JsonText} {pool : RPCServerWorkerPool σ}
    {message : Message}
    (h : Int32.ofNat message.length = 0 ∨ Int32.ofNat message.length > 3) :
    messageToParts text pool message = .ok { valid := false } := if_pos h

theorem messageToParts_of_accepted {text : JsonText} {pool : RPCServerWorkerPool σ}
    {message : Message}
    (h : ¬ (Int32.ofNat message.length = 0 ∨ Int32.ofNat message.length > 3)) :
    messageToParts text pool message = (do
      let (clientAddr, message) ← message.extract
      let (rpc, message) ← message.extract
      let (argsStr, _) ← message.extract
      return {
        valid := (pool.rpcs.lookup rpc).isSome && (text.parse argsStr).toOption.isSome
        clientAddr := clientAddr
        rpc := pool.rpcs.lookup rpc
        args := (text.parse argsStr).toOption.getD .null }) := by
  unfold messageToParts
  simp only [if_neg h, catchInvalidArgument_getRPC, catchInvalidArgument_parse, Cpp.ok_bind]

section

variable {text : JsonText} {pool : RPCServerWorkerPool σ} {identity rpc argsStr : String}
  {rest : Message}

/-- The frame count passes the check of `MessageToParts`. -/
def Accepted (message : Message) : Prop :=
  ¬ (Int32.ofNat message.length = 0 ∨ Int32.ofNat message.length > 3)

theorem workBody_of_accepted (h : Accepted (identity :: rpc :: argsStr :: rest)) :
    workBody text pool (some (identity :: rpc :: argsStr :: rest)) =
      if (pool.rpcs.lookup rpc).isSome && (text.parse argsStr).toOption.isSome then do
        let result ← performRPC {
          valid := true
          rpc := pool.rpcs.lookup rpc
          args := (text.parse argsStr).toOption.getD .null }
        return some (constructMessage text identity result)
      else return some (constructErrorMessage text identity) := by
  rw [workBody_some, messageToParts_of_accepted h]
  simp only [Message.extract_cons, Cpp.ok_bind]
  rfl

theorem workBody_of_registered (h : Accepted (identity :: rpc :: argsStr :: rest))
    {f : RPCFunc σ} {a : Json} (hf : pool.rpcs.lookup rpc = some f)
    (ha : text.parse argsStr = .ok a) :
    workBody text pool (some (identity :: rpc :: argsStr :: rest)) = (do
      let result ← f a
      return some (constructMessage text identity result)) := by
  rw [workBody_of_accepted h, hf, ha]
  rfl

theorem workBody_of_invalid (h : Accepted (identity :: rpc :: argsStr :: rest))
    (hinvalid : pool.rpcs.lookup rpc = none ∨ (text.parse argsStr).toOption = none) :
    workBody text pool (some (identity :: rpc :: argsStr :: rest)) =
      return some (constructErrorMessage text identity) := by
  rw [workBody_of_accepted h]
  obtain hnone | hnone := hinvalid
  · rw [hnone]
    rfl
  · rw [hnone, Option.isSome_none, Bool.and_false]
    rfl

variable (text pool) in
/-- A message with all its frames is answered with an error, or by the function that
    it names. -/
theorem workBody_cases (h : Accepted (identity :: rpc :: argsStr :: rest)) :
    workBody text pool (some (identity :: rpc :: argsStr :: rest)) =
        (return some (constructErrorMessage text identity)) ∨
      ∃ f a, pool.rpcs.lookup rpc = some f ∧
        workBody text pool (some (identity :: rpc :: argsStr :: rest)) = (do
          let result ← f a
          return some (constructMessage text identity result)) := by
  cases hf : pool.rpcs.lookup rpc with
  | none => exact .inl (workBody_of_invalid h (.inl hf))
  | some f =>
    cases ha : text.parse argsStr with
    | error e => exact .inl (workBody_of_invalid h (.inr (by rw [ha]; rfl)))
    | ok a => exact .inr ⟨f, a, rfl, workBody_of_registered h hf ha⟩

theorem workBody_of_rejected {message : Message} (h : ¬ Accepted message) :
    workBody text pool (some message) = return some (constructErrorMessage text "") := by
  rw [workBody_some, messageToParts_of_rejected (not_not.mp h)]
  rfl

end

theorem workBody_of_short {text : JsonText} {pool : RPCServerWorkerPool σ} {message : Message}
    (h : message.length = 1 ∨ message.length = 2) :
    workBody text pool (some message) = throw (.zmqpp "read past the last frame") := by
  have haccepted : Accepted message := by
    unfold Accepted
    obtain h | h := h
    · rw [h]; decide
    · rw [h]; decide
  rw [workBody_some, messageToParts_of_accepted haccepted]
  -- The guard lets the message pass, and an extraction finds no frame left.
  obtain h | h := h
  · obtain ⟨identity, rfl⟩ := List.length_eq_one_iff.mp h
    rfl
  · obtain ⟨identity, rpc, rfl⟩ := List.length_eq_two.mp h
    rfl

/-- What a worker makes of a message: it throws, it answers with an error, or it runs
    a registered function on what it has parsed. -/
theorem workBody_forms (text : JsonText) (pool : RPCServerWorkerPool σ)
    (message : Message) :
    (∃ e, workBody text pool (some message) = throw e) ∨
      (∃ clientAddr, workBody text pool (some message) =
        return some (constructErrorMessage text clientAddr)) ∨
      ∃ clientAddr rpc argsStr f args, pool.rpcs.lookup rpc = some f ∧
        text.parse argsStr = .ok args ∧
        workBody text pool (some message) = (do
          let result ← f args
          return some (constructMessage text clientAddr result)) := by
  by_cases haccepted : Accepted message
  · match message, haccepted with
    | [], haccepted => exact absurd (.inl rfl) haccepted
    | [_], _ => exact .inl ⟨_, workBody_of_short (.inl rfl)⟩
    | [_, _], _ => exact .inl ⟨_, workBody_of_short (.inr rfl)⟩
    | clientAddr :: rpc :: argsStr :: rest, haccepted =>
      cases hf : pool.rpcs.lookup rpc with
      | none => exact .inr (.inl ⟨clientAddr, workBody_of_invalid haccepted (.inl hf)⟩)
      | some f =>
        cases hargs : text.parse argsStr with
        | error e =>
          exact .inr (.inl ⟨clientAddr, workBody_of_invalid haccepted (.inr (by rw [hargs]; rfl))⟩)
        | ok args =>
          exact .inr (.inr ⟨clientAddr, rpc, argsStr, f, args, hf, hargs,
            workBody_of_registered haccepted hf hargs⟩)
  · exact .inr (.inl ⟨"", workBody_of_rejected haccepted⟩)

theorem workBody_sends {text : JsonText} {pool : RPCServerWorkerPool σ} {message : Message}
    {sent : Option Message} {s s' : σ}
    (h : (workBody text pool (some message)).run s = .ok sent s') : ∃ reply, sent = some reply := by
  obtain ⟨e, hwork⟩ | ⟨clientAddr, hwork⟩ | ⟨clientAddr, rpc, argsStr, f, args, _, _, hwork⟩ :=
    workBody_forms text pool message
  · rw [hwork] at h
    cases h
  · rw [hwork] at h
    cases h
    exact ⟨_, rfl⟩
  · rw [hwork] at h
    cases hrun : (f args).run s with
    | error e s' =>
      rw [Cpp.run_bind_error hrun] at h
      cases h
    | ok result s' =>
      rw [Cpp.run_bind_ok hrun] at h
      cases h
      exact ⟨_, rfl⟩

theorem workBody_returns {text : JsonText} {pool : RPCServerWorkerPool σ}
    (returns : ∀ name f, pool.rpcs.lookup name = some f →
      ∀ a s, ∃ result s', (f a).run s = .ok result s') {message : Message}
    (h : message.length ≠ 1 ∧ message.length ≠ 2) (s : σ) :
    ∃ sent s', (workBody text pool (some message)).run s = .ok sent s' := by
  by_cases haccepted : Accepted message
  · match message, h, haccepted with
    | [], _, haccepted => exact absurd (.inl rfl) haccepted
    | [_], h, _ => exact absurd rfl h.1
    | [_, _], h, _ => exact absurd rfl h.2
    | identity :: rpc :: argsStr :: rest, _, haccepted =>
      obtain hwork | ⟨f, a, hf, hwork⟩ := workBody_cases text pool haccepted
      · rw [hwork]
        exact ⟨_, s, rfl⟩
      · obtain ⟨result, s', hrun⟩ := returns rpc f hf a s
        rw [hwork, Cpp.run_bind_ok hrun]
        exact ⟨_, s', rfl⟩
  · rw [workBody_of_rejected haccepted]
    exact ⟨_, s, rfl⟩

/-- A worker goes on after a message exactly if it has not one frame or two. -/
theorem workBody_returns_iff (text : JsonText) (pool : RPCServerWorkerPool σ)
    (returns : ∀ name f, pool.rpcs.lookup name = some f →
      ∀ a s, ∃ result s', (f a).run s = .ok result s') (message : Message) (s : σ) :
    (∃ sent s', (workBody text pool (some message)).run s = .ok sent s') ↔
      message.length ≠ 1 ∧ message.length ≠ 2 := by
  constructor
  · intro ⟨sent, s', hrun⟩
    by_contra hshort
    rw [workBody_of_short (by omega)] at hrun
    cases hrun
  · intro h
    exact workBody_returns returns h s

/-- A pool with the health RPC alone. -/
def healthPool : RPCServerWorkerPool Unit := ofRegistrations [("CheckHealth", Health.checkHealthRPC)]

theorem healthPool_returns (name : String) (f : RPCFunc Unit)
    (h : healthPool.rpcs.lookup name = some f) (a : Json) (s : Unit) :
    ∃ result s', (f a).run s = .ok result s' := by
  rw [healthPool, lookup_ofRegistrations, List.lookup_cons] at h
  split at h
  next => cases h; exact ⟨_, s, rfl⟩
  next => cases h

theorem workBody_returns_on_health_check :
    ∃ sent s', (workBody healthText healthPool (some ["client", "CheckHealth", "null"])).run () =
      .ok sent s' :=
  (workBody_returns_iff healthText healthPool healthPool_returns ["client", "CheckHealth", "null"] ()).mpr
    ⟨by decide, by decide⟩

theorem workBody_throws_without_arguments :
    (workBody healthText healthPool (some ["client", "CheckHealth"])).run () =
      .error (.zmqpp "read past the last frame") () := by
  rw [workBody_of_short (.inr rfl)]
  rfl

/-! ## To whom a worker replies -/

/-- Whatever a worker sends after a message goes to the sender of the message,
    followed by the text of a JSON value. -/
def RepliesToSender (text : JsonText) (identity : String) :
    EStateM.Result Exn σ (Option Message) → Prop
  | .ok (some sent) _ => ∃ j, sent = [identity, text.dump j]
  | _ => True

theorem repliesToSender_map {text : JsonText} {identity : String} {x : EStateM Exn σ Json}
    (s : σ) :
    RepliesToSender text identity
      ((do
        let result ← x
        return some (constructMessage text identity result)).run s) := by
  cases hrun : x.run s with
  | ok result s' =>
    rw [Cpp.run_bind_ok hrun]
    exact ⟨result, rfl⟩
  | error e s' =>
    rw [Cpp.run_bind_error hrun]
    trivial

/-- A message that passes the check of the frame count is answered to its sender,
    unless an exception ends the worker first. -/
theorem repliesToSender_of_accepted {text : JsonText} {pool : RPCServerWorkerPool σ}
    {identity : String} {frames : Message} (h : Accepted (identity :: frames)) (s : σ) :
    RepliesToSender text identity ((workBody text pool (some (identity :: frames))).run s) := by
  match frames, h with
  | [], _ =>
    rw [workBody_of_short (.inl rfl)]
    trivial
  | [_], _ =>
    rw [workBody_of_short (.inr rfl)]
    trivial
  | rpc :: argsStr :: rest, h =>
    obtain hwork | ⟨f, a, _, hwork⟩ := workBody_cases text pool h
    · rw [hwork]
      exact ⟨errorResult, rfl⟩
    · rw [hwork]
      exact repliesToSender_map s

/-- What a worker sends after a message goes to the sender of the message exactly
    if the frame count passes the check, or the sender is the empty identity, to
    which the error reply goes otherwise. -/
theorem repliesToSender_iff (text : JsonText) (pool : RPCServerWorkerPool σ) (identity : String)
    (frames : Message) (s : σ) :
    RepliesToSender text identity ((workBody text pool (some (identity :: frames))).run s) ↔
      Accepted (identity :: frames) ∨ identity = "" := by
  by_cases h : Accepted (identity :: frames)
  · simp [h, repliesToSender_of_accepted h]
  · rw [workBody_of_rejected h, or_iff_right h]
    constructor
    · rintro ⟨j, hj⟩
      simp only [constructErrorMessage, List.cons.injEq] at hj
      exact hj.1.symm
    · rintro rfl
      exact ⟨errorResult, rfl⟩

/-- The error reply to a message of four frames goes to nobody. -/
theorem errorReply_to_nobody :
    (workBody healthText healthPool (some ["client", "CheckHealth", "null", "null"])).run () =
        .ok (some ["", healthText.dump errorResult]) () ∧
      ¬ RepliesToSender healthText "client"
        ((workBody healthText healthPool
          (some ["client", "CheckHealth", "null", "null"])).run ()) := by
  have hrejected : ¬ Accepted ["client", "CheckHealth", "null", "null"] := by
    have hfour : Int32.ofNat 4 > 3 := by decide
    exact fun h => h (.inr hfour)
  rw [workBody_of_rejected hrejected]
  refine ⟨rfl, ?_⟩
  rintro ⟨j, hj⟩
  simp [constructErrorMessage] at hj

end RPCServerWorkerPool

/-! ## From end to end -/

open RPCServerWorkerPool

/-- The call that `RPCClient::Call` makes of a name and arguments. -/
def callOf (callee : HostAndPort) (n : String) (a : Json) : RPCCall τ where
  rpc := n
  args := a
  calleeInfo := callee

theorem accepted_request (identity n argsStr : String) : Accepted [identity, n, argsStr] := by
  have hthree : ¬ (Int32.ofNat 3 = 0 ∨ Int32.ofNat 3 > 3) := by decide
  exact hthree

section

variable {text : JsonText} {registrations : List (String × RPCFunc σ)} {identity n : String}
  {client : RPCObject} {a : Json}

theorem remoteCall_eq_workBody (isClient : client.kind = .client) :
    remoteCall text (ofRegistrations registrations) identity client
        ({ rpc := n, args := a } : RPCCall τ) = (do
      let sent ← workBody text (ofRegistrations registrations) (some [identity, n, text.dump a])
      Cpp.ofExcept (RPCResponse.get text (callOf client.hostAndPort n a : RPCCall τ)
        (receiptOf sent))) := by
  unfold remoteCall RPCClient.call
  rw [isClient]
  rfl

theorem remoteCall_of_registered (isClient : client.kind = .client)
    (argsCodec : text.parse (text.dump a) = .ok a) {f : RPCFunc σ}
    (hf : registrations.lookup n = some f) :
    remoteCall text (ofRegistrations registrations) identity client
        ({ rpc := n, args := a } : RPCCall τ) = (do
      let result ← f a
      Cpp.ofExcept (RPCResponse.get text (callOf client.hostAndPort n a : RPCCall τ)
        (.received [text.dump result]))) := by
  rw [← lookup_ofRegistrations] at hf
  rw [remoteCall_eq_workBody isClient, workBody_of_registered (accepted_request _ _ _) hf argsCodec,
    bind_assoc]
  rfl

theorem remoteCall_of_unregistered (isClient : client.kind = .client)
    (hnone : registrations.lookup n = none)
    (errorCodec : text.parse (text.dump errorResult) = .ok errorResult) :
    remoteCall text (ofRegistrations registrations) identity client
        ({ rpc := n, args := a } : RPCCall τ) =
      pure (.object [("callee_info", calleeInfoJson client.hostAndPort), ("error", .number 1)]) := by
  have hlookup : [("error", Json.number 1)].lookup "callee_info" = none := by
    simp
  have hmeta := RPCResponse.addResponseMetadata_object
    (callOf client.hostAndPort n a : RPCCall τ) hlookup
  -- The members of an object stand in the order of their keys.
  have hlt : "callee_info" < "error" := by decide
  rw [insertMember, Lib.insertByKey, if_pos hlt] at hmeta
  have hget : RPCResponse.get text (callOf client.hostAndPort n a : RPCCall τ)
      (.received [text.dump errorResult]) = .ok (.object
        [("callee_info", calleeInfoJson client.hostAndPort), ("error", .number 1)]) := by
    rw [RPCResponse.get_received rfl errorCodec]
    exact hmeta
  rw [← lookup_ofRegistrations] at hnone
  rw [remoteCall_eq_workBody isClient, workBody_of_invalid (accepted_request _ _ _) (.inl hnone)]
  show Cpp.ofExcept (RPCResponse.get text _ (.received [text.dump errorResult])) = _
  rw [hget]
  rfl

end

/-- A remote call runs the function registered first under the name, once and
    on exactly the arguments, and returns its result with the callee added; for
    an unknown name it returns an error object and runs nothing. -/
theorem remote_call_eq_local_call (text : JsonText) (registrations : List (String × RPCFunc σ))
    (identity n : String) (client : RPCObject) (a : Json) (isClient : client.kind = .client)
    (argsCodec : text.parse (text.dump a) = .ok a) :
    (∀ f, registrations.lookup n = some f →
      (remoteCall text (ofRegistrations registrations) identity client
          ({ rpc := n, args := a } : RPCCall τ) = do
        let result ← f a
        Cpp.ofExcept (RPCResponse.get text (callOf client.hostAndPort n a : RPCCall τ)
          (.received [text.dump result]))) ∧
      ∀ s members s', (f a).run s = .ok (.object members) s' →
        members.lookup "callee_info" = none →
        text.parse (text.dump (.object members)) = .ok (.object members) →
        ∃ members', (remoteCall text (ofRegistrations registrations) identity client
            ({ rpc := n, args := a } : RPCCall τ)).run s = .ok (.object members') s' ∧
          members'.lookup "callee_info" = some (calleeInfoJson client.hostAndPort) ∧
          ∀ key, key ≠ "callee_info" → members'.lookup key = members.lookup key) ∧
    (registrations.lookup n = none →
      text.parse (text.dump errorResult) = .ok errorResult →
      remoteCall text (ofRegistrations registrations) identity client
          ({ rpc := n, args := a } : RPCCall τ) =
        pure (.object [("callee_info", calleeInfoJson client.hostAndPort), ("error", .number 1)])) := by
  refine ⟨fun f hf => ?_, fun hnone errorCodec => remoteCall_of_unregistered isClient hnone errorCodec⟩
  have hcall : remoteCall text (ofRegistrations registrations) identity client
      ({ rpc := n, args := a } : RPCCall τ) = _ := remoteCall_of_registered isClient argsCodec hf
  refine ⟨hcall, fun s members s' hrun hfresh resultCodec => ?_⟩
  have hmeta := RPCResponse.addResponseMetadata_object
    (callOf client.hostAndPort n a : RPCCall τ) hfresh
  refine ⟨_, ?_, lookup_insertMember_self _ (calleeInfoJson client.hostAndPort) members,
    fun key hkey => lookup_insertMember_of_ne hkey _ members⟩
  rw [hcall, Cpp.run_bind_ok hrun, RPCResponse.get_received rfl resultCodec, hmeta]
  rfl

def healthClient : RPCObject where
  kind := .client
  hostAndPort := { host := "localhost", port := 17101 }
  id := 0

theorem remote_call_eq_local_health_check :
    ∃ members', (remoteCall healthText
        (ofRegistrations [("CheckHealth", Health.checkHealthRPC), ("CheckHealth", fun _ => return .null)])
        "client" healthClient ({ rpc := "CheckHealth", args := .null } : RPCCall Unit)).run () =
          .ok (.object members') () ∧
      members'.lookup "callee_info" = some (calleeInfoJson healthClient.hostAndPort) ∧
      ∀ key, key ≠ "callee_info" → members'.lookup key = [("health", Json.number 1)].lookup key :=
  ((remote_call_eq_local_call healthText _ "client" "CheckHealth" healthClient .null rfl rfl).1
    Health.checkHealthRPC rfl).2 () [("health", .number 1)] () rfl (by decide) rfl

end Imq
