import Imq.Verified.PollLoop

/-! # What `Get` returns and what the callbacks are given

Both paths run the same loop, and go on from the iteration that decides it in
code of their own.

* `getReturns_iff`, `handsOver_iff` — what the deciding iteration makes of either;
* `get_eq_handed_iff` — they agree exactly on the calls that do not time out.
-/

namespace Imq

open Lib Json

variable {σ τ : Type}

/-! ## Either path -/

/-- The step that comes next gives this value to a callback. -/
inductive WorkLoop.Hands (text : JsonText) (rpcCall : RPCCall σ) (w : WorkLoop σ) (value : Json) :
    Prop where
  | message {callback : Json → EStateM Exn σ Unit} (next : w.phase = .messageCallback)
      (isSet : rpcCall.messageReceiptCallback = some callback)
      (given : RPCResponse.parsedResponse text rpcCall w.receivedMessage = .ok value)
  | timeout {callback : Json → EStateM Exn σ Unit} (next : w.phase = .timeoutCallback)
      (isSet : rpcCall.timeoutCallback = some callback)
      (given : RPCResponse.addResponseMetadata rpcCall TimeoutException.asJson = .ok value)

/-- The thread of an asynchronous call comes to give this value to a callback, with
    `running_` not cleared from outside. -/
def AsyncResponse.HandsOver (text : JsonText) (rpcCall : RPCCall σ) (readings : Readings)
    (s : AsyncResponse σ) (value : Json) : Prop :=
  ∃ n, (exec (step text rpcCall readings) s (List.replicate n .thread)).loop.Hands text rpcCall
    value

theorem AsyncResponse.loop_exec_thread {rpcCall : RPCCall σ} (text : JsonText)
    (async : rpcCall.async = true) (readings : Readings) (s : AsyncResponse σ) (n : Nat) :
    (exec (step text rpcCall readings) s (List.replicate n .thread)).loop =
      (WorkLoop.step text rpcCall true readings)^[n] s.loop := by
  induction n generalizing s with
  | zero => rfl
  | succ n ih =>
    rw [List.replicate_succ, exec_cons, ih, step_thread text rpcCall readings async,
      Function.iterate_succ_apply]

section

variable {text : JsonText} {rpcCall : RPCCall σ} {readings : Readings}

theorem getReturns_iff (running : Bool) (startTime : UInt32) (state : σ) (value : Json) :
    RPCResponse.GetReturns text rpcCall readings (.start running startTime state) value ↔
      ∃ k receipt, FirstAt (readings.decision rpcCall.timeoutDuration) k receipt ∧
        RPCResponse.get text rpcCall receipt = .ok value := by
  constructor
  · rintro ⟨n, hreturned, hget⟩
    have hpolling := WorkLoop.polling_iterate text rpcCall false readings running startTime state n
    obtain ⟨k, hfirst⟩ := hpolling.decided (by simp [hreturned])
    exact ⟨k, _, hfirst, hget⟩
  · rintro ⟨k, receipt, hfirst, hget⟩
    obtain ⟨n, hn⟩ :=
      WorkLoop.exists_ended text rpcCall false readings state running startTime hfirst
    refine ⟨n, ?_, ?_⟩
    · rw [hn]
      cases receipt <;> rfl
    · rw [hn, WorkLoop.receipt_ended]
      exact hget

/-- A loop that gives a value to a callback has been decided, and gives what that
    decision makes it give. -/
theorem WorkLoop.Polling.hands {w : WorkLoop σ} {value : Json}
    (h : w.Polling rpcCall.timeoutDuration readings) (hands : w.Hands text rpcCall value)
    (state : σ) :
    ∃ k receipt, FirstAt (readings.decision rpcCall.timeoutDuration) k receipt ∧
      (ended true readings state receipt).Hands text rpcCall value := by
  cases hands with
  | message next isSet given =>
    simp only [Polling, next] at h
    obtain ⟨hreceived, k, hfirst⟩ := h
    have hreceipt : w.receipt = .received w.receivedMessage := by simp [receipt, hreceived]
    rw [hreceipt] at hfirst
    exact ⟨k, _, hfirst, .message rfl isSet given⟩
  | timeout next isSet given =>
    simp only [Polling, next] at h
    obtain ⟨hreceived, htimedout, k, hfirst⟩ := h
    have hreceipt : w.receipt = .timedOut := by simp [receipt, hreceived, htimedout]
    rw [hreceipt] at hfirst
    exact ⟨k, _, hfirst, .timeout rfl isSet given⟩

theorem handsOver_iff (async : rpcCall.async = true) (running : Bool) (startTime : UInt32)
    (state : σ) (value : Json) :
    AsyncResponse.HandsOver text rpcCall readings (.construct running startTime state) value ↔
      ∃ k receipt, FirstAt (readings.decision rpcCall.timeoutDuration) k receipt ∧
        (WorkLoop.ended true readings state receipt).Hands text rpcCall value := by
  have hloop : ∀ n, (exec (AsyncResponse.step text rpcCall readings)
      (.construct running startTime state) (List.replicate n .thread)).loop =
      (WorkLoop.step text rpcCall true readings)^[n] (.start running startTime state) :=
    AsyncResponse.loop_exec_thread text async readings _
  constructor
  · rintro ⟨n, hhands⟩
    rw [hloop] at hhands
    have hpolling := WorkLoop.polling_iterate text rpcCall true readings running startTime state n
    exact hpolling.hands hhands state
  · rintro ⟨k, receipt, hfirst, hhands⟩
    obtain ⟨n, hn⟩ :=
      WorkLoop.exists_ended text rpcCall true readings state running startTime hfirst
    refine ⟨n, ?_⟩
    rw [hloop, hn]
    exact hhands

/-! ## What they agree on -/

theorem RPCResponse.addResponseMetadata_congr {sync : RPCCall σ} {async : RPCCall τ}
    (callee : sync.calleeInfo = async.calleeInfo) (j : Json) :
    addResponseMetadata sync j = addResponseMetadata async j := by
  simp only [addResponseMetadata, callee]

theorem RPCResponse.parsedResponse_congr {sync : RPCCall σ} {async : RPCCall τ}
    (callee : sync.calleeInfo = async.calleeInfo) (message : Message) :
    parsedResponse text sync message = parsedResponse text async message := by
  simp only [parsedResponse, addResponseMetadata_congr callee]

theorem hands_ended_received_iff {message : Message} {state : σ} {value : Json}
    (messageSet : rpcCall.messageReceiptCallback.isSome = true) :
    (WorkLoop.ended true readings state (.received message)).Hands text rpcCall value ↔
      RPCResponse.parsedResponse text rpcCall message = .ok value := by
  obtain ⟨callback, hcallback⟩ := Option.isSome_iff_exists.mp messageSet
  constructor
  · intro h
    cases h with
    | message next isSet given => exact given
    | timeout next isSet given => cases next
  · intro h
    exact .message rfl hcallback h

theorem hands_ended_timedOut_iff {state : σ} {value : Json}
    (timeoutSet : rpcCall.timeoutCallback.isSome = true) :
    (WorkLoop.ended true readings state .timedOut).Hands text rpcCall value ↔
      RPCResponse.addResponseMetadata rpcCall TimeoutException.asJson = .ok value := by
  obtain ⟨callback, hcallback⟩ := Option.isSome_iff_exists.mp timeoutSet
  constructor
  · intro h
    cases h with
    | message next isSet given => cases next
    | timeout next isSet given => exact given
  · intro h
    exact .timeout rfl hcallback h

/-- The metadata are not in the error object that `Get` returns. -/
theorem RPCResponse.addResponseMetadata_timeout_ne (rpcCall : RPCCall σ) :
    addResponseMetadata rpcCall TimeoutException.asJson ≠ .ok TimeoutException.asJson := by
  have hadd : addResponseMetadata rpcCall TimeoutException.asJson =
      .ok (.object (insertMember "callee_info" (calleeInfoJson rpcCall.calleeInfo)
        [("error", .string "TimeoutException")])) := addResponseMetadata_object rpcCall rfl
  rw [hadd]
  intro h
  have hfresh : [("error", Json.string "TimeoutException")].lookup "callee_info" = none := rfl
  simp only [Except.ok.injEq, TimeoutException.asJson, RPCException.asJson, Json.object.injEq] at h
  rw [← h, lookup_insertMember_self] at hfresh
  cases hfresh

theorem RPCResponse.get_of_sync (sync : rpcCall.async = false) (message : Message) :
    get text rpcCall (.received message) = parsedResponse text rpcCall message := by
  simp [get, sync]

end

section

variable {text : JsonText} {sync : RPCCall σ} {async : RPCCall τ} {readings : Readings}
  {running running' : Bool} {startTime startTime' : UInt32} {state : σ} {state' : τ}

/-- Where no call times out, both give what the first message makes them give. -/
theorem get_eq_handed_of_received (isSync : sync.async = false) (isAsync : async.async = true)
    (messageSet : async.messageReceiptCallback.isSome = true)
    (callee : sync.calleeInfo = async.calleeInfo)
    (duration : sync.timeoutDuration = async.timeoutDuration)
    (received : ∀ k, (∀ i ≤ k, readings.poll i = none) →
      readings.late sync.timeoutDuration k = false) (value : Json) :
    RPCResponse.GetReturns text sync readings (.start running startTime state) value ↔
      AsyncResponse.HandsOver text async readings (.construct running' startTime' state')
        value := by
  rw [getReturns_iff, handsOver_iff isAsync, ← duration]
  apply exists_congr
  intro k
  apply exists_congr
  intro receipt
  apply and_congr_right
  intro hfirst
  obtain ⟨message, _, rfl⟩ | ⟨hpoll, hlate, rfl⟩ := Readings.decision_eq_some hfirst.value
  · rw [RPCResponse.get_of_sync isSync, hands_ended_received_iff messageSet,
      RPCResponse.parsedResponse_congr callee]
  · -- No message has come by iteration `k`, so that it cannot be late there.
    have hbefore : ∀ i ≤ k, readings.poll i = none := by
      intro i hle
      obtain hlt | rfl := Nat.lt_or_eq_of_le hle
      · exact (Readings.decision_eq_none_iff.mp (hfirst.before i hlt)).1
      · exact hpoll
    simp [received k hbefore] at hlate

theorem late_eq_false_of_get_eq_handed (isSync : sync.async = false) (isAsync : async.async = true)
    (timeoutSet : async.timeoutCallback.isSome = true)
    (duration : sync.timeoutDuration = async.timeoutDuration)
    (same : ∀ value,
      RPCResponse.GetReturns text sync readings (.start running startTime state) value ↔
        AsyncResponse.HandsOver text async readings (.construct running' startTime' state') value)
    {k : Nat} (silent : ∀ i ≤ k, readings.poll i = none) :
    readings.late sync.timeoutDuration k = false := by
  by_contra hlate
  have hdecided : readings.decision sync.timeoutDuration k ≠ none := by
    rw [ne_eq, Readings.decision_eq_none_iff]
    exact fun h => hlate h.2
  obtain ⟨i, hle, receipt, hfirst⟩ := exists_firstAt hdecided
  have hreceipt : receipt = .timedOut := by
    obtain ⟨message, hpoll, _⟩ | ⟨_, _, h⟩ := Readings.decision_eq_some hfirst.value
    · simp [silent i hle] at hpoll
    · exact h
  subst hreceipt
  -- `Get` returns the error object, which lacks the metadata that the callback gets.
  have hget : RPCResponse.GetReturns text sync readings (.start running startTime state)
      TimeoutException.asJson :=
    (getReturns_iff running startTime state _).mpr ⟨i, .timedOut, hfirst, by
      simp [RPCResponse.get, isSync]⟩
  obtain ⟨j, receipt, hfirst', hhands⟩ :=
    (handsOver_iff isAsync running' startTime' state' _).mp ((same _).mp hget)
  rw [← duration] at hfirst'
  obtain rfl := hfirst.unique hfirst'
  rw [hands_ended_timedOut_iff timeoutSet] at hhands
  exact RPCResponse.addResponseMetadata_timeout_ne async hhands

end

/-- `Get` returns what a callback of an asynchronous call is given, for the same
    callee, duration, polls and clock, exactly if the call does not time out: no
    time is late as long as no message has come. -/
theorem get_eq_handed_iff (text : JsonText) (sync : RPCCall σ) (async : RPCCall τ)
    (readings : Readings) (running running' : Bool) (startTime startTime' : UInt32) (state : σ)
    (state' : τ) (isSync : sync.async = false) (isAsync : async.async = true)
    (messageSet : async.messageReceiptCallback.isSome = true)
    (timeoutSet : async.timeoutCallback.isSome = true)
    (callee : sync.calleeInfo = async.calleeInfo)
    (duration : sync.timeoutDuration = async.timeoutDuration) :
    (∀ value,
      RPCResponse.GetReturns text sync readings (.start running startTime state) value ↔
        AsyncResponse.HandsOver text async readings (.construct running' startTime' state') value) ↔
    ∀ k, (∀ i ≤ k, readings.poll i = none) → readings.late sync.timeoutDuration k = false := by
  constructor
  · intro same k silent
    exact late_eq_false_of_get_eq_handed isSync isAsync timeoutSet duration same silent
  · intro received value
    exact get_eq_handed_of_received isSync isAsync messageSet callee duration received value

/-- The health check as a synchronous call. -/
def syncHealthCall : RPCCall Process := { Health.healthCall with async := false }

theorem get_eq_handed_promptAnswer :
    AsyncResponse.HandsOver healthText Health.healthCall AsyncResponse.promptAnswer
      (.construct false 0 (Process.initial {}))
      (.object [("callee_info", .object [("host", .string ""), ("port", .number 0)]),
        ("health", .number 1)]) := by
  apply ((get_eq_handed_iff healthText syncHealthCall Health.healthCall AsyncResponse.promptAnswer
    false false 0 0 (Process.initial {}) (Process.initial {}) rfl rfl rfl rfl rfl rfl).mpr _ _).mp
  · exact ⟨4, rfl, rfl⟩
  · intro k silent
    have hpoll := silent k (Nat.le_refl k)
    simp [AsyncResponse.promptAnswer] at hpoll

/-- No answer comes within the duration: the error that `Get` returns does not name
    the callee, and the one that the callback is given does. -/
theorem timedOut_get_ne_handed :
    RPCResponse.GetReturns healthText syncHealthCall AsyncResponse.silence
      (.start false 0 (Process.initial {})) (.object [("error", .string "TimeoutException")]) ∧
    AsyncResponse.HandsOver healthText Health.healthCall AsyncResponse.silence
      (.construct false 0 (Process.initial {}))
      (.object [("callee_info", .object [("host", .string ""), ("port", .number 0)]),
        ("error", .string "TimeoutException")]) ∧
    ¬ ∀ value,
      RPCResponse.GetReturns healthText syncHealthCall AsyncResponse.silence
          (.start false 0 (Process.initial {})) value ↔
        AsyncResponse.HandsOver healthText Health.healthCall AsyncResponse.silence
          (.construct false 0 (Process.initial {})) value := by
  refine ⟨⟨5, rfl, rfl⟩, ⟨5, .timeout rfl rfl rfl⟩, fun same => ?_⟩
  have hsilent : ∀ i ≤ 0, AsyncResponse.silence.poll i = none := fun _ _ => rfl
  have isSync : syncHealthCall.async = false := rfl
  have isAsync : Health.healthCall.async = true := rfl
  have hlate := late_eq_false_of_get_eq_handed isSync isAsync rfl rfl same hsilent
  exact absurd hlate (by decide)

end Imq
