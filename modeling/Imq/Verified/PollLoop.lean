import Imq.Lib.FirstAt
import Imq.Verified.WorkLoop

/-! # How the work loop ends

What the polls and the clock give in an iteration decides it, or does not:
`Readings.decision`.  The loop ends in the first iteration that is decided.

* `WorkLoop.exists_ended`, `WorkLoop.polling_iterate` — that it does so, and what
  holds in between;
* `WorkLoop.exists_isOver_iff` — when there is such an iteration;
* `workLoop_outcome` — the outcome with callbacks, for a clock that is not set
  back;
* `noEarlyTimeout_iff` — the readings that let no call time out early.
-/

namespace Imq

open Lib Json

variable {σ τ : Type}

/-! ## One iteration -/

/-- The elapsed time, a difference of truncated readings, is at least the
    duration. -/
def Readings.late (readings : Readings) (duration : UInt32) (k : Nat) : Bool :=
  RPCResponse.currentTime (readings.clock (k + 1)) - RPCResponse.currentTime (readings.clock 0) ≥
    duration

/-- How iteration `k` ends the loop, if it does: a message is looked for first. -/
def Readings.decision (readings : Readings) (duration : UInt32) (k : Nat) : Option Receipt :=
  match readings.poll k with
  | some message => some (.received message)
  | none => if readings.late duration k then some .timedOut else none

theorem RPCResponse.hasTimedOut_eq_late (rpcCall : RPCCall σ) (readings : Readings) (k : Nat) :
    hasTimedOut rpcCall (currentTime (readings.clock 0)) (readings.clock (k + 1)) =
      readings.late rpcCall.timeoutDuration k := rfl

/-- The truncated difference is the difference, modulo 2 ^ 32. -/
theorem Readings.late_iff {readings : Readings} {duration : UInt32} {k : Nat} :
    readings.late duration k = true ↔
      (duration.toNat : Int) ≤ (readings.clock (k + 1) - readings.clock 0) % 4294967296 := by
  have htoNat : ∀ t : Int, ((RPCResponse.currentTime t).toNat : Int) = t % 4294967296 := by
    intro t
    simp only [RPCResponse.currentTime, UInt32.ofInt, UInt32.toNat_ofNat']
    omega
  have hnow := htoNat (readings.clock (k + 1))
  have hstart := htoNat (readings.clock 0)
  simp only [late, ge_iff_le, decide_eq_true_eq, UInt32.le_iff_toNat_le, UInt32.toNat_sub]
  omega

/-- Less than 2 ^ 32 ms after the start, the truncated difference is the time
    elapsed. -/
theorem Readings.late_iff_elapsed {readings : Readings} {duration : UInt32} {k : Nat}
    (since : readings.clock 0 ≤ readings.clock (k + 1))
    (bound : readings.clock (k + 1) < readings.clock 0 + 4294967296) :
    readings.late duration k = true ↔
      readings.clock 0 + duration.toNat ≤ readings.clock (k + 1) := by
  rw [Readings.late_iff]
  omega

theorem Readings.decision_eq_none_iff {readings : Readings} {duration : UInt32} {k : Nat} :
    readings.decision duration k = none ↔
      readings.poll k = none ∧ readings.late duration k = false := by
  unfold decision
  cases readings.poll k <;> simp

theorem Readings.decision_eq_some {readings : Readings} {duration : UInt32} {k : Nat}
    {receipt : Receipt} (h : readings.decision duration k = some receipt) :
    (∃ message, readings.poll k = some message ∧ receipt = .received message) ∨
      (readings.poll k = none ∧ readings.late duration k = true ∧ receipt = .timedOut) := by
  unfold decision at h
  cases hpoll : readings.poll k with
  | some message =>
    simp only [hpoll, Option.some.injEq] at h
    exact .inl ⟨message, rfl, h.symm⟩
  | none =>
    simp only [hpoll, Option.ite_none_right_eq_some, Option.some.injEq] at h
    exact .inr ⟨rfl, h.1, h.2.symm⟩

namespace WorkLoop

section

variable (text : JsonText) (rpcCall : RPCCall σ) (doCb : Bool) (readings : Readings) (state : σ)

/-- The loop at the test of `running_` in iteration `k`, undecided so far. -/
def atTest (k : Nat) : WorkLoop σ where
  running := true
  startTime := RPCResponse.currentTime (readings.clock 0)
  phase := .testRunning k
  state := state

/-- The loop once it is decided, with the callback still to come. -/
def ended : Receipt → WorkLoop σ
  | .received message =>
    { atTest readings state 0 with
      received := true
      receivedMessage := message
      phase := if doCb then .messageCallback else .returned }
  | .timedOut =>
    { atTest readings state 0 with
      timedout := true
      phase := if doCb then .timeoutCallback else .returned }
  | .stopped => { atTest readings state 0 with phase := .returned }

@[simp] theorem receipt_ended (receipt : Receipt) :
    (ended doCb readings state receipt).receipt = receipt := by
  cases receipt <;> rfl

theorem iterate_start (running : Bool) (startTime : UInt32) :
    (step text rpcCall doCb readings)^[2] (start running startTime state) =
      atTest readings state 0 := rfl

theorem step_atTest (k : Nat) :
    step text rpcCall doCb readings (atTest readings state k) =
      { atTest readings state k with phase := .receive k } := rfl

theorem step_receive_none {k : Nat} (h : readings.poll k = none) :
    step text rpcCall doCb readings { atTest readings state k with phase := .receive k } =
      { atTest readings state k with phase := .testTimeout k } := by
  simp [step, h, goTo, atTest]

theorem iterate_undecided {k : Nat} (h : readings.decision rpcCall.timeoutDuration k = none) :
    (step text rpcCall doCb readings)^[3] (atTest readings state k) =
      atTest readings state (k + 1) := by
  obtain ⟨hpoll, hlate⟩ := Readings.decision_eq_none_iff.mp h
  rw [Function.iterate_succ_apply, step_atTest, Function.iterate_succ_apply,
    step_receive_none text rpcCall doCb readings state hpoll, Function.iterate_one]
  simp [step, RPCResponse.hasTimedOut_eq_late, hlate, goTo, atTest]

theorem exists_iterate_undecided (k : Nat)
    (h : readings.decision rpcCall.timeoutDuration k = none) :
    ∃ n, (step text rpcCall doCb readings)^[n] (atTest readings state k) =
      atTest readings state (k + 1) :=
  ⟨3, iterate_undecided text rpcCall doCb readings state h⟩

theorem iterate_decided {k : Nat} {receipt : Receipt}
    (h : readings.decision rpcCall.timeoutDuration k = some receipt) :
    ∃ n, (step text rpcCall doCb readings)^[n] (atTest readings state k) =
      ended doCb readings state receipt := by
  obtain ⟨message, hpoll, rfl⟩ | ⟨hpoll, hlate, rfl⟩ := Readings.decision_eq_some h
  · refine ⟨2, ?_⟩
    rw [Function.iterate_succ_apply, step_atTest, Function.iterate_one]
    simp [step, hpoll, goTo, ended, atTest]
  · refine ⟨3, ?_⟩
    rw [Function.iterate_succ_apply, step_atTest, Function.iterate_succ_apply,
      step_receive_none text rpcCall doCb readings state hpoll, Function.iterate_one]
    simp [step, RPCResponse.hasTimedOut_eq_late, hlate, goTo, ended, atTest]

/-- The first iteration that is decided ends the loop. -/
theorem exists_ended (running : Bool) (startTime : UInt32) {k : Nat} {receipt : Receipt}
    (h : FirstAt (readings.decision rpcCall.timeoutDuration) k receipt) :
    ∃ n, (step text rpcCall doCb readings)^[n] (start running startTime state) =
      ended doCb readings state receipt := by
  have hstop : ∀ k receipt, readings.decision rpcCall.timeoutDuration k = some receipt →
      ∃ n, (step text rpcCall doCb readings)^[n] (atTest readings state k) =
        ended doCb readings state receipt :=
    fun _ _ hk => iterate_decided text rpcCall doCb readings state hk
  have hnext := exists_iterate_undecided text rpcCall doCb readings state
  obtain ⟨n, hn⟩ := iterate_of_firstAt hnext hstop h
  exact ⟨n + 2, by rw [Function.iterate_add_apply, iterate_start, hn]⟩

/-- The loop comes to every iteration before which none is decided. -/
theorem exists_atTest (running : Bool) (startTime : UInt32) {k : Nat}
    (before : ∀ i < k, readings.decision rpcCall.timeoutDuration i = none) :
    ∃ n, (step text rpcCall doCb readings)^[n] (start running startTime state) =
      atTest readings state k := by
  have hnext := exists_iterate_undecided text rpcCall doCb readings state
  obtain ⟨n, hn⟩ := iterate_enter hnext before
  exact ⟨n + 2, by rw [Function.iterate_add_apply, iterate_start, hn]⟩

end

/-! ## What holds in between -/

section

variable (duration : UInt32) (readings : Readings)

/-- Nothing has been decided in front of iteration `k`. -/
structure Waiting (k : Nat) (w : WorkLoop σ) : Prop where
  running : w.running = true
  startTime : w.startTime = RPCResponse.currentTime (readings.clock 0)
  timedout : w.timedout = false
  before : ∀ i < k, readings.decision duration i = none

/-- The loop has been decided as its members say. -/
def Decided (w : WorkLoop σ) : Prop := ∃ k, FirstAt (readings.decision duration) k w.receipt

/-- What holds of the loop as long as nobody clears `running_`. -/
def Polling (w : WorkLoop σ) : Prop :=
  match w.phase with
  | .storeRunning => w.timedout = false
  | .readStartTime => w.running = true ∧ w.timedout = false
  | .testRunning k | .receive k => w.Waiting duration readings k
  | .testTimeout k => w.Waiting duration readings k ∧ w.received = false ∧ readings.poll k = none
  | .messageCallback => w.received = true ∧ w.Decided duration readings
  | .timeoutCallback => w.received = false ∧ w.timedout = true ∧ w.Decided duration readings
  | .returned | .thrown _ => w.Decided duration readings

end

section

variable {text : JsonText} {rpcCall : RPCCall σ} {doCb : Bool} {readings : Readings}
  {w : WorkLoop σ}

theorem decided_callBack (h : w.Decided rpcCall.timeoutDuration readings)
    (kind : Json → Invocation) (callback : EStateM Exn σ (Option Json)) :
    (w.callBack kind callback).Polling rpcCall.timeoutDuration readings := by
  unfold callBack
  cases callback.run w.state with
  | ok given state => exact h
  | error e state => exact h

theorem polling_receive {k : Nat} (hphase : w.phase = .receive k)
    (h : w.Waiting rpcCall.timeoutDuration readings k) :
    (w.step text rpcCall doCb readings).Polling rpcCall.timeoutDuration readings := by
  cases hpoll : readings.poll k with
  | some message =>
    have hdecided : ({ w with received := true, receivedMessage := message } : WorkLoop σ).Decided
        rpcCall.timeoutDuration readings :=
      ⟨k, by simp [Readings.decision, hpoll, receipt], h.before⟩
    cases doCb with
    | true =>
      simp only [step, hphase, hpoll, Polling, goTo]
      exact ⟨trivial, hdecided⟩
    | false =>
      simp only [step, hphase, hpoll, Polling, goTo]
      exact hdecided
  | none =>
    simp only [step, hphase, hpoll, Polling, goTo]
    exact ⟨⟨h.running, h.startTime, h.timedout, h.before⟩, trivial, trivial⟩

theorem polling_testTimeout {k : Nat} (hphase : w.phase = .testTimeout k)
    (h : w.Waiting rpcCall.timeoutDuration readings k) (hreceived : w.received = false)
    (hpoll : readings.poll k = none) :
    (w.step text rpcCall doCb readings).Polling rpcCall.timeoutDuration readings := by
  cases hlate : readings.late rpcCall.timeoutDuration k with
  | true =>
    have hdecided : ({ w with timedout := true } : WorkLoop σ).Decided
        rpcCall.timeoutDuration readings :=
      ⟨k, by simp [Readings.decision, hpoll, hlate, receipt, hreceived], h.before⟩
    cases doCb with
    | true =>
      simp only [step, hphase, h.startTime, RPCResponse.hasTimedOut_eq_late, hlate, if_true, Polling,
        goTo]
      exact ⟨hreceived, trivial, hdecided⟩
    | false =>
      simp only [step, hphase, h.startTime, RPCResponse.hasTimedOut_eq_late, hlate, if_true, Polling,
        goTo]
      exact hdecided
  | false =>
    simp only [step, hphase, h.startTime, RPCResponse.hasTimedOut_eq_late, hlate, Polling, goTo]
    refine ⟨h.running, rfl, h.timedout, fun i hi => ?_⟩
    obtain hlt | rfl := Nat.lt_succ_iff_lt_or_eq.mp hi
    · exact h.before i hlt
    · exact Readings.decision_eq_none_iff.mpr ⟨hpoll, hlate⟩

theorem polling_step (h : w.Polling rpcCall.timeoutDuration readings) :
    (w.step text rpcCall doCb readings).Polling rpcCall.timeoutDuration readings := by
  cases hphase : w.phase with
  | storeRunning =>
    simp only [Polling, hphase] at h
    simpa [step, hphase, Polling, goTo] using h
  | readStartTime =>
    simp only [Polling, hphase] at h
    simp only [step, hphase, Polling, goTo]
    exact ⟨h.1, rfl, h.2, by simp⟩
  | testRunning k =>
    simp only [Polling, hphase] at h
    simp only [step, hphase, h.running, if_true, Polling, goTo]
    exact ⟨rfl, h.startTime, h.timedout, h.before⟩
  | receive k =>
    simp only [Polling, hphase] at h
    exact polling_receive hphase h
  | testTimeout k =>
    simp only [Polling, hphase] at h
    obtain ⟨hwaiting, hreceived, hpoll⟩ := h
    exact polling_testTimeout hphase hwaiting hreceived hpoll
  | messageCallback =>
    simp only [Polling, hphase] at h
    simp only [step, hphase]
    exact decided_callBack h.2 _ _
  | timeoutCallback =>
    simp only [Polling, hphase] at h
    simp only [step, hphase]
    exact decided_callBack h.2.2 _ _
  | returned => simpa [step, hphase] using h
  | thrown e => simpa [step, hphase] using h

theorem Polling.decided {duration : UInt32} (h : w.Polling duration readings)
    (isOver : w.phase.isOver = true) : w.Decided duration readings := by
  unfold Polling at h
  cases hphase : w.phase with
  | returned => simpa only [hphase] using h
  | thrown e => simpa only [hphase] using h
  | _ => simp [hphase] at isOver

variable (text rpcCall doCb readings) in
theorem polling_iterate (running : Bool) (startTime : UInt32) (state : σ) (n : Nat) :
    ((step text rpcCall doCb readings)^[n] (start running startTime state)).Polling
      rpcCall.timeoutDuration readings := by
  induction n with
  | zero => exact rfl
  | succ n ih =>
    rw [Function.iterate_succ_apply']
    exact polling_step ih

theorem step_messageCallback {doCb : Bool} {w : WorkLoop σ} (h : w.phase = .messageCallback) :
    w.step text rpcCall doCb readings =
      w.callBack .message (RPCResponse.doMessageCallback text rpcCall w.receivedMessage) := by
  simp [step, h]

theorem step_timeoutCallback {doCb : Bool} {w : WorkLoop σ} (h : w.phase = .timeoutCallback) :
    w.step text rpcCall doCb readings =
      w.callBack .timeout (RPCResponse.doTimeoutCallback rpcCall) := by
  simp [step, h]

theorem isOver_callBack (w : WorkLoop σ) (kind : Json → Invocation)
    (callback : EStateM Exn σ (Option Json)) : (w.callBack kind callback).phase.isOver = true := by
  unfold callBack
  cases callback.run w.state <;> rfl

theorem isOver_step_ended (receipt : Receipt) (state : σ) :
    ((ended doCb readings state receipt).step text rpcCall doCb readings).phase.isOver = true := by
  cases receipt with
  | received message =>
    cases doCb with
    | true =>
      rw [step_messageCallback rfl]
      exact isOver_callBack ..
    | false => rfl
  | timedOut =>
    cases doCb with
    | true =>
      rw [step_timeoutCallback rfl]
      exact isOver_callBack ..
    | false => rfl
  | stopped => rfl

variable (text rpcCall doCb readings) in
/-- Whatever the clock does, the loop ends exactly if some iteration is decided. -/
theorem exists_isOver_iff (running : Bool) (startTime : UInt32) (state : σ) :
    (∃ n, ((step text rpcCall doCb readings)^[n]
        (start running startTime state)).phase.isOver = true) ↔
      ∃ k, readings.decision rpcCall.timeoutDuration k ≠ none := by
  rw [← exists_firstAt_iff]
  constructor
  · rintro ⟨n, hover⟩
    have hpolling := polling_iterate text rpcCall doCb readings running startTime state n
    obtain ⟨k, hfirst⟩ := hpolling.decided hover
    exact ⟨k, _, hfirst⟩
  · rintro ⟨k, receipt, hfirst⟩
    obtain ⟨n, hn⟩ := exists_ended text rpcCall doCb readings state running startTime hfirst
    refine ⟨n + 1, ?_⟩
    rw [Function.iterate_succ_apply', hn]
    exact isOver_step_ended receipt state

end

/-! ## The outcome with callbacks -/

/-- The loop has run this callback, if it is set, and no other. -/
def Ran (kind : Json → Invocation) (callback : Option (Json → EStateM Exn σ Unit)) (j : Json)
    (state : σ) (w : WorkLoop σ) : Prop :=
  match callback with
  | none => w.phase = .returned ∧ w.state = state ∧ w.invoked = []
  | some callback =>
    match (callback j).run state with
    | .ok () state' => w.phase = .returned ∧ w.state = state' ∧ w.invoked = [kind j]
    | .error e state' => w.phase = .thrown e ∧ w.state = state' ∧ w.invoked = []

theorem ran_callBack {w : WorkLoop σ} (fresh : w.invoked = []) (kind : Json → Invocation)
    (callback : Option (Json → EStateM Exn σ Unit)) {given : Except Exn Json} {j : Json}
    (h : given = .ok j) :
    Ran kind callback j w.state (w.callBack kind
      (match callback with
        | none => pure none
        | some callback => do
          let j ← Cpp.ofExcept given
          callback j
          return some j)) := by
  cases callback with
  | none => simp [Ran, callBack, fresh, pure, EStateM.run, EStateM.pure]
  | some callback =>
    simp only [Ran, callBack, h]
    cases hrun : (callback j).run w.state with
    | ok a state' =>
      rw [Cpp.run_bind_ok (Cpp.run_ofExcept_ok j w.state), Cpp.run_bind_ok hrun]
      simp [fresh, pure, EStateM.run, EStateM.pure]
    | error e state' =>
      rw [Cpp.run_bind_ok (Cpp.run_ofExcept_ok j w.state), Cpp.run_bind_error hrun]
      simp [fresh]

/-- The response as the callbacks are given it, made of the members of an object. -/
def completed (rpcCall : RPCCall σ) (members : List (String × Json)) : Json :=
  .object (insertMember "callee_info" (calleeInfoJson rpcCall.calleeInfo) members)

/-- The message is the text of an object that does not name a callee. -/
def ObjectText (text : JsonText) (message : Message) (members : List (String × Json)) : Prop :=
  ∃ frame rest, message = frame :: rest ∧ text.parse frame = .ok (.object members) ∧
    members.lookup "callee_info" = none

/-- How the loop is left by an iteration whose poll has this result. -/
def Outcome (text : JsonText) (rpcCall : RPCCall σ) (state : σ) :
    Option Message → WorkLoop σ → Prop
  | some message, w =>
    w.received = true ∧ w.timedout = false ∧ ∃ members, ObjectText text message members ∧
      Ran .message rpcCall.messageReceiptCallback (completed rpcCall members) state w
  | none, w =>
    w.received = false ∧ w.timedout = true ∧
      Ran .timeout rpcCall.timeoutCallback
        (completed rpcCall [("error", .string "TimeoutException")]) state w

/-- The loop polls in the iterations up to `k`, in no other, and is left as `w`. -/
structure EndsAt (text : JsonText) (rpcCall : RPCCall σ) (readings : Readings) (w₀ : WorkLoop σ)
    (k : Nat) (w : WorkLoop σ) : Prop where
  polls : ∀ j, (∃ n, ((step text rpcCall true readings)^[n] w₀).phase = .receive j) ↔ j ≤ k
  reached : ∃ n, (step text rpcCall true readings)^[n] w₀ = w
  isOver : w.phase.isOver = true

section

variable {text : JsonText} {rpcCall : RPCCall σ} {readings : Readings}

@[simp] theorem callBack_received (w : WorkLoop σ) (kind : Json → Invocation)
    (callback : EStateM Exn σ (Option Json)) :
    (w.callBack kind callback).received = w.received := by
  unfold callBack
  cases callback.run w.state <;> rfl

@[simp] theorem callBack_timedout (w : WorkLoop σ) (kind : Json → Invocation)
    (callback : EStateM Exn σ (Option Json)) :
    (w.callBack kind callback).timedout = w.timedout := by
  unfold callBack
  cases callback.run w.state <;> rfl

theorem outcome_step_ended {k : Nat} {receipt : Receipt} (state : σ)
    (texts : ∀ k message, readings.poll k = some message →
      ∃ members, ObjectText text message members)
    (h : readings.decision rpcCall.timeoutDuration k = some receipt) :
    Outcome text rpcCall state (readings.poll k)
      ((ended true readings state receipt).step text rpcCall true readings) := by
  obtain ⟨message, hpoll, rfl⟩ | ⟨hpoll, _, rfl⟩ := Readings.decision_eq_some h
  · obtain ⟨members, hobject⟩ := texts k message hpoll
    obtain ⟨frame, rest, rfl, hparse, hlookup⟩ := id hobject
    have hparsed : RPCResponse.parsedResponse text rpcCall (frame :: rest) =
        .ok (completed rpcCall members) := by
      rw [RPCResponse.parsedResponse_of_parse hparse]
      exact RPCResponse.addResponseMetadata_object rpcCall hlookup
    rw [step_messageCallback rfl, hpoll]
    simp only [Outcome, callBack_received, callBack_timedout]
    refine ⟨rfl, rfl, members, hobject, ?_⟩
    exact ran_callBack rfl .message rpcCall.messageReceiptCallback hparsed
  · have herror : RPCResponse.addResponseMetadata rpcCall TimeoutException.asJson =
        .ok (completed rpcCall [("error", .string "TimeoutException")]) :=
      RPCResponse.addResponseMetadata_object rpcCall rfl
    rw [step_timeoutCallback rfl, hpoll]
    simp only [Outcome, callBack_received, callBack_timedout]
    refine ⟨rfl, rfl, ?_⟩
    exact ran_callBack rfl .timeout rpcCall.timeoutCallback herror

theorem polls_iff {k : Nat} {receipt : Receipt} (running : Bool) (startTime : UInt32) (state : σ)
    (h : FirstAt (readings.decision rpcCall.timeoutDuration) k receipt) (j : Nat) :
    (∃ n, ((step text rpcCall true readings)^[n] (start running startTime state)).phase =
      .receive j) ↔ j ≤ k := by
  constructor
  · rintro ⟨n, hn⟩
    have hpolling := polling_iterate text rpcCall true readings running startTime state n
    simp only [Polling, hn] at hpolling
    by_contra hlt
    have hvalue := h.value
    simp [hpolling.before k (by omega)] at hvalue
  · intro hle
    have hbefore : ∀ i < j, readings.decision rpcCall.timeoutDuration i = none :=
      fun i hi => h.before i (by omega)
    obtain ⟨n, hn⟩ := exists_atTest text rpcCall true readings state running startTime hbefore
    exact ⟨n + 1, by rw [Function.iterate_succ_apply', hn, step_atTest]⟩

end

end WorkLoop

/-- Iteration `k` is one that ends the loop: its poll receives, or the duration has
    elapsed at its reading of the clock. -/
def Readings.Decisive (readings : Readings) (duration : UInt32) (k : Nat) : Prop :=
  readings.poll k ≠ none ∨ readings.clock 0 + duration.toNat ≤ readings.clock (k + 1)

theorem Readings.decision_ne_none_iff {readings : Readings} (duration : UInt32)
    (monotone : ∀ j k, j ≤ k → readings.clock j ≤ readings.clock k)
    (bound : ∀ k, readings.clock k < readings.clock 0 + 4294967296) (k : Nat) :
    readings.decision duration k ≠ none ↔ readings.Decisive duration k := by
  have hlate : readings.late duration k = true ↔
      readings.clock 0 + duration.toNat ≤ readings.clock (k + 1) :=
    Readings.late_iff_elapsed (monotone 0 (k + 1) (by omega)) (bound (k + 1))
  rw [ne_eq, Readings.decision_eq_none_iff, Decisive, ← hlate, ← Bool.not_eq_true, not_and_or,
    not_not]

open WorkLoop in
/-- The loop with callbacks ends in the first decisive iteration, if there is one,
    and a message counts for more there than the elapsed time. -/
theorem workLoop_outcome (text : JsonText) (rpcCall : RPCCall σ) (readings : Readings)
    (running : Bool) (startTime : UInt32) (state : σ)
    (monotone : ∀ j k, j ≤ k → readings.clock j ≤ readings.clock k)
    (bound : ∀ k, readings.clock k < readings.clock 0 + 4294967296)
    (texts : ∀ k message, readings.poll k = some message →
      ∃ members, ObjectText text message members) :
    (∀ k, readings.Decisive rpcCall.timeoutDuration k →
      (∀ i < k, ¬ readings.Decisive rpcCall.timeoutDuration i) →
      ∃ w, EndsAt text rpcCall readings (start running startTime state) k w ∧
        Outcome text rpcCall state (readings.poll k) w) ∧
    ((∃ n, ((step text rpcCall true readings)^[n]
        (start running startTime state)).phase.isOver = true) ↔
      ∃ k, readings.Decisive rpcCall.timeoutDuration k) := by
  have hsome : ∀ k, readings.decision rpcCall.timeoutDuration k ≠ none ↔
      readings.Decisive rpcCall.timeoutDuration k :=
    Readings.decision_ne_none_iff rpcCall.timeoutDuration monotone bound
  constructor
  · intro k hdecisive hbefore
    obtain ⟨receipt, hreceipt⟩ := Option.ne_none_iff_exists'.mp ((hsome k).mpr hdecisive)
    have hfirst : FirstAt (readings.decision rpcCall.timeoutDuration) k receipt := by
      refine ⟨hreceipt, fun i hi => ?_⟩
      by_contra hi'
      exact hbefore i hi ((hsome i).mp hi')
    obtain ⟨n, hn⟩ := exists_ended text rpcCall true readings state running startTime hfirst
    have hends : EndsAt text rpcCall readings (start running startTime state) k
        ((ended true readings state receipt).step text rpcCall true readings) := by
      refine ⟨polls_iff running startTime state hfirst, ⟨n + 1, ?_⟩, isOver_step_ended receipt state⟩
      rw [Function.iterate_succ_apply', hn]
    exact ⟨_, hends, outcome_step_ended state texts hfirst.value⟩
  · rw [exists_isOver_iff]
    exact exists_congr hsome

/-- The answer comes in the third iteration.  By then 3000 ms have elapsed and the
    truncated clock has wrapped. -/
def lateAnswer : Readings where
  poll k := if k = 2 then some ["\x7b\"health\":1\x7d"] else none
  clock k := 4294966000 + 1000 * (min k 3 : Nat)

open WorkLoop in
theorem workLoop_outcome_lateAnswer :
    ∃ w, EndsAt healthText Health.healthCall lateAnswer (start false 0 (Process.initial {})) 2 w ∧
      Outcome healthText Health.healthCall (Process.initial {})
        (some ["\x7b\"health\":1\x7d"]) w := by
  apply (workLoop_outcome healthText Health.healthCall lateAnswer false 0 (Process.initial {})
    _ _ _).1 2
  · exact .inl (by simp [lateAnswer])
  · intro i hi hdecisive
    have hduration : Health.healthCall.timeoutDuration.toNat = 3000 := rfl
    simp only [Readings.Decisive, lateAnswer, hduration, if_neg (by omega : ¬ i = 2)] at hdecisive
    simp at hdecisive
    omega
  · intro j k hle
    simp only [lateAnswer]
    omega
  · intro k
    simp only [lateAnswer]
    omega
  · intro k message hpoll
    simp only [lateAnswer] at hpoll
    split at hpoll
    next =>
      cases hpoll
      exact ⟨[("health", .number 1)], _, _, rfl, rfl, rfl⟩
    next => cases hpoll

/-! ## Time-outs, with any clock -/

namespace WorkLoop

/-- A step that sets `timedout_` follows a reading of the clock that is at least the
    duration after the first one. -/
def TimesOutInTime (text : JsonText) (rpcCall : RPCCall σ) (doCb : Bool) (readings : Readings)
    (w : WorkLoop σ) (e : LoopEvent) : Prop :=
  w.timedout = false → (w.react text rpcCall doCb readings e).timedout = true →
    ∃ k, w.phase = .testTimeout k ∧
      readings.clock 0 + rpcCall.timeoutDuration.toNat ≤ readings.clock (k + 1)

/-- The reading that comes next is not before the first one, or so far before it
    that less than the duration seems to have elapsed. -/
def ReadsForward (duration : UInt32) (readings : Readings) (w : WorkLoop σ) (e : LoopEvent) :
    Prop :=
  ∀ k, e = .step → w.phase = .testTimeout k →
    readings.clock 0 ≤ readings.clock (k + 1) ∨
      (readings.clock (k + 1) - readings.clock 0) % 4294967296 < duration.toNat

/-- What the test of the time finds in the members. -/
def Timing (readings : Readings) (w : WorkLoop σ) : Prop :=
  match w.phase with
  | .storeRunning | .readStartTime => w.timedout = false
  | .testRunning _ | .receive _ | .testTimeout _ =>
    w.timedout = false ∧ w.startTime = RPCResponse.currentTime (readings.clock 0)
  | _ => True

section

variable {text : JsonText} {rpcCall : RPCCall σ} {doCb : Bool} {readings : Readings}
  {w : WorkLoop σ}

theorem timing_callBack (kind : Json → Invocation) (callback : EStateM Exn σ (Option Json)) :
    (w.callBack kind callback).Timing readings := by
  unfold callBack
  cases callback.run w.state <;> simp [Timing]

theorem timing_react (h : w.Timing readings) (e : LoopEvent) :
    (w.react text rpcCall doCb readings e).Timing readings := by
  cases e with
  | clearRunning => exact h
  | step =>
    unfold Timing at h
    simp only [react, step]
    cases hphase : w.phase with
    | storeRunning => simp_all [goTo, Timing]
    | readStartTime => simp_all [goTo, Timing]
    | testRunning k => cases hrunning : w.running <;> simp_all [goTo, Timing]
    | receive k => cases hpoll : readings.poll k <;> cases doCb <;> simp_all [goTo, Timing]
    | testTimeout k =>
      cases hlate : RPCResponse.hasTimedOut rpcCall w.startTime (readings.clock (k + 1)) <;>
        cases doCb <;> simp_all [goTo, Timing]
    | messageCallback => exact timing_callBack _ _
    | timeoutCallback => exact timing_callBack _ _
    | returned => simp [Timing, hphase]
    | thrown e => simp [Timing, hphase]

/-- `timedout_` is set by the test of the time alone. -/
theorem timedout_step (h : ∀ k, w.phase ≠ .testTimeout k) :
    (w.step text rpcCall doCb readings).timedout = w.timedout := by
  unfold step
  cases hphase : w.phase with
  | testTimeout k => exact absurd hphase (h k)
  | testRunning k => cases hrunning : w.running <;> simp [goTo]
  | receive k => cases hpoll : readings.poll k <;> simp [goTo, hpoll]
  | _ => simp [goTo]

theorem timedout_step_testTimeout (h : w.Timing readings) {k : Nat}
    (hphase : w.phase = .testTimeout k) :
    (w.step text rpcCall doCb readings).timedout = readings.late rpcCall.timeoutDuration k := by
  simp only [Timing, hphase] at h
  simp only [step, hphase, h.2, RPCResponse.hasTimedOut_eq_late]
  cases readings.late rpcCall.timeoutDuration k <;> simp [goTo, h.1]

/-- Whether the duration seems to have elapsed without having elapsed. -/
theorem late_of_elapsed_iff {duration : UInt32} {k : Nat} :
    (readings.late duration k = true →
        readings.clock 0 + duration.toNat ≤ readings.clock (k + 1)) ↔
      readings.clock 0 ≤ readings.clock (k + 1) ∨
        (readings.clock (k + 1) - readings.clock 0) % 4294967296 < duration.toNat := by
  have hduration := duration.toNat_lt
  rw [Readings.late_iff]
  omega

theorem timesOutInTime_iff (h : w.Timing readings) (e : LoopEvent) :
    TimesOutInTime text rpcCall doCb readings w e ↔
      ReadsForward rpcCall.timeoutDuration readings w e := by
  cases e with
  | clearRunning =>
    constructor
    · intro _ k hstep
      cases hstep
    · intro _ hbefore hafter
      simp [react, hbefore] at hafter
  | step =>
    simp only [TimesOutInTime, ReadsForward, react]
    by_cases htest : ∃ k, w.phase = .testTimeout k
    · obtain ⟨k, hphase⟩ := htest
      have hbefore : w.timedout = false := by
        simp only [Timing, hphase] at h
        exact h.1
      rw [timedout_step_testTimeout h hphase]
      simp [hphase, hbefore, ← late_of_elapsed_iff]
    · have htest : ∀ k, w.phase ≠ .testTimeout k := fun k hk => htest ⟨k, hk⟩
      rw [timedout_step htest]
      simp_all

end

end WorkLoop

open WorkLoop in
/-- The loop times out in time exactly if the clock has not been set back at any
    reading to a time from which the duration seems to have elapsed. -/
theorem noEarlyTimeout_iff (text : JsonText) (rpcCall : RPCCall σ) (doCb : Bool)
    (readings : Readings) (running : Bool) (startTime : UInt32) (state : σ)
    (events : List LoopEvent) :
    Guarded (TimesOutInTime text rpcCall doCb readings) (react text rpcCall doCb readings)
        (start running startTime state) events ↔
      Guarded (ReadsForward rpcCall.timeoutDuration readings) (react text rpcCall doCb readings)
        (start running startTime state) events := by
  have hkeep : ∀ (w : WorkLoop σ) (e : LoopEvent), w.Timing readings →
      (w.react text rpcCall doCb readings e).Timing readings := fun _ e h => timing_react h e
  have hstart : (start running startTime state).Timing readings := rfl
  exact guarded_congr hkeep (fun _ e h => timesOutInTime_iff h e) hstart events

/-- The clock is set back by a millisecond after the first reading. -/
def setBack : Readings := ⟨fun _ => none, fun k => if k = 0 then 10000 else 9999⟩

open WorkLoop in
theorem setBack_timesOut_early :
    ¬ Guarded (TimesOutInTime healthText Health.healthCall true setBack)
      (react healthText Health.healthCall true setBack) (start false 0 (Process.initial {}))
      (List.replicate 5 .step) := by
  intro h
  obtain ⟨k, hphase, hin⟩ := h.2.2.2.2.1 rfl rfl
  cases hphase
  exact absurd hin (by decide)

end Imq
