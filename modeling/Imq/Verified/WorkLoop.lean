import Imq.Lib.Runs
import Imq.Health
import Imq.RPC.WorkLoop
import Imq.Verified.Response

/-! # What an asynchronous call reports

* `WorkLoop.Move` — the steps of the work loop, by what they do to the callbacks;
* `AsyncResponse.one_outcome_iff` — exactly one callback has been invoked when
  the destructor has returned, exactly if the loop has never found `running_`
  cleared;
* `AsyncResponse.exists_awaitOutcome` — the response does to the process what
  `Health.awaitOutcome` does in one step.
-/

namespace Imq

open Lib

variable {σ : Type}

def Invocation.argument : Invocation → Json
  | message response => response
  | timeout error => error

/-- The loop has been left. -/
@[simp] def LoopPhase.isOver : LoopPhase → Bool
  | returned | thrown _ => true
  | _ => false

/-- The test of `running_` comes next. -/
@[simp] def LoopPhase.isTest : LoopPhase → Bool
  | testRunning _ => true
  | _ => false

namespace WorkLoop

@[simp] theorem goTo_phase (w : WorkLoop σ) (phase : LoopPhase) : (w.goTo phase).phase = phase := rfl

@[simp] theorem goTo_state (w : WorkLoop σ) (phase : LoopPhase) : (w.goTo phase).state = w.state :=
  rfl

@[simp] theorem goTo_invoked (w : WorkLoop σ) (phase : LoopPhase) :
    (w.goTo phase).invoked = w.invoked := rfl

section

variable (text : JsonText) (rpcCall : RPCCall σ) (readings : Readings)

/-- A step of the loop with callbacks, by cases. -/
inductive Move (w : WorkLoop σ) : WorkLoop σ → Prop where
  | silent {w' : WorkLoop σ} (before : w.phase.isOver = false) (after : w'.phase.isOver = false)
      (test : w.phase.isTest = true → w.running = true) (state : w'.state = w.state)
      (invoked : w'.invoked = w.invoked) : Move w w'
  | stopped {k : Nat} (test : w.phase = .testRunning k) (cleared : w.running = false) :
      Move w (w.goTo .returned)
  | message (next : w.phase = .messageCallback) :
      Move w (w.callBack .message (RPCResponse.doMessageCallback text rpcCall w.receivedMessage))
  | timeout (next : w.phase = .timeoutCallback) :
      Move w (w.callBack .timeout (RPCResponse.doTimeoutCallback rpcCall))
  | idle (ended : w.phase.isOver = true) : Move w w

theorem move_step (w : WorkLoop σ) : Move text rpcCall w (w.step text rpcCall true readings) := by
  cases hphase : w.phase with
  | storeRunning =>
    simp only [step, hphase]
    exact .silent (by simp [hphase]) rfl (by simp [hphase]) rfl rfl
  | readStartTime =>
    simp only [step, hphase]
    exact .silent (by simp [hphase]) rfl (by simp [hphase]) rfl rfl
  | testRunning k =>
    simp only [step, hphase]
    cases hrunning : w.running with
    | true => exact .silent (by simp [hphase]) rfl (fun _ => hrunning) rfl rfl
    | false => exact .stopped hphase hrunning
  | receive k =>
    simp only [step, hphase]
    cases readings.poll k with
    | some message =>
      exact .silent (by simp [hphase]) rfl (by simp [hphase]) rfl rfl
    | none => exact .silent (by simp [hphase]) rfl (by simp [hphase]) rfl rfl
  | testTimeout k =>
    simp only [step, hphase]
    split
    · exact .silent (by simp [hphase]) rfl (by simp [hphase]) rfl rfl
    · exact .silent (by simp [hphase]) rfl (by simp [hphase]) rfl rfl
  | messageCallback =>
    simp only [step, hphase]
    exact .message hphase
  | timeoutCallback =>
    simp only [step, hphase]
    exact .timeout hphase
  | returned =>
    simp only [step, hphase]
    exact .idle (by simp [hphase])
  | thrown e =>
    simp only [step, hphase]
    exact .idle (by simp [hphase])

/-- How a loop that has returned has dealt with the callbacks, from the state
    that it was started in. -/
inductive Concluded (state₀ : σ) (w : WorkLoop σ) : Prop where
  | silent (state : w.state = state₀) (invoked : w.invoked = [])
  | message {message : Message} {given : Option Json}
      (ran : (RPCResponse.doMessageCallback text rpcCall message).run state₀ = .ok given w.state)
      (invoked : w.invoked = given.toList.map .message)
  | timeout {given : Option Json}
      (ran : (RPCResponse.doTimeoutCallback rpcCall).run state₀ = .ok given w.state)
      (invoked : w.invoked = given.toList.map .timeout)

structure Inv (state₀ : σ) (w : WorkLoop σ) : Prop where
  untouched : w.phase.isOver = false → w.state = state₀ ∧ w.invoked = []
  concluded : w.phase = .returned → Concluded text rpcCall state₀ w

end

variable {text : JsonText} {rpcCall : RPCCall σ} {w w' : WorkLoop σ} {state₀ : σ}

/-- What a callback leaves: the loop has returned and the callback is recorded,
    or the exception is kept. -/
theorem callBack_cases (w : WorkLoop σ) (kind : Json → Invocation)
    (callback : EStateM Exn σ (Option Json)) :
    (∃ given state, callback.run w.state = .ok given state ∧ (w.callBack kind callback).state = state ∧
      (w.callBack kind callback).invoked = w.invoked ++ given.toList.map kind ∧
      (w.callBack kind callback).phase = .returned) ∨
    ∃ e, (w.callBack kind callback).phase = .thrown e := by
  cases hrun : callback.run w.state with
  | ok given state =>
    refine .inl ⟨given, state, rfl, ?_⟩
    simp only [callBack, hrun]
    exact ⟨trivial, trivial, trivial⟩
  | error e state =>
    refine .inr ⟨e, ?_⟩
    simp only [callBack, hrun]

theorem inv_callBack {kind : Json → Invocation} {callback : EStateM Exn σ (Option Json)}
    (untouched : w.state = state₀ ∧ w.invoked = [])
    (concluded : ∀ given, callback.run state₀ = .ok given (w.callBack kind callback).state →
      (w.callBack kind callback).invoked = given.toList.map kind →
      Concluded text rpcCall state₀ (w.callBack kind callback)) :
    Inv text rpcCall state₀ (w.callBack kind callback) := by
  obtain ⟨hstate, hinvoked⟩ := untouched
  obtain ⟨given, state, hrun, hs, hi, hphase⟩ | ⟨e, hphase⟩ := callBack_cases w kind callback
  · rw [hstate, ← hs] at hrun
    rw [hinvoked, List.nil_append] at hi
    exact ⟨fun hover => by simp [hphase] at hover, fun _ => concluded given hrun hi⟩
  · exact ⟨fun hover => by simp [hphase] at hover, fun hreturned => by simp [hphase] at hreturned⟩

theorem inv_move (h : Inv text rpcCall state₀ w) (move : Move text rpcCall w w') :
    Inv text rpcCall state₀ w' := by
  cases move with
  | silent before after test state invoked =>
    obtain ⟨hstate, hinvoked⟩ := h.untouched before
    refine ⟨fun _ => ⟨state.trans hstate, invoked.trans hinvoked⟩, fun hreturned => ?_⟩
    simp [hreturned] at after
  | stopped test cleared =>
    obtain ⟨hstate, hinvoked⟩ := h.untouched (by simp [test])
    exact ⟨fun hover => by simp at hover, fun _ => .silent hstate hinvoked⟩
  | message next =>
    apply inv_callBack (h.untouched (by simp [next]))
    intro given hrun hinvoked
    exact .message hrun hinvoked
  | timeout next =>
    apply inv_callBack (h.untouched (by simp [next]))
    intro given hrun hinvoked
    exact .timeout hrun hinvoked
  | idle => exact h

/-! ### One callback -/

/-- A loop that has returned has invoked one callback. -/
def Reported (w : WorkLoop σ) : Prop := w.phase = .returned → w.invoked.length = 1

/-- If the next step is the test of `running_`, it reads true. -/
def TestsTrue (w : WorkLoop σ) : Prop := w.phase.isTest = true → w.running = true

instance (w : WorkLoop σ) : Decidable w.TestsTrue := inferInstanceAs (Decidable (_ → _))

/-- A callback that has run has been given something. -/
theorem given_of_run {j : Except Exn Json} {callback : Json → EStateM Exn σ Unit} {s s' : σ}
    {given : Option Json}
    (h : (do
      let given ← Cpp.ofExcept j
      callback given
      return some given : EStateM Exn σ (Option Json)).run s = .ok given s') :
    given.isSome = true := by
  cases j with
  | error e =>
    rw [Cpp.run_bind_error (Cpp.run_ofExcept_error e s)] at h
    cases h
  | ok j =>
    rw [Cpp.run_bind_ok (Cpp.run_ofExcept_ok j s)] at h
    cases hrun : (callback j).run s with
    | error e s₁ =>
      rw [Cpp.run_bind_error hrun] at h
      cases h
    | ok a s₁ =>
      rw [Cpp.run_bind_ok hrun] at h
      cases h
      rfl

theorem given_doMessageCallback {message : Message} {s s' : σ} {given : Option Json}
    (isSet : rpcCall.messageReceiptCallback.isSome = true)
    (h : (RPCResponse.doMessageCallback text rpcCall message).run s = .ok given s') :
    given.isSome = true := by
  obtain ⟨callback, hcallback⟩ := Option.isSome_iff_exists.mp isSet
  simp only [RPCResponse.doMessageCallback, hcallback] at h
  exact given_of_run h

theorem given_doTimeoutCallback {s s' : σ} {given : Option Json}
    (isSet : rpcCall.timeoutCallback.isSome = true)
    (h : (RPCResponse.doTimeoutCallback rpcCall).run s = .ok given s') : given.isSome = true := by
  obtain ⟨callback, hcallback⟩ := Option.isSome_iff_exists.mp isSet
  simp only [RPCResponse.doTimeoutCallback, hcallback] at h
  exact given_of_run h

/-- A callback that is given something is the one callback of the loop. -/
theorem reported_callBack {kind : Json → Invocation} {callback : EStateM Exn σ (Option Json)}
    (fresh : w.invoked = [])
    (gives : ∀ given s', callback.run w.state = .ok given s' → given.isSome = true) :
    (w.callBack kind callback).Reported := by
  intro hreturned
  obtain ⟨given, state, hrun, _, hinvoked, _⟩ | ⟨e, hthrown⟩ := callBack_cases w kind callback
  · obtain ⟨j, rfl⟩ := Option.isSome_iff_exists.mp (gives given state hrun)
    simp [hinvoked, fresh]
  · simp [hthrown] at hreturned

theorem reported_move_iff (messageSet : rpcCall.messageReceiptCallback.isSome = true)
    (timeoutSet : rpcCall.timeoutCallback.isSome = true) (h : Inv text rpcCall state₀ w)
    (reported : w.Reported) (move : Move text rpcCall w w') : w'.Reported ↔ w.TestsTrue := by
  cases move with
  | silent before after test state invoked =>
    exact ⟨fun _ => test, fun _ hreturned => by simp [hreturned] at after⟩
  | @stopped k test cleared =>
    obtain ⟨_, hinvoked⟩ := h.untouched (by simp [test])
    constructor
    · intro hreported
      have hone : w.invoked.length = 1 := hreported rfl
      simp [hinvoked] at hone
    · intro htest
      simp [htest (by simp [test])] at cleared
  | message next =>
    obtain ⟨_, hinvoked⟩ := h.untouched (by simp [next])
    exact ⟨fun _ htest => by simp [next] at htest,
      fun _ => reported_callBack hinvoked fun _ _ hrun => given_doMessageCallback messageSet hrun⟩
  | timeout next =>
    obtain ⟨_, hinvoked⟩ := h.untouched (by simp [next])
    exact ⟨fun _ htest => by simp [next] at htest,
      fun _ => reported_callBack hinvoked fun _ _ hrun => given_doTimeoutCallback timeoutSet hrun⟩
  | idle ended =>
    refine ⟨fun _ htest => ?_, fun _ => reported⟩
    cases hphase : w.phase <;> simp [hphase] at ended htest

theorem step_of_returned {doCb : Bool} {readings : Readings} (h : w.phase = .returned) :
    w.step text rpcCall doCb readings = w := by
  simp [step, h]

end WorkLoop

/-! ## The thread and the destructor -/

namespace AsyncResponse

/-- If the next step of the thread is its test of `running_`, it reads true. -/
def TestsTrue (s : AsyncResponse σ) : ResponseStep → Prop
  | .thread => s.loop.TestsTrue
  | .destructor => True

instance (s : AsyncResponse σ) (l : ResponseStep) : Decidable (s.TestsTrue l) :=
  match l with
  | .thread => inferInstanceAs (Decidable s.loop.TestsTrue)
  | .destructor => .isTrue trivial

variable (text : JsonText) (rpcCall : RPCCall σ) (readings : Readings)

theorem step_thread (async : rpcCall.async = true) (s : AsyncResponse σ) :
    step text rpcCall readings s .thread =
      { s with loop := s.loop.step text rpcCall true readings } := by
  simp [step, async]

/-- The destructor changes nothing of the loop but `running_`. -/
theorem loop_destructor (s : AsyncResponse σ) :
    ∃ running, (step text rpcCall readings s .destructor).loop =
      { s.loop with running := running } := by
  cases hphase : s.destructor with
  | clearRunning => exact ⟨false, by simp [step, hphase]⟩
  | join =>
    refine ⟨s.loop.running, ?_⟩
    simp only [step, hphase]
    split <;> rfl
  | returned => exact ⟨s.loop.running, by simp [step, hphase]⟩

variable {text rpcCall readings} {s : AsyncResponse σ} {state₀ : σ}

theorem inv_step (async : rpcCall.async = true) (h : s.loop.Inv text rpcCall state₀)
    (l : ResponseStep) : (step text rpcCall readings s l).loop.Inv text rpcCall state₀ := by
  cases l with
  | thread =>
    rw [step_thread text rpcCall readings async]
    exact WorkLoop.inv_move h (WorkLoop.move_step text rpcCall readings s.loop)
  | destructor =>
    obtain ⟨running, hloop⟩ := loop_destructor text rpcCall readings s
    rw [hloop]
    refine ⟨h.untouched, fun hreturned => ?_⟩
    cases h.concluded hreturned with
    | silent state invoked => exact .silent state invoked
    | message ran invoked => exact .message ran invoked
    | timeout ran invoked => exact .timeout ran invoked

/-- The destructor has waited for the thread. -/
theorem joined_step (async : rpcCall.async = true)
    (h : s.destructor = .returned → s.loop.phase = .returned) (l : ResponseStep)
    (returned : (step text rpcCall readings s l).destructor = .returned) :
    (step text rpcCall readings s l).loop.phase = .returned := by
  cases l with
  | thread =>
    rw [step_thread text rpcCall readings async] at returned ⊢
    simp [WorkLoop.step_of_returned (h returned), h returned]
  | destructor =>
    cases hphase : s.destructor with
    | clearRunning => simp [step, hphase] at returned
    | join =>
      by_cases hended : s.loop.phase = .returned
      · simp [step, hphase, hended]
      · simp [step, hphase, async, hended] at returned
    | returned => simpa [step, hphase] using h hphase

theorem reported_of_step (l : ResponseStep)
    (reported : (step text rpcCall readings s l).loop.Reported) : s.loop.Reported := by
  intro hreturned
  cases l with
  | thread =>
    have hsame : (step text rpcCall readings s .thread).loop = s.loop := by
      simp only [step, WorkLoop.step_of_returned hreturned]
      split <;> rfl
    rw [hsame] at reported
    exact reported hreturned
  | destructor =>
    obtain ⟨running, hloop⟩ := loop_destructor text rpcCall readings s
    rw [hloop] at reported
    exact reported hreturned

theorem reported_step_iff (async : rpcCall.async = true)
    (messageSet : rpcCall.messageReceiptCallback.isSome = true)
    (timeoutSet : rpcCall.timeoutCallback.isSome = true) (h : s.loop.Inv text rpcCall state₀)
    (reported : s.loop.Reported) (l : ResponseStep) :
    (step text rpcCall readings s l).loop.Reported ↔ TestsTrue s l := by
  cases l with
  | thread =>
    rw [step_thread text rpcCall readings async]
    exact WorkLoop.reported_move_iff messageSet timeoutSet h reported
      (WorkLoop.move_step text rpcCall readings s.loop)
  | destructor =>
    obtain ⟨running, hloop⟩ := loop_destructor text rpcCall readings s
    rw [hloop]
    exact ⟨fun _ => trivial, fun _ => reported⟩

section

variable (async : rpcCall.async = true) (running : Bool) (startTime : UInt32) (state : σ)

include async

theorem inv_exec (run : List ResponseStep) :
    (exec (step text rpcCall readings) (construct running startTime state) run).loop.Inv text rpcCall
      state := by
  have hkeep : ∀ (s : AsyncResponse σ) (l : ResponseStep), s.loop.Inv text rpcCall state →
      (step text rpcCall readings s l).loop.Inv text rpcCall state :=
    fun _ l h => inv_step async h l
  have hstart : (construct running startTime state).loop.Inv text rpcCall state :=
    ⟨fun _ => ⟨rfl, rfl⟩, fun hr => by cases hr⟩
  exact exec_invariant hkeep hstart run

theorem joined_exec (run : List ResponseStep)
    (returned : (exec (step text rpcCall readings) (construct running startTime state)
      run).destructor = .returned) :
    (exec (step text rpcCall readings) (construct running startTime state) run).loop.phase =
      .returned := by
  have hkeep : ∀ (s : AsyncResponse σ) (l : ResponseStep),
      (s.destructor = .returned → s.loop.phase = .returned) →
      (step text rpcCall readings s l).destructor = .returned →
      (step text rpcCall readings s l).loop.phase = .returned :=
    fun _ l h => joined_step async h l
  have hstart : (construct running startTime state).destructor = .returned →
      (construct running startTime state).loop.phase = .returned := fun h => by cases h
  exact exec_invariant hkeep hstart run returned

end

/-- For an asynchronous call with both callbacks set, and in every interleaving
    of the thread with the destructor: when the destructor has returned, one
    callback has been invoked, and once, exactly if no test of `running_` has
    read false. -/
theorem one_outcome_iff (async : rpcCall.async = true)
    (messageSet : rpcCall.messageReceiptCallback.isSome = true)
    (timeoutSet : rpcCall.timeoutCallback.isSome = true) (running : Bool) (startTime : UInt32)
    (state : σ) {run : List ResponseStep}
    (returned : (exec (step text rpcCall readings) (construct running startTime state)
      run).destructor = .returned) :
    (exec (step text rpcCall readings) (construct running startTime state)
      run).loop.invoked.length = 1 ↔
    Guarded TestsTrue (step text rpcCall readings) (construct running startTime state) run := by
  have hinv : (construct running startTime state).loop.Inv text rpcCall state :=
    ⟨fun _ => ⟨rfl, rfl⟩, fun hr => by cases hr⟩
  have hreported : (construct running startTime state).loop.Reported := fun hr => by cases hr
  have hkeep : ∀ (s : AsyncResponse σ) (l : ResponseStep), s.loop.Inv text rpcCall state → True →
      (step text rpcCall readings s l).loop.Inv text rpcCall state :=
    fun _ l h _ => inv_step async h l
  have hexact : ∀ (s : AsyncResponse σ) (l : ResponseStep), s.loop.Inv text rpcCall state → True →
      s.loop.Reported → ((step text rpcCall readings s l).loop.Reported ↔ TestsTrue s l) :=
    fun _ l h _ reported => reported_step_iff async messageSet timeoutSet h reported l
  have halways : Always (fun s => s.loop.Reported) (step text rpcCall readings)
        (construct running startTime state) run ↔
      Guarded TestsTrue (step text rpcCall readings) (construct running startTime state) run :=
    always_iff_guarded hkeep hexact hinv hreported (guarded_of_forall fun _ _ _ => trivial)
  rw [← halways]
  constructor
  · intro hone
    -- A loop that has returned stays as it is.
    exact always_of_last (fun _ l => reported_of_step l) fun _ => hone
  · intro h
    exact h.last (joined_exec async running startTime state run returned)

/-- When the destructor has returned, the response has done to the process what
    `awaitOutcome` does in one step, for one of the three outcomes. -/
theorem exists_awaitOutcome {rpcCall : RPCCall Process} (async : rpcCall.async = true)
    (running : Bool) (startTime : UInt32) (p : Process) {run : List ResponseStep}
    (returned : (exec (step text rpcCall readings) (construct running startTime p)
      run).destructor = .returned) :
    ∃ outcome given, (Health.awaitOutcome text rpcCall outcome).run p = .ok given
        (exec (step text rpcCall readings) (construct running startTime p) run).loop.state ∧
      (exec (step text rpcCall readings) (construct running startTime p) run).loop.invoked.map
        Invocation.argument = given.toList := by
  have hconcluded := (inv_exec async running startTime p run).concluded
    (joined_exec async running startTime p run returned)
  cases hconcluded with
  | silent state invoked => exact ⟨.neither, none, by rw [state]; rfl, by simp [invoked]⟩
  | @message message given ran invoked =>
    refine ⟨.answered message, given, ran, ?_⟩
    cases given <;> simp [invoked, Invocation.argument]
  | @timeout given ran invoked =>
    refine ⟨.timedOut, given, ran, ?_⟩
    cases given <;> simp [invoked, Invocation.argument]

/-- No message comes, and every reading of the clock is later by the default
    timeout. -/
def silence : Readings := ⟨fun _ => none, fun k => 3000 * k⟩

/-- The destructor comes between the last test and the callback. -/
theorem one_outcome_lateStop :
    (exec (step healthText Health.healthCall silence) (construct false 0 (Process.initial {}))
      [.thread, .thread, .thread, .thread, .destructor, .thread, .thread,
        .destructor]).loop.invoked.length = 1 :=
  (one_outcome_iff rfl rfl rfl false 0 (Process.initial {}) (by rfl)).mpr
    (by decide)

/-- A call that is answered at once, with the answer of the health check. -/
def promptAnswer : Readings := ⟨fun _ => some ["\x7b\"health\":1\x7d"], fun _ => 0⟩

/-- The destructor comes before the first test: no callback is ever invoked. -/
theorem no_outcome_earlyStop :
    Health.healthCall.async = true ∧ promptAnswer.poll 0 ≠ none ∧
      (exec (step healthText Health.healthCall promptAnswer)
        (construct false 0 (Process.initial {}))
        [.thread, .destructor, .thread, .thread, .destructor]).destructor = .returned ∧
      (exec (step healthText Health.healthCall promptAnswer)
        (construct false 0 (Process.initial {}))
        [.thread, .destructor, .thread, .thread, .destructor]).loop.invoked.length = 0 :=
  ⟨rfl, by simp [promptAnswer], rfl, rfl⟩

end AsyncResponse

end Imq
