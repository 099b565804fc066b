import Imq.Lib.Runs
import Imq.RPC.Server

/-! # How many server threads there are

* `RPCServer.Quiet`, `RPCServer.Busy` — no thread is left to be joined, or there is
  one, which `server_thread_` points to;
* `RPCServer.inv_step` — steps lead from one to the other, as long as no `Run`
  tests `running_` before the thread has set it;
* `RPCServer.one_server_thread` — so there is never a second thread, and such a
  `Run` starts one.
-/

namespace Imq

open Lib

/-- The thread has been started and not yet been joined. -/
def ServerPhase.isUnjoined : ServerPhase → Bool
  | notStarted | joined => false
  | event _ | storeRunning | proxy | returned => true

/-- The thread has been started and has not made its store to `running_` yet. -/
def ServerPhase.beforeStore : ServerPhase → Bool
  | event _ | storeRunning => true
  | notStarted | proxy | returned | joined => false

/-- What the thread has done so far. -/
def ServerPhase.done : ServerPhase → List ServerEvent
  | notStarted | event .bindSocket => []
  | event .bindIPCSocket => [.bindSocket]
  | event .startWorkerPool => [.bindSocket, .bindIPCSocket]
  | storeRunning | proxy | returned | joined => [.bindSocket, .bindIPCSocket, .startWorkerPool]

/-- `Stop` has cleared `running_` and not yet returned. -/
def ServerCallerPhase.isStopping : ServerCallerPhase → Bool
  | testServerThread | stopWorkerPool | join | resetServerThread => true
  | idle | testRunning | startThread | clearRunning => false

theorem ServerPhase.isUnjoined_of_beforeStore {phase : ServerPhase} (h : phase.beforeStore = true) :
    phase.isUnjoined = true := by
  cases phase <;> simp_all [beforeStore, isUnjoined]

theorem ServerPhase.nodup_done (phase : ServerPhase) : phase.done.Nodup := by
  cases phase with
  | event e => cases e <;> decide
  | _ => decide

namespace RPCServer

/-- At most one thread has been started and not yet been joined, and since the last
    `Stop` the sockets have been bound and the worker pool been started at most once. -/
structure OneThread (s : RPCServer) : Prop where
  unique : ∀ i j, (s.threads i).isUnjoined = true → (s.threads j).isUnjoined = true → i = j
  once : s.sinceStop.Nodup

/-- `Run` tests `running_` only after every thread started before has set it. -/
def TestsAfterStore (s : RPCServer) (l : ServerStep) : Prop :=
  l = .caller → s.terminated = none → s.caller = .testRunning →
    ∀ i, (s.threads i).beforeStore = false

/-! ## The invariant -/

/-- Every thread has been joined. -/
structure Quiet (s : RPCServer) : Prop where
  fresh : ∀ j, s.started ≤ j → s.threads j = .notStarted
  joined : ∀ j, (s.threads j).isUnjoined = false
  starting : s.caller = .startThread → s.running = false
  since : s.caller ≠ .resetServerThread → s.sinceStop = []
  once : s.sinceStop.Nodup

/-- Thread `i` is the one that has not been joined. -/
structure Busy (i : Nat) (s : RPCServer) : Prop where
  fresh : ∀ j, s.started ≤ j → s.threads j = .notStarted
  unjoined : (s.threads i).isUnjoined = true
  others : ∀ j, j ≠ i → (s.threads j).isUnjoined = false
  pointed : s.serverThread = some i
  notStarting : s.caller ≠ .startThread
  notResetting : s.caller ≠ .resetServerThread
  waiting : (s.threads i).beforeStore = true → s.running = false
  serving : (s.threads i).beforeStore = false → s.caller.isStopping = false → s.running = true
  since : s.sinceStop = (s.threads i).done

def Inv (s : RPCServer) : Prop := s.Quiet ∨ ∃ i, s.Busy i

theorem Quiet.oneThread {s : RPCServer} (h : s.Quiet) : s.OneThread where
  unique i j hi := by simp [h.joined i] at hi
  once := h.once

theorem Busy.oneThread {s : RPCServer} {i : Nat} (h : s.Busy i) : s.OneThread where
  unique j k hj hk := by
    have heq : ∀ j, (s.threads j).isUnjoined = true → j = i := by
      intro j hj
      by_contra hne
      simp [h.others j hne] at hj
    rw [heq j hj, heq k hk]
  once := by
    rw [h.since]
    exact ServerPhase.nodup_done _

theorem Inv.oneThread {s : RPCServer} (h : s.Inv) : s.OneThread := by
  obtain hquiet | ⟨i, hbusy⟩ := h
  · exact hquiet.oneThread
  · exact hbusy.oneThread

/-! ## One step -/

section

variable {s : RPCServer} {i : Nat}

@[simp] theorem goTo_threads_self (s : RPCServer) (i : Nat) (phase : ServerPhase) :
    (s.goTo i phase).threads i = phase := Function.update_self ..

theorem goTo_threads_of_ne (s : RPCServer) (phase : ServerPhase) {j : Nat} (h : j ≠ i) :
    (s.goTo i phase).threads j = s.threads j := Function.update_of_ne h ..

@[simp] theorem goTo_started (s : RPCServer) (i : Nat) (phase : ServerPhase) :
    (s.goTo i phase).started = s.started := rfl

@[simp] theorem goTo_running (s : RPCServer) (i : Nat) (phase : ServerPhase) :
    (s.goTo i phase).running = s.running := rfl

@[simp] theorem goTo_caller (s : RPCServer) (i : Nat) (phase : ServerPhase) :
    (s.goTo i phase).caller = s.caller := rfl

@[simp] theorem goTo_sinceStop (s : RPCServer) (i : Nat) (phase : ServerPhase) :
    (s.goTo i phase).sinceStop = s.sinceStop := rfl

/-- A thread that has been started may go on without a trace in those that have not. -/
theorem fresh_goTo (s : RPCServer) (phase : ServerPhase) (hlt : i < s.started)
    (fresh : ∀ j, s.started ≤ j → s.threads j = .notStarted) (j : Nat)
    (hj : (s.goTo i phase).started ≤ j) : (s.goTo i phase).threads j = .notStarted := by
  rw [goTo_started] at hj
  rw [goTo_threads_of_ne s phase (by omega)]
  exact fresh j hj

theorem Busy.lt_started (h : s.Busy i) : i < s.started := by
  by_contra hle
  have hunjoined := h.unjoined
  simp [h.fresh i (by omega), ServerPhase.isUnjoined] at hunjoined

theorem Busy.goTo (h : s.Busy i) {phase : ServerPhase} {running workerPoolRunning : Bool}
    {sinceStop : List ServerEvent} (unjoined : phase.isUnjoined = true)
    (waiting : phase.beforeStore = true → running = false)
    (serving : phase.beforeStore = false → s.caller.isStopping = false → running = true)
    (since : sinceStop = phase.done) :
    Busy i (RPCServer.goTo { s with
      running := running
      workerPoolRunning := workerPoolRunning
      sinceStop := sinceStop } i phase) := by
  constructor
  · exact fresh_goTo _ phase h.lt_started h.fresh
  · simpa using unjoined
  · intro j hj
    rw [goTo_threads_of_ne _ phase hj]
    exact h.others j hj
  · exact h.pointed
  · exact h.notStarting
  · exact h.notResetting
  · simpa using waiting
  · simpa using serving
  · simpa using since

theorem Busy.withCaller (h : s.Busy i) {running workerPoolRunning : Bool}
    {caller : ServerCallerPhase} (notStarting : caller ≠ .startThread)
    (notResetting : caller ≠ .resetServerThread)
    (waiting : (s.threads i).beforeStore = true → running = false)
    (serving : (s.threads i).beforeStore = false → caller.isStopping = false → running = true) :
    Busy i { s with
      running := running
      workerPoolRunning := workerPoolRunning
      caller := caller } :=
  ⟨h.fresh, h.unjoined, h.others, h.pointed, notStarting, notResetting, waiting, serving, h.since⟩

theorem Quiet.withCaller (h : s.Quiet) {running workerPoolRunning : Bool}
    {caller : ServerCallerPhase} (starting : caller = .startThread → running = false)
    (notResetting : s.caller ≠ .resetServerThread) :
    Quiet { s with
      running := running
      workerPoolRunning := workerPoolRunning
      caller := caller } :=
  ⟨h.fresh, h.joined, starting, fun _ => h.since notResetting, h.once⟩

variable (throws : Nat → ServerEvent → Option Exn)

theorem threadStep_of_joined (h : (s.threads i).isUnjoined = false) :
    s.threadStep throws i = s := by
  cases hphase : s.threads i <;> simp_all [threadStep, ServerPhase.isUnjoined]

theorem Busy.terminate (h : s.Busy i) (terminated : Option Exn) :
    Busy i { s with terminated := terminated } :=
  ⟨h.fresh, h.unjoined, h.others, h.pointed, h.notStarting, h.notResetting, h.waiting, h.serving,
    h.since⟩

theorem Busy.threadStep (h : s.Busy i) : (s.threadStep throws i).Busy i := by
  have hwaiting := h.waiting
  have hserving := h.serving
  have hsince := h.since
  cases hphase : s.threads i with
  | event e =>
    cases hthrows : throws i e with
    | some exn =>
      simp only [RPCServer.threadStep, hphase, hthrows]
      exact h.terminate (some exn)
    | none =>
      simp only [RPCServer.threadStep, hphase, hthrows]
      rw [hphase] at hwaiting hsince
      apply h.goTo
      · cases e <;> rfl
      · intro _
        exact hwaiting rfl
      · intro hstored
        cases e <;> cases hstored
      · cases e <;> simp [hsince, ServerEvent.next, ServerPhase.done]
  | storeRunning =>
    simp only [RPCServer.threadStep, hphase]
    rw [hphase] at hsince
    exact h.goTo rfl (by simp [ServerPhase.beforeStore]) (fun _ _ => rfl) hsince
  | proxy =>
    simp only [RPCServer.threadStep, hphase]
    rw [hphase] at hserving hsince
    exact h.goTo rfl (by simp [ServerPhase.beforeStore]) hserving hsince
  | notStarted => simpa only [RPCServer.threadStep, hphase] using h
  | returned => simpa only [RPCServer.threadStep, hphase] using h
  | joined => simpa only [RPCServer.threadStep, hphase] using h

theorem Busy.join (h : s.Busy i) :
    Quiet (RPCServer.goTo { s with caller := .resetServerThread } i .joined) := by
  constructor
  · exact fresh_goTo _ .joined h.lt_started h.fresh
  · intro j
    by_cases hj : j = i
    · simp [hj, ServerPhase.isUnjoined]
    · rw [goTo_threads_of_ne _ .joined hj]
      exact h.others j hj
  · simp
  · simp
  · exact h.oneThread.once

theorem Quiet.startThread (h : s.Quiet) (starting : s.caller = .startThread) :
    Busy s.started (RPCServer.goTo { s with
      serverThread := some s.started
      started := s.started + 1
      caller := .idle } s.started (.event .bindSocket)) := by
  have hsince : s.sinceStop = [] := h.since (by simp [starting])
  constructor
  · apply fresh_goTo
    · simp
    · intro j hj
      exact h.fresh j (Nat.le_of_succ_le hj)
  · simp [ServerPhase.isUnjoined]
  · intro j hj
    rw [goTo_threads_of_ne _ _ hj]
    exact h.joined j
  · rfl
  · simp
  · simp
  · intro _
    exact h.starting starting
  · simp [ServerPhase.beforeStore]
  · simpa [ServerPhase.done] using hsince

/-- A thread that is left to be joined lets `Run` go by, once it has set `running_`,
    and `Stop` wait. -/
theorem Busy.callerStep (h : s.Busy i)
    (stored : s.caller = .testRunning → (s.threads i).beforeStore = false) : s.callerStep.Inv := by
  cases hcaller : s.caller with
  | idle =>
    simp only [RPCServer.callerStep, hcaller]
    exact .inr ⟨i, h⟩
  | testRunning =>
    -- The thread has set the flag, and no `Stop` has cleared it since.
    have hrunning : s.running = true := h.serving (stored hcaller) (by rw [hcaller]; rfl)
    have hstep : s.callerStep = { s with caller := .idle } := by
      simp [RPCServer.callerStep, hcaller, hrunning]
    rw [hstep]
    exact .inr ⟨i, h.withCaller (by simp) (by simp) h.waiting fun _ _ => hrunning⟩
  | startThread => exact absurd hcaller h.notStarting
  | clearRunning =>
    simp only [RPCServer.callerStep, hcaller]
    refine .inr ⟨i, h.withCaller (by simp) (by simp) (fun _ => rfl) ?_⟩
    simp [ServerCallerPhase.isStopping]
  | testServerThread =>
    have hstep : s.callerStep = { s with caller := .stopWorkerPool } := by
      simp [RPCServer.callerStep, hcaller, h.pointed]
    rw [hstep]
    refine .inr ⟨i, h.withCaller (by simp) (by simp) h.waiting ?_⟩
    simp [ServerCallerPhase.isStopping]
  | stopWorkerPool =>
    simp only [RPCServer.callerStep, hcaller]
    refine .inr ⟨i, h.withCaller (by simp) (by simp) h.waiting ?_⟩
    simp [ServerCallerPhase.isStopping]
  | join =>
    simp only [RPCServer.callerStep, hcaller, h.pointed]
    by_cases hreturned : s.threads i = .returned
    · rw [if_pos hreturned]
      -- The one thread that is left is the one that is joined.
      have hquiet := h.join
      simp only [h.pointed] at hquiet
      exact .inl hquiet
    · rw [if_neg hreturned]
      exact .inr ⟨i, h⟩
  | resetServerThread => exact absurd hcaller h.notResetting

theorem Quiet.callerStep (h : s.Quiet) : s.callerStep.Inv := by
  cases hcaller : s.caller with
  | idle =>
    simp only [RPCServer.callerStep, hcaller]
    exact .inl h
  | testRunning =>
    simp only [RPCServer.callerStep, hcaller]
    refine .inl (h.withCaller ?_ (by simp [hcaller]))
    cases s.running <;> simp
  | startThread =>
    -- Nothing is left to be joined, so that this thread is the only one.
    simp only [RPCServer.callerStep, hcaller]
    exact .inr ⟨s.started, h.startThread hcaller⟩
  | clearRunning =>
    simp only [RPCServer.callerStep, hcaller]
    exact .inl (h.withCaller (fun _ => rfl) (by simp [hcaller]))
  | testServerThread =>
    simp only [RPCServer.callerStep, hcaller]
    refine .inl (h.withCaller ?_ (by simp [hcaller]))
    cases s.serverThread <;> simp
  | stopWorkerPool =>
    simp only [RPCServer.callerStep, hcaller]
    exact .inl (h.withCaller (by simp) (by simp [hcaller]))
  | join =>
    -- There is no thread to join, so that nothing happens.
    have hstep : s.callerStep = s := by
      simp only [RPCServer.callerStep, hcaller]
      cases s.serverThread with
      | none => rfl
      | some j =>
        have hreturned : s.threads j ≠ .returned := by
          intro hj
          have hjoined := h.joined j
          simp [hj, ServerPhase.isUnjoined] at hjoined
        simp [hreturned]
    rw [hstep]
    exact .inl h
  | resetServerThread =>
    simp only [RPCServer.callerStep, hcaller]
    exact .inl ⟨h.fresh, h.joined, by simp, fun _ => rfl, List.nodup_nil⟩

theorem Inv.begin (h : s.Inv) (call : ServerCall) : (s.begin call).Inv := by
  cases hcaller : s.caller with
  | idle =>
    obtain hquiet | ⟨i, hbusy⟩ := h
    · cases call <;> simp only [RPCServer.begin, hcaller] <;>
        exact .inl (hquiet.withCaller (by simp) (by simp [hcaller]))
    · have hserving : (s.threads i).beforeStore = false → s.running = true :=
        fun hstored => hbusy.serving hstored (by rw [hcaller]; rfl)
      cases call <;> simp only [RPCServer.begin, hcaller] <;>
        exact .inr ⟨i, hbusy.withCaller (by simp) (by simp) hbusy.waiting fun hs _ => hserving hs⟩
  | _ => simpa only [RPCServer.begin, hcaller] using h

theorem Inv.threadStep (h : s.Inv) (i : Nat) : (s.threadStep throws i).Inv := by
  obtain hquiet | ⟨k, hbusy⟩ := h
  · rw [threadStep_of_joined throws (hquiet.joined i)]
    exact .inl hquiet
  · by_cases hi : i = k
    · subst hi
      exact .inr ⟨i, hbusy.threadStep throws⟩
    · rw [threadStep_of_joined throws (hbusy.others i hi)]
      exact .inr ⟨k, hbusy⟩

theorem inv_step (s : RPCServer) (l : ServerStep) (h : s.Inv) (tested : s.TestsAfterStore l) :
    (s.step throws l).Inv := by
  cases hterminated : s.terminated with
  | some e => simpa only [step, hterminated] using h
  | none =>
    cases l with
    | call call =>
      simp only [step, hterminated]
      exact h.begin call
    | thread i =>
      simp only [step, hterminated]
      exact h.threadStep throws i
    | caller =>
      simp only [step, hterminated]
      obtain hquiet | ⟨i, hbusy⟩ := h
      · exact hquiet.callerStep
      · exact hbusy.callerStep fun hcaller => tested rfl hterminated hcaller i

/-- A `Run` that tests too early goes on to start a second thread. -/
theorem not_unique_of_early_test (h : s.Inv) {l : ServerStep} (early : ¬ s.TestsAfterStore l) :
    ¬ ((s.step throws l).step throws .caller).OneThread := by
  simp only [TestsAfterStore, Classical.not_imp, not_forall, Bool.not_eq_false] at early
  obtain ⟨rfl, hterminated, hcaller, i, hbefore⟩ := early
  have hunjoined := ServerPhase.isUnjoined_of_beforeStore hbefore
  obtain hquiet | ⟨k, hbusy⟩ := h
  · simp [hquiet.joined i] at hunjoined
  · have hi : i = k := hbusy.oneThread.unique i k hunjoined hbusy.unjoined
    subst hi
    have hne : i ≠ s.started := Nat.ne_of_lt hbusy.lt_started
    have hfirst : s.step throws .caller = { s with caller := .startThread } := by
      simp [step, hterminated, callerStep, hcaller, hbusy.waiting hbefore]
    have hsecond : (s.step throws .caller).step throws .caller =
        RPCServer.goTo { s with
          serverThread := some s.started
          started := s.started + 1
          caller := .idle } s.started (.event .bindSocket) := by
      rw [hfirst]
      simp [step, hterminated, callerStep]
    rw [hsecond]
    intro hone
    apply hne
    apply hone.unique
    · rw [goTo_threads_of_ne _ _ hne]
      exact hunjoined
    · simp [ServerPhase.isUnjoined]

end

/-! ## Whole runs -/

theorem inv_start (workerPoolRunning : Bool) (serverThread : Option Nat) :
    (start workerPoolRunning serverThread).Inv :=
  .inl ⟨fun _ _ => rfl, fun _ => rfl, fun _ => rfl, fun _ => rfl, List.nodup_nil⟩

/-- In every run of calls that begins with `Run`, and every interleaving with the
    threads: as long as every `Run` tests `running_` after the store of the thread
    before, there is one thread at most.  The first `Run` that does not starts a
    second one with the caller's next step. -/
theorem one_server_thread (throws : Nat → ServerEvent → Option Exn) (workerPoolRunning : Bool)
    (serverThread : Option Nat) (run : List ServerStep) :
    (Guarded TestsAfterStore (step throws) (start workerPoolRunning serverThread) run →
      Always OneThread (step throws) (start workerPoolRunning serverThread) run) ∧
    ∀ l, Guarded TestsAfterStore (step throws) (start workerPoolRunning serverThread) run →
      ¬ TestsAfterStore (exec (step throws) (start workerPoolRunning serverThread) run) l →
      ¬ OneThread (exec (step throws) (start workerPoolRunning serverThread)
        (run ++ [l, .caller])) := by
  have hinv : Guarded TestsAfterStore (step throws) (start workerPoolRunning serverThread) run →
      Always Inv (step throws) (start workerPoolRunning serverThread) run :=
    always_of_guarded (inv_step throws) (inv_start workerPoolRunning serverThread)
  constructor
  · intro tested
    exact (hinv tested).mono fun _ h => h.oneThread
  · intro l tested early
    rw [exec_append, exec_cons, exec_cons, exec_nil]
    exact not_unique_of_early_test throws (hinv tested).last early

/-- `Run` is called twice before the first thread has taken a step: both threads are
    there, and both bind the socket. -/
theorem two_server_threads :
    ((exec (step fun _ _ => none) (start false none)
        [.caller, .caller, .call .run, .caller, .caller]).threads 0).isUnjoined = true ∧
      ((exec (step fun _ _ => none) (start false none)
        [.caller, .caller, .call .run, .caller, .caller]).threads 1).isUnjoined = true ∧
      (exec (step fun _ _ => none) (start false none)
        [.caller, .caller, .call .run, .caller, .caller, .thread 0, .thread 1]).sinceStop =
        [.bindSocket, .bindSocket] :=
  ⟨rfl, rfl, rfl⟩

end RPCServer

end Imq
