import Imq.HealthThread
import Imq.Lib.Runs
import Imq.Verified.Response

/-! # When a stop of the health checker is lost

* `HealthSystem.Settled` — the flag is cleared, and the thread's own store to it
  lies behind: no step undoes this, and the thread can do no more than end the
  pass under way;
* `HealthSystem.stop_kept_iff` — a stop is kept exactly if it comes after the
  thread's store;
* `HealthSystem.Lost` — otherwise the join never returns.
-/

namespace Imq

open Lib

/-- The thread has not made its store to `running_` yet. -/
@[simp] def HealthPhase.beforeStore : HealthPhase → Bool
  | notStarted | storeRunning => true
  | _ => false

/-- `PerformHealthChecks` has been left. -/
@[simp] def HealthPhase.isOver : HealthPhase → Bool
  | returned | thrown _ => true
  | _ => false

/-- How many steps the thread has left to its end once `running_` stays cleared. -/
@[simp] def HealthPhase.remaining : HealthPhase → Nat
  | pass _ => 3
  | sleep _ => 2
  | testRunning _ => 1
  | _ => 0

theorem HealthPhase.remaining_le (phase : HealthPhase) : phase.remaining ≤ 3 := by
  cases phase <;> simp

theorem HealthPhase.isOver_of_remaining {phase : HealthPhase} (behind : phase.beforeStore = false)
    (h : phase.remaining = 0) : phase.isOver = true := by
  cases phase <;> simp_all

/-- `Stop` has made its store to `running_`. -/
@[simp] def CallerPhase.hasStored : CallerPhase → Bool
  | join | returned => true
  | _ => false

namespace HealthSystem

section

variable (text : JsonText) (outcome : Nat → HostAndPort → CallOutcome)

/-- A stop that is not lost: `running_` stays cleared, no pass is begun, and the
    thread comes to its end within three of its steps, so that the join returns. -/
structure StopKept (s : HealthSystem) : Prop where
  cleared : ∀ ls, (exec (step text outcome) s ls).running = false
  noFurtherPass : ∀ ls k, (exec (step text outcome) s ls).thread = .pass k → s.thread = .pass k
  ends : ∀ ls, 3 ≤ ls.count .thread → (exec (step text outcome) s ls).thread.isOver = true
  joins : ∀ ls, (exec (step text outcome) s ls).thread = .returned →
    (exec (step text outcome) s (ls ++ [.caller])).caller = .returned

def KeepsStop (s : HealthSystem) : Prop := s.caller.hasStored = true → s.StopKept text outcome

end

/-- If `Stop` makes its store next, the thread has made its own. -/
def ClearsAfterStore (s : HealthSystem) (l : HealthStep) : Prop :=
  l = .caller → s.caller = .clearRunning → s.thread.beforeStore = false

/-- `Stop` is called after `Run` has started the thread. -/
def Started (s : HealthSystem) : Prop :=
  s.caller = .clearRunning ∨ s.caller.hasStored = true → s.thread ≠ .notStarted

structure Settled (s : HealthSystem) : Prop where
  stored : s.caller.hasStored = true
  cleared : s.running = false
  behind : s.thread.beforeStore = false

/-! ## One step -/

section

variable (text : JsonText) (outcome : Nat → HostAndPort → CallOutcome) {s : HealthSystem}

theorem threadStep_pass {k : Nat} (hthread : s.thread = .pass k) :
    ∃ node thread, s.threadStep text outcome = { s with node := node, thread := thread } ∧
      (thread = .sleep k ∨ ∃ e, thread = .thrown e) := by
  simp only [threadStep, hthread]
  cases (Health.performHealthChecksPass text (outcome k)).run s.node.process with
  | ok events p => exact ⟨_, .sleep k, rfl, .inl rfl⟩
  | error e p => exact ⟨_, .thrown e, rfl, .inr ⟨e, rfl⟩⟩

theorem caller_threadStep : (s.threadStep text outcome).caller = s.caller := by
  cases hthread : s.thread with
  | pass k =>
    obtain ⟨node, thread, hstep, _⟩ := threadStep_pass text outcome hthread
    rw [hstep]
  | _ => simp [threadStep, hthread]

theorem started_threadStep (h : s.Started) : (s.threadStep text outcome).Started := by
  unfold Started at h ⊢
  rw [caller_threadStep]
  intro hcaller
  have hstarted := h hcaller
  cases hthread : s.thread with
  | notStarted => exact absurd hthread hstarted
  | pass k =>
    obtain ⟨node, thread, hstep, rfl | ⟨e, rfl⟩⟩ :=
      threadStep_pass text outcome hthread
    · simp [hstep]
    · simp [hstep]
  | testRunning k => cases hrunning : s.running <;> simp [threadStep, hthread, hrunning]
  | _ => simp [threadStep, hthread]

theorem started_callerStep (h : s.Started) : s.callerStep.Started := by
  unfold Started at h ⊢
  unfold callerStep
  cases hcaller : s.caller with
  | run => cases Health.run.run s.node <;> simp
  | join => by_cases hthread : s.thread = .returned <;> simp_all
  | _ => simp_all

/-- With the flag cleared a step of the thread begins no pass, and is one less to
    its end. -/
theorem threadStep_cases (h : s.Settled) :
    ∃ node thread, s.threadStep text outcome = { s with node := node, thread := thread } ∧
      thread.beforeStore = false ∧ thread.remaining ≤ s.thread.remaining - 1 ∧
      ∀ k, thread ≠ .pass k := by
  have hbehind := h.behind
  cases hthread : s.thread with
  | notStarted => simp [hthread] at hbehind
  | storeRunning => simp [hthread] at hbehind
  | testRunning k =>
    exact ⟨s.node, .returned, by simp [threadStep, hthread, h.cleared], rfl, by simp, by simp⟩
  | pass k =>
    obtain ⟨node, thread, hstep, rfl | ⟨e, rfl⟩⟩ :=
      threadStep_pass text outcome hthread
    · exact ⟨node, _, hstep, rfl, by simp, by simp⟩
    · exact ⟨node, _, hstep, rfl, by simp, by simp⟩
  | sleep k =>
    exact ⟨s.node, .testRunning (k + 1), by simp [threadStep, hthread], rfl, by simp, by simp⟩
  | returned =>
    have hsame : s.threadStep text outcome = s := by simp [threadStep, hthread]
    exact ⟨s.node, s.thread, hsame, hbehind, by simp [hthread], by simp [hthread]⟩
  | thrown e =>
    have hsame : s.threadStep text outcome = s := by simp [threadStep, hthread]
    exact ⟨s.node, s.thread, hsame, hbehind, by simp [hthread], by simp [hthread]⟩

theorem callerStep_cases (stored : s.caller.hasStored = true) :
    ∃ caller, s.callerStep = { s with caller := caller } ∧ caller.hasStored = true := by
  unfold callerStep
  cases hcaller : s.caller with
  | join =>
    by_cases hthread : s.thread = .returned
    · exact ⟨.returned, by simp [hthread], rfl⟩
    · exact ⟨.join, by simp [hthread, ← hcaller], rfl⟩
  | returned => exact ⟨.returned, by simp [← hcaller], rfl⟩
  | _ => simp [hcaller] at stored

theorem settled_step (s : HealthSystem) (l : HealthStep) (h : s.Settled) :
    (s.step text outcome l).Settled := by
  cases l with
  | thread =>
    obtain ⟨node, thread, hstep, hbehind, _⟩ := threadStep_cases text outcome h
    rw [step, hstep]
    exact ⟨h.stored, h.cleared, hbehind⟩
  | caller =>
    obtain ⟨caller, hstep, hstored⟩ := callerStep_cases h.stored
    rw [step, hstep]
    exact ⟨hstored, h.cleared, h.behind⟩

theorem started_step (s : HealthSystem) (l : HealthStep) (h : s.Started) :
    (s.step text outcome l).Started := by
  cases l with
  | thread => exact started_threadStep text outcome h
  | caller => exact started_callerStep h

theorem remaining_step (s : HealthSystem) (l : HealthStep) (h : s.Settled) :
    (s.step text outcome l).thread.remaining ≤ s.thread.remaining := by
  cases l with
  | thread =>
    obtain ⟨node, thread, hstep, _, hremaining, _⟩ := threadStep_cases text outcome h
    simp only [step, hstep]
    omega
  | caller =>
    obtain ⟨caller, hstep, _⟩ := callerStep_cases h.stored
    simp [step, hstep]

theorem pass_of_step {t : HealthSystem} (h : t.Settled) (l : HealthStep) {k : Nat}
    (hpass : (t.step text outcome l).thread = .pass k) : t.thread = .pass k := by
  cases l with
  | thread =>
    obtain ⟨node, thread, hstep, _, _, hnone⟩ := threadStep_cases text outcome h
    simp only [step, hstep] at hpass
    exact absurd hpass (hnone k)
  | caller =>
    obtain ⟨caller, hstep, _⟩ := callerStep_cases h.stored
    simpa [step, hstep] using hpass

/-! ## Whole runs -/

theorem settled_exec (h : s.Settled) (ls : List HealthStep) :
    (exec (step text outcome) s ls).Settled :=
  exec_invariant (settled_step text outcome) h ls

theorem stopKept_of_settled (h : s.Settled) : s.StopKept text outcome where
  cleared ls := (settled_exec text outcome h ls).cleared
  noFurtherPass ls k := by
    induction ls generalizing s with
    | nil => exact id
    | cons l ls ih =>
      intro hpass
      exact pass_of_step text outcome h l (ih (settled_step text outcome s l h) hpass)
  ends ls enough := by
    have hlower : ∀ t : HealthSystem, t.Settled →
        (step text outcome t .thread).thread.remaining ≤ t.thread.remaining - 1 := by
      intro t ht
      obtain ⟨node, thread, hstep, _, hremaining, _⟩ := threadStep_cases text outcome ht
      simpa only [step, hstep] using hremaining
    have hrank := rank_exec (fun t => t.thread.remaining) .thread (settled_step text outcome) hlower
      (remaining_step text outcome) h ls
    have hle := s.thread.remaining_le
    apply HealthPhase.isOver_of_remaining (settled_exec text outcome h ls).behind
    omega
  joins ls returned := by
    have hstored := (settled_exec text outcome h ls).stored
    rw [exec_append, exec_cons, exec_nil]
    cases hcaller : (exec (step text outcome) s ls).caller with
    | join => simp [step, callerStep, hcaller, returned]
    | returned => simp [step, callerStep, hcaller]
    | _ => simp [hcaller] at hstored

theorem settled_of_stopKept (started : s.Started) (stored : s.caller.hasStored = true)
    (h : s.StopKept text outcome) : s.Settled where
  stored := stored
  cleared := h.cleared []
  behind := by
    cases hthread : s.thread with
    | notStarted => exact absurd hthread (started (.inr stored))
    | storeRunning =>
      -- The store that is still to come would set the flag again.
      have hcleared := h.cleared [.thread]
      simp [step, threadStep, hthread] at hcleared
    | _ => rfl

theorem keepsStop_iff (started : s.Started) :
    s.KeepsStop text outcome ↔ (s.caller.hasStored = true → s.Settled) := by
  constructor
  · intro h stored
    exact settled_of_stopKept text outcome started stored (h stored)
  · intro h stored
    exact stopKept_of_settled text outcome (h stored)

theorem keepsStop_step_iff (started : s.Started) (h : s.KeepsStop text outcome) (l : HealthStep) :
    (s.step text outcome l).KeepsStop text outcome ↔ s.ClearsAfterStore l := by
  rw [keepsStop_iff text outcome (started_step text outcome s l started)]
  rw [keepsStop_iff text outcome started] at h
  have hkeep : s.caller.hasStored = true → (s.step text outcome l).Settled :=
    fun stored => settled_step text outcome s l (h stored)
  cases l with
  | thread =>
    have hcaller : (s.step text outcome .thread).caller = s.caller := caller_threadStep text outcome
    rw [hcaller]
    constructor
    · intro _ hl
      cases hl
    · intro _
      exact hkeep
  | caller =>
    cases hcaller : s.caller with
    | run =>
      -- `Run` has returned at most, and `Stop` has not stored anything.
      have hnot : (s.step text outcome .caller).caller.hasStored = false := by
        simp only [step, callerStep, hcaller]
        cases Health.run.run s.node <;> rfl
      rw [hnot]
      simp [ClearsAfterStore, hcaller]
    | clearRunning =>
      have hstep : s.step text outcome .caller = { s with running := false, caller := .join } := by
        simp [step, callerStep, hcaller]
      rw [hstep]
      constructor
      · intro hsettled _ _
        exact (hsettled rfl).behind
      · intro hclears _
        exact ⟨rfl, rfl, hclears rfl hcaller⟩
    | join => simp [ClearsAfterStore, hcaller, hkeep]
    | returned => simp [ClearsAfterStore, hcaller, hkeep]
    | thrown e => simp [ClearsAfterStore, hcaller, step, callerStep]

end

/-- In every interleaving of `Run` and `Stop` with the health thread, the stop is
    kept from its store on exactly if that store does not come before the
    thread's. -/
theorem stop_kept_iff (text : JsonText) (outcome : Nat → HostAndPort → CallOutcome) (running : Bool)
    (node : NodeState) (run : List HealthStep) :
    Always (KeepsStop text outcome) (step text outcome) (start running node) run ↔
      Guarded ClearsAfterStore (step text outcome) (start running node) run := by
  have hinv : ∀ (s : HealthSystem) (l : HealthStep), s.Started → True →
      (step text outcome s l).Started := fun s l h _ => started_step text outcome s l h
  have hexact : ∀ (s : HealthSystem) (l : HealthStep), s.Started → True →
      s.KeepsStop text outcome →
      ((step text outcome s l).KeepsStop text outcome ↔ s.ClearsAfterStore l) :=
    fun _ l started _ h => keepsStop_step_iff text outcome started h l
  have hstarted : (start running node).Started := by simp [Started, start]
  have hkeeps : (start running node).KeepsStop text outcome := by simp [KeepsStop, start]
  exact always_iff_guarded hinv hexact hstarted hkeeps (guarded_of_forall fun _ _ _ => trivial)

/-! ## A lost stop -/

/-- The caller waits for a thread that goes on. -/
structure Lost (s : HealthSystem) : Prop where
  joining : s.caller = .join
  running : s.running = true
  goesOn : s.thread ≠ .returned

theorem lost_step (text : JsonText) (outcome : Nat → HostAndPort → CallOutcome) (s : HealthSystem)
    (l : HealthStep) (h : s.Lost) : (s.step text outcome l).Lost := by
  obtain ⟨hjoining, hrunning, hgoesOn⟩ := h
  cases l with
  | thread =>
    cases hthread : s.thread with
    | pass k =>
      obtain ⟨node, thread, hstep, rfl | ⟨e, rfl⟩⟩ := threadStep_pass text outcome hthread
      · rw [step, hstep]
        exact ⟨hjoining, hrunning, by simp⟩
      · rw [step, hstep]
        exact ⟨hjoining, hrunning, by simp⟩
    | returned => exact absurd hthread hgoesOn
    | _ => exact ⟨by simp [step, threadStep, hthread, hjoining],
        by simp [step, threadStep, hthread, hrunning],
        by simp [step, threadStep, hthread, hrunning]⟩
  | caller =>
    have hstep : s.step text outcome .caller = s := by
      simp [step, callerStep, hjoining, hgoesOn]
    rw [hstep]
    exact ⟨hjoining, hrunning, hgoesOn⟩

/-- `Stop` overtakes the thread that `Run` has started: its store comes first, a
    pass is begun all the same, and the join never returns. -/
theorem stop_lost :
    (exec (step healthText fun _ _ => .neither) (start false (IMQNode.construct ⟨"r", 1⟩ ⟨"r", 1⟩))
      [.caller, .caller, .thread]).running = true ∧
    (exec (step healthText fun _ _ => .neither) (start false (IMQNode.construct ⟨"r", 1⟩ ⟨"r", 1⟩))
      [.caller, .caller, .thread, .thread]).thread = .pass 0 ∧
    ∀ ls, (exec (step healthText fun _ _ => .neither)
      (start false (IMQNode.construct ⟨"r", 1⟩ ⟨"r", 1⟩))
      ([.caller, .caller, .thread] ++ ls)).caller = .join := by
  have hlost : (exec (step healthText fun _ _ => .neither)
      (start false (IMQNode.construct ⟨"r", 1⟩ ⟨"r", 1⟩)) [.caller, .caller, .thread]).Lost :=
    ⟨rfl, rfl, by decide⟩
  refine ⟨hlost.running, rfl, fun ls => ?_⟩
  rw [exec_append]
  exact (exec_invariant (lost_step healthText fun _ _ => .neither) hlost ls).joining

end HealthSystem

end Imq
