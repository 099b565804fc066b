import Imq.Lib.Runs
import Imq.Queue

/-! # First in, first out

What has been pushed is what has been popped, followed by what is in the queue.
`Pop` asks for the length of the queue modulo 2 ^ 32, so that it takes the oldest
element only if it does not find a multiple of it.

* `Queue.run_pop_of_length`, `Queue.run_pop_cons` — `Pop`, by what is in the queue;
* `QueueHistory.conserved_perform` — no call loses an element;
* `QueueHistory.first_in_first_out_iff` — the law, and the lengths at which it holds.
-/

namespace Imq

open Lib

variable {α : Type}

namespace Queue

theorem size_eq_zero_iff (q : Queue α) : q.size = 0 ↔ q.queue.length % 4294967296 = 0 := by
  have htoNat : q.size.toNat = q.queue.length % 4294967296 := by
    simp only [size, UInt64.toNat_toUInt32, UInt64.toNat_ofNat']
    omega
  rw [← htoNat, ← UInt32.toNat_inj]
  rfl

@[simp] theorem run_push (element : α) (q : Queue α) :
    (push element).run q = .ok () { q with queue := q.queue ++ [element] } := rfl

theorem run_pop_of_length {q : Queue α} (h : q.queue.length % 4294967296 = 0) :
    pop.run q = .error (.outOfRange "Cannot pop from empty queue.") q := by
  have hsize := q.size_eq_zero_iff.mpr h
  rw [pop, Cpp.run_bind_ok (EStateM.run_get ..), if_pos hsize]
  rfl

theorem run_pop_cons {popped : α} {rest : List α}
    (h : (popped :: rest).length % 4294967296 ≠ 0) :
    pop.run (⟨popped :: rest⟩ : Queue α) = .ok popped ⟨rest⟩ := by
  have hsize : ¬ (⟨popped :: rest⟩ : Queue α).size = 0 := fun h' => h ((size_eq_zero_iff _).mp h')
  rw [pop, Cpp.run_bind_ok (EStateM.run_get ..), if_neg hsize]
  rfl

end Queue

namespace QueueHistory

/-- No element is lost, and none is popped twice. -/
def Conserved (s : QueueHistory α) : Prop := s.pushed = s.popped ++ s.queue.queue

/-- The elements that have not been popped yet, the oldest first. -/
def remaining (s : QueueHistory α) : List α := s.pushed.drop s.popped.length

/-- `Pop` throws if nothing remains, and leaves the queue as it is; otherwise it
    takes the oldest element and leaves the others. -/
def PopsOldest (s : QueueHistory α) : Prop :=
  match Queue.pop.run s.queue with
  | .ok popped q => s.remaining = popped :: q.queue
  | .error e q =>
    e = .outOfRange "Cannot pop from empty queue." ∧ q = s.queue ∧ s.remaining = []

def FirstOut (s : QueueHistory α) (call : QueueCall α) : Prop := call = .pop → s.PopsOldest

/-- `Pop` is called on a queue that is empty, or that has a length which an `unsigned`
    does not cut off to 0. -/
def LengthKept (s : QueueHistory α) (call : QueueCall α) : Prop :=
  call = .pop → s.queue.queue = [] ∨ s.queue.queue.length % 4294967296 ≠ 0

theorem remaining_of_conserved {s : QueueHistory α} (h : s.Conserved) :
    s.remaining = s.queue.queue := by
  rw [remaining, h, List.drop_left]

theorem conserved_perform (s : QueueHistory α) (call : QueueCall α) (h : s.Conserved) :
    (s.perform call).Conserved := by
  obtain ⟨⟨elements⟩, pushed, popped⟩ := s
  simp only [Conserved] at h
  cases call with
  | push element => simp [perform, Conserved, h]
  | pop =>
    by_cases hlength : elements.length % 4294967296 = 0
    · simp only [perform, Queue.run_pop_of_length hlength]
      exact h
    · cases elements with
      | nil => simp at hlength
      | cons oldest rest =>
        simp only [perform, Queue.run_pop_cons hlength, Conserved]
        simp [h]

theorem popsOldest_iff {s : QueueHistory α} (h : s.Conserved) :
    s.PopsOldest ↔ s.queue.queue = [] ∨ s.queue.queue.length % 4294967296 ≠ 0 := by
  have hremaining := remaining_of_conserved h
  obtain ⟨⟨elements⟩, pushed, popped⟩ := s
  simp only at hremaining
  by_cases hlength : elements.length % 4294967296 = 0
  · simp [PopsOldest, Queue.run_pop_of_length hlength, hremaining, hlength]
  · cases elements with
    | nil => simp at hlength
    | cons oldest rest =>
      simp only [PopsOldest, Queue.run_pop_cons hlength, hremaining]
      exact ⟨fun _ => .inr hlength, fun _ => trivial⟩

/-- In every sequence of calls on a queue that is empty at first, no element is lost
    and every `Pop` takes the oldest one, exactly if no `Pop` finds the queue filled
    to a multiple of 2 ^ 32. -/
theorem first_in_first_out_iff (calls : List (QueueCall α)) :
    (Always Conserved perform {} calls ∧ Guarded FirstOut perform {} calls) ↔
      Guarded LengthKept perform ({} : QueueHistory α) calls := by
  have hstart : Conserved ({} : QueueHistory α) := rfl
  have hconserved : Always Conserved perform ({} : QueueHistory α) calls :=
    always_of_guarded (fun s call h _ => conserved_perform s call h) hstart
      (guarded_of_forall fun _ _ _ => trivial)
  have hsame : ∀ (s : QueueHistory α) (call : QueueCall α), s.Conserved →
      (s.FirstOut call ↔ s.LengthKept call) :=
    fun s call h => imp_congr_right fun _ => popsOldest_iff h
  rw [and_iff_right hconserved]
  exact guarded_congr conserved_perform hsame hstart calls

theorem exec_push (element : α) (n : Nat) :
    exec perform {} (List.replicate n (QueueCall.push element)) =
      { queue := ⟨List.replicate n element⟩, pushed := List.replicate n element } := by
  induction n with
  | zero => rfl
  | succ n ih =>
    rw [List.replicate_succ', exec_append, ih, exec_cons, exec_nil]
    simp [perform, List.replicate_succ']

theorem pop_throws_of_multiple (element : α) {n : Nat} (pos : 0 < n) (h : n % 4294967296 = 0) :
    (exec perform {} (List.replicate n (QueueCall.push element))).popped = [] ∧
      Queue.pop.run (exec perform {} (List.replicate n (QueueCall.push element))).queue =
        .error (.outOfRange "Cannot pop from empty queue.") ⟨List.replicate n element⟩ ∧
      ¬ (exec perform {} (List.replicate n (QueueCall.push element))).PopsOldest := by
  have hthrows : Queue.pop.run (⟨List.replicate n element⟩ : Queue α) =
      .error (.outOfRange "Cannot pop from empty queue.") ⟨List.replicate n element⟩ :=
    Queue.run_pop_of_length (by simpa using h)
  rw [exec_push]
  refine ⟨rfl, hthrows, fun hpops => ?_⟩
  rw [PopsOldest, hthrows] at hpops
  have hempty := hpops.2.2
  simp only [remaining, List.length_nil, List.drop_zero, List.replicate_eq_nil_iff] at hempty
  omega

/-- With 2 ^ 32 elements in the queue, and none popped, `Pop` finds it empty. -/
theorem pop_throws_when_full :
    (exec perform {} (List.replicate 4294967296 (QueueCall.push 'a'))).popped = [] ∧
      Queue.pop.run (exec perform {} (List.replicate 4294967296 (QueueCall.push 'a'))).queue =
        .error (.outOfRange "Cannot pop from empty queue.") ⟨List.replicate 4294967296 'a'⟩ ∧
      ¬ (exec perform {} (List.replicate 4294967296 (QueueCall.push 'a'))).PopsOldest :=
  pop_throws_of_multiple 'a' (by decide) (Nat.mod_self 4294967296)

end QueueHistory

end Imq
