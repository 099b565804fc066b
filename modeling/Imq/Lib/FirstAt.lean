import Mathlib.Logic.Function.Iterate

/-! # The first index that decides

A loop without a bound asks in each of its rounds for a value and ends in the
first one that has it.

* `FirstAt` — the round, with the value found;
* `exists_firstAt_iff` — there is one exactly if some round has a value;
* `iterate_of_firstAt` — the loop rule: steps that lead from round to round, and
  out of the loop with the value found, lead to where the first value sends them.
-/

namespace Imq.Lib

variable {α σ : Type}

/-- The value of `f` at `k` is `a`, and `f` has none before. -/
structure FirstAt (f : Nat → Option α) (k : Nat) (a : α) : Prop where
  value : f k = some a
  before : ∀ i < k, f i = none

theorem FirstAt.index_unique {f : Nat → Option α} {j k : Nat} {a b : α} (h : FirstAt f j a)
    (h' : FirstAt f k b) : j = k := by
  have hjk : ¬ j < k := by
    intro hlt
    have hvalue := h.value
    simp [h'.before j hlt] at hvalue
  have hkj : ¬ k < j := by
    intro hlt
    have hvalue := h'.value
    simp [h.before k hlt] at hvalue
  omega

theorem FirstAt.unique {f : Nat → Option α} {j k : Nat} {a b : α} (h : FirstAt f j a)
    (h' : FirstAt f k b) : a = b := by
  have hvalue := h.value
  rw [h.index_unique h', h'.value] at hvalue
  cases hvalue
  rfl

theorem exists_firstAt {f : Nat → Option α} {k : Nat} (h : f k ≠ none) :
    ∃ i ≤ k, ∃ a, FirstAt f i a := by
  induction k using Nat.strongRecOn with
  | ind k ih =>
    by_cases hbefore : ∃ i < k, f i ≠ none
    · obtain ⟨i, hlt, hi⟩ := hbefore
      obtain ⟨j, hle, a, hfirst⟩ := ih i hlt hi
      exact ⟨j, by omega, a, hfirst⟩
    · obtain ⟨a, ha⟩ := Option.ne_none_iff_exists'.mp h
      refine ⟨k, Nat.le_refl k, a, ha, fun i hlt => ?_⟩
      by_contra hi
      exact hbefore ⟨i, hlt, hi⟩

theorem exists_firstAt_iff {f : Nat → Option α} :
    (∃ k a, FirstAt f k a) ↔ ∃ k, f k ≠ none := by
  constructor
  · rintro ⟨k, a, h⟩
    exact ⟨k, by simp [h.value]⟩
  · rintro ⟨k, hk⟩
    obtain ⟨i, _, a, h⟩ := exists_firstAt hk
    exact ⟨i, a, h⟩

/-! ## The loop rule -/

section

variable {step : σ → σ} {f : Nat → Option α} {enter : Nat → σ}
  (next : ∀ k, f k = none → ∃ n, step^[n] (enter k) = enter (k + 1))

include next

/-- The loop comes to every round before which there is no value. -/
theorem iterate_enter {k : Nat} (before : ∀ i < k, f i = none) :
    ∃ n, step^[n] (enter 0) = enter k := by
  induction k with
  | zero => exact ⟨0, rfl⟩
  | succ k ih =>
    obtain ⟨n, hn⟩ := ih fun i hi => before i (by omega)
    obtain ⟨m, hm⟩ := next k (before k (by omega))
    exact ⟨m + n, by rw [Function.iterate_add_apply, hn, hm]⟩

theorem iterate_of_firstAt {leave : α → σ}
    (stop : ∀ k a, f k = some a → ∃ n, step^[n] (enter k) = leave a) {k : Nat} {a : α}
    (h : FirstAt f k a) : ∃ n, step^[n] (enter 0) = leave a := by
  obtain ⟨n, hn⟩ := iterate_enter next h.before
  obtain ⟨m, hm⟩ := stop k a h.value
  exact ⟨m + n, by rw [Function.iterate_add_apply, hn, hm]⟩

end

end Imq.Lib
