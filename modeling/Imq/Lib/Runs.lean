import Mathlib.Algebra.GroupWithZero.Nat

/-! # Runs of labelled transition systems

The label of a step resolves every choice, so a step is a function of the state
and the label: total (`σ → ι → σ`), or partial (`σ → ι → Option σ`) where not
every label is possible in every state.

* `Run` — the runs of a partial step all of whose steps meet a guard, with the
  invariant rule, the potential rule and the sweep rule for them;
* `Always`, `Guarded` — for a total step: a property of every state of a run,
  and a condition met by every step of it.  `always_iff_guarded` turns the
  exact condition of one step into the exact condition of whole runs.
-/

namespace Imq.Lib

variable {σ ι : Type}

/-! ## Partial steps -/

/-- The runs from `s₀` in which every step meets `guard`, with the labels in
    order and the state reached. -/
inductive Run (step : σ → ι → Option σ) (guard : σ → ι → Prop) (s₀ : σ) : List ι → σ → Prop where
  | nil : Run step guard s₀ [] s₀
  | snoc {ls : List ι} {s s' : σ} {l : ι} (run : Run step guard s₀ ls s) (ok : guard s l)
      (next : step s l = some s') : Run step guard s₀ (ls ++ [l]) s'

/-- The guard of unrestricted runs. -/
def unguarded : σ → ι → Prop := fun _ _ => True

instance (s : σ) (l : ι) : Decidable (unguarded s l) := .isTrue trivial

namespace Run

variable {step : σ → ι → Option σ} {guard : σ → ι → Prop} {s₀ s : σ} {ls : List ι}

/-- What holds at the start and is kept by every step that meets the guard
    holds in every state reached. -/
theorem invariant (run : Run step guard s₀ ls s) {P : σ → Prop} (init : P s₀)
    (keep : ∀ s l s', P s → guard s l → step s l = some s' → P s') : P s := by
  induction run with
  | nil => exact init
  | snoc _ ok next ih => exact keep _ _ _ ih ok next

theorem single {l : ι} (ok : guard s₀ l) (next : step s₀ l = some s) : Run step guard s₀ [l] s :=
  Run.nil.snoc ok next

/-- A run is one under any weaker guard. -/
theorem mono {guard' : σ → ι → Prop} (run : Run step guard s₀ ls s)
    (h : ∀ s l, guard s l → guard' s l) : Run step guard' s₀ ls s := by
  induction run with
  | nil => exact .nil
  | snoc _ ok next ih => exact .snoc ih (h _ _ ok) next

/-- What the guard says of the label of a step holds of all labels of a run. -/
theorem forall_mem (run : Run step guard s₀ ls s) {P : ι → Prop} (h : ∀ s l, guard s l → P l) :
    ∀ l ∈ ls, P l := by
  induction run with
  | nil => exact List.forall_mem_nil _
  | snoc _ ok _ ih => exact List.forall_mem_append.mpr ⟨ih, List.forall_mem_singleton.mpr (h _ _ ok)⟩

/-- The labels of a run are those of its steps. -/
theorem with_mem (run : Run step guard s₀ ls s) :
    Run step (fun s l => guard s l ∧ l ∈ ls) s₀ ls s := by
  induction run with
  | nil => exact .nil
  | snoc _ ok next ih =>
    exact .snoc (ih.mono fun _ _ h => ⟨h.1, List.mem_append_left _ h.2⟩) ⟨ok, by simp⟩ next

/-- The potential rule: if every step pays its cost out of the potential and of what it
    gains, then so does a whole run. -/
theorem potential (run : Run step guard s₀ ls s) {I : σ → Prop} (init : I s₀)
    (keep : ∀ s l s', I s → guard s l → step s l = some s' → I s') (rank : σ → Nat)
    (cost gain : ι → Nat)
    (pay : ∀ s l s', I s → guard s l → step s l = some s' → rank s' + cost l ≤ rank s + gain l) :
    rank s + (ls.map cost).sum ≤ rank s₀ + (ls.map gain).sum := by
  induction run with
  | nil => exact Nat.le_refl _
  | snoc run ok next ih =>
    have hpay := pay _ _ _ (run.invariant init keep) ok next
    rw [List.map_append, List.sum_append, List.map_append, List.sum_append]
    simp only [List.map_singleton, List.sum_singleton]
    omega

theorem append {s' : σ} {ms : List ι} (first : Run step guard s₀ ls s)
    (second : Run step guard s ms s') : Run step guard s₀ (ls ++ ms) s' := by
  induction second with
  | nil => rwa [List.append_nil]
  | snoc _ ok next ih =>
    rw [← List.append_assoc]
    exact .snoc ih ok next

/-- The simulation rule: if every step of a system leads a related state of another on to a
    related one, then every run does. -/
theorem simulate {τ κ : Type} {step' : τ → κ → Option τ} {guard' : τ → κ → Prop} {R : σ → τ → Prop}
    (match_step : ∀ s l s' t, R s t → guard s l → step s l = some s' →
      ∃ ks t', Run step' guard' t ks t' ∧ R s' t')
    (run : Run step guard s₀ ls s) {t₀ : τ} (start : R s₀ t₀) :
    ∃ ks t, Run step' guard' t₀ ks t ∧ R s t := by
  induction run with
  | nil => exact ⟨[], t₀, .nil, start⟩
  | snoc _ ok next ih =>
    obtain ⟨ks, t, hrun, related⟩ := ih
    obtain ⟨ms, t', hstep, related'⟩ := match_step _ _ _ _ related ok next
    exact ⟨ks ++ ms, t', hrun.append hstep, related'⟩

/-- The sweep rule: if each of the goals can be reached from every state with the invariant,
    and the way there keeps the invariant and the goals reached before, then all of them can
    be reached. -/
theorem exists_forall {α : Type} {I : σ → Prop} {Q : α → σ → Prop}
    (reach : ∀ a s, I s → ∃ ls s', Run step guard s ls s' ∧ I s' ∧ Q a s' ∧ ∀ b, Q b s → Q b s')
    (as : List α) (init : I s₀) :
    ∃ ls s, Run step guard s₀ ls s ∧ I s ∧ ∀ a ∈ as, Q a s := by
  induction as with
  | nil => exact ⟨[], s₀, .nil, init, fun _ ha => absurd ha List.not_mem_nil⟩
  | cons a as ih =>
    obtain ⟨ls, s, hrun, hs, hall⟩ := ih
    obtain ⟨ms, s', hrun', hs', ha, hkept⟩ := reach a s hs
    exact ⟨ls ++ ms, s', hrun.append hrun', hs',
      List.forall_mem_cons.mpr ⟨ha, fun b hb => hkept b (hall b hb)⟩⟩

/-- What can be executed, with the guard checked before each step, is a run. -/
theorem of_foldlM [∀ s l, Decidable (guard s l)] {s₀ : σ}
    (h : ls.foldlM (fun s l => if guard s l then step s l else none) s₀ = some s) :
    Run step guard s₀ ls s := by
  induction ls generalizing s₀ with
  | nil =>
    cases h
    exact .nil
  | cons l ls ih =>
    rw [List.foldlM_cons] at h
    by_cases ok : guard s₀ l
    · cases hnext : step s₀ l with
      | none => simp [ok, hnext] at h
      | some s₁ =>
        rw [if_pos ok, hnext] at h
        exact (single ok hnext).append (ih h)
    · simp [ok] at h

end Run

/-! ## Total steps -/

/-- The state after a list of steps. -/
def exec (step : σ → ι → σ) (s : σ) (ls : List ι) : σ := ls.foldl step s

@[simp] theorem exec_nil (step : σ → ι → σ) (s : σ) : exec step s [] = s := rfl

@[simp] theorem exec_cons (step : σ → ι → σ) (s : σ) (l : ι) (ls : List ι) :
    exec step s (l :: ls) = exec step (step s l) ls := rfl

theorem exec_append (step : σ → ι → σ) (s : σ) (ls ms : List ι) :
    exec step s (ls ++ ms) = exec step (exec step s ls) ms :=
  List.foldl_append

/-- What every step keeps holds at the end of a run if it holds at its start. -/
theorem exec_invariant {step : σ → ι → σ} {P : σ → Prop} (keep : ∀ s l, P s → P (step s l))
    {s : σ} (init : P s) (ls : List ι) : P (exec step s ls) := by
  induction ls generalizing s with
  | nil => exact init
  | cons l ls ih => exact ih (keep s l init)

/-- The rank rule: if, under an invariant, the steps labelled `down` lower the rank as
    long as it is not 0, and no step raises it, then the rank falls with the number
    of these steps. -/
theorem rank_exec [DecidableEq ι] {step : σ → ι → σ} {I : σ → Prop} (rank : σ → Nat) (down : ι)
    (inv : ∀ s l, I s → I (step s l)) (lower : ∀ s, I s → rank (step s down) ≤ rank s - 1)
    (keep : ∀ s l, I s → rank (step s l) ≤ rank s) {s : σ} (init : I s) (ls : List ι) :
    rank (exec step s ls) ≤ rank s - ls.count down := by
  induction ls generalizing s with
  | nil => simp
  | cons l ls ih =>
    have hrest := ih (inv s l init)
    have hkeep := keep s l init
    rw [exec_cons]
    by_cases hl : l = down
    · have hlower := lower s init
      rw [hl] at hrest ⊢
      rw [List.count_cons_self]
      omega
    · rw [List.count_cons_of_ne hl]
      omega

/-- The property holds in the first state of the run and after each step. -/
def Always (P : σ → Prop) (step : σ → ι → σ) : σ → List ι → Prop
  | s, [] => P s
  | s, l :: ls => P s ∧ Always P step (step s l) ls

/-- Every step of the run meets the guard in the state it is taken in. -/
def Guarded (guard : σ → ι → Prop) (step : σ → ι → σ) : σ → List ι → Prop
  | _, [] => True
  | s, l :: ls => guard s l ∧ Guarded guard step (step s l) ls

instance decidableGuarded {guard : σ → ι → Prop} [∀ s l, Decidable (guard s l)]
    (step : σ → ι → σ) : ∀ (s : σ) (ls : List ι), Decidable (Guarded guard step s ls)
  | _, [] => .isTrue trivial
  | s, l :: ls =>
    have : Decidable (Guarded guard step (step s l) ls) := decidableGuarded step (step s l) ls
    inferInstanceAs (Decidable (guard s l ∧ Guarded guard step (step s l) ls))

variable {step : σ → ι → σ} {P Q : σ → Prop} {guard : σ → ι → Prop}

theorem Always.head {s : σ} {ls : List ι} (h : Always P step s ls) : P s := by
  cases ls with
  | nil => exact h
  | cons l ls => exact h.1

theorem Always.last {s : σ} {ls : List ι} (h : Always P step s ls) : P (exec step s ls) := by
  induction ls generalizing s with
  | nil => exact h
  | cons l ls ih => exact ih h.2

theorem Always.mono {s : σ} {ls : List ι} (h : Always P step s ls) (imp : ∀ s, P s → Q s) :
    Always Q step s ls := by
  induction ls generalizing s with
  | nil => exact imp s h
  | cons l ls ih => exact ⟨imp s h.1, ih h.2⟩

/-- A property that no step restores holds throughout a run if it holds at its
    end. -/
theorem always_of_last (back : ∀ s l, P (step s l) → P s) {s : σ} {ls : List ι}
    (h : P (exec step s ls)) : Always P step s ls := by
  induction ls generalizing s with
  | nil => exact h
  | cons l ls ih => exact ⟨back s l (ih h).head, ih h⟩

/-- The invariant rule: a property kept by every guarded step holds throughout
    a guarded run. -/
theorem always_of_guarded (keep : ∀ s l, P s → guard s l → P (step s l)) {s : σ} {ls : List ι}
    (init : P s) (h : Guarded guard step s ls) : Always P step s ls := by
  induction ls generalizing s with
  | nil => exact init
  | cons l ls ih => exact ⟨init, ih (keep s l init h.1) h.2⟩

/-- The refinement rule: if guarded steps keep an invariant, under which a step
    seen through `abs` is a step of another system, then a guarded run seen
    through `abs` is a run of that system. -/
theorem exec_abstract {τ : Type} (abs : σ → τ) {step' : τ → ι → τ}
    (keep : ∀ s l, P s → guard s l → P (step s l))
    (commute : ∀ s l, P s → guard s l → abs (step s l) = step' (abs s) l) {s : σ} {ls : List ι}
    (init : P s) (h : Guarded guard step s ls) :
    abs (exec step s ls) = exec step' (abs s) ls := by
  induction ls generalizing s with
  | nil => rfl
  | cons l ls ih =>
    rw [exec_cons, exec_cons, ← commute s l init h.1]
    exact ih (keep s l init h.1) h.2

/-- A run, and what its steps meet, seen through a map under which every step is
    a step of another system. -/
theorem exec_map {τ : Type} {abs : σ → τ} {step' : τ → ι → τ}
    (commute : ∀ s l, abs (step s l) = step' (abs s) l) (s : σ) (ls : List ι) :
    abs (exec step s ls) = exec step' (abs s) ls := by
  induction ls generalizing s with
  | nil => rfl
  | cons l ls ih => rw [exec_cons, exec_cons, ih, commute]

/-- The simulation rule for a total step, with a run of the other system for each step. -/
theorem exists_run_exec {τ κ : Type} {step : σ → ι → σ} {step' : τ → κ → Option τ}
    {guard' : τ → κ → Prop} {R : σ → τ → Prop}
    (match_step : ∀ s l t, R s t → ∃ ks t', Run step' guard' t ks t' ∧ R (step s l) t') {s : σ}
    {t : τ} (start : R s t) (ls : List ι) :
    ∃ ks t', Run step' guard' t ks t' ∧ R (exec step s ls) t' := by
  induction ls generalizing s t with
  | nil => exact ⟨[], t, .nil, start⟩
  | cons l ls ih =>
    obtain ⟨ks, t₁, hstep, related⟩ := match_step s l t start
    obtain ⟨ms, t₂, hrun, related'⟩ := ih related
    exact ⟨ks ++ ms, t₂, hstep.append hrun, related'⟩

/-- The same with one step of the other system for each step that meets the guard. -/
theorem exists_run_map {τ κ : Type} {step : σ → ι → σ} {guard : σ → ι → Prop}
    {step' : τ → κ → Option τ} {guard' : τ → κ → Prop} {R : σ → τ → Prop} (label : ι → κ)
    (match_step : ∀ s l t, R s t → guard s l →
      ∃ t', guard' t (label l) ∧ step' t (label l) = some t' ∧ R (step s l) t') {s : σ} {t : τ}
    (start : R s t) {ls : List ι} (h : Guarded guard step s ls) :
    ∃ t', Run step' guard' t (ls.map label) t' ∧ R (exec step s ls) t' := by
  induction ls generalizing s t with
  | nil => exact ⟨t, .nil, start⟩
  | cons l ls ih =>
    obtain ⟨t₁, ok, next, related⟩ := match_step s l t start h.1
    obtain ⟨t₂, hrun, related'⟩ := ih related h.2
    exact ⟨t₂, (Run.single ok next).append hrun, related'⟩

theorem guarded_map_iff {τ : Type} {abs : σ → τ} {step' : τ → ι → τ} {guard' : τ → ι → Prop}
    (commute : ∀ s l, abs (step s l) = step' (abs s) l) (s : σ) (ls : List ι) :
    Guarded guard' step' (abs s) ls ↔ Guarded (fun s l => guard' (abs s) l) step s ls := by
  induction ls generalizing s with
  | nil => exact Iff.rfl
  | cons l ls ih =>
    have hrest := ih (step s l)
    rw [commute] at hrest
    exact and_congr_right' hrest

theorem guarded_of_forall {s : σ} {ls : List ι} (h : ∀ s, ∀ l ∈ ls, guard s l) :
    Guarded guard step s ls := by
  induction ls generalizing s with
  | nil => trivial
  | cons l ls ih =>
    exact ⟨h s l List.mem_cons_self, ih fun s l hl => h s l (List.mem_cons_of_mem _ hl)⟩

/-- Guards that agree wherever an invariant holds are met by the same runs. -/
theorem guarded_congr {guard' : σ → ι → Prop} {I : σ → Prop} (inv : ∀ s l, I s → I (step s l))
    (same : ∀ s l, I s → (guard s l ↔ guard' s l)) {s : σ} (init : I s) (ls : List ι) :
    Guarded guard step s ls ↔ Guarded guard' step s ls := by
  induction ls generalizing s with
  | nil => exact Iff.rfl
  | cons l ls ih => exact and_congr (same s l init) (ih (inv s l init))

theorem Guarded.and {guard' : σ → ι → Prop} {s : σ} {ls : List ι} (h : Guarded guard step s ls)
    (h' : Guarded guard' step s ls) : Guarded (fun s l => guard s l ∧ guard' s l) step s ls := by
  induction ls generalizing s with
  | nil => trivial
  | cons l ls ih => exact ⟨⟨h.1, h'.1⟩, ih h.2 h'.2⟩

/-- If from every state with the invariant `I` a step keeps `P` exactly when it
    meets the guard, then `P` holds throughout a run exactly when every step of
    the run meets the guard. -/
theorem always_iff_guarded {I : σ → Prop} {assume : σ → ι → Prop}
    (inv : ∀ s l, I s → assume s l → I (step s l))
    (exact : ∀ s l, I s → assume s l → P s → (P (step s l) ↔ guard s l))
    {s : σ} {ls : List ι} (hI : I s) (hP : P s) (ha : Guarded assume step s ls) :
    Always P step s ls ↔ Guarded guard step s ls := by
  induction ls generalizing s with
  | nil => exact ⟨fun _ => trivial, fun _ => hP⟩
  | cons l ls ih =>
    have hstep := exact s l hI ha.1 hP
    -- The invariant goes on to the state after the step, and with it the hypothesis.
    have hI' := inv s l hI ha.1
    constructor
    · rintro ⟨_, hrest⟩
      have hP' := hrest.head
      exact ⟨hstep.mp hP', (ih hI' hP' ha.2).mp hrest⟩
    · rintro ⟨hg, hrest⟩
      have hP' := hstep.mpr hg
      exact ⟨hP, (ih hI' hP' ha.2).mpr hrest⟩

end Imq.Lib
