import Imq.Lib.Runs
import Mathlib.Algebra.GroupWithZero.Nat
import Mathlib.Data.Fintype.Card

/-! # Concurrent first-fit insertion

Processes insert one value each into an array of cells.  A process looks at the
cells in their order, one step for each, and writes its value, in a further
step, into the first one that it has found free.

* `step` — one step of one process, and `Move` its cases;
* `Inv` — what holds whatever the order of the steps is;
* `all_inserted_iff` — in the end every value is there exactly if no process has
  written into a cell that another one had written already;
* `exec_alone` — a process that runs alone inserts into the first free cell.
-/

namespace Imq.Lib.FirstFit

variable {n : Nat} {α ι : Type}

/-- Where a process stands; `done` keeps the cell written, if any. -/
inductive Phase (n : Nat) where
  | testing (i : Fin n)
  | writing (i : Fin n)
  | done (cell : Option (Fin n))
  deriving DecidableEq

namespace Phase

/-- After a cell that is not free comes the next one. -/
def next (i : Fin n) : Phase n :=
  if h : i.val + 1 < n then testing ⟨i.val + 1, h⟩ else done none

theorem next_cases (i : Fin n) :
    (∃ k : Fin n, k.val = i.val + 1 ∧ next i = testing k) ∨
      (i.val + 1 = n ∧ next i = done none) := by
  unfold next
  split
  next h => exact .inl ⟨_, rfl, rfl⟩
  next h =>
    have hlt := i.isLt
    exact .inr ⟨by omega, rfl⟩

@[simp] theorem next_ne_writing (i k : Fin n) : next i ≠ writing k := by
  obtain ⟨_, _, h⟩ | ⟨_, h⟩ := next_cases i <;> simp [h]

@[simp] theorem next_ne_done (i k : Fin n) : next i ≠ done (some k) := by
  obtain ⟨_, _, h⟩ | ⟨_, h⟩ := next_cases i <;> simp [h]

/-- The cell that has been written. -/
def cell : Phase n → Option (Fin n)
  | done cell => cell
  | _ => none

end Phase

structure State (n : Nat) (α ι : Type) where
  cells : Fin n → α
  phase : ι → Phase n

def start [NeZero n] (cells : Fin n → α) : State n α ι := ⟨cells, fun _ => .testing 0⟩

namespace State

/-- Cell `i` holds `a`. -/
def put (s : State n α ι) (i : Fin n) (a : α) : State n α ι :=
  { s with cells := Function.update s.cells i a }

@[simp] theorem put_cells_self (s : State n α ι) (i : Fin n) (a : α) : (s.put i a).cells i = a :=
  Function.update_self ..

@[simp] theorem put_cells_of_ne (s : State n α ι) {i k : Fin n} (h : k ≠ i) (a : α) :
    (s.put i a).cells k = s.cells k :=
  Function.update_of_ne h ..

@[simp] theorem put_phase (s : State n α ι) (i : Fin n) (a : α) : (s.put i a).phase = s.phase := rfl

variable [DecidableEq ι]

/-- Process `j` goes on to `p`. -/
def goTo (s : State n α ι) (j : ι) (p : Phase n) : State n α ι :=
  { s with phase := Function.update s.phase j p }

@[simp] theorem goTo_cells (s : State n α ι) (j : ι) (p : Phase n) : (s.goTo j p).cells = s.cells :=
  rfl

@[simp] theorem goTo_phase_self (s : State n α ι) (j : ι) (p : Phase n) :
    (s.goTo j p).phase j = p :=
  Function.update_self ..

@[simp] theorem goTo_phase_of_ne (s : State n α ι) {j m : ι} (h : m ≠ j) (p : Phase n) :
    (s.goTo j p).phase m = s.phase m :=
  Function.update_of_ne h ..

@[simp] theorem goTo_goTo (s : State n α ι) (j : ι) (p q : Phase n) :
    (s.goTo j p).goTo j q = s.goTo j q := by
  simp [goTo, Function.update_idem]

@[simp] theorem put_goTo (s : State n α ι) (j : ι) (p : Phase n) (i : Fin n) (a : α) :
    (s.goTo j p).put i a = (s.put i a).goTo j p := rfl

end State

section Steps

variable [DecidableEq ι] (free : α → Bool) (value : ι → α)

def step (s : State n α ι) (j : ι) : State n α ι :=
  match s.phase j with
  | .testing i => if free (s.cells i) then s.goTo j (.writing i) else s.goTo j (.next i)
  | .writing i => (s.put i (value j)).goTo j (.done (some i))
  | .done _ => s

/-- The step of process `j` from `s`, by cases. -/
inductive Move (s : State n α ι) (j : ι) : State n α ι → Prop where
  | found {i : Fin n} (test : s.phase j = .testing i) (isFree : free (s.cells i) = true) :
      Move s j (s.goTo j (.writing i))
  | passed {i : Fin n} (test : s.phase j = .testing i) (taken : free (s.cells i) = false) :
      Move s j (s.goTo j (.next i))
  | wrote {i : Fin n} (write : s.phase j = .writing i) :
      Move s j ((s.put i (value j)).goTo j (.done (some i)))
  | idle {cell : Option (Fin n)} (isDone : s.phase j = .done cell) : Move s j s

theorem move_step (s : State n α ι) (j : ι) : Move free value s j (step free value s j) := by
  unfold step
  split
  next i test =>
    split
    next isFree => exact .found test isFree
    next taken => exact .passed test (Bool.eq_false_iff.mpr taken)
  next i write => exact .wrote write
  next cell isDone => exact .idle isDone

/-! ## What holds in any order -/

structure Inv (cells₀ : Fin n → α) (s : State n α ι) : Prop where
  /-- A value is in no cell but the one that its process has written. -/
  placed : ∀ j i, s.cells i = value j → s.phase j = .done (some i)
  origin : ∀ i, s.cells i = cells₀ i ∨ ∃ j, s.cells i = value j
  /-- Only cells that were free in the beginning are written. -/
  target : ∀ j i, s.phase j = .writing i ∨ s.phase j = .done (some i) → free (cells₀ i) = true

/-- Every process that has written a cell still finds its value there. -/
def Intact (s : State n α ι) : Prop := ∀ j i, s.phase j = .done (some i) → s.cells i = value j

/-- If the next step of process `j` is a write, then into a cell that holds the
    value of no process. -/
def WritesFresh (s : State n α ι) (j : ι) : Prop :=
  ∀ i, s.phase j = .writing i → ∀ m, s.cells i ≠ value m

/-- The cells that a process has passed are taken. -/
structure Searched (s : State n α ι) : Prop where
  below : ∀ j i, s.phase j = .testing i → ∀ k < i, free (s.cells k) = false
  all : ∀ j, s.phase j = .done none → ∀ k, free (s.cells k) = false

end Steps

variable {free : α → Bool} {value : ι → α} {cells₀ : Fin n → α} {s s' : State n α ι} {j : ι}

theorem inv_start [NeZero n] (absent : ∀ j i, cells₀ i ≠ value j) :
    Inv free value cells₀ (start cells₀) where
  placed j i h := absurd h (absent j i)
  origin i := .inl rfl
  target j i h := by simp [start] at h

theorem intact_start [NeZero n] : Intact value (start cells₀ : State n α ι) := by
  intro j i h
  simp [start] at h

theorem searched_start [NeZero n] : Searched free (start cells₀ : State n α ι) where
  below j i h k hk := by
    simp only [start, Phase.testing.injEq] at h
    exact absurd (h ▸ hk) (Fin.not_lt_zero k)
  all j h := by simp [start] at h

/-- A cell that was not free in the beginning is never written. -/
theorem Inv.kept (h : Inv free value cells₀ s) {i : Fin n} (taken : free (cells₀ i) = false) :
    s.cells i = cells₀ i := by
  obtain hcell | ⟨m, hm⟩ := h.origin i
  · exact hcell
  · have hfree := h.target m i (.inr (h.placed m i hm))
    simp [taken] at hfree

/-- A fresh cell that is about to be written is free. -/
theorem Inv.free_of_fresh (h : Inv free value cells₀ s) {i : Fin n} (write : s.phase j = .writing i)
    (fresh : ∀ m, s.cells i ≠ value m) : free (s.cells i) = true := by
  obtain hcell | ⟨m, hm⟩ := h.origin i
  · rw [hcell]
    exact h.target j i (.inl write)
  · exact absurd hm (fresh m)

section

variable [DecidableEq ι]

/-- A step that moves no value, of a process that has written none. -/
theorem inv_goTo (h : Inv free value cells₀ s) {p : Phase n}
    (before : ∀ i, s.phase j ≠ .done (some i)) (after : ∀ i, p ≠ .done (some i))
    (target : ∀ i, p = .writing i → free (cells₀ i) = true) :
    Inv free value cells₀ (s.goTo j p) where
  placed m i hm := by
    have hdone := h.placed m i hm
    have hne : m ≠ j := fun he => before i (he ▸ hdone)
    simp [hne, hdone]
  origin := h.origin
  target m i hm := by
    by_cases hmj : m = j
    · simp only [hmj, State.goTo_phase_self] at hm
      exact target i (hm.resolve_right (after i))
    · simp only [State.goTo_phase_of_ne s hmj] at hm
      exact h.target m i hm

theorem inv_move (distinct : Function.Injective value) (h : Inv free value cells₀ s)
    (move : Move free value s j s') : Inv free value cells₀ s' := by
  cases move with
  | @found i test isFree =>
    have htarget : ∀ k, Phase.writing i = .writing k → free (cells₀ k) = true := by
      rintro _ ⟨⟩
      -- The cell is as it was, or its writer had found it free before.
      obtain hcell | ⟨m, hm⟩ := h.origin i
      · rwa [← hcell]
      · exact h.target m i (.inr (h.placed m i hm))
    exact inv_goTo h (by simp [test]) (by simp) htarget
  | @passed i test taken => exact inv_goTo h (by simp [test]) (by simp) (by simp)
  | @wrote i write =>
    constructor
    · intro m k hm
      by_cases hk : k = i
      · simp only [hk, State.goTo_cells, State.put_cells_self] at hm
        simp [hk, distinct hm]
      · simp only [State.goTo_cells, State.put_cells_of_ne s hk] at hm
        have hdone := h.placed m k hm
        have hne : m ≠ j := by
          rintro rfl
          simp [write] at hdone
        simp [hne, hdone]
    · intro k
      by_cases hk : k = i
      · exact .inr ⟨j, by simp [hk]⟩
      · simp only [State.goTo_cells, State.put_cells_of_ne s hk]
        exact h.origin k
    · intro m k hm
      by_cases hmj : m = j
      · simp only [hmj, State.goTo_phase_self] at hm
        obtain hm | hm := hm
        · cases hm
        · cases hm
          exact h.target j i (.inl write)
      · simp only [State.goTo_phase_of_ne _ hmj, State.put_phase] at hm
        exact h.target m k hm
  | idle isDone => exact h

/-! ## No write is lost -/

theorem intact_goTo (intact : Intact value s) {p : Phase n} (after : ∀ i, p ≠ .done (some i)) :
    Intact value (s.goTo j p) := by
  intro m k hm
  by_cases hmj : m = j
  · simp only [hmj, State.goTo_phase_self] at hm
    exact absurd hm (after k)
  · exact intact m k (by simpa [hmj] using hm)

theorem intact_of_goTo {p : Phase n} (before : ∀ i, s.phase j ≠ .done (some i))
    (intact : Intact value (s.goTo j p)) : Intact value s := by
  intro m k hm
  have hne : m ≠ j := fun he => before k (he ▸ hm)
  exact intact m k (by simpa [hne] using hm)

theorem intact_move_iff (distinct : Function.Injective value) (h : Inv free value cells₀ s)
    (intact : Intact value s) (move : Move free value s j s') :
    Intact value s' ↔ WritesFresh value s j := by
  cases move with
  | found test isFree =>
    exact ⟨fun _ k hk => by simp [test] at hk, fun _ => intact_goTo intact (by simp)⟩
  | passed test taken =>
    exact ⟨fun _ k hk => by simp [test] at hk, fun _ => intact_goTo intact (by simp)⟩
  | @wrote i write =>
    constructor
    · intro hafter k hk m hm
      rw [write] at hk
      cases hk
      -- The process whose value is there has another one after the write.
      have hdone := h.placed m i hm
      have hne : m ≠ j := by
        rintro rfl
        simp [write] at hdone
      have hvalue := hafter m i (by simpa [hne] using hdone)
      simp only [State.goTo_cells, State.put_cells_self] at hvalue
      exact hne (distinct hvalue).symm
    · intro hfresh m k hm
      by_cases hmj : m = j
      · simp only [hmj, State.goTo_phase_self, Phase.done.injEq, Option.some.injEq] at hm
        simp [← hm, hmj]
      · simp only [State.goTo_phase_of_ne _ hmj, State.put_phase] at hm
        have hvalue := intact m k hm
        have hk : k ≠ i := fun he => hfresh i write m (he ▸ hvalue)
        simp [hk, hvalue]
  | idle isDone => exact ⟨fun _ k hk => by simp [isDone] at hk, fun _ => intact⟩

/-- A value that has been overwritten does not come back. -/
theorem intact_of_move (distinct : Function.Injective value) (move : Move free value s j s')
    (intact : Intact value s') : Intact value s := by
  cases move with
  | found test isFree => exact intact_of_goTo (by simp [test]) intact
  | passed test taken => exact intact_of_goTo (by simp [test]) intact
  | @wrote i write =>
    intro m k hm
    have hne : m ≠ j := by
      rintro rfl
      simp [write] at hm
    have hvalue := intact m k (by simpa [hne] using hm)
    have hk : k ≠ i := by
      rintro rfl
      simp only [State.goTo_cells, State.put_cells_self] at hvalue
      exact hne (distinct hvalue).symm
    simpa [hk] using hvalue
  | idle isDone => exact intact

/-! ## No search runs off the end -/

theorem searched_goTo (searched : Searched free s) {p : Phase n}
    (below : ∀ i, p = .testing i → ∀ k < i, free (s.cells k) = false)
    (all : p = .done none → ∀ k, free (s.cells k) = false) : Searched free (s.goTo j p) where
  below m i hm := by
    by_cases hmj : m = j
    · simp only [hmj, State.goTo_phase_self] at hm
      exact below i hm
    · exact searched.below m i (by simpa [hmj] using hm)
  all m hm := by
    by_cases hmj : m = j
    · simp only [hmj, State.goTo_phase_self] at hm
      exact all hm
    · exact searched.all m (by simpa [hmj] using hm)

omit [DecidableEq ι] in
theorem searched_put (searched : Searched free s) {i : Fin n} (isFree : free (s.cells i) = true)
    (a : α) : Searched free (s.put i a) := by
  -- A cell that is taken is not the one written.
  have htaken : ∀ k, free (s.cells k) = false → free ((s.put i a).cells k) = false := by
    intro k hk
    have hne : k ≠ i := by
      rintro rfl
      simp [isFree] at hk
    simpa [hne] using hk
  exact ⟨fun m k hm l hl => htaken l (searched.below m k hm l hl),
    fun m hm k => htaken k (searched.all m hm k)⟩

theorem searched_move (h : Inv free value cells₀ s) (fresh : WritesFresh value s j)
    (searched : Searched free s) (move : Move free value s j s') : Searched free s' := by
  cases move with
  | found test isFree => exact searched_goTo searched (by simp) (by simp)
  | @passed i test taken =>
    have hbelow := searched.below j i test
    obtain ⟨k, hk, hnext⟩ | ⟨hlast, hnext⟩ := Phase.next_cases i
    · refine searched_goTo searched (fun l hl m hm => ?_) (by simp [hnext])
      rw [hnext] at hl
      cases hl
      -- The cells below the next one are those below `i`, and `i` itself.
      obtain hlt | heq : m < i ∨ m = i := by omega
      · exact hbelow m hlt
      · rwa [heq]
    · refine searched_goTo searched (by simp [hnext]) fun _ m => ?_
      obtain hlt | heq : m < i ∨ m = i := by omega
      · exact hbelow m hlt
      · rwa [heq]
  | wrote write =>
    have hput := searched_put searched (h.free_of_fresh write (fresh _ write)) (value j)
    exact searched_goTo hput (by simp) (by simp)
  | idle isDone => exact searched

/-! ## Whole runs -/

section

variable [Fintype ι]

/-- A search that has run off the end has seen more values than there are other
    processes. -/
theorem not_done_none (h : Inv free value cells₀ s) (searched : Searched free s)
    (room : Fintype.card ι ≤ (Finset.univ.filter fun i => free (cells₀ i)).card) (j : ι) :
    s.phase j ≠ .done none := by
  intro hj
  -- Every cell that was free in the beginning has been written, and not by `j`.
  have hwritten : (Finset.univ.filter fun i => free (cells₀ i)).image some ⊆
      (Finset.univ.erase j).image fun m => (s.phase m).cell := by
    intro cell hcell
    obtain ⟨i, hi, rfl⟩ := Finset.mem_image.mp hcell
    have hfree : free (cells₀ i) = true := by simpa using hi
    have htaken := searched.all j hj i
    obtain hsame | ⟨m, hm⟩ := h.origin i
    · simp [hsame, hfree] at htaken
    · have hdone := h.placed m i hm
      have hne : m ≠ j := by
        rintro rfl
        simp [hj] at hdone
      exact Finset.mem_image.mpr ⟨m, by simp [hne], by simp [hdone, Phase.cell]⟩
  have hle := (Finset.card_le_card hwritten).trans Finset.card_image_le
  have hlt := Finset.card_erase_lt_of_mem (Finset.mem_univ j)
  rw [Finset.card_image_of_injective _ (Option.some_injective _)] at hle
  rw [Finset.card_univ] at hlt
  omega

variable [NeZero n] (distinct : Function.Injective value) (absent : ∀ j i, cells₀ i ≠ value j)

include distinct absent

omit [Fintype ι] in
theorem inv_exec (run : List ι) : Inv free value cells₀ (exec (step free value) (start cells₀) run) := by
  have hkeep : ∀ (s : State n α ι) (j : ι), Inv free value cells₀ s →
      Inv free value cells₀ (step free value s j) :=
    fun s j h => inv_move distinct h (move_step free value s j)
  exact exec_invariant hkeep (inv_start absent) run

omit [Fintype ι] in
/-- A run loses no write exactly if every write is fresh. -/
theorem always_intact_iff (run : List ι) :
    Always (Intact value) (step free value) (start cells₀) run ↔
      Guarded (WritesFresh value) (step free value) (start cells₀) run := by
  have hkeep : ∀ (s : State n α ι) (j : ι), Inv free value cells₀ s → True →
      Inv free value cells₀ (step free value s j) :=
    fun s j h _ => inv_move distinct h (move_step free value s j)
  have hexact : ∀ (s : State n α ι) (j : ι), Inv free value cells₀ s → True → Intact value s →
      (Intact value (step free value s j) ↔ WritesFresh value s j) :=
    fun s j h _ intact => intact_move_iff distinct h intact (move_step free value s j)
  exact always_iff_guarded hkeep hexact (inv_start absent) intact_start
    (guarded_of_forall fun _ _ _ => trivial)

/-- When all processes are done, all values are there exactly if every write has
    been fresh. -/
theorem all_inserted_iff
    (room : Fintype.card ι ≤ (Finset.univ.filter fun i => free (cells₀ i)).card) {run : List ι}
    (complete : ∀ j, ∃ cell, (exec (step free value) (start cells₀) run).phase j = .done cell) :
    (∀ j, ∃ i, (exec (step free value) (start cells₀) run).cells i = value j) ↔
      Guarded (WritesFresh value) (step free value) (start cells₀) run := by
  have hinv : Inv free value cells₀ (exec (step free value) (start cells₀) run) :=
    inv_exec distinct absent run
  rw [← always_intact_iff distinct absent]
  constructor
  · intro h
    have hback : ∀ (s : State n α ι) (j : ι), Intact value (step free value s j) → Intact value s :=
      fun s j => intact_of_move distinct (move_step free value s j)
    refine always_of_last hback fun j k hk => ?_
    -- The one cell that can hold the value is the one written.
    obtain ⟨i, hi⟩ := h j
    have hdone := hinv.placed j i hi
    rw [hk] at hdone
    cases hdone
    exact hi
  · intro always j
    have hguard := (always_intact_iff distinct absent run).mp always
    have hkeep : ∀ (s : State n α ι) (j : ι), Inv free value cells₀ s ∧ Searched free s →
        WritesFresh value s j → Inv free value cells₀ (step free value s j) ∧
          Searched free (step free value s j) :=
      fun s j h fresh => ⟨inv_move distinct h.1 (move_step free value s j),
        searched_move h.1 fresh h.2 (move_step free value s j)⟩
    have hsearched := (always_of_guarded hkeep ⟨inv_start absent, searched_start⟩ hguard).last.2
    obtain ⟨cell, hcell⟩ := complete j
    cases cell with
    | none => exact absurd hcell (not_done_none hinv hsearched room j)
    | some i => exact ⟨i, always.last j i hcell⟩

end

/-! ## One process alone -/

theorem step_found {i : Fin n} (test : s.phase j = .testing i) (isFree : free (s.cells i) = true) :
    step free value s j = s.goTo j (.writing i) := by
  simp [step, test, isFree]

theorem step_passed {i : Fin n} (test : s.phase j = .testing i) (taken : free (s.cells i) = false) :
    step free value s j = s.goTo j (.next i) := by
  simp [step, test, taken]

theorem step_wrote {i : Fin n} (write : s.phase j = .writing i) :
    step free value s j = (s.put i (value j)).goTo j (.done (some i)) := by
  simp [step, write]

/-- A process that has come to cell `k` goes on to the first free one. -/
theorem exec_alone_from {i k : Fin n} (hi : free (s.cells i) = true)
    (low : ∀ l < i, free (s.cells l) = false) (hk : k ≤ i) (test : s.phase j = .testing k) :
    ∃ d, exec (step free value) s (List.replicate d j) =
      (s.put i (value j)).goTo j (.done (some i)) := by
  obtain ⟨d, hd⟩ : ∃ d, i.val = k.val + d := ⟨i.val - k.val, by omega⟩
  induction d generalizing k s with
  | zero =>
    obtain rfl : i = k := Fin.ext hd
    refine ⟨2, ?_⟩
    rw [List.replicate_succ, List.replicate_succ, exec_cons, exec_cons, step_found test hi,
      step_wrote (s.goTo_phase_self j _)]
    simp
  | succ d ih =>
    have hlt : k < i := by omega
    obtain ⟨k', hk', hnext⟩ | ⟨hlast, _⟩ := Phase.next_cases k
    · have hstep : step free value s j = s.goTo j (.testing k') := by
        rw [step_passed test (low k hlt), hnext]
      obtain ⟨e, he⟩ := ih (s := s.goTo j (.testing k')) hi low (by omega)
        (s.goTo_phase_self j _) (by omega)
      refine ⟨e + 1, ?_⟩
      rw [List.replicate_succ, exec_cons, hstep, he]
      simp
    · have hin := i.isLt
      omega

/-- Where no cell is free, a process comes to the end and has written nothing. -/
theorem exec_alone_taken {k : Fin n} (taken : ∀ l, free (s.cells l) = false)
    (test : s.phase j = .testing k) :
    ∃ d, exec (step free value) s (List.replicate d j) = s.goTo j (.done none) := by
  obtain ⟨d, hd⟩ : ∃ d, n = k.val + 1 + d := ⟨n - (k.val + 1), by omega⟩
  induction d generalizing k s with
  | zero =>
    obtain ⟨k', hk', _⟩ | ⟨_, hnext⟩ := Phase.next_cases k
    · have hlt := k'.isLt
      omega
    · exact ⟨1, by simp [step_passed test (taken k), hnext]⟩
  | succ d ih =>
    obtain ⟨k', hk', hnext⟩ | ⟨hlast, _⟩ := Phase.next_cases k
    · have hstep : step free value s j = s.goTo j (.testing k') := by
        rw [step_passed test (taken k), hnext]
      obtain ⟨e, he⟩ := ih (s := s.goTo j (.testing k')) taken (s.goTo_phase_self j _) (by omega)
      refine ⟨e + 1, ?_⟩
      rw [List.replicate_succ, exec_cons, hstep, he]
      simp
    · omega

/-- Alone, a process writes its value into the first free cell. -/
theorem exec_alone [NeZero n] {i : Fin n} (hi : free (s.cells i) = true)
    (low : ∀ l < i, free (s.cells l) = false) (test : s.phase j = .testing 0) :
    ∃ d, exec (step free value) s (List.replicate d j) =
      (s.put i (value j)).goTo j (.done (some i)) :=
  exec_alone_from hi low (Fin.zero_le i) test

end

end Imq.Lib.FirstFit
