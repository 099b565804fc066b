import Imq.Lib.Runs

/-! # Threads on shared state

A thread is code that is cut into its accesses to a state that others may change
in between: it has ended, or it makes an access and goes on with the answer.

* `Thread.run` — what the thread does if nothing comes in between;
* `Thread.Reaches` — how far it has got in that way;
* `Thread.exists_run` — a system in which it goes on alone;
* `Thread.Only` — which accesses it makes;
* `Thread.Safe` — what it does among others that keep to a `Contract`.
-/

namespace Imq.Lib

inductive Thread (ε : Type) {Op : Type} (Answer : Op → Type) (α : Type) where
  | ended (result : Except ε α)
  | access (op : Op) (rest : Answer op → Thread ε Answer α)

namespace Thread

variable {ε Op σ α β : Type} {Answer : Op → Type}

def bind : Thread ε Answer α → (α → Thread ε Answer β) → Thread ε Answer β
  | ended (.ok a), f => f a
  | ended (.error e), _ => ended (.error e)
  | access op rest, f => access op fun answer => (rest answer).bind f

instance : Monad (Thread ε Answer) where
  pure a := ended (.ok a)
  bind := bind

/-- A single access. -/
def make (op : Op) : Thread ε Answer (Answer op) := access op fun answer => ended (.ok answer)

/-- Code without accesses. -/
def ofExcept (result : Except ε α) : Thread ε Answer α := ended result

theorem id_map (x : Thread ε Answer α) : id <$> x = x := by
  induction x with
  | ended result => cases result <;> rfl
  | access op rest ih => exact congrArg (access op) (funext ih)

theorem bind_assoc {γ : Type} (x : Thread ε Answer α) (f : α → Thread ε Answer β)
    (g : β → Thread ε Answer γ) : x >>= f >>= g = x >>= fun a => f a >>= g := by
  induction x with
  | ended result => cases result <;> rfl
  | access op rest ih => exact congrArg (access op) (funext ih)

instance : LawfulMonad (Thread ε Answer) := .mk' _ id_map (fun _ _ => rfl) bind_assoc

/-! ## Without interruption -/

section

variable (perform : (op : Op) → σ → Answer op × σ)

/-- How a result stands in a state. -/
def resultIn (result : Except ε α) (s : σ) : EStateM.Result ε σ α :=
  match result with
  | .ok a => .ok a s
  | .error e => .error e s

def run : Thread ε Answer α → EStateM ε σ α
  | ended result => fun s => resultIn result s
  | access op rest => fun s => (rest (perform op s).1).run (perform op s).2

variable {perform}

theorem run_bind (x : Thread ε Answer α) (f : α → Thread ε Answer β) :
    (x >>= f).run perform = x.run perform >>= fun a => (f a).run perform := by
  funext s
  induction x generalizing s with
  | ended result => cases result <;> rfl
  | access op rest ih => exact ih (perform op s).1 (perform op s).2

theorem resultIn_injective {r r' : Except ε α} {s s' : σ}
    (h : resultIn r s = resultIn r' s') : r = r' ∧ s = s' := by
  cases r <;> cases r' <;> cases h <;> exact ⟨rfl, rfl⟩

/-- From the first of these states, the thread gets to the second by itself. -/
inductive Reaches (perform : (op : Op) → σ → Answer op × σ) (t : Thread ε Answer α) (s : σ) :
    Thread ε Answer α → σ → Prop where
  | refl : Reaches perform t s t s
  | access {op : Op} {rest : Answer op → Thread ε Answer α} {s' : σ}
      (before : Reaches perform t s (access op rest) s') :
      Reaches perform t s (rest (perform op s').1) (perform op s').2

theorem Reaches.run_eq {t t' : Thread ε Answer α} {s s' : σ} (h : Reaches perform t s t' s') :
    t.run perform s = t'.run perform s' := by
  induction h with
  | refl => rfl
  | access _ ih => exact ih

/-- What a thread that has ended by itself has done. -/
theorem Reaches.run_of_ended {t : Thread ε Answer α} {result : Except ε α} {s s' : σ}
    (h : Reaches perform t s (ended result) s') : t.run perform s = resultIn result s' :=
  h.run_eq

variable (perform) {τ ι : Type} {step : τ → ι → Option τ} {guard : τ → ι → Prop} {label : ι}
  (place : Thread ε Answer α → σ → τ) {t : Thread ε Answer α} {s s' : σ} {result : Except ε α}

/-- In a system that has a step for each access of a thread, the thread can go on alone. -/
theorem exists_run (ok : ∀ t s, guard (place t s) label)
    (next : ∀ op rest s, step (place (access op rest) s) label =
      some (place (rest (perform op s).1) (perform op s).2))
    (h : t.run perform s = resultIn result s') :
    ∃ k, Run step guard (place t s) (List.replicate k label) (place (ended result) s') := by
  induction t generalizing s with
  | ended r =>
    obtain ⟨rfl, rfl⟩ := resultIn_injective h
    exact ⟨0, .nil⟩
  | access op rest ih =>
    obtain ⟨k, hrun⟩ := ih (perform op s).1 h
    exact ⟨k + 1, (Run.single (ok _ _) (next op rest s)).append hrun⟩

/-- So it can up to the step that ends it. -/
theorem exists_run_of_last {s₀ s₁ : τ} (start : place t s = s₀)
    (ok : ∀ t s, guard (place t s) label)
    (next : ∀ op rest s, step (place (access op rest) s) label =
      some (place (rest (perform op s).1) (perform op s).2))
    (h : t.run perform s = resultIn result s')
    (last : step (place (ended result) s') label = some s₁) :
    ∃ k, Run step guard s₀ (List.replicate k label) s₁ := by
  obtain ⟨k, hrun⟩ := exists_run perform place ok next h
  rw [start] at hrun
  have hall := hrun.append (Run.single (ok ..) last)
  rw [← List.replicate_succ'] at hall
  exact ⟨k + 1, hall⟩

/-- And up to where its next part begins. -/
theorem exists_run_bind {a : α} (f : α → Thread ε Answer β)
    (place : Thread ε Answer β → σ → τ) (ok : ∀ t s, guard (place t s) label)
    (next : ∀ op rest s, step (place (access op rest) s) label =
      some (place (rest (perform op s).1) (perform op s).2))
    (h : t.run perform s = .ok a s') :
    ∃ k, Run step guard (place (t >>= f) s) (List.replicate k label) (place (f a) s') := by
  have hrun : t.run perform s = resultIn (.ok a) s' := h
  exact exists_run perform (fun t s => place (t >>= f) s) (fun _ _ => ok _ _)
    (fun op rest s => next op (fun answer => rest answer >>= f) s) hrun

end

/-! ## Which accesses a thread makes -/

/-- Whatever the answers are, the thread makes no other accesses than these. -/
def Only (ok : Op → Prop) : Thread ε Answer α → Prop
  | ended _ => True
  | access op rest => ok op ∧ ∀ answer, (rest answer).Only ok

section

variable {ok : Op → Prop}

theorem Only.ended (result : Except ε α) : (Thread.ended result : Thread ε Answer α).Only ok :=
  trivial

theorem Only.make {op : Op} (h : ok op) : (make op : Thread ε Answer (Answer op)).Only ok :=
  ⟨h, fun _ => trivial⟩

theorem Only.mono {ok' : Op → Prop} (h : ∀ op, ok op → ok' op) {t : Thread ε Answer α}
    (only : t.Only ok) : t.Only ok' := by
  induction t with
  | ended result => trivial
  | access op rest ih => exact ⟨h op only.1, fun answer => ih answer (only.2 answer)⟩

theorem Only.bind {x : Thread ε Answer α} {f : α → Thread ε Answer β} (hx : x.Only ok)
    (hf : ∀ a, (f a).Only ok) : (x >>= f).Only ok := by
  induction x with
  | ended result =>
    cases result with
    | ok a => exact hf a
    | error e => trivial
  | access op rest ih => exact ⟨hx.1, fun answer => ih answer (hx.2 answer)⟩

end

/-! ## Among others -/

end Thread

/-- What holds of the state all the time, what others may do between two accesses of a
    thread, and which accesses the thread may make. -/
structure Contract (σ Op : Type) where
  inv : σ → Prop
  rely : σ → σ → Prop
  ok : σ → Op → Prop
  refl : ∀ s, rely s s
  trans : ∀ {s₁ s₂ s₃}, rely s₁ s₂ → rely s₂ s₃ → rely s₁ s₃

namespace Thread

variable {ε Op σ α β : Type} {Answer : Op → Type}

/-- From this state on, whatever others do that the contract allows, the thread makes only
    accesses that the contract allows, and its end meets `Q`. -/
def Safe (perform : (op : Op) → σ → Answer op × σ) (c : Contract σ Op)
    (Q : Except ε α → σ → Prop) : Thread ε Answer α → σ → Prop
  | ended result, s => ∀ s', c.rely s s' → c.inv s' → Q result s'
  | access op rest, s => ∀ s', c.rely s s' → c.inv s' →
      c.ok s' op ∧ (rest (perform op s').1).Safe perform c Q (perform op s').2

variable {perform : (op : Op) → σ → Answer op × σ} {c : Contract σ Op} {Q : Except ε α → σ → Prop}

/-- What others do leaves a thread safe. -/
theorem Safe.stable {t : Thread ε Answer α} {s s' : σ} (h : Safe perform c Q t s)
    (moved : c.rely s s') : Safe perform c Q t s' := by
  cases t with
  | ended result => exact fun s'' later inv => h s'' (c.trans moved later) inv
  | access op rest => exact fun s'' later inv => h s'' (c.trans moved later) inv

/-- What comes next in a state in which nothing has changed. -/
theorem Safe.next {op : Op} {rest : Answer op → Thread ε Answer α} {s : σ}
    (h : Safe perform c Q (access op rest) s) (inv : c.inv s) :
    c.ok s op ∧ Safe perform c Q (rest (perform op s).1) (perform op s).2 :=
  h s (c.refl s) inv

theorem Safe.result {result : Except ε α} {s : σ} (h : Safe perform c Q (ended result) s)
    (inv : c.inv s) : Q result s :=
  h s (c.refl s) inv

theorem Safe.mono {Q' : Except ε α → σ → Prop} (hQ : ∀ r s, Q r s → Q' r s)
    {t : Thread ε Answer α} {s : σ} (h : Safe perform c Q t s) : Safe perform c Q' t s := by
  induction t generalizing s with
  | ended result => exact fun s' moved inv => hQ _ _ (h s' moved inv)
  | access op rest ih =>
    intro s' moved inv
    obtain ⟨hok, hrest⟩ := h s' moved inv
    exact ⟨hok, ih _ hrest⟩

/-- What is shown for the time when it is looked at next holds from now on. -/
theorem Safe.of_later {t : Thread ε Answer α} {s : σ}
    (h : ∀ s', c.rely s s' → c.inv s' → Safe perform c Q t s') : Safe perform c Q t s := by
  cases t with
  | ended result => exact fun s' moved inv => (h s' moved inv).result inv
  | access op rest => exact fun s' moved inv => (h s' moved inv).next inv

/-- The rule of sequence. -/
theorem Safe.bind {P : Except ε β → σ → Prop} {x : Thread ε Answer β}
    {f : β → Thread ε Answer α} {s : σ} (h : Safe perform c P x s)
    (ok : ∀ b s', c.inv s' → P (.ok b) s' → Safe perform c Q (f b) s')
    (error : ∀ e s', P (.error e) s' → Q (.error e) s') : Safe perform c Q (x >>= f) s := by
  induction x generalizing s with
  | ended result =>
    cases result with
    | error e => exact fun s' moved inv => error e s' (h s' moved inv)
    | ok b => exact .of_later fun s' moved inv => ok b s' inv (h s' moved inv)
  | access op rest ih =>
    intro s' moved inv
    obtain ⟨hok, hrest⟩ := h s' moved inv
    exact ⟨hok, ih _ hrest⟩

end Thread

end Imq.Lib
