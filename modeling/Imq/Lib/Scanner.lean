import Mathlib.Data.List.Basic

/-! # Scanners that look ahead

A scanner reads a token off the front of a text: it goes from label to label, one
character at a time, and remembers the last label at which a token could have
ended, to go back there if the characters that follow lead nowhere.  The text
ends in a character `eof` on which no label goes on.
-/

namespace Imq.Lib

/-- What a label does on a character: the character is taken and `goto` goes on;
    or the token ends, before the character or with it; or the scanner goes back
    to its mark. -/
inductive ScanNext (L T : Type) where
  | goto (l : L)
  | accept (t : T)
  | take (t : T)
  | backtrack

/-- The token that ends after `n` characters, with its length. -/
def ScanNext.finish {L T : Type} (n : Nat) (mark : T × Nat) : ScanNext L T → T × Nat
  | .accept t => (t, n)
  | .take t => (t, n + 1)
  | .goto _ | .backtrack => mark

structure Scanner (α L T : Type) where
  dispatch : L → α → ScanNext L T
  /-- The token that ends at this label, if the scanner comes back to it. -/
  mark : L → Option T
  eof : α
  stops : ∀ l l', dispatch l eof ≠ .goto l'

namespace Scanner

variable {α L T : Type} (m : Scanner α L T)

/-- The mark at label `l`, which is reached after `n` characters. -/
def marked (l : L) (n : Nat) (mark : T × Nat) : T × Nat :=
  match m.mark l with
  | some t => (t, n)
  | none => mark

/-- The token read from label `l` on, after `n` characters, and its length. -/
def run (l : L) (n : Nat) (mark : T × Nat) : List α → T × Nat
  | [] => (m.dispatch l m.eof).finish n (m.marked l n mark)
  | c :: cs =>
    match m.dispatch l c with
    | .goto l' => run l' (n + 1) (m.marked l n mark) cs
    | next => next.finish n (m.marked l n mark)

variable {m}

theorem run_goto {l l' : L} {c : α} (h : m.dispatch l c = .goto l') (n : Nat) (mark : T × Nat)
    (cs : List α) : m.run l n mark (c :: cs) = m.run l' (n + 1) (m.marked l n mark) cs := by
  rw [run, h]

theorem run_take {l : L} {c : α} {t : T} (h : m.dispatch l c = .take t) (n : Nat) (mark : T × Nat)
    (cs : List α) : m.run l n mark (c :: cs) = (t, n + 1) := by
  rw [run, h]
  rfl

theorem run_accept {l : L} {c : α} {t : T} (h : m.dispatch l c = .accept t) (n : Nat)
    (mark : T × Nat) (cs : List α) : m.run l n mark (c :: cs) = (t, n) := by
  rw [run, h]
  rfl

theorem run_backtrack {l : L} {c : α} (h : m.dispatch l c = .backtrack) (n : Nat)
    (mark : T × Nat) (cs : List α) : m.run l n mark (c :: cs) = m.marked l n mark := by
  rw [run, h]
  rfl

/-- What the labels on the way keep to, the token keeps to. -/
theorem run_token {P : L → Prop} {Q : T → Prop}
    (goto : ∀ {l l' c}, P l → m.dispatch l c = .goto l' → P l')
    (accept : ∀ {l t c}, P l → m.dispatch l c = .accept t → Q t)
    (take : ∀ {l t c}, P l → m.dispatch l c = .take t → Q t)
    (marks : ∀ {l t}, P l → m.mark l = some t → Q t)
    {l : L} (hl : P l) {mark : T × Nat} (hmark : Q mark.1) (n : Nat) (cs : List α) :
    Q (m.run l n mark cs).1 := by
  have hmarked : ∀ {l : L} {mark : T × Nat} (n : Nat), P l → Q mark.1 →
      Q (m.marked l n mark).1 := by
    intro l mark n hl hmark
    unfold marked
    cases h : m.mark l with
    | none => exact hmark
    | some t => exact marks hl h
  induction cs generalizing l n mark with
  | nil =>
    rw [run]
    cases h : m.dispatch l m.eof with
    | goto l' => exact absurd h (m.stops l l')
    | accept => exact accept hl h
    | take => exact take hl h
    | backtrack => exact hmarked n hl hmark
  | cons c cs ih =>
    cases h : m.dispatch l c with
    | goto l' =>
      rw [run_goto h]
      exact ih (goto hl h) (hmarked n hl hmark) (n + 1)
    | accept =>
      rw [run_accept h]
      exact accept hl h
    | take =>
      rw [run_take h]
      exact take hl h
    | backtrack =>
      rw [run_backtrack h]
      exact hmarked n hl hmark

/-- No token is empty from behind the first character on, where the label can end one. -/
theorem run_length_pos {l : L} {n : Nat} {mark : T × Nat} (hn : 0 < n)
    (hmark : 0 < mark.2 ∨ m.mark l ≠ none) (cs : List α) : 0 < (m.run l n mark cs).2 := by
  have hmarked : ∀ {l : L} {n : Nat} {mark : T × Nat}, 0 < n → 0 < mark.2 ∨ m.mark l ≠ none →
      0 < (m.marked l n mark).2 := by
    intro l n mark hn hmark
    unfold marked
    cases h : m.mark l with
    | none =>
      obtain hmark | hmark := hmark
      · exact hmark
      · exact absurd h hmark
    | some t => exact hn
  induction cs generalizing l n mark with
  | nil =>
    rw [run]
    cases h : m.dispatch l m.eof with
    | goto l' => exact absurd h (m.stops l l')
    | accept => exact hn
    | take => exact Nat.succ_pos n
    | backtrack => exact hmarked hn hmark
  | cons c cs ih =>
    cases h : m.dispatch l c with
    | goto l' =>
      rw [run_goto h]
      exact ih (Nat.succ_pos n) (.inl (hmarked hn hmark))
    | accept =>
      rw [run_accept h]
      exact hn
    | take =>
      rw [run_take h]
      exact Nat.succ_pos n
    | backtrack =>
      rw [run_backtrack h]
      exact hmarked hn hmark

/-- A token ends in the text, but for one that takes `eof`. -/
theorem run_length_le {t₀ : T} (take : ∀ {l t}, m.dispatch l m.eof = .take t → t = t₀) {l : L}
    {n : Nat} {mark : T × Nat} (hmark : mark.2 ≤ n) (cs : List α) :
    (m.run l n mark cs).1 = t₀ ∨ (m.run l n mark cs).2 ≤ n + cs.length := by
  have hmarked : ∀ {l : L} {n : Nat} {mark : T × Nat}, mark.2 ≤ n → (m.marked l n mark).2 ≤ n := by
    intro l n mark hmark
    unfold marked
    cases m.mark l with
    | none => exact hmark
    | some t => exact Nat.le_refl n
  induction cs generalizing l n mark with
  | nil =>
    rw [run]
    cases h : m.dispatch l m.eof with
    | goto l' => exact absurd h (m.stops l l')
    | accept => exact .inr (Nat.le_refl n)
    | take => exact .inl (take h)
    | backtrack => exact .inr (hmarked hmark)
  | cons c cs ih =>
    cases h : m.dispatch l c with
    | goto l' =>
      rw [run_goto h, List.length_cons, Nat.add_comm cs.length, ← Nat.add_assoc]
      exact ih (Nat.le_succ_of_le (hmarked hmark))
    | accept =>
      rw [run_accept h]
      exact .inr (Nat.le_add_right n _)
    | take =>
      rw [run_take h, List.length_cons]
      exact .inr (Nat.add_le_add_left (Nat.le_add_left 1 _) n)
    | backtrack =>
      rw [run_backtrack h]
      exact .inr (Nat.le_trans (hmarked hmark) (Nat.le_add_right n _))

/-- The end of the text is as good as `eof`, -/
theorem run_nil (l : L) (n : Nat) (mark : T × Nat) (cs : List α) :
    m.run l n mark (m.eof :: cs) = m.run l n mark [] := by
  rw [run, run]
  cases h : m.dispatch l m.eof with
  | goto l' => exact absurd h (m.stops l l')
  | accept | take | backtrack => rfl

/-- and nothing behind `eof` is looked at. -/
theorem run_append_eof (l : L) (n : Nat) (mark : T × Nat) (cs rest : List α) :
    m.run l n mark (cs ++ m.eof :: rest) = m.run l n mark cs := by
  induction cs generalizing l n mark with
  | nil => exact run_nil l n mark rest
  | cons c cs ih =>
    rw [List.cons_append, run, run]
    cases m.dispatch l c with
    | goto l' => exact ih l' (n + 1) (m.marked l n mark)
    | accept | take | backtrack => rfl

end Scanner

end Imq.Lib
