import Mathlib.Data.List.Basic

/-! # UTF-8

Byte sequences that encode Unicode scalar values, over any type of bytes with
their values: no overlong form, no surrogate, nothing above U+10FFFF.

* `Utf8.Sequence` — the bytes of one character;
* `Utf8.Valid` — any number of characters; `valid_append_cons_iff` cuts at an ASCII
  byte.
-/

namespace Imq.Lib.Utf8

variable {β : Type} (val : β → Nat)

def Between (low high : Nat) (b : β) : Prop := low ≤ val b ∧ val b ≤ high

/-- A continuation byte. -/
def Tail (b : β) : Prop := Between val 0x80 0xBF b

/-- The bytes of one character. -/
inductive Sequence : List β → Prop where
  | ascii {a : β} (ha : val a ≤ 0x7F) : Sequence [a]
  | two {a b : β} (ha : Between val 0xC2 0xDF a) (hb : Tail val b) : Sequence [a, b]
  | afterE0 {a b c : β} (ha : val a = 0xE0) (hb : Between val 0xA0 0xBF b) (hc : Tail val c) :
      Sequence [a, b, c]
  | three {a b c : β} (ha : Between val 0xE1 0xEF a) (hne : val a ≠ 0xED) (hb : Tail val b)
      (hc : Tail val c) : Sequence [a, b, c]
  | afterED {a b c : β} (ha : val a = 0xED) (hb : Between val 0x80 0x9F b) (hc : Tail val c) :
      Sequence [a, b, c]
  | afterF0 {a b c d : β} (ha : val a = 0xF0) (hb : Between val 0x90 0xBF b) (hc : Tail val c)
      (hd : Tail val d) : Sequence [a, b, c, d]
  | four {a b c d : β} (ha : Between val 0xF1 0xF3 a) (hb : Tail val b) (hc : Tail val c)
      (hd : Tail val d) : Sequence [a, b, c, d]
  | afterF4 {a b c d : β} (ha : val a = 0xF4) (hb : Between val 0x80 0x8F b) (hc : Tail val c)
      (hd : Tail val d) : Sequence [a, b, c, d]

inductive Valid : List β → Prop where
  | nil : Valid []
  | cons {s rest : List β} (first : Sequence val s) (valid : Valid rest) : Valid (s ++ rest)

variable {val}

theorem Sequence.ne_nil {s : List β} (h : Sequence val s) : s ≠ [] := by
  cases h <;> simp

/-- Behind a first byte that is not ASCII, no byte is. -/
theorem Sequence.not_ascii {a : β} {s : List β} (h : Sequence val (a :: s)) (ha : 0x80 ≤ val a) :
    ∀ b ∈ a :: s, 0x80 ≤ val b := by
  have hbetween {low high : Nat} {b : β} (hb : Between val low high b) (hlow : 0x80 ≤ low) :
      0x80 ≤ val b := Nat.le_trans hlow hb.1
  cases h with
  | ascii ha' => omega
  | two _ hb => simp [ha, hbetween hb]
  | afterE0 _ hb hc => simp [ha, hbetween hb, hbetween hc]
  | three _ _ hb hc => simp [ha, hbetween hb, hbetween hc]
  | afterED _ hb hc => simp [ha, hbetween hb, hbetween hc]
  | afterF0 _ hb hc hd => simp [ha, hbetween hb, hbetween hc, hbetween hd]
  | four _ hb hc hd => simp [ha, hbetween hb, hbetween hc, hbetween hd]
  | afterF4 _ hb hc hd => simp [ha, hbetween hb, hbetween hc, hbetween hd]

theorem Sequence.eq_nil_of_ascii {a : β} {s : List β} (h : Sequence val (a :: s))
    (ha : val a ≤ 0x7F) : s = [] ∧ val a ≤ 0x7F := by
  refine ⟨?_, ha⟩
  cases h with
  | ascii => rfl
  | two hlead => exact absurd hlead.1 (by omega)
  | three hlead => exact absurd hlead.1 (by omega)
  | four hlead => exact absurd hlead.1 (by omega)
  | afterE0 hlead | afterED hlead | afterF0 hlead | afterF4 hlead => omega

theorem Valid.of_sequence {s : List β} (h : Sequence val s) : Valid val s := by
  simpa using Valid.cons h .nil

theorem Valid.append {s t : List β} (hs : Valid val s) (ht : Valid val t) :
    Valid val (s ++ t) := by
  induction hs with
  | nil => exact ht
  | cons first _ ih =>
    rw [List.append_assoc]
    exact .cons first ih

theorem Valid.cons_ascii {a : β} {t : List β} (ha : val a ≤ 0x7F) (ht : Valid val t) :
    Valid val (a :: t) := .cons (.ascii ha) ht

theorem Valid.of_ascii {s : List β} (h : ∀ a ∈ s, val a ≤ 0x7F) : Valid val s := by
  induction s with
  | nil => exact .nil
  | cons a s ih =>
    exact .cons_ascii (h a List.mem_cons_self) (ih fun b hb => h b (List.mem_cons_of_mem a hb))

/-- No character goes across an ASCII byte. -/
theorem Valid.cut {s : List β} {a : β} {t : List β} (h : Valid val (s ++ a :: t))
    (ha : val a ≤ 0x7F) : Valid val s ∧ Valid val t := by
  generalize hw : s ++ a :: t = w at h
  induction h generalizing s with
  | nil => simp at hw
  | @cons first rest hfirst hrest ih =>
    obtain ⟨b, first, rfl⟩ := List.exists_cons_of_ne_nil hfirst.ne_nil
    cases s with
    | nil =>
      injection hw with hb hw
      obtain ⟨rfl, _⟩ := hfirst.eq_nil_of_ascii (hb ▸ ha)
      rw [hw]
      exact ⟨.nil, hrest⟩
    | cons c s =>
      injection hw with hc hw
      subst hc
      obtain ⟨u, rfl, hu⟩ | ⟨u, rfl, hu⟩ := List.append_eq_append_iff.mp hw
      · cases u with
        | nil =>
          -- The character ends where the cut is.
          rw [List.append_nil] at hfirst
          exact ⟨.of_sequence hfirst, (ih (s := []) hu).2⟩
        | cons d u =>
          -- The byte at the cut would be one of the character's.
          injection hu with hd
          subst hd
          by_cases hc : 0x80 ≤ val c
          · have hbyte := hfirst.not_ascii hc a (by simp)
            omega
          · obtain ⟨hnil, _⟩ := hfirst.eq_nil_of_ascii (by omega)
            simp at hnil
      · obtain ⟨hu, ht⟩ := ih hu.symm
        exact ⟨.cons hfirst hu, ht⟩

/-- Text is cut at an ASCII byte into two texts. -/
theorem valid_append_cons_iff {s : List β} {a : β} {t : List β} (ha : val a ≤ 0x7F) :
    Valid val (s ++ a :: t) ↔ Valid val s ∧ Valid val t :=
  ⟨fun h => h.cut ha, fun h => h.1.append (h.2.cons_ascii ha)⟩

end Imq.Lib.Utf8
