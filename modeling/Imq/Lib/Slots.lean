import Mathlib.Logic.Function.Basic
import Mathlib.Data.List.FinRange
import Mathlib.Data.List.Nodup

/-! # Sparse slot arrays

A `Slots n α` is an array of `n` slots, each of them empty or holding one
element.  An element is put into the lowest empty slot, taken out again at its
first occurrence, and a whole array is laid over another one by a `Patch`.

* `Holds`, `Unique` — membership, and "no element sits in two slots";
* `insert`, `register`, `erase` — first-fit insertion, insertion of an absent
  element only, and removal of the first occurrence;
* `Patch`, `patch` — an overlay, with the exact conditions under which it keeps
  `Unique`, keeps an element, or yields a given array;
* `ofList` — the hole-free arrays, on which `insert` appends.
-/

namespace Imq.Lib

/-- An array of `n` slots, each empty or holding an element. -/
abbrev Slots (n : Nat) (α : Type) := Fin n → Option α

namespace Slots

variable {n : Nat} {α : Type}

/-- The element sits in some slot. -/
def Holds (t : Slots n α) (a : α) : Prop := ∃ i, t i = some a

/-- No element sits in two slots. -/
def Unique (t : Slots n α) : Prop := ∀ i j a, t i = some a → t j = some a → i = j

/-- Every slot is occupied. -/
def Full (t : Slots n α) : Prop := ∀ i, t i ≠ none

/-- The array with no element. -/
def empty : Slots n α := fun _ => none

instance [DecidableEq α] (t : Slots n α) (a : α) : Decidable (t.Holds a) :=
  inferInstanceAs (Decidable (∃ i, t i = some a))

@[simp] theorem not_holds_empty (a : α) : ¬ Holds (empty : Slots n α) a := by
  rintro ⟨i, hi⟩; cases hi

theorem unique_empty : Unique (empty : Slots n α) := by
  intro i j a hi _; cases hi

/-! ## First-fit insertion -/

/-- The lowest empty slot. -/
def firstFree (t : Slots n α) : Option (Fin n) := Fin.find? fun i => (t i).isNone

theorem firstFree_eq_some_iff {t : Slots n α} {i : Fin n} :
    t.firstFree = some i ↔ t i = none ∧ ∀ j < i, t j ≠ none := by
  simp only [firstFree, Fin.find?_eq_some_iff, Option.isNone_iff_eq_none, Option.isNone_eq_false_iff,
    Option.isSome_iff_ne_none]

theorem firstFree_eq_none_iff {t : Slots n α} : t.firstFree = none ↔ t.Full := by
  simp only [firstFree, Fin.find?_eq_none_iff, Option.isNone_eq_false_iff,
    Option.isSome_iff_ne_none, Full]

/-- Put an element into the lowest empty slot; a full array stays as it is. -/
def insert (t : Slots n α) (a : α) : Slots n α :=
  match t.firstFree with
  | some i => Function.update t i (some a)
  | none => t

theorem insert_of_full {t : Slots n α} (h : t.Full) (a : α) : t.insert a = t := by
  simp only [insert, firstFree_eq_none_iff.mpr h]

theorem insert_of_firstFree {t : Slots n α} {i : Fin n} (h : t.firstFree = some i) (a : α) :
    t.insert a = Function.update t i (some a) := by
  simp only [insert, h]

theorem insert_apply_of_some {t : Slots n α} {i : Fin n} {b : α} (h : t i = some b) (a : α) :
    t.insert a i = some b := by
  cases hf : t.firstFree with
  | none => rw [insert_of_full (firstFree_eq_none_iff.mp hf), h]
  | some k =>
    have hne : i ≠ k := by
      rintro rfl
      rw [(firstFree_eq_some_iff.mp hf).1] at h; cases h
    rw [insert_of_firstFree hf, Function.update_of_ne hne, h]

/-- What a slot holds after an insertion was there before, or is the new
    element in the lowest empty slot. -/
theorem insert_apply_inv {t : Slots n α} {a b : α} {i : Fin n} (h : t.insert a i = some b) :
    t i = some b ∨ (t.firstFree = some i ∧ b = a) := by
  cases hf : t.firstFree with
  | none =>
    rw [insert_of_full (firstFree_eq_none_iff.mp hf)] at h
    exact .inl h
  | some k =>
    rw [insert_of_firstFree hf] at h
    by_cases hik : i = k
    · subst hik
      rw [Function.update_self, Option.some.injEq] at h
      exact .inr ⟨rfl, h.symm⟩
    · rw [Function.update_of_ne hik] at h
      exact .inl h

/-- An array with an empty slot gains exactly the element inserted. -/
theorem holds_insert_iff {t : Slots n α} (h : ¬ t.Full) {a b : α} :
    (t.insert a).Holds b ↔ b = a ∨ t.Holds b := by
  constructor
  · rintro ⟨i, hi⟩
    obtain hi | ⟨_, hb⟩ := insert_apply_inv hi
    · exact .inr ⟨i, hi⟩
    · exact .inl hb
  · rintro (rfl | ⟨i, hi⟩)
    · cases hf : t.firstFree with
      | none => exact absurd (firstFree_eq_none_iff.mp hf) h
      | some i =>
        rw [insert_of_firstFree hf]
        exact ⟨i, Function.update_self ..⟩
    · exact ⟨i, insert_apply_of_some hi a⟩

theorem unique_update {t : Slots n α} (h : t.Unique) {a : α} (ha : ¬ t.Holds a) (k : Fin n) :
    Unique (Function.update t k (some a)) := by
  -- The new element is in slot `k` alone; every other one is where it was.
  have hinv : ∀ i b, Function.update t k (some a) i = some b → (i = k ∧ b = a) ∨ t i = some b := by
    intro i b hi
    by_cases hik : i = k
    · subst hik
      rw [Function.update_self, Option.some.injEq] at hi
      exact .inl ⟨rfl, hi.symm⟩
    · rw [Function.update_of_ne hik] at hi
      exact .inr hi
  intro i j b hi hj
  obtain ⟨rfl, rfl⟩ | hi' := hinv i b hi
  · obtain ⟨rfl, _⟩ | hj' := hinv j _ hj
    · rfl
    · exact absurd ⟨j, hj'⟩ ha
  · obtain ⟨_, rfl⟩ | hj' := hinv j b hj
    · exact absurd ⟨i, hi'⟩ ha
    · exact h i j b hi' hj'

theorem unique_insert {t : Slots n α} (h : t.Unique) {a : α} (ha : ¬ t.Holds a) :
    (t.insert a).Unique := by
  cases hf : t.firstFree with
  | none => rwa [insert_of_full (firstFree_eq_none_iff.mp hf)]
  | some k =>
    rw [insert_of_firstFree hf]
    exact unique_update h ha k

/-- An insertion keeps `Unique` exactly if the element was absent or there was no
    room for it. -/
theorem unique_insert_iff {t : Slots n α} (h : t.Unique) {a : α} :
    (t.insert a).Unique ↔ ¬ t.Holds a ∨ t.Full := by
  constructor
  · intro hu
    by_contra hnot
    rw [not_or, not_not] at hnot
    obtain ⟨⟨i, hi⟩, hfull⟩ := hnot
    cases hf : t.firstFree with
    | none => exact hfull (firstFree_eq_none_iff.mp hf)
    | some k =>
      -- The element would sit in its old slot and in the lowest empty one.
      have hk : t.insert a k = some a := by
        rw [insert_of_firstFree hf, Function.update_self]
      have hik := hu i k a (insert_apply_of_some hi a) hk
      rw [hik, (firstFree_eq_some_iff.mp hf).1] at hi
      cases hi
  · rintro (ha | hfull)
    · exact unique_insert h ha
    · rwa [insert_of_full hfull]

/-! ## Insertion of absent elements -/

/-- Insert an element unless some slot holds it already. -/
def register [DecidableEq α] (t : Slots n α) (a : α) : Slots n α :=
  if t.Holds a then t else t.insert a

section Register

variable [DecidableEq α]

theorem register_of_holds {t : Slots n α} {a : α} (h : t.Holds a) : t.register a = t :=
  if_pos h

theorem register_of_not_holds {t : Slots n α} {a : α} (h : ¬ t.Holds a) :
    t.register a = t.insert a :=
  if_neg h

theorem unique_register {t : Slots n α} (h : t.Unique) (a : α) : (t.register a).Unique := by
  by_cases ha : t.Holds a
  · rwa [register_of_holds ha]
  · rw [register_of_not_holds ha]
    exact unique_insert h ha

theorem register_apply_of_some {t : Slots n α} {i : Fin n} {b : α} (h : t i = some b) (a : α) :
    t.register a i = some b := by
  by_cases ha : t.Holds a
  · rwa [register_of_holds ha]
  · rw [register_of_not_holds ha]
    exact insert_apply_of_some h a

/-- Another element, or one that is held already, sits in the same slots after
    an insertion. -/
theorem register_apply_iff {t : Slots n α} {a b : α} (hb : b ≠ a ∨ t.Holds b) {i : Fin n} :
    t.register a i = some b ↔ t i = some b := by
  refine ⟨fun h => ?_, fun h => register_apply_of_some h a⟩
  by_cases ha : t.Holds a
  · rwa [register_of_holds ha] at h
  · rw [register_of_not_holds ha] at h
    obtain h | ⟨_, rfl⟩ := insert_apply_inv h
    · exact h
    · exact absurd (hb.resolve_left fun hne => hne rfl) ha

end Register

/-! ## Removal -/

section Erase

variable [DecidableEq α]

/-- The first slot that holds the element. -/
def slotOf (t : Slots n α) (a : α) : Option (Fin n) := Fin.find? fun i => t i == some a

theorem slotOf_eq_some_iff {t : Slots n α} {a : α} {i : Fin n} :
    t.slotOf a = some i ↔ t i = some a ∧ ∀ j < i, t j ≠ some a := by
  simp only [slotOf, Fin.find?_eq_some_iff, beq_iff_eq, beq_eq_false_iff_ne]

theorem slotOf_congr {t s : Slots n α} {a : α} (h : ∀ i, t i = some a ↔ s i = some a) :
    t.slotOf a = s.slotOf a := by
  unfold slotOf
  congr 1
  funext i
  rw [Bool.eq_iff_iff, beq_iff_eq, beq_iff_eq, h]

theorem slotOf_eq_none_iff {t : Slots n α} {a : α} : t.slotOf a = none ↔ ¬ t.Holds a := by
  simp only [slotOf, Fin.find?_eq_none_iff, beq_eq_false_iff_ne, Holds, not_exists, ne_eq]

/-- Empty the first slot that holds the element. -/
def erase (t : Slots n α) (a : α) : Slots n α :=
  match t.slotOf a with
  | some i => Function.update t i none
  | none => t

theorem erase_of_slotOf {t : Slots n α} {a : α} {i : Fin n} (h : t.slotOf a = some i) :
    t.erase a = Function.update t i none := by
  simp only [erase, h]

theorem erase_of_not_holds {t : Slots n α} {a : α} (h : ¬ t.Holds a) : t.erase a = t := by
  simp only [erase, slotOf_eq_none_iff.mpr h]

theorem erase_apply {t : Slots n α} (h : t.Unique) (a : α) (i : Fin n) :
    t.erase a i = if t i = some a then none else t i := by
  cases hf : t.slotOf a with
  | none =>
    have ha := slotOf_eq_none_iff.mp hf
    rw [erase_of_not_holds ha, if_neg fun hi => ha ⟨i, hi⟩]
  | some k =>
    have hka := (slotOf_eq_some_iff.mp hf).1
    rw [erase_of_slotOf hf]
    by_cases hik : i = k
    · subst hik
      rw [Function.update_self, if_pos hka]
    · -- A second slot with the element would break `Unique`.
      rw [Function.update_of_ne hik, if_neg fun hia => hik (h i k a hia hka)]

theorem erase_apply_inv {t : Slots n α} {a b : α} {i : Fin n} (h : t.erase a i = some b) :
    t i = some b := by
  cases hf : t.slotOf a with
  | none => rwa [erase_of_not_holds (slotOf_eq_none_iff.mp hf)] at h
  | some k =>
    rw [erase_of_slotOf hf] at h
    by_cases hik : i = k
    · subst hik; rw [Function.update_self] at h; cases h
    · rwa [Function.update_of_ne hik] at h

theorem unique_erase {t : Slots n α} (h : t.Unique) (a : α) : (t.erase a).Unique :=
  fun i j b hi hj => h i j b (erase_apply_inv hi) (erase_apply_inv hj)

theorem holds_erase_iff {t : Slots n α} (h : t.Unique) {a b : α} :
    (t.erase a).Holds b ↔ t.Holds b ∧ b ≠ a := by
  constructor
  · rintro ⟨i, hi⟩
    refine ⟨⟨i, erase_apply_inv hi⟩, ?_⟩
    rintro rfl
    have hnone := erase_apply h b i
    rw [if_pos (erase_apply_inv hi), hi] at hnone
    cases hnone
  · rintro ⟨⟨i, hi⟩, hne⟩
    refine ⟨i, ?_⟩
    rw [erase_apply h, hi, if_neg]
    simpa using hne

/-- Whatever sits where, removal takes away nothing but the element. -/
theorem holds_erase_of_ne {t : Slots n α} {a b : α} (hne : b ≠ a) (h : t.Holds b) :
    (t.erase a).Holds b := by
  obtain ⟨i, hi⟩ := h
  cases hf : t.slotOf a with
  | none => exact ⟨i, by rw [erase_of_not_holds (slotOf_eq_none_iff.mp hf), hi]⟩
  | some k =>
    have hka := (slotOf_eq_some_iff.mp hf).1
    have hik : i ≠ k := by
      rintro rfl
      exact hne (Option.some.inj (hi.symm.trans hka))
    exact ⟨i, by rw [erase_of_slotOf hf, Function.update_of_ne hik, hi]⟩

theorem slotOf_erase {t : Slots n α} (h : t.Unique) (a b : α) :
    (t.erase a).slotOf b = if b = a then none else t.slotOf b := by
  by_cases hb : b = a
  · rw [if_pos hb, slotOf_eq_none_iff, holds_erase_iff h]
    exact fun hold => hold.2 hb
  · rw [if_neg hb]
    refine slotOf_congr fun i => ⟨erase_apply_inv, fun hi => ?_⟩
    have hne : t i ≠ some a := fun ha => hb (Option.some.inj (hi.symm.trans ha))
    rw [erase_apply h, if_neg hne, hi]

end Erase

/-! ## Overlays -/

/-- An overlay: `none` leaves the slot alone, `some x` makes `x` its content. -/
abbrev Patch (n : Nat) (α : Type) := Fin n → Option (Option α)

/-- Lay a patch over an array. -/
def patch (t : Slots n α) (p : Patch n α) : Slots n α := fun i => (p i).getD (t i)

theorem patch_of_none {p : Patch n α} {i : Fin n} (h : p i = none) (t : Slots n α) :
    t.patch p i = t i := by simp only [patch, h, Option.getD_none]

theorem patch_of_some {p : Patch n α} {i : Fin n} {x : Option α} (h : p i = some x)
    (t : Slots n α) : t.patch p i = x := by simp only [patch, h, Option.getD_some]

/-- What a slot holds after an overlay was written there, or was there before
    in a slot that the overlay leaves alone. -/
theorem patch_eq_some_iff {t : Slots n α} {p : Patch n α} {i : Fin n} {a : α} :
    t.patch p i = some a ↔ p i = some (some a) ∨ (p i = none ∧ t i = some a) := by
  cases hp : p i with
  | none => simp [patch_of_none hp]
  | some x => simp [patch_of_some hp]

/-- Element `a` is written into some slot. -/
def Patch.Writes (p : Patch n α) (a : α) : Prop := ∃ i, p i = some (some a)

/-- The overlay writes no element into two slots. -/
def Patch.Unique (p : Patch n α) : Prop :=
  ∀ i j a, p i = some (some a) → p j = some (some a) → i = j

/-- Every element written is absent from the slots that the overlay leaves
    alone. -/
def Patch.Covers (p : Patch n α) (t : Slots n α) : Prop :=
  ∀ i j a, p i = some (some a) → p j = none → t j ≠ some a

/-- An overlay keeps `Unique` exactly when it writes nothing twice and writes
    nothing that survives elsewhere. -/
theorem unique_patch_iff {t : Slots n α} (ht : t.Unique) (p : Patch n α) :
    (t.patch p).Unique ↔ p.Unique ∧ p.Covers t := by
  constructor
  · intro h
    refine ⟨fun i j a hi hj => ?_, fun i j a hi hj htj => ?_⟩
    -- Two slots written, and one written while the other is left alone.
    · exact h i j a (patch_eq_some_iff.mpr (.inl hi)) (patch_eq_some_iff.mpr (.inl hj))
    · have hij := h i j a (patch_eq_some_iff.mpr (.inl hi)) (patch_eq_some_iff.mpr (.inr ⟨hj, htj⟩))
      rw [hij, hj] at hi; cases hi
  · rintro ⟨hu, hc⟩ i j a hi hj
    rcases patch_eq_some_iff.mp hi with hi | ⟨hi, hti⟩
    · rcases patch_eq_some_iff.mp hj with hj | ⟨hj, htj⟩
      · exact hu i j a hi hj
      · exact absurd htj (hc i j a hi hj)
    · rcases patch_eq_some_iff.mp hj with hj | ⟨hj, htj⟩
      · exact absurd hti (hc j i a hj hi)
      · exact ht i j a hti htj

/-- An element survives an overlay exactly when it is written again or sits in
    a slot left alone. -/
theorem holds_patch_iff {t : Slots n α} {p : Patch n α} {a : α} :
    (t.patch p).Holds a ↔ p.Writes a ∨ ∃ i, p i = none ∧ t i = some a := by
  constructor
  · rintro ⟨i, hi⟩
    rcases patch_eq_some_iff.mp hi with h | h
    · exact .inl ⟨i, h⟩
    · exact .inr ⟨i, h⟩
  · rintro (⟨i, h⟩ | ⟨i, h⟩)
    · exact ⟨i, patch_eq_some_iff.mpr (.inl h)⟩
    · exact ⟨i, patch_eq_some_iff.mpr (.inr h)⟩

/-- The overlay that writes the occupied slots of an array and no other. -/
def toPatch (t : Slots n α) : Patch n α := fun i => (t i).map some

@[simp] theorem toPatch_eq_some_some {t : Slots n α} {i : Fin n} {a : α} :
    t.toPatch i = some (some a) ↔ t i = some a := by simp [toPatch]

@[simp] theorem toPatch_eq_none {t : Slots n α} {i : Fin n} :
    t.toPatch i = none ↔ t i = none := by simp [toPatch]

theorem unique_toPatch {t : Slots n α} (h : t.Unique) : t.toPatch.Unique := by
  intro i j a hi hj
  exact h i j a (toPatch_eq_some_some.mp hi) (toPatch_eq_some_some.mp hj)

theorem covers_toPatch {t s : Slots n α} (h : ∀ i, s i = none → t i = none) :
    s.toPatch.Covers t := by
  intro i j a _ hj
  rw [h j (toPatch_eq_none.mp hj)]
  exact Option.some_ne_none a |>.symm

theorem patch_toPatch (t s : Slots n α) : t.patch s.toPatch = fun i => (s i).or (t i) := by
  funext i
  cases h : s i <;> simp [patch, toPatch, h]

/-- Laying `s` over `t` gives `s` exactly when `t` is empty wherever `s` is. -/
theorem patch_toPatch_eq_iff {t s : Slots n α} :
    t.patch s.toPatch = s ↔ ∀ i, s i = none → t i = none := by
  rw [patch_toPatch, funext_iff]
  refine forall_congr' fun i => ?_
  cases h : s i <;> simp

/-! ## Hole-free arrays -/

/-- The array that holds a list from slot 0 on. -/
def ofList (l : List α) : Slots n α := fun i => l[i.val]?

theorem ofList_apply (l : List α) (i : Fin n) : (ofList l : Slots n α) i = l[i.val]? := rfl

theorem holds_ofList {l : List α} (hl : l.length ≤ n) {a : α} :
    (ofList l : Slots n α).Holds a ↔ a ∈ l := by
  rw [List.mem_iff_getElem?]
  constructor
  · rintro ⟨i, hi⟩
    exact ⟨i, hi⟩
  · rintro ⟨k, hk⟩
    have hlt := (List.getElem?_eq_some_iff.mp hk).1
    exact ⟨⟨k, by omega⟩, hk⟩

theorem unique_ofList {l : List α} (h : l.Nodup) : (ofList l : Slots n α).Unique := by
  intro i j a hi hj
  simp only [ofList_apply] at hi hj
  have hlt := (List.getElem?_eq_some_iff.mp hi).1
  exact Fin.ext ((List.getElem?_inj hlt h).mp (hi.trans hj.symm))

/-- Arrays of prefixes of one list agree wherever both are occupied. -/
theorem ofList_apply_of_prefix {l m : List α} (h : l <+: m) {i : Fin n} {a : α}
    (hi : (ofList l : Slots n α) i = some a) : (ofList m : Slots n α) i = some a := by
  obtain ⟨rest, rfl⟩ := h
  have hlt := (List.getElem?_eq_some_iff.mp hi).1
  rw [ofList_apply, List.getElem?_append_left hlt]
  exact hi

/-- Of two hole-free arrays that are laid over each other, the longer one is left: the upper
    one, or the lower one if it goes on where the upper one ends. -/
theorem patch_ofList_of_length_le {l m : List α} (h : l.length ≤ m.length) :
    (ofList l : Slots n α).patch (ofList m).toPatch = ofList m := by
  rw [patch_toPatch_eq_iff]
  intro i hi
  have hlen : m.length ≤ i.val := List.getElem?_eq_none_iff.mp hi
  exact List.getElem?_eq_none (h.trans hlen)

theorem patch_ofList_of_prefix {l m : List α} (h : m <+: l) :
    (ofList l : Slots n α).patch (ofList m).toPatch = ofList l := by
  rw [patch_toPatch]
  funext i
  cases hi : (ofList m : Slots n α) i with
  | none => rfl
  | some a =>
    have hlower := ofList_apply_of_prefix h hi
    exact hlower.symm

/-- On a hole-free array first-fit insertion appends. -/
theorem insert_ofList {l : List α} (hl : l.length < n) (a : α) :
    (ofList l : Slots n α).insert a = ofList (l ++ [a]) := by
  have hf : (ofList l : Slots n α).firstFree = some ⟨l.length, hl⟩ := by
    rw [firstFree_eq_some_iff]
    -- The list fills all slots below its length, and none from there on.
    refine ⟨List.getElem?_eq_none (Nat.le_refl _), fun j hj => ?_⟩
    have hlt : j.val < l.length := hj
    rw [ofList_apply, List.getElem?_eq_getElem hlt]
    exact Option.some_ne_none _
  rw [insert_of_firstFree hf]
  funext i
  by_cases hi : i = ⟨l.length, hl⟩
  · subst hi
    rw [Function.update_self, ofList_apply, List.getElem?_concat_length]
  · have hne : i.val ≠ l.length := fun he => hi (Fin.ext he)
    rw [Function.update_of_ne hi, ofList_apply, ofList_apply, List.getElem?_append]
    by_cases hlt : i.val < l.length
    · rw [if_pos hlt]
    · rw [if_neg hlt, List.getElem?_eq_none (by omega), List.getElem?_eq_none (by simp; omega)]

theorem register_ofList [DecidableEq α] {l : List α} (hl : l.length < n) {a : α} (ha : a ∉ l) :
    (ofList l : Slots n α).register a = ofList (l ++ [a]) := by
  rw [register_of_not_holds fun h => ha ((holds_ofList (Nat.le_of_lt hl)).mp h), insert_ofList hl]

theorem foldl_register_ofList [DecidableEq α] {l as : List α} (hnd : (l ++ as).Nodup)
    (hlen : (l ++ as).length ≤ n) :
    as.foldl register (ofList l : Slots n α) = ofList (l ++ as) := by
  induction as generalizing l with
  | nil => simp
  | cons a rest ih =>
    have hassoc : l ++ a :: rest = l ++ [a] ++ rest := by simp
    have hl : l.length < n := by
      simp only [List.length_append, List.length_cons] at hlen
      omega
    have ha : a ∉ l := fun hmem =>
      List.disjoint_of_nodup_append hnd hmem List.mem_cons_self
    rw [List.foldl_cons, register_ofList hl ha, hassoc]
    rw [hassoc] at hnd hlen
    exact ih hnd hlen

theorem full_ofList {l : List α} (h : l.length = n) : (ofList l : Slots n α).Full := by
  intro i
  have hlt : i.val < l.length := h ▸ i.isLt
  rw [ofList_apply, List.getElem?_eq_getElem hlt]
  exact Option.some_ne_none _

end Slots

end Imq.Lib
