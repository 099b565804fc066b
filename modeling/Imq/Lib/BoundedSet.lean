import Imq.Lib.Slots
import Mathlib.Data.Finset.Card

/-! # Sets of bounded size

A slot array in which no element sits twice stands for the set of its elements.

* `Slots.elements` — the elements in the order of their slots; the array is full
  exactly if there are as many as slots;
* `Slots.members` — their set;
* `insertBounded` — insertion into a set that may not outgrow a capacity, which
  is what first-fit insertion of absent elements does to `members`.
-/

namespace Imq.Lib

/-- Insert an element if the set has room for one more. -/
def insertBounded {α : Type} [DecidableEq α] (capacity : Nat) (s : Finset α) (a : α) : Finset α :=
  if s.card < capacity then insert a s else s

namespace Slots

variable {n : Nat} {α : Type}

/-- The elements, in the order of their slots. -/
def elements (t : Slots n α) : List α := (List.finRange n).filterMap t

@[simp] theorem mem_elements {t : Slots n α} {a : α} : a ∈ t.elements ↔ t.Holds a := by
  simp [elements, Holds]

theorem nodup_elements {t : Slots n α} (h : t.Unique) : t.elements.Nodup :=
  (List.nodup_finRange n).filterMap fun i j a hi hj => h i j a hi hj

theorem length_elements_le (t : Slots n α) : t.elements.length ≤ n := by
  have hle := List.length_filterMap_le t (List.finRange n)
  rwa [List.length_finRange] at hle

theorem length_elements_eq_iff {t : Slots n α} : t.elements.length = n ↔ t.Full := by
  have hall := List.filterMap_length_eq_length (f := t) (l := List.finRange n)
  rw [List.length_finRange] at hall
  refine hall.trans ?_
  simp [Full, Option.isSome_iff_ne_none]

theorem length_elements_lt_iff {t : Slots n α} : t.elements.length < n ↔ ¬ t.Full := by
  have hle := length_elements_le t
  rw [← length_elements_eq_iff]
  omega

section Members

variable [DecidableEq α]

/-- What one slot contributes to the elements. -/
theorem count_elements_update (t : Slots n α) (i : Fin n) (x : Option α) (a : α) :
    (elements (Function.update t i x)).count a + (if t i = some a then 1 else 0) =
      t.elements.count a + (if x = some a then 1 else 0) := by
  obtain ⟨before, after, hsplit⟩ := List.append_of_mem (List.mem_finRange i)
  have hnd := List.nodup_finRange n
  rw [hsplit] at hnd
  obtain ⟨_, hafter, hdisjoint⟩ := List.nodup_append'.mp hnd
  have hi : i ∉ before ∧ i ∉ after :=
    ⟨fun h => hdisjoint h List.mem_cons_self, (List.nodup_cons.mp hafter).1⟩
  -- Before and after slot `i` the elements are the same.
  have hsame : ∀ l : List (Fin n), i ∉ l → l.filterMap (Function.update t i x) = l.filterMap t := by
    intro l hl
    apply List.filterMap_congr
    intro j hj
    have hne : j ≠ i := fun h => hl (h ▸ hj)
    exact Function.update_of_ne hne ..
  simp only [elements, hsplit, List.filterMap_append, List.filterMap_cons, hsame before hi.1,
    hsame after hi.2, Function.update_self, List.count_append]
  cases x <;> cases t i <;> simp [List.count_cons] <;> omega

/-- The set of the elements. -/
def members (t : Slots n α) : Finset α := t.elements.toFinset

@[simp] theorem mem_members {t : Slots n α} {a : α} : a ∈ t.members ↔ t.Holds a := by
  simp [members]

theorem card_members {t : Slots n α} (h : t.Unique) : t.members.card = t.elements.length :=
  List.toFinset_card_of_nodup (nodup_elements h)

theorem card_members_lt_iff {t : Slots n α} (h : t.Unique) : t.members.card < n ↔ ¬ t.Full := by
  rw [card_members h, length_elements_lt_iff]

theorem members_register {t : Slots n α} (h : t.Unique) (a : α) :
    (t.register a).members = insertBounded n t.members a := by
  unfold insertBounded
  by_cases ha : t.Holds a
  · -- Insertion of an element that is there changes neither side.
    have hmem : a ∈ t.members := mem_members.mpr ha
    rw [register_of_holds ha, Finset.insert_eq_of_mem hmem, ite_self]
  · rw [register_of_not_holds ha]
    by_cases hfull : t.Full
    · rw [insert_of_full hfull, if_neg fun hlt => (card_members_lt_iff h).mp hlt hfull]
    · rw [if_pos ((card_members_lt_iff h).mpr hfull)]
      ext b
      simp [holds_insert_iff hfull]

theorem members_erase {t : Slots n α} (h : t.Unique) (a : α) :
    (t.erase a).members = t.members.erase a := by
  ext b
  simp [holds_erase_iff h, and_comm]

end Members

end Slots

end Imq.Lib
