import Mathlib.Order.Lattice
import Mathlib.Data.List.Nodup

/-! # Lists in the order of a key

Insertion into a list that is kept in strictly increasing order of a key, with
an element of the same key replaced: the content of an ordered map, in the order
in which it is iterated over.
-/

namespace Imq.Lib

variable {α β κ : Type} [LinearOrder κ]

/-- Insert an element before the first one of a greater key, in place of one of
    the same key. -/
def insertByKey (key : α → κ) (a : α) : List α → List α
  | [] => [a]
  | b :: rest =>
    if key a < key b then a :: b :: rest
    else if key a = key b then a :: rest
    else b :: insertByKey key a rest

/-- The keys increase strictly. -/
def OrderedByKey (key : α → κ) (l : List α) : Prop := l.Pairwise fun a b => key a < key b

section

variable {key : α → κ} {a b : α} {l acc : List α}

theorem mem_insertByKey_inv (h : b ∈ insertByKey key a l) : b = a ∨ b ∈ l := by
  induction l with
  | nil => exact .inl (List.mem_singleton.mp h)
  | cons c rest ih =>
    unfold insertByKey at h
    split at h
    · exact List.mem_cons.mp h
    · split at h
      · obtain h | h := List.mem_cons.mp h
        · exact .inl h
        · exact .inr (List.mem_cons_of_mem _ h)
      · obtain h | h := List.mem_cons.mp h
        · exact .inr (h ▸ List.mem_cons_self)
        · obtain h | h := ih h
          · exact .inl h
          · exact .inr (List.mem_cons_of_mem _ h)

theorem mem_insertByKey (hnew : ∀ c ∈ l, key c ≠ key a) :
    b ∈ insertByKey key a l ↔ b = a ∨ b ∈ l := by
  refine ⟨mem_insertByKey_inv, ?_⟩
  induction l with
  | nil => simp [insertByKey]
  | cons c rest ih =>
    intro h
    have hc : key a ≠ key c := (hnew c List.mem_cons_self).symm
    unfold insertByKey
    split
    · exact List.mem_cons.mpr h
    · have ih := ih fun d hd => hnew d (List.mem_cons_of_mem _ hd)
      obtain h | h := h
      · exact List.mem_cons_of_mem _ (ih (.inl h))
      · obtain rfl | h := List.mem_cons.mp h
        · exact List.mem_cons_self
        · exact List.mem_cons_of_mem _ (ih (.inr h))

theorem orderedByKey_insertByKey (h : OrderedByKey key l) : OrderedByKey key (insertByKey key a l) := by
  induction l with
  | nil => exact List.pairwise_singleton _ _
  | cons c rest ih =>
    obtain ⟨hc, hrest⟩ := List.pairwise_cons.mp h
    unfold insertByKey
    split
    next hlt =>
      refine List.pairwise_cons.mpr ⟨fun d hd => ?_, h⟩
      obtain rfl | hd := List.mem_cons.mp hd
      · exact hlt
      · exact lt_trans hlt (hc d hd)
    next hnlt =>
      split
      next he => exact List.pairwise_cons.mpr ⟨fun d hd => he ▸ hc d hd, hrest⟩
      next hne =>
        -- The element goes further down, so `c` stays below everything.
        have hgt : key c < key a := lt_of_le_of_ne (not_lt.mp hnlt) (Ne.symm hne)
        refine List.pairwise_cons.mpr ⟨fun d hd => ?_, ih hrest⟩
        obtain rfl | hd := mem_insertByKey_inv hd
        · exact hgt
        · exact hc d hd

/-- The greatest key goes to the end. -/
theorem insertByKey_eq_append (h : ∀ c ∈ l, key c < key a) : insertByKey key a l = l ++ [a] := by
  induction l with
  | nil => rfl
  | cons c rest ih =>
    have hlt := h c List.mem_cons_self
    rw [insertByKey, if_neg (lt_asymm hlt), if_neg (ne_of_gt hlt),
      ih fun d hd => h d (List.mem_cons_of_mem _ hd), List.cons_append]

/-- A second insertion under the same key undoes the first. -/
theorem insertByKey_insertByKey (he : key b = key a) (l : List α) :
    insertByKey key b (insertByKey key a l) = insertByKey key b l := by
  induction l with
  | nil => simp [insertByKey, he]
  | cons c rest ih =>
    by_cases hlt : key a < key c
    · simp only [insertByKey, he, if_pos hlt, if_neg (lt_irrefl _), if_true]
    · by_cases heq : key a = key c
      · simp only [insertByKey, he, if_neg hlt, if_pos heq, if_neg (lt_irrefl _), if_true]
      · simp only [insertByKey, he, if_neg hlt, if_neg heq, ih]

theorem map_insertByKey {key' : β → κ} {f : α → β} (hf : ∀ a, key' (f a) = key a) (a : α)
    (l : List α) : (insertByKey key a l).map f = insertByKey key' (f a) (l.map f) := by
  induction l with
  | nil => rfl
  | cons c rest ih =>
    simp only [insertByKey, List.map_cons, hf]
    split
    · rfl
    · split
      · rfl
      · rw [List.map_cons, ih]

/-- A list, put in the order of its keys. -/
def orderByKey (key : α → κ) (l : List α) : List α :=
  l.foldl (fun acc a => insertByKey key a acc) []

theorem orderedByKey_foldl (h : OrderedByKey key acc) :
    OrderedByKey key (l.foldl (fun acc a => insertByKey key a acc) acc) := by
  induction l generalizing acc with
  | nil => exact h
  | cons a rest ih => exact ih (orderedByKey_insertByKey h)

theorem orderedByKey_orderByKey (key : α → κ) (l : List α) : OrderedByKey key (orderByKey key l) :=
  orderedByKey_foldl List.Pairwise.nil

theorem mem_foldl_insertByKey (hnd : (l.map key).Nodup)
    (hnew : ∀ a ∈ l, ∀ c ∈ acc, key c ≠ key a) :
    b ∈ l.foldl (fun acc a => insertByKey key a acc) acc ↔ b ∈ l ∨ b ∈ acc := by
  induction l generalizing acc with
  | nil => simp
  | cons a rest ih =>
    rw [List.map_cons, List.nodup_cons] at hnd
    -- The keys still to come differ from all that have been inserted.
    have hnew' : ∀ d ∈ rest, ∀ c ∈ insertByKey key a acc, key c ≠ key d := by
      intro d hd c hc he
      obtain rfl | hc := mem_insertByKey_inv hc
      · exact hnd.1 (he ▸ List.mem_map_of_mem hd)
      · exact hnew d (List.mem_cons_of_mem _ hd) c hc he
    rw [List.foldl_cons, ih hnd.2 hnew', mem_insertByKey (hnew a List.mem_cons_self), List.mem_cons]
    exact or_left_comm.trans or_assoc.symm

theorem mem_orderByKey (hnd : (l.map key).Nodup) : b ∈ orderByKey key l ↔ b ∈ l := by
  rw [orderByKey, mem_foldl_insertByKey hnd fun _ _ _ hc => absurd hc List.not_mem_nil]
  simp

end

theorem map_foldl_insertByKey {key : α → κ} {key' : β → κ} {f : α → β}
    (hf : ∀ a, key' (f a) = key a) (l acc : List α) :
    (l.foldl (fun acc a => insertByKey key a acc) acc).map f =
      l.foldl (fun acc a => insertByKey key' (f a) acc) (acc.map f) := by
  induction l generalizing acc with
  | nil => rfl
  | cons a rest ih => rw [List.foldl_cons, List.foldl_cons, ih, map_insertByKey hf]

end Imq.Lib
