import Imq.Json

/-! # Members of JSON objects

What `operator[]` finds in an object after an insertion, and the objects that
are filled from null by a run of insertions.
-/

namespace Imq.Json

open Imq.Lib

theorem lookup_insertMember_self (key : String) (value : Json) (members : List (String × Json)) :
    (insertMember key value members).lookup key = some value := by
  induction members with
  | nil => simp [insertMember, insertByKey]
  | cons m rest ih =>
    obtain ⟨k, v⟩ := m
    unfold insertMember insertByKey
    split
    · simp
    · split
      next => simp
      next hne =>
        rw [List.lookup_cons, beq_eq_false_iff_ne.mpr hne]
        exact ih

/-- A second insertion under the key replaces the value of the first. -/
theorem insertMember_insertMember (key : String) (value value' : Json)
    (members : List (String × Json)) :
    insertMember key value (insertMember key value' members) = insertMember key value members := by
  have hkey : (key, value).fst = (key, value').fst := rfl
  exact insertByKey_insertByKey hkey members

theorem lookup_insertMember_of_ne {key other : String} (h : other ≠ key) (value : Json)
    (members : List (String × Json)) :
    (insertMember key value members).lookup other = members.lookup other := by
  have hb : (other == key) = false := beq_eq_false_iff_ne.mpr h
  induction members with
  | nil => simp [insertMember, insertByKey, h]
  | cons m rest ih =>
    obtain ⟨k, v⟩ := m
    unfold insertMember insertByKey
    split
    · simp [List.lookup_cons, hb]
    · split
      next he =>
        have he : key = k := he
        simp [List.lookup_cons, ← he, hb]
      next =>
        rw [List.lookup_cons, List.lookup_cons]
        split
        · rfl
        · exact ih

theorem constAt_object {members : List (String × Json)} {key : String} {v : Json} :
    (object members).constAt key = .ok v ↔ members.lookup key = some v := by
  unfold constAt
  cases h : members.lookup key with
  | none => simp [h]
  | some w => simp [h]

/-- A conversion of what `operator[]` finds succeeds on a member of an object
    only. -/
theorem bind_constAt_eq_ok_iff {α : Type} {j : Json} {key : String} {f : Json → Except Exn α}
    {a : α} :
    (j.constAt key).bind f = .ok a ↔
      ∃ members v, j = object members ∧ members.lookup key = some v ∧ f v = .ok a := by
  cases j with
  | object members =>
    cases h : members.lookup key with
    | none => simp [constAt, h, Except.bind]
    | some v => simp [constAt, h, Except.bind]
  | _ => simp [constAt, Except.bind]

theorem elementAt_of_constAt {j v : Json} {key : String} (h : j.constAt key = .ok v) :
    j.elementAt key = .ok v := by
  cases j with
  | object members =>
    rw [constAt_object] at h
    simp only [elementAt, h, Option.getD_some]
  | _ => cases h

/-- An update of an object stores what the update makes of the element. -/
theorem updateAt_object_eq_ok {members : List (String × Json)} {key : String} {j' : Json}
    {f : Json → Except Exn Json} (h : (object members).updateAt key f = .ok j') :
    ∃ v', f ((members.lookup key).getD null) = .ok v' ∧
      j' = object (insertMember key v' members) := by
  simp only [updateAt] at h
  cases hf : f ((members.lookup key).getD null) with
  | error e => rw [hf] at h; cases h
  | ok v' =>
    rw [hf] at h
    cases h
    exact ⟨v', rfl, rfl⟩

/-- An update replaces the element that `operator[]` refers to, -/
theorem updateAt_eq_ok {j j' : Json} {key : String} {f : Json → Except Exn Json}
    (h : j.updateAt key f = .ok j') :
    ∃ v v', j.elementAt key = .ok v ∧ f v = .ok v' ∧ j'.constAt key = .ok v' := by
  cases j with
  | null =>
    simp only [updateAt] at h
    cases hf : f null with
    | error e => rw [hf] at h; cases h
    | ok v' =>
      rw [hf] at h
      cases h
      exact ⟨null, v', rfl, hf, constAt_object.mpr (by simp)⟩
  | object members =>
    obtain ⟨v', hf, rfl⟩ := updateAt_object_eq_ok h
    exact ⟨_, v', rfl, hf, constAt_object.mpr (lookup_insertMember_self key v' members)⟩
  | _ => cases h

/-- and no other. -/
theorem constAt_updateAt_of_ne {j j' v : Json} {key other : String} {f : Json → Except Exn Json}
    (h : j.updateAt key f = .ok j') (hne : other ≠ key) (hv : j.constAt other = .ok v) :
    j'.constAt other = .ok v := by
  cases j with
  | object members =>
    obtain ⟨v', hf, rfl⟩ := updateAt_object_eq_ok h
    rw [constAt_object] at hv ⊢
    rw [lookup_insertMember_of_ne hne, hv]
  | _ => cases hv

theorem elementAt_updateAt_of_ne {j j' : Json} {key other : String} {f : Json → Except Exn Json}
    (h : j.updateAt key f = .ok j') (hne : other ≠ key) : j'.elementAt other = j.elementAt other := by
  cases j with
  | null =>
    simp only [updateAt] at h
    cases hf : f null with
    | error e => rw [hf] at h; cases h
    | ok v =>
      rw [hf] at h
      cases h
      simp [elementAt, List.lookup_cons, beq_eq_false_iff_ne.mpr hne]
  | object members =>
    obtain ⟨v, _, rfl⟩ := updateAt_object_eq_ok h
    simp only [elementAt, lookup_insertMember_of_ne hne]
  | _ => cases h

theorem constAt_set {j j' v : Json} {key : String} (h : j.set key v = .ok j') :
    j'.constAt key = .ok v := by
  obtain ⟨_, v', _, hv, hat⟩ := updateAt_eq_ok h
  cases hv
  exact hat

/-- The value that members inserted into a null one make. -/
def ofMembers : List (String × Json) → Json
  | [] => null
  | m :: ms => object (m :: ms)

theorem insertMember_ne_nil (key : String) (value : Json) (members : List (String × Json)) :
    insertMember key value members ≠ [] := by
  intro h
  have hl := lookup_insertMember_self key value members
  rw [h] at hl
  cases hl

theorem set_ofMembers (key : String) (value : Json) (members : List (String × Json)) :
    (ofMembers members).set key value = .ok (ofMembers (insertMember key value members)) := by
  cases members with
  | nil => rfl
  | cons m ms =>
    obtain ⟨m', ms', he⟩ := List.exists_cons_of_ne_nil (insertMember_ne_nil key value (m :: ms))
    show Except.ok (object (insertMember key value (m :: ms))) = _
    rw [he]
    rfl

theorem items_ofMembers (members : List (String × Json)) :
    (ofMembers members).items = members.map fun m => (.ok m.1, m.2) := by
  cases members <;> rfl

end Imq.Json
