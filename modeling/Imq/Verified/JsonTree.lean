import Imq.Json
import Imq.Lib.Utf8

/-! # JSON values as trees

* `Json.tree_induction` — induction over a value and all that it is made of;
* `Json.All` — a property of every value in the tree;
* `Json.Held`, `Json.Utf8`, `Json.Short`, `Json.FloatFree` — what the library can
  hold, and what of it survives the way through text.
-/

namespace Imq.Json

open Lib

theorem tree_induction {motive : Json → Prop} (null : motive null)
    (boolean : ∀ b, motive (boolean b)) (number : ∀ n, motive (number n))
    (numberFloat : ∀ q, motive (numberFloat q)) (string : ∀ s, motive (string s))
    (array : ∀ es, (∀ e ∈ es, motive e) → motive (array es))
    (object : ∀ ms : List (String × Json), (∀ m ∈ ms, motive m.2) → motive (object ms))
    (j : Json) : motive j := by
  refine @Json.rec motive (fun es => ∀ e ∈ es, motive e) (fun ms => ∀ m ∈ ms, motive m.2)
    (fun m => motive m.2) null boolean number numberFloat string array object ?_ ?_ ?_ ?_ ?_ j
  · simp
  · intro e es he hes
    exact List.forall_mem_cons.mpr ⟨he, hes⟩
  · simp
  · intro m ms hm hms
    exact List.forall_mem_cons.mpr ⟨hm, hms⟩
  · intro key value hvalue
    exact hvalue

/-- `P` holds of a value and of all that it is made of. -/
inductive All (P : Json → Prop) : Json → Prop where
  | null (h : P null) : All P null
  | boolean {b : Bool} (h : P (boolean b)) : All P (boolean b)
  | number {n : Int} (h : P (number n)) : All P (number n)
  | numberFloat {q : Rat} (h : P (numberFloat q)) : All P (numberFloat q)
  | string {s : String} (h : P (string s)) : All P (string s)
  | array {es : List Json} (h : P (array es)) (all : ∀ e ∈ es, All P e) : All P (array es)
  | object {ms : List (String × Json)} (h : P (object ms)) (all : ∀ m ∈ ms, All P m.2) :
      All P (object ms)

section

variable {P : Json → Prop}

theorem All.self {j : Json} (h : All P j) : P j := by
  cases h <;> assumption

theorem all_array_iff {es : List Json} :
    All P (array es) ↔ P (array es) ∧ ∀ e ∈ es, All P e :=
  ⟨fun h => by cases h with | array h all => exact ⟨h, all⟩, fun h => .array h.1 h.2⟩

theorem all_object_iff {ms : List (String × Json)} :
    All P (object ms) ↔ P (object ms) ∧ ∀ m ∈ ms, All P m.2 :=
  ⟨fun h => by cases h with | object h all => exact ⟨h, all⟩, fun h => .object h.1 h.2⟩

/-! What access and iteration lead to is part of the value. -/

theorem All.elementAt {j v : Json} (h : All P j) (hnull : P Json.null) {key : String}
    (he : j.elementAt key = .ok v) : All P v := by
  cases j with
  | null =>
    cases he
    exact h
  | object members =>
    cases he
    cases hv : members.lookup key with
    | none => exact .null hnull
    | some v =>
      obtain ⟨before, after, rfl, _⟩ := List.lookup_eq_some_iff.mp hv
      exact (all_object_iff.mp h).2 (key, v) (by simp)
  | _ => cases he

theorem All.of_mem_elements {j v : Json} (h : All P j) (hv : v ∈ j.elements) : All P v := by
  cases j with
  | null => cases hv
  | array es => exact (all_array_iff.mp h).2 v hv
  | object ms =>
    obtain ⟨m, hm, rfl⟩ := List.mem_map.mp hv
    exact (all_object_iff.mp h).2 m hm
  | _ =>
    cases List.mem_singleton.mp hv
    exact h

theorem All.of_mem_items {j : Json} {m : Except Exn String × Json} (h : All P j)
    (hm : m ∈ j.items) : All P m.2 := by
  have hmem : m.2 ∈ j.elements := by
    cases j with
    | object ms =>
      obtain ⟨member, hmember, rfl⟩ := List.mem_map.mp hm
      exact List.mem_map_of_mem hmember
    | _ =>
      obtain ⟨v, hv, rfl⟩ := List.mem_map.mp hm
      exact hv
  exact h.of_mem_elements hmem

end

/-- The bytes of a string encode text. -/
def Utf8String (s : String) : Prop := Utf8.Valid Char.toNat s.toList

/-- The condition is in a form that `decide` evaluates. -/
theorem Utf8String.of_ascii {s : String} (h : s.toList.all (fun c => c.toNat.ble 0x7F) = true) :
    Utf8String s :=
  Utf8.Valid.of_ascii fun c hc => Nat.le_of_ble_eq_true (List.all_eq_true.mp h c hc)

/-- What the library can hold: integers of 64 bits, with or without a sign, and
    members in the order of their keys. -/
def Held : Json → Prop :=
  All fun j =>
    match j with
    | number n => -9223372036854775808 ≤ n ∧ n ≤ 18446744073709551615
    | object ms => OrderedByKey Prod.fst ms
    | _ => True

/-- The strings are UTF-8, and so are the keys. -/
def Utf8 : Json → Prop :=
  All fun j =>
    match j with
    | string s => Utf8String s
    | object ms => ∀ m ∈ ms, Utf8String m.1
    | _ => True

/-- No string is longer than `n` bytes, and neither is a key. -/
def Short (n : Nat) : Json → Prop :=
  All fun j =>
    match j with
    | string s => s.length ≤ n
    | object ms => ∀ m ∈ ms, m.1.length ≤ n
    | _ => True

def FloatFree : Json → Prop :=
  All fun j =>
    match j with
    | numberFloat _ => False
    | _ => True

end Imq.Json
