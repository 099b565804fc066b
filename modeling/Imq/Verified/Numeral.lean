import Imq.Cpp
import Mathlib.Data.List.TakeWhile

/-! # The numbers that `std::stoi` reads

`Cpp.Numeral` is the grammar of the texts that `stoi` reads as a number: white
space, a sign, digits, and whatever follows.

* `Cpp.stoi_eq_ok_iff` — `stoi` reads exactly these, with their values;
* `Cpp.stoi_toString` — what `std::to_string` prints is read back, as long as it
  fits an `int`.
-/

namespace Imq.Cpp

/-! ## The grammar -/

/-- The sign of a number, and whether it is negative. -/
inductive Sign : List Char → Bool → Prop where
  | none : Sign [] false
  | plus : Sign ['+'] false
  | minus : Sign ['-'] true

/-- A text in front of which stands a number, cut into its parts. -/
structure NumeralParts (text blanks sign digits rest : List Char) (negative : Bool) : Prop where
  text_eq : text = blanks ++ (sign ++ (digits ++ rest))
  blank : ∀ c ∈ blanks, isSpace c = true
  signed : Sign sign negative
  digit : ∀ c ∈ digits, c.isDigit = true
  nonempty : digits ≠ []
  stops : ∀ c ∈ rest.head?, c.isDigit = false

def valueOf (negative : Bool) (digits : List Char) : Int :=
  if negative then -(Nat.ofDigitChars 10 digits 0 : Int) else Nat.ofDigitChars 10 digits 0

/-- `stoi` reads the text as this number. -/
def Numeral (text : List Char) (value : Int) : Prop :=
  ∃ blanks sign digits rest negative, NumeralParts text blanks sign digits rest negative ∧
    value = valueOf negative digits ∧ -2147483648 ≤ value ∧ value ≤ 2147483647

/-! ## Characters -/

theorem not_isSpace_of_isDigit {c : Char} (h : c.isDigit = true) : isSpace c = false := by
  unfold isSpace
  have hne : ∀ d : Char, d.isDigit = false → (c == d) = false := by
    intro d hd
    rw [beq_eq_false_iff_ne]
    intro he
    rw [he, hd] at h
    cases h
  simp only [hne _ (show ' '.isDigit = false by decide), hne _ (show '\t'.isDigit = false by decide),
    hne _ (show '\n'.isDigit = false by decide), hne _ (show '\r'.isDigit = false by decide),
    hne _ (show (Char.ofNat 11).isDigit = false by decide),
    hne _ (show (Char.ofNat 12).isDigit = false by decide), Bool.or_self]

theorem takeSign_of_isDigit {c : Char} (h : c.isDigit = true) (rest : List Char) :
    takeSign (c :: rest) = (false, c :: rest) := by
  unfold takeSign
  split
  next he => cases he; exact absurd h (by decide)
  next he => cases he; exact absurd h (by decide)
  next => rfl

/-- The sign that `takeSign` takes off. -/
theorem sign_takeSign (text : List Char) :
    ∃ sign, Sign sign (takeSign text).1 ∧ text = sign ++ (takeSign text).2 := by
  unfold takeSign
  split
  next rest => exact ⟨['-'], .minus, rfl⟩
  next rest => exact ⟨['+'], .plus, rfl⟩
  next => exact ⟨[], .none, rfl⟩

theorem takeSign_of_sign {sign digits : List Char} {negative : Bool} (h : Sign sign negative)
    (digit : ∀ c ∈ digits, c.isDigit = true) (nonempty : digits ≠ []) (rest : List Char) :
    takeSign (sign ++ (digits ++ rest)) = (negative, digits ++ rest) := by
  cases h with
  | none =>
    obtain ⟨c, ds, rfl⟩ := List.exists_cons_of_ne_nil nonempty
    exact takeSign_of_isDigit (digit c List.mem_cons_self) (ds ++ rest)
  | plus => rfl
  | minus => rfl

/-- No white space stands in front of a number. -/
theorem dropWhile_isSpace_of_sign {sign digits : List Char} {negative : Bool}
    (h : Sign sign negative) (digit : ∀ c ∈ digits, c.isDigit = true) (nonempty : digits ≠ [])
    (rest : List Char) :
    (sign ++ (digits ++ rest)).dropWhile isSpace = sign ++ (digits ++ rest) := by
  cases h with
  | none =>
    obtain ⟨c, ds, rfl⟩ := List.exists_cons_of_ne_nil nonempty
    have hc : isSpace c = false := not_isSpace_of_isDigit (digit c List.mem_cons_self)
    simp [hc]
  | plus => rfl
  | minus => rfl

theorem takeWhile_isDigit {digits rest : List Char} (digit : ∀ c ∈ digits, c.isDigit = true)
    (stops : ∀ c ∈ rest.head?, c.isDigit = false) :
    (digits ++ rest).takeWhile Char.isDigit = digits := by
  rw [List.takeWhile_append_of_pos digit]
  cases rest with
  | nil => simp
  | cons c rest => simp [stops c rfl]

/-! ## What `stoi` does -/

/-- `stoi` on the parts that it works with. -/
theorem stoi_eq (s : String) :
    stoi s =
      let scanned := takeSign (s.toList.dropWhile isSpace)
      let digits := scanned.2.takeWhile Char.isDigit
      if digits = [] then .error (.invalidArgument "stoi")
      else if valueOf scanned.1 digits < -2147483648 ∨ 2147483647 < valueOf scanned.1 digits then
        .error (.outOfRange "stoi")
      else .ok (valueOf scanned.1 digits) := rfl

theorem stoi_of_parts {s : String} {blanks sign digits rest : List Char} {negative : Bool}
    (h : NumeralParts s.toList blanks sign digits rest negative) :
    stoi s =
      if valueOf negative digits < -2147483648 ∨ 2147483647 < valueOf negative digits then
        .error (.outOfRange "stoi")
      else .ok (valueOf negative digits) := by
  have hdrop : s.toList.dropWhile isSpace = sign ++ (digits ++ rest) := by
    rw [h.text_eq, List.dropWhile_append_of_pos h.blank]
    exact dropWhile_isSpace_of_sign h.signed h.digit h.nonempty rest
  have htake : takeSign (s.toList.dropWhile isSpace) = (negative, digits ++ rest) := by
    rw [hdrop]
    exact takeSign_of_sign h.signed h.digit h.nonempty rest
  rw [stoi_eq]
  simp only [htake, takeWhile_isDigit h.digit h.stops, if_neg h.nonempty]

/-- Where there are digits for `stoi`, the text has the parts of a number. -/
theorem parts_of_digits {s : String}
    (h : (takeSign (s.toList.dropWhile isSpace)).2.takeWhile Char.isDigit ≠ []) :
    ∃ blanks sign digits rest negative,
      NumeralParts s.toList blanks sign digits rest negative := by
  obtain ⟨sign, hsign, hsplit⟩ := sign_takeSign (s.toList.dropWhile isSpace)
  refine ⟨s.toList.takeWhile isSpace, sign, _,
    (takeSign (s.toList.dropWhile isSpace)).2.dropWhile Char.isDigit, _,
    ⟨?_, ?_, hsign, ?_, h, ?_⟩⟩
  · rw [List.takeWhile_append_dropWhile, ← hsplit, List.takeWhile_append_dropWhile]
  · intro c hc
    exact List.mem_takeWhile_imp hc
  · intro c hc
    exact List.mem_takeWhile_imp hc
  · intro c hc
    have hstop := List.head?_dropWhile_not Char.isDigit (takeSign (s.toList.dropWhile isSpace)).2
    rw [Option.mem_def.mp hc] at hstop
    simpa using hstop

theorem stoi_eq_ok_iff {s : String} {value : Int} :
    stoi s = .ok value ↔ Numeral s.toList value := by
  constructor
  · intro h
    by_cases hdigits : (takeSign (s.toList.dropWhile isSpace)).2.takeWhile Char.isDigit = []
    · rw [stoi_eq] at h
      simp [hdigits] at h
    · obtain ⟨blanks, sign, digits, rest, negative, hparts⟩ := parts_of_digits hdigits
      rw [stoi_of_parts hparts] at h
      split at h
      · cases h
      · cases h
        exact ⟨blanks, sign, digits, rest, negative, hparts, rfl, by omega, by omega⟩
  · rintro ⟨blanks, sign, digits, rest, negative, hparts, rfl, hlow, hhigh⟩
    rw [stoi_of_parts hparts, if_neg (by omega)]

/-- Otherwise `stoi` throws one of its two exceptions. -/
theorem stoi_eq_error {s : String} {e : Exn} (h : stoi s = .error e) :
    e = .invalidArgument "stoi" ∨ e = .outOfRange "stoi" := by
  rw [stoi_eq] at h
  simp only at h
  split at h
  · cases h
    exact .inl rfl
  · split at h
    · cases h
      exact .inr rfl
    · cases h

/-! ## Decimal digits -/

/-- Digits alone. -/
theorem parts_digits {digits : List Char} (digit : ∀ c ∈ digits, c.isDigit = true)
    (nonempty : digits ≠ []) : NumeralParts digits [] [] digits [] false where
  text_eq := by simp
  blank := by simp
  signed := .none
  digit := digit
  nonempty := nonempty
  stops := by simp

theorem toList_toString (n : Nat) : (toString n).toList = Nat.toDigits 10 n := Nat.toList_repr

theorem isDigit_of_mem_toString {n : Nat} {c : Char} (h : c ∈ (toString n).toList) :
    c.isDigit = true := by
  rw [toList_toString] at h
  exact Nat.isDigit_of_mem_toDigits (by omega) (by omega) h

theorem toList_toString_ne_nil (n : Nat) : (toString n).toList ≠ [] := by
  rw [toList_toString]
  exact Nat.toDigits_ne_nil

theorem valueOf_toString (n : Nat) : valueOf false (toString n).toList = n := by
  rw [toList_toString]
  simp [valueOf, Nat.ofDigitChars_ten_toDigits]

theorem stoi_toString_eq (n : Nat) :
    stoi (toString n) = if 2147483647 < n then .error (.outOfRange "stoi") else .ok (n : Int) := by
  have hparts := parts_digits (fun _ => isDigit_of_mem_toString) (toList_toString_ne_nil n)
  rw [stoi_of_parts hparts, valueOf_toString]
  by_cases h : 2147483647 < n
  · rw [if_pos h, if_pos (by omega)]
  · rw [if_neg h, if_neg (by omega)]

theorem stoi_toString {n : Nat} (h : n ≤ 2147483647) : stoi (toString n) = .ok (n : Int) := by
  rw [stoi_toString_eq, if_neg (by omega)]

theorem toString_injective {n m : Nat} (h : toString n = toString m) : n = m := by
  -- The digits determine the number.
  have hv := congrArg (fun s : String => valueOf false s.toList) h
  simp only [valueOf_toString] at hv
  omega

end Imq.Cpp
