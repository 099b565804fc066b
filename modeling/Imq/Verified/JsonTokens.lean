import Imq.Verified.JsonEscape
import Imq.Verified.Numeral
import Mathlib.Tactic.IntervalCases

/-! # The tokens of a dumped value

* `scan_quoted`, `scan_quoted_error` — a dumped string is one token if it is UTF-8,
  and an error otherwise;
* `scan_numtostr` — a dumped integer is one token;
* `scan_rest_length` — every token but the last takes something off the text.
-/

namespace Imq.Json

open Lib

/-! ## Structural characters and literals -/

/-- `scan` on a text that starts with no white space. -/
theorem scan_cons {c : Char} (hc : isBlank c = false) (rest : List Char) :
    scan (c :: rest) =
      ⟨(scanner.run .start 0 (.parseError, 0) (c :: rest)).1,
        (c :: rest).take (scanner.run .start 0 (.parseError, 0) (c :: rest)).2,
        (c :: rest).drop (scanner.run .start 0 (.parseError, 0) (c :: rest)).2⟩ := by
  simp only [scan, List.dropWhile_cons, hc, Bool.false_eq_true, if_false]

/-- The white space in front of a token is dropped. -/
theorem scan_eq (s : List Char) :
    scan s = scan [] ∨
      ∃ c cs, scan s = scan (c :: cs) ∧ isBlank c = false ∧ (c :: cs).length ≤ s.length := by
  induction s with
  | nil => exact .inl rfl
  | cons c s ih =>
    cases hc : isBlank c with
    | false => exact .inr ⟨c, s, rfl, hc, le_rfl⟩
    | true =>
      have hscan : scan (c :: s) = scan s := by
        simp only [scan, List.dropWhile_cons, hc, if_true]
      rw [hscan]
      obtain h | ⟨d, cs, h, hd, hle⟩ := ih
      · exact .inl h
      · exact .inr ⟨d, cs, h, hd, Nat.le_succ_of_le hle⟩

theorem scan_beginObject (rest : List Char) : scan ('{' :: rest) = ⟨.beginObject, ['{'], rest⟩ := rfl

theorem scan_endObject (rest : List Char) : scan ('}' :: rest) = ⟨.endObject, ['}'], rest⟩ := rfl

theorem scan_beginArray (rest : List Char) : scan ('[' :: rest) = ⟨.beginArray, ['['], rest⟩ := rfl

theorem scan_endArray (rest : List Char) : scan (']' :: rest) = ⟨.endArray, [']'], rest⟩ := rfl

theorem scan_nameSeparator (rest : List Char) :
    scan (':' :: rest) = ⟨.nameSeparator, [':'], rest⟩ := rfl

theorem scan_valueSeparator (rest : List Char) :
    scan (',' :: rest) = ⟨.valueSeparator, [','], rest⟩ := rfl

theorem scan_null (rest : List Char) :
    scan ("null".toList ++ rest) = ⟨.literalNull, "null".toList, rest⟩ := rfl

theorem scan_true (rest : List Char) :
    scan ("true".toList ++ rest) = ⟨.literalTrue, "true".toList, rest⟩ := rfl

theorem scan_false (rest : List Char) :
    scan ("false".toList ++ rest) = ⟨.literalFalse, "false".toList, rest⟩ := rfl

/-! ## Strings -/

/-- No quote but behind a backslash, and no backslash at the end. -/
inductive Closed : List Char → Prop where
  | nil : Closed []
  | char {c : Char} {rest : List Char} (hquote : c ≠ '"') (hbackslash : c ≠ '\\')
      (h : Closed rest) : Closed (c :: rest)
  | escape (c : Char) {rest : List Char} (h : Closed rest) : Closed ('\\' :: c :: rest)

/-- The closing quote of a string can be told. -/
theorem Closed.unique {s t u v : List Char} (hs : Closed s) (ht : Closed t)
    (h : s ++ '"' :: u = t ++ '"' :: v) : s = t := by
  induction hs generalizing t with
  | nil =>
    cases ht with
    | nil => rfl
    | char hquote =>
      cases h
      exact absurd rfl hquote
    | escape => cases h
  | char hquote hbackslash _ ih =>
    cases ht with
    | nil =>
      cases h
      exact absurd rfl hquote
    | char _ _ ht =>
      injection h with hc h
      rw [hc, ih ht h]
    | escape =>
      injection h with hc
      exact absurd hc hbackslash
  | escape c _ ih =>
    cases ht with
    | nil => cases h
    | char _ hbackslash =>
      injection h with hc
      exact absurd hc.symm hbackslash
    | escape d ht =>
      injection h with _ h
      injection h with hc h
      rw [hc, ih ht h]

theorem Closed.append {s t : List Char} (hs : Closed s) (ht : Closed t) : Closed (s ++ t) := by
  induction hs with
  | nil => exact ht
  | char hquote hbackslash _ ih => exact .char hquote hbackslash ih
  | escape c _ ih => exact .escape c ih

theorem closed_of_bare {s : List Char} (h : ∀ c ∈ s, c ≠ '"' ∧ c ≠ '\\') : Closed s := by
  induction s with
  | nil => exact .nil
  | cons c s ih =>
    obtain ⟨hquote, hbackslash⟩ := h c List.mem_cons_self
    exact .char hquote hbackslash (ih fun d hd => h d (List.mem_cons_of_mem _ hd))

theorem not_quote_of_isHexadecimal {c : Char} (h : isHexadecimal c = true) :
    c ≠ '"' ∧ c ≠ '\\' := by
  constructor <;>
  · rintro rfl
    cases h

theorem StringBody.closed {u : List Char} (h : StringBody u) : Closed u := by
  induction h with
  | nil => exact .nil
  | char hs bare _ ih =>
    refine .append (closed_of_bare fun c hc => ?_) ih
    have hbare := bare c hc
    rw [isPlain_iff] at hbare
    constructor <;>
    · rintro rfl
      simp at hbare
  | escape _ _ ih => exact .escape _ ih
  | unicode ha hb hc hd _ ih =>
    refine .escape _ (.append (s := [_, _, _, _]) (closed_of_bare ?_) ih)
    simp [not_quote_of_isHexadecimal, *]

theorem closed_escape (s : List Char) : Closed (s.flatMap escapeChar) := by
  induction s with
  | nil => exact .nil
  | cons c s ih =>
    rw [List.flatMap_cons]
    obtain ⟨e, hc, _⟩ | ⟨hlow, hc⟩ | ⟨hc, _, hquote, hbackslash⟩ := escapeChar_cases c
    · rw [hc]
      exact .escape e ih
    · obtain ⟨hhigh, hlow, _⟩ := strtoul_hexify hlow
      rw [hc]
      refine .escape _ (.append (s := [_, _, _, _]) (closed_of_bare ?_) ih)
      simp [not_quote_of_isHexadecimal, hhigh, hlow]
    · rw [hc]
      exact .char hquote hbackslash ih

/-- What `scan` makes of a text that starts with a quote. -/
theorem scan_string (cs : List Char) :
    (∃ body rest, cs = body ++ '"' :: rest ∧ StringBody body ∧
      scan ('"' :: cs) = ⟨.valueString, '"' :: body ++ ['"'], rest⟩) ∨
    ((∀ body rest, cs = body ++ '"' :: rest → ¬ StringBody body) ∧
      (scan ('"' :: cs)).type = .parseError) := by
  have hgoto : scanner.dispatch .start '"' = .goto .l9 := rfl
  rw [scan_cons rfl, Scanner.run_goto hgoto]
  obtain ⟨body, rest, rfl, hbody, hrun⟩ | ⟨hnone, hrun⟩ :=
    run_string (l := .l9) rfl 1
      (show (scanner.marked .start 0 (.parseError, 0)).1 = .parseError from rfl) cs
  · refine .inl ⟨body, rest, rfl, hbody, ?_⟩
    have hlength : '"' :: (body ++ '"' :: rest) = ('"' :: body ++ ['"']) ++ rest := by simp
    rw [hrun, hlength]
    simp only [Token.mk.injEq, true_and]
    constructor
    · rw [List.take_left' (by simp; omega)]
    · rw [List.drop_left' (by simp; omega)]
  · exact .inr ⟨hnone, hrun⟩

theorem scan_quoted {s : String} (h : Utf8String s) (rest : List Char) :
    scan (quoted s ++ rest) = ⟨.valueString, quoted s, rest⟩ := by
  have hbody := (stringBody_escape_iff s.toList).mpr h
  have hquoted : quoted s ++ rest = '"' :: (escapeString s ++ '"' :: rest) := by simp [quoted]
  rw [hquoted]
  obtain ⟨body, rest', hsplit, hbody', hscan⟩ | ⟨hnone, _⟩ := scan_string (escapeString s ++ '"' :: rest)
  · obtain rfl := (closed_escape s.toList).unique hbody'.closed hsplit
    obtain ⟨_, hrest⟩ := List.cons.inj (List.append_cancel_left hsplit)
    rw [hscan, hrest]
    rfl
  · exact absurd hbody (hnone _ rest rfl)

theorem scan_quoted_error {s : String} (h : ¬ Utf8String s) (rest : List Char) :
    (scan (quoted s ++ rest)).type = .parseError := by
  have hquoted : quoted s ++ rest = '"' :: (escapeString s ++ '"' :: rest) := by simp [quoted]
  rw [hquoted]
  obtain ⟨body, rest', hsplit, hbody, _⟩ | ⟨_, hscan⟩ := scan_string (escapeString s ++ '"' :: rest)
  · obtain rfl := (closed_escape s.toList).unique hbody.closed hsplit
    exact absurd ((stringBody_escape_iff s.toList).mp hbody) h
  · exact hscan

theorem getString_quoted (s : String) (rest : List Char) :
    Token.getString ⟨.valueString, quoted s, rest⟩ = .ok s := by
  have htail : (quoted s).tail.dropLast = escapeString s := by
    simp only [quoted, List.tail_cons, List.cons_append, List.dropLast_concat]
  simp only [Token.getString, htail, escapeString, getStringLoop_escape, Cpp.ok_bind,
    String.ofList_toList]
  rfl

/-! ## Integers -/

/-- The characters behind a value in a dumped text, and its end. -/
def isDelimiter (c : Char) : Bool := c == ',' || c == ']' || c == '}' || c == '\x00'

/-- What may follow a value in a dumped text. -/
def Delimited (rest : List Char) : Prop := isDelimiter (rest.headD '\x00') = true

theorem isDecimal_iff (c : Char) : isDecimal c = true ↔ 0x30 ≤ c.toNat ∧ c.toNat ≤ 0x39 := by
  simp [isDecimal, char_le_iff]

theorem isDecimal_of_isDigit {c : Char} (h : c.isDigit = true) : isDecimal c = true := by
  simp only [Char.isDigit, Bool.and_eq_true, decide_eq_true_eq, UInt32.le_iff_toNat_le] at h
  exact (isDecimal_iff c).mpr h

/-- A label that reads the digits of an integer, whose token is `t`. -/
structure IntegerLabel (l : Label) (t : TokenType) : Prop where
  goto {c : Char} (hc : isDecimal c = true) : dispatch l c = .goto l
  accept {c : Char} (hc : isDelimiter c = true) : dispatch l c = .accept t

theorem isDelimiter_iff (c : Char) :
    isDelimiter c = true ↔ c = ',' ∨ c = ']' ∨ c = '}' ∨ c = '\x00' := by
  simp [isDelimiter, or_assoc]

theorem integerLabel15 : IntegerLabel .l15 .valueUnsigned where
  goto hc := by simp [dispatch, hc]
  accept hc := by
    rw [isDelimiter_iff] at hc
    obtain rfl | rfl | rfl | rfl := hc <;> rfl

theorem integerLabel45 : IntegerLabel .l45 .valueInteger where
  goto hc := by
    rw [isDecimal_iff] at hc
    simp only [dispatch, char_le_iff, char_eq_iff]
    split_ifs <;> grind
  accept hc := by
    rw [isDelimiter_iff] at hc
    obtain rfl | rfl | rfl | rfl := hc <;> rfl

theorem run_delimited {l : Label} {t : TokenType}
    (accept : ∀ {c}, isDelimiter c = true → dispatch l c = .accept t) {rest : List Char}
    (h : Delimited rest) (n : Nat) (mark : TokenType × Nat) :
    scanner.run l n mark rest = (t, n) := by
  cases rest with
  | nil => rw [Scanner.run, show scanner.dispatch l scanner.eof = _ from accept h]; rfl
  | cons c rest => exact Scanner.run_accept (m := scanner) (accept h) n mark rest

theorem IntegerLabel.run {l : Label} {t : TokenType} (hl : IntegerLabel l t) {digits : List Char}
    (hdigits : ∀ c ∈ digits, isDecimal c = true) {rest : List Char} (h : Delimited rest) (n : Nat)
    (mark : TokenType × Nat) : scanner.run l n mark (digits ++ rest) = (t, n + digits.length) := by
  induction digits generalizing n mark with
  | nil => exact run_delimited hl.accept h n mark
  | cons c digits ih =>
    have hgoto : scanner.dispatch l c = .goto l := hl.goto (hdigits c List.mem_cons_self)
    rw [List.cons_append, Scanner.run_goto hgoto,
      ih fun d hd => hdigits d (List.mem_cons_of_mem _ hd)]
    rw [List.length_cons, Nat.add_right_comm n 1, Nat.add_assoc n]

/-- The digits of a positive number do not start with a zero. -/
theorem toDigits_eq_cons {n : Nat} (hn : 0 < n) :
    ∃ c digits, Nat.toDigits 10 n = c :: digits ∧ 0x31 ≤ c.toNat ∧ c.toNat ≤ 0x39 := by
  induction n using Nat.strong_induction_on with
  | _ n ih =>
    rw [Nat.toDigits_eq_if (by decide)]
    split_ifs with hlt
    · refine ⟨n.digitChar, [], rfl, ?_⟩
      interval_cases n <;> decide
    · obtain ⟨c, digits, hdigits, hc⟩ := ih (n / 10) (by omega) (by omega)
      exact ⟨c, digits ++ [(n % 10).digitChar], by rw [hdigits, List.cons_append], hc⟩

theorem isDecimal_of_mem_toString {n : Nat} {c : Char} (h : c ∈ (Cpp.toString n).toList) :
    isDecimal c = true :=
  isDecimal_of_isDigit (Cpp.isDigit_of_mem_toString h)

theorem toString_eq_cons {n : Nat} (hn : 0 < n) :
    ∃ c digits, (Cpp.toString n).toList = c :: digits ∧ 0x31 ≤ c.toNat ∧ c.toNat ≤ 0x39 ∧
      ∀ d ∈ digits, isDecimal d = true := by
  obtain ⟨c, digits, hdigits, hlow, hhigh⟩ := toDigits_eq_cons hn
  rw [← Cpp.toList_toString] at hdigits
  refine ⟨c, digits, hdigits, hlow, hhigh, fun d hd => ?_⟩
  exact isDecimal_of_mem_toString (n := n) (by rw [hdigits]; exact List.mem_cons_of_mem _ hd)

/-- The token of a dumped integer. -/
def integerType (n : Int) : TokenType := if n < 0 then .valueInteger else .valueUnsigned

theorem run_numtostr (n : Int) {rest : List Char} (h : Delimited rest) :
    scanner.run .start 0 (.parseError, 0) (numtostr n ++ rest) =
      (integerType n, (numtostr n).length) := by
  unfold numtostr integerType
  split_ifs with hneg
  · obtain ⟨c, digits, hdigits, hlow, hhigh, hdecimal⟩ := toString_eq_cons (n := n.natAbs) (by omega)
    have hminus : scanner.dispatch .start '-' = .goto .l12 := rfl
    have hfirst : scanner.dispatch .l12 c = .goto .l45 := by
      simp only [scanner, dispatch, char_le_iff]
      split_ifs <;> grind
    rw [hdigits, List.cons_append, List.cons_append, Scanner.run_goto hminus,
      Scanner.run_goto hfirst, integerLabel45.run hdecimal h]
    simp only [List.length_cons, Prod.mk.injEq, true_and]
    omega
  · by_cases hzero : n = 0
    · subst hzero
      have hfirst : scanner.dispatch .start '0' = .goto .l13 := rfl
      have haccept : ∀ {c}, isDelimiter c = true → dispatch .l13 c = .accept .valueUnsigned := by
        intro c hc
        rw [isDelimiter_iff] at hc
        obtain rfl | rfl | rfl | rfl := hc <;> rfl
      show scanner.run .start 0 (.parseError, 0) ('0' :: rest) = _
      rw [Scanner.run_goto hfirst, run_delimited haccept h]
      rfl
    · obtain ⟨c, digits, hdigits, hlow, hhigh, hdecimal⟩ := toString_eq_cons (n := n.natAbs) (by omega)
      have hfirst : scanner.dispatch .start c = .goto .l15 := by
        simp only [scanner, dispatch, char_le_iff, char_eq_iff]
        split_ifs <;> grind
      rw [hdigits, List.cons_append, Scanner.run_goto hfirst, integerLabel15.run hdecimal h]
      simp [Nat.add_comm]

theorem numtostr_eq_cons (n : Int) : ∃ c cs, numtostr n = c :: cs ∧ isBlank c = false := by
  unfold numtostr
  split_ifs
  · exact ⟨'-', _, rfl, rfl⟩
  · obtain ⟨c, cs, hcs⟩ := List.exists_cons_of_ne_nil (Cpp.toList_toString_ne_nil n.natAbs)
    refine ⟨c, cs, hcs, ?_⟩
    have hc := isDecimal_of_mem_toString (n := n.natAbs) (c := c) (by simp [hcs])
    rw [isDecimal_iff] at hc
    simp only [isBlank, Bool.or_eq_false_iff, beq_eq_false_iff_ne, ne_eq, char_eq_iff]
    simp
    omega

theorem scan_numtostr (n : Int) {rest : List Char} (h : Delimited rest) :
    scan (numtostr n ++ rest) = ⟨integerType n, numtostr n, rest⟩ := by
  obtain ⟨c, cs, hcs, hblank⟩ := numtostr_eq_cons n
  have hrun := run_numtostr n h
  rw [hcs, List.cons_append] at hrun ⊢
  rw [scan_cons hblank, hrun, ← List.cons_append, List.take_left' rfl, List.drop_left' rfl]

theorem getNumber_numtostr (format : FloatFormat) {n : Int} (hlow : -9223372036854775808 ≤ n)
    (hhigh : n ≤ 18446744073709551615) (rest : List Char) :
    Token.getNumber format ⟨integerType n, numtostr n, rest⟩ = number n := by
  have hvalue : Nat.ofDigitChars 10 (Cpp.toString n.natAbs).toList 0 = n.natAbs := by
    rw [Cpp.toList_toString]
    exact Nat.ofDigitChars_ten_toDigits
  unfold integerType numtostr
  split_ifs with hneg
  · simp only [Token.getNumber, List.tail_cons, hvalue]
    rw [if_pos (by omega)]
    congr 1
    omega
  · simp only [Token.getNumber, hvalue]
    rw [if_pos (by omega)]
    congr 1
    omega

/-! ## Progress -/

theorem dispatch_start_cases (c : Char) :
    (∃ t, scanner.dispatch .start c = .take t) ∨
      ∃ l, scanner.dispatch .start c = .goto l ∧ (scanner.mark l ≠ none ∨ l = .l12) := by
  simp only [scanner, dispatch]
  split_ifs <;> simp [yyaccept]

theorem dispatch_l12_cases (c : Char) :
    scanner.dispatch .l12 c = .accept .parseError ∨
      ∃ l, scanner.dispatch .l12 c = .goto l ∧ scanner.mark l ≠ none := by
  simp only [scanner, dispatch]
  split_ifs <;> simp [yyaccept]

theorem run_start_pos (c : Char) (cs : List Char) :
    0 < (scanner.run .start 0 (.parseError, 0) (c :: cs)).2 := by
  obtain ⟨t, h⟩ | ⟨l, h, hmark | rfl⟩ := dispatch_start_cases c
  · rw [Scanner.run_take h]
    exact Nat.one_pos
  · rw [Scanner.run_goto h]
    exact Scanner.run_length_pos Nat.one_pos (.inr hmark) cs
  · rw [Scanner.run_goto h]
    -- A minus sign sets no marker, but the label behind it does not go back, either.
    cases cs with
    | nil => exact Nat.one_pos
    | cons d cs =>
      obtain h' | ⟨l, h', hmark⟩ := dispatch_l12_cases d
      · rw [Scanner.run_accept h']
        exact Nat.one_pos
      · rw [Scanner.run_goto h']
        exact Scanner.run_length_pos (by omega) (.inr hmark) cs

theorem length_rest (s : List Char) : (scan s).rest.length ≤ s.length := by
  obtain he | ⟨c, cs, he, hc, hle⟩ := scan_eq s
  · rw [he]
    exact Nat.zero_le _
  · rw [he, scan_cons hc]
    exact Nat.le_trans (List.drop_sublist ..).length_le hle

theorem scan_rest_length {s : List Char} (h : (scan s).type ≠ .endOfInput) :
    (scan s).rest.length < s.length := by
  obtain he | ⟨c, cs, he, hc, hle⟩ := scan_eq s
  · rw [he] at h
    exact absurd rfl h
  · have hpos := run_start_pos c cs
    rw [he, scan_cons hc]
    simp only [List.length_drop]
    rw [List.length_cons] at hle ⊢
    omega

/-- What is left to read from a token on. -/
def Token.remaining (t : Token) : Nat := if t.type = .endOfInput then 0 else t.rest.length + 1

theorem remaining_scan (s : List Char) : (scan s).remaining ≤ s.length := by
  unfold Token.remaining
  split_ifs with h
  · exact Nat.zero_le _
  · exact scan_rest_length h

end Imq.Json
