import Imq.Json.Parser
import Imq.Verified.JsonTree

/-! # String tokens

`StringBody` is the grammar of what stands between the quotes of a JSON string:
characters in UTF-8, and escapes.

* `Language` — what may follow each label of `scan` inside a string, up to the
  closing quote; `language_cons_iff` takes it apart at the first character as the
  label does;
* `run_string` — so `scan` reads a string token exactly where the grammar has one.
-/

namespace Imq.Json

open Lib

/-! ## Characters as numbers -/

theorem char_le_iff (c d : Char) : c ≤ d ↔ c.toNat ≤ d.toNat := by
  rw [Char.le_def, UInt32.le_iff_toNat_le]
  rfl

theorem char_lt_iff (c d : Char) : c < d ↔ c.toNat < d.toNat := by
  rw [Char.lt_def, UInt32.lt_iff_toNat_lt]
  rfl

theorem char_eq_iff (c d : Char) : c = d ↔ c.toNat = d.toNat := Char.toNat_inj.symm

theorem isPlain_iff (c : Char) :
    isPlain c = true ↔
      0x20 ≤ c.toNat ∧ c.toNat ≤ 0x7f ∧ c.toNat ≠ 0x22 ∧ c.toNat ≠ 0x5c := by
  simp only [isPlain, Bool.and_eq_true, decide_eq_true_eq, bne_iff_ne, ne_eq, char_le_iff,
    char_eq_iff]
  simp [and_assoc]

/-! ## The grammar -/

/-- The characters that may follow a backslash, but for `u`. -/
def isEscape (c : Char) : Bool :=
  c == '"' || c == '\\' || c == '/' || c == 'b' || c == 'f' || c == 'n' || c == 'r' || c == 't'

inductive StringBody : List Char → Prop where
  | nil : StringBody []
  | char {s rest : List Char} (hs : Utf8.Sequence Char.toNat s)
      (bare : ∀ c ∈ s, isPlain c = true ∨ 0x80 ≤ c.toNat) (h : StringBody rest) :
      StringBody (s ++ rest)
  | escape {c : Char} {rest : List Char} (hc : isEscape c = true) (h : StringBody rest) :
      StringBody ('\\' :: c :: rest)
  | unicode {a b c d : Char} {rest : List Char} (ha : isHexadecimal a = true)
      (hb : isHexadecimal b = true) (hc : isHexadecimal c = true) (hd : isHexadecimal d = true)
      (h : StringBody rest) : StringBody ('\\' :: 'u' :: a :: b :: c :: d :: rest)

/-- A character with the property, and then the language. -/
def Then (p : Char → Prop) (language : List Char → Prop) : List Char → Prop
  | [] => False
  | c :: rest => p c ∧ language rest

abbrev Tail : Char → Prop := Utf8.Tail Char.toNat

abbrev Between (low high : Nat) : Char → Prop := Utf8.Between Char.toNat low high

/-- What may follow a label of `scan` inside a string, up to the closing quote. -/
def Language : Label → List Char → Prop
  | .l9 | .l30 => StringBody
  | .l35 => fun u =>
    Then (isEscape · = true) StringBody u ∨
      Then (· = 'u') (Then (isHexadecimal · = true) (Then (isHexadecimal · = true)
        (Then (isHexadecimal · = true) (Then (isHexadecimal · = true) StringBody)))) u
  | .l55 => Then (isHexadecimal · = true) (Then (isHexadecimal · = true)
      (Then (isHexadecimal · = true) (Then (isHexadecimal · = true) StringBody)))
  | .l65 => Then (isHexadecimal · = true) (Then (isHexadecimal · = true)
      (Then (isHexadecimal · = true) StringBody))
  | .l71 => Then (isHexadecimal · = true) (Then (isHexadecimal · = true) StringBody)
  | .l74 => Then (isHexadecimal · = true) StringBody
  | .l36 => Then Tail StringBody
  | .l37 => Then (Between 0xa0 0xbf) (Then Tail StringBody)
  | .l38 => Then Tail (Then Tail StringBody)
  | .l39 => Then (Between 0x80 0x9f) (Then Tail StringBody)
  | .l40 => Then (Between 0x90 0xbf) (Then Tail (Then Tail StringBody))
  | .l41 => Then Tail (Then Tail (Then Tail StringBody))
  | .l42 => Then (Between 0x80 0x8f) (Then Tail (Then Tail StringBody))
  | _ => fun _ => False

/-- The labels inside a string. -/
def Label.inString : Label → Bool
  | l9 | l30 | l35 | l36 | l37 | l38 | l39 | l40 | l41 | l42 | l55 | l65 | l71 | l74 => true
  | _ => false

theorem then_exists {p : Char → Prop} {language : List Char → Prop} {u : List Char}
    (h : Then p language u) : ∃ c rest, u = c :: rest ∧ p c ∧ language rest := by
  cases u with
  | nil => cases h
  | cons c rest => exact ⟨c, rest, rfl, h⟩

/-! ## The labels keep to the grammar -/

theorem dispatch31_goto_iff (c : Char) (l : Label) :
    dispatch31 c = .goto l ↔
      (isPlain c = true ∧ l = .l30) ∨ (c.toNat = 0x5c ∧ l = .l35) ∨
      (Between 0xc2 0xdf c ∧ l = .l36) ∨ (c.toNat = 0xe0 ∧ l = .l37) ∨
      (Between 0xe1 0xef c ∧ c.toNat ≠ 0xed ∧ l = .l38) ∨ (c.toNat = 0xed ∧ l = .l39) ∨
      (c.toNat = 0xf0 ∧ l = .l40) ∨ (Between 0xf1 0xf3 c ∧ l = .l41) ∨
      (c.toNat = 0xf4 ∧ l = .l42) := by
  have hplain := isPlain_iff c
  simp only [dispatch31, Utf8.Between, char_le_iff, char_eq_iff]
  split_ifs <;> grind

theorem isPlain_of_ascii {c : Char} (ascii : c.toNat ≤ 0x7f)
    (bare : isPlain c = true ∨ 0x80 ≤ c.toNat) : isPlain c = true := by
  obtain h | h := bare
  · exact h
  · omega

theorem stringBody_bytes {a : Char} {s rest : List Char}
    (hs : Utf8.Sequence Char.toNat (a :: s)) (ha : 0x80 ≤ a.toNat) (h : StringBody rest) :
    StringBody (a :: s ++ rest) :=
  .char hs (fun c hc => .inr (hs.not_ascii ha c hc)) h

/-- Label 31 takes a string body apart at its first character. -/
theorem stringBody_cons_iff (c : Char) (u : List Char) :
    StringBody (c :: u) ↔ ∃ l, dispatch31 c = .goto l ∧ Language l u := by
  simp only [dispatch31_goto_iff]
  constructor
  -- The first character decides which label follows, and the form of the body what is left.
  · intro h
    generalize hw : c :: u = w at h
    cases h with
    | nil => cases hw
    | escape hc h =>
      cases hw
      exact ⟨.l35, by simp, .inl ⟨hc, h⟩⟩
    | unicode ha hb hc hd h =>
      cases hw
      exact ⟨.l35, by simp, .inr ⟨rfl, ha, hb, hc, hd, h⟩⟩
    | char hs bare h =>
      have hbare := bare c
      cases hs with
      | ascii ha =>
        cases hw
        exact ⟨.l30, .inl ⟨isPlain_of_ascii ha (hbare (by simp)), rfl⟩, h⟩
      | two ha hb =>
        cases hw
        exact ⟨.l36, by simp [ha], hb, h⟩
      | afterE0 ha hb hc =>
        cases hw
        exact ⟨.l37, by simp [ha], hb, hc, h⟩
      | three ha hne hb hc =>
        cases hw
        exact ⟨.l38, by simp [ha, hne], hb, hc, h⟩
      | afterED ha hb hc =>
        cases hw
        exact ⟨.l39, by simp [ha], hb, hc, h⟩
      | afterF0 ha hb hc hd =>
        cases hw
        exact ⟨.l40, by simp [ha], hb, hc, hd, h⟩
      | four ha hb hc hd =>
        cases hw
        exact ⟨.l41, by simp [ha], hb, hc, hd, h⟩
      | afterF4 ha hb hc hd =>
        cases hw
        exact ⟨.l42, by simp [ha], hb, hc, hd, h⟩
  -- Back: each label says how many characters are still missing from the form.
  · rintro ⟨l, ⟨hc, rfl⟩ | ⟨hc, rfl⟩ | ⟨ha, rfl⟩ | ⟨ha, rfl⟩ | ⟨ha, hne, rfl⟩ | ⟨ha, rfl⟩ | ⟨ha, rfl⟩ |
      ⟨ha, rfl⟩ | ⟨ha, rfl⟩, hu⟩
    · have hplain := (isPlain_iff c).mp hc
      exact .char (s := [c]) (.ascii hplain.2.1) (by simp [hc]) hu
    · have hc : c = '\\' := (char_eq_iff c '\\').mpr hc
      obtain hu | hu := hu
      · obtain ⟨e, rest, rfl, he, hrest⟩ := then_exists hu
        exact hc ▸ .escape he hrest
      · obtain ⟨d, v, rfl, hd, hv⟩ := then_exists hu
        obtain ⟨d₁, v₁, rfl, h₁, hv₁⟩ := then_exists hv
        obtain ⟨d₂, v₂, rfl, h₂, hv₂⟩ := then_exists hv₁
        obtain ⟨d₃, v₃, rfl, h₃, hv₃⟩ := then_exists hv₂
        obtain ⟨d₄, v₄, rfl, h₄, hv₄⟩ := then_exists hv₃
        exact hc ▸ hd ▸ .unicode h₁ h₂ h₃ h₄ hv₄
    · obtain ⟨b, v, rfl, hb, hv⟩ := then_exists hu
      exact stringBody_bytes (.two ha hb) (by have := ha.1; omega) hv
    · obtain ⟨b, v, rfl, hb, hv⟩ := then_exists hu
      obtain ⟨d, v', rfl, hd, hv'⟩ := then_exists hv
      exact stringBody_bytes (.afterE0 ha hb hd) (by omega) hv'
    · obtain ⟨b, v, rfl, hb, hv⟩ := then_exists hu
      obtain ⟨d, v', rfl, hd, hv'⟩ := then_exists hv
      exact stringBody_bytes (.three ha hne hb hd) (by have := ha.1; omega) hv'
    · obtain ⟨b, v, rfl, hb, hv⟩ := then_exists hu
      obtain ⟨d, v', rfl, hd, hv'⟩ := then_exists hv
      exact stringBody_bytes (.afterED ha hb hd) (by omega) hv'
    · obtain ⟨b, v, rfl, hb, hv⟩ := then_exists hu
      obtain ⟨d, v', rfl, hd, hv'⟩ := then_exists hv
      obtain ⟨e, v'', rfl, he, hv''⟩ := then_exists hv'
      exact stringBody_bytes (.afterF0 ha hb hd he) (by omega) hv''
    · obtain ⟨b, v, rfl, hb, hv⟩ := then_exists hu
      obtain ⟨d, v', rfl, hd, hv'⟩ := then_exists hv
      obtain ⟨e, v'', rfl, he, hv''⟩ := then_exists hv'
      exact stringBody_bytes (.four ha hb hd he) (by have := ha.1; omega) hv''
    · obtain ⟨b, v, rfl, hb, hv⟩ := then_exists hu
      obtain ⟨d, v', rfl, hd, hv'⟩ := then_exists hv
      obtain ⟨e, v'', rfl, he, hv''⟩ := then_exists hv'
      exact stringBody_bytes (.afterF4 ha hb hd he) (by omega) hv''

theorem dispatchTail_goto_iff (low high : Char) (next : Label) (c : Char) (l : Label) :
    dispatchTail low high next c = .goto l ↔ Between low.toNat high.toNat c ∧ l = next := by
  simp only [dispatchTail, Utf8.Between, char_le_iff, char_lt_iff]
  split_ifs <;> grind

theorem dispatch9_goto_iff (c : Char) (l : Label) :
    dispatch .l9 c = .goto l ↔ dispatch31 c = .goto l := by
  have hplain := isPlain_iff c
  rw [dispatch31_goto_iff]
  simp only [dispatch, char_le_iff]
  split_ifs
  · simp [Utf8.Between, hplain]
    grind
  · rw [dispatch31_goto_iff]
  · simp [Utf8.Between, hplain]
    grind
  · rw [dispatch31_goto_iff]
  · simp [Utf8.Between, hplain]
    grind

theorem dispatch35_goto_iff (c : Char) (l : Label) :
    dispatch .l35 c = .goto l ↔ (isEscape c = true ∧ l = .l30) ∨ (c = 'u' ∧ l = .l55) := by
  simp only [dispatch, isEscape, Bool.or_eq_true, beq_iff_eq, char_le_iff, char_eq_iff]
  split_ifs <;> grind

theorem inString_of_dispatch31 {c : Char} {l : Label} (h : dispatch31 c = .goto l) :
    l.inString = true := by
  rw [dispatch31_goto_iff] at h
  grind [Label.inString]

theorem exists_goto_iff {p : Prop} {l₀ : Label} {next : Next}
    (hnext : ∀ l, next = .goto l ↔ p ∧ l = l₀) (hl₀ : l₀.inString = true) (u : List Char) :
    (∃ l, next = .goto l ∧ l.inString = true ∧ Language l u) ↔ p ∧ Language l₀ u := by
  simp only [hnext]
  constructor
  · rintro ⟨l, ⟨hp, rfl⟩, _, hu⟩
    exact ⟨hp, hu⟩
  · rintro ⟨hp, hu⟩
    exact ⟨l₀, ⟨hp, rfl⟩, hl₀, hu⟩

/-- Every label inside a string takes what may follow it apart at the first
    character. -/
theorem language_cons_iff {l : Label} (hl : l.inString = true) (c : Char) (u : List Char) :
    Language l (c :: u) ↔ ∃ l', dispatch l c = .goto l' ∧ l'.inString = true ∧ Language l' u := by
  have hbody : StringBody (c :: u) ↔
      ∃ l', dispatch31 c = .goto l' ∧ l'.inString = true ∧ Language l' u := by
    rw [stringBody_cons_iff]
    exact exists_congr fun l' => and_congr_right fun h =>
      (and_iff_right (inString_of_dispatch31 h)).symm
  have hhex : ∀ l₀ l, (if isHexadecimal c = true then ScanNext.goto l₀ else .backtrack : Next) =
      .goto l ↔ isHexadecimal c = true ∧ l = l₀ := by
    intro l₀ l
    by_cases h : isHexadecimal c = true
    · rw [if_pos h, ScanNext.goto.injEq, and_iff_right h, eq_comm]
    · rw [if_neg h]
      constructor
      · intro h'
        cases h'
      · intro h'
        exact absurd h'.1 h
  cases l with
  | l9 =>
    simp only [dispatch9_goto_iff]
    exact hbody
  | l30 => exact hbody
  | l35 =>
    simp only [dispatch35_goto_iff, Language, Then]
    constructor
    · rintro (⟨hc, hu⟩ | ⟨hc, hu⟩)
      · exact ⟨.l30, .inl ⟨hc, rfl⟩, rfl, hu⟩
      · exact ⟨.l55, .inr ⟨hc, rfl⟩, rfl, hu⟩
    · rintro ⟨l', ⟨hc, rfl⟩ | ⟨hc, rfl⟩, _, hu⟩
      · exact .inl ⟨hc, hu⟩
      · exact .inr ⟨hc, hu⟩
  | l36 => exact (exists_goto_iff (dispatchTail_goto_iff '\x80' '\xbf' .l30 c) rfl u).symm
  | l37 => exact (exists_goto_iff (dispatchTail_goto_iff '\xa0' '\xbf' .l36 c) rfl u).symm
  | l38 => exact (exists_goto_iff (dispatchTail_goto_iff '\x80' '\xbf' .l36 c) rfl u).symm
  | l39 => exact (exists_goto_iff (dispatchTail_goto_iff '\x80' '\x9f' .l36 c) rfl u).symm
  | l40 => exact (exists_goto_iff (dispatchTail_goto_iff '\x90' '\xbf' .l38 c) rfl u).symm
  | l41 => exact (exists_goto_iff (dispatchTail_goto_iff '\x80' '\xbf' .l38 c) rfl u).symm
  | l42 => exact (exists_goto_iff (dispatchTail_goto_iff '\x80' '\x8f' .l38 c) rfl u).symm
  | l55 => exact (exists_goto_iff (hhex .l65) rfl u).symm
  | l65 => exact (exists_goto_iff (hhex .l71) rfl u).symm
  | l71 => exact (exists_goto_iff (hhex .l74) rfl u).symm
  | l74 => exact (exists_goto_iff (hhex .l30) rfl u).symm
  | _ => cases hl

theorem language_nil_iff {l : Label} : Language l [] ↔ l = .l9 ∨ l = .l30 := by
  cases l <;> simp [Language, Then, StringBody.nil]

theorem dispatch31_cases (c : Char) :
    (∃ l, dispatch31 c = .goto l) ∨ (c = '"' ∧ dispatch31 c = .take .valueString) ∨
      dispatch31 c = .backtrack := by
  by_cases hc : c = '"'
  · subst hc
    exact .inr (.inl ⟨rfl, rfl⟩)
  · have hplain := isPlain_iff c
    rw [char_eq_iff] at hc
    simp only [dispatch31, char_le_iff, char_eq_iff]
    split_ifs <;> grind

/-- A label inside a string ends the token at the closing quote only, and otherwise
    with an error. -/
theorem dispatch_inString {l : Label} (hl : l.inString = true) (c : Char) :
    (∃ l', dispatch l c = .goto l') ∨
      (c = '"' ∧ (l = .l9 ∨ l = .l30) ∧ dispatch l c = .take .valueString) ∨
      dispatch l c = .accept .parseError ∨ dispatch l c = .backtrack := by
  cases l with
  | l9 =>
    have h31 : (∃ l', dispatch31 c = .goto l') ∨
        (c = '"' ∧ (Label.l9 = .l9 ∨ Label.l9 = .l30) ∧ dispatch31 c = .take .valueString) ∨
        dispatch31 c = .accept .parseError ∨ dispatch31 c = .backtrack := by
      obtain h | ⟨hc, h⟩ | h := dispatch31_cases c
      · exact .inl h
      · exact .inr (.inl ⟨hc, .inl rfl, h⟩)
      · exact .inr (.inr (.inr h))
    simp only [dispatch]
    split_ifs
    · exact .inr (.inr (.inl rfl))
    · simpa using h31
    · exact .inr (.inr (.inl rfl))
    · simpa using h31
    · exact .inr (.inr (.inl rfl))
  | l30 =>
    obtain h | ⟨hc, h⟩ | h := dispatch31_cases c
    · exact .inl h
    · exact .inr (.inl ⟨hc, .inr rfl, h⟩)
    · exact .inr (.inr (.inr h))
  | l35 | l36 | l37 | l38 | l39 | l40 | l41 | l42 | l55 | l65 | l71 | l74 =>
    simp only [dispatch, dispatchTail]
    split_ifs <;> simp
  | _ => cases hl

theorem inString_of_goto {l l' : Label} (hl : l.inString = true) {c : Char}
    (h : dispatch l c = .goto l') : l'.inString = true := by
  cases l with
  | l9 => exact inString_of_dispatch31 ((dispatch9_goto_iff c l').mp h)
  | l30 => exact inString_of_dispatch31 h
  | l35 =>
    obtain ⟨_, rfl⟩ | ⟨_, rfl⟩ := (dispatch35_goto_iff c l').mp h
    · rfl
    · rfl
  | l36 | l37 | l38 | l39 | l40 | l41 | l42 =>
    obtain ⟨_, rfl⟩ := (dispatchTail_goto_iff _ _ _ c l').mp h
    rfl
  | l55 | l65 | l71 | l74 =>
    simp only [dispatch] at h
    split_ifs at h
    cases h
    rfl
  | _ => cases hl

theorem marked_inString {l : Label} (hl : l.inString = true) {mark : TokenType × Nat}
    (hmark : mark.1 = .parseError) (n : Nat) : (scanner.marked l n mark).1 = .parseError := by
  cases l with
  | l9 => rfl
  | l30 | l35 | l36 | l37 | l38 | l39 | l40 | l41 | l42 | l55 | l65 | l71 | l74 => exact hmark
  | _ => cases hl

/-- From a label inside a string, `scan` reads up to the closing quote if there is
    one behind what may follow the label; otherwise there is an error. -/
theorem run_string {l : Label} (hl : l.inString = true) (n : Nat) {mark : TokenType × Nat}
    (hmark : mark.1 = .parseError) (cs : List Char) :
    (∃ body rest, cs = body ++ '"' :: rest ∧ Language l body ∧
      scanner.run l n mark cs = (.valueString, n + body.length + 1)) ∨
    ((∀ body rest, cs = body ++ '"' :: rest → ¬ Language l body) ∧
      (scanner.run l n mark cs).1 = .parseError) := by
  induction cs generalizing l n mark with
  | nil =>
    refine .inr ⟨fun body rest h => by simp at h, ?_⟩
    obtain ⟨l', h⟩ | ⟨hc, _⟩ | h | h := dispatch_inString hl '\x00'
    · exact absurd h (scanner.stops l l')
    · cases hc
    · rw [Scanner.run, show scanner.dispatch l scanner.eof = _ from h]
      rfl
    · rw [Scanner.run, show scanner.dispatch l scanner.eof = _ from h]
      exact marked_inString hl hmark n
  | cons c cs ih =>
    -- The first character either leads on to a label, where the rest is taken apart,
    by_cases hgoto : ∃ l', dispatch l c = .goto l'
    · obtain ⟨l', hgoto⟩ := hgoto
      have hl' := inString_of_goto hl hgoto
      rw [Scanner.run_goto (m := scanner) hgoto]
      obtain ⟨body, rest, rfl, hbody, hrun⟩ | ⟨hnone, hrun⟩ :=
        ih hl' (n + 1) (marked_inString hl hmark n)
      · refine .inl ⟨c :: body, rest, rfl, ?_, ?_⟩
        · exact (language_cons_iff hl c body).mpr ⟨l', hgoto, hl', hbody⟩
        · rw [hrun, List.length_cons, Nat.add_right_comm n 1, Nat.add_assoc n]
      · refine .inr ⟨fun body rest h hbody => ?_, hrun⟩
        cases body with
        | nil =>
          cases h
          obtain rfl | rfl := language_nil_iff.mp hbody <;> cases hgoto
        | cons d body =>
          cases h
          obtain ⟨l'', h', _, hbody⟩ := (language_cons_iff hl _ _).mp hbody
          rw [hgoto] at h'
          cases h'
          exact hnone body rest rfl hbody
    -- or ends the token.
    · have hnil : ∀ body rest, c :: cs = body ++ '"' :: rest → Language l body →
          c = '"' ∧ (l = .l9 ∨ l = .l30) := by
        intro body rest h hbody
        cases body with
        | nil =>
          cases h
          exact ⟨rfl, language_nil_iff.mp hbody⟩
        | cons d body =>
          cases h
          obtain ⟨l', h', _⟩ := (language_cons_iff hl _ _).mp hbody
          exact absurd ⟨l', h'⟩ hgoto
      have htake : c = '"' ∧ (l = .l9 ∨ l = .l30) → dispatch l c = .take .valueString := by
        rintro ⟨rfl, rfl | rfl⟩ <;> rfl
      obtain h | ⟨rfl, hquote, h⟩ | h := dispatch_inString hl c
      · exact absurd h hgoto
      · exact .inl ⟨[], cs, rfl, language_nil_iff.mpr hquote,
          Scanner.run_take (m := scanner) h n mark cs⟩
      · refine .inr ⟨fun body rest hsplit hbody => ?_, ?_⟩
        · rw [htake (hnil body rest hsplit hbody)] at h
          simp at h
        · obtain h | h := h
          · rw [Scanner.run_accept (m := scanner) h]
          · rw [Scanner.run_backtrack (m := scanner) h]
            exact marked_inString hl hmark n

end Imq.Json
