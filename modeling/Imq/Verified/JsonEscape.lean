import Imq.Verified.JsonString

/-! # Escaping and unescaping

* `getStringLoop_escape` — `get_string` undoes `escape_string`;
* `getStringLoop_of_body` — whatever stands in a string token, `get_string` gives
  text in UTF-8, or throws on a broken surrogate pair;
* `stringBody_escape_iff` — so what `escape_string` writes can stand in a string
  token exactly if the string is UTF-8.
-/

namespace Imq.Json

open Lib

/-! ## Code points -/

theorem toNat_ofNat_byte {n : Nat} (h : n < 256) : (Char.ofNat n).toNat = n := by
  rw [Char.ofNat, dif_pos (.inl (by omega))]
  rfl

/-- The bytes that `to_unicode` makes: bits that mark the kind of the byte, and bits of
    the code point. -/
theorem toNat_marked {mark k i : Nat} (hmark : mark = 2 ^ k * (mark / 2 ^ k)) (hi : i ≤ k)
    (hbyte : mark + 2 ^ i ≤ 256) (x : Nat) :
    (Char.ofNat (mark ||| (x &&& (2 ^ i - 1)))).toNat = mark + x % 2 ^ i := by
  have hlt : x % 2 ^ i < 2 ^ i := Nat.mod_lt _ (Nat.two_pow_pos i)
  have hle : 2 ^ i ≤ 2 ^ k := Nat.pow_le_pow_right (by omega) hi
  have hor := Nat.two_pow_add_eq_or_of_lt (i := k) (b := x % 2 ^ i) (by omega) (mark / 2 ^ k)
  rw [← hmark] at hor
  rw [Nat.and_two_pow_sub_one_eq_mod, ← hor, toNat_ofNat_byte (by omega)]

theorem toNat_lead2 (x : Nat) : (Char.ofNat (0xc0 ||| (x &&& 0x1f))).toNat = 0xc0 + x % 32 :=
  toNat_marked (k := 6) (i := 5) (by decide) (by omega) (by decide) x

theorem toNat_lead3 (x : Nat) : (Char.ofNat (0xe0 ||| (x &&& 0x0f))).toNat = 0xe0 + x % 16 :=
  toNat_marked (k := 5) (i := 4) (by decide) (by omega) (by decide) x

theorem toNat_lead4 (x : Nat) : (Char.ofNat (0xf0 ||| (x &&& 0x07))).toNat = 0xf0 + x % 8 :=
  toNat_marked (k := 4) (i := 3) (by decide) (by omega) (by decide) x

theorem toNat_tail (x : Nat) : (Char.ofNat (0x80 ||| (x &&& 0x3f))).toNat = 0x80 + x % 64 :=
  toNat_marked (k := 7) (i := 6) (by decide) (by omega) (by decide) x

theorem tail_encoded (x : Nat) : Tail (Char.ofNat (0x80 ||| (x &&& 0x3f))) := by
  have h := toNat_tail x
  constructor <;> omega

/-- `to_unicode` writes UTF-8, for every code point but the surrogates. -/
theorem encodeCodepoint_eq_ok (codepoint : Nat) (hlt : codepoint < 0x110000)
    (scalar : ¬ (0xd800 ≤ codepoint ∧ codepoint ≤ 0xdfff)) :
    ∃ s, encodeCodepoint codepoint = .ok s ∧ Utf8.Sequence Char.toNat s := by
  have htail := tail_encoded
  unfold encodeCodepoint
  split_ifs with hascii htwo hthree hfour
  · exact ⟨_, rfl, .ascii (by rw [toNat_ofNat_byte (by omega)]; omega)⟩
  · refine ⟨_, rfl, .two ?_ (htail _)⟩
    simp only [Nat.shiftRight_eq_div_pow, Utf8.Between, toNat_lead2]
    omega
  · by_cases he0 : codepoint < 0x1000
    · refine ⟨_, rfl, .afterE0 ?_ ?_ (htail _)⟩ <;>
        simp only [Nat.shiftRight_eq_div_pow, Utf8.Between, toNat_lead3, toNat_tail] <;> omega
    · by_cases hed : codepoint / 2 ^ 12 = 0xd
      · refine ⟨_, rfl, .afterED ?_ ?_ (htail _)⟩ <;>
          simp only [Nat.shiftRight_eq_div_pow, Utf8.Between, toNat_lead3, toNat_tail] <;> omega
      · refine ⟨_, rfl, .three ?_ ?_ (htail _) (htail _)⟩ <;>
          simp only [Nat.shiftRight_eq_div_pow, Utf8.Between, toNat_lead3] <;> omega
  · by_cases hf0 : codepoint < 0x40000
    · refine ⟨_, rfl, .afterF0 ?_ ?_ (htail _) (htail _)⟩ <;>
        simp only [Nat.shiftRight_eq_div_pow, Utf8.Between, toNat_lead4, toNat_tail] <;> omega
    · by_cases hf4 : codepoint < 0x100000
      · refine ⟨_, rfl, .four ?_ (htail _) (htail _) (htail _)⟩
        simp only [Nat.shiftRight_eq_div_pow, Utf8.Between, toNat_lead4]
        omega
      · refine ⟨_, rfl, .afterF4 ?_ ?_ (htail _) (htail _)⟩ <;>
          simp only [Nat.shiftRight_eq_div_pow, Utf8.Between, toNat_lead4, toNat_tail] <;> omega
  · omega

/-- Four hexadecimal digits are a number of 16 bits. -/
theorem strtoul_eq_some {a b c d : Char} (ha : isHexadecimal a = true)
    (hb : isHexadecimal b = true) (hc : isHexadecimal c = true) (hd : isHexadecimal d = true) :
    ∃ codepoint, strtoul a b c d = some codepoint ∧ codepoint < 0x10000 := by
  have hdigit : ∀ c, isHexadecimal c = true → hexDigit c < 16 := by
    intro c hc
    simp only [isHexadecimal, char_le_iff, char_lt_iff] at hc
    simp only [hexDigit, char_le_iff]
    split_ifs at hc ⊢ <;> simp at * <;> omega
  have h₁ := hdigit a ha
  have h₂ := hdigit b hb
  have h₃ := hdigit c hc
  have h₄ := hdigit d hd
  refine ⟨((hexDigit a * 16 + hexDigit b) * 16 + hexDigit c) * 16 + hexDigit d, ?_, by omega⟩
  simp [strtoul, ha, hb, hc, hd]

/-! ## `get_string` -/

/-- A result with the property, or the one exception that `parse` throws. -/
def Yields {α : Type} (P : α → Prop) (r : Except Exn α) : Prop :=
  (∃ a, r = .ok a ∧ P a) ∨ ∃ what, r = .error (.invalidArgument what)

theorem Yields.bind {α β : Type} {P : α → Prop} {Q : β → Prop} {r : Except Exn α}
    {f : α → Except Exn β} (h : Yields P r) (hf : ∀ a, P a → Yields Q (f a)) :
    Yields Q (r >>= f) := by
  obtain ⟨a, rfl, ha⟩ | ⟨what, rfl⟩ := h
  · exact hf a ha
  · exact .inr ⟨what, rfl⟩

theorem Yields.ok {α : Type} {P : α → Prop} {a : α} (h : P a) : Yields P (.ok a) :=
  .inl ⟨a, rfl, h⟩

theorem Yields.invalidArgument {α : Type} {P : α → Prop} {what : String} :
    Yields P (.error (.invalidArgument what)) := .inr ⟨what, rfl⟩

/-- Text in UTF-8, or the exception for a broken surrogate pair. -/
abbrev Decoded : Except Exn (List Char) → Prop := Yields (Utf8.Valid Char.toNat)

theorem Decoded.append {s : List Char} (hs : Utf8.Valid Char.toNat s)
    {r : Except Exn (List Char)} (h : Decoded r) : Decoded (do return s ++ (← r)) :=
  h.bind fun _ ht => .ok (hs.append ht)

theorem getStringLoop_bare {s : List Char} (bare : ∀ c ∈ s, c ≠ '\\') (rest : List Char) :
    getStringLoop (s ++ rest) = (do return s ++ (← getStringLoop rest)) := by
  induction s with
  | nil => cases h : getStringLoop rest <;> simp [h, bind, Except.bind, pure, Except.pure]
  | cons c s ih =>
    have hc : c ≠ '\\' := bare c List.mem_cons_self
    rw [List.cons_append, getStringLoop, ih fun d hd => bare d (List.mem_cons_of_mem _ hd)]
    · cases h : getStringLoop rest <;> simp [bind, Except.bind, pure, Except.pure]
    all_goals
      intros
      simp_all

theorem stringBody_backslash {u : List Char} (h : StringBody ('\\' :: u)) :
    (∃ c rest, u = c :: rest ∧ isEscape c = true ∧ StringBody rest) ∨
      ∃ a b c d rest, u = 'u' :: a :: b :: c :: d :: rest ∧ isHexadecimal a = true ∧
        isHexadecimal b = true ∧ isHexadecimal c = true ∧ isHexadecimal d = true ∧
        StringBody rest := by
  generalize hw : '\\' :: u = w at h
  cases h with
  | nil => cases hw
  | escape hc h =>
    cases hw
    exact .inl ⟨_, _, rfl, hc, h⟩
  | unicode ha hb hc hd h =>
    cases hw
    exact .inr ⟨_, _, _, _, _, rfl, ha, hb, hc, hd, h⟩
  | char hs bare h =>
    obtain ⟨c, s, rfl⟩ := List.exists_cons_of_ne_nil hs.ne_nil
    cases hw
    obtain hplain | hbyte := bare '\\' List.mem_cons_self
    · cases hplain
    · exact absurd hbyte (by decide)

theorem decoded_simple {c : Char} (hc : isEscape c = true) {rest : List Char}
    (h : Decoded (getStringLoop rest)) : Decoded (getStringLoop ('\\' :: c :: rest)) := by
  have hu : c ≠ 'u' := by
    rintro rfl
    cases hc
  have hloop : getStringLoop ('\\' :: c :: rest) =
      (do return (simpleEscape c).toList ++ (← getStringLoop rest)) := by
    rw [getStringLoop]
    intros
    simp_all
  rw [hloop]
  apply Decoded.append _ h
  simp only [isEscape, Bool.or_eq_true, beq_iff_eq] at hc
  obtain ((((((rfl | rfl) | rfl) | rfl) | rfl) | rfl) | rfl) | rfl := hc <;>
    exact .of_sequence (.ascii (by decide))

/-- An escaped code point, which may be the first half of a surrogate pair. -/
theorem decoded_unicode {a b c d : Char} {rest : List Char} (ha : isHexadecimal a = true)
    (hb : isHexadecimal b = true) (hc : isHexadecimal c = true) (hd : isHexadecimal d = true)
    (hrest : StringBody rest)
    (ih : ∀ {v : List Char}, v.length ≤ rest.length → StringBody v → Decoded (getStringLoop v)) :
    Decoded (getStringLoop ('\\' :: 'u' :: a :: b :: c :: d :: rest)) := by
  obtain ⟨codepoint, hcode, hlt⟩ := strtoul_eq_some ha hb hc hd
  rw [getStringLoop, hcode]
  simp only
  split_ifs with hhigh hlow
  · split
    next a' b' c' d' rest' =>
      -- The lexer has seen to it that these are digits, too.
      obtain ⟨e, _, he, hescape, _⟩ | ⟨_, _, _, _, v, he, ha', hb', hc', hd', hv⟩ :=
        stringBody_backslash hrest
      · cases he
        cases hescape
      · cases he
        obtain ⟨codepoint2, hcode2, _⟩ := strtoul_eq_some ha' hb' hc' hd'
        rw [hcode2]
        simp only [toUnicode, if_pos hhigh]
        split_ifs with hlow2
        · obtain ⟨s, hs, hseq⟩ := encodeCodepoint_eq_ok
            ((codepoint <<< 10) + codepoint2 - 0x35fdc00)
            (by rw [Nat.shiftLeft_eq]; omega) (by rw [Nat.shiftLeft_eq]; omega)
          rw [hs, Cpp.ok_bind]
          exact (ih (by simp; omega) hv).append (.of_sequence hseq)
        · exact .invalidArgument
    next h =>
      obtain ⟨e, _, he, hescape, _⟩ | ⟨a', b', c', d', v, he, _⟩ := stringBody_backslash hrest
      · cases he
        cases hescape
      · cases he
        exact absurd rfl (h a' b' c' d' v)
    next => exact .invalidArgument
  · exact .invalidArgument
  · obtain ⟨s, hs, hseq⟩ := encodeCodepoint_eq_ok codepoint (by omega) (by omega)
    rw [toUnicode, if_neg hhigh, hs, Cpp.ok_bind]
    exact (ih (by simp) hrest).append (.of_sequence hseq)

/-- Whatever stands between the quotes of a string token. -/
theorem getStringLoop_of_body {u : List Char} (h : StringBody u) : Decoded (getStringLoop u) := by
  induction hn : u.length using Nat.strong_induction_on generalizing u with
  | _ n ih =>
    have hshorter : ∀ {v : List Char}, v.length < n → StringBody v → Decoded (getStringLoop v) :=
      fun hlt hv => ih _ hlt hv rfl
    subst hn
    cases h with
    | nil => exact .ok .nil
    | @char s rest hs bare h =>
      have hne : ∀ c ∈ s, c ≠ '\\' := by
        rintro c hc rfl
        obtain hplain | hbyte := bare '\\' hc
        · cases hplain
        · exact absurd hbyte (by decide)
      have hpos := List.length_pos_iff.mpr hs.ne_nil
      rw [getStringLoop_bare hne]
      exact (hshorter (by rw [List.length_append]; omega) h).append (.of_sequence hs)
    | escape hc h => exact decoded_simple hc (hshorter (by simp only [List.length_cons]; omega) h)
    | unicode ha hb hc hd h =>
      exact decoded_unicode ha hb hc hd h fun hle hv =>
        hshorter (by simp only [List.length_cons]; omega) hv

/-! ### Lengths -/

theorem length_encodeCodepoint {codepoint : Nat} {s : List Char}
    (h : encodeCodepoint codepoint = .ok s) : s.length ≤ 4 := by
  unfold encodeCodepoint at h
  split_ifs at h <;> cases h <;> simp

theorem length_toUnicode {codepoint1 codepoint2 : Nat} {s : List Char}
    (h : toUnicode codepoint1 codepoint2 = .ok s) : s.length ≤ 4 := by
  unfold toUnicode at h
  split_ifs at h
  · exact length_encodeCodepoint h
  · exact length_encodeCodepoint h

theorem length_append {s t : List Char} {r : Except Exn (List Char)} {n : Nat}
    (h : (do return s ++ (← r) : Except Exn (List Char)) = .ok t)
    (rest : ∀ t', r = .ok t' → t'.length ≤ n) : t.length ≤ s.length + n := by
  cases r with
  | error e => cases h
  | ok t' =>
    cases h
    rw [List.length_append]
    exact Nat.add_le_add_left (rest t' rfl) _

theorem length_append_toUnicode {codepoint1 codepoint2 : Nat} {t : List Char}
    {r : Except Exn (List Char)} {n : Nat}
    (h : (do return (← toUnicode codepoint1 codepoint2) ++ (← r) : Except Exn (List Char)) = .ok t)
    (rest : ∀ t', r = .ok t' → t'.length ≤ n) : t.length ≤ 4 + n := by
  cases hs : toUnicode codepoint1 codepoint2 with
  | error e =>
    rw [hs] at h
    cases h
  | ok s =>
    rw [hs] at h
    exact Nat.le_trans (length_append h rest) (Nat.add_le_add_right (length_toUnicode hs) n)

/-- No escape is shorter than what it stands for. -/
theorem length_getStringLoop {u t : List Char} (h : getStringLoop u = .ok t) :
    t.length ≤ u.length := by
  fun_induction getStringLoop u generalizing t with
  | case1 =>
    cases h
    exact le_rfl
  | case4 _ _ _ _ _ _ _ _ _ _ _ rest _ _ ih | case8 _ _ _ _ rest _ _ _ _ ih =>
    have hle := length_append_toUnicode h fun _ => ih
    simp only [List.length_cons]
    omega
  | case9 c rest _ ih =>
    have hle := length_append h fun _ => ih
    have hone : (simpleEscape c).toList.length ≤ 1 := by cases simpleEscape c <;> simp
    simp only [List.length_cons]
    omega
  | case11 c rest _ _ _ ih =>
    have hle := length_append (s := [c]) h fun _ => ih
    simp only [List.length_cons, List.length_nil] at hle ⊢
    omega
  | case2 | case3 | case5 | case6 | case7 | case10 => cases h

/-! ## `escape_string` -/

/-- The three kinds of character that `escape_string` tells apart. -/
theorem escapeChar_cases (c : Char) :
    (∃ e, escapeChar c = ['\\', e] ∧ isEscape e = true ∧ simpleEscape e = some c ∧
        c.toNat ≤ 0x7f) ∨
      (c.toNat ≤ 0x1f ∧ escapeChar c =
        ['\\', 'u', '0', '0', hexify (c.toNat >>> 4), hexify (c.toNat &&& 0x0f)]) ∨
      (escapeChar c = [c] ∧ 0x20 ≤ c.toNat ∧ c ≠ '"' ∧ c ≠ '\\') := by
  unfold escapeChar
  split_ifs with h₁ h₂ h₃ h₄ h₅ h₆ h₇ h₈
  · exact .inl ⟨'"', rfl, rfl, by rw [h₁]; rfl, by rw [h₁]; decide⟩
  · exact .inl ⟨'\\', rfl, rfl, by rw [h₂]; rfl, by rw [h₂]; decide⟩
  · exact .inl ⟨'b', rfl, rfl, by rw [h₃]; rfl, by rw [h₃]; decide⟩
  · exact .inl ⟨'f', rfl, rfl, by rw [h₄]; rfl, by rw [h₄]; decide⟩
  · exact .inl ⟨'n', rfl, rfl, by rw [h₅]; rfl, by rw [h₅]; decide⟩
  · exact .inl ⟨'r', rfl, rfl, by rw [h₆]; rfl, by rw [h₆]; decide⟩
  · exact .inl ⟨'t', rfl, rfl, by rw [h₇]; rfl, by rw [h₇]; decide⟩
  · rw [char_le_iff] at h₈
    exact .inr (.inl ⟨h₈, rfl⟩)
  · rw [char_le_iff] at h₈
    exact .inr (.inr ⟨rfl, by simp at h₈; omega, h₁, h₂⟩)

theorem strtoul_hexify {n : Nat} (h : n ≤ 0x1f) :
    isHexadecimal (hexify (n >>> 4)) = true ∧ isHexadecimal (hexify (n &&& 0x0f)) = true ∧
      strtoul '0' '0' (hexify (n >>> 4)) (hexify (n &&& 0x0f)) = some n := by
  have hall : ∀ n : Fin 0x20, isHexadecimal (hexify (n.val >>> 4)) = true ∧
      isHexadecimal (hexify (n.val &&& 0x0f)) = true ∧
      strtoul '0' '0' (hexify (n.val >>> 4)) (hexify (n.val &&& 0x0f)) = some n.val := by
    decide
  exact hall ⟨n, by omega⟩

/-- `get_string` undoes what `escape_string` does to a character. -/
theorem getStringLoop_escapeChar (c : Char) (rest : List Char) :
    getStringLoop (escapeChar c ++ rest) = (do return c :: (← getStringLoop rest)) := by
  obtain ⟨e, h, hescape, hsimple, _⟩ | ⟨hlow, h⟩ | ⟨h, _, _, hne⟩ := escapeChar_cases c
  · have hu : e ≠ 'u' := by
      rintro rfl
      cases hescape
    rw [h]
    show getStringLoop ('\\' :: e :: rest) = _
    rw [getStringLoop, hsimple]
    · rfl
    · intros
      simp_all
  · obtain ⟨_, _, hcode⟩ := strtoul_hexify hlow
    have hencode : encodeCodepoint c.toNat = .ok [c] := by
      rw [encodeCodepoint, if_pos (by omega), Char.ofNat_toNat]
    rw [h]
    show getStringLoop ('\\' :: 'u' :: '0' :: '0' :: _ :: _ :: rest) = _
    rw [getStringLoop, hcode]
    simp only
    rw [if_neg (by omega), if_neg (by omega), toUnicode, if_neg (by omega), hencode, Cpp.ok_bind]
    rfl
  · rw [h]
    exact getStringLoop_bare (s := [c]) (by simpa using hne) rest

theorem getStringLoop_escape (s : List Char) : getStringLoop (s.flatMap escapeChar) = .ok s := by
  induction s with
  | nil => rfl
  | cons c s ih =>
    rw [List.flatMap_cons, getStringLoop_escapeChar, ih]
    rfl

theorem stringBody_escapeChar {c : Char} (ascii : c.toNat ≤ 0x7f) {rest : List Char}
    (h : StringBody rest) : StringBody (escapeChar c ++ rest) := by
  obtain ⟨e, hc, hescape, _⟩ | ⟨hlow, hc⟩ | ⟨hc, hge, hquote, hbackslash⟩ := escapeChar_cases c
  · rw [hc]
    exact .escape hescape h
  · obtain ⟨hhigh, hlow, _⟩ := strtoul_hexify hlow
    rw [hc]
    exact .unicode rfl rfl hhigh hlow h
  · rw [hc]
    rw [ne_eq, char_eq_iff] at hquote hbackslash
    have hplain : isPlain c = true := (isPlain_iff c).mpr ⟨hge, ascii, hquote, hbackslash⟩
    exact .char (.ascii ascii) (by simp [hplain]) h

/-- What is not ASCII is not escaped. -/
theorem escape_bytes {s : List Char} (h : ∀ c ∈ s, 0x80 ≤ c.toNat) : s.flatMap escapeChar = s := by
  induction s with
  | nil => rfl
  | cons c s ih =>
    have hc := h c List.mem_cons_self
    rw [List.flatMap_cons, ih fun d hd => h d (List.mem_cons_of_mem _ hd)]
    obtain ⟨_, _, _, _, hle⟩ | ⟨hle, _⟩ | ⟨he, _⟩ := escapeChar_cases c
    · omega
    · omega
    · rw [he]
      rfl

theorem stringBody_escape {s : List Char} (h : Utf8.Valid Char.toNat s) :
    StringBody (s.flatMap escapeChar) := by
  induction h with
  | nil => exact .nil
  | @cons s rest first _ ih =>
    obtain ⟨c, s, rfl⟩ := List.exists_cons_of_ne_nil first.ne_nil
    rw [List.flatMap_append]
    by_cases hc : 0x80 ≤ c.toNat
    · have hbytes := first.not_ascii hc
      rw [escape_bytes hbytes]
      exact .char first (fun c hc => .inr (hbytes c hc)) ih
    · obtain ⟨rfl, ascii⟩ := first.eq_nil_of_ascii (by omega)
      simpa using stringBody_escapeChar ascii ih

/-- What `escape_string` writes can stand in a string token exactly if the string is
    UTF-8. -/
theorem stringBody_escape_iff (s : List Char) :
    StringBody (s.flatMap escapeChar) ↔ Utf8.Valid Char.toNat s := by
  constructor
  · intro h
    obtain ⟨t, ht, hvalid⟩ | ⟨what, hwhat⟩ := getStringLoop_of_body h
    · rw [getStringLoop_escape] at ht
      cases ht
      exact hvalid
    · rw [getStringLoop_escape] at hwhat
      cases hwhat
  · exact stringBody_escape

end Imq.Json
