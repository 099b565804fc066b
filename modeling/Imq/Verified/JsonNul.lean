import Imq.Verified.JsonParser

/-! # A NUL ends the text

* `scan_cut` — the tokens up to a NUL are those of the text that ends there;
* `parse_cut` — so `parse` does not look behind it.
-/

namespace Imq.Json

open Lib

/-- The same token, in a text that goes on behind a NUL and in one that ends there. -/
def Cut (tail : List Char) (p q : Token) : Prop :=
  p.type = q.type ∧ (q.type ≠ .endOfInput → p.text = q.text ∧ p.rest = q.rest ++ '\x00' :: tail)

theorem dropWhile_isBlank_append (cs tail : List Char) :
    (cs ++ '\x00' :: tail).dropWhile isBlank = cs.dropWhile isBlank ++ '\x00' :: tail := by
  induction cs with
  | nil => rfl
  | cons c cs ih =>
    rw [List.cons_append, List.dropWhile_cons, List.dropWhile_cons]
    split_ifs
    · exact ih
    · rfl

theorem take_eof {l : Label} {t : TokenType} (h : scanner.dispatch l scanner.eof = .take t) :
    t = .endOfInput := by
  cases l <;> cases h
  rfl

theorem scan_cut (cs tail : List Char) : Cut tail (scan (cs ++ '\x00' :: tail)) (scan cs) := by
  have hrun := Scanner.run_append_eof (m := scanner) .start 0 (.parseError, 0)
    (cs.dropWhile isBlank) tail
  have hlength := Scanner.run_length_le (m := scanner) (l := .start) take_eof
    (show ((TokenType.parseError, 0) : TokenType × Nat).2 ≤ 0 from le_rfl) (cs.dropWhile isBlank)
  simp only [Cut, scan, dropWhile_isBlank_append]
  rw [show scanner.eof = '\x00' from rfl] at hrun
  rw [hrun]
  refine ⟨rfl, fun hne => ?_⟩
  have hle := hlength.resolve_left hne
  rw [Nat.zero_add] at hle
  exact ⟨List.take_append_of_le_length hle, List.drop_append_of_le_length hle⟩

theorem Cut.getToken {tail : List Char} {p q : Parser} (h : Cut tail p q)
    (hne : q.type ≠ .endOfInput) : Cut tail p.getToken q.getToken := by
  rw [Parser.getToken, (h.2 hne).2]
  exact scan_cut q.rest tail

theorem Cut.tokenName {tail : List Char} {p q : Parser} (h : Cut tail p q) :
    p.tokenName = q.tokenName := by
  unfold Parser.tokenName
  rw [h.1]
  split_ifs with herror
  · rw [(h.2 (by rw [herror]; simp)).1]
  · rfl

theorem Cut.expect {tail : List Char} {p q : Parser} (h : Cut tail p q) (t : TokenType) :
    p.expect t = q.expect t := by
  rw [Parser.expect, Parser.expect, h.1, h.tokenName]

theorem Cut.unexpect {tail : List Char} {p q : Parser} (h : Cut tail p q) (t : TokenType) :
    p.unexpect t = q.unexpect t := by
  rw [Parser.unexpect, Parser.unexpect, h.1, h.tokenName]

theorem Cut.getString {tail : List Char} {p q : Parser} (h : Cut tail p q)
    (hne : q.type ≠ .endOfInput) : Token.getString p = Token.getString q := by
  rw [Token.getString, Token.getString, (h.2 hne).1]

theorem Cut.getNumber {tail : List Char} {p q : Parser} (h : Cut tail p q)
    (hne : q.type ≠ .endOfInput) (format : FloatFormat) :
    Token.getNumber format p = Token.getNumber format q := by
  simp only [Token.getNumber, Token.getFloat, h.1, (h.2 hne).1]

/-! ## The descent -/

/-- The results agree, as long as the fuel of the second suffices. -/
def Agree {α : Type} (R : α → α → Prop) (r r' : Except Exn α) : Prop :=
  r' = .error outOfFuel ∨ (∃ e, r = .error e ∧ r' = .error e) ∨
    ∃ a a', r = .ok a ∧ r' = .ok a' ∧ R a a'

theorem Agree.bind {α β : Type} {R : α → α → Prop} {S : β → β → Prop} {r r' : Except Exn α}
    {f f' : α → Except Exn β} (h : Agree R r r') (hf : ∀ a a', R a a' → Agree S (f a) (f' a')) :
    Agree S (r >>= f) (r' >>= f') := by
  obtain rfl | ⟨e, rfl, rfl⟩ | ⟨a, a', rfl, rfl, ha⟩ := h
  · exact .inl rfl
  · exact .inr (.inl ⟨e, rfl, rfl⟩)
  · exact hf a a' ha

theorem Agree.ok {α : Type} {R : α → α → Prop} {a a' : α} (h : R a a') :
    Agree R (.ok a) (.ok a') := .inr (.inr ⟨a, a', rfl, rfl, h⟩)

theorem Agree.refl {α : Type} (r : Except Exn α) : Agree Eq r r := by
  cases r with
  | error e => exact .inr (.inl ⟨e, rfl, rfl⟩)
  | ok a => exact .ok rfl

/-- The same value, and the same token behind it. -/
def CutResult (tail : List Char) (r r' : Json × Parser) : Prop := r.1 = r'.1 ∧ Cut tail r.2 r'.2

theorem agree_getToken {tail : List Char} {p q : Parser} (h : Cut tail p q)
    (hne : q.type ≠ .endOfInput) (j : Json) :
    Agree (CutResult tail) (.ok (j, p.getToken)) (.ok (j, q.getToken)) :=
  .ok ⟨rfl, h.getToken hne⟩

theorem Cut.skip {tail : List Char} {p q : Parser} (h : Cut tail p q) :
    Cut tail (if p.type = .valueSeparator then p.getToken else p)
      (if q.type = .valueSeparator then q.getToken else q) := by
  rw [h.1]
  split_ifs with hseparator
  · exact h.getToken (by simp [hseparator])
  · exact h

theorem expect_endOfInput {q : Parser} {t : TokenType} (h : q.expect t = .ok ())
    (ht : t ≠ .endOfInput) : q.type ≠ .endOfInput := by
  unfold Parser.expect at h
  split_ifs at h with he
  rw [← not_not.mp he]
  exact ht

section

variable {format : FloatFormat} {tail : List Char} {fuel fuel' : Nat}

theorem parseElements_agree
    (value : ∀ p q : Parser, Cut tail p q → Agree (CutResult tail)
      (parseInternal format fuel p) (parseInternal format fuel' q))
    (loop : ∀ es (p q : Parser), Cut tail p q → Agree (CutResult tail)
      (parseElements format fuel es p) (parseElements format fuel' es q))
    (es : List Json) {p q : Parser} (h : Cut tail p q) :
    Agree (CutResult tail) (parseElements format (fuel + 1) es p)
      (parseElements format (fuel' + 1) es q) := by
  rw [parseElements, parseElements]
  apply (value _ _ h.skip).bind
  rintro ⟨e, p'⟩ ⟨e', q'⟩ ⟨rfl, h'⟩
  dsimp only at h' ⊢
  rw [h'.1]
  split_ifs
  · exact loop _ p' q' h'
  · rw [h'.expect]
    cases hexpect : q'.expect .endArray with
    | error e => exact .inr (.inl ⟨e, rfl, rfl⟩)
    | ok _ => exact agree_getToken h' (expect_endOfInput hexpect (by simp)) _

theorem parseMembers_agree
    (value : ∀ p q : Parser, Cut tail p q → Agree (CutResult tail)
      (parseInternal format fuel p) (parseInternal format fuel' q))
    (loop : ∀ ms (p q : Parser), Cut tail p q → Agree (CutResult tail)
      (parseMembers format fuel ms p) (parseMembers format fuel' ms q))
    (ms : List (String × Json)) {p q : Parser} (h : Cut tail p q) :
    Agree (CutResult tail) (parseMembers format (fuel + 1) ms p)
      (parseMembers format (fuel' + 1) ms q) := by
  rw [parseMembers, parseMembers]
  have hskip := h.skip
  generalize (if p.type = .valueSeparator then p.getToken else p) = p at hskip ⊢
  generalize (if q.type = .valueSeparator then q.getToken else q) = q at hskip ⊢
  rw [hskip.expect]
  cases hstring : q.expect .valueString with
  | error e => exact .inr (.inl ⟨e, rfl, rfl⟩)
  | ok _ =>
    have hne := expect_endOfInput hstring (by simp)
    have hcolon := hskip.getToken hne
    simp only [Cpp.ok_bind]
    rw [hskip.getString hne, hcolon.expect]
    cases hkey : Token.getString q with
    | error e => exact .inr (.inl ⟨e, rfl, rfl⟩)
    | ok key =>
      simp only [Cpp.ok_bind]
      cases hseparator : q.getToken.expect .nameSeparator with
      | error e => exact .inr (.inl ⟨e, rfl, rfl⟩)
      | ok _ =>
        simp only [Cpp.ok_bind]
        apply (value _ _ (hcolon.getToken (expect_endOfInput hseparator (by simp)))).bind
        rintro ⟨v, p'⟩ ⟨v', q'⟩ ⟨rfl, h'⟩
        dsimp only at h' ⊢
        rw [h'.1]
        split_ifs
        · exact loop _ p' q' h'
        · rw [h'.expect]
          cases hexpect : q'.expect .endObject with
          | error e => exact .inr (.inl ⟨e, rfl, rfl⟩)
          | ok _ => exact agree_getToken h' (expect_endOfInput hexpect (by simp)) _

theorem parseInternal_agree
    (members : ∀ ms (p q : Parser), Cut tail p q → Agree (CutResult tail)
      (parseMembers format fuel ms p) (parseMembers format fuel' ms q))
    (elements : ∀ es (p q : Parser), Cut tail p q → Agree (CutResult tail)
      (parseElements format fuel es p) (parseElements format fuel' es q))
    {p q : Parser} (h : Cut tail p q) :
    Agree (CutResult tail) (parseInternal format (fuel + 1) p)
      (parseInternal format (fuel' + 1) q) := by
  have hget := h.getToken
  rw [parseInternal, parseInternal, h.1]
  cases htype : q.type with
  | beginObject =>
    have hget := hget (by simp [htype])
    dsimp only
    rw [hget.1, hget.unexpect]
    split_ifs with hend
    -- The token that closes the object is not the end of the text, so both go on behind it.
    · exact agree_getToken hget (by simp [hend]) _
    · cases q.getToken.unexpect .valueSeparator with
      | error e => exact .inr (.inl ⟨e, rfl, rfl⟩)
      | ok _ => exact members [] _ _ hget
  | beginArray =>
    have hget := hget (by simp [htype])
    dsimp only
    rw [hget.1, hget.unexpect]
    split_ifs with hend
    · exact agree_getToken hget (by simp [hend]) _
    · cases q.getToken.unexpect .valueSeparator with
      | error e => exact .inr (.inl ⟨e, rfl, rfl⟩)
      | ok _ => exact elements [] _ _ hget
  | literalNull | literalTrue | literalFalse => exact agree_getToken h (by simp [htype]) _
  | valueString =>
    dsimp only
    rw [h.getString (by simp [htype])]
    cases Token.getString q with
    | error e => exact .inr (.inl ⟨e, rfl, rfl⟩)
    | ok s => exact agree_getToken h (by simp [htype]) _
  | valueUnsigned | valueInteger | valueFloat =>
    dsimp only
    rw [h.getNumber (by simp [htype])]
    exact agree_getToken h (by simp [htype]) _
  | uninitialized | endArray | endObject | nameSeparator | valueSeparator | parseError
  | endOfInput =>
    dsimp only
    rw [h.unexpect]
    cases q.unexpect _ with
    | error e => exact .inr (.inl ⟨e, rfl, rfl⟩)
    | ok _ => exact .inr (.inl ⟨_, rfl, rfl⟩)

end

theorem parse_agree_all (format : FloatFormat) (tail : List Char) {fuel fuel' : Nat}
    (hle : fuel' ≤ fuel) :
    (∀ p q : Parser, Cut tail p q → Agree (CutResult tail)
      (parseInternal format fuel p) (parseInternal format fuel' q)) ∧
    (∀ ms (p q : Parser), Cut tail p q → Agree (CutResult tail)
      (parseMembers format fuel ms p) (parseMembers format fuel' ms q)) ∧
    ∀ es (p q : Parser), Cut tail p q → Agree (CutResult tail)
      (parseElements format fuel es p) (parseElements format fuel' es q) := by
  induction fuel' generalizing fuel with
  | zero =>
    refine ⟨fun _ _ _ => .inl ?_, fun _ _ _ _ => .inl ?_, fun _ _ _ _ => .inl ?_⟩
    · rw [parseInternal]
    · rw [parseMembers]
    · rw [parseElements]
  | succ fuel' ih =>
    obtain ⟨fuel, rfl⟩ : ∃ k, fuel = k + 1 := ⟨fuel - 1, by omega⟩
    obtain ⟨value, members, elements⟩ := ih (Nat.le_of_succ_le_succ hle)
    exact ⟨fun _ _ h => parseInternal_agree members elements h,
      fun ms _ _ h => parseMembers_agree value members ms h,
      fun es _ _ h => parseElements_agree value elements es h⟩

/-- `parse` does not look behind a NUL. -/
theorem parse_cut (format : FloatFormat) (s tail : String) :
    parse format (s ++ "\x00" ++ tail) = parse format s := by
  have htext : (s ++ "\x00" ++ tail).toList = s.toList ++ '\x00' :: tail.toList := by
    simp
  have hle : 2 * s.length + 1 ≤ 2 * (s ++ "\x00" ++ tail).length + 1 := by
    simp only [String.length_append]
    omega
  have hagree := (parse_agree_all format tail.toList hle).1 _ _ (scan_cut s.toList tail.toList)
  rw [← htext] at hagree
  have hparse : Agree Eq (parse format (s ++ "\x00" ++ tail)) (parse format s) := by
    apply hagree.bind
    rintro ⟨j, p⟩ ⟨j', q⟩ ⟨rfl, h⟩
    dsimp only at h ⊢
    rw [h.expect]
    exact .refl _
  obtain hfuel | ⟨e, h, h'⟩ | ⟨j, j', h, h', rfl⟩ := hparse
  · obtain ⟨what, he⟩ := parse_eq_error hfuel
    cases he
  · rw [h, h']
  · rw [h, h']

end Imq.Json
