import Imq.Json.Parser
import Imq.Verified.JsonTokens

/-! # What `json::parse` reads, and how it fails

* `text_of_valueString` — what stands in a string token is a string body;
* `parse_yields` — `parse` gives a value that the library can hold, with its
  strings in UTF-8, or throws `std::invalid_argument`.
-/

namespace Imq.Json

open Lib

/-! ## String tokens are in the grammar -/

/-- The labels outside a string, but for the first. -/
def Label.outside (l : Label) : Prop := l ≠ .start ∧ l.inString = false

theorem outside_of_goto {l l' : Label} {c : Char} (hl : l.outside)
    (h : scanner.dispatch l c = .goto l') : l'.outside := by
  obtain ⟨hstart, hstring⟩ := hl
  cases l with
  | start => exact absurd rfl hstart
  | l9 | l30 | l35 | l36 | l37 | l38 | l39 | l40 | l41 | l42 | l55 | l65 | l71 | l74 =>
    cases hstring
  | _ =>
    simp only [scanner, dispatch, dispatchZero] at h
    split_ifs at h <;> cases h
    all_goals exact ⟨by simp, rfl⟩

theorem type_of_outside {l : Label} {c : Char} {t : TokenType} (hl : l.outside)
    (h : scanner.dispatch l c = .accept t ∨ scanner.dispatch l c = .take t) :
    t ≠ .valueString := by
  obtain ⟨hstart, hstring⟩ := hl
  cases l with
  | start => exact absurd rfl hstart
  | l9 | l30 | l35 | l36 | l37 | l38 | l39 | l40 | l41 | l42 | l55 | l65 | l71 | l74 =>
    cases hstring
  | _ =>
    simp only [scanner, dispatch, dispatchZero] at h
    split_ifs at h <;> simp at h <;> simp [← h]

theorem run_outside {l : Label} (hl : l.outside) (n : Nat) {mark : TokenType × Nat}
    (hmark : mark.1 ≠ .valueString) (cs : List Char) :
    (scanner.run l n mark cs).1 ≠ .valueString := by
  apply Scanner.run_token (P := Label.outside) (Q := (· ≠ .valueString)) outside_of_goto
    (fun hl h => type_of_outside hl (.inl h)) (fun hl h => type_of_outside hl (.inr h)) _ hl hmark
  intro l t _ h
  cases l <;> cases h <;> simp

theorem dispatch_start (c : Char) :
    c = '"' ∨ (∃ t, scanner.dispatch .start c = .take t ∧ t ≠ .valueString) ∨
      ∃ l, scanner.dispatch .start c = .goto l ∧ l.outside := by
  by_cases hc : c = '"'
  · exact .inl hc
  · rw [char_eq_iff] at hc
    simp only [scanner, dispatch, Label.outside, char_le_iff, char_eq_iff]
    split_ifs <;> simp [Label.inString]
    all_goals grind

/-- What stands in a string token. -/
theorem text_of_valueString {s : List Char} (h : (scan s).type = .valueString) :
    ∃ body, (scan s).text = '"' :: body ++ ['"'] ∧ StringBody body := by
  obtain he | ⟨c, cs, he, hc, _⟩ := scan_eq s
  · rw [he] at h
    cases h
  · rw [he] at h ⊢
    obtain rfl | ⟨t, hstart, ht⟩ | ⟨l, hstart, hl⟩ := dispatch_start c
    · obtain ⟨body, rest, _, hbody, hscan⟩ | ⟨_, hscan⟩ := scan_string cs
      · exact ⟨body, by rw [hscan], hbody⟩
      · rw [hscan] at h
        cases h
    · rw [scan_cons hc, Scanner.run_take hstart] at h
      exact absurd h ht
    · rw [scan_cons hc, Scanner.run_goto hstart] at h
      exact absurd h (run_outside hl 1 (by simp [Scanner.marked, scanner, yyaccept]) cs)

theorem length_text (s : List Char) : (scan s).text.length ≤ s.length := by
  obtain he | ⟨c, cs, he, hc, hle⟩ := scan_eq s
  · rw [he]
    exact Nat.zero_le _
  · rw [he, scan_cons hc]
    exact Nat.le_trans (List.take_sublist ..).length_le hle

theorem getString_scan {s : List Char} (h : (scan s).type = .valueString) :
    Yields (fun t => Utf8String t ∧ t.length ≤ s.length) (scan s).getString := by
  obtain ⟨body, htext, hbody⟩ := text_of_valueString h
  have htail : (scan s).text.tail.dropLast = body := by
    rw [htext, List.cons_append, List.tail_cons, List.dropLast_concat]
  have hlength : body.length ≤ s.length := by
    have hle := length_text s
    rw [htext] at hle
    simp at hle
    omega
  rw [Token.getString, htail]
  obtain ⟨t, ht, hvalid⟩ | ⟨what, hwhat⟩ := getStringLoop_of_body hbody
  · rw [ht]
    refine .ok ⟨?_, ?_⟩
    · rwa [Utf8String, String.toList_ofList]
    · rw [String.length_ofList]
      exact Nat.le_trans (length_getStringLoop ht) hlength
  · rw [hwhat]
    exact .invalidArgument

/-! ## The descent -/

/-- What `parse` may make of a text of `n` characters. -/
structure Sound (n : Nat) (j : Json) : Prop where
  held : Held j
  utf8 : Utf8 j
  short : Short n j

section

variable {n : Nat}

theorem sound_array {es : List Json} (h : ∀ e ∈ es, Sound n e) : Sound n (array es) where
  held := .array trivial fun e he => (h e he).held
  utf8 := .array trivial fun e he => (h e he).utf8
  short := .array trivial fun e he => (h e he).short

/-- What `parse` may make of the members of an object. -/
structure SoundMembers (n : Nat) (ms : List (String × Json)) : Prop where
  ordered : OrderedByKey Prod.fst ms
  key : ∀ m ∈ ms, Utf8String m.1 ∧ m.1.length ≤ n
  value : ∀ m ∈ ms, Sound n m.2

theorem soundMembers_nil : SoundMembers n [] where
  ordered := List.Pairwise.nil
  key := by simp
  value := by simp

theorem SoundMembers.insert {ms : List (String × Json)} (h : SoundMembers n ms) {key : String}
    (hkey : Utf8String key ∧ key.length ≤ n) {value : Json} (hvalue : Sound n value) :
    SoundMembers n (insertMember key value ms) where
  ordered := orderedByKey_insertByKey h.ordered
  key := by
    intro m hm
    obtain rfl | hm := mem_insertByKey_inv hm
    · exact hkey
    · exact h.key m hm
  value := by
    intro m hm
    obtain rfl | hm := mem_insertByKey_inv hm
    · exact hvalue
    · exact h.value m hm

theorem SoundMembers.object {ms : List (String × Json)} (h : SoundMembers n ms) :
    Sound n (object ms) where
  held := .object h.ordered fun m hm => (h.value m hm).held
  utf8 := .object (fun m hm => (h.key m hm).1) fun m hm => (h.value m hm).utf8
  short := .object (fun m hm => (h.key m hm).2) fun m hm => (h.value m hm).short

theorem sound_getFloat (format : FloatFormat) (t : Token) : Sound n (t.getFloat format) := by
  unfold Token.getFloat
  split
  · exact ⟨.numberFloat trivial, .numberFloat trivial, .numberFloat trivial⟩
  · exact ⟨.null trivial, .null trivial, .null trivial⟩

theorem sound_number {i : Int} (h : -9223372036854775808 ≤ i ∧ i ≤ 18446744073709551615) :
    Sound n (number i) := ⟨.number h, .number trivial, .number trivial⟩

theorem sound_getNumber (format : FloatFormat) (t : Token) : Sound n (t.getNumber format) := by
  have hfloat : Sound n (t.getFloat format) := sound_getFloat format t
  unfold Token.getNumber
  split
  · simp only
    split_ifs
    · exact sound_number (by omega)
    · exact hfloat
  · simp only
    split_ifs
    · exact sound_number (by omega)
    · exact hfloat
  · exact hfloat

/-- The parser has just read a token of a text of `n` characters. -/
def Parser.Scanned (n : Nat) (p : Parser) : Prop := ∃ s : List Char, s.length ≤ n ∧ p = scan s

theorem Parser.Scanned.getToken {p : Parser} (h : p.Scanned n) : p.getToken.Scanned n := by
  obtain ⟨s, hs, rfl⟩ := h
  refine ⟨(scan s).rest, Nat.le_trans ?_ hs, rfl⟩
  exact length_rest s

end

theorem Parser.remaining_getToken {p : Parser} (h : p.type ≠ .endOfInput) :
    p.getToken.remaining < p.remaining := by
  have hle : p.getToken.remaining ≤ p.rest.length := remaining_scan p.rest
  have hp : p.remaining = p.rest.length + 1 := if_neg h
  omega

theorem Parser.expect_yields (p : Parser) (t : TokenType) :
    Yields (fun _ => p.type = t) (p.expect t) := by
  unfold Parser.expect
  split_ifs with h
  · exact .invalidArgument
  · exact .ok (not_not.mp h).symm

theorem Parser.unexpect_yields (p : Parser) (t : TokenType) :
    Yields (fun _ => p.type ≠ t) (p.unexpect t) := by
  unfold Parser.unexpect
  split_ifs with h
  · exact .invalidArgument
  · exact .ok (Ne.symm h)

/-- What is read of a text of `n` characters from a token on, with `k` left there. -/
structure Parsed (n k : Nat) (r : Json × Parser) : Prop where
  sound : Sound n r.1
  scanned : r.2.Scanned n
  remaining : r.2.remaining < k

section

variable {n k : Nat}

theorem Parsed.yields {j : Json} (hj : Sound n j) {p : Parser} (hp : p.Scanned n)
    (hne : p.type ≠ .endOfInput) (hk : p.remaining ≤ k) :
    Yields (Parsed n k) (.ok (j, p.getToken)) :=
  .ok ⟨hj, hp.getToken, Nat.lt_of_lt_of_le (p.remaining_getToken hne) hk⟩

theorem Parsed.mono {i : Nat} {r : Except Exn (Json × Parser)} (h : Yields (Parsed n i) r)
    (hle : i ≤ k) : Yields (Parsed n k) r := by
  obtain ⟨a, rfl, ha⟩ | ⟨what, rfl⟩ := h
  · exact .ok ⟨ha.sound, ha.scanned, Nat.lt_of_lt_of_le ha.remaining hle⟩
  · exact .invalidArgument

theorem Parser.Scanned.getString {p : Parser} (h : p.Scanned n) (hp : p.type = .valueString) :
    Yields (fun t => Utf8String t ∧ t.length ≤ n) (Token.getString p) := by
  obtain ⟨s, hs, rfl⟩ := h
  obtain ⟨t, ht, hutf8, hlength⟩ | herror := getString_scan hp
  · exact .inl ⟨t, ht, hutf8, Nat.le_trans hlength hs⟩
  · exact .inr herror

/-- A comma in front of an element is skipped. -/
theorem Parser.scanned_skip {p : Parser} (hp : p.Scanned n) :
    (if p.type = .valueSeparator then p.getToken else p).Scanned n ∧
      (if p.type = .valueSeparator then p.getToken else p).remaining ≤ p.remaining := by
  split_ifs with h
  · exact ⟨hp.getToken, Nat.le_of_lt (p.remaining_getToken (by rw [h]; simp))⟩
  · exact ⟨hp, le_rfl⟩

/-! The fuel suffices for the brackets that are still to be read: each takes up
    two levels of the recursion. -/

variable {format : FloatFormat} {fuel : Nat}

theorem parseElements_yields
    (value : ∀ p : Parser, p.Scanned n → 2 * p.remaining + 1 ≤ fuel →
      Yields (Parsed n p.remaining) (parseInternal format fuel p))
    (loop : ∀ es, (∀ e ∈ es, Sound n e) → ∀ p : Parser, p.Scanned n → 2 * p.remaining + 2 ≤ fuel →
      Yields (Parsed n p.remaining) (parseElements format fuel es p))
    {es : List Json} (hes : ∀ e ∈ es, Sound n e) {p : Parser} (hp : p.Scanned n)
    (hfuel : 2 * p.remaining + 2 ≤ fuel + 1) :
    Yields (Parsed n p.remaining) (parseElements format (fuel + 1) es p) := by
  rw [parseElements]
  obtain ⟨hq, hle⟩ := Parser.scanned_skip hp
  generalize (if p.type = .valueSeparator then p.getToken else p) = q at hq hle ⊢
  apply (value q hq (by omega)).bind
  rintro ⟨e, r⟩ ⟨he, hr, hlt⟩
  have hes' : ∀ e' ∈ es ++ [e], Sound n e' := by
    intro e' he'
    obtain he' | he' := List.mem_append.mp he'
    · exact hes e' he'
    · rw [List.mem_singleton.mp he']
      exact he
  dsimp only at hr hlt ⊢
  split_ifs
  · exact Parsed.mono (loop _ hes' r hr (by omega)) (by omega)
  · apply (r.expect_yields .endArray).bind
    intro _ htype
    exact Parsed.yields (sound_array hes') hr (by simp [htype]) (by omega)

theorem parseMembers_yields
    (value : ∀ p : Parser, p.Scanned n → 2 * p.remaining + 1 ≤ fuel →
      Yields (Parsed n p.remaining) (parseInternal format fuel p))
    (loop : ∀ ms, SoundMembers n ms → ∀ p : Parser, p.Scanned n → 2 * p.remaining + 2 ≤ fuel →
      Yields (Parsed n p.remaining) (parseMembers format fuel ms p))
    {ms : List (String × Json)} (hms : SoundMembers n ms) {p : Parser} (hp : p.Scanned n)
    (hfuel : 2 * p.remaining + 2 ≤ fuel + 1) :
    Yields (Parsed n p.remaining) (parseMembers format (fuel + 1) ms p) := by
  rw [parseMembers]
  obtain ⟨hq, hle⟩ := Parser.scanned_skip hp
  generalize (if p.type = .valueSeparator then p.getToken else p) = q at hq hle ⊢
  apply (q.expect_yields .valueString).bind
  intro _ hstring
  have hkey := hq.getString hstring
  apply hkey.bind
  intro key hkey
  have hlt := q.remaining_getToken (by simp [hstring])
  dsimp only
  apply (q.getToken.expect_yields .nameSeparator).bind
  intro _ hseparator
  have hlt' := q.getToken.remaining_getToken (by simp [hseparator])
  apply (value _ hq.getToken.getToken (by omega)).bind
  rintro ⟨v, r⟩ ⟨hv, hr, hltr⟩
  dsimp only at hv hr hltr ⊢
  split_ifs
  · exact Parsed.mono (loop _ (hms.insert hkey hv) r hr (by omega)) (by omega)
  · apply (r.expect_yields .endObject).bind
    intro _ htype
    exact Parsed.yields (hms.insert hkey hv).object hr (by simp [htype]) (by omega)

theorem parseInternal_yields
    (members : ∀ ms, SoundMembers n ms → ∀ p : Parser, p.Scanned n → 2 * p.remaining + 2 ≤ fuel →
      Yields (Parsed n p.remaining) (parseMembers format fuel ms p))
    (elements : ∀ es, (∀ e ∈ es, Sound n e) → ∀ p : Parser, p.Scanned n → 2 * p.remaining + 2 ≤ fuel →
      Yields (Parsed n p.remaining) (parseElements format fuel es p))
    {p : Parser} (hp : p.Scanned n) (hfuel : 2 * p.remaining + 1 ≤ fuel + 1) :
    Yields (Parsed n p.remaining) (parseInternal format (fuel + 1) p) := by
  have hsound : ∀ {j : Json}, Sound n j → p.type ≠ .endOfInput →
      Yields (Parsed n p.remaining) (.ok (j, p.getToken)) := fun hj h => Parsed.yields hj hp h le_rfl
  have hscanned := hp.getToken
  have hlt := p.remaining_getToken
  rw [parseInternal]
  cases htype : p.type with
  | beginObject =>
    have hlt := hlt (by simp [htype])
    dsimp only
    split_ifs with hend
    · exact Parsed.yields soundMembers_nil.object hscanned (by simp [hend]) (by omega)
    -- The opening brace has been read: what remains is shorter, and so is the fuel needed.
    · apply (p.getToken.unexpect_yields .valueSeparator).bind
      intro _ _
      exact Parsed.mono (members [] soundMembers_nil _ hscanned (by omega)) (by omega)
  | beginArray =>
    have hlt := hlt (by simp [htype])
    dsimp only
    split_ifs with hend
    · exact Parsed.yields (sound_array (by simp)) hscanned (by simp [hend]) (by omega)
    · apply (p.getToken.unexpect_yields .valueSeparator).bind
      intro _ _
      exact Parsed.mono (elements [] (by simp) _ hscanned (by omega)) (by omega)
  | literalNull => exact hsound ⟨.null trivial, .null trivial, .null trivial⟩ (by simp [htype])
  | literalTrue | literalFalse =>
    exact hsound ⟨.boolean trivial, .boolean trivial, .boolean trivial⟩ (by simp [htype])
  | valueString =>
    apply (hp.getString htype).bind
    intro s hs
    exact hsound ⟨.string trivial, .string hs.1, .string hs.2⟩ (by simp [htype])
  | valueUnsigned | valueInteger | valueFloat =>
    exact hsound (sound_getNumber format p) (by simp [htype])
  | uninitialized | endArray | endObject | nameSeparator | valueSeparator | parseError
  | endOfInput =>
    apply (p.unexpect_yields _).bind
    intro _ hne
    exact absurd htype hne

end

theorem parse_yields_all (format : FloatFormat) (n fuel : Nat) :
    (∀ p : Parser, p.Scanned n → 2 * p.remaining + 1 ≤ fuel →
      Yields (Parsed n p.remaining) (parseInternal format fuel p)) ∧
    (∀ ms, SoundMembers n ms → ∀ p : Parser, p.Scanned n → 2 * p.remaining + 2 ≤ fuel →
      Yields (Parsed n p.remaining) (parseMembers format fuel ms p)) ∧
    ∀ es, (∀ e ∈ es, Sound n e) → ∀ p : Parser, p.Scanned n → 2 * p.remaining + 2 ≤ fuel →
      Yields (Parsed n p.remaining) (parseElements format fuel es p) := by
  induction fuel with
  | zero => simp
  | succ fuel ih =>
    obtain ⟨value, members, elements⟩ := ih
    exact ⟨fun _ hp hfuel => parseInternal_yields members elements hp hfuel,
      fun _ hms _ hp hfuel => parseMembers_yields value members hms hp hfuel,
      fun _ hes _ hp hfuel => parseElements_yields value elements hes hp hfuel⟩

theorem parse_yields (format : FloatFormat) (s : String) : Yields (Sound s.length) (parse format s) := by
  have hle : (scan s.toList).remaining ≤ s.length := by
    rw [← String.length_toList]
    exact remaining_scan s.toList
  have hscanned : Parser.Scanned s.length (scan s.toList) :=
    ⟨s.toList, Nat.le_of_eq String.length_toList, rfl⟩
  have hvalue := (parse_yields_all format s.length (2 * s.length + 1)).1 _ hscanned (by omega)
  apply hvalue.bind
  rintro ⟨j, p⟩ hj
  apply (p.expect_yields .endOfInput).bind
  intro _ _
  exact .ok hj.sound

/-- `parse` throws nothing but `std::invalid_argument`. -/
theorem parse_eq_error {format : FloatFormat} {s : String} {e : Exn}
    (h : parse format s = .error e) : ∃ what, e = .invalidArgument what := by
  obtain ⟨j, hj, _⟩ | ⟨what, hwhat⟩ := parse_yields format s
  · rw [h] at hj
    cases hj
  · rw [h] at hwhat
    cases hwhat
    exact ⟨what, rfl⟩

end Imq.Json

namespace Imq

/-- The vendored library, as the RPC layer uses it. -/
def JsonText.ofFormat (format : FloatFormat) : JsonText where
  dump := Json.dump format
  parse := Json.parse format
  parse_error _ _ h := Json.parse_eq_error h

end Imq
