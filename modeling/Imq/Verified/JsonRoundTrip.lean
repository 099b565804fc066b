import Imq.Verified.JsonParser

/-! # `json::parse` undoes `json::dump`

* `parse_dump` — a value without floating-point numbers is read back from its
  text if its strings are UTF-8; otherwise the text is rejected;
* `parse_sound` — whatever has been read is read back.
-/

namespace Imq.Json

open Lib

/-- The result if `P` holds, and otherwise the exception that `parse` throws. -/
def Decides {α : Type} (P : Prop) (a : α) (r : Except Exn α) : Prop :=
  (P ∧ r = .ok a) ∨ (¬ P ∧ ∃ what, r = .error (.invalidArgument what))

theorem Decides.ok {α : Type} {P : Prop} {a : α} (h : P) : Decides P a (.ok a) := .inl ⟨h, rfl⟩

theorem Decides.invalidArgument {α : Type} {P : Prop} {a : α} {what : String} (h : ¬ P) :
    Decides P a (.error (.invalidArgument what)) := .inr ⟨h, what, rfl⟩

theorem Decides.bind {α β : Type} {P Q : Prop} {a : α} {b : β} {r : Except Exn α}
    {f : α → Except Exn β} (h : Decides P a r) (hf : P → Decides Q b (f a)) :
    Decides (P ∧ Q) b (r >>= f) := by
  obtain ⟨hP, rfl⟩ | ⟨hP, what, rfl⟩ := h
  · obtain ⟨hQ, h⟩ | ⟨hQ, h⟩ := hf hP
    · exact .inl ⟨⟨hP, hQ⟩, h⟩
    · exact .inr ⟨fun h => hQ h.2, h⟩
  · exact .inr ⟨fun h => hP h.1, what, rfl⟩

theorem Decides.congr {α : Type} {P Q : Prop} {a : α} {r : Except Exn α} (h : Decides P a r)
    (hPQ : P ↔ Q) : Decides Q a r := by
  rwa [← hPQ]

/-! ## The first token of a value -/

/-- A token that can begin a value, or is none. -/
def TokenType.opens (t : TokenType) : Prop :=
  t ≠ .valueSeparator ∧ t ≠ .endArray ∧ t ≠ .endObject

theorem opens_quoted (s : String) (rest : List Char) : (scan (quoted s ++ rest)).type.opens := by
  by_cases h : Utf8String s
  · rw [scan_quoted h]
    simp [TokenType.opens]
  · rw [scan_quoted_error h]
    simp [TokenType.opens]

theorem opens_dumpChars (format : FloatFormat) {j : Json} (floatFree : FloatFree j)
    {rest : List Char} (h : Delimited rest) : (scan (dumpChars format j ++ rest)).type.opens := by
  match j with
  | null =>
    rw [dumpChars, scan_null]
    simp [TokenType.opens]
  | boolean true =>
    rw [dumpChars, if_pos rfl, scan_true]
    simp [TokenType.opens]
  | boolean false =>
    rw [dumpChars, if_neg (by simp), scan_false]
    simp [TokenType.opens]
  | number n =>
    rw [dumpChars, scan_numtostr n h]
    unfold integerType
    split_ifs <;> simp [TokenType.opens]
  | numberFloat _ => exact absurd floatFree.self not_false
  | string s =>
    rw [dumpChars]
    exact opens_quoted s rest
  | array [] | array (_ :: _) =>
    simp only [dumpChars, List.cons_append, scan_beginArray]
    simp [TokenType.opens]
  | object [] | object (_ :: _) =>
    simp only [dumpChars, List.cons_append, scan_beginObject]
    simp [TokenType.opens]

/-! ## Members and elements -/

theorem delimited_members (format : FloatFormat) (ms : List (String × Json)) (rest : List Char) :
    Delimited (dumpMembers format ms ++ '}' :: rest) := by
  cases ms <;> rfl

theorem delimited_elements (format : FloatFormat) (es : List Json) (rest : List Char) :
    Delimited (dumpElements format es ++ ']' :: rest) := by
  cases es <;> rfl

/-- A value is read back behind any text that it can stand in front of. -/
def ReadBack (format : FloatFormat) (j : Json) : Prop :=
  ∀ fuel rest, Delimited rest → 2 * (dumpChars format j ++ rest).length + 1 ≤ fuel →
    Decides (Utf8 j) (j, scan rest) (parseInternal format fuel (scan (dumpChars format j ++ rest)))

theorem Parser.expect_self {p : Parser} {t : TokenType} (h : p.type = t) : p.expect t = .ok () := by
  rw [Parser.expect, if_neg (not_not.mpr h.symm)]

theorem Parser.expect_ne {p : Parser} {t : TokenType} (h : p.type ≠ t) :
    ∃ what, p.expect t = .error (.invalidArgument what) := by
  rw [Parser.expect, if_pos h.symm]
  exact ⟨_, rfl⟩

theorem Parser.unexpect_ne {p : Parser} {t : TokenType} (h : p.type ≠ t) :
    p.unexpect t = .ok () := by
  rw [Parser.unexpect, if_neg h.symm]

/-- Where both loops go on: behind a separator, if there is one. -/
def Parser.skipSeparator (p : Parser) : Parser := if p.type = .valueSeparator then p.getToken else p

theorem Parser.skipSeparator_separator {text : List Char} (h : (scan text).type ≠ .valueSeparator) :
    skipSeparator ⟨.valueSeparator, [','], text⟩ = skipSeparator (scan text) := by
  rw [skipSeparator, skipSeparator, if_pos rfl, if_neg h]
  rfl

section

variable {format : FloatFormat} {p q : Parser} (h : p.skipSeparator = q.skipSeparator) (fuel : Nat)
include h

theorem parseElements_congr (acc : List Json) :
    parseElements format fuel acc p = parseElements format fuel acc q := by
  unfold Parser.skipSeparator at h
  cases fuel with
  | zero => rw [parseElements, parseElements]
  | succ fuel => simp only [parseElements, h]

theorem parseMembers_congr (acc : List (String × Json)) :
    parseMembers format fuel acc p = parseMembers format fuel acc q := by
  unfold Parser.skipSeparator at h
  cases fuel with
  | zero => rw [parseMembers, parseMembers]
  | succ fuel => simp only [parseMembers, h]

end

/-- One round of the loop over the elements. -/
theorem parseElements_step {format : FloatFormat} {e : Json} (floatFree : FloatFree e)
    (readBack : ReadBack format e) {fuel : Nat} {acc : List Json} {text : List Char}
    (hdelimited : Delimited text) (hfuel : 2 * (dumpChars format e ++ text).length + 1 ≤ fuel)
    {Q : Prop} {r : Json × Parser}
    (next : Decides Q r
      (if (scan text).type = .valueSeparator then parseElements format fuel (acc ++ [e]) (scan text)
      else do
        Parser.expect (scan text) .endArray
        return (array (acc ++ [e]), Parser.getToken (scan text)))) :
    Decides (Utf8 e ∧ Q) r (parseElements format (fuel + 1) acc (scan (dumpChars format e ++ text))) := by
  have hopens := opens_dumpChars format floatFree hdelimited
  rw [parseElements, if_neg hopens.1]
  exact (readBack fuel text hdelimited hfuel).bind fun _ => next

/-- One round of the loop over the members. -/
theorem parseMembers_step {format : FloatFormat} {m : String × Json} (readBack : ReadBack format m.2)
    {fuel : Nat} {acc : List (String × Json)} {text : List Char} (hdelimited : Delimited text)
    (hfuel : 2 * (dumpChars format m.2 ++ text).length + 1 ≤ fuel) {Q : Prop} {r : Json × Parser}
    (next : Decides Q r
      (if (scan text).type = .valueSeparator then
        parseMembers format fuel (insertMember m.1 m.2 acc) (scan text)
      else do
        Parser.expect (scan text) .endObject
        return (object (insertMember m.1 m.2 acc), Parser.getToken (scan text)))) :
    Decides ((Utf8String m.1 ∧ Utf8 m.2) ∧ Q) r (parseMembers format (fuel + 1) acc
      (scan (quoted m.1 ++ ':' :: (dumpChars format m.2 ++ text)))) := by
  have hopens := opens_quoted m.1 (':' :: (dumpChars format m.2 ++ text))
  rw [parseMembers, if_neg hopens.1]
  by_cases hkey : Utf8String m.1
  · -- The key is read, and so is the colon.
    rw [scan_quoted hkey]
    simp only [Parser.expect_self, getString_quoted, Cpp.ok_bind, Parser.getToken,
      scan_nameSeparator]
    exact ((readBack fuel text hdelimited hfuel).bind fun _ => next).congr (by simp [hkey])
  · have htype : (scan (quoted m.1 ++ ':' :: (dumpChars format m.2 ++ text))).type ≠ .valueString := by
      rw [scan_quoted_error hkey]
      simp
    obtain ⟨what, hexpect⟩ := Parser.expect_ne htype
    rw [hexpect]
    exact .invalidArgument fun h => hkey h.1.1

theorem parseElements_dump {format : FloatFormat} {e : Json} {es : List Json}
    (floatFree : ∀ e' ∈ e :: es, FloatFree e') (readBack : ∀ e' ∈ e :: es, ReadBack format e')
    (fuel : Nat) (acc : List Json) (rest : List Char)
    (hfuel : 2 * (dumpChars format e ++ (dumpElements format es ++ ']' :: rest)).length + 2 ≤ fuel) :
    Decides (∀ e' ∈ e :: es, Utf8 e') (array (acc ++ e :: es), scan rest)
      (parseElements format fuel acc
        (scan (dumpChars format e ++ (dumpElements format es ++ ']' :: rest)))) := by
  induction es generalizing e fuel acc with
  | nil =>
    cases fuel with
    | zero => omega
    | succ fuel =>
      refine (parseElements_step (Q := True) (floatFree e List.mem_cons_self)
        (readBack e List.mem_cons_self) (delimited_elements format [] rest) (by omega) ?_).congr
        (by simp)
      simp only [dumpElements, List.nil_append, scan_endArray]
      exact .ok trivial
  | cons e' es ih =>
    cases fuel with
    | zero => omega
    | succ fuel =>
      have hrest := (List.forall_mem_cons.mp floatFree).2
      have hopens := opens_dumpChars format (hrest e' List.mem_cons_self)
        (delimited_elements format es rest)
      have hloop := ih hrest (List.forall_mem_cons.mp readBack).2 fuel (acc ++ [e]) (by
        simp only [dumpElements, List.length_append, List.length_cons] at hfuel ⊢
        omega)
      refine (parseElements_step (floatFree e List.mem_cons_self) (readBack e List.mem_cons_self)
        (delimited_elements format (e' :: es) rest) (by omega) ?_).congr List.forall_mem_cons.symm
      simp only [dumpElements, List.cons_append, List.append_assoc, scan_valueSeparator, if_true]
      rw [parseElements_congr (Parser.skipSeparator_separator hopens.1)]
      rwa [List.append_assoc] at hloop

theorem parseMembers_dump {format : FloatFormat} {m : String × Json} {ms : List (String × Json)}
    (readBack : ∀ m' ∈ m :: ms, ReadBack format m'.2) (fuel : Nat) (acc : List (String × Json))
    (ordered : OrderedByKey Prod.fst (acc ++ m :: ms)) (rest : List Char)
    (hfuel : 2 * (quoted m.1 ++ ':' :: (dumpChars format m.2 ++
      (dumpMembers format ms ++ '}' :: rest))).length + 2 ≤ fuel) :
    Decides (∀ m' ∈ m :: ms, Utf8String m'.1 ∧ Utf8 m'.2) (object (acc ++ m :: ms), scan rest)
      (parseMembers format fuel acc (scan (quoted m.1 ++ ':' :: (dumpChars format m.2 ++
        (dumpMembers format ms ++ '}' :: rest))))) := by
  -- The members come in the order of their keys, so each goes to the end.
  have hinsert : insertMember m.1 m.2 acc = acc ++ [m] :=
    insertByKey_eq_append fun m' hm' =>
      (List.pairwise_append.mp ordered).2.2 m' hm' m List.mem_cons_self
  induction ms generalizing m fuel acc with
  | nil =>
    cases fuel with
    | zero => omega
    | succ fuel =>
      refine (parseMembers_step (Q := True) (readBack m List.mem_cons_self)
        (delimited_members format [] rest) (by simp at hfuel ⊢; omega) ?_).congr (by simp)
      simp only [dumpMembers, List.nil_append, scan_endObject, hinsert]
      exact .ok trivial
  | cons m' ms ih =>
    cases fuel with
    | zero => omega
    | succ fuel =>
      have hopens := opens_quoted m'.1
        (':' :: (dumpChars format m'.2 ++ (dumpMembers format ms ++ '}' :: rest)))
      have ordered' : OrderedByKey Prod.fst ((acc ++ [m]) ++ m' :: ms) := by
        rwa [List.append_assoc]
      have hloop := ih (List.forall_mem_cons.mp readBack).2 fuel (acc ++ [m]) ordered' (by
        simp only [dumpMembers, List.length_append, List.length_cons] at hfuel ⊢
        omega) (insertByKey_eq_append fun d hd =>
          (List.pairwise_append.mp ordered').2.2 d hd m' List.mem_cons_self)
      refine (parseMembers_step (Q := ∀ d ∈ m' :: ms, Utf8String d.1 ∧ Utf8 d.2)
        (readBack m List.mem_cons_self) (delimited_members format (m' :: ms) rest)
        (by simp at hfuel ⊢; omega) ?_).congr (by simp)
      simp only [dumpMembers, List.cons_append, List.append_assoc, scan_valueSeparator, if_true,
        hinsert]
      rw [parseMembers_congr (Parser.skipSeparator_separator hopens.1)]
      rwa [List.append_assoc] at hloop

/-! ## Values -/

theorem utf8_object_iff {ms : List (String × Json)} :
    Utf8 (object ms) ↔ ∀ m ∈ ms, Utf8String m.1 ∧ Utf8 m.2 := by
  rw [Utf8, all_object_iff]
  exact forall₂_and.symm

theorem utf8_array_iff {es : List Json} : Utf8 (array es) ↔ ∀ e ∈ es, Utf8 e := by
  rw [Utf8, all_array_iff]
  exact and_iff_right trivial

theorem parseInternal_error (format : FloatFormat) (fuel : Nat) {p : Parser}
    (h : p.type = .parseError) :
    ∃ what, parseInternal format (fuel + 1) p = .error (.invalidArgument what) := by
  rw [parseInternal]
  simp only [h, Parser.unexpect, if_true]
  exact ⟨_, rfl⟩

theorem readBack_string (format : FloatFormat) (s : String) : ReadBack format (string s) := by
  intro fuel rest _ hfuel
  obtain ⟨fuel, rfl⟩ : ∃ k, fuel = k + 1 := ⟨fuel - 1, by omega⟩
  rw [dumpChars]
  by_cases hs : Utf8String s
  · rw [scan_quoted hs, parseInternal]
    simp only [getString_quoted, Cpp.ok_bind]
    exact .ok (.string hs)
  · obtain ⟨what, herror⟩ := parseInternal_error format fuel (scan_quoted_error hs rest)
    rw [herror]
    exact .invalidArgument fun h => hs h.self

theorem readBack_array {format : FloatFormat} {es : List Json} (floatFree : ∀ e ∈ es, FloatFree e)
    (readBack : ∀ e ∈ es, ReadBack format e) : ReadBack format (array es) := by
  intro fuel rest _ hfuel
  obtain ⟨fuel, rfl⟩ : ∃ k, fuel = k + 1 := ⟨fuel - 1, by omega⟩
  cases es with
  | nil =>
    simp only [dumpChars, List.cons_append, List.nil_append, scan_beginArray, parseInternal,
      Parser.getToken, scan_endArray, if_true]
    exact .ok (utf8_array_iff.mpr (by simp))
  | cons e es =>
    have hopens := opens_dumpChars format (floatFree e List.mem_cons_self)
      (delimited_elements format es rest)
    have hloop := parseElements_dump floatFree readBack fuel [] rest (by
      simp only [dumpChars, List.length_append, List.length_cons] at hfuel ⊢
      omega)
    simp only [dumpChars, List.cons_append, List.append_assoc, List.nil_append, scan_beginArray,
      parseInternal, Parser.getToken, if_neg hopens.2.1, Parser.unexpect_ne hopens.1, Cpp.ok_bind]
    exact hloop.congr utf8_array_iff.symm

theorem readBack_object {format : FloatFormat} {ms : List (String × Json)}
    (ordered : OrderedByKey Prod.fst ms) (readBack : ∀ m ∈ ms, ReadBack format m.2) :
    ReadBack format (object ms) := by
  intro fuel rest _ hfuel
  obtain ⟨fuel, rfl⟩ : ∃ k, fuel = k + 1 := ⟨fuel - 1, by omega⟩
  cases ms with
  | nil =>
    simp only [dumpChars, List.cons_append, List.nil_append, scan_beginObject, parseInternal,
      Parser.getToken, scan_endObject, if_true]
    exact .ok (utf8_object_iff.mpr (by simp))
  | cons m ms =>
    have hopens := opens_quoted m.1
      (':' :: (dumpChars format m.2 ++ (dumpMembers format ms ++ '}' :: rest)))
    have hloop := parseMembers_dump readBack fuel [] ordered rest (by
      simp only [dumpChars, List.length_append, List.length_cons] at hfuel ⊢
      omega)
    simp only [dumpChars, List.cons_append, List.append_assoc, List.nil_append, scan_beginObject,
      parseInternal, Parser.getToken, if_neg hopens.2.2, Parser.unexpect_ne hopens.1, Cpp.ok_bind]
    exact hloop.congr utf8_object_iff.symm

theorem readBack_of_held (format : FloatFormat) (j : Json) (held : Held j)
    (floatFree : FloatFree j) : ReadBack format j := by
  induction j using tree_induction with
  | null =>
    intro fuel rest _ hfuel
    obtain ⟨fuel, rfl⟩ : ∃ k, fuel = k + 1 := ⟨fuel - 1, by omega⟩
    rw [dumpChars, scan_null, parseInternal]
    exact .ok (.null trivial)
  | boolean b =>
    intro fuel rest _ hfuel
    obtain ⟨fuel, rfl⟩ : ∃ k, fuel = k + 1 := ⟨fuel - 1, by omega⟩
    cases b with
    | true =>
      rw [dumpChars, if_pos rfl, scan_true, parseInternal]
      exact .ok (.boolean trivial)
    | false =>
      rw [dumpChars, if_neg (by simp), scan_false, parseInternal]
      exact .ok (.boolean trivial)
  | number n =>
    intro fuel rest hdelimited hfuel
    obtain ⟨fuel, rfl⟩ : ∃ k, fuel = k + 1 := ⟨fuel - 1, by omega⟩
    obtain ⟨hlow, hhigh⟩ := held.self
    have hnumber := getNumber_numtostr format hlow hhigh rest
    rw [dumpChars, scan_numtostr n hdelimited, parseInternal]
    -- A sign makes the token a signed number, and anything else an unsigned one.
    revert hnumber
    unfold integerType
    split_ifs with hneg <;>
    · intro hnumber
      rw [hnumber]
      exact .ok (.number trivial)
  | numberFloat q => exact absurd floatFree.self not_false
  | string s => exact readBack_string format s
  | array es ih =>
    rw [Held, all_array_iff] at held
    rw [FloatFree, all_array_iff] at floatFree
    exact readBack_array floatFree.2 fun e he => ih e he (held.2 e he) (floatFree.2 e he)
  | object ms ih =>
    rw [Held, all_object_iff] at held
    rw [FloatFree, all_object_iff] at floatFree
    exact readBack_object held.1 fun m hm => ih m hm (held.2 m hm) (floatFree.2 m hm)

theorem parse_dump_decides (format : FloatFormat) {j : Json} (held : Held j)
    (floatFree : FloatFree j) : Decides (Utf8 j) j (parse format (dump format j)) := by
  have htext : (dump format j).toList = dumpChars format j ++ [] := by
    rw [dump, String.toList_ofList, List.append_nil]
  have hvalue := readBack_of_held format j held floatFree (2 * (dump format j).length + 1) [] rfl
    (by rw [← htext, String.length_toList])
  rw [parse, htext]
  refine (hvalue.bind (Q := True) fun _ => ?_).congr (and_iff_left trivial)
  exact .ok trivial

/-- What is dumped is read back if its strings are UTF-8, and otherwise the text is
    rejected. -/
theorem parse_dump (format : FloatFormat) {j : Json} (held : Held j) (floatFree : FloatFree j) :
    (Utf8 j → parse format (dump format j) = .ok j) ∧
      (¬ Utf8 j → ∃ what, parse format (dump format j) = .error (.invalidArgument what)) := by
  obtain ⟨hutf8, h⟩ | ⟨hutf8, h⟩ := parse_dump_decides format held floatFree
  · exact ⟨fun _ => h, fun hnot => absurd hutf8 hnot⟩
  · exact ⟨fun hu => absurd hu hutf8, fun _ => h⟩

/-- A library that prints no floating-point number and reads none. -/
def noFloats : FloatFormat where
  numtostr _ := "null"
  strtod _ := none

/-- A reply of a worker with an array in it. -/
def someReply : Json := .object [("error", .array [.number (-1), .string "a\"b"])]

theorem parse_dump_someReply :
    (Utf8 someReply → parse noFloats (dump noFloats someReply) = .ok someReply) ∧
      (¬ Utf8 someReply →
        ∃ what, parse noFloats (dump noFloats someReply) = .error (.invalidArgument what)) := by
  have hitems : ∀ {P : Json → Prop}, P (.number (-1)) → P (.string "a\"b") →
      ∀ e ∈ [Json.number (-1), .string "a\"b"], All P e := by
    intro P hnumber hstring
    exact List.forall_mem_cons.mpr ⟨.number hnumber, List.forall_mem_singleton.mpr (.string hstring)⟩
  apply parse_dump noFloats
  · exact .object (List.pairwise_singleton _ _) (List.forall_mem_singleton.mpr
      (.array trivial (hitems ⟨by decide, by decide⟩ trivial)))
  · exact .object trivial (List.forall_mem_singleton.mpr
      (.array trivial (hitems trivial trivial)))

/-- `parse` throws `std::invalid_argument` or reads a value that the library can hold,
    with strings in UTF-8 that are no longer than the text, and that is read back from
    its own text. -/
theorem parse_sound (format : FloatFormat) (s : String) :
    (∃ what, parse format s = .error (.invalidArgument what)) ∨
      ∃ j, parse format s = .ok j ∧ Held j ∧ Utf8 j ∧ Short s.length j ∧
        (FloatFree j → parse format (dump format j) = .ok j) := by
  obtain ⟨j, hparse, hj⟩ | herror := parse_yields format s
  · refine .inr ⟨j, hparse, hj.held, hj.utf8, hj.short, fun floatFree => ?_⟩
    obtain ⟨_, h⟩ | ⟨hutf8, _⟩ := parse_dump_decides format hj.held floatFree
    · exact h
    · exact absurd hj.utf8 hutf8
  · exact .inl herror

end Imq.Json
