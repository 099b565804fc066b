import Imq.Json.Dump
import Imq.Json.Lexer

/-! # The parser of `json::parse` (`basic_json::parser`)

A recursive descent over the tokens of the lexer, without a callback.  The fuel
bounds the recursion; `Imq.Verified.JsonParser` shows that it never runs out.
-/

namespace Imq.Json

/-! ## The values of tokens -/

/-- The value of a hexadecimal digit. -/
def hexDigit (c : Char) : Nat :=
  if c ≤ '9' then c.toNat - 48 else if c ≤ 'F' then c.toNat - 55 else c.toNat - 87

/-- `std::strtoul` with base 16, on four characters of which each is a digit. -/
def strtoul (a b c d : Char) : Option Nat :=
  if isHexadecimal a && isHexadecimal b && isHexadecimal c && isHexadecimal d then
    some (((hexDigit a * 16 + hexDigit b) * 16 + hexDigit c) * 16 + hexDigit d)
  else none

/-- The bytes of a code point: the second half of `to_unicode`. -/
def encodeCodepoint (codepoint : Nat) : Except Exn (List Char) :=
  if codepoint < 0x80 then .ok [Char.ofNat codepoint]
  else if codepoint ≤ 0x7ff then
    .ok [Char.ofNat (0xc0 ||| ((codepoint >>> 6) &&& 0x1f)),
      Char.ofNat (0x80 ||| (codepoint &&& 0x3f))]
  else if codepoint ≤ 0xffff then
    .ok [Char.ofNat (0xe0 ||| ((codepoint >>> 12) &&& 0x0f)),
      Char.ofNat (0x80 ||| ((codepoint >>> 6) &&& 0x3f)),
      Char.ofNat (0x80 ||| (codepoint &&& 0x3f))]
  else if codepoint ≤ 0x10ffff then
    .ok [Char.ofNat (0xf0 ||| ((codepoint >>> 18) &&& 0x07)),
      Char.ofNat (0x80 ||| ((codepoint >>> 12) &&& 0x3f)),
      Char.ofNat (0x80 ||| ((codepoint >>> 6) &&& 0x3f)),
      Char.ofNat (0x80 ||| (codepoint &&& 0x3f))]
  else .error (.outOfRange "code points above 0x10FFFF are invalid")

/-- `to_unicode`, whose second argument is 0 by default. -/
def toUnicode (codepoint1 codepoint2 : Nat) : Except Exn (List Char) :=
  if 0xd800 ≤ codepoint1 ∧ codepoint1 ≤ 0xdbff then
    if 0xdc00 ≤ codepoint2 ∧ codepoint2 ≤ 0xdfff then
      encodeCodepoint ((codepoint1 <<< 10) + codepoint2 - 0x35fdc00)
    else .error (.invalidArgument "missing or wrong low surrogate")
  else encodeCodepoint codepoint1

/-- What the `switch` over the character behind a backslash adds, but for `u`. -/
def simpleEscape (c : Char) : Option Char :=
  if c = 't' then some '\t'
  else if c = 'b' then some '\x08'
  else if c = 'f' then some '\x0c'
  else if c = 'n' then some '\n'
  else if c = 'r' then some '\r'
  else if c = '\\' ∨ c = '/' ∨ c = '"' then some c
  else none

/-- For an escape that `scan` does not let through. -/
def brokenEscape : Exn := .undefined "a broken escape"

/-- The loop of `get_string`, over what stands between the quotes.  The characters
    up to the next backslash are copied one by one. -/
def getStringLoop : List Char → Except Exn (List Char)
  | [] => .ok []
  | '\\' :: 'u' :: a :: b :: c :: d :: rest =>
    match strtoul a b c d with
    | none => .error brokenEscape
    | some codepoint =>
      if 0xd800 ≤ codepoint ∧ codepoint ≤ 0xdbff then
        match rest with
        | '\\' :: 'u' :: a' :: b' :: c' :: d' :: rest =>
          match strtoul a' b' c' d' with
          | none => .error brokenEscape
          | some codepoint2 => do return (← toUnicode codepoint codepoint2) ++ (← getStringLoop rest)
        | '\\' :: 'u' :: _ => .error brokenEscape
        | _ => .error (.invalidArgument "missing low surrogate")
      else if 0xdc00 ≤ codepoint ∧ codepoint ≤ 0xdfff then
        .error (.invalidArgument "missing high surrogate")
      else do return (← toUnicode codepoint 0) ++ (← getStringLoop rest)
  | '\\' :: c :: rest => do return (simpleEscape c).toList ++ (← getStringLoop rest)
  | ['\\'] => .error brokenEscape
  | c :: rest => do return c :: (← getStringLoop rest)

/-- `get_string`. -/
def Token.getString (t : Token) : Except Exn String := do
  return String.ofList (← getStringLoop t.text.tail.dropLast)

/-- The end of `get_number`: a floating-point number, or null if it is not finite. -/
def Token.getFloat (format : FloatFormat) (t : Token) : Json :=
  match format.strtod (String.ofList t.text) with
  | some q => numberFloat q
  | none => null

/-- `get_number`.  A number that its integer type cannot hold is read as a
    floating-point number. -/
def Token.getNumber (format : FloatFormat) (t : Token) : Json :=
  match t.type with
  | .valueUnsigned =>
    let value := Nat.ofDigitChars 10 t.text 0
    if value ≤ 18446744073709551615 then number value else t.getFloat format
  | .valueInteger =>
    let value := Nat.ofDigitChars 10 t.text.tail 0
    if value ≤ 9223372036854775808 then number (-value) else t.getFloat format
  | _ => t.getFloat format

/-! ## The descent -/

/-- `last_token`, with the lexer that has just read it. -/
abbrev Parser := Token

namespace Parser

def getToken (p : Parser) : Parser := scan p.rest

/-- The last token in an error message. -/
def tokenName (p : Parser) : String :=
  if p.type = .parseError then "'" ++ String.ofList p.text ++ "'" else p.type.name

def expect (p : Parser) (t : TokenType) : Except Exn Unit :=
  if t ≠ p.type then
    .error (.invalidArgument ("parse error - unexpected " ++ p.tokenName ++ "; expected " ++ t.name))
  else .ok ()

def unexpect (p : Parser) (t : TokenType) : Except Exn Unit :=
  if t = p.type then .error (.invalidArgument ("parse error - unexpected " ++ p.tokenName))
  else .ok ()

end Parser

def outOfFuel : Exn := .undefined "out of fuel"

mutual

def parseInternal (format : FloatFormat) : Nat → Parser → Except Exn (Json × Parser)
  | 0, _ => .error outOfFuel
  | fuel + 1, p =>
    match p.type with
    | .beginObject =>
      let p := p.getToken
      if p.type = .endObject then .ok (object [], p.getToken)
      else do
        p.unexpect .valueSeparator
        parseMembers format fuel [] p
    | .beginArray =>
      let p := p.getToken
      if p.type = .endArray then .ok (array [], p.getToken)
      else do
        p.unexpect .valueSeparator
        parseElements format fuel [] p
    | .literalNull => .ok (null, p.getToken)
    | .valueString => do
      let s ← p.getString
      return (string s, p.getToken)
    | .literalTrue => .ok (boolean true, p.getToken)
    | .literalFalse => .ok (boolean false, p.getToken)
    | .valueUnsigned | .valueInteger | .valueFloat =>
      .ok (p.getNumber format, p.getToken)
    | .uninitialized | .endArray | .endObject | .nameSeparator | .valueSeparator | .parseError
    | .endOfInput => do
      p.unexpect p.type
      .error (.undefined "past the unexpected token")

/-- The loop over the members of an object. -/
def parseMembers (format : FloatFormat) :
    Nat → List (String × Json) → Parser → Except Exn (Json × Parser)
  | 0, _, _ => .error outOfFuel
  | fuel + 1, members, p => do
    let p := if p.type = .valueSeparator then p.getToken else p
    p.expect .valueString
    let key ← p.getString
    let p := p.getToken
    p.expect .nameSeparator
    let (value, p) ← parseInternal format fuel p.getToken
    let members := insertMember key value members
    if p.type = .valueSeparator then parseMembers format fuel members p
    else
      p.expect .endObject
      return (object members, p.getToken)

/-- The loop over the elements of an array. -/
def parseElements (format : FloatFormat) :
    Nat → List Json → Parser → Except Exn (Json × Parser)
  | 0, _, _ => .error outOfFuel
  | fuel + 1, elements, p => do
    let p := if p.type = .valueSeparator then p.getToken else p
    let (value, p) ← parseInternal format fuel p
    let elements := elements ++ [value]
    if p.type = .valueSeparator then parseElements format fuel elements p
    else
      p.expect .endArray
      return (array elements, p.getToken)

end

/-- `parse`. -/
def parse (format : FloatFormat) (s : String) : Except Exn Json := do
  let (result, p) ← parseInternal format (2 * s.length + 1) (scan s.toList)
  p.expect .endOfInput
  return result

end Imq.Json
