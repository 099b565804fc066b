import Imq.Json

/-! # The text of a JSON value (`json::dump`)

`dump` without indentation, as the sources call it.  How the C library prints a
floating-point number is left to a `FloatFormat`.
-/

namespace Imq

/-- Finite floating-point numbers as text: `numtostr` of one, and `std::strtod`
    of a number token, which is `none` if the result is not finite. -/
structure FloatFormat where
  numtostr : Rat → String
  strtod : String → Option Rat

namespace Json

/-- `hexify`. -/
def hexify (n : Nat) : Char :=
  ['0', '1', '2', '3', '4', '5', '6', '7', '8', '9', 'a', 'b', 'c', 'd', 'e', 'f'].getD n '0'

/-- What `escape_string` writes for one character. -/
def escapeChar (c : Char) : List Char :=
  if c = '"' then ['\\', '"']
  else if c = '\\' then ['\\', '\\']
  else if c = '\x08' then ['\\', 'b']
  else if c = '\x0c' then ['\\', 'f']
  else if c = '\n' then ['\\', 'n']
  else if c = '\r' then ['\\', 'r']
  else if c = '\t' then ['\\', 't']
  else if c ≤ '\x1f' then
    ['\\', 'u', '0', '0', hexify (c.toNat >>> 4), hexify (c.toNat &&& 0x0f)]
  else [c]

def escapeString (s : String) : List Char := s.toList.flatMap escapeChar

/-- A string or the key of a member, with its quotes. -/
def quoted (s : String) : List Char := '"' :: escapeString s ++ ['"']

/-- `numtostr` of an integer. -/
def numtostr (n : Int) : List Char :=
  if n < 0 then '-' :: (Cpp.toString n.natAbs).toList else (Cpp.toString n.natAbs).toList

mutual

/-- `dump`. -/
def dumpChars (format : FloatFormat) : Json → List Char
  | object [] => ['{', '}']
  | object (m :: rest) =>
    '{' :: quoted m.1 ++ ':' :: dumpChars format m.2 ++ dumpMembers format rest ++ ['}']
  | array [] => ['[', ']']
  | array (e :: rest) => '[' :: dumpChars format e ++ dumpElements format rest ++ [']']
  | string s => quoted s
  | boolean b => if b then "true".toList else "false".toList
  | number n => numtostr n
  | numberFloat q => (format.numtostr q).toList
  | null => "null".toList

/-- The members after the first, each behind its comma. -/
def dumpMembers (format : FloatFormat) : List (String × Json) → List Char
  | [] => []
  | m :: rest => ',' :: quoted m.1 ++ ':' :: dumpChars format m.2 ++ dumpMembers format rest

/-- The elements after the first, each behind its comma. -/
def dumpElements (format : FloatFormat) : List Json → List Char
  | [] => []
  | e :: rest => ',' :: dumpChars format e ++ dumpElements format rest

end

def dump (format : FloatFormat) (j : Json) : String := String.ofList (dumpChars format j)

end Json

end Imq
