import Imq.Json
import Imq.Lib.Scanner
import Mathlib.Data.Nat.Bitwise

/-! # The lexer of `json::parse` (`basic_json::lexer`)

`scan` is an automaton that re2c has generated; `Label` has one constructor for
each of its labels at which a character is read, under the label's own number.
A label at which no character is read stands where the code jumps to it: 2, 4,
10, 17, 19, 21, 26, 28, 33, 67, 69 and 72 take the character and end the token, 5,
14, 44, 50 and 58 end it before the character, and 32 goes back to the marker.  The
buffer ends in the NUL that `fill_line_buffer` appends.
-/

namespace Imq.Json

open Lib

inductive TokenType where
  | uninitialized
  | literalTrue
  | literalFalse
  | literalNull
  | valueString
  | valueUnsigned
  | valueInteger
  | valueFloat
  | beginArray
  | beginObject
  | endArray
  | endObject
  | nameSeparator
  | valueSeparator
  | parseError
  | endOfInput
  deriving DecidableEq

/-- `token_type_name`. -/
def TokenType.name : TokenType → String
  | uninitialized => "<uninitialized>"
  | literalTrue => "true literal"
  | literalFalse => "false literal"
  | literalNull => "null literal"
  | valueString => "string literal"
  | valueUnsigned | valueInteger | valueFloat => "number literal"
  | beginArray => "'['"
  | beginObject => "'\x7b'"
  | endArray => "']'"
  | endObject => "'\x7d'"
  | nameSeparator => "':'"
  | valueSeparator => "','"
  | parseError => "<parse error>"
  | endOfInput => "end of input"

/-! ## `scan` -/

inductive Label where
  | start
  | l9 | l12 | l13 | l15 | l23 | l24 | l25
  | l30 | l35 | l36 | l37 | l38 | l39 | l40 | l41 | l42
  | l43 | l45 | l47 | l48 | l51 | l52 | l53 | l54 | l55 | l56 | l59 | l60
  | l62 | l63 | l64 | l65 | l66 | l71 | l74
  deriving DecidableEq

/-- Bit 32 of `yybm`. -/
def isBlank (c : Char) : Bool := c == '\t' || c == '\n' || c == '\r' || c == ' '

/-- Bit 64 of `yybm`. -/
def isDecimal (c : Char) : Bool := '0' ≤ c && c ≤ '9'

/-- Bit 128 of `yybm`. -/
def isPlain (c : Char) : Bool := ' ' ≤ c && c ≤ '\x7f' && c != '"' && c != '\\'

/-- The tests of labels 55, 65, 71 and 74. -/
def isHexadecimal (c : Char) : Bool :=
  if c ≤ '@' then '/' < c && c ≤ '9' else c ≤ 'F' || ('`' < c && c ≤ 'f')

/-- What comes next at a label, for the character there. -/
abbrev Next := ScanNext Label TokenType

/-- Label 31, which 9 and 30 go on to with the character that they have read. -/
def dispatch31 (yych : Char) : Next :=
  if isPlain yych then .goto .l30
  else if yych ≤ '\xe0' then
    if yych ≤ '\\' then
      if yych ≤ '\x1f' then .backtrack
      else if yych ≤ '"' then .take .valueString
      else .goto .l35
    else
      if yych ≤ '\xc1' then .backtrack
      else if yych ≤ '\xdf' then .goto .l36
      else .goto .l37
  else
    if yych ≤ '\xef' then
      if yych = '\xed' then .goto .l39 else .goto .l38
    else
      if yych ≤ '\xf0' then .goto .l40
      else if yych ≤ '\xf3' then .goto .l41
      else if yych ≤ '\xf4' then .goto .l42
      else .backtrack

/-- Labels 13 and 43: what follows a leading zero. -/
def dispatchZero (token : TokenType) (yych : Char) : Next :=
  if yych ≤ '9' then
    if yych = '.' then .goto .l47
    else if '0' ≤ yych then .goto .l48
    else .accept token
  else if yych = 'E' ∨ yych = 'e' then .goto .l51
  else .accept token

/-- Labels 36 to 42: a continuation byte in this range. -/
def dispatchTail (low high : Char) (next : Label) (yych : Char) : Next :=
  if yych < low then .backtrack
  else if yych ≤ high then .goto next
  else .backtrack

def dispatch : Label → Char → Next
  | .start, yych =>
    if yych ≤ '[' then
      if yych ≤ '-' then
        if yych ≤ '"' then
          if yych ≤ '\x00' then .take .endOfInput
          else if yych ≤ '!' then .take .parseError
          else .goto .l9
        else
          if yych ≤ '+' then .take .parseError
          else if yych ≤ ',' then .take .valueSeparator
          else .goto .l12
      else
        if yych ≤ '9' then
          if yych ≤ '/' then .take .parseError
          else if yych ≤ '0' then .goto .l13
          else .goto .l15
        else
          if yych ≤ ':' then .take .nameSeparator
          else if yych ≤ 'Z' then .take .parseError
          else .take .beginArray
    else
      if yych ≤ 'n' then
        if yych ≤ 'e' then
          if yych = ']' then .take .endArray else .take .parseError
        else
          if yych ≤ 'f' then .goto .l23
          else if yych ≤ 'm' then .take .parseError
          else .goto .l24
      else
        if yych ≤ 'z' then
          if yych = 't' then .goto .l25 else .take .parseError
        else
          if yych ≤ '{' then .take .beginObject
          else if yych = '}' then .take .endObject
          else .take .parseError
  | .l9, yych =>
    if yych ≤ '\x1f' then .accept .parseError
    else if yych ≤ '\x7f' then dispatch31 yych
    else if yych ≤ '\xc1' then .accept .parseError
    else if yych ≤ '\xf4' then dispatch31 yych
    else .accept .parseError
  | .l12, yych =>
    if yych ≤ '/' then .accept .parseError
    else if yych ≤ '0' then .goto .l43
    else if yych ≤ '9' then .goto .l45
    else .accept .parseError
  | .l13, yych => dispatchZero .valueUnsigned yych
  | .l15, yych =>
    if isDecimal yych then .goto .l15
    else if yych = '.' then .goto .l47
    else if yych = 'E' ∨ yych = 'e' then .goto .l51
    else .accept .valueUnsigned
  | .l23, yych => if yych = 'a' then .goto .l52 else .accept .parseError
  | .l24, yych => if yych = 'u' then .goto .l53 else .accept .parseError
  | .l25, yych => if yych = 'r' then .goto .l54 else .accept .parseError
  | .l30, yych => dispatch31 yych
  | .l35, yych =>
    if yych ≤ 'e' then
      if yych ≤ '/' then
        if yych = '"' then .goto .l30
        else if yych ≤ '.' then .backtrack
        else .goto .l30
      else
        if yych ≤ '\\' then
          if yych ≤ '[' then .backtrack else .goto .l30
        else
          if yych = 'b' then .goto .l30 else .backtrack
    else
      if yych ≤ 'q' then
        if yych ≤ 'f' then .goto .l30
        else if yych = 'n' then .goto .l30
        else .backtrack
      else
        if yych ≤ 's' then
          if yych ≤ 'r' then .goto .l30 else .backtrack
        else
          if yych ≤ 't' then .goto .l30
          else if yych ≤ 'u' then .goto .l55
          else .backtrack
  | .l36, yych => dispatchTail '\x80' '\xbf' .l30 yych
  | .l37, yych => dispatchTail '\xa0' '\xbf' .l36 yych
  | .l38, yych => dispatchTail '\x80' '\xbf' .l36 yych
  | .l39, yych => dispatchTail '\x80' '\x9f' .l36 yych
  | .l40, yych => dispatchTail '\x90' '\xbf' .l38 yych
  | .l41, yych => dispatchTail '\x80' '\xbf' .l38 yych
  | .l42, yych => dispatchTail '\x80' '\x8f' .l38 yych
  | .l43, yych => dispatchZero .valueInteger yych
  | .l45, yych =>
    if yych ≤ '9' then
      if yych = '.' then .goto .l47
      else if yych ≤ '/' then .accept .valueInteger
      else .goto .l45
    else if yych = 'E' ∨ yych = 'e' then .goto .l51
    else .accept .valueInteger
  | .l47, yych =>
    if yych ≤ '/' then .backtrack
    else if yych ≤ '9' then .goto .l56
    else .backtrack
  | .l48, yych =>
    if yych ≤ '/' then .accept .parseError
    else if yych ≤ '9' then .goto .l48
    else .accept .parseError
  | .l51, yych =>
    if yych ≤ ',' then
      if yych = '+' then .goto .l59 else .backtrack
    else
      if yych ≤ '-' then .goto .l59
      else if yych ≤ '/' then .backtrack
      else if yych ≤ '9' then .goto .l60
      else .backtrack
  | .l52, yych => if yych = 'l' then .goto .l62 else .backtrack
  | .l53, yych => if yych = 'l' then .goto .l63 else .backtrack
  | .l54, yych => if yych = 'u' then .goto .l64 else .backtrack
  | .l55, yych => if isHexadecimal yych then .goto .l65 else .backtrack
  | .l56, yych =>
    if yych ≤ 'D' then
      if yych ≤ '/' then .accept .valueFloat
      else if yych ≤ '9' then .goto .l56
      else .accept .valueFloat
    else if yych = 'E' ∨ yych = 'e' then .goto .l51
    else .accept .valueFloat
  | .l59, yych =>
    if yych ≤ '/' then .backtrack
    else if ':' ≤ yych then .backtrack
    else .goto .l60
  | .l60, yych =>
    if yych ≤ '/' then .accept .valueFloat
    else if yych ≤ '9' then .goto .l60
    else .accept .valueFloat
  | .l62, yych => if yych = 's' then .goto .l66 else .backtrack
  | .l63, yych => if yych = 'l' then .take .literalNull else .backtrack
  | .l64, yych => if yych = 'e' then .take .literalTrue else .backtrack
  | .l65, yych => if isHexadecimal yych then .goto .l71 else .backtrack
  | .l66, yych => if yych = 'e' then .take .literalFalse else .backtrack
  | .l71, yych => if isHexadecimal yych then .goto .l74 else .backtrack
  | .l74, yych => if isHexadecimal yych then .goto .l30 else .backtrack

/-- The token of `yyaccept`, at the labels that set `m_marker`. -/
def yyaccept : Label → Option TokenType
  | .l9 | .l23 | .l24 | .l25 => some .parseError
  | .l13 | .l15 => some .valueUnsigned
  | .l43 | .l45 => some .valueInteger
  | .l56 => some .valueFloat
  | _ => none

def scanner : Scanner Char Label TokenType where
  dispatch := dispatch
  mark := yyaccept
  eof := '\x00'
  stops l l' := by cases l <;> simp +decide [dispatch, dispatch31, dispatchZero, dispatchTail]

/-- A token with its text, and what follows it. -/
structure Token where
  type : TokenType
  text : List Char
  rest : List Char

/-- `scan`; label 6 eats white space and starts over. -/
def scan (text : List Char) : Token :=
  let text := text.dropWhile isBlank
  let (type, length) := scanner.run .start 0 (.parseError, 0) text
  ⟨type, text.take length, text.drop length⟩

end Imq.Json
