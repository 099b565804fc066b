import Mathlib.Init

/-! # The C++ the sources stand on

Exceptions and the monad of code that may throw, and the parts of `std::string`,
`std::stoi` and `std::to_string` that the sources use.

A `std::string` is a Lean `String` with one character for each `char`: the
character whose code is that byte.  So any sequence of bytes is a `String`, its
`length` is `size()`, and comparison is `std::string`'s own.
-/

namespace Imq

/-- What ends a piece of C++ code early.  All constructors but the last are
    exceptions, with their `what()`; `undefined` marks a step to which C++ gives
    no meaning (a failed assertion, an access outside a vector, a wrong
    downcast), so that no theorem can rest on its outcome. -/
inductive Exn where
  | invalidArgument (what : String)
  | outOfRange (what : String)
  | domainError (what : String)
  | logicError (what : String)
  | runtimeError (what : String)
  | badFunctionCall
  | zmqpp (what : String)
  | undefined (what : String)
  deriving DecidableEq, Repr

/-! ## Code that may throw

`EStateM Exn σ` keeps the state as it is at the point of the throw, as C++
does. -/

namespace Cpp

variable {σ α β : Type}

@[simp] theorem ok_bind (a : α) (f : α → Except Exn β) : (Except.ok a >>= f) = f a := rfl

/-- Run a computation without state inside one with state. -/
def ofExcept (r : Except Exn α) : EStateM Exn σ α := fun s =>
  match r with
  | .ok a => .ok a s
  | .error e => .error e s

@[simp] theorem run_ofExcept_ok (a : α) (s : σ) :
    (ofExcept (.ok a) : EStateM Exn σ α).run s = .ok a s := rfl

@[simp] theorem run_ofExcept_error (e : Exn) (s : σ) :
    (ofExcept (.error e) : EStateM Exn σ α).run s = .error e s := rfl

theorem run_bind_ok {x : EStateM Exn σ α} {s s' : σ} {a : α} (h : x.run s = .ok a s')
    (f : α → EStateM Exn σ β) : (x >>= f).run s = (f a).run s' := by
  rw [EStateM.run_bind, h]

theorem run_bind_error {x : EStateM Exn σ α} {s s' : σ} {e : Exn} (h : x.run s = .error e s')
    (f : α → EStateM Exn σ β) : (x >>= f).run s = .error e s' := by
  rw [EStateM.run_bind, h]

/-- The state that is left, whether the code returned or threw. -/
def stateOf : EStateM.Result Exn σ α → σ
  | .ok _ s => s
  | .error _ s => s

/-! ## `std::string` -/

/-- `std::string::npos` of a 64-bit `std::size_t`. -/
def npos : Nat := 18446744073709551615

/-- `s.find(c)`: the index of the first `c`, or `npos`. -/
def find (s : String) (c : Char) : Nat := (s.toList.findIdx? (· == c)).getD npos

/-- `s.substr(pos, count)`. -/
def substr (s : String) (pos : Nat) (count : Nat := npos) : Except Exn String :=
  if s.length < pos then .error (.outOfRange "basic_string::substr")
  else .ok (String.ofList ((s.toList.drop pos).take count))

/-- `std::isspace` in the "C" locale. -/
def isSpace (c : Char) : Bool :=
  c == ' ' || c == '\t' || c == '\n' || c == '\r' || c == Char.ofNat 11 || c == Char.ofNat 12

/-- The optional sign of a number: whether it is negative, and the rest. -/
def takeSign : List Char → Bool × List Char
  | '-' :: rest => (true, rest)
  | '+' :: rest => (false, rest)
  | rest => (false, rest)

/-- `std::stoi(s, nullptr)`: skips white space, reads an optional sign and the
    digits that follow, and ignores the rest. -/
def stoi (s : String) : Except Exn Int :=
  let (negative, rest) := takeSign (s.toList.dropWhile isSpace)
  let digits := rest.takeWhile Char.isDigit
  if digits = [] then .error (.invalidArgument "stoi")
  else
    let magnitude : Int := Nat.ofDigitChars 10 digits 0
    let value := if negative then -magnitude else magnitude
    if value < -2147483648 ∨ 2147483647 < value then .error (.outOfRange "stoi") else .ok value

/-- `std::to_string` of a non-negative integer. -/
def toString (n : Nat) : String := n.repr

end Cpp

end Imq
