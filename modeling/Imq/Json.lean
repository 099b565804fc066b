import Imq.Cpp
import Imq.Lib.OrderedInsert
import Mathlib.Data.Rat.Defs
import Mathlib.Data.String.Basic

/-! # `nlohmann::json` 2.1.1

The JSON values of the vendored `json.hpp`, with the access, conversion and
iteration the sources use.  An object is a `std::map`: its members stand in the
order of their keys.  The two integer kinds of the library (`number_integer`,
`number_unsigned`) compare and convert alike and are one constructor here.  A
float is finite (the library stores no other), so it is a rational number.
-/

namespace Imq

/-- A JSON value. -/
inductive Json where
  | null
  | boolean (b : Bool)
  | number (n : Int)
  | numberFloat (q : Rat)
  | string (s : String)
  | array (elements : List Json)
  | object (members : List (String × Json))
  deriving Inhabited

namespace Json

/-- `type_name()`. -/
def typeName : Json → String
  | null => "null"
  | boolean _ => "boolean"
  | number _ => "number"
  | numberFloat _ => "number"
  | string _ => "string"
  | array _ => "array"
  | object _ => "object"

/-! ## Objects -/

/-- `(*map)[key] = value` on the members of an object: the key keeps its place
    in the order of keys. -/
def insertMember (key : String) (value : Json) (members : List (String × Json)) :
    List (String × Json) :=
  Lib.insertByKey Prod.fst (key, value) members

/-- The error of `operator[]` on a value that is no object. -/
def indexError (j : Json) : Exn := .domainError ("cannot use operator[] with " ++ j.typeName)

/-- `j[key]` on a `const json`: the key must be there. -/
def constAt (j : Json) (key : String) : Except Exn Json :=
  match j with
  | object members =>
    match members.lookup key with
    | some v => .ok v
    | none => .error (.undefined "assertion m_value.object->find(key) != m_value.object->end()")
  | j => .error j.indexError

/-- `j[key]` on a mutable `json`, where `f` is what is then done to the element
    referred to.  A null value becomes an object, and a missing element a null
    one. -/
def updateAt (j : Json) (key : String) (f : Json → Except Exn Json) : Except Exn Json :=
  match j with
  | null => (f null).map fun v => object [(key, v)]
  | object members =>
    (f ((members.lookup key).getD null)).map fun v => object (insertMember key v members)
  | j => .error j.indexError

/-- `j[key] = value`. -/
def set (j : Json) (key : String) (value : Json) : Except Exn Json :=
  j.updateAt key fun _ => .ok value

/-- The element that `j[key]` refers to on a mutable `json`. -/
def elementAt (j : Json) (key : String) : Except Exn Json :=
  match j with
  | null => .ok null
  | object members => .ok ((members.lookup key).getD null)
  | j => .error j.indexError

/-! ## Conversions -/

/-- Conversion to `bool`. -/
def getBool : Json → Except Exn Bool
  | boolean b => .ok b
  | j => .error (.domainError ("type must be boolean, but is " ++ j.typeName))

/-- Conversion to `std::string`. -/
def getString : Json → Except Exn String
  | string s => .ok s
  | j => .error (.domainError ("type must be string, but is " ++ j.typeName))

/-- Conversion to `unsigned`: a `static_cast` of the number held, which for a
    float truncates and must fit. -/
def getUnsigned : Json → Except Exn UInt32
  | number n => .ok (UInt32.ofInt n)
  | numberFloat q =>
    let truncated := if 0 ≤ q then q.floor else q.ceil
    if 0 ≤ truncated ∧ truncated < 4294967296 then .ok (UInt32.ofInt truncated)
    else .error (.undefined "conversion of a floating-point value that unsigned cannot hold")
  | boolean b => .ok (if b then 1 else 0)
  | j => .error (.domainError ("type must be number, but is " ++ j.typeName))

/-! ## Iteration -/

/-- The values a range `for` over a JSON value visits: none for null, the
    elements of a container, and the value itself otherwise. -/
def elements : Json → List Json
  | null => []
  | array es => es
  | object members => members.map Prod.snd
  | j => [j]

/-- What an iterator over a JSON value visits, as `it.key()` and `it.value()`.
    Only an object has keys. -/
def items : Json → List (Except Exn String × Json)
  | object members => members.map fun m => (.ok m.1, m.2)
  | j => j.elements.map fun v => (.error (.domainError "cannot use key() for non-object iterators"), v)

end Json

/-- `json::dump` and `json::parse`, on which nothing is assumed but the
    exception that `parse` documents. -/
structure JsonText where
  dump : Json → String
  parse : String → Except Exn Json
  parse_error : ∀ s e, parse s = .error e → ∃ what, e = .invalidArgument what

/-- A `JsonText` that reads nothing but the given values. -/
def JsonText.ofValues (dump : Json → String) (values : List Json) : JsonText where
  dump := dump
  parse s :=
    match values.find? fun j => dump j == s with
    | some j => .ok j
    | none => .error (.invalidArgument "parse error")
  parse_error := by
    intro s e h
    split at h
    next => cases h
    next => cases h; exact ⟨_, rfl⟩

end Imq
