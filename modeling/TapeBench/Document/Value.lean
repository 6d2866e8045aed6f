/-!
# `TapeBench.Document.Value`: stored values

Configurations, cases and names are stored in documents made of plain values.

* `Value`: the values.
* `Value.field?`: the value of a field in a record.
* `Value.natBelow?`, `Value.text?`, `Value.bytes?`: readers for the leaves.

A number with a fraction or an exponent is kept apart from the integers, because no stored form
takes one.
-/

set_option autoImplicit false

namespace TapeBench.Document

/-- A stored value:

- `null`: nothing;
- `bool`: a truth value;
- `integer`: an integer of any size;
- `fractional`: a number that is not written as an integer;
- `text`: a text;
- `list`: a sequence;
- `record`: named fields. -/
inductive Value where
  | null
  | bool (value : Bool)
  | integer (value : Int)
  | fractional
  | text (value : String)
  | list (items : List Value)
  | record (fields : List (String × Value))
  deriving Inhabited

namespace Value

/-- The value of the field `name`, if this is a record that has it. -/
def field? (name : String) : Value → Option Value
  | record fields => fields.lookup name
  | _ => none

/-- A natural number below `bound`. -/
def natBelow? (bound : Nat) : Value → Option Nat
  | integer (.ofNat n) => if n < bound then some n else none
  | _ => none

/-- A text. -/
def text? : Value → Option String
  | text value => some value
  | _ => none

/-- A byte. -/
def byte? (value : Value) : Option UInt8 :=
  (value.natBelow? UInt8.size).map UInt8.ofNat

/-- A list of bytes. -/
def bytes? : Value → Option (Array UInt8)
  | list items => (items.mapM byte?).map List.toArray
  | _ => none

/-- A natural number as a value. -/
def ofNat (n : Nat) : Value :=
  integer (Int.ofNat n)

/-- A byte as a value. -/
def ofByte (byte : UInt8) : Value :=
  ofNat byte.toNat

/-- Bytes as a list of values. -/
def ofBytes (bytes : Array UInt8) : Value :=
  list (bytes.toList.map ofByte)

end Value

end TapeBench.Document
