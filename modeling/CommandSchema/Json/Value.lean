/-
JSON values.

Numbers are integers of 64 bits, signed or unsigned, or binary floating-point numbers; every
literal that is no such integer is a floating-point number, also a negative zero.  The fields of an
object are kept in a list.  `Value.ofFields` builds the object of a reader: its keys are in
increasing order by code points, and of a repeated key the last value counts.
-/
import CommandSchema.Binary64.Basic

namespace CommandSchema
namespace Json

/-- A number: an integer of 64 bits or a floating-point number with its sign. -/
inductive Number where
  | integer (value : Int) (inRange : -9223372036854775808 ≤ value ∧ value < 18446744073709551616)
  | real (negative : Bool) (magnitude : Binary64)
  deriving DecidableEq, Repr

inductive Value where
  | null
  | bool (b : Bool)
  | number (n : Number)
  | string (s : String)
  | array (items : List Value)
  | object (fields : List (String × Value))

namespace Value

/-- A field put in its place among fields with increasing keys; a field with the same key gives
way. -/
def insertField (key : String) (value : Value) : List (String × Value) → List (String × Value)
  | [] => [(key, value)]
  | (k, v) :: rest =>
    if key = k then (key, value) :: rest
    else if key < k then (key, value) :: (k, v) :: rest
    else (k, v) :: insertField key value rest

/-- The fields in increasing order of their keys, the last value of each. -/
def sortFields (fields : List (String × Value)) : List (String × Value) :=
  fields.foldl (fun sorted field => insertField field.1 field.2 sorted) []

/-- The object with the given fields, in any order. -/
def ofFields (fields : List (String × Value)) : Value := .object (sortFields fields)

/-- The natural number of an integer that is not negative. -/
def asNat? : Value → Option Nat
  | .number (.integer i _) => if 0 ≤ i then some i.toNat else none
  | _ => none

/-- The integer of a signed word of 64 bits. -/
def asSigned? : Value → Option Int
  | .number (.integer i _) => if i < 9223372036854775808 then some i else none
  | _ => none

def asBool? : Value → Option Bool
  | .bool b => some b
  | _ => none

def asString? : Value → Option String
  | .string s => some s
  | _ => none

/-- The name of the kind of a value, as a reader is told what was found. -/
def kindName : Value → String
  | .null => "null"
  | .bool _ => "a boolean"
  | .number _ => "a number"
  | .string _ => "a string"
  | .array _ => "a list"
  | .object _ => "an object"

end Value
end Json
end CommandSchema
