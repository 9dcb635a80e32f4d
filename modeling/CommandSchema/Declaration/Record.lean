/-
Records read from JSON values.

A record is written as an object with the names of its fields as keys, or as a list with the values
of its fields in their declared order.  Both forms put one field after the other into what is known
of the record so far (`put`), so a list says the same as the object that pairs the first names with
its items; what is absent in the end takes its default, or is missed (`finish`).

The fields of an object come in the order of their keys, and the first one at fault is reported,
before any that is missing.
-/
import CommandSchema.Json.Printer

namespace CommandSchema

/-- Why a value is not the record or the text that is wanted. -/
inductive ShapeFault where
  | unknownField (name : String) (known : List String)
  | wrongType (found expected : String)
  | missingField (name : String)
  | tooShort (length : Nat) (record : String) (size : Nat)
  | tooLong (length : Nat)
  | noHelpText
  deriving DecidableEq, Repr

namespace ShapeFault

def message : ShapeFault → String
  | .unknownField name known =>
    let fields := String.intercalate ", " (known.map fun field => s!"`{field}`")
    s!"unknown field `{name}`, expected one of {fields}"
  | .wrongType found expected => s!"invalid type: {found}, expected {expected}"
  | .missingField name => s!"missing field `{name}`"
  | .tooShort length record size =>
    s!"invalid length {length}, expected struct {record} with {size} elements"
  | .tooLong length => s!"invalid length {length}, expected fewer elements in array"
  | .noHelpText => "data did not match any variant of untagged enum HelpText"

end ShapeFault

/-- A kind of record: its title, the names of its fields in declared order, what is known before
any field is read, the reading of one field, and the record in the end or the place of the first
field that is missed. -/
structure RecordShape (Parts α : Type) where
  title : String
  fields : List String
  empty : Parts
  put : String → Json.Value → Parts → Except ShapeFault Parts
  finish : Parts → Except Nat α

namespace RecordShape

variable {Parts α : Type}

/-- The fields of a record one after the other, from those already known. -/
def putAll (shape : RecordShape Parts α) :
    List (String × Json.Value) → Parts → Except ShapeFault Parts
  | [], parts => .ok parts
  | (name, value) :: rest, parts =>
    if name ∈ shape.fields then
      match shape.put name value parts with
      | .error fault => .error fault
      | .ok parts => shape.putAll rest parts
    else .error (.unknownField name shape.fields)

def readObject (shape : RecordShape Parts α) (fields : List (String × Json.Value)) :
    Except ShapeFault α :=
  match shape.putAll fields shape.empty with
  | .error fault => .error fault
  | .ok parts =>
    match shape.finish parts with
    | .ok record => .ok record
    | .error place => .error (.missingField (shape.fields.getD place ""))

def readList (shape : RecordShape Parts α) (items : List Json.Value) : Except ShapeFault α :=
  match shape.putAll (shape.fields.zip items) shape.empty with
  | .error fault => .error fault
  | .ok parts =>
    match shape.finish parts with
    | .error place => .error (.tooShort place shape.title shape.fields.length)
    | .ok record =>
      if shape.fields.length < items.length then .error (.tooLong items.length) else .ok record

def read (shape : RecordShape Parts α) : Json.Value → Except ShapeFault α
  | .object fields => shape.readObject fields
  | .array items => shape.readList items
  | value => .error (.wrongType value.found ("struct " ++ shape.title))

end RecordShape

/-! ## Values of fields -/

namespace Field

def text (value : Json.Value) : Except ShapeFault String :=
  match value with
  | .string s => .ok s
  | _ => .error (.wrongType value.found "a string")

def truth (value : Json.Value) : Except ShapeFault Bool :=
  match value with
  | .bool b => .ok b
  | _ => .error (.wrongType value.found "a boolean")

/-- A text, or null for its absence. -/
def optionalText (value : Json.Value) : Except ShapeFault (Option String) :=
  match value with
  | .null => .ok none
  | _ => (text value).map some

/-- A value of any kind, or null for its absence. -/
def optionalValue (value : Json.Value) : Option Json.Value :=
  match value with
  | .null => none
  | _ => some value

def strings? : List Json.Value → Option (List String)
  | [] => some []
  | .string s :: rest => (strings? rest).map (s :: ·)
  | _ :: _ => none

/-- The items of a list, each read by itself, up to the first at fault. -/
def each {α : Type} (item : Json.Value → Except ShapeFault α) :
    List Json.Value → Except ShapeFault (List α)
  | [] => .ok []
  | value :: rest =>
    match item value with
    | .error fault => .error fault
    | .ok a => (each item rest).map (a :: ·)

def listOf {α : Type} (item : Json.Value → Except ShapeFault α) (value : Json.Value) :
    Except ShapeFault (List α) :=
  match value with
  | .array items => each item items
  | _ => .error (.wrongType value.found "a sequence")

end Field
end CommandSchema
