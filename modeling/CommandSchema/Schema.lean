/-
Schemas: top-level names with their declarations.

A schema keeps the order of its text and every repetition of a name, so that a repeated name can be
reported.  Its declarations stay values until their names have been claimed.
-/
import CommandSchema.Json.Reader

namespace CommandSchema

structure Schema where
  entries : List (String × Json.Value) := []

namespace Schema

/-- What the root of a schema has to be. -/
def rootShape : String := "an object mapping command names to declarations"

def ofGlyphs (origin : Json.Origin) (source : List Glyph) : Except Json.Error Schema :=
  (Json.entries origin rootShape source).map Schema.mk

def parse (text : String) : Except Json.Error Schema := ofGlyphs .memory (Glyph.ofText text)

def push (s : Schema) (name : String) (value : Json.Value) : Schema :=
  ⟨s.entries ++ [(name, value)]⟩

def names (s : Schema) : List String := s.entries.map Prod.fst

def size (s : Schema) : Nat := s.entries.length

def isEmpty (s : Schema) : Bool := s.entries.isEmpty

end Schema
end CommandSchema
