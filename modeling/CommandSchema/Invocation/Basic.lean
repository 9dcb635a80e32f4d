/-
What the generator is asked to do.
-/

namespace CommandSchema

/-- Where the schemas and the settings of a run are. -/
structure InputPaths where
  input : String
  auxiliary : List String := []
  config : Option String := none
  deriving DecidableEq, Repr

inductive Part where
  | header
  | source
  deriving DecidableEq, Repr

inductive Invocation where
  /-- Write both generated files. -/
  | generate (paths : InputPaths) (header source : String)
  /-- Compile, and write nothing. -/
  | check (paths : InputPaths)
  /-- Show one of the generated files. -/
  | print (paths : InputPaths) (part : Part) (headerName : Option String)
  deriving DecidableEq, Repr

end CommandSchema
