/-
Command lines of the generator.

The words of a command line are read from left to right, and the first one that asks for help or
for the version, or cannot be understood, decides.  Flags may be put together behind one dash.  The
value of an option is the rest of its word behind an equals sign, or the next word, which then
cannot begin with a dash.  Options are given at most once, except the one for auxiliary schemas.
-/
import CommandSchema.Invocation.Basic

namespace CommandSchema

inductive Request where
  | run (invocation : Invocation)
  | help (command : Option String)
  | version
  | invalid
  deriving DecidableEq, Repr

namespace CommandLine

/-! ## Words -/

/-- A word of a command line by its dashes. -/
inductive Word where
  | separator
  | long (name : String) (value : Option String)
  | short (letters : List Char)
  | plain
  deriving DecidableEq, Repr

/-- A word behind two dashes: a name, and a value behind the first equals sign. -/
def longWord (cs : List Char) : Word :=
  let name := String.ofList (cs.takeWhile (· ≠ '='))
  match cs.dropWhile (· ≠ '=') with
  | [] => .long name none
  | _ :: value => .long name (some (String.ofList value))

def Word.ofText (s : String) : Word :=
  match s.toList with
  | ['-', '-'] => .separator
  | '-' :: '-' :: cs => longWord cs
  | '-' :: c :: cs => .short (c :: cs)
  | _ => .plain

/-- Flags behind one dash, where all may repeat the one for more messages; otherwise the first
other letter decides. -/
def flags (hasVersion : Bool) : List Char → Option Request
  | [] => none
  | 'v' :: rest => flags hasVersion rest
  | 'h' :: _ => some (.help none)
  | 'V' :: _ => some (if hasVersion then .version else .invalid)
  | _ :: _ => some .invalid

/-! ## Options of a command -/

inductive Verb where
  | generate
  | check
  | print
  deriving DecidableEq, Repr

namespace Verb

def ofText? : String → Option Verb
  | "generate" => some .generate
  | "check" => some .check
  | "print" => some .print
  | _ => none

def name : Verb → String
  | .generate => "generate"
  | .check => "check"
  | .print => "print"

def options : Verb → List String
  | .generate => ["input", "aux", "config", "header", "source"]
  | .check => ["input", "aux", "config"]
  | .print => ["input", "aux", "config", "part", "header-name"]

end Verb

abbrev Values := List (String × String)

/-- Whether an option can have a value: paths are not empty, and there are two parts. -/
def isAllowed (name value : String) : Bool :=
  match name with
  | "part" => value = "header" || value = "source"
  | "header-name" => true
  | _ => value ≠ ""

/-- One more value of an option, which must not have one already unless it can be repeated. -/
def addValue (values : Values) (name value : String) : Option Values :=
  if isAllowed name value && (name = "aux" || (values.lookup name).isNone) then
    some (values ++ [(name, value)])
  else none

def inputPaths? (values : Values) : Option InputPaths :=
  (values.lookup "input").map fun input =>
    ⟨input, (values.filter (·.1 = "aux")).map Prod.snd, values.lookup "config"⟩

/-- The part of a given name; it is the header if none is given. -/
def partOf (value : Option String) : Part := if value = some "source" then .source else .header

/-- The invocation of a command with all its values, provided that none is missed. -/
def finish (verb : Verb) (values : Values) : Request :=
  match inputPaths? values with
  | none => .invalid
  | some paths =>
    match verb with
    | .check => .run (.check paths)
    | .print =>
      .run (.print paths (partOf (values.lookup "part")) (values.lookup "header-name"))
    | .generate =>
      match values.lookup "header", values.lookup "source" with
      | some header, some source => .run (.generate paths header source)
      | _, _ => .invalid

/-- The words behind a command, the first of which may be the value of an option that waits for
one. -/
def readOptions (verb : Verb) (waiting : Option String) (values : Values) :
    List String → Request
  | [] => if waiting.isSome then .invalid else finish verb values
  | word :: rest =>
    match waiting, Word.ofText word with
    | some name, .plain =>
      match addValue values name word with
      | some values => readOptions verb none values rest
      | none => .invalid
    | some _, _ => .invalid
    | none, .plain => .invalid
    | none, .separator => if rest.isEmpty then finish verb values else .invalid
    | none, .short letters =>
      match flags false letters with
      | none => readOptions verb none values rest
      | some (.help _) => .help (some verb.name)
      | some request => request
    | none, .long "verbose" none => readOptions verb none values rest
    | none, .long "help" none => .help (some verb.name)
    | none, .long name value =>
      if name ∈ verb.options then
        match value with
        | none => readOptions verb (some name) values rest
        | some value =>
          match addValue values name value with
          | some values => readOptions verb none values rest
          | none => .invalid
      else .invalid

/-- The words behind the command that shows help: the name of a command, or nothing. -/
def readHelp : List String → Request
  | [] => .help none
  | [word] => if word = "help" ∨ (Verb.ofText? word).isSome then .help (some word) else .invalid
  | _ => .invalid

def read : List String → Request
  | [] => .invalid
  | word :: rest =>
    match Word.ofText word with
    | .plain =>
      if word = "help" then readHelp rest
      else
        match Verb.ofText? word with
        | some verb => readOptions verb none [] rest
        | none => .invalid
    | .separator => .invalid
    | .short letters => (flags true letters).getD (read rest)
    | .long "verbose" none => read rest
    | .long "help" none => .help none
    | .long "version" none => .version
    | .long _ _ => .invalid

end CommandLine
end CommandSchema
