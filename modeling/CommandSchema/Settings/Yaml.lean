/-
Settings read from YAML and written to it.

A document of settings is a mapping with some of three keys, each at most once.  Two of them have a
text, for which every scalar is taken as it is written; the third has a list of texts.  What is not
there keeps its default, and so does everything in an empty document.
-/
import CommandSchema.Settings.Basic
import CommandSchema.Text.Quoted
import CommandSchema.Yaml.Node
import CommandSchema.Yaml.Printer

namespace CommandSchema
namespace Settings

open Yaml (Node PlainKind)

/-- The keys of settings, in the order in which they are written. -/
def keys : List String := ["runtime_include", "generator_name", "auxiliary"]

/-! ## Reading -/

/-- A node as a message names what it found. -/
def found : Node → String
  | .sequence .. => "sequence"
  | .mapping .. => "map"
  | .scalar _ text isPlain =>
    match if isPlain then PlainKind.ofText text else .text with
    | .null => "unit value"
    | .bool => "boolean `" ++ text.toLower ++ "`"
    | .int => "integer `" ++ text ++ "`"
    | .float => "floating point `" ++ text ++ "`"
    | .text => "string " ++ Text.quoted text

/-- The fault of a node of the wrong kind, under a key if there is one. -/
def wrongType {α : Type} (path : String) (node : Node) (expected : String) :
    Except Yaml.Fault α :=
  let place := if path = "" then "" else path ++ ": "
  .error ⟨place ++ "invalid type: " ++ found node ++ ", expected " ++ expected, node.mark, none⟩

def textOf (path expected : String) : Node → Except Yaml.Fault String
  | .scalar _ text _ => .ok text
  | node => wrongType path node expected

/-- The texts of the items of a list, the first of which has a number. -/
def textsFrom (path : String) : Nat → List Node → Except Yaml.Fault (List String)
  | _, [] => .ok []
  | n, item :: rest => do
    let text ← textOf (path ++ "[" ++ toString n ++ "]") "path string" item
    let texts ← textsFrom path (n + 1) rest
    return text :: texts

/-- The texts of a list; a value that is not written is an empty one. -/
def textsOf (path : String) : Node → Except Yaml.Fault (List String)
  | .sequence _ items => textsFrom path 0 items
  | .scalar m text isPlain =>
    if text = "" ∧ isPlain then .ok [] else wrongType path (.scalar m text isPlain) "a sequence"
  | node => wrongType path node "a sequence"

def set (s : Settings) (key : String) (value : Node) : Except Yaml.Fault Settings :=
  match key with
  | "runtime_include" =>
    (textOf key "a string" value).map fun text => { s with runtimeInclude := text }
  | "generator_name" =>
    (textOf key "a string" value).map fun text => { s with generatorName := text }
  | _ => (textsOf key value).map fun texts => { s with auxiliary := texts }

/-- The settings with the values of several keys, of which some have been seen, in a mapping that
begins at a mark. -/
def setAll (start : Yaml.Mark) (seen : List String) (s : Settings) :
    List (Node × Node) → Except Yaml.Fault Settings
  | [] => .ok s
  | (key, value) :: rest => do
    let name ← textOf "" "field identifier" key
    if name ∉ keys then
      let known := String.intercalate ", " (keys.map fun k => "`" ++ k ++ "`")
      .error ⟨"unknown field `" ++ name ++ "`, expected one of " ++ known, key.mark, none⟩
    else if name ∈ seen then .error ⟨"duplicate field `" ++ name ++ "`", start, none⟩
    else
      let s ← s.set name value
      setAll start (name :: seen) s rest

def ofNode : Option Node → Except Yaml.Fault Settings
  | none => .ok {}
  | some (.mapping start entries) => setAll start [] {} entries
  | some (.scalar m text isPlain) =>
    if text = "" ∧ isPlain then .ok {}
    else wrongType "" (.scalar m text isPlain) "struct GeneratorConfig"
  | some node => wrongType "" node "struct GeneratorConfig"

def ofGlyphs (source : List Glyph) : Except Yaml.Fault Settings := do
  ofNode (← Node.ofGlyphs source)

/-! ## Writing -/

/-- A list of texts as the value of a key. -/
def listText (key : String) : List String → String
  | [] => key ++ ": []\n"
  | items => key ++ ":\n" ++ String.join (items.map fun item => "- " ++ Yaml.scalarLine item)

def toYaml (s : Settings) : String :=
  "runtime_include: " ++ Yaml.scalarLine s.runtimeInclude ++
    "generator_name: " ++ Yaml.scalarLine s.generatorName ++ listText "auxiliary" s.auxiliary

end Settings
end CommandSchema
