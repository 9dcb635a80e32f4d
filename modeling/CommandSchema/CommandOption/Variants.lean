/-
Enumerations: their members between bars.

The type of an option is an enumeration when it has a bar.  `ofType` takes it apart and removes the
white space around every member; `join` writes members with bars between them.

`wrap` breaks the joined text after bars into segments of a given number of bytes.  It fills one
segment after the other, so it needs as few as possible, and no text is lost between them
(`join_wrap`).  A member that is too long for any segment stands alone.
-/
import CommandSchema.Text.Blank
import CommandSchema.Text.Line

namespace CommandSchema
namespace Variants

/-- The sign between two members. -/
def bar : Char := '|'

/-- The members of an enumeration as it is written. -/
def ofType (type : String) : List String := (Text.split bar type).map Text.trim

def join (variants : List String) : String := String.intercalate "|" variants

/-- The first member that occurs before, given those that came earlier. -/
def repeatedAfter? (seen : List String) : List String → Option String
  | [] => none
  | v :: rest => if v ∈ seen then some v else repeatedAfter? (v :: seen) rest

def repeated? (variants : List String) : Option String := repeatedAfter? [] variants

def pieces : List String → List String
  | [] => []
  | [v] => [v]
  | v :: rest => (v ++ "|") :: pieces rest

/-- The pieces one after the other behind what a segment holds already; a piece that finds no room
begins the next segment. -/
def fill (width : Nat) : String → List String → List String
  | current, [] => if current = "" then [] else [current]
  | current, piece :: rest =>
    if current ≠ "" ∧ width < current.utf8ByteSize + piece.utf8ByteSize then
      current :: fill width piece rest
    else fill width (current ++ piece) rest

/-- The segments of an enumeration, each of at most as many bytes as the width says if it has more
than one member. -/
def wrap (width : Nat) (variants : List String) : List String := fill width "" (pieces variants)

theorem join_fill (width : Nat) (current : String) (ps : List String) :
    String.join (fill width current ps) = current ++ String.join ps := by
  induction ps generalizing current with
  | nil =>
    by_cases h : current = ""
    · simp [fill, h]
    · simp [fill, h]
  | cons p ps ih =>
    by_cases h : current ≠ "" ∧ width < current.utf8ByteSize + p.utf8ByteSize
    · simp [fill, h, ih, String.join_cons]
    · simp [fill, h, ih, String.join_cons, String.append_assoc]

theorem join_pieces (variants : List String) : String.join (pieces variants) = join variants := by
  induction variants with
  | nil => simp [pieces, join]
  | cons v rest ih =>
    cases rest with
    | nil => simp [pieces, join, String.join_cons]
    | cons w rest =>
      rw [pieces, String.join_cons, ih]
      · simp [join, String.append_assoc]
      · simp

theorem join_wrap (width : Nat) (variants : List String) :
    String.join (wrap width variants) = join variants := by
  rw [wrap, join_fill, join_pieces, String.empty_append]

end Variants
end CommandSchema
