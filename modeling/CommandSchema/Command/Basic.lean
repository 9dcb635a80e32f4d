/-
Commands and their options.

Options are kept in the order in which they are added.  A command also keeps the names that they
have taken and the width of the column that their tokens need; hidden options count for both.  An
option that is refused leaves nothing behind.

`arranged` is the order of the options in generated rules: longer names first, so that no name
stands behind a beginning of itself.
-/
import CommandSchema.Arity
import CommandSchema.CommandOption.Resolve

namespace CommandSchema

structure Command where
  name : String
  help : List String
  arity : Arity := {}
  hidden : Bool := false
  options : List CommandOption := []
  taken : TakenNames := {}
  width : Nat := 0
  deriving DecidableEq, Repr

namespace Command

/-- A command without options, which has to have a name and a help that is not blank. -/
def create (name : String) (help : List String) (arity : Arity) (hidden : Bool) :
    Except Fault Command := do
  Name.check .lower name
  Fault.require (help.any (!Text.isBlank ·)) (.commandHelpEmpty name)
  return { name := name, help := help, arity := arity, hidden := hidden }

/-- The command with one more option, whose names have to be free. -/
def add (c : Command) (o : CommandOption) : Except Fault Command := do
  c.taken.checkLong c.name o.name
  c.taken.checkShort? c.name o.name o.short
  return { c with
    options := c.options ++ [o]
    taken := c.taken.claim o
    width := max c.width o.describe.utf8ByteSize }

def declare (c : Command) (decl : OptionDecl) : Except Fault Command := do
  let o ← CommandOption.resolve c.taken c.name decl
  c.add o

/-- The command with the options of several declarations, up to the first at fault. -/
def declareAll (c : Command) : List OptionDecl → Except Fault Command
  | [] => .ok c
  | decl :: rest => do
    let c ← c.declare decl
    c.declareAll rest

def ofDecl (name : String) (decl : CommandDecl) : Except Fault Command := do
  let c ← create name decl.help.toLines {} decl.hidden
  let arity ← Arity.ofJson name decl.arg
  { c with arity := arity }.declareAll decl.options

/-- An option put in front of the first one with a name that is no longer. -/
def insertByLength (o : CommandOption) : List CommandOption → List CommandOption
  | [] => [o]
  | p :: rest =>
    if p.name.utf8ByteSize ≤ o.name.utf8ByteSize then o :: p :: rest
    else p :: insertByLength o rest

/-- Options by decreasing length of their names; those of one length keep their order. -/
def sortByLength : List CommandOption → List CommandOption
  | [] => []
  | o :: rest => insertByLength o (sortByLength rest)

/-- The options in the order of generated rules. -/
def arranged (c : Command) : List CommandOption := sortByLength c.options

def visible (c : Command) : List CommandOption := c.options.filter (!·.hidden)

def hasTable (c : Command) : Bool := !c.visible.isEmpty

theorem insertByLength_perm (o : CommandOption) (os : List CommandOption) :
    (insertByLength o os).Perm (o :: os) := by
  induction os with
  | nil => exact List.Perm.refl _
  | cons p rest ih =>
    rw [insertByLength]
    split
    · exact List.Perm.refl _
    · exact (ih.cons p).trans (List.Perm.swap o p rest)

theorem sortByLength_perm (os : List CommandOption) : (sortByLength os).Perm os := by
  induction os with
  | nil => exact List.Perm.refl _
  | cons o rest ih => exact (insertByLength_perm o _).trans (ih.cons o)

theorem arranged_perm (c : Command) : c.arranged.Perm c.options := sortByLength_perm c.options

end Command
end CommandSchema
