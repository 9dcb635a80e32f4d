/-
The names that the commands of one run have taken.

All generated classes share one space of names, so a member of a group claims its qualified name in
the same registry as the commands at the top.  Names of other schemas, whose classes are generated
elsewhere, are put in first.

A claim that fails changes nothing.  Seeding with a list is not all or nothing: the names in front
of a repeated one stay.
-/
import CommandSchema.Fault

namespace CommandSchema

structure NameRegistry where
  names : List String := []
  deriving DecidableEq, Repr

namespace NameRegistry

def contains (r : NameRegistry) (name : String) : Bool := name ∈ r.names

def size (r : NameRegistry) : Nat := r.names.length

def isEmpty (r : NameRegistry) : Bool := r.names.isEmpty

/-- The registry with one more name, or the fault if it has that name. -/
def insert (r : NameRegistry) (name : String) (fault : Fault) : Except Fault NameRegistry :=
  if r.contains name then .error fault else .ok ⟨name :: r.names⟩

def claim (r : NameRegistry) (name : String) : Except Fault NameRegistry :=
  r.insert name (.commandTaken name)

def claimMember (r : NameRegistry) (group member : String) : Except Fault NameRegistry :=
  let qualified := Name.qualified group member
  r.insert qualified (.memberTaken group member qualified)

/-- The registry with the qualified names of several members, up to the first at fault. -/
def claimMembers (r : NameRegistry) (group : String) : List String → Except Fault NameRegistry
  | [] => .ok r
  | member :: rest => do
    let r ← r.claimMember group member
    r.claimMembers group rest

/-- The registry with names of other schemas up to the first that is repeated, and the fault of
that one. -/
def seed (r : NameRegistry) : List String → NameRegistry × Except Fault Unit
  | [] => (r, .ok ())
  | name :: rest =>
    match r.insert name (.auxiliaryRepeated name) with
    | .ok r => r.seed rest
    | .error fault => (r, .error fault)

end NameRegistry
end CommandSchema
