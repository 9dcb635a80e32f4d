/-
How many positional arguments a command takes.

A declaration is a list of the least and the greatest number, where −1 as the greatest stands for
no bound; a command without declaration takes none.  Generated code has the greatest number as a
signed word of 64 bits (`maxBound`), which a greater number wraps around.
-/
import CommandSchema.Fault

namespace CommandSchema

structure Arity where
  min : Nat := 0
  max : Option Nat := some 0
  deriving DecidableEq, Repr

namespace Arity

def ofBounds? (min : Nat) (max : Int) : Option Arity :=
  if max = -1 then some ⟨min, none⟩
  else if (min : Int) ≤ max then some ⟨min, some max.toNat⟩
  else none

def ofValue? : Json.Value → Option Arity
  | .array [min, max] =>
    match min.asNat?, max.asSigned? with
    | some min, some max => ofBounds? min max
    | _, _ => none
  | _ => none

/-- The arity of a command, declared or not. -/
def ofJson (command : String) : Option Json.Value → Except Fault Arity
  | none => .ok {}
  | some value =>
    match ofValue? value with
    | some arity => .ok arity
    | none => .error (.arity command value)

/-- The greatest number as a signed word, or −1 without bound. -/
def maxBound (a : Arity) : Int :=
  match a.max with
  | none => -1
  | some max => Int.bmod max 18446744073709551616

end Arity
end CommandSchema
