/-
Additions to a command that is changed in place.

An addition makes its checks and then changes the command in four places, one after the other.  A
fault ends it in the state that it has reached by then, so whatever had been changed before a check
would stay behind if the check fails (`Edit`).  No change comes before a check, so a refused
addition leaves the command as it was (`run_perform`), and among several additions the refused ones
might as well not have been tried.
-/
import CommandSchema.Code.Class
import CommandSchema.Proofs.Command.Additions

namespace CommandSchema

/-- A computation that changes a command in place.  It ends with the command as it is by then, also
when it ends in a fault. -/
abbrev Edit (α : Type) := EStateM Fault Command α

namespace Edit

/-- What a check says of the command as it is now. -/
def check {α : Type} (f : Command → Except Fault α) : Edit α := do
  MonadExcept.ofExcept (f (← get))

def claimLong (o : CommandOption) : Edit Unit :=
  modify fun c => { c with taken := { c.taken with long := o.name :: c.taken.long } }

def claimShort (o : CommandOption) : Edit Unit :=
  modify fun c => { c with taken := { c.taken with short := o.short.toList ++ c.taken.short } }

def widen (o : CommandOption) : Edit Unit :=
  modify fun c => { c with width := max c.width o.describe.utf8ByteSize }

def append (o : CommandOption) : Edit Unit :=
  modify fun c => { c with options := c.options ++ [o] }

def add (o : CommandOption) : Edit Unit := do
  check fun c => c.taken.checkLong c.name o.name
  check fun c => c.taken.checkShort? c.name o.name o.short
  claimLong o
  claimShort o
  widen o
  append o

def declare (decl : OptionDecl) : Edit Unit := do
  let o ← check fun c => CommandOption.resolve c.taken c.name decl
  add o

def perform : Addition → Edit Unit
  | .option o => add o
  | .declared decl => declare decl

/-- One addition after the other, up to the first that is refused. -/
def performAll (as : List Addition) : Edit Unit := as.forM perform

/-- The command that an edit leaves behind, with or without a fault. -/
def left (edit : Edit Unit) (c : Command) : Command :=
  match edit.run c with
  | .ok _ d => d
  | .error _ d => d

/-- The command after several additions, each tried in what the one before has left behind. -/
def leftAll (c : Command) (as : List Addition) : Command :=
  as.foldl (fun d a => left (perform a) d) c

/-- Those of several additions that are not refused. -/
def accepted (c : Command) : List Addition → List Addition
  | [] => []
  | a :: rest =>
    match (perform a).run c with
    | .ok _ d => a :: accepted d rest
    | .error _ d => accepted d rest

/-! ## One addition -/

/-- The result of a change that is made as a whole or not at all. -/
def settled (c : Command) : Except Fault Command → EStateM.Result Fault Command Unit
  | .ok d => .ok () d
  | .error fault => .error fault c

section Check

variable {α : Type} {f : Command → Except Fault α} {next : α → Edit Unit} {c : Command}

theorem run_check_bind_of_ok {a : α} (h : f c = .ok a) :
    (check f >>= next).run c = (next a).run c := by
  have hnow : (check f).run c = (MonadExcept.ofExcept (f c) : Edit α).run c := rfl
  rw [EStateM.run_bind, hnow, h]
  rfl

theorem run_check_bind_of_error {fault : Fault} (h : f c = .error fault) :
    (check f >>= next).run c = .error fault c := by
  have hnow : (check f).run c = (MonadExcept.ofExcept (f c) : Edit α).run c := rfl
  rw [EStateM.run_bind, hnow, h]
  rfl

end Check

/-- Behind the checks, the four changes are those that make an option one of the command. -/
theorem run_changes (o : CommandOption) (c : Command) :
    (do claimLong o; claimShort o; widen o; append o : Edit Unit).run c = .ok () (c.push o) := rfl

theorem run_add (o : CommandOption) (c : Command) : (add o).run c = settled c (c.add o) := by
  cases hlong : c.taken.checkLong c.name o.name with
  | error fault =>
    rw [add, run_check_bind_of_error hlong, Command.add, hlong]
    rfl
  | ok u =>
    cases hshort : c.taken.checkShort? c.name o.name o.short with
    | error fault =>
      rw [add, run_check_bind_of_ok hlong, run_check_bind_of_error hshort, Command.add, hlong,
        hshort]
      rfl
    | ok u =>
      rw [add, run_check_bind_of_ok hlong, run_check_bind_of_ok hshort, Command.add, hlong, hshort]
      exact run_changes o c

theorem run_declare (decl : OptionDecl) (c : Command) :
    (declare decl).run c = settled c (c.declare decl) := by
  cases hresolve : CommandOption.resolve c.taken c.name decl with
  | error fault =>
    rw [declare, run_check_bind_of_error hresolve, Command.declare, hresolve]
    rfl
  | ok o =>
    rw [declare, run_check_bind_of_ok hresolve, Command.declare, hresolve]
    exact run_add o c

/-- An addition in place either gives the command that is accepted, or leaves it as it was. -/
theorem run_perform (a : Addition) (c : Command) :
    (perform a).run c = settled c (c.accept a) := by
  cases a with
  | option o => exact run_add o c
  | declared decl => exact run_declare decl c

theorem settled_eq_error_iff {x : Except Fault Command} {c d : Command} {fault : Fault} :
    settled c x = .error fault d ↔ x = .error fault ∧ d = c := by
  cases x with
  | ok e => simp [settled]
  | error other => simp [settled, eq_comm]

theorem settled_eq_ok_iff {x : Except Fault Command} {c d : Command} :
    settled c x = .ok () d ↔ x = .ok d := by
  cases x with
  | ok e => simp [settled]
  | error fault => simp [settled]

theorem left_perform (a : Addition) (c : Command) : left (perform a) c = c.attempt a := by
  rw [left, run_perform, Command.attempt]
  cases c.accept a with
  | ok d => rfl
  | error fault => rfl

/-! ## Several additions -/

theorem accepted_cons_of_ok {c d : Command} {a : Addition} (h : c.accept a = .ok d)
    (rest : List Addition) : accepted c (a :: rest) = a :: accepted d rest := by
  rw [accepted, run_perform, h]
  rfl

theorem accepted_cons_of_error {c : Command} {a : Addition} {fault : Fault}
    (h : c.accept a = .error fault) (rest : List Addition) :
    accepted c (a :: rest) = accepted c rest := by
  rw [accepted, run_perform, h]
  rfl

theorem performAll_cons (a : Addition) (rest : List Addition) :
    performAll (a :: rest) = (do perform a; performAll rest) := rfl

theorem leftAll_cons (c : Command) (a : Addition) (rest : List Addition) :
    leftAll c (a :: rest) = leftAll (left (perform a) c) rest := rfl

theorem leftAll_eq_attemptAll (c : Command) (as : List Addition) :
    leftAll c as = c.attemptAll as := by
  simp only [leftAll, left_perform]
  rfl

theorem accepted_sublist (c : Command) (as : List Addition) : (accepted c as).Sublist as := by
  induction as generalizing c with
  | nil => exact List.Sublist.refl []
  | cons a rest ih =>
    cases h : c.accept a with
    | ok d =>
      rw [accepted_cons_of_ok h]
      exact (ih d).cons_cons a
    | error fault =>
      rw [accepted_cons_of_error h]
      exact (ih c).cons a

/-- The additions that are not refused are not refused without the others either. -/
theorem run_performAll_accepted (c : Command) (as : List Addition) :
    (performAll (accepted c as)).run c = .ok () (leftAll c as) := by
  induction as generalizing c with
  | nil => rfl
  | cons a rest ih =>
    rw [leftAll_cons, left_perform, Command.attempt]
    cases h : c.accept a with
    | ok d =>
      rw [accepted_cons_of_ok h, performAll_cons, EStateM.run_bind, run_perform, h]
      exact ih d
    | error fault =>
      rw [accepted_cons_of_error h]
      exact ih c

theorem leftAll_of_run_performAll {c d : Command} {as : List Addition}
    (h : (performAll as).run c = .ok () d) : leftAll c as = d := by
  induction as generalizing c with
  | nil => exact (EStateM.Result.ok.inj h).2
  | cons a rest ih =>
    rw [performAll_cons, EStateM.run_bind] at h
    rw [leftAll_cons, left]
    cases hrun : (perform a).run c with
    | ok u e =>
      rw [hrun] at h
      exact ih h
    | error fault e =>
      rw [hrun] at h
      cases h

/-- An addition that is refused leaves the whole command as it was.  Of any additions, those that
are not refused are accepted alone as well, and they lead to the same command and the same code. -/
theorem refused_leaves_no_trace :
    (∀ c a fault d, (perform a).run c = .error fault d → c.accept a = .error fault ∧ d = c) ∧
      (∀ c a d, (perform a).run c = .ok () d ↔ c.accept a = .ok d) ∧
      ∀ c as, leftAll c as = c.attemptAll as ∧ (accepted c as).Sublist as ∧
        (performAll (accepted c as)).run c = .ok () (leftAll c as) ∧
        leftAll c (accepted c as) = leftAll c as ∧
        Code.ofCommand (leftAll c (accepted c as)) = Code.ofCommand (leftAll c as) := by
  refine ⟨fun c a fault d h => ?_, fun c a d => ?_, fun c as => ?_⟩
  · rw [run_perform] at h
    exact settled_eq_error_iff.mp h
  · rw [run_perform, settled_eq_ok_iff]
  · have halone := run_performAll_accepted c as
    have hsame := leftAll_of_run_performAll halone
    exact ⟨leftAll_eq_attemptAll c as, accepted_sublist c as, halone, hsame,
      congrArg Code.ofCommand hsame⟩

-- The second option is refused for its letter alone, so its name is still free for the third.
example :
    ((leftAll { name := "program", help := ["Program a device"] } [
        .option { name := "cable", short := some 'c', kind := .flag, default := .bool false,
                  help := ["Cable"] },
        .option { name := "configuration", short := some 'c', kind := .str, default := .str "",
                  help := ["File"] },
        .option { name := "configuration", kind := .flag, default := .bool false,
                  help := ["Ask"] }]).options.map fun o => (o.name, o.kind)) =
      [("cable", .flag), ("configuration", .flag)] := by
  decide +kernel

end Edit
end CommandSchema
