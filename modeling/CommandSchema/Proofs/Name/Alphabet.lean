/-
Names by their alphabets.

Letters and digits are told by the order of characters.  `letters` and `digits` list them, and no
other character is taken for one, however many scripts there are (`isLetter_iff_mem_letters`).  So a
name is what its definition says in plain words (`isName_iff_letters`).

A member of a group is a command under a name that is put together from two, and that is a name
again.  Nothing else of a command depends on its name, so whether a member is accepted does not
depend on the group: it is when a command with the name of the member would be
(`Member.exists_ofDecl_iff`).
-/
import CommandSchema.Proofs.Command.NameChecks
import CommandSchema.Proofs.Group.Acceptance
import CommandSchema.Proofs.Name.Class

namespace CommandSchema

namespace Name

/-! ## Alphabets -/

def letters : LetterCase → List Char
  | .lower => "abcdefghijklmnopqrstuvwxyz".toList
  | .upper => "ABCDEFGHIJKLMNOPQRSTUVWXYZ".toList

def digits : List Char := "0123456789".toList

variable {case : LetterCase} {c : Char} {name : String}

theorem isLetter_iff_mem_letters : case.isLetter c = true ↔ c ∈ letters case := by
  constructor
  · intro h
    refine forall_isRest (p := fun c => case.isLetter c = true → c ∈ letters case) ?_
      (isRest_of_isLetter h) h
    cases case with
    | lower => decide +kernel
    | upper => decide +kernel
  · have hletters : (letters case).all case.isLetter = true := by
      cases case with
      | lower => decide
      | upper => decide
    exact List.all_eq_true.mp hletters c

theorem isRest_iff_mem : isRest case c = true ↔ c ∈ letters case ∨ c ∈ digits ∨ c = '_' := by
  constructor
  · refine forall_isRest (p := fun c => c ∈ letters case ∨ c ∈ digits ∨ c = '_') ?_
    cases case with
    | lower => decide +kernel
    | upper => decide +kernel
  · rintro (hletter | hdigit | rfl)
    · exact isRest_of_isLetter (isLetter_iff_mem_letters.mpr hletter)
    · have hdigits : digits.all (isRest case) = true := by
        cases case with
        | lower => decide
        | upper => decide
      exact List.all_eq_true.mp hdigits c hdigit
    · exact isRest_underscore case

theorem isName_iff_letters :
    IsName case name ↔
      2 ≤ name.length ∧ (∀ c ∈ name.toList.head?, c ∈ letters case) ∧
        ∀ c ∈ name.toList.tail, c ∈ letters case ∨ c ∈ digits ∨ c = '_' := by
  simp only [← isRest_iff_mem]
  simp only [← isLetter_iff_mem_letters, ← String.length_toList, IsName]
  cases name.toList with
  | nil => simp
  | cons first rest =>
    have hlong : 2 ≤ (first :: rest).length ↔ rest ≠ [] := by
      rw [List.length_cons, ← List.length_pos_iff]
      omega
    rw [hlong]
    constructor
    · rintro ⟨_, _, hchars, hne, hfirst, hrest⟩
      obtain ⟨rfl, rfl⟩ := List.cons.inj hchars
      exact ⟨hne, by simpa using hfirst, hrest⟩
    · rintro ⟨hne, hfirst, hrest⟩
      exact ⟨first, rest, rfl, hne, hfirst first rfl, hrest⟩

theorem check_qualified {group member : String} (hgroup : check .lower group = .ok ())
    (hmember : check .lower member = .ok ()) : check .lower (qualified group member) = .ok () :=
  check_eq_ok_iff.mpr ((check_eq_ok_iff.mp hgroup).qualified (check_eq_ok_iff.mp hmember).isRest)

end Name

/-! ## Commands under other names -/

theorem Arity.ofJson_eq_ok_congr {command other : String} {value? : Option Json.Value} {a : Arity} :
    ofJson command value? = .ok a ↔ ofJson other value? = .ok a := by
  cases value? with
  | none => rfl
  | some value =>
    rw [ofJson, ofJson]
    cases ofValue? value with
    | none => simp
    | some arity => rfl

namespace Command

theorem Acceptable.rename {name other : String} {decl : CommandDecl} (h : Acceptable name decl)
    (hother : Name.check .lower other = .ok ()) : Acceptable other decl where
  isName := hother
  hasHelp := h.hasHelp
  hasArity := h.hasArity.imp fun _ => Arity.ofJson_eq_ok_congr.mp
  resolves := fun d hd => (h.resolves d hd).imp fun _ => CommandOption.resolve_eq_ok_congr.mp
  names_nodup := h.names_nodup
  shorts_nodup := h.shorts_nodup

theorem exists_ofDecl_congr {name other : String} {decl : CommandDecl}
    (hname : Name.check .lower name = .ok ()) (hother : Name.check .lower other = .ok ()) :
    (∃ c, ofDecl name decl = .ok c) ↔ ∃ c, ofDecl other decl = .ok c := by
  rw [exists_ofDecl_iff, exists_ofDecl_iff]
  exact ⟨fun h => h.rename hother, fun h => h.rename hname⟩

/-- A command whose name is one can be refused for its help alone. -/
theorem fault_of_create {name : String} {help : List String} {arity : Arity} {hidden : Bool}
    {fault : Fault} (hname : Name.check .lower name = .ok ())
    (h : create name help arity hidden = .error fault) : fault = .commandHelpEmpty name := by
  rw [create, hname, Outcome.ok_bind, Fault.require] at h
  split at h
  · cases h
  · cases h
    rfl

end Command

theorem Member.exists_ofDecl_iff {group name : String} {decl : MemberDecl}
    (hgroup : Name.check .lower group = .ok ()) (hname : Name.check .lower name = .ok ()) :
    (∃ m, ofDecl group name decl = .ok m) ↔
      Text.trim decl.description ≠ "" ∧ ∃ c, Command.ofDecl name decl.command = .ok c := by
  rw [← Command.exists_ofDecl_congr (Name.check_qualified hgroup hname) hname, ne_eq,
    Text.trim_eq_empty_iff, Bool.not_eq_true]
  simp only [ofDecl_eq_ok_iff]
  constructor
  · rintro ⟨m, hdescribed, c, hc, -⟩
    exact ⟨hdescribed, c, hc⟩
  · rintro ⟨hdescribed, c, hc⟩
    exact ⟨_, hdescribed, c, hc, rfl⟩

namespace Name

/-- A text is a name when it has two characters or more, the first of them a letter of its case and
the others such letters, digits and underscores.  The name of a group and the name of a member make
a name again: as the name of the member's command it is never what that command is refused for, and
the member is accepted as a command of its own name would be.  The class of a name is an identifier,
which is a name in upper case behind its mark, and no two names have the same class. -/
theorem check_by_letters :
    (∀ case name, check case name = .ok () ↔
      2 ≤ name.length ∧ (∀ c ∈ name.toList.head?, c ∈ letters case) ∧
        ∀ c ∈ name.toList.tail, c ∈ letters case ∨ c ∈ digits ∨ c = '_') ∧
    (∀ group member, check .lower group = .ok () → check .lower member = .ok () →
      check .lower (group ++ "_" ++ member) = .ok () ∧
      (∀ help arity hidden fault,
        Command.create (group ++ "_" ++ member) help arity hidden = .error fault →
          fault = .commandHelpEmpty (group ++ "_" ++ member)) ∧
      ∀ decl, (∃ m, Member.ofDecl group member decl = .ok m) ↔
        Text.trim decl.description ≠ "" ∧ ∃ c, Command.ofDecl member decl.command = .ok c) ∧
    (∀ name other, check .lower name = .ok () → check .lower other = .ok () →
      (className name = className other ↔ name = other)) ∧
    ∀ name, check .lower name = .ok () → IsIdentifier (className name) ∧
      ∃ part, className name = "CFGArg_" ++ part ∧ check .upper part = .ok () := by
  refine ⟨fun case name => ?_, fun group member hgroup hmember => ⟨?_, ?_, ?_⟩,
    fun name other hname hother => ?_, fun name hname => ⟨?_, Text.upper name, ?_, ?_⟩⟩
  · rw [check_eq_ok_iff, isName_iff_letters]
  · exact check_qualified hgroup hmember
  · exact fun help arity hidden fault => Command.fault_of_create (check_qualified hgroup hmember)
  · exact fun decl => Member.exists_ofDecl_iff hgroup hmember
  · exact className_inj_iff (check_eq_ok_iff.mp hname) (check_eq_ok_iff.mp hother)
  · exact isIdentifier_className (check_eq_ok_iff.mp hname)
  · exact className_eq name
  · exact check_eq_ok_iff.mpr (check_eq_ok_iff.mp hname).upper

theorem check_by_letters_sub0 :
    check .lower "utst" = .ok () ∧ check .lower "sub_0" = .ok () ∧
      check .lower "utst_sub_0" = .ok () ∧ className "utst_sub_0" = "CFGArg_UTST_SUB_0" ∧
      className "utst_sub_0" ≠ className "utst_sub0" ∧ IsIdentifier (className "utst_sub_0") := by
  obtain ⟨-, hjoin, hinj, hclass⟩ := check_by_letters
  have hqualified : check .lower "utst_sub_0" = .ok () := (hjoin "utst" "sub_0" rfl rfl).1
  refine ⟨rfl, rfl, hqualified, by decide +kernel, ?_, (hclass _ hqualified).1⟩
  exact fun h => absurd ((hinj _ _ hqualified rfl).mp h) (by decide)

-- Texts that are no names may share their class.
example : className "straße" = className "strasse" := by decide +kernel

end Name
end CommandSchema
