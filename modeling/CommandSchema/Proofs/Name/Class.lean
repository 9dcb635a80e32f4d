/-
The class of a command, as a name of its own.

`className` puts the upper case of a command's name behind the name of the base class.  In general
upper case loses letters (`ß` and `ss` have the same), so two texts may share a class.  On names it
loses none: every character of a lower-case name has one character as its upper case, from which it
can be read back (`toLower_toUpper_of_isRest`).  So two names never share a class
(`className_inj_iff`), and a class is an identifier (`isIdentifier_className`).

The constants with help screens are class names as well, of commands with a longer name
(`helpConstant_className`, `hiddenHelpConstant_className`).  Whether a constant meets another name
of the generated code is therefore a question about names of commands.
-/
import CommandSchema.Code.Class
import CommandSchema.Proofs.Name.Valid

namespace CommandSchema
namespace Name

theorem className_eq (name : String) : className name = "CFGArg_" ++ Text.upper name := by
  have hmark : baseClass ++ "_" = "CFGArg_" := by decide
  rw [className, hmark]

/-! ## Characters of names -/

/-- What holds of every ASCII character in a name holds of every character in a name. -/
theorem forall_isRest {case : LetterCase} {p : Char → Prop}
    (h : ∀ n < 128, isRest case (Char.ofNat n) = true → p (Char.ofNat n)) {c : Char}
    (hc : isRest case c = true) : p c := by
  have hascii : c.toNat < 128 := by
    cases case with
    | lower =>
      simp only [isRest, LetterCase.isLetter, Bool.or_eq_true, Bool.and_eq_true,
        decide_eq_true_eq] at hc
      rcases hc with (⟨-, hz⟩ | ⟨-, h9⟩) | rfl
      · exact Nat.lt_of_le_of_lt hz (by decide)
      · exact Nat.lt_of_le_of_lt h9 (by decide)
      · decide
    | upper =>
      simp only [isRest, LetterCase.isLetter, Bool.or_eq_true, Bool.and_eq_true,
        decide_eq_true_eq] at hc
      rcases hc with (⟨-, hz⟩ | ⟨-, h9⟩) | rfl
      · exact Nat.lt_of_le_of_lt hz (by decide)
      · exact Nat.lt_of_le_of_lt h9 (by decide)
      · decide
  rw [← Char.ofNat_toNat c] at hc ⊢
  exact h c.toNat hascii hc

theorem toUpper_of_isRest {c : Char} (h : isRest .lower c = true) :
    Text.upperChar c = [c.toUpper] ∧ c.toUpper.toLower = c ∧ isRest .upper c.toUpper = true ∧
      (LetterCase.lower.isLetter c = true → LetterCase.upper.isLetter c.toUpper = true) :=
  forall_isRest
    (p := fun c => Text.upperChar c = [c.toUpper] ∧ c.toUpper.toLower = c ∧
      isRest .upper c.toUpper = true ∧
      (LetterCase.lower.isLetter c = true → LetterCase.upper.isLetter c.toUpper = true))
    (by decide +kernel) h

theorem upperChar_of_isRest {c : Char} (h : isRest .lower c = true) :
    Text.upperChar c = [c.toUpper] :=
  (toUpper_of_isRest h).1

theorem toLower_toUpper_of_isRest {c : Char} (h : isRest .lower c = true) :
    c.toUpper.toLower = c :=
  (toUpper_of_isRest h).2.1

theorem isRest_toUpper {c : Char} (h : isRest .lower c = true) :
    isRest .upper c.toUpper = true :=
  (toUpper_of_isRest h).2.2.1

theorem isLetter_toUpper {c : Char} (h : LetterCase.lower.isLetter c = true) :
    LetterCase.upper.isLetter c.toUpper = true :=
  (toUpper_of_isRest (isRest_of_isLetter h)).2.2.2 h

/-! ## Upper case -/

theorem upper_append (a b : String) : Text.upper (a ++ b) = Text.upper a ++ Text.upper b := by
  simp only [Text.upper, String.toList_append, List.flatMap_append, String.ofList_append]

theorem upper_underscore : Text.upper "_" = "_" := by decide +kernel

theorem flatMap_upperChar {cs : List Char} (h : ∀ c ∈ cs, isRest .lower c = true) :
    cs.flatMap Text.upperChar = cs.map Char.toUpper := by
  induction cs with
  | nil => rfl
  | cons c cs ih =>
    rw [List.flatMap_cons, List.map_cons, upperChar_of_isRest (h c List.mem_cons_self),
      ih fun d hd => h d (List.mem_cons_of_mem c hd), List.singleton_append]

theorem IsName.toList_upper {name : String} (h : IsName .lower name) :
    (Text.upper name).toList = name.toList.map Char.toUpper := by
  rw [Text.upper, String.toList_ofList, flatMap_upperChar h.isRest]

theorem IsName.map_toLower_upper {name : String} (h : IsName .lower name) :
    (Text.upper name).toList.map Char.toLower = name.toList := by
  have hback : ∀ c ∈ name.toList, (Char.toLower ∘ Char.toUpper) c = id c :=
    fun c hc => toLower_toUpper_of_isRest (h.isRest c hc)
  rw [h.toList_upper, List.map_map, List.map_congr_left hback, List.map_id]

theorem IsName.upper {name : String} (h : IsName .lower name) : IsName .upper (Text.upper name) := by
  obtain ⟨first, rest, hchars, hne, hfirst, hrest⟩ := id h
  refine ⟨first.toUpper, rest.map Char.toUpper, ?_, ?_, isLetter_toUpper hfirst, ?_⟩
  · rw [h.toList_upper, hchars, List.map_cons]
  · exact fun hnil => hne (List.map_eq_nil_iff.mp hnil)
  · intro c hc
    obtain ⟨d, hd, rfl⟩ := List.mem_map.mp hc
    exact isRest_toUpper (hrest d hd)

/-! ## Classes -/

theorem className_inj_iff {a b : String} (ha : IsName .lower a) (hb : IsName .lower b) :
    className a = className b ↔ a = b := by
  constructor
  · intro h
    have hupper : Text.upper a = Text.upper b := by
      have hchars := congrArg String.toList h
      simp only [className, String.toList_append, List.append_cancel_left_eq] at hchars
      exact String.toList_injective hchars
    apply String.toList_injective
    rw [← ha.map_toLower_upper, ← hb.map_toLower_upper, hupper]
  · intro h
    rw [h]

/-- The characters of identifiers. -/
def isIdentifierChar (c : Char) : Bool := isRest .lower c || isRest .upper c

/-- A letter or an underscore, and after it letters, digits and underscores. -/
def IsIdentifier (s : String) : Prop :=
  ∃ first rest, s.toList = first :: rest ∧ ¬ ('0' ≤ first ∧ first ≤ '9') ∧
    ∀ c ∈ first :: rest, isIdentifierChar c = true

theorem isIdentifier_className {name : String} (h : IsName .lower name) :
    IsIdentifier (className name) := by
  refine ⟨'C', "FGArg_".toList ++ (Text.upper name).toList, ?_, by decide, ?_⟩
  · simp only [className, baseClass, String.toList_append]
    rfl
  · rw [← List.cons_append]
    intro c hc
    rcases List.mem_append.mp hc with hc | hc
    · have hbase : ∀ c ∈ 'C' :: "FGArg_".toList, isIdentifierChar c = true :=
        List.all_eq_true.mp (by decide)
      exact hbase c hc
    · rw [isIdentifierChar, h.upper.isRest c hc, Bool.or_true]

/-! ## Constants -/

theorem helpConstant_className (name : String) :
    Code.helpConstant (className name) = className (qualified name "help") := by
  have hword : Text.upper "help" = "HELP" := by decide +kernel
  simp only [Code.helpConstant, className, qualified, upper_append, hword, upper_underscore,
    String.append_assoc]
  rfl

theorem hiddenHelpConstant_className (name : String) :
    Code.hiddenHelpConstant (className name) = className (qualified name "hidden_help") := by
  have hword : Text.upper "hidden_help" = "HIDDEN_HELP" := by decide +kernel
  simp only [Code.hiddenHelpConstant, className, qualified, upper_append, hword, upper_underscore,
    String.append_assoc]
  rfl

theorem qualified_left_inj {a b member : String} :
    qualified a member = qualified b member ↔ a = b := by
  constructor
  · intro h
    have hchars := congrArg String.toList h
    simp only [qualified, String.toList_append, List.append_cancel_right_eq] at hchars
    exact String.toList_injective hchars
  · intro h
    rw [h]

theorem underscore_mem_qualified (group member : String) :
    '_' ∈ (qualified group member).toList := by
  simp [qualified]

theorem underscore_mem_className (command : String) : '_' ∈ (className command).toList := by
  simp [className]

theorem qualified_hidden_help (group : String) :
    qualified group "hidden_help" = qualified (qualified group "hidden") "help" := by
  have hword : "hidden_help" = "hidden" ++ ("_" ++ "help") := by decide
  rw [hword]
  simp only [qualified, String.append_assoc]

section Collisions

variable {a b : String}

theorem IsName.qualified_help (h : IsName .lower a) : IsName .lower (Name.qualified a "help") :=
  h.qualified (List.all_eq_true.mp (by decide))

theorem IsName.qualified_hidden_help (h : IsName .lower a) :
    IsName .lower (Name.qualified a "hidden_help") :=
  h.qualified (List.all_eq_true.mp (by decide))

theorem helpConstant_inj_iff (ha : IsName .lower a) (hb : IsName .lower b) :
    Code.helpConstant (className a) = Code.helpConstant (className b) ↔ a = b := by
  rw [helpConstant_className, helpConstant_className,
    className_inj_iff ha.qualified_help hb.qualified_help, qualified_left_inj]

theorem hiddenHelpConstant_inj_iff (ha : IsName .lower a) (hb : IsName .lower b) :
    Code.hiddenHelpConstant (className a) = Code.hiddenHelpConstant (className b) ↔ a = b := by
  rw [hiddenHelpConstant_className, hiddenHelpConstant_className,
    className_inj_iff ha.qualified_hidden_help hb.qualified_hidden_help, qualified_left_inj]

/-- A command has the constant of a group's hidden members exactly when it is called like it. -/
theorem helpConstant_eq_hiddenHelpConstant_iff (ha : IsName .lower a) (hb : IsName .lower b) :
    Code.helpConstant (className a) = Code.hiddenHelpConstant (className b) ↔
      a = qualified b "hidden" := by
  rw [helpConstant_className, hiddenHelpConstant_className,
    className_inj_iff ha.qualified_help hb.qualified_hidden_help, qualified_hidden_help,
    qualified_left_inj]

theorem className_eq_helpConstant_iff (ha : IsName .lower a) (hb : IsName .lower b) :
    className a = Code.helpConstant (className b) ↔ a = qualified b "help" := by
  rw [helpConstant_className, className_inj_iff ha hb.qualified_help]

theorem className_eq_hiddenHelpConstant_iff (ha : IsName .lower a) (hb : IsName .lower b) :
    className a = Code.hiddenHelpConstant (className b) ↔ a = qualified b "hidden_help" := by
  rw [hiddenHelpConstant_className, className_inj_iff ha hb.qualified_hidden_help]

end Collisions

end Name
end CommandSchema
