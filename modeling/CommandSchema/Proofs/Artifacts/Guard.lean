/-
The include guard of a header.

A guard is a macro with the name of the schema file up to its first point, in which every character
that identifiers have not got is an underscore.  That makes an identifier of every file name that
does not begin with a digit, also of an empty one (`isIdentifier_guardName_iff`).  A digit stays
where it stands, and no macro can have such a name.

A header has its guard in its first two lines and the end of the guard in its last line, which is a
line of its own when the declarations in front of it are written by lines
(`exists_includeGuard_iff`).  The declarations of a schema are, and none of their lines is a
directive.  So what the first line of such a header begins is ended by its last line
(`directives_header`).
-/
import CommandSchema.Artifacts
import CommandSchema.Proofs.Code.Classes

namespace CommandSchema
namespace Artifacts

/-! ## The name -/

/-- A text with a digit at its beginning. -/
def BeginsWithDigit (s : String) : Prop := ∃ c, s.toList.head? = some c ∧ '0' ≤ c ∧ c ≤ '9'

/-- The character of a guard for a character of a file name. -/
def guardChar (c : Char) : Char := if isGuardChar c then c else '_'

/-- Guards have the characters of identifiers. -/
theorem isGuardChar_eq (c : Char) : isGuardChar c = Name.isIdentifierChar c := by
  have halphanum : c.isAlphanum =
      (decide ('A' ≤ c ∧ c ≤ 'Z') || ('a' ≤ c && c ≤ 'z') || ('0' ≤ c && c ≤ '9')) := rfl
  simp only [isGuardChar, halphanum, Name.isIdentifierChar, Name.isRest, LetterCase.isLetter]
  grind

theorem isIdentifierChar_guardChar (c : Char) : Name.isIdentifierChar (guardChar c) = true := by
  unfold guardChar
  split
  next h => rw [← isGuardChar_eq, h]
  next => decide

theorem isGuardChar_of_isDigit {c : Char} (h : '0' ≤ c ∧ c ≤ '9') : isGuardChar c = true := by
  rw [isGuardChar_eq, Name.isIdentifierChar, Name.isRest]
  simp [h]

theorem isDigit_guardChar_iff (c : Char) :
    ('0' ≤ guardChar c ∧ guardChar c ≤ '9') ↔ ('0' ≤ c ∧ c ≤ '9') := by
  unfold guardChar
  split
  next => exact Iff.rfl
  next h => exact iff_of_false (by decide) fun hdigit => h (isGuardChar_of_isDigit hdigit)

theorem toList_guardName (inputName : String) :
    (guardName inputName).toList =
      (inputName.toList.takeWhile (· ≠ '.')).map guardChar ++ "_AUTO_H".toList := by
  simp only [guardName, stem, String.toList_append, String.toList_ofList]
  rfl

theorem isIdentifierChar_of_mem_guardName {inputName : String} {c : Char}
    (h : c ∈ (guardName inputName).toList) : Name.isIdentifierChar c = true := by
  rw [toList_guardName] at h
  rcases List.mem_append.mp h with hstem | hend
  · obtain ⟨d, -, rfl⟩ := List.mem_map.mp hstem
    exact isIdentifierChar_guardChar d
  · have hall : ∀ c ∈ "_AUTO_H".toList, Name.isIdentifierChar c = true :=
      List.all_eq_true.mp (by decide)
    exact hall c hend

theorem isLine_guardName (inputName : String) : Text.IsLine (guardName inputName) := fun h =>
  absurd (isIdentifierChar_of_mem_guardName h) (by decide)

/-- A guard begins like its file name, or with an underscore. -/
theorem beginsWithDigit_guardName_iff {inputName : String} :
    BeginsWithDigit (guardName inputName) ↔ BeginsWithDigit inputName := by
  have hend : ¬ ('0' ≤ '_' ∧ '_' ≤ '9') := by decide
  have hpoint : ¬ ('0' ≤ '.' ∧ '.' ≤ '9') := by decide
  simp only [BeginsWithDigit, toList_guardName]
  cases inputName.toList with
  | nil => simp
  | cons c cs =>
    by_cases hc : c = '.'
    · subst hc
      simp
    · simpa [hc] using isDigit_guardChar_iff c

/-- A guard is a name that a macro can have unless its file name begins with a digit. -/
theorem isIdentifier_guardName_iff {inputName : String} :
    Name.IsIdentifier (guardName inputName) ↔ ¬ BeginsWithDigit inputName := by
  rw [← beginsWithDigit_guardName_iff]
  constructor
  · rintro ⟨first, rest, hchars, hfirst, -⟩ ⟨c, hhead, hdigit⟩
    rw [hchars, List.head?_cons] at hhead
    exact hfirst (Option.some.inj hhead ▸ hdigit)
  · intro hdigit
    have hne : (guardName inputName).toList ≠ [] := by
      rw [toList_guardName]
      exact List.append_ne_nil_of_right_ne_nil _ (by decide)
    obtain ⟨first, rest, hchars⟩ := List.exists_cons_of_ne_nil hne
    refine ⟨first, rest, hchars, fun hfirst => hdigit ⟨first, ?_, hfirst⟩, ?_⟩
    · rw [hchars, List.head?_cons]
    · rw [← hchars]
      exact fun c => isIdentifierChar_of_mem_guardName

/-! ## The lines -/

/-- The lines that begin a guard. -/
def guardHead (guard : String) : List String := ["#ifndef " ++ guard, "#define " ++ guard]

/-- A text with an include guard: two lines that ask for a macro and define it, any lines, and a
last line that ends what the first one begins. -/
structure IncludeGuard (guard text : String) : Prop where
  isIdentifier : Name.IsIdentifier guard
  lines : ∃ body, Text.split '\n' text = guardHead guard ++ body ++ ["#endif", ""]

/-- The lines of a header between the beginning of its guard and the declarations. -/
def preamble (inputName : String) (settings : Settings) : List String :=
  ["", includeLine settings.runtimeInclude] ++ banner settings.generatorName inputName

theorem length_guardHead (guard : String) : (guardHead guard).length = 2 := rfl

theorem guardHead_inj {a b : String} (h : guardHead a = guardHead b) : a = b := by
  have hfirst : "#ifndef " ++ a = "#ifndef " ++ b := (List.cons.inj h).1
  exact (String.append_right_inj _).mp hfirst

section Header

variable {inputName headerName : String} {fragments : List Fragment} {settings : Settings}
  {lines : List String} {line : String}

theorem header_eq
    (h : String.join (fragments.map (·.code.declaration)) = Text.unlines lines ++ line) :
    (assemble inputName headerName fragments settings).header =
      Text.unlines (guardHead (guardName inputName) ++
        (preamble inputName settings ++ lines) ++ [line ++ "#endif"]) := by
  simp only [assemble, headerText, h, guardHead, preamble, Text.unlines_append, String.append_assoc,
    Text.unlines_cons, List.cons_append, List.nil_append]

theorem isLine_guardHead : ∀ line ∈ guardHead (guardName inputName), Text.IsLine line := by
  have hguard := isLine_guardName inputName
  rw [guardHead, List.forall_mem_cons, List.forall_mem_singleton, Text.isLine_append,
    Text.isLine_append]
  exact ⟨⟨by decide, hguard⟩, by decide, hguard⟩

theorem split_header (hline : Text.IsLine line)
    (h : String.join (fragments.map (·.code.declaration)) = Text.unlines lines ++ line) :
    Text.split '\n' (assemble inputName headerName fragments settings).header =
      guardHead (guardName inputName) ++
        (preamble inputName settings ++ lines).flatMap (Text.split '\n') ++
        [line ++ "#endif", ""] := by
  have hend : Text.IsLine (line ++ "#endif") := Text.isLine_append.mpr ⟨hline, by decide⟩
  rw [header_eq h, Text.split_unlines_eq_flatMap, List.flatMap_append, List.flatMap_append,
    Text.flatMap_split_of_isLine isLine_guardHead, List.flatMap_singleton,
    Text.split_of_isLine hend, List.append_assoc]
  rfl

/-- A header is guarded when its guard is an identifier and the end of the guard has a line of its
own. -/
theorem exists_includeGuard_iff :
    (∃ guard, IncludeGuard guard (assemble inputName headerName fragments settings).header) ↔
      ¬ BeginsWithDigit inputName ∧
        Text.IsLines (String.join (fragments.map (·.code.declaration))) := by
  obtain ⟨lines, line, hline, hdeclarations⟩ :=
    Text.exists_lastLine (String.join (fragments.map (·.code.declaration)))
  have hsplit : Text.split '\n' (assemble inputName headerName fragments settings).header = _ :=
    split_header hline hdeclarations
  rw [hdeclarations, Text.isLines_iff hline, ← isIdentifier_guardName_iff]
  constructor
  · rintro ⟨guard, hguard, body, hbody⟩
    rw [hsplit] at hbody
    obtain ⟨hfront, hend⟩ := List.append_inj' hbody rfl
    have hlength : (guardHead (guardName inputName)).length = (guardHead guard).length := by
      rw [length_guardHead, length_guardHead]
    obtain rfl : guardName inputName = guard := guardHead_inj (List.append_inj hfront hlength).1
    refine ⟨hguard, ?_⟩
    have hlast : line ++ "#endif" = "#endif" := (List.cons.inj hend).1
    exact String.append_eq_right_iff.mp hlast
  · rintro ⟨hguard, rfl⟩
    exact ⟨guardName inputName, hguard, _, hsplit⟩

end Header

/-- The guard of a file is a macro name, and the header that is written for it is guarded: by its
first two lines and its last one.  Both need a file name that does not begin with a digit, and
nothing else of the file name matters.  The last line needs declarations that are written by
lines. -/
theorem guard_of_file (inputName headerName : String) (fragments : List Fragment)
    (settings : Settings) :
    (Name.IsIdentifier (guardName inputName) ↔ ¬ BeginsWithDigit inputName) ∧
      ((∃ guard, IncludeGuard guard (assemble inputName headerName fragments settings).header) ↔
        ¬ BeginsWithDigit inputName ∧
          Text.IsLines (String.join (fragments.map (·.code.declaration)))) :=
  ⟨isIdentifier_guardName_iff, exists_includeGuard_iff⟩

/-- A file name with a digit at its beginning has a guard that is no macro name. -/
theorem not_guarded_digit :
    guardName "3d.json" = "3d_AUTO_H" ∧ ¬ Name.IsIdentifier (guardName "3d.json") ∧
      ¬ ∃ guard, IncludeGuard guard (assemble "3d.json" "3d.h" [] {}).header := by
  have hdigit : BeginsWithDigit "3d.json" := ⟨'3', rfl, by decide⟩
  refine ⟨by decide, fun h => isIdentifier_guardName_iff.mp h hdigit, fun h => ?_⟩
  exact (exists_includeGuard_iff.mp h).1 hdigit

/-! ## Directives -/

/-- Whether a line is for the preprocessor. -/
def isDirective (line : String) : Bool := (line.toList.dropWhile (· = ' ')).head? = some '#'

theorem isDirective_indented (s : String) : isDirective ("    " ++ s) = isDirective s := by
  simp [isDirective, String.toList_append]

theorem isDirective_append {c : Char} {a : String} (ha : a.toList.head? = some c) (hblank : c ≠ ' ')
    (hmark : c ≠ '#') (b : String) : isDirective (a ++ b) = false := by
  obtain ⟨cs, hcs⟩ := List.head?_eq_some_iff.mp ha
  simp [isDirective, String.toList_append, hcs, hblank, hmark]

theorem isDirective_className (name rest : String) :
    isDirective ("    " ++ (Name.className name ++ rest)) = false := by
  have hbegin : (Name.className name).toList.head? = some 'C' := by
    simp [Name.className, Name.baseClass, String.toList_append]
  rw [isDirective_indented]
  exact isDirective_append hbegin (by decide) (by decide) rest

theorem isDirective_field (o : CommandOption) : isDirective ("    " ++ Code.field o) = false := by
  obtain ⟨c, hbegin, hblank, hmark⟩ :
      ∃ c, (Code.fieldType o).toList.head? = some c ∧ c ≠ ' ' ∧ c ≠ '#' := by
    unfold Code.fieldType
    split
    next => exact ⟨'s', by simp [String.toList_append], by decide, by decide⟩
    next => cases o.kind <;> exact ⟨_, rfl, by decide, by decide⟩
  simp only [isDirective_indented, Code.field, String.append_assoc]
  exact isDirective_append hbegin hblank hmark _

theorem isDirective_of_mem_classHead {name line : String}
    (h : line ∈ Code.classHead (Name.className name)) : isDirective line = false := by
  suffices hall : ∀ line ∈ Code.classHead (Name.className name), isDirective line = false from
    hall line h
  simp only [Code.classHead, List.forall_mem_cons, String.append_assoc]
  refine ⟨isDirective_append (c := 'c') rfl (by decide) (by decide) _, by decide, by decide,
    isDirective_className name _, by decide, by decide, by decide, List.forall_mem_nil _⟩

theorem isDirective_of_mem_commandDeclaration {c : Command} {line : String}
    (h : line ∈ Code.commandDeclaration c) : isDirective line = false := by
  have hend : ∀ line ∈ Code.classEnd, isDirective line = false := by decide
  simp only [Code.commandDeclaration, List.mem_append, List.mem_map] at h
  rcases h with (hhead | ⟨o, -, rfl⟩) | hlast
  · exact isDirective_of_mem_classHead hhead
  · exact isDirective_field o
  · exact hend line hlast

theorem isDirective_of_mem_dispatcherDeclaration {g : Group} {line : String}
    (h : line ∈ Code.dispatcherDeclaration g) : isDirective line = false := by
  have hend : ∀ line ∈ Code.classEnd, isDirective line = false := by decide
  simp only [Code.dispatcherDeclaration, List.mem_append, List.mem_map, List.mem_singleton] at h
  rcases h with ((hhead | ⟨m, -, rfl⟩) | rfl) | hlast
  · exact isDirective_of_mem_classHead hhead
  · rw [Code.memberField, String.append_assoc, String.append_assoc, String.append_assoc]
    exact isDirective_className _ _
  · decide
  · exact hend line hlast

theorem isDirective_of_mem_declarationLines {top : TopCommand} {line : String}
    (h : line ∈ Code.declarationLines top) : isDirective line = false := by
  cases top with
  | single c => exact isDirective_of_mem_commandDeclaration h
  | group g =>
    rcases List.mem_append.mp h with hmembers | hgroup
    · obtain ⟨m, -, hmember⟩ := List.mem_flatMap.mp hmembers
      exact isDirective_of_mem_commandDeclaration hmember
    · exact isDirective_of_mem_dispatcherDeclaration hgroup

theorem filter_guardHead (guard : String) :
    (guardHead guard).filter isDirective = guardHead guard := by
  rw [List.filter_eq_self, guardHead, List.forall_mem_cons, List.forall_mem_singleton]
  exact ⟨by simp [isDirective, String.toList_append], by simp [isDirective, String.toList_append]⟩

/-- The runtime is included above the banner, and the lines of a banner are no directives. -/
theorem filter_preamble (inputName : String) (settings : Settings) :
    (preamble inputName settings).filter isDirective = [includeLine settings.runtimeInclude] := by
  have hinclude : isDirective (includeLine settings.runtimeInclude) = true := by
    simp [isDirective, includeLine, String.toList_append]
  have hbanner : ∀ line ∈ banner settings.generatorName inputName, ¬ isDirective line = true := by
    simp only [banner, List.forall_mem_cons]
    exact ⟨by decide, by decide, by simp [isDirective, String.toList_append],
      by simp [isDirective, String.toList_append], by decide, by decide, List.forall_mem_nil _⟩
  rw [preamble, List.filter_append, List.filter_eq_nil_iff.mpr hbanner, List.append_nil,
    List.filter_cons_of_neg (by decide), List.filter_cons_of_pos hinclude, List.filter_nil]

section Schema

variable {primary : Schema} {auxiliary : List Schema} {inputName headerName : String}
  {fragments : List Fragment} {settings : Settings}

/-- The header of a schema is guarded unless its file name begins with a digit. -/
theorem exists_includeGuard_of_compile (h : primary.compile auxiliary = .ok fragments) :
    (∃ guard, IncludeGuard guard (assemble inputName headerName fragments settings).header) ↔
      ¬ BeginsWithDigit inputName :=
  exists_includeGuard_iff.trans (and_iff_left ⟨_, Schema.declarations_eq h⟩)

/-- The header of a schema has four directives: those of its guard around the one that includes the
runtime.  So the last line ends what the first one begins. -/
theorem directives_header (h : primary.compile auxiliary = .ok fragments)
    (hinclude : Text.IsLine settings.runtimeInclude)
    (hgenerator : Text.IsLine settings.generatorName) (hname : Text.IsLine inputName) :
    (Text.split '\n' (assemble inputName headerName fragments settings).header).filter
        isDirective =
      guardHead (guardName inputName) ++ [includeLine settings.runtimeInclude, "#endif"] := by
  have hpreamble : ∀ line ∈ preamble inputName settings, Text.IsLine line := by
    simp only [preamble, includeLine, banner, List.cons_append, List.nil_append,
      List.forall_mem_cons, Text.isLine_append]
    exact ⟨by decide, ⟨⟨by decide, hinclude⟩, by decide⟩, by decide, by decide,
      ⟨by decide, hgenerator⟩, ⟨by decide, hname⟩, by decide, by decide, List.forall_mem_nil _⟩
  have hlines : ∀ line ∈ primary.commands.flatMap Code.declarationLines, Text.IsLine line ∧
      ¬ isDirective line = true := by
    intro line hline
    obtain ⟨top, htop, hmem⟩ := List.mem_flatMap.mp hline
    exact ⟨Code.isLine_declarationLines (Schema.isBuilt_of_mem_commands htop) line hmem,
      Bool.not_eq_true _ ▸ isDirective_of_mem_declarationLines hmem⟩
  have hdeclarations := Schema.declarations_eq h
  rw [← String.append_empty (s := Text.unlines _)] at hdeclarations
  rw [split_header (by decide) hdeclarations,
    Text.flatMap_split_of_isLine (List.forall_mem_append.mpr
      ⟨hpreamble, fun line hline => (hlines line hline).1⟩),
    List.filter_append, List.filter_append, List.filter_append, filter_guardHead, filter_preamble,
    List.filter_eq_nil_iff.mpr fun line hline => (hlines line hline).2, List.append_nil,
    List.append_assoc]
  rfl

end Schema

end Artifacts
end CommandSchema
