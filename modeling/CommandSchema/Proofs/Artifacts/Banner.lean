/-
The banners of generated files.

A banner is a comment that names the generator and the schema file.  A comment goes on to the first
mark that closes one, wherever that mark comes from, and nothing of the two names is escaped.  So
both banners are read as they were written exactly when neither name has a closing mark in it
(`hasComment_header_iff`, `hasComment_source_iff`).  No mark comes about between a name and the text
around it, and nothing else in the files has a say.  The name of a file has no bar, so the name of
the generator is the one that counts in a run (`hasComment_of_fileName`).
-/
import CommandSchema.Artifacts
import CommandSchema.Files.Path
import CommandSchema.Proofs.Text.Lines
import CommandSchema.Proofs.Text.Marks

namespace CommandSchema
namespace Artifacts

/-! ## Comments -/

/-- The mark that closes comments. -/
def closing : String := "*/"

/-- A text that would close a comment. -/
def Closes (s : String) : Prop := closing.toList <:+: s.toList

instance (s : String) : Decidable (Closes s) :=
  inferInstanceAs (Decidable (closing.toList <:+: s.toList))

theorem closing_ne_nil : closing.toList ≠ [] := by decide

/-- A text in which a comment is opened behind `front`: what is in it up to the first closing mark,
and what comes behind that mark. -/
def HasComment (text front comment back : String) : Prop :=
  ∃ behind, text = front ++ "/*" ++ behind ∧
    Text.cutAt closing.toList behind.toList = some (comment.toList, back.toList)

theorem hasComment_iff {front comment back : String} :
    HasComment (front ++ "/*" ++ (comment ++ closing ++ back)) front comment back ↔
      ¬ closing.toList <:+: comment.toList ++ closing.toList.dropLast := by
  have hchars : (comment ++ closing ++ back).toList =
      comment.toList ++ closing.toList ++ back.toList := by
    rw [String.toList_append, String.toList_append]
  have hfirst : Text.cutAt closing.toList (comment ++ closing ++ back).toList =
      some (comment.toList, back.toList) ↔
        ¬ closing.toList <:+: comment.toList ++ closing.toList.dropLast := by
    rw [hchars]
    exact Text.cutAt_append_iff closing_ne_nil
  rw [← hfirst]
  constructor
  · rintro ⟨behind, heq, hcut⟩
    rwa [(String.append_right_inj _).mp heq]
  · intro hcut
    exact ⟨_, rfl, hcut⟩

/-! ## Banners -/

/-- What a banner says. -/
def notice (generator inputName : String) : String := Text.unlines [
  "",
  "    This file is auto-generated by " ++ generator,
  "        Input: " ++ inputName]

theorem unlines_banner (generator inputName : String) :
    Text.unlines (banner generator inputName) =
      "\n" ++ "/*" ++ (notice generator inputName ++ closing ++ "\n\n") := by
  simp only [banner, notice, Text.unlines_cons, Text.unlines_nil, closing, String.append_assoc]
  rfl

/-- A closing mark in a banner is one in a name. -/
theorem closes_notice_iff {generator inputName : String} :
    closing.toList <:+: (notice generator inputName).toList ++ closing.toList.dropLast ↔
      Closes generator ∨ Closes inputName := by
  have hfeed : '\n' ∉ closing.toList := by decide
  have hend : ¬ closing.toList <:+: closing.toList.dropLast := by decide
  have hempty : ¬ closing.toList <:+: "".toList := by decide
  have hgenerator : closing.toList <:+:
      ("    This file is auto-generated by " ++ generator).toList ↔ Closes generator := by
    rw [String.toList_append]
    exact Text.infix_append_iff_of_notMem (by decide)
  have hinput : closing.toList <:+: ("        Input: " ++ inputName).toList ↔ Closes inputName := by
    rw [String.toList_append]
    exact Text.infix_append_iff_of_notMem (by decide)
  rw [notice, Text.infix_unlines_iff closing_ne_nil hfeed, or_iff_left hend]
  simp only [List.mem_cons, List.not_mem_nil, or_false, exists_eq_or_imp, exists_eq_left, hempty,
    hgenerator, hinput, false_or]

theorem hasComment_notice_iff {generator inputName front back : String} :
    HasComment (front ++ "/*" ++ (notice generator inputName ++ closing ++ back)) front
        (notice generator inputName) back ↔ ¬ Closes generator ∧ ¬ Closes inputName := by
  rw [hasComment_iff, closes_notice_iff, not_or]

/-! ## Generated files -/

section Files

variable (inputName headerName : String) (fragments : List Fragment) (settings : Settings)

/-- What stands in a header in front of its banner. -/
def headerFront : String :=
  Text.unlines ["#ifndef " ++ guardName inputName, "#define " ++ guardName inputName, "",
    includeLine settings.runtimeInclude, ""]

/-- What stands in a header behind its banner. -/
def headerBack : String :=
  "\n\n" ++ (String.join (fragments.map (·.code.declaration)) ++ Text.unlines ["#endif"])

/-- What stands in a source file in front of its banner. -/
def sourceFront : String := Text.unlines [includeLine headerName, ""]

/-- What stands in a source file behind its banner. -/
def sourceBack : String := "\n\n" ++ String.join (fragments.map (·.code.definition))

theorem header_eq_front_banner_back :
    (assemble inputName headerName fragments settings).header =
      headerFront inputName settings ++ "/*" ++
        (notice settings.generatorName inputName ++ closing ++ headerBack fragments) := by
  simp only [assemble, headerText, headerFront, headerBack, Text.unlines_append, unlines_banner,
    Text.unlines_cons, Text.unlines_nil, String.append_assoc, String.empty_append]

theorem source_eq_front_banner_back :
    (assemble inputName headerName fragments settings).source =
      sourceFront headerName ++ "/*" ++
        (notice settings.generatorName inputName ++ closing ++ sourceBack fragments) := by
  simp only [assemble, sourceText, sourceFront, sourceBack, unlines_banner, Text.unlines_cons,
    Text.unlines_nil, String.append_assoc, String.empty_append]

variable {inputName headerName fragments settings}

theorem hasComment_header_iff :
    HasComment (assemble inputName headerName fragments settings).header
        (headerFront inputName settings) (notice settings.generatorName inputName)
        (headerBack fragments) ↔
      ¬ Closes settings.generatorName ∧ ¬ Closes inputName := by
  rw [header_eq_front_banner_back]
  exact hasComment_notice_iff

theorem hasComment_source_iff :
    HasComment (assemble inputName headerName fragments settings).source (sourceFront headerName)
        (notice settings.generatorName inputName) (sourceBack fragments) ↔
      ¬ Closes settings.generatorName ∧ ¬ Closes inputName := by
  rw [source_eq_front_banner_back]
  exact hasComment_notice_iff

end Files

/-- The banner of a header and the banner of a source file are closed by their own marks exactly
when neither the name of the generator nor the name of the schema file has a closing mark in it. -/
theorem banners_iff (inputName headerName : String) (fragments : List Fragment)
    (settings : Settings) :
    (HasComment (assemble inputName headerName fragments settings).header
        (headerFront inputName settings) (notice settings.generatorName inputName)
        (headerBack fragments) ↔
      ¬ Closes settings.generatorName ∧ ¬ Closes inputName) ∧
      (HasComment (assemble inputName headerName fragments settings).source
          (sourceFront headerName) (notice settings.generatorName inputName)
          (sourceBack fragments) ↔
        ¬ Closes settings.generatorName ∧ ¬ Closes inputName) :=
  ⟨hasComment_header_iff, hasComment_source_iff⟩

/-- Settings with a generator whose name closes comments. -/
def starred : Settings := { generatorName := "a*/b" }

/-- With such a name the comment is over before the banner is, in both files. -/
theorem not_hasComment_starred :
    HasComment (assemble "s.json" "out.h" [] starred).header (headerFront "s.json" starred)
        "\n    This file is auto-generated by a" "b\n        Input: s.json\n*/\n\n#endif\n" ∧
      HasComment (assemble "s.json" "out.h" [] starred).source (sourceFront "out.h")
        "\n    This file is auto-generated by a" "b\n        Input: s.json\n*/\n\n" ∧
      ¬ HasComment (assemble "s.json" "out.h" [] starred).header (headerFront "s.json" starred)
        (notice starred.generatorName "s.json") (headerBack []) ∧
      ¬ HasComment (assemble "s.json" "out.h" [] starred).source (sourceFront "out.h")
        (notice starred.generatorName "s.json") (sourceBack []) := by
  have hcloses : Closes starred.generatorName := by decide
  refine ⟨⟨_, header_eq_front_banner_back .., by decide +kernel⟩,
    ⟨_, source_eq_front_banner_back .., by decide +kernel⟩, ?_, ?_⟩
  · exact fun h => (hasComment_header_iff.mp h).1 hcloses
  · exact fun h => (hasComment_source_iff.mp h).1 hcloses

/-! ## File names -/

theorem bar_notMem_fileName {path name : String} (h : Path.fileName? path = some name) :
    '/' ∉ name.toList := by
  have hmem : name ∈ Path.backwards path := by
    rw [Path.fileName?] at h
    split at h
    next => cases h
    next first rest hparts =>
      split at h
      next => cases h
      next =>
        rw [hparts, Option.some.inj h]
        exact List.mem_cons_self
  rw [Path.backwards] at hmem
  have hpart : name ∈ Path.parts path :=
    List.mem_reverse.mp ((List.dropWhile_sublist _).subset hmem)
  rw [Path.parts] at hpart
  exact Text.notMem_of_mem_split hpart

/-- The name of a file closes no comment. -/
theorem not_closes_fileName (path : String) : ¬ Closes ((Path.fileName? path).getD "") := by
  cases hname : Path.fileName? path with
  | none =>
    rw [Option.getD_none]
    decide
  | some name =>
    rw [Option.getD_some]
    intro hcloses
    exact bar_notMem_fileName hname (hcloses.subset (by decide))

/-- In a run the schema file goes by the last name of its path, and the name of the generator alone
decides how far the banners go. -/
theorem hasComment_of_fileName (path headerName : String) (fragments : List Fragment)
    (settings : Settings) {inputName : String} (hname : inputName = (Path.fileName? path).getD "") :
    HasComment (assemble inputName headerName fragments settings).header
        (headerFront inputName settings) (notice settings.generatorName inputName)
        (headerBack fragments) ∧
      HasComment (assemble inputName headerName fragments settings).source (sourceFront headerName)
        (notice settings.generatorName inputName) (sourceBack fragments) ↔
      ¬ Closes settings.generatorName := by
  have hfree : ¬ Closes inputName := hname ▸ not_closes_fileName path
  rw [hasComment_header_iff, hasComment_source_iff, and_self_iff, and_iff_left hfree]

end Artifacts
end CommandSchema
