/-
What is left of a run that succeeds.

A generation writes two texts one after the other, so the second file holds its text in the end,
whatever there was.  The first file still holds its own exactly when the second is another file:
where both paths lead to one file, the text of the source file has taken the place of the header,
and nothing in the run says so.
-/
import CommandSchema.Proofs.Files.Places
import CommandSchema.Proofs.Run.Failure

namespace CommandSchema

open FileSystem PathSystem

/-! ## The two texts -/

/-- A header begins with its guard and a source file with the header that it includes. -/
theorem Artifacts.header_ne_source (inputName headerName : String) (fragments : List Fragment)
    (settings : Settings) :
    (assemble inputName headerName fragments settings).header ≠
      (assemble inputName headerName fragments settings).source := by
  intro h
  have hchars := congrArg (fun text : String => text.toList[2]?) h
  have hheader : (headerText inputName fragments settings).toList[2]? = some 'f' := by
    simp [headerText, String.toList_append]
  have hsource : (sourceText inputName headerName fragments settings).toList[2]? = some 'n' := by
    simp [sourceText, includeLine, String.toList_append]
  cases hheader.symm.trans (hchars.trans hsource)

namespace Run

section Success

variable {σ : Type} [FileAccess (StateM σ)] [PathSystem σ]

/-! ## One output -/

theorem undisturbed_of_ensureParent {path : String} {made : Except RunFault Unit} {s t : σ}
    (h : (ensureParent (m := StateM σ) path).run s = (made, t)) : Undisturbed s t where
  files := (keeps_ensureParent path).eq h
  places {p place} hp := by
    have hsteady := preserves_ensureParent (I := fun u : σ => place? u p = some place)
      (fun found u => isDirectory_steady found u) path
      (fun made _ u => makeDirectory_steady made u) s hp
    rwa [h] at hsteady

theorem updated_of_writeOutput {path text : String} {written : Bool} {s t : σ}
    (h : (writeOutput (m := StateM σ) path text).run s = (.ok written, t)) :
    Updated path text.toUTF8 s t := by
  obtain ⟨_, u, hmade, hrest⟩ := run_bind_eq_ok h fun _ _ => ⟨_, rfl⟩
  have hwritten := run_mapError_eq_ok.mp hrest
  exact (updated_of_writeIfChanged hwritten).after (undisturbed_of_ensureParent hmade)

/-! ## Both outputs -/

omit [PathSystem σ] in
/-- The texts of a run are those of its inputs, which are loaded first. -/
theorem artifacts_eq_ok {paths : InputPaths} {headerName : String} {texts : Artifacts} {s u : σ}
    (h : (artifacts (m := StateM σ) paths headerName).run s = (.ok texts, u)) :
    ∃ inputs settings fragments,
      (loadInputs (m := StateM σ) paths).run s = (.ok (inputs, settings), u) ∧
      inputs.compile = .ok fragments ∧
      texts = Artifacts.assemble inputs.name headerName fragments settings := by
  obtain ⟨⟨inputs, settings⟩, v, hloaded, hrest⟩ := run_bind_eq_ok h fun _ _ => ⟨_, rfl⟩
  obtain ⟨hcompiled, rfl⟩ := Prod.mk.inj hrest
  obtain ⟨fragments, hfragments, rfl⟩ := Outcome.map_eq_ok_iff.mp hcompiled
  exact ⟨inputs, settings, fragments, hloaded, Outcome.mapError_eq_ok_iff.mp hfragments, rfl⟩

omit [PathSystem σ] in
/-- A header is written when its name is known and the texts of both files are there. -/
theorem tellHeader_eq_ok {paths : InputPaths} {header : String} {texts : Artifacts}
    {written : Bool} {s v : σ}
    (h : (tellHeader (m := StateM σ) paths header).run s = (.ok (texts, written), v)) :
    ∃ headerName u, fileName header = .ok headerName ∧
      (artifacts (m := StateM σ) paths headerName).run s = (.ok texts, u) ∧
      (writeOutput (m := StateM σ) header texts.header).run u = (.ok written, v) := by
  unfold tellHeader at h
  cases hname : fileName header with
  | error fault =>
    rw [hname] at h
    cases (Prod.mk.inj h).1
  | ok headerName =>
    rw [hname] at h
    obtain ⟨made, u, hmade, hrest⟩ := run_bind_eq_ok h fun _ _ => ⟨_, rfl⟩
    obtain ⟨told, hwritten, htold⟩ := run_map_eq_ok.mp hrest
    obtain ⟨rfl, rfl⟩ := Prod.mk.inj htold
    exact ⟨headerName, u, rfl, hmade, hwritten⟩

omit [PathSystem σ] in
/-- A generation succeeds when its header and then its source file have been written. -/
theorem generate_eq_ok {paths : InputPaths} {header source out : String} {s t : σ}
    (h : (generate (m := StateM σ) paths header source).run s = (.ok out, t)) :
    ∃ texts headerWritten sourceWritten v,
      (tellHeader (m := StateM σ) paths header).run s = (.ok (texts, headerWritten), v) ∧
      (writeOutput (m := StateM σ) source texts.source).run v = (.ok sourceWritten, t) ∧
      out = s!"Generated '{header}' and '{source}' from '{paths.input}'.\n" := by
  obtain ⟨told, htold, rfl⟩ := run_map_eq_ok.mp h
  obtain ⟨⟨texts, headerWritten⟩, v, hheader, hrest⟩ := run_bind_eq_ok htold fun _ _ => ⟨_, rfl⟩
  obtain ⟨sourceWritten, hsource, rfl⟩ := run_map_eq_ok.mp hrest
  exact ⟨texts, headerWritten, sourceWritten, v, hheader, hsource, rfl⟩

/-- After a generation, the source file holds its text, and the header holds its own exactly when
it is another file. -/
theorem holds_of_generate {paths : InputPaths} {header source out : String} {s t : σ}
    (h : (generate (m := StateM σ) paths header source).run s = (.ok out, t)) :
    ∃ headerName texts u, fileName header = .ok headerName ∧
      (artifacts (m := StateM σ) paths headerName).run s = (.ok texts, u) ∧
      Holds t source texts.source.toUTF8 ∧
      (Holds t header texts.header.toUTF8 ↔ place? t header ≠ place? t source) := by
  obtain ⟨texts, _, _, v, htold, hsourceWritten, -⟩ := generate_eq_ok h
  obtain ⟨headerName, u, hname, hartifacts, hheaderWritten⟩ := tellHeader_eq_ok htold
  have hheader : Updated header texts.header.toUTF8 u v := updated_of_writeOutput hheaderWritten
  have hsource : Updated source texts.source.toUTF8 v t := updated_of_writeOutput hsourceWritten
  have hne : texts.header.toUTF8 ≠ texts.source.toUTF8 := by
    obtain ⟨inputs, settings, fragments, -, -, rfl⟩ := artifacts_eq_ok hartifacts
    intro hbytes
    exact Artifacts.header_ne_source _ _ _ _ (String.toByteArray_inj.mp hbytes)
  exact ⟨headerName, texts, u, hname, hartifacts, hsource.holds,
    hsource.holds_iff hheader.holds hne⟩

/-- A run that generates and succeeds leaves the source text of its inputs in the source file.  It
leaves the header text in the header file exactly when the two paths lead to different files. -/
theorem outputs_iff {arguments : List String} {paths : InputPaths} {header source : String}
    {s t : σ} {outcome : Outcome}
    (hread : CommandLine.read arguments = .run (.generate paths header source))
    (h : (program (m := StateM σ) arguments).run s = (outcome, t)) (hok : outcome.status = 0) :
    ∃ headerName inputs settings fragments u, fileName header = .ok headerName ∧
      (loadInputs (m := StateM σ) paths).run s = (.ok (inputs, settings), u) ∧
      inputs.compile = .ok fragments ∧
      Holds t source
        (Artifacts.assemble inputs.name headerName fragments settings).source.toUTF8 ∧
      (Holds t header
          (Artifacts.assemble inputs.name headerName fragments settings).header.toUTF8 ↔
        place? t header ≠ place? t source) := by
  rw [program, hread] at h
  obtain ⟨result, u, hinvoke, hrest⟩ := run_bind_eq_iff.mp h
  cases result with
  | error fault =>
    obtain ⟨rfl, -⟩ := Prod.mk.inj hrest
    cases hok
  | ok out =>
    obtain ⟨-, rfl⟩ := Prod.mk.inj hrest
    simp only [invoke] at hinvoke
    obtain ⟨headerName, texts, v, hname, hartifacts, hsource, hheader⟩ := holds_of_generate hinvoke
    obtain ⟨inputs, settings, fragments, hloaded, hcompile, rfl⟩ := artifacts_eq_ok hartifacts
    exact ⟨headerName, inputs, settings, fragments, v, hname, hloaded, hcompile, hsource, hheader⟩

end Success

/-- A tree with a schema of one command, and a file from another day. -/
def stale : Tree :=
  { entries := [(["s.json"], .file "\x7b\"ls\":\x7b\"help\":\"h\"\x7d\x7d".toUTF8),
      (["out.cpp"], .file "old".toUTF8)] }

/-- A run that makes a directory for its header and overwrites its source file. -/
theorem outputs_of_stale :
    ∃ outcome t fragments, (program ["generate", "--input", "s.json", "--header", "gen/out.h",
        "--source", "out.cpp"] : StateM Tree Outcome).run stale = (outcome, t) ∧
      outcome.status = 0 ∧
      fragments.map Fragment.name = ["ls"] ∧
      Holds t "gen/out.h" (Artifacts.assemble "s.json" "out.h" fragments {}).header.toUTF8 ∧
      Holds t "out.cpp" (Artifacts.assemble "s.json" "out.h" fragments {}).source.toUTF8 := by
  have hread : CommandLine.read ["generate", "--input", "s.json", "--header", "gen/out.h",
      "--source", "out.cpp"] = .run (.generate ⟨"s.json", [], none⟩ "gen/out.h" "out.cpp") := by
    decide +kernel
  have hinputs : (((loadInputs ⟨"s.json", [], none⟩ :
      StateM Tree (Except RunFault (SchemaInputs × Settings))).run stale).1.toOption.map
        fun loaded => (loaded.1.name, loaded.2,
          loaded.1.compile.toOption.map (List.map Fragment.name))) =
      some ("s.json", {}, some ["ls"]) := by decide +kernel
  have hfileName : fileName "gen/out.h" = .ok "out.h" := rfl
  obtain ⟨outcome, t, hrun, hok, hplaces⟩ : ∃ outcome t, (program ["generate", "--input", "s.json",
      "--header", "gen/out.h", "--source", "out.cpp"] : StateM Tree Outcome).run stale =
        (outcome, t) ∧ outcome.status = 0 ∧
        t.fileLocation? "gen/out.h" ≠ t.fileLocation? "out.cpp" :=
    ⟨_, _, rfl, by decide +kernel, by decide +kernel⟩
  obtain ⟨headerName, inputs, settings, fragments, u, hname, hloaded, hcompile, hsource, hheader⟩ :=
    outputs_iff hread hrun hok
  obtain rfl := Except.ok.inj (hfileName.symm.trans hname)
  rw [hloaded] at hinputs
  simp only [Except.toOption, Option.map_some, hcompile, Option.some.injEq, Prod.mk.injEq]
    at hinputs
  obtain ⟨hinput, rfl, hnames⟩ := hinputs
  rw [hinput] at hheader hsource
  exact ⟨outcome, t, fragments, hrun, hok, hnames, hheader.mpr hplaces, hsource⟩

/-- A run whose header and source file are one file. -/
theorem not_holds_header_shared :
    ∃ outcome t, (program ["generate", "--input", "s.json", "--header", "out.h", "--source",
        "out.h"] : StateM Tree Outcome).run blocked = (outcome, t) ∧ outcome.status = 0 ∧
      t.fileLocation? "out.h" = some ["out.h"] ∧
      ¬ Holds t "out.h" (Artifacts.assemble "s.json" "out.h" [] {}).header.toUTF8 := by
  obtain ⟨outcome, t, hrun, hok, hplace, hcontents⟩ : ∃ outcome t, (program ["generate", "--input",
      "s.json", "--header", "out.h", "--source", "out.h"] : StateM Tree Outcome).run blocked =
        (outcome, t) ∧ outcome.status = 0 ∧ t.fileLocation? "out.h" = some ["out.h"] ∧
        (t.fileAt? ["out.h"]).map ByteArray.data =
          some (Artifacts.assemble "s.json" "out.h" [] {}).source.toUTF8.data :=
    ⟨_, _, rfl, by decide +kernel, by decide +kernel, by decide +kernel⟩
  refine ⟨outcome, t, hrun, hok, hplace, ?_⟩
  rintro ⟨place, hlocation, hfile⟩
  obtain rfl := Option.some.inj (hplace.symm.trans hlocation)
  have hfile : t.fileAt? ["out.h"] =
      some (Artifacts.assemble "s.json" "out.h" [] {}).header.toUTF8 := hfile
  rw [hfile, Option.map_some, Option.some.injEq, ← ByteArray.ext_iff] at hcontents
  exact Artifacts.header_ne_source _ _ _ _ (String.toByteArray_inj.mp hcontents)

end Run
end CommandSchema
