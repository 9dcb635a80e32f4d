/-
A generation that is made once more.

What a run loads depends on the files that it reads and on nothing else, so it is loaded again as
long as the outputs are none of these files (`kept_of_generate`, `exists_run_loadInputs`).  The
texts are then those of the first run.  Each of them is in its file if the two outputs are different
files, and the directories are there, so the second run finds everything done, provided that it can
read what the first has written (`program_again`).

An output that can be written but not read is written each time.  And where the paths lead is a
matter of the state that the first run leaves, since it may have made the directories that they go
through (`not_program_again`).
-/
import CommandSchema.Proofs.Run.Agreement
import CommandSchema.Proofs.Run.Changes

namespace CommandSchema

open FileSystem PathSystem DirectoryView DirectorySystem LastingSystem

/-! ## Inputs -/

section Inputs

variable {σ : Type} [FileAccess (StateM σ)] [LastingSystem σ] {inputs : String → Prop}

theorem Settings.repeats_load {path : String} (hpath : inputs path) :
    Repeats inputs (Settings.load (m := StateM σ) path) := by
  refine (repeats_read hpath).andThen (fun e u => ?_) fun bytes => repeats_pure _
  cases e <;> exact ⟨_, rfl⟩

theorem Run.repeats_loadSettings {path? : Option String} (hpath : ∀ path ∈ path?, inputs path) :
    Repeats inputs (loadSettings (m := StateM σ) path?) := by
  cases path? with
  | none => exact repeats_pure _
  | some path =>
    exact (Settings.repeats_load (hpath path rfl)).andThen (fun _ _ => ⟨_, rfl⟩)
      fun settings => repeats_pure _

theorem Schema.repeats_load {path : String} (hpath : inputs path) :
    Repeats inputs (Schema.load (m := StateM σ) path) := by
  intro s t schema u hkept h
  rw [Schema.load] at h ⊢
  by_cases hextension : Path.extension? path ≠ some "json"
  · rw [if_pos hextension] at h
    cases (Prod.mk.inj h).1
  rw [if_neg hextension] at h ⊢
  obtain ⟨found, s₁, hfile, hrest⟩ := run_bind_eq_iff.mp h
  have hs₁ : Unchanged s s₁ := by
    have hlooked := isFile_unchanged path s
    rwa [hfile] at hlooked
  cases found with
  | false => cases (Prod.mk.inj hrest).1
  | true =>
    obtain ⟨bytes, s₂, hread, hanswer⟩ := run_bind_eq_ok hrest fun _ _ => ⟨_, rfl⟩
    obtain ⟨hschema, rfl⟩ := Prod.mk.inj hanswer
    obtain ⟨hs₂, hreads⟩ := reads_of_read hread
    have ht : Reads t path bytes := hkept path hpath bytes ((reads_of_unchanged hs₁).mp hreads)
    -- The file is there, and it can be read, wherever these contents are read.
    obtain ⟨t₁, hfile', ht₁⟩ := exists_run_isFile ht.1
    obtain ⟨t₂, hread', ht₂⟩ := exists_run_read ((reads_of_unchanged ht₁).mpr ht)
    refine ⟨hs₁.trans hs₂, t₂, run_bind_eq_iff.mpr ⟨true, t₁, hfile', ?_⟩, ht₁.trans ht₂⟩
    exact run_bind_eq_iff.mpr ⟨_, t₂, hread', Prod.ext hschema rfl⟩

theorem Schema.repeats_loadAll {paths : List String} (hpaths : ∀ path ∈ paths, inputs path) :
    Repeats inputs (Schema.loadAll (m := StateM σ) paths) := by
  induction paths with
  | nil => exact repeats_pure _
  | cons path rest ih =>
    rw [List.forall_mem_cons] at hpaths
    refine (Schema.repeats_load hpaths.1).andThen (fun _ _ => ⟨_, rfl⟩) fun schema => ?_
    exact (ih hpaths.2).andThen (fun _ _ => ⟨_, rfl⟩) fun schemas => repeats_pure _

theorem SchemaInputs.repeats_load {primary : String} {auxiliary : List String}
    (hprimary : inputs primary) (hauxiliary : ∀ path ∈ auxiliary, inputs path) :
    Repeats inputs (SchemaInputs.load (m := StateM σ) primary auxiliary) := by
  refine (Schema.repeats_load hprimary).andThen (fun _ _ => ⟨_, rfl⟩) fun schema => ?_
  exact (Schema.repeats_loadAll hauxiliary).andThen (fun _ _ => ⟨_, rfl⟩)
    fun others => repeats_pure _

end Inputs

namespace Run

/-- A path of a file that a run from a state reads, if nothing is wrong before. -/
def IsInput {σ : Type} [FileAccess (StateM σ)] (paths : InputPaths) (s : σ) (path : String) :
    Prop :=
  path ∈ paths.config ∨ path = paths.input ∨ path ∈ paths.auxiliary ∨
    ∃ settings t, (loadSettings (m := StateM σ) paths.config).run s = (.ok settings, t) ∧
      path ∈ settings.auxiliary

section Inputs

variable {σ : Type} [FileAccess (StateM σ)] [LastingSystem σ] {paths : InputPaths} {s t u : σ}

theorem exists_run_loadInputs {loaded : SchemaInputs × Settings}
    (hkept : Kept (IsInput paths s) s t)
    (h : (loadInputs (m := StateM σ) paths).run s = (.ok loaded, u)) :
    ∃ v, (loadInputs (m := StateM σ) paths).run t = (.ok loaded, v) ∧ Unchanged t v := by
  obtain ⟨settings, s₁, hsettings, hrest⟩ := run_bind_eq_ok h fun _ _ => ⟨_, rfl⟩
  obtain ⟨hs₁, t₁, hsettings', ht₁⟩ :=
    repeats_loadSettings (fun path hpath => Or.inl hpath) s t settings s₁ hkept hsettings
  have hauxiliary : ∀ path ∈ settings.auxiliary ++ paths.auxiliary, IsInput paths s path := by
    intro path hpath
    rcases List.mem_append.mp hpath with hpath | hpath
    · exact Or.inr (Or.inr (Or.inr ⟨settings, s₁, hsettings, hpath⟩))
    · exact Or.inr (Or.inr (Or.inl hpath))
  have hschemas : Repeats (IsInput paths s)
      (SchemaInputs.load (m := StateM σ) paths.input (settings.auxiliary ++ paths.auxiliary)) :=
    SchemaInputs.repeats_load (Or.inr (Or.inl rfl)) hauxiliary
  obtain ⟨inputs, s₂, hinputs, hanswer⟩ := run_bind_eq_ok hrest fun _ _ => ⟨_, rfl⟩
  obtain ⟨-, t₂, hinputs', ht₂⟩ :=
    hschemas s₁ t₁ inputs s₂ (hkept.of_unchanged hs₁ ht₁) hinputs
  refine ⟨t₂, run_bind_eq_iff.mpr ⟨_, t₁, hsettings', ?_⟩, ht₁.trans ht₂⟩
  exact run_bind_eq_iff.mpr ⟨_, t₂, hinputs', Prod.ext (Prod.mk.inj hanswer).1 rfl⟩

theorem exists_run_artifacts {headerName : String} {texts : Artifacts}
    (hkept : Kept (IsInput paths s) s t)
    (h : (artifacts (m := StateM σ) paths headerName).run s = (.ok texts, u)) :
    ∃ v, (artifacts (m := StateM σ) paths headerName).run t = (.ok texts, v) ∧ Unchanged t v := by
  obtain ⟨loaded, s₁, hloaded, hrest⟩ := run_bind_eq_ok h fun _ _ => ⟨_, rfl⟩
  obtain ⟨v, hloaded', hv⟩ := exists_run_loadInputs hkept hloaded
  exact ⟨v, run_bind_eq_iff.mpr ⟨_, v, hloaded', Prod.ext (Prod.mk.inj hrest).1 rfl⟩, hv⟩

end Inputs

/-! ## Outputs -/

section Outputs

variable {σ : Type} [FileAccess (StateM σ)] [LastingSystem σ] {path text : String} {written : Bool}
  {s t : σ}

/-- The directory that a path goes into is there. -/
def HasParent (s : σ) (path : String) : Prop :=
  ∀ parent, Path.parent? path = some parent → parent ≠ "" → HasDirectory s parent

theorem hasParent_of_unchanged (h : Unchanged s t) (hparent : HasParent s path) :
    HasParent t path := fun parent hpath hne directory hdirectory =>
  (leadsToDirectory_of_unchanged h).mpr (hparent parent hpath hne directory hdirectory)

theorem hasParent_of_ensureParent
    (h : (ensureParent (m := StateM σ) path).run s = (.ok (), t)) : HasParent t path := by
  intro parent hparent hne
  unfold ensureParent at h
  simp only [hparent, hne, if_false] at h
  obtain ⟨made, u, hmade, hanswer⟩ := run_bind_eq_ok h fun _ _ => ⟨_, rfl⟩
  obtain ⟨-, rfl⟩ := Prod.mk.inj hanswer
  exact hasDirectory_of_makeDirectories hmade

theorem exists_run_ensureParent (h : HasParent s path) :
    ∃ t, (ensureParent (m := StateM σ) path).run s = (.ok (), t) ∧ Unchanged s t := by
  unfold ensureParent
  cases hparent : Path.parent? path with
  | none => exact ⟨s, rfl, Unchanged.refl s⟩
  | some parent =>
    by_cases hempty : parent = ""
    · simp only [hempty, if_true]
      exact ⟨s, rfl, Unchanged.refl s⟩
    · simp only [hempty, if_false]
      obtain ⟨t, hmade, hsame⟩ := exists_run_makeDirectories (h parent hparent hempty)
      exact ⟨t, run_bind_eq_iff.mpr ⟨_, t, hmade, rfl⟩, hsame⟩

theorem preserves_hasParent_writeOutput (other text : String) :
    Preserves (HasParent · path) (writeOutput (m := StateM σ) other text) := by
  intro s h parent hparent hne directory hdirectory
  have hleads : Preserves (LeadsToDirectory · directory)
      (writeOutput (m := StateM σ) other text) :=
    preserves_writeOutput (fun found => preserves_leads_of_unchanged (isDirectory_unchanged found))
      (preserves_leads_of_unchanged (read_unchanged other))
      (fun made _ => preserves_leads_makeDirectory made) (preserves_leads_write other) text
  exact hleads s (h parent hparent hne directory hdirectory)

theorem hasParent_of_writeOutput
    (h : (writeOutput (m := StateM σ) path text).run s = (.ok written, t)) : HasParent t path := by
  obtain ⟨_, u, hmade, hrest⟩ := run_bind_eq_ok h fun _ _ => ⟨_, rfl⟩
  have hwritten := run_mapError_eq_ok.mp hrest
  intro parent hparent hne directory hdirectory
  have hleads : Preserves (LeadsToDirectory · directory)
      (FileAccess.writeIfChanged (m := StateM σ) path text) :=
    preserves_writeIfChanged (preserves_leads_of_unchanged (read_unchanged path))
      (preserves_leads_write path) text
  have hkept := hleads u (hasParent_of_ensureParent hmade parent hparent hne directory hdirectory)
  rwa [hwritten] at hkept

/-- An output that is there is not written. -/
theorem exists_run_writeOutput (hparent : HasParent s path) (hreads : Reads s path text.toUTF8) :
    ∃ t, (writeOutput (m := StateM σ) path text).run s = (.ok false, t) ∧ Unchanged s t := by
  obtain ⟨u, hmade, hu⟩ := exists_run_ensureParent hparent
  obtain ⟨t, hwritten, ht⟩ := exists_run_writeIfChanged ((reads_of_unchanged hu).mpr hreads)
  exact ⟨t, run_bind_eq_iff.mpr ⟨_, u, hmade, run_mapError_eq_ok.mpr hwritten⟩, hu.trans ht⟩

end Outputs

/-! ## Both runs -/

section Both

variable {σ : Type} [FileAccess (StateM σ)] {paths : InputPaths} {header source out : String}
  {s t : σ}

theorem respond_of_generate
    (h : (generate (m := StateM σ) paths header source).run s = (.ok out, t)) :
    (respond (m := StateM σ) (.run (.generate paths header source))).run s =
      ({ status := 0, out := out }, t) := by
  have hinvoke : (invoke (m := StateM σ) (.generate paths header source)).run s = (.ok out, t) := by
    rw [invoke]
    exact h
  exact run_bind_eq_iff.mpr ⟨_, t, hinvoke, rfl⟩

variable [LastingSystem σ]

theorem preserves_canRead_generate (paths : InputPaths) (header source : String) {path : String} :
    Preserves (CanRead · path) (generate (m := StateM σ) paths header source) :=
  preserves_generate
    (fun found => preserves_canRead_of_unchanged (isDirectory_unchanged found))
    (fun found => preserves_canRead_of_unchanged (read_unchanged found))
    (fun found => preserves_canRead_of_unchanged (isFile_unchanged found)) paths
    (fun made _ => makeDirectory_readable made) fun written _ bytes => write_readable written bytes

/-- A generation leaves the files that it has read as they were, unless they are its outputs. -/
theorem kept_of_generate
    (h : (generate (m := StateM σ) paths header source).run s = (.ok out, t))
    (hinputs : ∀ path, IsInput paths s path →
      place? t path ≠ place? t header ∧ place? t path ≠ place? t source) :
    Kept (IsInput paths s) s t := by
  have hconfined : ConfinedTo header source s t := by
    have hrun := confined_of_generate paths header source s
    rwa [respond_of_generate h] at hrun
  rintro path hpath bytes ⟨⟨place, hplace, hfile⟩, hread⟩
  have hsteady : place? t path = some place := hconfined.places hplace
  have hopen : CanRead t path := by
    have hkept := preserves_canRead_generate paths header source s hread
    rwa [h] at hkept
  refine ⟨⟨place, hsteady, ?_⟩, hopen⟩
  by_contra hchanged
  obtain ⟨output, houtput, hlocation⟩ := hconfined.files place (hfile ▸ hchanged)
  obtain ⟨hheader, hsource⟩ := hinputs path hpath
  rcases houtput with rfl | rfl
  · exact hheader (hsteady.trans hlocation.symm)
  · exact hsource (hsteady.trans hlocation.symm)

theorem hasParent_of_generate
    (h : (generate (m := StateM σ) paths header source).run s = (.ok out, t)) :
    HasParent t header ∧ HasParent t source := by
  obtain ⟨texts, _, _, v, htold, hsource, -⟩ := generate_eq_ok h
  obtain ⟨headerName, u, -, -, hheader⟩ := tellHeader_eq_ok htold
  have hkept := preserves_hasParent_writeOutput source texts.source v
    (hasParent_of_writeOutput hheader)
  rw [hsource] at hkept
  exact ⟨hkept, hasParent_of_writeOutput hsource⟩

theorem exists_run_tellGenerate
    (h : (generate (m := StateM σ) paths header source).run s = (.ok out, t))
    (houtputs : place? t header ≠ place? t source)
    (hinputs : ∀ path, IsInput paths s path →
      place? t path ≠ place? t header ∧ place? t path ≠ place? t source)
    (hheaderOpen : CanRead t header) (hsourceOpen : CanRead t source) :
    ∃ u, (tellGenerate (m := StateM σ) paths header source).run t =
      (.ok ⟨out, false, false⟩, u) ∧ Unchanged t u := by
  obtain ⟨headerName, texts, u, hname, hartifacts, hsource, hheader⟩ := holds_of_generate h
  obtain ⟨hheaderParent, hsourceParent⟩ := hasParent_of_generate h
  obtain ⟨_, _, _, _, -, -, hout⟩ := generate_eq_ok h
  obtain ⟨t₁, hartifacts', ht₁⟩ := exists_run_artifacts (kept_of_generate h hinputs) hartifacts
  obtain ⟨t₂, hheader', ht₂⟩ := exists_run_writeOutput (hasParent_of_unchanged ht₁ hheaderParent)
    ((reads_of_unchanged ht₁).mpr ⟨hheader.mpr houtputs, hheaderOpen⟩)
  have ht : Unchanged t t₂ := ht₁.trans ht₂
  obtain ⟨t₃, hsource', ht₃⟩ := exists_run_writeOutput (hasParent_of_unchanged ht hsourceParent)
    ((reads_of_unchanged ht).mpr ⟨hsource, hsourceOpen⟩)
  have htold : (tellHeader (m := StateM σ) paths header).run t = (.ok (texts, false), t₂) := by
    unfold tellHeader
    rw [hname]
    exact run_bind_eq_iff.mpr ⟨_, t₁, hartifacts', run_map_eq_ok.mpr ⟨false, hheader', rfl⟩⟩
  refine ⟨t₃, ?_, ht.trans ht₃⟩
  rw [hout]
  exact run_bind_eq_iff.mpr ⟨_, t₂, htold, run_map_eq_ok.mpr ⟨false, hsource', rfl⟩⟩

/-- A generation that has succeeded, into two different files of which it has read neither and which
can be read, is made again with the same answer, writes neither of the two, and changes nothing. -/
theorem program_again {arguments : List String} {outcome : Outcome}
    (hread : CommandLine.read arguments = .run (.generate paths header source))
    (h : (program (m := StateM σ) arguments).run s = (outcome, t)) (hok : outcome.status = 0)
    (houtputs : place? t header ≠ place? t source)
    (hinputs : ∀ path, IsInput paths s path →
      place? t path ≠ place? t header ∧ place? t path ≠ place? t source)
    (hheaderOpen : CanRead t header) (hsourceOpen : CanRead t source) :
    ∃ u, (program (m := StateM σ) arguments).run t = (outcome, u) ∧ Unchanged t u ∧
      (tellGenerate (m := StateM σ) paths header source).run t =
        (.ok ⟨outcome.out, false, false⟩, u) := by
  rw [program, hread] at h ⊢
  obtain ⟨result, v, hinvoke, hrest⟩ := run_bind_eq_iff.mp h
  cases result with
  | error fault =>
    obtain ⟨rfl, -⟩ := Prod.mk.inj hrest
    cases hok
  | ok out =>
    obtain ⟨rfl, rfl⟩ := Prod.mk.inj hrest
    simp only [invoke] at hinvoke
    obtain ⟨u, htold, hsame⟩ :=
      exists_run_tellGenerate hinvoke houtputs hinputs hheaderOpen hsourceOpen
    have hgenerate : (generate (m := StateM σ) paths header source).run v = (.ok out, u) :=
      run_map_eq_ok.mpr ⟨_, htold, rfl⟩
    exact ⟨u, respond_of_generate hgenerate, hsame, htold⟩

end Both

/-- A tree with a schema, settings that name an auxiliary schema beside them, and that schema. -/
def configured : Tree :=
  { entries := [(["s.json"], .file "\x7b\"ls\":\x7b\"help\":\"h\"\x7d\x7d".toUTF8),
      (["conf"], .directory), (["conf", "c.yml"], .file "auxiliary:\n- a.json\n".toUTF8),
      (["conf", "a.json"], .file "\x7b\x7d".toUTF8)] }

/-- A generation that makes a directory and both files, and is made again. -/
theorem program_again_configured :
    ∃ outcome t u, (program ["generate", "--input", "s.json", "--config", "conf/c.yml", "--header",
        "gen/out.h", "--source", "gen/out.cpp"] : StateM Tree Outcome).run configured =
        (outcome, t) ∧ outcome.status = 0 ∧ configured.find? ["gen"] = none ∧
      (program ["generate", "--input", "s.json", "--config", "conf/c.yml", "--header", "gen/out.h",
        "--source", "gen/out.cpp"] : StateM Tree Outcome).run t = (outcome, u) ∧ Unchanged t u ∧
      (tellGenerate ⟨"s.json", [], some "conf/c.yml"⟩ "gen/out.h" "gen/out.cpp" :
        StateM Tree (Except RunFault Account)).run t = (.ok ⟨outcome.out, false, false⟩, u) := by
  have hread : CommandLine.read ["generate", "--input", "s.json", "--config", "conf/c.yml",
      "--header", "gen/out.h", "--source", "gen/out.cpp"] =
        .run (.generate ⟨"s.json", [], some "conf/c.yml"⟩ "gen/out.h" "gen/out.cpp") := by
    decide +kernel
  have hsettings : ((loadSettings (some "conf/c.yml") :
      StateM Tree (Except RunFault Settings)).run configured).1.toOption.map Settings.auxiliary =
        some ["conf/a.json"] := by decide +kernel
  obtain ⟨outcome, t, hrun, hok, hclosed, hheader, hsource, hplaces⟩ : ∃ outcome t, (program
      ["generate", "--input", "s.json", "--config", "conf/c.yml", "--header", "gen/out.h",
        "--source", "gen/out.cpp"] : StateM Tree Outcome).run configured = (outcome, t) ∧
        outcome.status = 0 ∧ t.closed = [] ∧
        t.fileLocation? "gen/out.h" = some ["gen", "out.h"] ∧
        t.fileLocation? "gen/out.cpp" = some ["gen", "out.cpp"] ∧
        ∀ path ∈ ["conf/c.yml", "s.json", "conf/a.json"],
          t.fileLocation? path ≠ some ["gen", "out.h"] ∧
            t.fileLocation? path ≠ some ["gen", "out.cpp"] :=
    ⟨_, _, rfl, by decide +kernel⟩
  have hopen (path : String) {l : Location} (hplace : t.fileLocation? path = some l) :
      CanRead t path := Tree.canRead_iff.mpr ⟨l, hplace, by rw [hclosed]; exact List.not_mem_nil⟩
  have houtputs : t.fileLocation? "gen/out.h" ≠ t.fileLocation? "gen/out.cpp" := by
    rw [hheader, hsource]
    decide
  have hinputs : ∀ path, IsInput ⟨"s.json", [], some "conf/c.yml"⟩ configured path →
      path ∈ ["conf/c.yml", "s.json", "conf/a.json"] := by
    rintro path (hconfig | rfl | hpath | ⟨settings, u, hloaded, hpath⟩)
    · obtain rfl := Option.some.inj hconfig
      decide
    · decide
    · cases hpath
    · rw [hloaded] at hsettings
      have hauxiliary : settings.auxiliary = ["conf/a.json"] := Option.some.inj hsettings
      rw [hauxiliary, List.mem_singleton] at hpath
      rw [hpath]
      decide
  obtain ⟨u, hagain, hsame, htold⟩ := program_again hread hrun hok houtputs (fun path hpath => by
    obtain ⟨hfirst, hsecond⟩ := hplaces path (hinputs path hpath)
    exact ⟨fun heq => hfirst (heq.trans hheader), fun heq => hsecond (heq.trans hsource)⟩)
    (hopen _ hheader) (hopen _ hsource)
  exact ⟨outcome, t, u, hrun, hok, rfl, hagain, hsame, htold⟩

/-- A tree with a schema, and a header that can be written but not read. -/
def closedHeader : Tree :=
  { entries := [(["s.json"], .file "\x7b\x7d".toUTF8), (["out.h"], .file "old".toUTF8)]
    closed := [["out.h"]] }

/-- A header that cannot be read is written by the second run as well.  A header whose path leads
to nothing before the first run, and to the schema behind it, is taken for the schema by the
second. -/
theorem not_program_again :
    (∃ outcome t, (program ["generate", "--input", "s.json", "--header", "out.h", "--source",
          "out.cpp"] : StateM Tree Outcome).run closedHeader = (outcome, t) ∧ outcome.status = 0 ∧
      t.fileLocation? "out.h" = some ["out.h"] ∧ t.fileLocation? "out.cpp" = some ["out.cpp"] ∧
      t.fileLocation? "s.json" = some ["s.json"] ∧
      ((tellGenerate ⟨"s.json", [], none⟩ "out.h" "out.cpp" :
        StateM Tree (Except RunFault Account)).run t).1.toOption =
          some ⟨outcome.out, true, false⟩) ∧
    ∃ outcome t outcome' u, (program ["generate", "--input", "s.json", "--header",
          "gen/../s.json", "--source", "out.cpp"] : StateM Tree Outcome).run stale = (outcome, t) ∧
      outcome.status = 0 ∧ stale.fileLocation? "gen/../s.json" = none ∧
      (program ["generate", "--input", "s.json", "--header", "gen/../s.json", "--source",
          "out.cpp"] : StateM Tree Outcome).run t = (outcome', u) ∧ outcome'.status = 1 :=
  ⟨⟨_, _, rfl, by decide +kernel⟩,
    _, _, _, _, rfl, by decide +kernel, by decide +kernel, rfl, by decide +kernel⟩

end Run
end CommandSchema
