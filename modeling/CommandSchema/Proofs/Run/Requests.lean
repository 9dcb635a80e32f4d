/-
What a run asks for.

Loading reads files and asks whether they are there.  An output asks for the directories above its
path and for its own file.  So a property of the state outlasts a run as soon as it outlasts these
requests, whatever they are answered.
-/
import CommandSchema.Proofs.Files.Paths
import CommandSchema.Proofs.Files.System
import CommandSchema.Run

namespace CommandSchema

open FileSystem

variable {σ : Type} [FileAccess (StateM σ)] {I : σ → Prop}

/-! ## Inputs -/

section Inputs

variable (hread : ∀ path, Preserves I (FileAccess.read (m := StateM σ) path))
  (hfile : ∀ path, Preserves I (FileAccess.isFile (m := StateM σ) path))

include hread in
theorem Settings.preserves_load (path : String) :
    Preserves I (Settings.load (m := StateM σ) path) := by
  refine (hread path).bind fun bytes => ?_
  split
  · exact preserves_pure _
  · exact preserves_pure _
  · exact preserves_pure _

include hread in
theorem Run.preserves_loadSettings (path? : Option String) :
    Preserves I (loadSettings (m := StateM σ) path?) := by
  cases path? with
  | none => exact preserves_pure _
  | some path => exact (Settings.preserves_load hread path).bind fun settings => preserves_pure _

include hread hfile

theorem Schema.preserves_load (path : String) :
    Preserves I (Schema.load (m := StateM σ) path) := by
  rw [Schema.load]
  split
  · exact preserves_pure _
  refine (hfile path).bind fun found => ?_
  split
  · exact preserves_pure _
  refine (hread path).andThen (fun _ => ⟨_, rfl⟩) fun bytes => ?_
  exact preserves_pure _

theorem Schema.preserves_loadAll (paths : List String) :
    Preserves I (Schema.loadAll (m := StateM σ) paths) := by
  induction paths with
  | nil => exact preserves_pure _
  | cons path rest ih =>
    refine (Schema.preserves_load hread hfile path).andThen (fun _ => ⟨_, rfl⟩) fun schema => ?_
    exact ih.bind fun schemas => preserves_pure _

theorem SchemaInputs.preserves_load (primary : String) (auxiliary : List String) :
    Preserves I (SchemaInputs.load (m := StateM σ) primary auxiliary) := by
  refine (Schema.preserves_load hread hfile primary).andThen (fun _ => ⟨_, rfl⟩) fun schema => ?_
  exact (Schema.preserves_loadAll hread hfile auxiliary).bind fun others => preserves_pure _

namespace Run

theorem preserves_loadInputs (paths : InputPaths) :
    Preserves I (loadInputs (m := StateM σ) paths) := by
  refine (preserves_loadSettings hread paths.config).andThen (fun _ => ⟨_, rfl⟩) fun settings => ?_
  refine (SchemaInputs.preserves_load hread hfile paths.input _).andThen (fun _ => ⟨_, rfl⟩)
    fun inputs => ?_
  exact preserves_pure _

theorem preserves_artifacts (paths : InputPaths) (headerName : String) :
    Preserves I (artifacts (m := StateM σ) paths headerName) := by
  refine (preserves_loadInputs hread hfile paths).andThen (fun _ => ⟨_, rfl⟩) fun inputs => ?_
  exact preserves_pure _

theorem preserves_check (paths : InputPaths) : Preserves I (check (m := StateM σ) paths) := by
  refine (preserves_loadInputs hread hfile paths).andThen (fun _ => ⟨_, rfl⟩) fun inputs => ?_
  exact preserves_pure _

theorem preserves_print (paths : InputPaths) (part : Part) (headerName : Option String) :
    Preserves I (print (m := StateM σ) paths part headerName) := by
  rw [print]
  split
  · exact preserves_pure _
  · exact (preserves_artifacts hread hfile paths _).bind fun texts => preserves_pure _

end Run
end Inputs

/-! ## Outputs -/

namespace Run

section Outputs

variable (hfind : ∀ path, Preserves I (FileAccess.isDirectory (m := StateM σ) path))

include hfind

theorem preserves_ensureParent (path : String)
    (hmake : ∀ directory, Path.IsAbove directory path →
      Preserves I (FileAccess.makeDirectory (m := StateM σ) directory)) :
    Preserves I (ensureParent (m := StateM σ) path) := by
  unfold ensureParent
  split
  · exact preserves_pure _
  next parent hparent =>
    split
    · exact preserves_pure _
    · have hmade := preserves_makeDirectories hfind fun directory hdirectory =>
        hmake directory ⟨parent, hparent, hdirectory⟩
      exact hmade.bind fun made => preserves_pure _

theorem preserves_writeOutput {path : String}
    (hread : Preserves I (FileAccess.read (m := StateM σ) path))
    (hmake : ∀ directory, Path.IsAbove directory path →
      Preserves I (FileAccess.makeDirectory (m := StateM σ) directory))
    (hwrite : ∀ bytes, Preserves I (FileAccess.write (m := StateM σ) path bytes)) (text : String) :
    Preserves I (writeOutput (m := StateM σ) path text) := by
  refine (preserves_ensureParent hfind path hmake).andThen (fun _ => ⟨_, rfl⟩) fun _ => ?_
  exact (preserves_writeIfChanged hread hwrite text).bind fun _ => preserves_pure _

/-! ## Runs -/

variable (hread : ∀ path, Preserves I (FileAccess.read (m := StateM σ) path))
  (hfile : ∀ path, Preserves I (FileAccess.isFile (m := StateM σ) path))

include hread hfile

theorem preserves_tellHeader (paths : InputPaths) {header : String}
    (hmake : ∀ directory, Path.IsAbove directory header →
      Preserves I (FileAccess.makeDirectory (m := StateM σ) directory))
    (hwrite : ∀ bytes, Preserves I (FileAccess.write (m := StateM σ) header bytes)) :
    Preserves I (tellHeader (m := StateM σ) paths header) := by
  unfold tellHeader
  cases fileName header with
  | error fault => exact preserves_pure _
  | ok headerName =>
    refine (preserves_artifacts hread hfile paths headerName).andThen (fun _ => ⟨_, rfl⟩)
      fun texts => ?_
    exact (preserves_writeOutput hfind (hread header) hmake hwrite texts.header).bind
      fun written => preserves_pure _

theorem preserves_generate (paths : InputPaths) {header source : String}
    (hmake : ∀ directory, Path.IsAbove directory header ∨ Path.IsAbove directory source →
      Preserves I (FileAccess.makeDirectory (m := StateM σ) directory))
    (hwrite : ∀ path, path = header ∨ path = source → ∀ bytes,
      Preserves I (FileAccess.write (m := StateM σ) path bytes)) :
    Preserves I (generate (m := StateM σ) paths header source) := by
  have hheader := preserves_tellHeader hfind hread hfile paths
    (fun directory habove => hmake directory (Or.inl habove)) (hwrite header (Or.inl rfl))
  have hsource := preserves_writeOutput hfind (hread source)
    (fun directory habove => hmake directory (Or.inr habove)) (hwrite source (Or.inr rfl))
  have htold : Preserves I (tellGenerate (m := StateM σ) paths header source) := by
    refine hheader.andThen (fun _ => ⟨_, rfl⟩) fun told => ?_
    exact (hsource told.1.source).bind fun written => preserves_pure _
  exact htold.bind fun told => preserves_pure _

end Outputs

/-- The answer of a run comes behind its last request. -/
theorem preserves_respond_run {invocation : Invocation}
    (h : Preserves I (invoke (m := StateM σ) invocation)) :
    Preserves I (respond (m := StateM σ) (.run invocation)) := by
  refine h.bind fun result => ?_
  cases result with
  | ok out => exact preserves_pure _
  | error fault => exact preserves_pure _

end Run
end CommandSchema
