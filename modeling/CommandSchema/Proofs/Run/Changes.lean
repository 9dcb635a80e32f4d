/-
What a run changes.

A run that does not generate changes nothing.  One that generates changes no file but those that the
paths of its header and of its source file lead to, and makes no directory but such as are above
these paths and were not there, however it ends: it asks for nothing else to be changed
(`preserves_generate`), and what it asks for is confined to what its paths lead to.  A request to
write that fails halfway is no exception, since what it leaves is in the file of its path.
-/
import CommandSchema.Proofs.Files.Directories
import CommandSchema.Proofs.Run.Outputs
import CommandSchema.Proofs.Run.Requests

namespace CommandSchema
namespace Run

open DirectorySystem DirectoryView FileSystem

section Changes

variable {σ : Type} [FileAccess (StateM σ)] [DirectorySystem σ]

theorem unchanged_of_respond {request : Request}
    (hrequest : ∀ paths header source, request ≠ .run (.generate paths header source)) (s : σ) :
    Unchanged s ((respond (m := StateM σ) request).run s).2 := by
  have hread : ∀ path, Preserves (Unchanged s) (FileAccess.read (m := StateM σ) path) :=
    fun path t h => h.trans (read_unchanged path t)
  have hfile : ∀ path, Preserves (Unchanged s) (FileAccess.isFile (m := StateM σ) path) :=
    fun path t h => h.trans (isFile_unchanged path t)
  cases request with
  | version => exact preserves_pure _ s (Unchanged.refl s)
  | help command => exact preserves_pure _ s (Unchanged.refl s)
  | invalid => exact preserves_pure _ s (Unchanged.refl s)
  | run invocation =>
    refine preserves_respond_run ?_ s (Unchanged.refl s)
    cases invocation with
    | generate paths header source => exact absurd rfl (hrequest paths header source)
    | check paths => exact preserves_check hread hfile paths
    | print paths part headerName => exact preserves_print hread hfile paths part headerName

/-- A state in which only a header and a source file and the directories above them are new. -/
def ConfinedTo (header source : String) : σ → σ → Prop :=
  Confined (fun path => path = header ∨ path = source)
    fun directory => Path.IsAbove directory header ∨ Path.IsAbove directory source

theorem confined_of_generate (paths : InputPaths) (header source : String) (s : σ) :
    ConfinedTo header source s
      ((respond (m := StateM σ) (.run (.generate paths header source))).run s).2 := by
  have hread : ∀ path, Preserves (ConfinedTo header source s)
      (FileAccess.read (m := StateM σ) path) :=
    fun path t h => Confined.trans h (read_unchanged path t).confined
  have hfile : ∀ path, Preserves (ConfinedTo header source s)
      (FileAccess.isFile (m := StateM σ) path) :=
    fun path t h => Confined.trans h (isFile_unchanged path t).confined
  have hfind : ∀ path, Preserves (ConfinedTo header source s)
      (FileAccess.isDirectory (m := StateM σ) path) :=
    fun path t h => Confined.trans h (isDirectory_unchanged path t).confined
  have hmake : ∀ directory, Path.IsAbove directory header ∨ Path.IsAbove directory source →
      Preserves (ConfinedTo header source s)
        (FileAccess.makeDirectory (m := StateM σ) directory) :=
    fun directory habove t h => Confined.trans h (confined_of_makeDirectory habove t)
  have hwrite : ∀ path, path = header ∨ path = source → ∀ bytes,
      Preserves (ConfinedTo header source s) (FileAccess.write (m := StateM σ) path bytes) :=
    fun path hpath bytes t h => Confined.trans h (confined_of_write hpath bytes t)
  have hgenerate : Preserves (ConfinedTo header source s)
      (invoke (m := StateM σ) (.generate paths header source)) := by
    rw [invoke]
    exact preserves_generate hfind hread hfile paths hmake hwrite
  exact preserves_respond_run hgenerate s (Unchanged.refl s).confined

/-- A run that does not generate changes no file and no directory.  A run that does, whether it
succeeds or fails, changes no file but those of its header and its source file, and makes no
directory but those above the two that were not there. -/
theorem changes_confined {arguments : List String} {s t : σ} {outcome : Outcome}
    (h : (program (m := StateM σ) arguments).run s = (outcome, t)) :
    ((∀ paths header source,
        CommandLine.read arguments ≠ .run (.generate paths header source)) → Unchanged s t) ∧
      ∀ paths header source, CommandLine.read arguments = .run (.generate paths header source) →
        ConfinedTo header source s t := by
  have hfinal : t = ((respond (m := StateM σ) (CommandLine.read arguments)).run s).2 :=
    (congrArg Prod.snd h).symm
  rw [hfinal]
  constructor
  · intro hrequest
    exact unchanged_of_respond hrequest s
  · intro paths header source hrequest
    rw [hrequest]
    exact confined_of_generate paths header source s

end Changes

/-- A check of a schema, and a run for it that fails at the directory of its source file, after it
has made one for its header. -/
theorem changes_confined_stale :
    ∃ outcome t, (program ["generate", "--input", "s.json", "--header", "gen/out.h", "--source",
        "out.cpp/out.cpp"] : StateM Tree Outcome).run stale = (outcome, t) ∧
      outcome.status = 1 ∧ stale.find? ["gen"] = none ∧ t.find? ["gen"] = some .directory ∧
      ConfinedTo "gen/out.h" "out.cpp/out.cpp" stale t ∧
      ∃ outcome' t', (program ["check", "--input", "s.json"] : StateM Tree Outcome).run stale =
        (outcome', t') ∧ Unchanged stale t' := by
  have hread : CommandLine.read ["generate", "--input", "s.json", "--header", "gen/out.h",
      "--source", "out.cpp/out.cpp"] =
        .run (.generate ⟨"s.json", [], none⟩ "gen/out.h" "out.cpp/out.cpp") := by
    decide +kernel
  have hcheck : CommandLine.read ["check", "--input", "s.json"] =
      .run (.check ⟨"s.json", [], none⟩) := by decide +kernel
  obtain ⟨outcome, t, hrun, hfailed, hmade⟩ : ∃ outcome t, (program ["generate", "--input",
      "s.json", "--header", "gen/out.h", "--source", "out.cpp/out.cpp"] :
        StateM Tree Outcome).run stale = (outcome, t) ∧ outcome.status = 1 ∧
        t.find? ["gen"] = some .directory := ⟨_, _, rfl, by decide +kernel, by decide +kernel⟩
  obtain ⟨outcome', t', hrun'⟩ : ∃ outcome' t', (program ["check", "--input", "s.json"] :
      StateM Tree Outcome).run stale = (outcome', t') := ⟨_, _, rfl⟩
  refine ⟨outcome, t, hrun, hfailed, rfl, hmade, (changes_confined hrun).2 _ _ _ hread,
    outcome', t', hrun', (changes_confined hrun').1 fun paths header source hgenerate => ?_⟩
  cases hcheck.symm.trans hgenerate

end Run
end CommandSchema
