/-
What is left of a run that fails.

Reading the inputs and compiling them keeps every file, and so does making directories.  A run
writes one file after the other, the header first (`Run.tellHeader`), and either is written
completely or not at all (`AtomicSystem`).  So a run that fails on the way to the header leaves
every file as it was.  One that fails behind it, at the source file or at the directory of the
source file, does not take the header back: a file is changed then exactly when writing the header
has changed one, and the header is all that is new.
-/
import CommandSchema.Proofs.Files.Tree
import CommandSchema.Proofs.Run.Requests

namespace CommandSchema

open FileSystem

section Keeps

variable {σ : Type} [FileAccess (StateM σ)] [FileSystem σ]

/-! ## What keeps the files -/

namespace Run

theorem keeps_artifacts (paths : InputPaths) (headerName : String) :
    Keeps (artifacts (m := StateM σ) paths headerName) :=
  keeps_of_preserves fun files =>
    preserves_artifacts (fun path => (keeps_read path).preserves files)
      (fun path => (keeps_isFile path).preserves files) paths headerName

theorem keeps_check (paths : InputPaths) : Keeps (check (m := StateM σ) paths) :=
  keeps_of_preserves fun files =>
    preserves_check (fun path => (keeps_read path).preserves files)
      (fun path => (keeps_isFile path).preserves files) paths

theorem keeps_print (paths : InputPaths) (part : Part) (headerName : Option String) :
    Keeps (print (m := StateM σ) paths part headerName) :=
  keeps_of_preserves fun files =>
    preserves_print (fun path => (keeps_read path).preserves files)
      (fun path => (keeps_isFile path).preserves files) paths part headerName

theorem keeps_ensureParent (path : String) : Keeps (ensureParent (m := StateM σ) path) :=
  keeps_of_preserves fun files =>
    preserves_ensureParent (fun found => (keeps_isDirectory found).preserves files) path
      fun made _ => (keeps_makeDirectory made).preserves files

end Run
end Keeps

namespace Run

section Failure

variable {σ : Type} [FileAccess (StateM σ)] [AtomicSystem σ]

/-! ## Writing -/

theorem store_writeOutput (path text : String) :
    Store (fun _ => text.toUTF8) (writeOutput (m := StateM σ) path text) := by
  refine Store.after (keeps_ensureParent path) fun made => ?_
  cases made with
  | error fault => exact store_pure _ _
  | ok =>
    exact (AtomicSystem.store_writeIfChanged path text).answer (fun e _ => ⟨.output path e, rfl⟩)
      fun written _ => ⟨written, rfl, rfl⟩

theorem store_tellHeader (paths : InputPaths) (header : String) :
    Store (fun told => told.1.header.toUTF8) (tellHeader (m := StateM σ) paths header) := by
  unfold tellHeader
  cases fileName header with
  | error fault => exact store_pure _ _
  | ok headerName =>
    refine Store.after (keeps_artifacts paths headerName) fun texts => ?_
    cases texts with
    | error fault => exact store_pure _ _
    | ok texts =>
      exact (store_writeOutput header texts.header).answer (fun fault _ => ⟨fault, rfl⟩)
        fun written _ => ⟨(texts, written), rfl, rfl⟩

/-! ## Runs -/

/-- A generation that fails leaves the files as they were if the header has not been written, and
otherwise as they were then. -/
theorem file?_of_generate_error {paths : InputPaths} {header source : String} {s t : σ}
    {fault : RunFault}
    (h : (generate (m := StateM σ) paths header source).run s = (.error fault, t)) :
    (∃ fault u, (tellHeader (m := StateM σ) paths header).run s = (.error fault, u) ∧
        file? t = file? s) ∨
      ∃ texts written u,
        (tellHeader (m := StateM σ) paths header).run s = (.ok (texts, written), u) ∧
        file? t = file? u := by
  obtain ⟨told, u, hheader, hrest⟩ := run_bind_eq_iff.mp (run_map_eq_error.mp h)
  cases told with
  | error fault' =>
    obtain rfl : u = t := (Prod.mk.inj hrest).2
    exact Or.inl ⟨fault', u, hheader, (store_tellHeader paths header).error hheader⟩
  | ok told =>
    obtain ⟨texts, written⟩ := told
    have hsource := run_map_eq_error.mp hrest
    exact Or.inr ⟨texts, written, u, hheader, (store_writeOutput source texts.source).error hsource⟩

/-- A run that fails leaves every file as it was, or it is a generation that has written its header
before, and leaves every file as it was then. -/
theorem file?_of_failed {request : Request} {s t : σ} {outcome : Outcome}
    (h : (respond (m := StateM σ) request).run s = (outcome, t)) (hfailed : outcome.status ≠ 0) :
    (file? t = file? s ∧ ∀ paths header source told u,
        request = .run (.generate paths header source) →
        (tellHeader (m := StateM σ) paths header).run s ≠ (.ok told, u)) ∨
      ∃ paths header source texts written u, request = .run (.generate paths header source) ∧
        (tellHeader (m := StateM σ) paths header).run s = (.ok (texts, written), u) ∧
        file? t = file? u := by
  cases request with
  | version =>
    obtain ⟨rfl, -⟩ := Prod.mk.inj h
    exact absurd rfl hfailed
  | help command =>
    obtain ⟨rfl, -⟩ := Prod.mk.inj h
    exact absurd rfl hfailed
  | invalid =>
    obtain ⟨-, rfl⟩ := Prod.mk.inj h
    exact Or.inl ⟨rfl, nofun⟩
  | run invocation =>
    obtain ⟨result, u, hinvoke, hrest⟩ := run_bind_eq_iff.mp h
    cases result with
    | ok out =>
      obtain ⟨rfl, -⟩ := Prod.mk.inj hrest
      exact absurd rfl hfailed
    | error fault =>
      obtain rfl : u = t := (Prod.mk.inj hrest).2
      cases invocation with
      | check paths =>
        simp only [invoke] at hinvoke
        exact Or.inl ⟨(keeps_check paths).eq hinvoke, nofun⟩
      | print paths part headerName =>
        simp only [invoke] at hinvoke
        exact Or.inl ⟨(keeps_print paths part headerName).eq hinvoke, nofun⟩
      | generate paths header source =>
        simp only [invoke] at hinvoke
        rcases file?_of_generate_error hinvoke with
          ⟨fault, v, hheader, hfiles⟩ | ⟨texts, written, v, hheader, hfiles⟩
        · refine Or.inl ⟨hfiles, fun paths' header' source' told w hrequest hwritten => ?_⟩
          cases hrequest
          cases (Prod.mk.inj (hheader.symm.trans hwritten)).1
        · exact Or.inr ⟨paths, header, source, texts, written, v, rfl, hheader, hfiles⟩

/-- A run that fails leaves every file as it was exactly when it has not changed one by writing its
header.  If it has, then the header is in that file, and all others are as they were. -/
theorem failed_run_iff {arguments : List String} {s t : σ} {outcome : Outcome}
    (h : (program (m := StateM σ) arguments).run s = (outcome, t)) (hfailed : outcome.status ≠ 0) :
    (file? t = file? s ↔ ∀ paths header source texts written u,
        CommandLine.read arguments = .run (.generate paths header source) →
        (tellHeader (m := StateM σ) paths header).run s = (.ok (texts, written), u) →
        file? u = file? s) ∧
      (file? t = file? s ∨ ∃ paths header source texts written u,
        CommandLine.read arguments = .run (.generate paths header source) ∧
        (tellHeader (m := StateM σ) paths header).run s = (.ok (texts, written), u) ∧
        Stored texts.header.toUTF8 s t) := by
  rw [program] at h
  -- Only what is asked for matters, not the words that ask for it.
  generalize CommandLine.read arguments = request at h ⊢
  rcases file?_of_failed h hfailed with
    ⟨hkept, hunwritten⟩ | ⟨paths, header, source, texts, written, u, hrequest, hheader, hfiles⟩
  · have hall : ∀ paths header source texts written u,
        request = .run (.generate paths header source) →
        (tellHeader (m := StateM σ) paths header).run s = (.ok (texts, written), u) →
        file? u = file? s := fun paths header source texts written u hrequest hheader =>
      absurd hheader (hunwritten paths header source (texts, written) u hrequest)
    exact ⟨iff_of_true hkept hall, Or.inl hkept⟩
  · rw [hfiles]
    constructor
    · constructor
      · intro hkept paths' header' source' texts' written' u' hrequest' hheader'
        cases hrequest.symm.trans hrequest'
        rw [← (Prod.mk.inj (hheader.symm.trans hheader')).2]
        exact hkept
      · intro hall
        exact hall paths header source texts written u hrequest hheader
    · rcases (store_tellHeader paths header).ok hheader with hkept | ⟨place, hplace, hothers⟩
      · exact Or.inl hkept
      · refine Or.inr ⟨paths, header, source, texts, written, u, hrequest, hheader, place, ?_, ?_⟩
        · rw [hfiles, hplace]
        · rw [hfiles]
          exact hothers

end Failure

/-- A tree with a schema that has no commands, and a directory. -/
def blocked : Tree :=
  { entries := [(["s.json"], .file "\x7b\x7d".toUTF8), (["blocked"], .directory)] }

/-- A run whose header is refused. -/
theorem fileAt?_of_headerBlocked :
    ∃ outcome t, (program ["generate", "--input", "s.json", "--header", "blocked", "--source",
        "out.cpp"] : StateM Tree Outcome).run blocked = (outcome, t) ∧
      outcome.status ≠ 0 ∧ t.fileAt? = blocked.fileAt? := by
  have hread : CommandLine.read ["generate", "--input", "s.json", "--header", "blocked", "--source",
      "out.cpp"] = .run (.generate ⟨"s.json", [], none⟩ "blocked" "out.cpp") := by decide +kernel
  have hrefused : ((tellHeader ⟨"s.json", [], none⟩ "blocked" :
      StateM Tree (Except RunFault (Artifacts × Bool))).run blocked).1.isOk = false := by
    decide +kernel
  obtain ⟨outcome, t, hrun, hfailed⟩ : ∃ outcome t, (program ["generate", "--input", "s.json",
      "--header", "blocked", "--source", "out.cpp"] : StateM Tree Outcome).run blocked =
        (outcome, t) ∧ outcome.status ≠ 0 := ⟨_, _, rfl, by decide +kernel⟩
  refine ⟨outcome, t, hrun, hfailed, (failed_run_iff hrun hfailed).1.mpr ?_⟩
  intro paths header source texts written u hrequest hheader
  cases hread.symm.trans hrequest
  rw [hheader] at hrefused
  cases hrefused

/-- A run whose source file is refused. -/
theorem fileAt?_of_sourceBlocked :
    ∃ outcome t, (program ["generate", "--input", "s.json", "--header", "out.h", "--source",
        "blocked"] : StateM Tree Outcome).run blocked = (outcome, t) ∧
      outcome.status ≠ 0 ∧ blocked.fileAt? ["out.h"] = none ∧ (t.fileAt? ["out.h"]).isSome :=
  ⟨_, _, rfl, by decide +kernel, by decide +kernel, by decide +kernel⟩

end Run
end CommandSchema
