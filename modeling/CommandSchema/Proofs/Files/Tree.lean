/-
Trees as file systems.

A request changes a tree at one location at most, and never at the root.  A directory is made only
where nothing is, so it takes the place of no file, and what is written is at its location in full.
No request takes a directory away, so every path leads where it led before.  Nor does one open or
close a file: a path can be read when it leads to a file that is not closed (`canRead_iff`).
-/
import CommandSchema.Files.Tree
import CommandSchema.Proofs.Files.Repetition
import CommandSchema.Proofs.Outcome

namespace CommandSchema
namespace Tree

/-- What is in the file at a location, if there is one. -/
def fileAt? (t : Tree) (l : Location) : Option ByteArray :=
  match t.find? l with
  | some (.file bytes) => some bytes
  | _ => none

theorem fileAt?_put (t : Tree) {l : Location} (hl : l ≠ []) (bytes : ByteArray) :
    (t.put l (.file bytes)).fileAt? l = some bytes ∧
      ∀ k, k ≠ l → (t.put l (.file bytes)).fileAt? k = t.fileAt? k := by
  constructor
  · rw [fileAt?, find?_put t l l _ hl, if_pos rfl]
  · intro k hk
    rw [fileAt?, find?_put t l k _ hl, if_neg hk, fileAt?]

/-- A directory where nothing was is no file. -/
theorem fileAt?_put_directory (t : Tree) {l : Location} (hl : l ≠ []) (hfree : t.find? l = none) :
    (t.put l .directory).fileAt? = t.fileAt? := by
  funext k
  rw [fileAt?, find?_put t l k _ hl, fileAt?]
  by_cases hk : k = l
  · rw [if_pos hk, hk, hfree]
  · rw [if_neg hk]

/-- A path that ends with a name leads to no root. -/
theorem ne_nil_of_target {t : Tree} {path : String} {l : Location}
    (h : t.target path = .ok (some l)) : l ≠ [] := by
  rw [target] at h
  split at h
  · cases h
  split at h
  · cases h
  next name hname =>
    obtain ⟨above, -, h⟩ := Outcome.bind_eq_ok_iff.mp h
    obtain ⟨l', hstep, h⟩ := Outcome.bind_eq_ok_iff.mp h
    split at h
    · cases h
    next hproper =>
      obtain rfl : l' = l := by simpa [pure, Except.pure] using h
      rw [not_or] at hproper
      rw [step] at hstep
      split at hstep
      · cases hstep
      · cases hstep
      · rw [if_neg hproper.1, if_neg hproper.2] at hstep
        obtain rfl := Except.ok.inj hstep
        exact List.append_ne_nil_of_right_ne_nil above (List.cons_ne_nil name [])

theorem write_eq_ok {t u : Tree} {path : String} {bytes : ByteArray}
    (h : t.write path bytes = .ok u) :
    ∃ l, t.target path = .ok (some l) ∧ endsWithBar path = false ∧
      t.find? l ≠ some .directory ∧ u = t.put l (.file bytes) := by
  obtain ⟨l?, htarget, h⟩ := Outcome.bind_eq_ok_iff.mp h
  cases l? with
  | none => cases h
  | some l =>
    dsimp only at h
    split at h
    · cases h
    next hbar =>
      split at h
      · cases h
      next hfile => exact ⟨l, htarget, Bool.eq_false_iff.mpr hbar, hfile, (Except.ok.inj h).symm⟩

theorem makeDirectory_eq_ok {t u : Tree} {path : String} (h : t.makeDirectory path = .ok u) :
    ∃ l, t.target path = .ok (some l) ∧ t.find? l = none ∧ u = t.put l .directory := by
  obtain ⟨l?, htarget, h⟩ := Outcome.bind_eq_ok_iff.mp h
  cases l? with
  | none => cases h
  | some l =>
    refine ⟨l, htarget, ?_⟩
    dsimp only at h
    split at h
    · cases h
    next hfree => exact ⟨hfree, (Except.ok.inj h).symm⟩

theorem attempt_run (change : Tree → Except FileError Tree) (t : Tree) :
    (∃ u, change t = .ok u ∧ (attempt change).run t = (.ok (), u)) ∨
      ∃ e, change t = .error e ∧ (attempt change).run t = (.error e, t) := by
  cases hchange : change t with
  | ok u => exact Or.inl ⟨u, rfl, by simp [attempt, StateT.run, hchange]⟩
  | error e => exact Or.inr ⟨e, rfl, by simp [attempt, StateT.run, hchange]⟩

instance : FileSystem Tree where
  Place := Location
  file? := fileAt?
  read_keeps _ _ := rfl
  isFile_keeps _ _ := rfl
  isDirectory_keeps _ _ := rfl
  makeDirectory_keeps path t := by
    rcases attempt_run (·.makeDirectory path) t with ⟨u, hmade, hrun⟩ | ⟨e, -, hrun⟩
    · obtain ⟨l, htarget, hfree, rfl⟩ := makeDirectory_eq_ok hmade
      exact (congrArg (fun r => fileAt? r.2) hrun).trans
        (fileAt?_put_directory t (ne_nil_of_target htarget) hfree)
    · exact congrArg (fun r => fileAt? r.2) hrun
  write_ok {path bytes s t} h := by
    rcases attempt_run (·.write path bytes) s with ⟨u, hwrite, hrun⟩ | ⟨d, -, hrun⟩
    · obtain ⟨l, htarget, -, -, rfl⟩ := write_eq_ok hwrite
      rw [← (Prod.mk.inj (hrun.symm.trans h)).2]
      exact ⟨l, fileAt?_put s (ne_nil_of_target htarget) bytes⟩
    · cases (Prod.mk.inj (hrun.symm.trans h)).1

instance : AtomicSystem Tree where
  write_error {path bytes s t e} h := by
    rcases attempt_run (·.write path bytes) s with ⟨u, -, hrun⟩ | ⟨d, -, hrun⟩
    · cases (Prod.mk.inj (hrun.symm.trans h)).1
    · rw [(Prod.mk.inj (hrun.symm.trans h)).2]

/-! ## Places of paths -/

/-- The location of the file that a path leads to, if it leads to one. -/
def fileLocation? (t : Tree) (path : String) : Option Location :=
  match t.locate path with
  | .ok (l, .file _) => some l
  | _ => none

theorem find?_of_step {t : Tree} {k l : Location} {name : String} (h : t.step k name = .ok l) :
    t.find? k = some .directory := by
  rw [step] at h
  split at h
  · cases h
  · cases h
  next hdirectory => exact hdirectory

theorem locate_eq_ok_iff {t : Tree} {path : String} {l : Location} {e : Entry} :
    t.locate path = .ok (l, e) ↔
      path ≠ "" ∧
      t.walk (t.start path) (names path ++ if endsWithBar path then ["."] else []) = .ok l ∧
      t.find? l = some e := by
  rw [locate]
  by_cases hempty : path = ""
  · simp [hempty]
  · rw [if_neg hempty, Outcome.bind_eq_ok_iff, and_iff_right hempty]
    constructor
    · rintro ⟨k, hwalk, hfound⟩
      cases hentry : t.find? k with
      | none =>
        rw [hentry] at hfound
        cases hfound
      | some f =>
        rw [hentry] at hfound
        cases hfound
        exact ⟨hwalk, hentry⟩
    · rintro ⟨hwalk, hentry⟩
      exact ⟨l, hwalk, by rw [hentry]⟩

theorem fileLocation?_eq_some_iff {t : Tree} {path : String} {l : Location} :
    t.fileLocation? path = some l ↔ ∃ bytes, t.locate path = .ok (l, .file bytes) := by
  rw [fileLocation?]
  split
  next k bytes hlocate => simp [hlocate]
  next hother =>
    constructor
    · nofun
    · rintro ⟨bytes, hlocate⟩
      exact absurd hlocate (hother l bytes)

theorem fileAt?_eq_some_iff {t : Tree} {l : Location} {bytes : ByteArray} :
    t.fileAt? l = some bytes ↔ t.find? l = some (.file bytes) := by
  rw [fileAt?]
  split
  next found hfound => simp [hfound]
  next hother => exact iff_of_false nofun (hother bytes)

theorem walk_append {t : Tree} {k l : Location} {front back : List String} :
    t.walk k (front ++ back) = .ok l ↔ ∃ m, t.walk k front = .ok m ∧ t.walk m back = .ok l := by
  induction front generalizing k with
  | nil => simp [walk]
  | cons name rest ih =>
    simp only [List.cons_append, walk, Outcome.bind_eq_ok_iff, ih]
    constructor
    · rintro ⟨n, hstep, m, hfront, hback⟩
      exact ⟨m, ⟨n, hstep, hfront⟩, hback⟩
    · rintro ⟨m, ⟨n, hstep, hfront⟩, hback⟩
      exact ⟨n, hstep, m, hfront, hback⟩

/-- A path to a name not yet there is a path to that name as soon as something is. -/
theorem walk_of_target {t : Tree} {path : String} {l : Location}
    (h : t.target path = .ok (some l)) :
    path ≠ "" ∧ t.walk (t.start path) (names path) = .ok l := by
  rw [target] at h
  split at h
  · cases h
  next hempty =>
    refine ⟨hempty, ?_⟩
    split at h
    · cases h
    next name hname =>
      obtain ⟨above, habove, h⟩ := Outcome.bind_eq_ok_iff.mp h
      obtain ⟨k, hstep, h⟩ := Outcome.bind_eq_ok_iff.mp h
      split at h
      · cases h
      next =>
        obtain rfl : k = l := by simpa [pure, Except.pure] using h
        rw [← List.dropLast_append_getLast? name hname, walk_append]
        exact ⟨above, habove, by simp [walk, hstep, bind, Except.bind]⟩

section Put

variable {t : Tree} {l : Location} {e : Entry} (hl : l ≠ []) (hfree : t.find? l ≠ some .directory)

include hl hfree

/-- A step leads where it did, since the entry that is put takes the place of no directory. -/
theorem step_put {k m : Location} {name : String} (h : t.step k name = .ok m) :
    (t.put l e).step k name = .ok m := by
  have hne : k ≠ l := fun heq => hfree (heq ▸ find?_of_step h)
  rw [step, find?_put t l k e hl, if_neg hne]
  exact h

theorem walk_put {k m : Location} {path : List String} (h : t.walk k path = .ok m) :
    (t.put l e).walk k path = .ok m := by
  induction path generalizing k with
  | nil => exact h
  | cons name rest ih =>
    obtain ⟨n, hstep, hrest⟩ := Outcome.bind_eq_ok_iff.mp h
    exact Outcome.bind_eq_ok_iff.mpr ⟨n, step_put hl hfree hstep, ih hrest⟩

theorem target_put {path : String} {found : Option Location} (h : t.target path = .ok found) :
    (t.put l e).target path = .ok found := by
  rw [target] at h ⊢
  by_cases hempty : path = ""
  · rw [if_pos hempty] at h
    cases h
  · rw [if_neg hempty] at h ⊢
    cases hlast : (names path).getLast? with
    | none =>
      rw [hlast] at h
      exact h
    | some name =>
      rw [hlast] at h
      obtain ⟨above, habove, h⟩ := Outcome.bind_eq_ok_iff.mp h
      obtain ⟨k, hstep, h⟩ := Outcome.bind_eq_ok_iff.mp h
      exact Outcome.bind_eq_ok_iff.mpr ⟨above, walk_put hl hfree habove,
        Outcome.bind_eq_ok_iff.mpr ⟨k, step_put hl hfree hstep, h⟩⟩

theorem fileLocation?_put (he : t.find? l = none ∨ ∃ bytes, e = .file bytes) {path : String}
    {k : Location} (h : t.fileLocation? path = some k) :
    (t.put l e).fileLocation? path = some k := by
  obtain ⟨bytes, hlocate⟩ := fileLocation?_eq_some_iff.mp h
  obtain ⟨hempty, hwalk, hfile⟩ := locate_eq_ok_iff.mp hlocate
  have hafter : ∃ contents, (t.put l e).find? k = some (.file contents) := by
    rw [find?_put t l k e hl]
    by_cases hk : k = l
    · rcases he with hnone | ⟨contents, rfl⟩
      · rw [hk, hnone] at hfile
        cases hfile
      · exact ⟨contents, by rw [if_pos hk]⟩
    · exact ⟨bytes, by rw [if_neg hk, hfile]⟩
  obtain ⟨contents, hcontents⟩ := hafter
  exact fileLocation?_eq_some_iff.mpr
    ⟨contents, locate_eq_ok_iff.mpr ⟨hempty, walk_put hl hfree hwalk, hcontents⟩⟩

theorem fileLocation?_put_target {path : String} {bytes : ByteArray}
    (htarget : t.target path = .ok (some l)) (hbar : endsWithBar path = false) :
    (t.put l (.file bytes)).fileLocation? path = some l := by
  obtain ⟨hempty, hwalk⟩ := walk_of_target htarget
  refine fileLocation?_eq_some_iff.mpr ⟨bytes, locate_eq_ok_iff.mpr ⟨hempty, ?_, ?_⟩⟩
  · simp only [hbar, Bool.false_eq_true, if_false, List.append_nil]
    exact walk_put hl hfree hwalk
  · rw [find?_put t l l _ hl, if_pos rfl]

end Put

/-- What is read is what is in a file, unless the file is closed. -/
theorem read_eq_ok_iff {t : Tree} {path : String} {bytes : ByteArray} :
    t.read path = .ok bytes ↔
      ∃ l, t.fileLocation? path = some l ∧ t.fileAt? l = some bytes ∧ l ∉ t.closed := by
  rw [read, Outcome.bind_eq_ok_iff]
  constructor
  · rintro ⟨⟨l, e⟩, hlocate, hread⟩
    cases e with
    | directory => cases hread
    | file found =>
      dsimp only at hread
      split at hread
      · cases hread
      next hopen =>
        obtain rfl := Except.ok.inj hread
        exact ⟨l, fileLocation?_eq_some_iff.mpr ⟨found, hlocate⟩,
          fileAt?_eq_some_iff.mpr (locate_eq_ok_iff.mp hlocate).2.2, hopen⟩
  · rintro ⟨l, hplace, hfile, hopen⟩
    obtain ⟨found, hlocate⟩ := fileLocation?_eq_some_iff.mp hplace
    have hfound : t.find? l = some (.file found) := (locate_eq_ok_iff.mp hlocate).2.2
    rw [fileAt?_eq_some_iff, hfound] at hfile
    obtain rfl := Entry.file.inj (Option.some.inj hfile)
    exact ⟨(l, .file found), hlocate, if_neg hopen⟩

theorem fileLocation?_of_write {t u : Tree} {path : String} {bytes : ByteArray}
    (h : t.write path bytes = .ok u) :
    ∃ l, u.fileLocation? path = some l ∧ u.fileAt? l = some bytes ∧
      ∀ k, k ≠ l → u.fileAt? k = t.fileAt? k := by
  obtain ⟨l, htarget, hbar, hfree, rfl⟩ := write_eq_ok h
  have hl : l ≠ [] := ne_nil_of_target htarget
  exact ⟨l, fileLocation?_put_target hl hfree htarget hbar, fileAt?_put t hl bytes⟩

theorem fileLocation?_makeDirectory {t u : Tree} {made path : String} {k : Location}
    (h : t.makeDirectory made = .ok u) (hk : t.fileLocation? path = some k) :
    u.fileLocation? path = some k := by
  obtain ⟨l, htarget, hnone, rfl⟩ := makeDirectory_eq_ok h
  have hfree : t.find? l ≠ some .directory := by simp [hnone]
  exact fileLocation?_put (ne_nil_of_target htarget) hfree (Or.inl hnone) hk

theorem fileLocation?_write {t u : Tree} {written path : String} {bytes : ByteArray}
    {k : Location} (h : t.write written bytes = .ok u) (hk : t.fileLocation? path = some k) :
    u.fileLocation? path = some k := by
  obtain ⟨l, htarget, -, hfree, rfl⟩ := write_eq_ok h
  exact fileLocation?_put (ne_nil_of_target htarget) hfree (Or.inr ⟨bytes, rfl⟩) hk

/-- What outlasts a change outlasts the request for it, which changes nothing if it fails. -/
theorem attempt_preserves {change : Tree → Except FileError Tree} {I : Tree → Prop}
    (hchange : ∀ {t u : Tree}, change t = .ok u → I t → I u) :
    FileSystem.Preserves I (attempt change) := by
  intro t ht
  rcases attempt_run change t with ⟨u, hdone, hrun⟩ | ⟨e, -, hrun⟩
  · rw [hrun]
    exact hchange hdone ht
  · rw [hrun]
    exact ht

instance : PathSystem Tree where
  place? := fileLocation?
  read_steady _ _ h := h
  isDirectory_steady _ _ h := h
  makeDirectory_steady _ s h := attempt_preserves fileLocation?_makeDirectory s h
  write_steady _ _ s h := attempt_preserves fileLocation?_write s h
  read_place {path bytes s t} h := by
    have hrun : (FileAccess.read (m := StateM Tree) path).run s = (s.read path, s) := rfl
    obtain ⟨hread, rfl⟩ := Prod.mk.inj (hrun.symm.trans h)
    obtain ⟨l, hplace, hfile, -⟩ := read_eq_ok_iff.mp hread
    exact ⟨l, hplace, hfile⟩
  write_place {path bytes s t} h := by
    rcases attempt_run (·.write path bytes) s with ⟨u, hwrite, hrun⟩ | ⟨d, -, hrun⟩
    · obtain ⟨-, rfl⟩ := Prod.mk.inj (hrun.symm.trans h)
      obtain ⟨l, hplace, hfile, -⟩ := fileLocation?_of_write hwrite
      exact ⟨l, hplace, hfile⟩
    · cases (Prod.mk.inj (hrun.symm.trans h)).1
  write_changed {path bytes s t written place} h hchanged := by
    rcases attempt_run (·.write path bytes) s with ⟨u, hwrite, hrun⟩ | ⟨d, -, hrun⟩
    · obtain ⟨-, rfl⟩ := Prod.mk.inj (hrun.symm.trans h)
      obtain ⟨l, hplace, hfile, hothers⟩ := fileLocation?_of_write hwrite
      by_cases hl : place = l
      · have hwritten : FileSystem.file? u l = some bytes := hfile
        rw [hl, hwritten]
        exact ⟨hplace, Option.some_ne_none bytes⟩
      · exact absurd (hothers place hl) hchanged
    · obtain ⟨-, rfl⟩ := Prod.mk.inj (hrun.symm.trans h)
      exact absurd rfl hchanged

/-! ## Directories -/

/-- The location of the directory that a path leads to, if it leads to one. -/
def directoryLocation? (t : Tree) (path : String) : Option Location :=
  match t.locate path with
  | .ok (l, .directory) => some l
  | _ => none

theorem directoryLocation?_eq_some_iff {t : Tree} {path : String} {l : Location} :
    t.directoryLocation? path = some l ↔ t.locate path = .ok (l, .directory) := by
  rw [directoryLocation?]
  split
  next k hlocate => simp [hlocate]
  next hother => exact iff_of_false nofun (hother l)

section Put

variable {t : Tree} {l : Location} {e : Entry} (hl : l ≠ []) (hfree : t.find? l ≠ some .directory)

include hl hfree

theorem directory_put {k : Location} (h : t.find? k = some .directory) :
    (t.put l e).find? k = some .directory := by
  have hne : k ≠ l := fun heq => hfree (heq ▸ h)
  rw [find?_put t l k e hl, if_neg hne, h]

theorem directoryLocation?_put {path : String} {k : Location}
    (h : t.directoryLocation? path = some k) : (t.put l e).directoryLocation? path = some k := by
  obtain ⟨hempty, hwalk, hdirectory⟩ := locate_eq_ok_iff.mp (directoryLocation?_eq_some_iff.mp h)
  exact directoryLocation?_eq_some_iff.mpr (locate_eq_ok_iff.mpr
    ⟨hempty, walk_put hl hfree hwalk, directory_put hl hfree hdirectory⟩)

/-- A path leads to the directory that it names, also if it ends with a bar. -/
theorem directoryLocation?_put_target {path : String} (htarget : t.target path = .ok (some l)) :
    (t.put l .directory).directoryLocation? path = some l := by
  obtain ⟨hempty, hwalk⟩ := walk_of_target htarget
  have hentry : (t.put l .directory).find? l = some .directory := by
    rw [find?_put t l l _ hl, if_pos rfl]
  have hstay : (t.put l .directory).walk l (if endsWithBar path then ["."] else []) = .ok l := by
    split
    · rw [walk, step, hentry]
      rfl
    · rfl
  exact directoryLocation?_eq_some_iff.mpr (locate_eq_ok_iff.mpr
    ⟨hempty, walk_append.mpr ⟨l, walk_put hl hfree hwalk, hstay⟩, hentry⟩)

end Put

/-- What is written takes the place of no directory, and is none. -/
theorem directory_write {t u : Tree} {path : String} {bytes : ByteArray}
    (h : t.write path bytes = .ok u) (k : Location) :
    u.find? k = some .directory ↔ t.find? k = some .directory := by
  obtain ⟨l, htarget, -, hfree, rfl⟩ := write_eq_ok h
  rw [find?_put t l k _ (ne_nil_of_target htarget)]
  by_cases hk : k = l
  · rw [if_pos hk, hk]
    exact iff_of_false nofun hfree
  · rw [if_neg hk]

theorem directoryLocation?_write {t u : Tree} {written path : String} {bytes : ByteArray}
    {k : Location} (h : t.write written bytes = .ok u) (hk : t.directoryLocation? path = some k) :
    u.directoryLocation? path = some k := by
  obtain ⟨l, htarget, -, hfree, rfl⟩ := write_eq_ok h
  exact directoryLocation?_put (ne_nil_of_target htarget) hfree hk

theorem directory_makeDirectory {t u : Tree} {made : String} {k : Location}
    (h : t.makeDirectory made = .ok u) (hk : t.find? k = some .directory) :
    u.find? k = some .directory := by
  obtain ⟨l, htarget, hnone, rfl⟩ := makeDirectory_eq_ok h
  exact directory_put (ne_nil_of_target htarget) (by simp [hnone]) hk

theorem directoryLocation?_makeDirectory {t u : Tree} {made path : String} {k : Location}
    (h : t.makeDirectory made = .ok u) (hk : t.directoryLocation? path = some k) :
    u.directoryLocation? path = some k := by
  obtain ⟨l, htarget, hnone, rfl⟩ := makeDirectory_eq_ok h
  exact directoryLocation?_put (ne_nil_of_target htarget) (by simp [hnone]) hk

/-- The one directory that is new is where its path leads, and nothing was there. -/
theorem directory_of_makeDirectory {t u : Tree} {path : String} {k : Location}
    (h : t.makeDirectory path = .ok u) (hafter : u.find? k = some .directory)
    (hbefore : t.find? k ≠ some .directory) :
    t.fileAt? k = none ∧ u.directoryLocation? path = some k := by
  obtain ⟨l, htarget, hnone, rfl⟩ := makeDirectory_eq_ok h
  have hl : l ≠ [] := ne_nil_of_target htarget
  by_cases hk : k = l
  · rw [hk, fileAt?, hnone]
    exact ⟨rfl, directoryLocation?_put_target hl (by simp [hnone]) htarget⟩
  · rw [find?_put t l k _ hl, if_neg hk] at hafter
    exact absurd hafter hbefore

instance : DirectoryView Tree where
  IsDirectory t l := t.find? l = some .directory
  directoryPlace? := directoryLocation?

instance : DirectorySystem Tree where
  read_unchanged _ t := DirectoryView.Unchanged.refl t
  isFile_unchanged _ t := DirectoryView.Unchanged.refl t
  isDirectory_unchanged _ t := DirectoryView.Unchanged.refl t
  write_directories path bytes t := by
    funext k
    exact propext (attempt_preserves (I := fun u => u.find? k = some .directory ↔ _)
      (fun h hk => (directory_write h k).trans hk) t Iff.rfl)
  write_directoryPlace _ _ t h := attempt_preserves directoryLocation?_write t h
  makeDirectory_kept _ t h := attempt_preserves directory_makeDirectory t h
  makeDirectory_made {path k t u made} h hafter hbefore := by
    rcases attempt_run (·.makeDirectory path) t with ⟨v, hmade, hrun⟩ | ⟨e, -, hrun⟩
    · obtain ⟨-, rfl⟩ := Prod.mk.inj (hrun.symm.trans h)
      exact directory_of_makeDirectory hmade hafter hbefore
    · obtain ⟨-, rfl⟩ := Prod.mk.inj (hrun.symm.trans h)
      exact absurd hafter hbefore
  makeDirectory_directoryPlace _ t h := attempt_preserves directoryLocation?_makeDirectory t h

/-! ## What is found again -/

/-- A path that leads to a directory can name nothing that is not there yet. -/
theorem target_of_directoryLocation? {t : Tree} {path : String} {l : Location}
    (h : t.directoryLocation? path = some l) :
    t.target path = .ok none ∨
      ∃ k, t.target path = .ok (some k) ∧ t.find? k = some .directory := by
  obtain ⟨hempty, hwalk, hdirectory⟩ := locate_eq_ok_iff.mp (directoryLocation?_eq_some_iff.mp h)
  obtain ⟨k, hnames, hbar⟩ := walk_append.mp hwalk
  have hk : t.find? k = some .directory := by
    split at hbar
    · obtain ⟨m, hstep, -⟩ := Outcome.bind_eq_ok_iff.mp hbar
      exact find?_of_step hstep
    · obtain rfl := Except.ok.inj hbar
      exact hdirectory
  rw [target, if_neg hempty]
  cases hlast : (names path).getLast? with
  | none => exact Or.inl rfl
  | some name =>
    rw [← List.dropLast_append_getLast? name hlast] at hnames
    obtain ⟨above, habove, hname⟩ := walk_append.mp hnames
    obtain ⟨m, hstep, hm⟩ := Outcome.bind_eq_ok_iff.mp hname
    obtain rfl : m = k := Except.ok.inj hm
    by_cases hproper : name = "." ∨ name = ".."
    · left
      simp [habove, hstep, hproper, bind, Except.bind, pure, Except.pure]
    · right
      refine ⟨m, ?_, hk⟩
      simp [habove, hstep, hproper, bind, Except.bind, pure, Except.pure]

theorem makeDirectory_of_directoryLocation? {t : Tree} {path : String} {l : Location}
    (h : t.directoryLocation? path = some l) : t.makeDirectory path = .error .alreadyExists := by
  rcases target_of_directoryLocation? h with htarget | ⟨k, htarget, hk⟩
  · rw [makeDirectory, htarget]
    rfl
  · rw [makeDirectory, htarget]
    simp only [bind, Except.bind, hk]

theorem isFile_of_fileLocation? {t : Tree} {path : String} {l : Location}
    (h : t.fileLocation? path = some l) : t.isFile path = true := by
  obtain ⟨bytes, hlocate⟩ := fileLocation?_eq_some_iff.mp h
  rw [isFile, hlocate]

theorem isDirectory_iff {t : Tree} {path : String} :
    t.isDirectory path = true ↔ ∃ l, t.directoryLocation? path = some l := by
  simp only [directoryLocation?_eq_some_iff]
  rw [isDirectory]
  split
  next l hlocate => exact iff_of_true rfl ⟨l, hlocate⟩
  next hother => exact iff_of_false Bool.false_ne_true fun ⟨l, hlocate⟩ => hother l hlocate

/-! ## What can be read -/

theorem canRead_iff {t : Tree} {path : String} :
    FileSystem.CanRead t path ↔ ∃ l, t.fileLocation? path = some l ∧ l ∉ t.closed := by
  constructor
  · rintro ⟨bytes, u, h⟩
    obtain ⟨l, hplace, -, hopen⟩ := read_eq_ok_iff.mp (Prod.mk.inj h).1
    exact ⟨l, hplace, hopen⟩
  · rintro ⟨l, hplace, hopen⟩
    obtain ⟨bytes, hlocate⟩ := fileLocation?_eq_some_iff.mp hplace
    have hfile := fileAt?_eq_some_iff.mpr (locate_eq_ok_iff.mp hlocate).2.2
    exact ⟨bytes, t, Prod.ext (read_eq_ok_iff.mpr ⟨l, hplace, hfile, hopen⟩) rfl⟩

theorem canRead_makeDirectory {t u : Tree} {made path : String} (h : t.makeDirectory made = .ok u)
    (hread : FileSystem.CanRead t path) : FileSystem.CanRead u path := by
  obtain ⟨k, hplace, hopen⟩ := canRead_iff.mp hread
  refine canRead_iff.mpr ⟨k, fileLocation?_makeDirectory h hplace, ?_⟩
  obtain ⟨l, -, -, rfl⟩ := makeDirectory_eq_ok h
  exact hopen

theorem canRead_write {t u : Tree} {written path : String} {bytes : ByteArray}
    (h : t.write written bytes = .ok u) (hread : FileSystem.CanRead t path) :
    FileSystem.CanRead u path := by
  obtain ⟨k, hplace, hopen⟩ := canRead_iff.mp hread
  refine canRead_iff.mpr ⟨k, fileLocation?_write h hplace, ?_⟩
  obtain ⟨l, -, -, -, rfl⟩ := write_eq_ok h
  exact hopen

instance : LastingSystem Tree where
  isFile_of_place h := isFile_of_fileLocation? h
  isDirectory_iff := isDirectory_iff
  makeDirectory_leads {path t u} h := by
    rcases attempt_run (·.makeDirectory path) t with ⟨v, hmade, hrun⟩ | ⟨e, -, hrun⟩
    · obtain ⟨-, rfl⟩ := Prod.mk.inj (hrun.symm.trans h)
      obtain ⟨l, htarget, hnone, rfl⟩ := makeDirectory_eq_ok hmade
      exact ⟨l, directoryLocation?_put_target (ne_nil_of_target htarget) (by simp [hnone]) htarget⟩
    · cases (Prod.mk.inj (hrun.symm.trans h)).1
  makeDirectory_again {path t} h := by
    obtain ⟨l, hl⟩ := h
    have hexists := makeDirectory_of_directoryLocation? hl
    refine ⟨.alreadyExists, t, ?_, nofun, DirectoryView.Unchanged.refl t⟩
    rcases attempt_run (·.makeDirectory path) t with ⟨u, hmade, -⟩ | ⟨e, herror, hrun⟩
    · cases hexists.symm.trans hmade
    · obtain rfl := Except.error.inj (hexists.symm.trans herror)
      exact hrun
  makeDirectory_readable _ t h := attempt_preserves canRead_makeDirectory t h
  write_readable _ _ t h := attempt_preserves canRead_write t h

/-! ## Paths that can be written -/

/-- The location at which a path can be written. -/
def WritableAt (path : String) (l : Location) (t : Tree) : Prop :=
  t.target path = .ok (some l) ∧ endsWithBar path = false ∧ t.find? l ≠ some .directory

theorem WritableAt.write {path : String} {l : Location} {t : Tree} (h : WritableAt path l t)
    (bytes : ByteArray) : t.write path bytes = .ok (t.put l (.file bytes)) := by
  obtain ⟨htarget, hbar, hfree⟩ := h
  rw [Tree.write, htarget]
  show (if endsWithBar path = true then _ else _) = _
  rw [if_neg (by rw [hbar]; exact Bool.false_ne_true)]
  split
  next hdirectory => exact absurd hdirectory hfree
  next => rfl

/-- A path can be written where it has been written before. -/
theorem WritableAt.put {path : String} {l : Location} {t : Tree} (h : WritableAt path l t)
    (bytes : ByteArray) : WritableAt path l (t.put l (.file bytes)) := by
  obtain ⟨htarget, hbar, hfree⟩ := h
  have hl : l ≠ [] := ne_nil_of_target htarget
  refine ⟨target_put hl hfree htarget, hbar, ?_⟩
  rw [find?_put t l l _ hl, if_pos rfl]
  exact nofun

/-- Whoever can write a file that is not closed can read it then, again and again. -/
theorem rewritable_of_writableAt {path : String} {l : Location} {t : Tree}
    (h : WritableAt path l t) (hopen : l ∉ t.closed) : PathSystem.Rewritable path t := by
  refine ⟨fun u => WritableAt path l u ∧ l ∉ u.closed, ⟨h, hopen⟩, fun _ hu => hu,
    fun u hu bytes => ?_⟩
  have hwrite : u.write path bytes = .ok (u.put l (.file bytes)) := hu.1.write bytes
  obtain ⟨htarget, hbar, hfree⟩ := hu.1
  have hplace : (u.put l (.file bytes)).fileLocation? path = some l :=
    fileLocation?_put_target (ne_nil_of_target htarget) hfree htarget hbar
  refine ⟨u.put l (.file bytes), ?_, ⟨hu.1.put bytes, hu.2⟩, canRead_iff.mpr ⟨l, hplace, hu.2⟩⟩
  rcases attempt_run (·.write path bytes) u with ⟨v, hdone, hrun⟩ | ⟨e, herror, -⟩
  · obtain rfl := Except.ok.inj (hdone.symm.trans hwrite)
    exact hrun
  · cases herror.symm.trans hwrite

end Tree
end CommandSchema
