/-
Requests that are made again.

A file that can be read is read again with the same contents, however many requests there were in
between that have left them (`Reads`).  A directory that has been made is found, and to make it once
more changes nothing.  Neither to write nor to make a directory takes a file from those who can read
it (`LastingSystem`); whether a file can be read that has been written is left open.

So what has been read is read again in every state in which the files that were read have their
contents (`Repeats`), directories that have been made need not be made again
(`exists_run_makeDirectories`), and a text that is read in its file is not written again
(`exists_run_writeIfChanged`).
-/
import CommandSchema.Proofs.Files.Directories

namespace CommandSchema

namespace DirectoryView

/-- A path leads to a directory. -/
def LeadsToDirectory {σ : Type} [FileAccess (StateM σ)] [DirectoryView σ] (s : σ)
    (path : String) : Prop :=
  ∃ place, directoryPlace? s path = some place

end DirectoryView

open FileSystem PathSystem DirectoryView in
/-- File systems in which what is there is found again. -/
class LastingSystem (σ : Type) [FileAccess (StateM σ)] extends DirectorySystem σ where
  isFile_of_place {path : String} {place : Place} {s : σ} : place? s path = some place →
    ((FileAccess.isFile (m := StateM σ) path).run s).1 = true
  isDirectory_iff {path : String} {s : σ} :
    ((FileAccess.isDirectory (m := StateM σ) path).run s).1 = true ↔ LeadsToDirectory s path
  makeDirectory_leads {path : String} {s t : σ} :
    (FileAccess.makeDirectory (m := StateM σ) path).run s = (.ok (), t) → LeadsToDirectory t path
  makeDirectory_again {path : String} {s : σ} : LeadsToDirectory s path →
    ∃ e t, (FileAccess.makeDirectory (m := StateM σ) path).run s = (.error e, t) ∧
      e ≠ .notFound ∧ Unchanged s t
  makeDirectory_readable {p : String} (path : String) (s : σ) : CanRead s p →
    CanRead ((FileAccess.makeDirectory (m := StateM σ) path).run s).2 p
  write_readable {p : String} (path : String) (bytes : ByteArray) (s : σ) : CanRead s p →
    CanRead ((FileAccess.write (m := StateM σ) path bytes).run s).2 p

namespace LastingSystem

open FileSystem PathSystem DirectoryView DirectorySystem

variable {σ α β ε δ : Type} [FileAccess (StateM σ)]

/-! ## Files that are read again -/

section Repeats

variable [DirectorySystem σ] {inputs : String → Prop} {s t u v : σ}

theorem holds_of_unchanged {path : String} {bytes : ByteArray} (h : Unchanged s t) :
    Holds t path bytes ↔ Holds s path bytes := by
  rw [Holds, Holds, h.places, h.files]

/-- A path leads to a file with the given contents, and they can be read. -/
def Reads (s : σ) (path : String) (bytes : ByteArray) : Prop :=
  Holds s path bytes ∧ CanRead s path

theorem reads_of_unchanged {path : String} {bytes : ByteArray} (h : Unchanged s t) :
    Reads t path bytes ↔ Reads s path bytes := by
  rw [Reads, Reads, holds_of_unchanged h, h.readable]

/-- A state in which what certain paths read is read as well. -/
def Kept (inputs : String → Prop) (s t : σ) : Prop :=
  ∀ path, inputs path → ∀ bytes, Reads s path bytes → Reads t path bytes

theorem Kept.of_unchanged (h : Kept inputs s t) (hs : Unchanged s u) (ht : Unchanged t v) :
    Kept inputs u v := fun path hpath bytes hreads =>
  (reads_of_unchanged ht).mpr (h path hpath bytes ((reads_of_unchanged hs).mp hreads))

/-- A computation that changes nothing when it succeeds, and that succeeds again with the same
result wherever certain files have kept their contents. -/
def Repeats (inputs : String → Prop) (x : StateM σ (Except ε α)) : Prop :=
  ∀ s t a u, Kept inputs s t → x.run s = (.ok a, u) →
    Unchanged s u ∧ ∃ v, x.run t = (.ok a, v) ∧ Unchanged t v

theorem repeats_pure (r : Except ε α) : Repeats inputs (pure r : StateM σ (Except ε α)) := by
  intro s t a u _ h
  obtain ⟨rfl, rfl⟩ := Prod.mk.inj h
  exact ⟨Unchanged.refl s, t, rfl, Unchanged.refl t⟩

theorem Repeats.andThen {x : StateM σ (Except ε α)} {f : Except ε α → StateM σ (Except δ β)}
    (hx : Repeats inputs x) (herror : ∀ e u, ∃ d, (f (.error e)).run u = (.error d, u))
    (hok : ∀ a, Repeats inputs (f (.ok a))) : Repeats inputs (x >>= f) := by
  intro s t b u hkept h
  obtain ⟨a, s', hrun, hrest⟩ := run_bind_eq_ok h herror
  obtain ⟨hs, t', hrun', ht⟩ := hx s t a s' hkept hrun
  obtain ⟨hs', v, hrest', ht'⟩ := hok a s' t' b u (hkept.of_unchanged hs ht) hrest
  exact ⟨hs.trans hs', v, run_bind_eq_iff.mpr ⟨_, t', hrun', hrest'⟩, ht.trans ht'⟩

theorem reads_of_read {path : String} {bytes : ByteArray}
    (h : (FileAccess.read (m := StateM σ) path).run s = (.ok bytes, t)) :
    Unchanged s t ∧ Reads s path bytes := by
  have hsame : Unchanged s t := by
    have hread := read_unchanged path s
    rwa [h] at hread
  exact ⟨hsame, (holds_of_unchanged hsame).mp (read_place h), bytes, t, h⟩

theorem exists_run_read {path : String} {bytes : ByteArray} (h : Reads s path bytes) :
    ∃ t, (FileAccess.read (m := StateM σ) path).run s = (.ok bytes, t) ∧ Unchanged s t := by
  obtain ⟨t, hread⟩ := exists_run_read_of_holds h.1 h.2
  exact ⟨t, hread, (reads_of_read hread).1⟩

theorem repeats_read {path : String} (hpath : inputs path) :
    Repeats inputs (FileAccess.read (m := StateM σ) path) := by
  intro s t bytes u hkept h
  obtain ⟨hs, hreads⟩ := reads_of_read h
  exact ⟨hs, exists_run_read (hkept path hpath bytes hreads)⟩

/-- A text that is read in its file is not written. -/
theorem exists_run_writeIfChanged {path text : String} (h : Reads s path text.toUTF8) :
    ∃ t, (FileAccess.writeIfChanged (m := StateM σ) path text).run s = (.ok false, t) ∧
      Unchanged s t := by
  obtain ⟨t, hread, hsame⟩ := exists_run_read h
  refine ⟨t, run_bind_eq_iff.mpr ⟨_, t, hread, ?_⟩, hsame⟩
  simp only [if_true]
  rfl

end Repeats

variable [LastingSystem σ] {s t : σ} {path : String}

theorem exists_run_isFile {bytes : ByteArray} (h : Holds s path bytes) :
    ∃ t, (FileAccess.isFile (m := StateM σ) path).run s = (true, t) ∧ Unchanged s t := by
  obtain ⟨place, hplace, -⟩ := h
  exact ⟨_, Prod.ext (isFile_of_place hplace) rfl, isFile_unchanged path s⟩

/-! ## Directories that are made again -/

theorem leadsToDirectory_of_unchanged (h : Unchanged s t) :
    LeadsToDirectory t path ↔ LeadsToDirectory s path := by
  rw [LeadsToDirectory, LeadsToDirectory, h.directoryPlaces]

/-- The end of a request to make a directory that may be there already. -/
def orElseFound (path : String) (e : FileError) : StateM σ (Except FileError Unit) := do
  if ← FileAccess.isDirectory path then return .ok () else return .error e

theorem run_orElseFound {e : FileError} {r : Except FileError Unit}
    (h : (orElseFound path e).run s = (r, t)) :
    Unchanged s t ∧ (r = .ok () ↔ LeadsToDirectory s path) := by
  obtain ⟨found, u, hfound, hrest⟩ := run_bind_eq_iff.mp h
  have hsame : Unchanged s u := by
    have hlooked := isDirectory_unchanged path s
    rwa [hfound] at hlooked
  have hleads : found = true ↔ LeadsToDirectory s path := by
    rw [← isDirectory_iff, hfound]
  cases found with
  | true =>
    obtain ⟨rfl, rfl⟩ := Prod.mk.inj hrest
    exact ⟨hsame, iff_of_true rfl (hleads.mp rfl)⟩
  | false =>
    obtain ⟨rfl, rfl⟩ := Prod.mk.inj hrest
    exact ⟨hsame, iff_of_false nofun fun hdirectory => Bool.noConfusion (hleads.mpr hdirectory)⟩

theorem exists_run_orElseFound (h : LeadsToDirectory s path) (e : FileError) :
    ∃ t, (orElseFound path e).run s = (.ok (), t) ∧ Unchanged s t := by
  generalize hrun : (orElseFound path e).run s = result
  obtain ⟨r, t⟩ := result
  obtain ⟨hsame, hok⟩ := run_orElseFound hrun
  exact ⟨t, by rw [hok.mpr h], hsame⟩

theorem leadsToDirectory_of_ensureDirectory
    (h : (FileAccess.ensureDirectory (m := StateM σ) path).run s = (.ok (), t)) :
    LeadsToDirectory t path := by
  obtain ⟨made, u, hmade, hrest⟩ := run_bind_eq_iff.mp h
  cases made with
  | ok =>
    obtain ⟨-, rfl⟩ := Prod.mk.inj hrest
    exact makeDirectory_leads hmade
  | error e =>
    obtain ⟨hsame, hleads⟩ := run_orElseFound hrest
    exact (leadsToDirectory_of_unchanged hsame).mpr (hleads.mp rfl)

theorem leadsToDirectory_of_ensureAll {above : List String}
    (h : (FileAccess.ensureAll (m := StateM σ) (path :: above)).run s = (.ok (), t)) :
    LeadsToDirectory t path := by
  obtain ⟨made, u, hmade, hrest⟩ := run_bind_eq_iff.mp h
  split at hrest
  next =>
    obtain ⟨-, rfl⟩ := Prod.mk.inj hrest
    exact makeDirectory_leads hmade
  next =>
    obtain ⟨ensured, v, -, hensured⟩ := run_bind_eq_iff.mp hrest
    cases ensured with
    | ok => exact leadsToDirectory_of_ensureDirectory hensured
    | error e => cases (Prod.mk.inj hensured).1
  next e _ =>
    obtain ⟨hsame, hleads⟩ := run_orElseFound hrest
    exact (leadsToDirectory_of_unchanged hsame).mpr (hleads.mp rfl)

/-- The longest of the paths that are made with a directory leads to one. -/
def HasDirectory (s : σ) (path : String) : Prop :=
  ∀ directory ∈ (Path.ancestors path).head?, LeadsToDirectory s directory

theorem hasDirectory_of_makeDirectories
    (h : (FileAccess.makeDirectories (m := StateM σ) path).run s = (.ok (), t)) :
    HasDirectory t path := by
  intro directory hdirectory
  obtain ⟨above, habove⟩ := List.head?_eq_some_iff.mp hdirectory
  rw [FileAccess.makeDirectories, habove] at h
  exact leadsToDirectory_of_ensureAll h

/-- Directories that are there are not made. -/
theorem exists_run_makeDirectories (h : HasDirectory s path) :
    ∃ t, (FileAccess.makeDirectories (m := StateM σ) path).run s = (.ok (), t) ∧
      Unchanged s t := by
  rw [FileAccess.makeDirectories]
  cases hpaths : Path.ancestors path with
  | nil => exact ⟨s, rfl, Unchanged.refl s⟩
  | cons directory above =>
    have hleads : LeadsToDirectory s directory := h directory (by rw [hpaths]; rfl)
    obtain ⟨e, u, hmade, he, hsame⟩ := makeDirectory_again hleads
    obtain ⟨t, hfound, hlooked⟩ :=
      exists_run_orElseFound ((leadsToDirectory_of_unchanged hsame).mpr hleads) e
    refine ⟨t, run_bind_eq_iff.mpr ⟨_, u, hmade, ?_⟩, hsame.trans hlooked⟩
    split
    next heq => cases heq
    next heq => exact absurd (Except.error.inj heq) he
    next d _ heq =>
      obtain rfl := Except.error.inj heq
      exact hfound

/-! ## What stays: directories, and files that can be read -/

theorem preserves_leads_of_unchanged {x : StateM σ α} (hx : ∀ s, Unchanged s (x.run s).2) :
    Preserves (LeadsToDirectory · path) x :=
  fun s h => (leadsToDirectory_of_unchanged (hx s)).mpr h

theorem preserves_leads_makeDirectory (made : String) :
    Preserves (LeadsToDirectory · path) (FileAccess.makeDirectory (m := StateM σ) made) :=
  fun s ⟨place, h⟩ => ⟨place, makeDirectory_directoryPlace made s h⟩

theorem preserves_leads_write (written : String) (bytes : ByteArray) :
    Preserves (LeadsToDirectory · path) (FileAccess.write (m := StateM σ) written bytes) :=
  fun s ⟨place, h⟩ => ⟨place, write_directoryPlace written bytes s h⟩

theorem preserves_canRead_of_unchanged {x : StateM σ α} (hx : ∀ s, Unchanged s (x.run s).2) :
    Preserves (CanRead · path) x :=
  fun s h => (congrFun (hx s).readable path).mpr h

end LastingSystem
end CommandSchema
