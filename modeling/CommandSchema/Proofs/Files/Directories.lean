/-
Which files and directories change.

`DirectorySystem` says what requests do with directories.  Looking changes nothing at all
(`Unchanged`).  A request to write has nothing to do with directories, and whether it is granted or
refused, it changes the contents of no file but the one that its path leads to then.  A request to
make a directory makes at most the one that its path leads to then, and only where nothing was.

So what some requests to write and to make directories have changed is confined to the files and
the directories that their paths lead to (`Confined`): a state that is confined stays so under one
more request of those, whether it is granted or refused.
-/
import CommandSchema.Proofs.Files.Places

namespace CommandSchema

/-- The directories of a state, and the places of those that paths lead to. -/
class DirectoryView (σ : Type) [FileAccess (StateM σ)] extends PathSystem σ where
  IsDirectory : σ → Place → Prop
  /-- The place of the directory that a path leads to, if it leads to one. -/
  directoryPlace? : σ → String → Option Place

namespace DirectoryView

variable {σ : Type} [FileAccess (StateM σ)] [DirectoryView σ]

open FileSystem PathSystem

/-- A state with the files and the directories of an earlier one, in which every path leads where it
led, and can be read if it could be. -/
structure Unchanged (s t : σ) : Prop where
  files : file? t = file? s
  places : place? t = place? s
  directories : IsDirectory t = IsDirectory s
  directoryPlaces : directoryPlace? t = directoryPlace? s
  readable : CanRead t = CanRead s

theorem Unchanged.refl (s : σ) : Unchanged s s := ⟨rfl, rfl, rfl, rfl, rfl⟩

theorem Unchanged.trans {s t u : σ} (hst : Unchanged s t) (htu : Unchanged t u) :
    Unchanged s u where
  files := htu.files.trans hst.files
  places := htu.places.trans hst.places
  directories := htu.directories.trans hst.directories
  directoryPlaces := htu.directoryPlaces.trans hst.directoryPlaces
  readable := htu.readable.trans hst.readable

/-- A state that has the files of an earlier one but for the contents of those that certain paths
lead to, and its directories and those that certain others lead to, where nothing was before. -/
structure Confined (outputs directories : String → Prop) (s t : σ) : Prop where
  files : ∀ place, file? t place ≠ file? s place → ∃ path, outputs path ∧ place? t path = some place
  remain : ∀ place, file? t place = none → file? s place = none
  kept : ∀ place, IsDirectory s place → IsDirectory t place
  made : ∀ place, IsDirectory t place → ¬ IsDirectory s place →
    file? s place = none ∧ ∃ path, directories path ∧ directoryPlace? t path = some place
  places : ∀ {path place}, place? s path = some place → place? t path = some place
  directoryPlaces : ∀ {path place}, directoryPlace? s path = some place →
    directoryPlace? t path = some place

variable {outputs directories : String → Prop} {s t u : σ}

theorem Unchanged.confined (h : Unchanged s t) : Confined outputs directories s t where
  files place hne := absurd (congrFun h.files place) hne
  remain place hnone := by rwa [← h.files]
  kept place hdirectory := by rwa [h.directories]
  made place hdirectory hno := absurd (h.directories ▸ hdirectory) hno
  places hplace := by rwa [h.places]
  directoryPlaces hplace := by rwa [h.directoryPlaces]

theorem Confined.trans (hst : Confined outputs directories s t)
    (htu : Confined outputs directories t u) : Confined outputs directories s u where
  files place hne := by
    by_cases hsame : file? t place = file? s place
    · exact htu.files place (hsame ▸ hne)
    · obtain ⟨path, hpath, hplace⟩ := hst.files place hsame
      exact ⟨path, hpath, htu.places hplace⟩
  remain place hnone := hst.remain place (htu.remain place hnone)
  kept place hdirectory := htu.kept place (hst.kept place hdirectory)
  made place hdirectory hno := by
    by_cases hbetween : IsDirectory t place
    · obtain ⟨hnone, path, hpath, hplace⟩ := hst.made place hbetween hno
      exact ⟨hnone, path, hpath, htu.directoryPlaces hplace⟩
    · obtain ⟨hnone, hpath⟩ := htu.made place hdirectory hbetween
      exact ⟨hst.remain place hnone, hpath⟩
  places hplace := htu.places (hst.places hplace)
  directoryPlaces hplace := htu.directoryPlaces (hst.directoryPlaces hplace)

end DirectoryView

open FileSystem PathSystem DirectoryView in
/-- What requests do with directories, and that to look changes nothing. -/
class DirectorySystem (σ : Type) [FileAccess (StateM σ)] extends DirectoryView σ where
  read_unchanged (path : String) (s : σ) :
    Unchanged s ((FileAccess.read (m := StateM σ) path).run s).2
  isFile_unchanged (path : String) (s : σ) :
    Unchanged s ((FileAccess.isFile (m := StateM σ) path).run s).2
  isDirectory_unchanged (path : String) (s : σ) :
    Unchanged s ((FileAccess.isDirectory (m := StateM σ) path).run s).2
  write_directories (path : String) (bytes : ByteArray) (s : σ) :
    IsDirectory ((FileAccess.write (m := StateM σ) path bytes).run s).2 = IsDirectory s
  write_directoryPlace {p : String} {place : Place} (path : String) (bytes : ByteArray) (s : σ) :
    directoryPlace? s p = some place →
      directoryPlace? ((FileAccess.write (m := StateM σ) path bytes).run s).2 p = some place
  makeDirectory_kept {place : Place} (path : String) (s : σ) : IsDirectory s place →
    IsDirectory ((FileAccess.makeDirectory (m := StateM σ) path).run s).2 place
  makeDirectory_made {path : String} {place : Place} {s t : σ} {made : Except FileError Unit} :
    (FileAccess.makeDirectory (m := StateM σ) path).run s = (made, t) →
      IsDirectory t place → ¬ IsDirectory s place →
        file? s place = none ∧ directoryPlace? t path = some place
  makeDirectory_directoryPlace {p : String} {place : Place} (path : String) (s : σ) :
    directoryPlace? s p = some place →
      directoryPlace? ((FileAccess.makeDirectory (m := StateM σ) path).run s).2 p = some place

namespace DirectorySystem

open FileSystem PathSystem DirectoryView

variable {σ : Type} [FileAccess (StateM σ)] [DirectorySystem σ]
  {outputs directories : String → Prop}

theorem confined_of_write {path : String} (hpath : outputs path) (bytes : ByteArray) (s : σ) :
    Confined outputs directories s
      ((FileAccess.write (m := StateM σ) path bytes).run s).2 where
  files place hne := ⟨path, hpath, (write_changed rfl hne).1⟩
  remain place hnone := by
    by_contra hfile
    have hchanged : file? ((FileAccess.write (m := StateM σ) path bytes).run s).2 place ≠
        file? s place := by
      rw [hnone]
      exact Ne.symm hfile
    exact (write_changed rfl hchanged).2 hnone
  kept place hdirectory := by rwa [write_directories]
  made place hdirectory hno := by
    rw [write_directories] at hdirectory
    exact absurd hdirectory hno
  places hplace := write_steady path bytes s hplace
  directoryPlaces hplace := write_directoryPlace path bytes s hplace

theorem confined_of_makeDirectory {path : String} (hpath : directories path) (s : σ) :
    Confined outputs directories s
      ((FileAccess.makeDirectory (m := StateM σ) path).run s).2 where
  files place hne := absurd (congrFun (makeDirectory_keeps path s) place) hne
  remain place hnone := by rwa [makeDirectory_keeps] at hnone
  kept place hdirectory := makeDirectory_kept path s hdirectory
  made place hdirectory hno := by
    obtain ⟨hnone, hplace⟩ := makeDirectory_made rfl hdirectory hno
    exact ⟨hnone, path, hpath, hplace⟩
  places hplace := makeDirectory_steady path s hplace
  directoryPlaces hplace := makeDirectory_directoryPlace path s hplace

end DirectorySystem
end CommandSchema
