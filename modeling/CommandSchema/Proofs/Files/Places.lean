/-
Where the files are that paths lead to.

Several paths may lead to one file: by points and double points, by links, or by a directory that
has two names.  `PathSystem` says at which place the file of a path is, and what may be relied on.
A path that leads to a file keeps on leading to it, whatever is asked for, since nothing is ever
moved or taken away; what is read of a path is in its file, and what is written to it is there
afterwards.  A request to write changes that one file, and a request that fails none but that.

So after a text has been written to a path, that path leads to a file with the text, every path
still leads to the file it led to, and every other file is as it was (`Updated`).  Whether an
earlier text outlasts a later one is then a matter of places alone (`Updated.holds_iff`).
-/
import CommandSchema.Proofs.Files.System

namespace CommandSchema

/-- The places of the files that paths lead to, and what requests do with them. -/
class PathSystem (σ : Type) [FileAccess (StateM σ)] extends FileSystem σ where
  /-- The place of the file that a path leads to, if it leads to one. -/
  place? : σ → String → Option Place
  read_steady {p : String} {place : Place} (path : String) (s : σ) : place? s p = some place →
    place? ((FileAccess.read (m := StateM σ) path).run s).2 p = some place
  isDirectory_steady {p : String} {place : Place} (path : String) (s : σ) :
    place? s p = some place →
      place? ((FileAccess.isDirectory (m := StateM σ) path).run s).2 p = some place
  makeDirectory_steady {p : String} {place : Place} (path : String) (s : σ) :
    place? s p = some place →
      place? ((FileAccess.makeDirectory (m := StateM σ) path).run s).2 p = some place
  write_steady {p : String} {place : Place} (path : String) (bytes : ByteArray) (s : σ) :
    place? s p = some place →
      place? ((FileAccess.write (m := StateM σ) path bytes).run s).2 p = some place
  read_place {path : String} {bytes : ByteArray} {s t : σ} :
    (FileAccess.read (m := StateM σ) path).run s = (.ok bytes, t) →
      ∃ place, place? t path = some place ∧ file? t place = some bytes
  write_place {path : String} {bytes : ByteArray} {s t : σ} :
    (FileAccess.write (m := StateM σ) path bytes).run s = (.ok (), t) →
      ∃ place, place? t path = some place ∧ file? t place = some bytes
  write_changed {path : String} {bytes : ByteArray} {s t : σ} {written : Except FileError Unit}
      {place : Place} : (FileAccess.write (m := StateM σ) path bytes).run s = (written, t) →
    file? t place ≠ file? s place → place? t path = some place ∧ file? t place ≠ none

namespace PathSystem

open FileSystem

variable {σ : Type} [FileAccess (StateM σ)] [PathSystem σ]

/-- A path leads to a file with the given contents. -/
def Holds (s : σ) (path : String) (bytes : ByteArray) : Prop :=
  ∃ place, place? s path = some place ∧ file? s place = some bytes

theorem Holds.unique {s : σ} {path other : String} {a b : ByteArray} (ha : Holds s path a)
    (hb : Holds s other b) (hplace : place? s path = place? s other) : a = b := by
  obtain ⟨place, hpath, hfile⟩ := ha
  obtain ⟨same, hother, hcontents⟩ := hb
  rw [← hplace, hpath] at hother
  obtain rfl := Option.some.inj hother
  exact Option.some.inj (hfile.symm.trans hcontents)

/-- A state in which a path leads to a file with the given contents, and everything else is as in
an earlier state. -/
structure Updated (path : String) (bytes : ByteArray) (s t : σ) : Prop where
  steady : ∀ {p place}, place? s p = some place → place? t p = some place
  holds : Holds t path bytes
  others : ∀ place, place? t path ≠ some place → file? t place = file? s place

/-- What has been in a file before is there afterwards exactly when the file that has been updated
is another one. -/
theorem Updated.holds_iff {path earlier : String} {bytes before : ByteArray} {s t : σ}
    (h : Updated path bytes s t) (hbefore : Holds s earlier before) (hne : before ≠ bytes) :
    Holds t earlier before ↔ place? t earlier ≠ place? t path := by
  constructor
  · intro hafter hplace
    exact hne (hafter.unique h.holds hplace)
  · intro hplace
    obtain ⟨place, hearlier, hfile⟩ := hbefore
    have hsteady : place? t earlier = some place := h.steady hearlier
    refine ⟨place, hsteady, ?_⟩
    rw [h.others place (hsteady ▸ hplace.symm), hfile]

/-- A state in which every file is as in an earlier one, and every path still leads to the file it
led to. -/
structure Undisturbed (s t : σ) : Prop where
  files : file? t = file? s
  places : ∀ {p place}, place? s p = some place → place? t p = some place

theorem Updated.after {path : String} {bytes : ByteArray} {s t u : σ} (h : Updated path bytes t u)
    (hst : Undisturbed s t) : Updated path bytes s u where
  steady hp := h.steady (hst.places hp)
  holds := h.holds
  others place hplace := by rw [h.others place hplace, hst.files]

theorem undisturbed_of_read {path : String} {s t : σ} {found : Except FileError ByteArray}
    (h : (FileAccess.read (m := StateM σ) path).run s = (found, t)) : Undisturbed s t where
  files := (keeps_read path).eq h
  places hp := by
    have hsteady := read_steady path s hp
    rwa [h] at hsteady

theorem updated_of_write {path : String} {bytes : ByteArray} {s t : σ}
    (h : (FileAccess.write (m := StateM σ) path bytes).run s = (.ok (), t)) :
    Updated path bytes s t := by
  refine ⟨fun {p q} hp => ?_, write_place h, fun other hother => ?_⟩
  · have hsteady := write_steady path bytes s hp
    rwa [h] at hsteady
  · by_contra hchanged
    exact hother (write_changed h hchanged).1

/-- A text that is there already need not be written. -/
theorem updated_of_writeIfChanged {path text : String} {s t : σ} {written : Bool}
    (h : (FileAccess.writeIfChanged (m := StateM σ) path text).run s = (.ok written, t)) :
    Updated path text.toUTF8 s t := by
  obtain ⟨found, u, hread, hrest⟩ := run_bind_eq_iff.mp h
  have hlooked : Undisturbed s u := undisturbed_of_read hread
  cases found with
  | error e =>
    obtain ⟨_, hwrite, -⟩ := run_map_eq_ok.mp hrest
    exact (updated_of_write hwrite).after hlooked
  | ok bytes =>
    by_cases hsame : bytes.data = text.toUTF8.data
    · simp only [hsame, if_true] at hrest
      obtain ⟨-, rfl⟩ := Prod.mk.inj hrest
      obtain ⟨place, hplace, hfile⟩ := read_place hread
      rw [ByteArray.ext hsame] at hfile
      exact ⟨hlooked.places, ⟨place, hplace, hfile⟩, fun other _ => by rw [hlooked.files]⟩
    · simp only [hsame, if_false] at hrest
      obtain ⟨_, hwrite, -⟩ := run_map_eq_ok.mp hrest
      exact (updated_of_write hwrite).after hlooked

/-! ## Reading what is there -/

theorem holds_of_undisturbed {path : String} {bytes : ByteArray} {s t : σ} (h : Undisturbed s t)
    (hs : Holds s path bytes) : Holds t path bytes := by
  obtain ⟨place, hplace, hfile⟩ := hs
  exact ⟨place, h.places hplace, by rw [h.files, hfile]⟩

/-- What is read of a path that can be read is what its file holds. -/
theorem exists_run_read_of_holds {path : String} {bytes : ByteArray} {s : σ}
    (h : Holds s path bytes) (hread : CanRead s path) :
    ∃ t, (FileAccess.read (m := StateM σ) path).run s = (.ok bytes, t) := by
  obtain ⟨found, t, hfound⟩ := hread
  have hafter : Holds t path bytes := holds_of_undisturbed (undisturbed_of_read hfound) h
  obtain rfl : found = bytes := Holds.unique (read_place hfound) hafter rfl
  exact ⟨t, hfound⟩

/-- A path that can be written whatever the contents, and read then, however often it has been
written and read before. -/
def Rewritable (path : String) (s : σ) : Prop :=
  ∃ I : σ → Prop, I s ∧ Preserves I (FileAccess.read (m := StateM σ) path) ∧
    ∀ u, I u → ∀ bytes, ∃ t, (FileAccess.write (m := StateM σ) path bytes).run u = (.ok (), t) ∧
      I t ∧ CanRead t path

/-- What has been written to such a path is read, and the path can be written again. -/
theorem Rewritable.exists_run {path : String} {s : σ} (h : Rewritable path s) (bytes : ByteArray) :
    ∃ t u, (FileAccess.write (m := StateM σ) path bytes).run s = (.ok (), t) ∧
      (FileAccess.read (m := StateM σ) path).run t = (.ok bytes, u) ∧ Rewritable path u := by
  obtain ⟨I, hs, hkept, hwrite⟩ := h
  obtain ⟨t, hwritten, ht, hreadable⟩ := hwrite s hs bytes
  obtain ⟨u, hread⟩ := exists_run_read_of_holds (updated_of_write hwritten).holds hreadable
  have hu : I u := by
    have hlooked := hkept t ht
    rwa [hread] at hlooked
  exact ⟨t, u, hwritten, hread, I, hu, hkept, hwrite⟩

end PathSystem
end CommandSchema
