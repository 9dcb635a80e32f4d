/-
Settings that are saved and loaded again.

A document has only paths that are texts, so settings with any other path are not saved
(`save_run_of_notText`).  Saving writes the auxiliary paths as they are, and loading sees the
relative ones from the directory of the file (`exists_run_save_load`).  So settings come back as
they were when all of their paths are absolute or when the file is named without a directory
(`seenFrom_eq_self`), however often they are saved and loaded (`exists_run_reload`).  The same goes
for settings that have been loaded from a file which is named from the root, since all of their
paths are absolute then.

Settings that have been loaded from a relative path have seen their own paths from there already.
What becomes of these when the settings are saved there again is left open (`Resolves`).

What is written in YAML is taken to be read back as it was written (`ReadsBack`).
-/
import CommandSchema.Loading
import CommandSchema.Proofs.Files.Paths
import CommandSchema.Proofs.Files.Tree
import CommandSchema.Proofs.Text.Utf8
import Mathlib.Data.List.Forall2

namespace CommandSchema

/-! ## Paths of a system -/

namespace SystemPath

theorem text?_ofText (text : String) : (ofText text).text? = some text := by
  unfold text? ofText String.fromUTF8?
  rw [String.toUTF8_eq_toByteArray, dif_pos text.isValidUTF8]
  rfl

theorem ofText_of_text? {path : SystemPath} {text : String} (h : path.text? = some text) :
    ofText text = path := by
  unfold text? String.fromUTF8? at h
  split at h
  next =>
    obtain rfl := Option.some.inj h
    rfl
  next => cases h

theorem exists_map_ofText {paths : List SystemPath} (h : ∀ path ∈ paths, path.text? ≠ none) :
    ∃ texts : List String, texts.map ofText = paths := by
  induction paths with
  | nil => exact ⟨[], rfl⟩
  | cons path rest ih =>
    rw [List.forall_mem_cons] at h
    obtain ⟨text, htext⟩ := Option.ne_none_iff_exists'.mp h.1
    obtain ⟨texts, htexts⟩ := ih h.2
    exact ⟨text :: texts, by rw [List.map_cons, ofText_of_text? htext, htexts]⟩

theorem mapM_text?_map_ofText (texts : List String) :
    (texts.map ofText).mapM text? = some texts := by
  induction texts with
  | nil => rfl
  | cons text rest ih =>
    rw [List.map_cons, List.mapM_cons, text?_ofText, ih]
    rfl

theorem mapM_text?_eq_none {paths : List SystemPath} (h : ∃ path ∈ paths, path.text? = none) :
    paths.mapM text? = none := by
  induction paths with
  | nil =>
    obtain ⟨path, hpath, -⟩ := h
    cases hpath
  | cons path rest ih =>
    rw [List.mapM_cons]
    cases htext : path.text? with
    | none => rfl
    | some text =>
      obtain ⟨other, hother, hnone⟩ := h
      rcases List.mem_cons.mp hother with rfl | hrest
      · cases hnone.symm.trans htext
      · rw [ih ⟨other, hrest, hnone⟩]
        rfl

end SystemPath

namespace Settings

open FileSystem PathSystem

theorem texts?_held (s : Settings) : s.held.texts? = some s := by
  rw [texts?, held, SystemPath.mapM_text?_map_ofText]
  rfl

theorem held_injective {s t : Settings} (h : s.held = t.held) : s = t := by
  have htexts := congrArg texts? h
  rw [texts?_held, texts?_held] at htexts
  exact Option.some.inj htexts

theorem text?_ne_none_of_held (s : Settings) : ∀ path ∈ s.held.auxiliary, path.text? ≠ none := by
  intro path hpath
  obtain ⟨text, -, rfl⟩ := List.mem_map.mp hpath
  rw [SystemPath.text?_ofText]
  exact Option.some_ne_none text

theorem texts?_eq_none {c : Settings SystemPath} (h : ∃ path ∈ c.auxiliary, path.text? = none) :
    c.texts? = none := by
  rw [texts?, SystemPath.mapM_text?_eq_none h]
  rfl

/-- Settings all of whose paths are texts are those of some document, as a system holds them. -/
theorem exists_held {c : Settings SystemPath} (h : ∀ path ∈ c.auxiliary, path.text? ≠ none) :
    ∃ s : Settings, s.held = c := by
  obtain ⟨texts, htexts⟩ := SystemPath.exists_map_ofText h
  exact ⟨⟨c.runtimeInclude, c.generatorName, texts⟩, by rw [held, htexts]⟩

/-- Settings whose document is read as them. -/
def ReadsBack (s : Settings) : Prop := ofGlyphs (Glyph.ofText s.toYaml) = .ok s

instance : DecidablePred ReadsBack := fun s =>
  decidable_of_iff ((ofGlyphs (Glyph.ofText s.toYaml)).toOption = some s) (by
    rw [ReadsBack]
    cases ofGlyphs (Glyph.ofText s.toYaml) with
    | error fault => exact iff_of_false nofun nofun
    | ok read =>
      exact ⟨fun h => congrArg Except.ok (Option.some.inj h),
        fun h => congrArg some (Except.ok.inj h)⟩)

/-! ## Paths seen from a directory -/

/-- What the path that a document has becomes when the document is loaded from a directory.  An
absolute path stays as it is, and a relative one is seen from the directory; nothing is said of
those that have been seen from it before. -/
structure Resolves (base written loaded : String) : Prop where
  kept : base = "" ∨ Path.isAbsolute written = true → loaded = written
  seen : (∀ inner, written ≠ Path.join base inner) → loaded = Path.join base written

theorem resolves_join (base path : String) : Resolves base path (Path.join base path) where
  kept := Path.join_eq_self_iff.mpr
  seen _ := rfl

/-- Nothing changes when settings are seen from a directory if they have no relative path or if
there is no directory. -/
theorem seenFrom_eq_self {base : String} {c : Settings}
    (h : base = "" ∨ ∀ path ∈ c.auxiliary, Path.isAbsolute path = true) : c.seenFrom base = c := by
  have hpaths : c.auxiliary.map (Path.join base) = c.auxiliary := by
    have hsame : ∀ path ∈ c.auxiliary, Path.join base path = id path := fun path hpath =>
      Path.join_eq_self_iff.mpr (h.imp_right fun habsolute => habsolute path hpath)
    rw [List.map_congr_left hsame, List.map_id]
  rw [seenFrom, hpaths]

theorem isAbsolute_of_seenFrom {base : String} (h : Path.isAbsolute base = true) (c : Settings) :
    ∀ path ∈ (c.seenFrom base).auxiliary, Path.isAbsolute path = true := by
  intro path hpath
  obtain ⟨original, -, rfl⟩ := List.mem_map.mp hpath
  exact Path.isAbsolute_join h

/-! ## Saving and loading -/

section Runs

variable {σ : Type} [FileAccess (StateM σ)] {path : String} {s t : σ}

theorem save_run {c : Settings}
    (h : (FileAccess.write (m := StateM σ) path c.toYaml.toUTF8).run s = (.ok (), t)) :
    (c.held.save (m := StateM σ) path).run s = (.ok (), t) := by
  rw [save, texts?_held]
  exact run_bind_eq_iff.mpr ⟨_, t, h, rfl⟩

theorem save_run_of_notText {c : Settings SystemPath}
    (hpaths : ∃ path ∈ c.auxiliary, path.text? = none)
    (h : (FileAccess.write (m := StateM σ) path "".toUTF8).run s = (.ok (), t)) :
    (c.save (m := StateM σ) path).run s = (.error (.yaml notText), t) := by
  rw [save, texts?_eq_none hpaths]
  exact run_bind_eq_iff.mpr ⟨_, t, h, rfl⟩

theorem load_run {bytes : ByteArray}
    (h : (FileAccess.read (m := StateM σ) path).run s = (.ok bytes, t)) :
    (load (m := StateM σ) path).run s = (ofBytes (Path.directory path) bytes, t) :=
  run_bind_eq_iff.mpr ⟨_, t, h, rfl⟩

theorem ofBytes_toYaml {base : String} {c : Settings} (h : c.ReadsBack) :
    ofBytes base c.toYaml.toUTF8 = .ok (c.seenFrom base) := by
  rw [ofBytes, Glyph.ofBytes_toUTF8, h]

/-- Settings that have been loaded are those of a document, seen from the directory of the file. -/
theorem exists_of_load {c : Settings} (h : (load (m := StateM σ) path).run s = (.ok c, t)) :
    ∃ written : Settings, c = written.seenFrom (Path.directory path) := by
  obtain ⟨found, u, -, hrest⟩ := run_bind_eq_iff.mp h
  cases found with
  | error e =>
    cases e <;> cases (Prod.mk.inj hrest).1
  | ok bytes =>
    obtain ⟨hbytes, -⟩ := Prod.mk.inj hrest
    unfold ofBytes at hbytes
    split at hbytes
    · cases hbytes
    · next written _ => exact ⟨written, (Except.ok.inj hbytes).symm⟩

/-- Saves settings and loads them again, several times over. -/
def reload (path : String) : Nat → Settings → StateM σ (Except LoadFault Settings)
  | 0, c => return .ok c
  | n + 1, c => do
    match ← c.held.save path with
    | .error fault => return .error fault
    | .ok () =>
      match ← load path with
      | .error fault => return .error fault
      | .ok c => reload path n c

variable [PathSystem σ]

/-- Settings that have been saved are loaded with their paths seen from the directory of the file,
which can still be written and read. -/
theorem exists_run_save_load {c : Settings} (h : Rewritable path s) (hyaml : c.ReadsBack) :
    ∃ t u, (c.held.save (m := StateM σ) path).run s = (.ok (), t) ∧
      (load (m := StateM σ) path).run t = (.ok (c.seenFrom (Path.directory path)), u) ∧
      Rewritable path u := by
  obtain ⟨t, u, hwrite, hread, hu⟩ := h.exists_run c.toYaml.toUTF8
  refine ⟨t, u, save_run hwrite, ?_, hu⟩
  rw [load_run hread, ofBytes_toYaml hyaml]

theorem exists_run_reload {c : Settings} (h : Rewritable path s) (hyaml : c.ReadsBack)
    (hfixed : c.seenFrom (Path.directory path) = c) (n : Nat) :
    ∃ t, (reload path n c).run s = (.ok c, t) := by
  induction n generalizing s with
  | zero => exact ⟨s, rfl⟩
  | succ n ih =>
    obtain ⟨t, u, hsave, hload, hu⟩ := exists_run_save_load h hyaml
    rw [hfixed] at hload
    obtain ⟨v, hrest⟩ := ih hu
    exact ⟨v, run_bind_eq_iff.mpr ⟨_, t, hsave, run_bind_eq_iff.mpr ⟨_, u, hload, hrest⟩⟩⟩

end Runs

/-! ## A directory with settings -/

/-- Settings with two auxiliary paths, of which the second is absolute. -/
def withAux (aux : String) : Settings := ⟨"R.h", "g", [aux, "/b.json"]⟩

/-- Settings with an auxiliary path that no text has. -/
def withByte : Settings SystemPath := ⟨"R.h", "g", [⟨⟨#[0xff]⟩⟩]⟩

/-- A tree with an empty directory. -/
def confTree : Tree := { entries := [(["conf"], .directory)] }

/-- Settings that are loaded with the path of a document seen from an absolute directory. -/
theorem eq_withAux {base aux : String} {d : Settings} (hbase : Path.isAbsolute base = true)
    (haux : Path.isAbsolute aux = false) (hruntime : d.runtimeInclude = "R.h")
    (hname : d.generatorName = "g")
    (h : List.Forall₂ (Resolves base) [aux, "/b.json"] d.auxiliary) :
    d = withAux (Path.join base aux) := by
  have hfirst (loaded : String) (hloaded : Resolves base aux loaded) :
      loaded = Path.join base aux := by
    refine hloaded.seen fun inner heq => ?_
    have habsolute : Path.isAbsolute aux = true := heq ▸ Path.isAbsolute_join hbase
    cases haux.symm.trans habsolute
  obtain ⟨first, rest, hhead, hrest, hauxiliary⟩ := List.forall₂_cons_left_iff.mp h
  obtain ⟨second, others, hsecond, hnil, rfl⟩ := List.forall₂_cons_left_iff.mp hrest
  obtain rfl := List.forall₂_nil_left_iff.mp hnil
  obtain rfl := hfirst first hhead
  obtain rfl := hsecond.kept (Or.inr (by decide))
  rw [withAux, ← hruntime, ← hname, ← hauxiliary]

/-- A tree with a file of settings that can be written but not read. -/
def closedTree : Tree :=
  { entries := [(["conf"], .directory), (["conf", "c.yml"], .file "".toUTF8)]
    closed := [["conf", "c.yml"]] }

end Settings
end CommandSchema
