/-
What a file system does with its files.

`FileSystem` says what may be relied on.  Only a request to write changes what is in a file, and one
that succeeds gives one file its new contents.  When a request fails is left open, so a disk may be
full and a directory may be closed at any moment, and so is what a failing write leaves behind.
`AtomicSystem` adds that it leaves every file as it was.

From this follows what the compositions of requests do.  Whatever property of a state outlasts each
request outlasts the making of directories (`Preserves`).  Looking at files, and making directories,
keep every file (`Keeps`).  Where writes are atomic, writing a text, with whatever looking comes
before it, is a `Store`: it fails with every file as it was, or it leaves its text in one file and
every other file alone.
-/
import CommandSchema.Files.Access
import CommandSchema.Proofs.Outcome

namespace CommandSchema

/-- The files of a state, and what requests do with them. -/
class FileSystem (σ : Type) [FileAccess (StateM σ)] where
  Place : Type
  /-- What is in the file at a place, if there is one. -/
  file? : σ → Place → Option ByteArray
  read_keeps (path : String) (s : σ) :
    file? ((FileAccess.read (m := StateM σ) path).run s).2 = file? s
  isFile_keeps (path : String) (s : σ) :
    file? ((FileAccess.isFile (m := StateM σ) path).run s).2 = file? s
  isDirectory_keeps (path : String) (s : σ) :
    file? ((FileAccess.isDirectory (m := StateM σ) path).run s).2 = file? s
  makeDirectory_keeps (path : String) (s : σ) :
    file? ((FileAccess.makeDirectory (m := StateM σ) path).run s).2 = file? s
  write_ok {path : String} {bytes : ByteArray} {s t : σ} :
    (FileAccess.write (m := StateM σ) path bytes).run s = (.ok (), t) →
      ∃ place, file? t place = some bytes ∧ ∀ other, other ≠ place → file? t other = file? s other

/-- File systems in which a write is done completely or not at all. -/
class AtomicSystem (σ : Type) [FileAccess (StateM σ)] extends FileSystem σ where
  write_error {path : String} {bytes : ByteArray} {s t : σ} {e : FileError} :
    (FileAccess.write (m := StateM σ) path bytes).run s = (.error e, t) → file? t = file? s

namespace FileSystem

variable {σ α β ε δ : Type}

theorem run_bind_eq_iff {x : StateM σ α} {f : α → StateM σ β} {s u : σ} {b : β} :
    (x >>= f).run s = (b, u) ↔ ∃ a t, x.run s = (a, t) ∧ (f a).run t = (b, u) := by
  constructor
  · intro h
    exact ⟨(x.run s).1, (x.run s).2, rfl, h⟩
  · rintro ⟨a, t, hx, hf⟩
    rw [StateT.run_bind, hx]
    exact hf

/-- A stage that hands on the fault of the one before it succeeds only behind its success. -/
theorem run_bind_eq_ok {x : StateM σ (Except ε α)} {f : Except ε α → StateM σ (Except δ β)}
    {s t : σ} {b : β} (h : (x >>= f).run s = (.ok b, t))
    (herror : ∀ e u, ∃ d, (f (.error e)).run u = (.error d, u)) :
    ∃ a u, x.run s = (.ok a, u) ∧ (f (.ok a)).run u = (.ok b, t) := by
  obtain ⟨r, u, hx, hf⟩ := run_bind_eq_iff.mp h
  cases r with
  | error e =>
    obtain ⟨d, hd⟩ := herror e u
    cases (Prod.mk.inj (hd.symm.trans hf)).1
  | ok a => exact ⟨a, u, hx, hf⟩

/-- A computation whose answer is put in other words. -/
theorem run_return_eq_iff {x : StateM σ α} {f : α → β} {s t : σ} {b : β} :
    (do return f (← x) : StateM σ β).run s = (b, t) ↔ ∃ a, x.run s = (a, t) ∧ f a = b := by
  rw [run_bind_eq_iff]
  constructor
  · rintro ⟨a, u, hx, hanswer⟩
    obtain ⟨rfl, rfl⟩ := Prod.mk.inj hanswer
    exact ⟨a, hx, rfl⟩
  · rintro ⟨a, hx, rfl⟩
    exact ⟨a, t, hx, rfl⟩

theorem run_map_eq_ok {x : StateM σ (Except ε α)} {f : α → β} {s t : σ} {b : β} :
    (do return (← x).map f : StateM σ (Except ε β)).run s = (.ok b, t) ↔
      ∃ a, x.run s = (.ok a, t) ∧ f a = b := by
  simp only [run_return_eq_iff, Outcome.map_eq_ok_iff]
  constructor
  · rintro ⟨_, hx, a, rfl, ha⟩
    exact ⟨a, hx, ha⟩
  · rintro ⟨a, hx, ha⟩
    exact ⟨_, hx, a, rfl, ha⟩

theorem run_map_eq_error {x : StateM σ (Except ε α)} {f : α → β} {s t : σ} {e : ε} :
    (do return (← x).map f : StateM σ (Except ε β)).run s = (.error e, t) ↔
      x.run s = (.error e, t) := by
  simp only [run_return_eq_iff, Outcome.map_eq_error_iff, exists_eq_right]

theorem run_mapError_eq_ok {x : StateM σ (Except ε α)} {f : ε → δ} {s t : σ} {a : α} :
    (do return (← x).mapError f : StateM σ (Except δ α)).run s = (.ok a, t) ↔
      x.run s = (.ok a, t) := by
  simp only [run_return_eq_iff, Outcome.mapError_eq_ok_iff, exists_eq_right]

/-! ## What is preserved -/

section Preserves

variable {I : σ → Prop}

/-- A computation that leaves a property of the state in force. -/
def Preserves (I : σ → Prop) (x : StateM σ α) : Prop := ∀ s, I s → I (x.run s).2

theorem preserves_pure (a : α) : Preserves I (pure a : StateM σ α) := fun _ h => h

theorem Preserves.bind {x : StateM σ α} {f : α → StateM σ β} (hx : Preserves I x)
    (hf : ∀ a, Preserves I (f a)) : Preserves I (x >>= f) :=
  fun s h => hf (x.run s).1 (x.run s).2 (hx s h)

/-- Something after a computation that may fail, and nothing after its failure. -/
theorem Preserves.andThen {x : StateM σ (Except ε α)} {f : Except ε α → StateM σ β}
    (hx : Preserves I x) (herror : ∀ e, ∃ b, f (.error e) = pure b)
    (hok : ∀ a, Preserves I (f (.ok a))) : Preserves I (x >>= f) := by
  refine hx.bind fun r => ?_
  cases r with
  | error e =>
    obtain ⟨b, hb⟩ := herror e
    rw [hb]
    exact preserves_pure b
  | ok a => exact hok a

variable [FileAccess (StateM σ)]

theorem preserves_writeIfChanged {path : String}
    (hread : Preserves I (FileAccess.read (m := StateM σ) path))
    (hwrite : ∀ bytes, Preserves I (FileAccess.write (m := StateM σ) path bytes)) (text : String) :
    Preserves I (FileAccess.writeIfChanged (m := StateM σ) path text) := by
  have hanswer := (hwrite text.toUTF8).bind fun written =>
    preserves_pure (I := I) (written.map fun () => true)
  refine hread.bind fun found => ?_
  cases found with
  | error e => exact hanswer
  | ok bytes =>
    by_cases hsame : bytes.data = text.toUTF8.data
    · simp only [hsame, if_true]
      exact preserves_pure _
    · simp only [hsame, if_false]
      exact hanswer

variable (hfind : ∀ path, Preserves I (FileAccess.isDirectory (m := StateM σ) path))

include hfind

/-- The end of a request to make a directory that may be there already. -/
theorem preserves_unlessDirectory (path : String) (e : FileError) :
    Preserves I (do if ← FileAccess.isDirectory (m := StateM σ) path then return .ok () else
      return (.error e : Except FileError Unit)) := by
  refine (hfind path).bind fun found => ?_
  cases found with
  | true => exact preserves_pure _
  | false => exact preserves_pure _

theorem preserves_ensureDirectory {path : String}
    (hmake : Preserves I (FileAccess.makeDirectory (m := StateM σ) path)) :
    Preserves I (FileAccess.ensureDirectory (m := StateM σ) path) := by
  refine hmake.bind fun made => ?_
  cases made with
  | ok => exact preserves_pure _
  | error e => exact preserves_unlessDirectory hfind path e

theorem preserves_ensureAll {paths : List String}
    (hmake : ∀ path ∈ paths, Preserves I (FileAccess.makeDirectory (m := StateM σ) path)) :
    Preserves I (FileAccess.ensureAll (m := StateM σ) paths) := by
  induction paths with
  | nil => exact preserves_pure _
  | cons path above ih =>
    rw [List.forall_mem_cons] at hmake
    refine hmake.1.bind fun made => ?_
    split
    next => exact preserves_pure _
    next =>
      refine (ih hmake.2).bind fun ensured => ?_
      cases ensured with
      | ok => exact preserves_ensureDirectory hfind hmake.1
      | error e => exact preserves_pure _
    next e _ => exact preserves_unlessDirectory hfind path e

theorem preserves_makeDirectories {path : String} (hmake : ∀ directory ∈ Path.ancestors path,
      Preserves I (FileAccess.makeDirectory (m := StateM σ) directory)) :
    Preserves I (FileAccess.makeDirectories (m := StateM σ) path) :=
  preserves_ensureAll hfind hmake

end Preserves

variable [FileAccess (StateM σ)]

/-- A path that can be read. -/
def CanRead (s : σ) (path : String) : Prop :=
  ∃ bytes t, (FileAccess.read (m := StateM σ) path).run s = (.ok bytes, t)

variable [FileSystem σ]

/-! ## Looking and making directories -/

/-- A computation after which every file is as it was. -/
def Keeps (x : StateM σ α) : Prop := ∀ s, file? (x.run s).2 = file? s

theorem keeps_pure (a : α) : Keeps (pure a : StateM σ α) := fun _ => rfl

theorem Keeps.eq {x : StateM σ α} (hx : Keeps x) {s t : σ} {a : α} (h : x.run s = (a, t)) :
    file? t = file? s := by
  have hkeeps := hx s
  rwa [h] at hkeeps

theorem Keeps.preserves {x : StateM σ α} (hx : Keeps x)
    (files : FileSystem.Place σ → Option ByteArray) : Preserves (fun s => file? s = files) x :=
  fun s h => (hx s).trans h

theorem keeps_of_preserves {x : StateM σ α}
    (h : ∀ files : FileSystem.Place σ → Option ByteArray, Preserves (fun s => file? s = files) x) :
    Keeps x := fun s => h (file? s) s rfl

theorem keeps_read (path : String) : Keeps (FileAccess.read (m := StateM σ) path) :=
  read_keeps path

theorem keeps_isFile (path : String) : Keeps (FileAccess.isFile (m := StateM σ) path) :=
  isFile_keeps path

theorem keeps_isDirectory (path : String) : Keeps (FileAccess.isDirectory (m := StateM σ) path) :=
  isDirectory_keeps path

theorem keeps_makeDirectory (path : String) :
    Keeps (FileAccess.makeDirectory (m := StateM σ) path) :=
  makeDirectory_keeps path

/-! ## Writing -/

/-- A state with some contents in one file, and every other file as in an earlier state. -/
def Stored (bytes : ByteArray) (s t : σ) : Prop :=
  ∃ place, file? t place = some bytes ∧ ∀ other, other ≠ place → file? t other = file? s other

/-- A computation that fails with every file as it was, or leaves what its answer says in one file,
unless it was there already. -/
structure Store (contents : α → ByteArray) (x : StateM σ (Except ε α)) : Prop where
  error : ∀ {s t e}, x.run s = (.error e, t) → file? t = file? s
  ok : ∀ {s t a}, x.run s = (.ok a, t) → file? t = file? s ∨ Stored (contents a) s t

theorem store_pure (contents : α → ByteArray) (r : Except ε α) :
    Store contents (pure r : StateM σ (Except ε α)) where
  error := fun h => (keeps_pure (σ := σ) _).eq h
  ok := fun h => Or.inl ((keeps_pure (σ := σ) _).eq h)

/-- Looking before a store. -/
theorem Store.after {contents : β → ByteArray} {x : StateM σ α} {f : α → StateM σ (Except ε β)}
    (hx : Keeps x) (hf : ∀ a, Store contents (f a)) : Store contents (x >>= f) where
  error := fun h => by
    obtain ⟨a, u, hrun, hrest⟩ := run_bind_eq_iff.mp h
    rw [(hf a).error hrest, hx.eq hrun]
  ok := fun h => by
    obtain ⟨a, u, hrun, hrest⟩ := run_bind_eq_iff.mp h
    have hsame := hx.eq hrun
    rw [← hsame]
    rcases (hf a).ok hrest with hkept | ⟨place, hplace, hothers⟩
    · exact Or.inl hkept
    · exact Or.inr ⟨place, hplace, fun other hother => by rw [hothers other hother, hsame]⟩

/-- Another answer after a store, of the same kind. -/
theorem Store.answer {contents : α → ByteArray} {others : β → ByteArray}
    {x : StateM σ (Except ε α)} {f : Except ε α → StateM σ (Except δ β)} (hx : Store contents x)
    (herror : ∀ e s, ∃ d, (f (.error e)).run s = (.error d, s))
    (hok : ∀ a s, ∃ b, (f (.ok a)).run s = (.ok b, s) ∧ others b = contents a) :
    Store others (x >>= f) where
  error := fun h => by
    obtain ⟨r, u, hrun, hrest⟩ := run_bind_eq_iff.mp h
    cases r with
    | error e =>
      obtain ⟨d, hd⟩ := herror e u
      obtain ⟨-, rfl⟩ := Prod.mk.inj (hd.symm.trans hrest)
      exact hx.error hrun
    | ok a =>
      obtain ⟨b, hb, -⟩ := hok a u
      cases (Prod.mk.inj (hb.symm.trans hrest)).1
  ok := fun h => by
    obtain ⟨r, u, hrun, hrest⟩ := run_bind_eq_iff.mp h
    cases r with
    | error e =>
      obtain ⟨d, hd⟩ := herror e u
      cases (Prod.mk.inj (hd.symm.trans hrest)).1
    | ok a =>
      obtain ⟨b, hb, hcontents⟩ := hok a u
      obtain ⟨heq, rfl⟩ := Prod.mk.inj (hb.symm.trans hrest)
      obtain rfl := Except.ok.inj heq
      rw [hcontents]
      exact hx.ok hrun

end FileSystem

namespace AtomicSystem

open FileSystem

variable {σ : Type} [FileAccess (StateM σ)] [AtomicSystem σ]

theorem store_write (path : String) (bytes : ByteArray) :
    Store (fun _ => bytes) (FileAccess.write (m := StateM σ) path bytes) where
  error := write_error
  ok := fun h => Or.inr (write_ok h)

theorem store_writeIfChanged (path text : String) :
    Store (fun _ => text.toUTF8) (FileAccess.writeIfChanged (m := StateM σ) path text) := by
  have hwrite : Store (fun _ => text.toUTF8) (do
      return (← FileAccess.write (m := StateM σ) path text.toUTF8).map fun () => true) :=
    (store_write path text.toUTF8).answer (fun e _ => ⟨e, rfl⟩) fun _ _ => ⟨true, rfl, rfl⟩
  refine Store.after (keeps_read path) fun found => ?_
  cases found with
  | error e => exact hwrite
  | ok bytes =>
    by_cases hsame : bytes.data = text.toUTF8.data
    · simp only [hsame, if_true]
      exact store_pure _ _
    · simp only [hsame, if_false]
      exact hwrite

end AtomicSystem
end CommandSchema
