/-
File systems as values.

A tree says what stands at the locations of a file system; a location is the list of names that
leads to it from the root, which is always a directory.  A path is followed name by name, and every
name but the last has to be that of a directory.

With a tree as its state, `StateM` answers the requests of `FileAccess` as a file system does.
-/
import CommandSchema.Files.Access

namespace CommandSchema

/-- The names that lead to a place from the root. -/
abbrev Location := List String

inductive Entry where
  | file (bytes : ByteArray)
  | directory

-- Byte arrays have several decisions of equality, depending on what is imported; their data has one.
instance : DecidableEq Entry
  | .file a, .file b =>
    decidable_of_decidable_of_iff (p := a.data = b.data) (by
      rw [Entry.file.injEq, ByteArray.ext_iff])
  | .file _, .directory => isFalse nofun
  | .directory, .file _ => isFalse nofun
  | .directory, .directory => isTrue rfl

/-- What stands where, the location at which relative paths begin, and the locations of files that
cannot be read. -/
structure Tree where
  entries : List (Location × Entry) := []
  current : Location := []
  closed : List Location := []
  deriving DecidableEq

namespace Tree

def find? (t : Tree) (l : Location) : Option Entry :=
  if l = [] then some .directory else t.entries.lookup l

/-- The entries with one of them changed, or added behind the others. -/
def setEntry (l : Location) (e : Entry) : List (Location × Entry) → List (Location × Entry)
  | [] => [(l, e)]
  | (k, f) :: rest => if l = k then (l, e) :: rest else (k, f) :: setEntry l e rest

def put (t : Tree) (l : Location) (e : Entry) : Tree :=
  { t with entries := setEntry l e t.entries }

/-! ## Paths in a tree -/

/-- One step from a directory to a name. -/
def step (t : Tree) (l : Location) (name : String) : Except FileError Location :=
  match t.find? l with
  | none => .error .notFound
  | some (.file _) => .error .notDirectory
  | some .directory =>
    .ok (if name = "." then l else if name = ".." then l.dropLast else l ++ [name])

def walk (t : Tree) (l : Location) : List String → Except FileError Location
  | [] => .ok l
  | name :: rest => do
    let l ← t.step l name
    t.walk l rest

def start (t : Tree) (path : String) : Location := if Path.isAbsolute path then [] else t.current

/-- The names of a path, with those that lead nowhere else. -/
def names (path : String) : List String := (Text.split '/' path).filter (· ≠ "")

/-- Whether a path ends with a bar, which only a directory may. -/
def endsWithBar (path : String) : Bool := path.toList.getLast? = some '/'

/-- The location and the entry of a path that leads to something. -/
def locate (t : Tree) (path : String) : Except FileError (Location × Entry) :=
  if path = "" then .error .notFound
  else do
    let l ← t.walk (t.start path) (names path ++ if endsWithBar path then ["."] else [])
    match t.find? l with
    | none => .error .notFound
    | some e => .ok (l, e)

/-- The location of a path whose last name need not be there.  A path that ends with a directory
on its way, rather than with a name, has none. -/
def target (t : Tree) (path : String) : Except FileError (Option Location) :=
  if path = "" then .error .notFound
  else
    match (names path).getLast? with
    | none => .ok none
    | some name => do
      let above ← t.walk (t.start path) (names path).dropLast
      let l ← t.step above name
      return if name = "." ∨ name = ".." then none else some l

/-! ## Requests -/

def read (t : Tree) (path : String) : Except FileError ByteArray := do
  match ← t.locate path with
  | (l, .file bytes) => if l ∈ t.closed then .error .denied else .ok bytes
  | (_, .directory) => .error .isDirectory

def isFile (t : Tree) (path : String) : Bool :=
  match t.locate path with
  | .ok (_, .file _) => true
  | _ => false

def isDirectory (t : Tree) (path : String) : Bool :=
  match t.locate path with
  | .ok (_, .directory) => true
  | _ => false

def write (t : Tree) (path : String) (bytes : ByteArray) : Except FileError Tree := do
  match ← t.target path with
  | none => .error .isDirectory
  | some l =>
    if endsWithBar path then .error .isDirectory
    else
      match t.find? l with
      | some .directory => .error .isDirectory
      | _ => .ok (t.put l (.file bytes))

def makeDirectory (t : Tree) (path : String) : Except FileError Tree := do
  match ← t.target path with
  | none => .error .alreadyExists
  | some l =>
    match t.find? l with
    | some _ => .error .alreadyExists
    | none => .ok (t.put l .directory)

/-- A change of the tree that leaves it as it is when it fails. -/
def attempt (change : Tree → Except FileError Tree) : StateM Tree (Except FileError Unit) :=
  fun t =>
    match change t with
    | .ok t' => (.ok (), t')
    | .error e => (.error e, t)

instance : FileAccess (StateM Tree) where
  read path := fun t => (t.read path, t)
  write path bytes := attempt (·.write path bytes)
  makeDirectory path := attempt (·.makeDirectory path)
  isFile path := fun t => (t.isFile path, t)
  isDirectory path := fun t => (t.isDirectory path, t)

/-! ## What an entry changes -/

theorem lookup_cons_ite (k j : Location) (f : Entry) (entries : List (Location × Entry)) :
    ((j, f) :: entries).lookup k = if k = j then some f else entries.lookup k := by
  by_cases h : k = j
  · simp [h]
  · have hb : (k == j) = false := by simpa using h
    simp [List.lookup_cons, h, hb]

theorem lookup_setEntry (l k : Location) (e : Entry) (entries : List (Location × Entry)) :
    (setEntry l e entries).lookup k = if k = l then some e else entries.lookup k := by
  induction entries with
  | nil => simp [setEntry, lookup_cons_ite]
  | cons entry rest ih =>
    obtain ⟨j, f⟩ := entry
    rw [setEntry]
    split
    · next hl =>
      subst hl
      rw [lookup_cons_ite, lookup_cons_ite]
      split <;> rfl
    · next hl =>
      rw [lookup_cons_ite, lookup_cons_ite, ih]
      by_cases hk : k = j
      · have hkl : k ≠ l := fun h => hl (h ▸ hk)
        simp [hk, hk ▸ hkl]
      · simp [hk]

/-- An entry is found at its location, and at every other location what was there before. -/
theorem find?_put (t : Tree) (l k : Location) (e : Entry) (h : l ≠ []) :
    (t.put l e).find? k = if k = l then some e else t.find? k := by
  by_cases hk : k = []
  · subst hk
    simp [find?, Ne.symm h]
  · simp [find?, put, hk, lookup_setEntry]

end Tree
end CommandSchema
