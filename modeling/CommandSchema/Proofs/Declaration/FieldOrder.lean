/-
Fields in any order.

Reading a field changes what is known of a record in a way of its own: the change is the same
whatever is known already, and the changes of two different fields do not meet (`Separate`).  So the
fields of a record may come in any order, as long as each comes once (`Separate.putAll_perm`), and
the order of the keys of an object decides at most which fault is found first.
-/
import CommandSchema.Proofs.Declaration.Acceptance
import CommandSchema.Proofs.Json.Ordered

namespace CommandSchema
namespace RecordShape

variable {Parts α : Type} {shape : RecordShape Parts α} {Sets : String → (Parts → Parts) → Prop}

/-! ## Fields that are read apart from each other -/

/-- A field that is read in one way, whatever is known: it sets its part, or it has a fault. -/
def ReadsAlone (Sets : String → (Parts → Parts) → Prop) (name : String)
    (reading : Parts → Except ShapeFault Parts) : Prop :=
  (∃ f, Sets name f ∧ ∀ p, reading p = .ok (f p)) ∨ ∃ fault, ∀ p, reading p = .error fault

/-- A shape that reads each field alone, where different fields set different parts. -/
structure Separate (shape : RecordShape Parts α) (Sets : String → (Parts → Parts) → Prop) :
    Prop where
  readsAlone : ∀ name value, ReadsAlone Sets name (shape.put name value)
  comm : ∀ {a b f g}, Sets a f → Sets b g → a ≠ b → ∀ p, f (g p) = g (f p)

/-- A field whose value is read first, and set then. -/
theorem readsAlone_map {β : Type} {name : String} {value : Except ShapeFault β}
    {set : β → Parts → Parts} (h : ∀ b, Sets name (set b)) :
    ReadsAlone Sets name fun p => value.map fun b => set b p := by
  cases value with
  | error fault => exact Or.inr ⟨fault, fun p => rfl⟩
  | ok b => exact Or.inl ⟨set b, h b, fun p => rfl⟩

namespace Separate

theorem exists_of_put (h : Separate shape Sets) {name : String} {value : Json.Value} {p q : Parts}
    (hput : shape.put name value p = .ok q) :
    ∃ f, Sets name f ∧ ∀ p, shape.put name value p = .ok (f p) := by
  rcases h.readsAlone name value with hset | ⟨fault, herror⟩
  · exact hset
  · cases (herror p).symm.trans hput

/-- Two different fields one after the other. -/
theorem put_comm (h : Separate shape Sets) {a b : String} (hne : a ≠ b) {v w : Json.Value}
    {p q r : Parts} (hfirst : shape.put a v p = .ok q) (hsecond : shape.put b w q = .ok r) :
    ∃ m, shape.put b w p = .ok m ∧ shape.put a v m = .ok r := by
  obtain ⟨f, hf, hputf⟩ := h.exists_of_put hfirst
  obtain ⟨g, hg, hputg⟩ := h.exists_of_put hsecond
  have hq : f p = q := Except.ok.inj ((hputf p).symm.trans hfirst)
  have hr : g q = r := Except.ok.inj ((hputg q).symm.trans hsecond)
  refine ⟨g p, hputg p, ?_⟩
  rw [hputf, h.comm hf hg hne p, hq, hr]

theorem putAll_perm (h : Separate shape Sets) {fields others : List (String × Json.Value)}
    (hperm : fields.Perm others) (hnodup : (fields.map Prod.fst).Nodup) {p q : Parts}
    (hall : shape.putAll fields p = .ok q) : shape.putAll others p = .ok q := by
  induction hperm generalizing p with
  | nil => exact hall
  | cons field hrest ih =>
    obtain ⟨hknown, next, hput, hall⟩ := putAll_cons_eq_ok_iff.mp hall
    exact putAll_cons_eq_ok_iff.mpr ⟨hknown, next, hput, ih (List.nodup_cons.mp hnodup).2 hall⟩
  | swap first second rest =>
    obtain ⟨hsecond, next, hput, hall⟩ := putAll_cons_eq_ok_iff.mp hall
    obtain ⟨hfirst, last, hputlast, hall⟩ := putAll_cons_eq_ok_iff.mp hall
    have hne : second.1 ≠ first.1 := fun heq =>
      (List.nodup_cons.mp hnodup).1 (heq ▸ List.mem_cons_self)
    obtain ⟨m, hm, hlast⟩ := h.put_comm hne hput hputlast
    exact putAll_cons_eq_ok_iff.mpr
      ⟨hfirst, m, hm, putAll_cons_eq_ok_iff.mpr ⟨hsecond, last, hlast, hall⟩⟩
  | trans hmiddle _ ihfirst ihsecond =>
    exact ihsecond ((hmiddle.map Prod.fst).nodup_iff.mp hnodup) (ihfirst hnodup hall)

theorem readObject_perm (h : Separate shape Sets) {fields others : List (String × Json.Value)}
    (hperm : fields.Perm others) (hnodup : (fields.map Prod.fst).Nodup) {record : α} :
    shape.readObject fields = .ok record ↔ shape.readObject others = .ok record := by
  have hnodup' : (others.map Prod.fst).Nodup := (hperm.map Prod.fst).nodup_iff.mp hnodup
  rw [readObject_eq_ok_iff, readObject_eq_ok_iff]
  constructor
  · intro ⟨p, hall, hfinish⟩
    exact ⟨p, h.putAll_perm hperm hnodup hall, hfinish⟩
  · intro ⟨p, hall, hfinish⟩
    exact ⟨p, h.putAll_perm hperm.symm hnodup' hall, hfinish⟩

/-- The object with the given fields in the order of their keys. -/
theorem read_ofFields (h : Separate shape Sets) {fields : List (String × Json.Value)}
    (hnodup : (fields.map Prod.fst).Nodup) {record : α} :
    shape.read (.ofFields fields) = .ok record ↔ shape.readObject fields = .ok record :=
  (h.readObject_perm (Json.Value.sortFields_perm hnodup).symm hnodup).symm

end Separate
end RecordShape

/-! ## Options -/

/-- A change of one field of an option. -/
inductive OptionDecl.Sets : String → (Parts → Parts) → Prop
  | name (s : String) : Sets "name" fun p => { p with name := some s }
  | short (s : Option String) : Sets "short" fun p => { p with short := some s }
  | type (s : String) : Sets "type" fun p => { p with type := some s }
  | optional (b : Bool) : Sets "optional" fun p => { p with optional := some b }
  | multi (b : Bool) : Sets "multi" fun p => { p with multi := some b }
  | default (v : Option Json.Value) : Sets "default" fun p => { p with default := some v }
  | help (text : HelpText) : Sets "help" fun p => { p with help := some text }
  | hide (b : Bool) : Sets "hide" fun p => { p with hide := some b }

namespace OptionDecl

theorem Sets.comm {a b : String} {f g : Parts → Parts} (hf : Sets a f) (hg : Sets b g)
    (hne : a ≠ b) (p : Parts) : f (g p) = g (f p) := by
  cases hf
  all_goals
    cases hg
    all_goals first
    | exact absurd rfl hne
    | rfl

theorem readsAlone_put (name : String) (value : Json.Value) :
    RecordShape.ReadsAlone Sets name (put name value) := by
  unfold put
  split
  · exact RecordShape.readsAlone_map .name
  · exact RecordShape.readsAlone_map .short
  · exact RecordShape.readsAlone_map .type
  · exact RecordShape.readsAlone_map .optional
  · exact RecordShape.readsAlone_map .multi
  · exact Or.inl ⟨_, .default _, fun p => rfl⟩
  · exact RecordShape.readsAlone_map .help
  · exact RecordShape.readsAlone_map .hide
  · exact Or.inr ⟨_, fun p => rfl⟩

theorem separate_shape : shape.Separate Sets where
  readsAlone := readsAlone_put
  comm := Sets.comm

end OptionDecl

/-! ## Commands and members -/

/-- A change of one field of a command or a member. -/
inductive CommandDecl.Sets : String → (Parts → Parts) → Prop
  | description (s : String) : Sets "desc" fun p => { p with description := some s }
  | help (text : HelpText) : Sets "help" fun p => { p with help := some text }
  | arg (v : Option Json.Value) : Sets "arg" fun p => { p with arg := some v }
  | options (os : List OptionDecl) : Sets "option" fun p => { p with options := some os }
  | hidden (b : Bool) : Sets "hidden" fun p => { p with hidden := some b }

namespace CommandDecl

theorem Sets.comm {a b : String} {f g : Parts → Parts} (hf : Sets a f) (hg : Sets b g)
    (hne : a ≠ b) (p : Parts) : f (g p) = g (f p) := by
  cases hf
  all_goals
    cases hg
    all_goals first
    | exact absurd rfl hne
    | rfl

theorem readsAlone_put (name : String) (value : Json.Value) :
    RecordShape.ReadsAlone Sets name (put name value) := by
  unfold put
  split
  · exact RecordShape.readsAlone_map .description
  · exact RecordShape.readsAlone_map .help
  · exact Or.inl ⟨_, .arg _, fun p => rfl⟩
  · exact RecordShape.readsAlone_map .options
  · exact RecordShape.readsAlone_map .hidden
  · exact Or.inr ⟨_, fun p => rfl⟩

theorem separate_shape : shape.Separate Sets where
  readsAlone := readsAlone_put
  comm := Sets.comm

end CommandDecl

theorem MemberDecl.separate_shape : shape.Separate CommandDecl.Sets where
  readsAlone := CommandDecl.readsAlone_put
  comm := CommandDecl.Sets.comm

end CommandSchema
