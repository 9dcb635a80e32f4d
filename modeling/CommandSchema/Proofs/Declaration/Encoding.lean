/-
Declarations written and read again.

A written declaration has every field, and null stands in it for what is absent.  That can be told
from a value since no declaration that has been read has null as a default or as an arity
(`OptionDecl.IsPlain`, `CommandDecl.IsPlain`); what has been read is therefore written so that it is
read as the same again.  A reader puts the objects in order on the way, which changes nothing: the
fields of a record may come in any order, and the free values in it are in order already.
-/
import CommandSchema.Declaration.Encode
import CommandSchema.Proofs.Declaration.FieldOrder
import CommandSchema.Proofs.Declaration.Reading

namespace CommandSchema

/-! ## Fields -/

/-- A property of what is known that every field keeps. -/
theorem RecordShape.putAll_preserves {Parts α : Type} {shape : RecordShape Parts α}
    {I : Parts → Prop} {fields : List (String × Json.Value)} {p q : Parts}
    (hput : ∀ field ∈ fields, ∀ p q, shape.put field.1 field.2 p = .ok q → I p → I q)
    (hall : shape.putAll fields p = .ok q) (hp : I p) : I q := by
  induction fields generalizing p with
  | nil =>
    obtain rfl := putAll_nil_eq_ok_iff.mp hall
    exact hp
  | cons field rest ih =>
    obtain ⟨-, next, hnext, hrest⟩ := putAll_cons_eq_ok_iff.mp hall
    have hkept : I next := hput field List.mem_cons_self p next hnext hp
    exact ih (fun other hother => hput other (List.mem_cons_of_mem _ hother)) hrest hkept

theorem RecordShape.isOrdered_of_mem_written {Parts α : Type} {shape : RecordShape Parts α}
    {value : Json.Value} (h : value.IsOrdered) :
    ∀ field ∈ shape.written value, field.2.IsOrdered := by
  intro field hfield
  cases h with
  | object _ hfields => exact hfields field hfield
  | array hitems => exact hitems field.2 (List.of_mem_zip hfield).2
  | _ => cases hfield

namespace Field

/-- A value that a field may have which may be absent, with its objects in order. -/
def IsPlain (value : Json.Value) : Prop := value ≠ .null ∧ value.IsOrdered

theorem isPlain_of_optionalValue {value v : Json.Value} (hordered : value.IsOrdered)
    (h : v ∈ optionalValue value) : IsPlain v := by
  cases value with
  | null => cases h
  | _ =>
    obtain rfl := Option.some.inj h
    exact ⟨nofun, hordered⟩

theorem optionalValue_getD {value? : Option Json.Value} (h : ∀ v ∈ value?, IsPlain v) :
    optionalValue (value?.getD .null) = value? := by
  cases value? with
  | none => rfl
  | some v =>
    have hnull : v ≠ .null := (h v rfl).1
    cases v with
    | null => exact absurd rfl hnull
    | _ => rfl

theorem isOrdered_getD {value? : Option Json.Value} (h : ∀ v ∈ value?, IsPlain v) :
    (value?.getD .null).IsOrdered := by
  cases value? with
  | none => exact .null
  | some v => exact (h v rfl).2

theorem optionalText_getD (text? : Option String) :
    optionalText ((text?.map .string).getD .null) = .ok text? := by
  cases text? <;> rfl

end Field

namespace HelpText

theorem ofJson_toJson (text : HelpText) : ofJson text.toJson = .ok text := by
  cases text with
  | line => rfl
  | lines texts =>
    have htexts : Field.strings? (texts.map .string) = some texts := by
      rw [Field.strings?_eq_some_iff, List.forall₂_map_left_iff]
      exact List.forall₂_same.mpr fun text _ => rfl
    rw [toJson, ofJson, htexts]

theorem isOrdered_toJson (text : HelpText) : text.toJson.IsOrdered := by
  cases text with
  | line text => exact .string text
  | lines texts =>
    refine .array fun item hitem => ?_
    obtain ⟨text, -, rfl⟩ := List.mem_map.mp hitem
    exact .string text

end HelpText

/-! ## Options -/

namespace OptionDecl

/-- An option whose default is not null and in order. -/
def IsPlain (o : OptionDecl) : Prop := ∀ v ∈ o.default, Field.IsPlain v

theorem default_of_put {name : String} {value : Json.Value} {p q : Parts}
    (h : put name value p = .ok q) :
    q.default = p.default ∨ q.default = some (Field.optionalValue value) := by
  unfold put at h
  split at h
  all_goals grind [Outcome.map_eq_ok_iff]

theorem default_of_finish {p : Parts} {o : OptionDecl} (h : finish p = .ok o) :
    o.default = p.default.getD none := by
  unfold finish at h
  split at h
  all_goals grind

theorem isPlain_of_ofJson {value : Json.Value} {o : OptionDecl} (hordered : value.IsOrdered)
    (h : ofJson value = .ok o) : o.IsPlain := by
  obtain ⟨p, hall, hfinish⟩ := RecordShape.exists_parts_of_read h
  have hplain : ∀ v ∈ p.default.getD none, Field.IsPlain v := by
    refine RecordShape.putAll_preserves (I := fun p => ∀ v ∈ p.default.getD none, Field.IsPlain v)
      ?_ hall (by nofun)
    intro field hfield p q hput hp
    rcases default_of_put hput with hkept | hset
    · rw [hkept]
      exact hp
    · rw [hset]
      intro v hv
      exact Field.isPlain_of_optionalValue
        (RecordShape.isOrdered_of_mem_written hordered field hfield) hv
  rw [IsPlain, default_of_finish hfinish]
  exact hplain

/-- An option is read from its fields, whatever stands for its letter, its default and its help. -/
theorem readObject_fields {o : OptionDecl} {short default help : Json.Value}
    (hshort : Field.optionalText short = .ok o.short)
    (hdefault : Field.optionalValue default = o.default)
    (hhelp : HelpText.ofJson help = .ok o.help) :
    shape.readObject [("name", .string o.name), ("short", short), ("type", .string o.type),
      ("optional", .bool o.optional), ("multi", .bool o.multi), ("default", default),
      ("help", help), ("hide", .bool o.hide)] = .ok o := by
  simp [RecordShape.readObject, RecordShape.putAll, shape, fields, put, finish, Field.text,
    Field.truth, hshort, hdefault, hhelp, Except.map]

theorem ofJson_toJson {o : OptionDecl} (h : o.IsPlain) : ofJson o.toJson = .ok o :=
  readObject_fields (Field.optionalText_getD o.short) (Field.optionalValue_getD h)
    (HelpText.ofJson_toJson o.help)

theorem ofJson_settle_toJson {o : OptionDecl} (h : o.IsPlain) :
    ofJson o.toJson.settle = .ok o := by
  rw [toJson, Json.Value.settle_object_of_settled]
  · refine (separate_shape.read_ofFields ?_).mpr (readObject_fields
      (Field.optionalText_getD o.short) (Field.optionalValue_getD h)
      (HelpText.ofJson_toJson o.help))
    show fields.Nodup
    decide
  · have hshort : ((o.short.map .string).getD .null : Json.Value).IsOrdered := by
      cases o.short with
      | none => exact .null
      | some text => exact .string text
    have hdefault := Field.isOrdered_getD h
    have hhelp := HelpText.isOrdered_toJson o.help
    simp only [List.forall_mem_cons, List.not_mem_nil, false_imp_iff, implies_true, and_true]
    exact ⟨rfl, Json.Value.settle_eq_self hshort, rfl, rfl, rfl,
      Json.Value.settle_eq_self hdefault, Json.Value.settle_eq_self hhelp, rfl⟩

end OptionDecl

/-! ## Commands -/

namespace CommandDecl

/-- A command whose arity and whose options' defaults are not null and in order. -/
structure IsPlain (c : CommandDecl) : Prop where
  arg : ∀ v ∈ c.arg, Field.IsPlain v
  options : ∀ o ∈ c.options, o.IsPlain

/-- The same of what is known of a command. -/
structure Parts.IsPlain (p : Parts) : Prop where
  arg : ∀ v ∈ p.arg.getD none, Field.IsPlain v
  options : ∀ o ∈ p.options.getD [], o.IsPlain

theorem isPlain_of_listOf {value : Json.Value} {options : List OptionDecl}
    (hordered : value.IsOrdered) (h : Field.listOf OptionDecl.ofJson value = .ok options) :
    ∀ o ∈ options, o.IsPlain := by
  obtain ⟨items, rfl, hitems⟩ := Field.listOf_eq_ok_iff.mp h
  have hall : ∀ item ∈ items, item.IsOrdered := by
    cases hordered
    assumption
  clear h hordered
  induction hitems with
  | nil => nofun
  | cons hitem _ ih =>
    rw [List.forall_mem_cons] at hall ⊢
    exact ⟨OptionDecl.isPlain_of_ofJson hall.1 hitem, ih hall.2⟩

theorem Parts.IsPlain.put {name : String} {value : Json.Value} {p q : Parts} (hp : p.IsPlain)
    (hordered : value.IsOrdered) (h : CommandDecl.put name value p = .ok q) : q.IsPlain := by
  unfold CommandDecl.put at h
  split at h
  next =>
    obtain ⟨text, -, rfl⟩ := Outcome.map_eq_ok_iff.mp h
    exact ⟨hp.arg, hp.options⟩
  next =>
    obtain ⟨help, -, rfl⟩ := Outcome.map_eq_ok_iff.mp h
    exact ⟨hp.arg, hp.options⟩
  next =>
    obtain rfl := Except.ok.inj h
    exact ⟨fun v hv => Field.isPlain_of_optionalValue hordered hv, hp.options⟩
  next =>
    obtain ⟨options, hoptions, rfl⟩ := Outcome.map_eq_ok_iff.mp h
    exact ⟨hp.arg, isPlain_of_listOf hordered hoptions⟩
  next =>
    obtain ⟨hidden, -, rfl⟩ := Outcome.map_eq_ok_iff.mp h
    exact ⟨hp.arg, hp.options⟩
  next => cases h

theorem isPlain_of_readObject {fields : List (String × Json.Value)} {c : CommandDecl}
    (hordered : ∀ field ∈ fields, field.2.IsOrdered) (h : shape.readObject fields = .ok c) :
    c.IsPlain := by
  obtain ⟨p, hall, hfinish⟩ := RecordShape.readObject_eq_ok_iff.mp h
  have hplain : p.IsPlain := RecordShape.putAll_preserves
    (fun field hfield p q hput hp => hp.put (hordered field hfield) hput) hall
    ⟨by nofun, by nofun⟩
  have hfinish : finish p = .ok c := hfinish
  rw [finish] at hfinish
  cases hhelp : p.help with
  | none =>
    rw [hhelp] at hfinish
    cases hfinish
  | some help =>
    rw [hhelp] at hfinish
    obtain rfl := Except.ok.inj hfinish
    exact ⟨hplain.arg, hplain.options⟩

/-- A command is read from its fields, whatever stands for its help, its arity and its options. -/
theorem readObject_fields {c : CommandDecl} {help arg : Json.Value} {items : List Json.Value}
    (hhelp : HelpText.ofJson help = .ok c.help) (harg : Field.optionalValue arg = c.arg)
    (hitems : List.Forall₂ (fun item o => OptionDecl.ofJson item = .ok o) items c.options) :
    shape.readObject [("help", help), ("arg", arg), ("option", .array items),
      ("hidden", .bool c.hidden)] = .ok c := by
  have hoptions : Field.listOf OptionDecl.ofJson (.array items) = .ok c.options :=
    Field.each_eq_ok_iff.mpr hitems
  simp [RecordShape.readObject, RecordShape.putAll, shape, fields, put, finish, ofParts,
    Field.truth, hhelp, harg, hoptions, Except.map]

/-- The options of a command as they are written, in some way in which each is read again. -/
theorem forall₂_map_options {c : CommandDecl} {written : OptionDecl → Json.Value}
    (h : ∀ o ∈ c.options, OptionDecl.ofJson (written o) = .ok o) :
    List.Forall₂ (fun item o => OptionDecl.ofJson item = .ok o) (c.options.map written)
      c.options := by
  rw [List.forall₂_map_left_iff]
  exact List.forall₂_same.mpr h

theorem settle_toJson {c : CommandDecl} (h : c.IsPlain) :
    c.toJson.settle = .ofFields [("help", c.help.toJson), ("arg", c.arg.getD .null),
      ("option", .array (c.options.map fun o => o.toJson.settle)),
      ("hidden", .bool c.hidden)] := by
  have hhelp := Json.Value.settle_eq_self (HelpText.isOrdered_toJson c.help)
  have harg := Json.Value.settle_eq_self (Field.isOrdered_getD h.arg)
  rw [toJson, Json.Value.settle_object]
  simp only [List.map_cons, List.map_nil, Prod.map, id, hhelp, harg, Json.Value.settle_array,
    List.map_map]
  rfl

end CommandDecl

namespace Declaration

theorem ofJson_of_readObject {fields : List (String × Json.Value)} {command : CommandDecl}
    (h : CommandDecl.shape.readObject fields = .ok command) (name : String) :
    ofJson name (.object fields) = .ok (.flat command) := by
  rw [ofJson, h]

theorem exists_readObject_of_ofJson {name : String} {value : Json.Value} {command : CommandDecl}
    (h : ofJson name value = .ok (.flat command)) :
    ∃ fields, value = .object fields ∧ CommandDecl.shape.readObject fields = .ok command := by
  cases ofJson_eq_ok_iff.mp h with
  | flat hread _ => exact ⟨_, rfl, hread⟩

/-- A flat command that has been read is read again from the object in which it is written, as the
same command.  The fields may be taken as they are written or in the order in which a reader gives
them. -/
theorem ofJson_flat_toJson {name : String} {value : Json.Value} {command : CommandDecl}
    (hordered : value.IsOrdered) (h : ofJson name value = .ok (.flat command)) :
    ofJson name command.toJson = .ok (.flat command) ∧
      ofJson name command.toJson.settle = .ok (.flat command) := by
  obtain ⟨fields, rfl, hread⟩ := exists_readObject_of_ofJson h
  have hplain : command.IsPlain := by
    cases hordered with
    | object _ hvalues => exact CommandDecl.isPlain_of_readObject hvalues hread
  have hhelp := HelpText.ofJson_toJson command.help
  have harg := Field.optionalValue_getD hplain.arg
  constructor
  · have hoptions := CommandDecl.forall₂_map_options fun o ho =>
      OptionDecl.ofJson_toJson (hplain.options o ho)
    exact ofJson_of_readObject (CommandDecl.readObject_fields hhelp harg hoptions) name
  · have hoptions := CommandDecl.forall₂_map_options fun o ho =>
      OptionDecl.ofJson_settle_toJson (hplain.options o ho)
    rw [CommandDecl.settle_toJson hplain]
    refine ofJson_of_readObject ((CommandDecl.separate_shape.read_ofFields ?_).mpr
      (CommandDecl.readObject_fields hhelp harg hoptions)) name
    show CommandDecl.fields.Nodup
    decide

/-- A command with a help of two lines and a default that is a list, whose options are written in
both forms. -/
def flashFields : List (String × Json.Value) := [
  ("arg", .array [.number (.integer 0 (by decide)), .number (.integer 2 (by decide))]),
  ("help", .array [.string "Flash", .string ""]),
  ("option", .array [
    .array [.string "cable", .string "c", .string "str", .bool true, .bool false, .null,
      .string "Cable"],
    .object [("default", .array [.object [("a", .null)], .bool false]), ("help", .array []),
      ("name", .string "index"), ("type", .string "int")]])]

def flash : CommandDecl where
  help := .lines ["Flash", ""]
  arg := some (.array [.number (.integer 0 (by decide)), .number (.integer 2 (by decide))])
  options := [
    { name := "cable", short := some "c", type := "str", optional := true,
      help := .line "Cable" },
    { name := "index", type := "int",
      default := some (.array [.object [("a", .null)], .bool false]), help := .lines [] }]

theorem ofJson_flat_toJson_flash :
    ofJson "flash" (.object flashFields) = .ok (.flat flash) ∧
      ofJson "flash" flash.toJson = .ok (.flat flash) ∧
      ofJson "flash" flash.toJson.settle = .ok (.flat flash) := by
  have hordered : (Json.Value.object flashFields).IsOrdered := Json.Value.isOrdered_iff.mpr rfl
  have hread : ofJson "flash" (.object flashFields) = .ok (.flat flash) := rfl
  exact ⟨hread, ofJson_flat_toJson hordered hread⟩

end Declaration
end CommandSchema
