/-
Values read back from their compact text.

The compact text of a value without floating-point numbers is read as that value, field by field,
whatever follows that does not go on with a number (`readWritten_chars`).  The brackets that the
reader may open decide whether it gets to the end: it needs as many as are open at once in the
value.  Nothing is asked of the objects, which may have their keys in any order and repeat them.
-/
import CommandSchema.Proofs.Json.Scalars
import CommandSchema.Proofs.Json.Written

namespace CommandSchema
namespace Json

namespace Value

/-- A value without floating-point numbers. -/
inductive IsExact : Value → Prop
  | null : IsExact .null
  | bool (b : Bool) : IsExact (.bool b)
  | integer (i : Int) (h : -9223372036854775808 ≤ i ∧ i < 18446744073709551616) :
    IsExact (.number (.integer i h))
  | string (s : String) : IsExact (.string s)
  | array {items : List Value} (h : ∀ item ∈ items, IsExact item) : IsExact (.array items)
  | object {fields : List (String × Value)} (h : ∀ field ∈ fields, IsExact field.2) :
    IsExact (.object fields)

attribute [simp] IsExact.null IsExact.bool IsExact.integer IsExact.string

@[simp] theorem isExact_array_iff {items : List Value} :
    IsExact (.array items) ↔ ∀ item ∈ items, IsExact item :=
  ⟨fun h => by cases h; assumption, .array⟩

@[simp] theorem isExact_object_iff {fields : List (String × Value)} :
    IsExact (.object fields) ↔ ∀ field ∈ fields, IsExact field.2 :=
  ⟨fun h => by cases h; assumption, .object⟩

mutual

/-- The number of brackets that are open at once in a value. -/
def depth : Value → Nat
  | .null | .bool _ | .number _ | .string _ => 0
  | .array items => itemsDepth items + 1
  | .object fields => fieldsDepth fields + 1

def itemsDepth : List Value → Nat
  | [] => 0
  | item :: items => max item.depth (itemsDepth items)

def fieldsDepth : List (String × Value) → Nat
  | [] => 0
  | (_, value) :: fields => max value.depth (fieldsDepth fields)

end

theorem depth_le_itemsDepth {item : Value} {items : List Value} (h : item ∈ items) :
    item.depth ≤ itemsDepth items := by
  induction items with
  | nil => cases h
  | cons first items ih =>
    rw [itemsDepth]
    cases h with
    | head => exact Nat.le_max_left _ _
    | tail _ h => exact Nat.le_trans (ih h) (Nat.le_max_right _ _)

theorem depth_le_fieldsDepth {field : String × Value} {fields : List (String × Value)}
    (h : field ∈ fields) : field.2.depth ≤ fieldsDepth fields := by
  induction fields with
  | nil => cases h
  | cons first fields ih =>
    rw [fieldsDepth]
    cases h with
    | head => exact Nat.le_max_left _ _
    | tail _ h => exact Nat.le_trans (ih h) (Nat.le_max_right _ _)

/-! ## Texts of several values -/

/-- The items of a list from the first one, or from the comma in front of a further one. -/
def itemsFrom (first : Bool) (items : List Value) : List Char :=
  if items = [] then [] else if first then itemsChars items else ',' :: itemsChars items

/-- The fields of an object from the first one, or from the comma in front of a further one. -/
def fieldsFrom (first : Bool) (fields : List (String × Value)) : List Char :=
  if fields = [] then [] else if first then fieldsChars fields else ',' :: fieldsChars fields

theorem itemsChars_cons (item : Value) (items : List Value) :
    itemsChars (item :: items) = item.chars ++ itemsFrom false items := by
  cases items with
  | nil => simp [itemsChars, itemsFrom]
  | cons next items => simp [itemsChars, itemsFrom]

theorem fieldsChars_cons (field : String × Value) (fields : List (String × Value)) :
    fieldsChars (field :: fields) =
      stringChars field.1 ++ ':' :: field.2.chars ++ fieldsFrom false fields := by
  cases fields with
  | nil => simp [fieldsChars, fieldsFrom]
  | cons next fields => simp [fieldsChars, fieldsFrom]

theorem length_le_length_itemsFrom (first : Bool) (items : List Value)
    (h : ∀ item ∈ items, item.chars ≠ []) : items.length ≤ (itemsFrom first items).length := by
  induction items generalizing first with
  | nil => simp
  | cons item items ih =>
    have hitem : 0 < item.chars.length := List.length_pos_iff.mpr (h item List.mem_cons_self)
    have hrest := ih false fun other hother => h other (List.mem_cons_of_mem item hother)
    have hchars :
        (itemsChars (item :: items)).length ≤ (itemsFrom first (item :: items)).length := by
      cases first <;> simp [itemsFrom]
    rw [itemsChars_cons, List.length_append] at hchars
    rw [List.length_cons]
    omega

theorem length_le_length_fieldsFrom (first : Bool) (fields : List (String × Value)) :
    fields.length ≤ (fieldsFrom first fields).length := by
  induction fields generalizing first with
  | nil => simp
  | cons field fields ih =>
    have hrest := ih false
    have hchars : (fieldsChars (field :: fields)).length ≤
        (fieldsFrom first (field :: fields)).length := by
      cases first <;> simp [fieldsFrom]
    rw [fieldsChars_cons, List.length_append, List.length_append, List.length_cons] at hchars
    rw [List.length_cons]
    omega

/-- The text of a value begins with its own first character, behind no white space. -/
theorem chars_eq_cons {v : Value} (h : v.IsExact) :
    ∃ c cs, v.chars = c :: cs ∧ isSpace (.char c) = false ∧ c ≠ ']' := by
  cases h with
  | null => exact ⟨'n', _, rfl, by decide, by decide⟩
  | bool b =>
    cases b with
    | true => exact ⟨'t', _, rfl, by decide, by decide⟩
    | false => exact ⟨'f', _, rfl, by decide, by decide⟩
  | integer i hi =>
    obtain ⟨c, cs, hchars, hc⟩ := integerChars_eq_cons i
    cases hc with
    | inl hsign =>
      subst hsign
      exact ⟨'-', cs, hchars, by decide, by decide⟩
    | inr hdigit =>
      have hspace : isSpace (.char c) = false := by
        simp [isSpace, ne_of_isDigit hdigit]
      exact ⟨c, cs, hchars, hspace, ne_of_isDigit hdigit rfl⟩
  | string s => exact ⟨'"', _, rfl, by decide, by decide⟩
  | array hitems => exact ⟨'[', _, rfl, by decide, by decide⟩
  | object hfields => exact ⟨'{', _, rfl, by decide, by decide⟩

end Value

/-! ## Loops -/

theorem skipSpace_cons {g : Glyph} (h : isSpace g = false) (rest : List Glyph) :
    skipSpace (g :: rest) = g :: rest := by
  rw [skipSpace, List.dropWhile_cons, h]
  rfl

/-- An item of a list behind its opening bracket or behind a comma. -/
theorem readItems_cons {value : List Glyph → Reading Value} {more after rest : List Glyph}
    {c : Char} {v : Value} {vs : List Value} {n : Nat} (first : Bool)
    (hspace : isSpace (.char c) = false) (hne : c ≠ ']')
    (hv : value (.char c :: more) = .ok (v, after))
    (hvs : readItems value n false after = .ok (vs, rest)) :
    readItems value (n + 1) first ((if first then [] else [.char ',']) ++ .char c :: more) =
      .ok (v :: vs, rest) := by
  have hskip : skipSpace (.char c :: more) = .char c :: more := skipSpace_cons hspace more
  have hcomma : skipSpace (.char ',' :: .char c :: more) = .char ',' :: .char c :: more :=
    skipSpace_cons rfl _
  cases first with
  | true =>
    simp [readItems, hskip, hne, hv, hvs, Except.map]
  | false =>
    simp [readItems, hcomma, hskip, hne, hv, hvs, Except.map]

/-- A list is read back if its items are. -/
theorem readItems_itemsFrom {value : List Glyph → Reading Value} {items : List Value}
    (hexact : ∀ item ∈ items, item.IsExact)
    (hitems : ∀ item ∈ items, ∀ rest, EndsNumber rest →
      value (glyphs item.chars ++ rest) = .ok (item, rest))
    {n : Nat} (hn : items.length < n) (first : Bool) (rest : List Glyph) :
    readItems value n first (glyphs (Value.itemsFrom first items) ++ .char ']' :: rest) =
      .ok (items, rest) := by
  induction items generalizing n first with
  | nil =>
    obtain ⟨k, rfl⟩ : ∃ k, n = k + 1 := ⟨n - 1, by rw [List.length_nil] at hn; omega⟩
    have hspace : skipSpace (.char ']' :: rest) = .char ']' :: rest := skipSpace_cons rfl rest
    simp [Value.itemsFrom, glyphs, readItems, hspace]
  | cons item items ih =>
    obtain ⟨k, rfl⟩ : ∃ k, n = k + 1 := ⟨n - 1, by omega⟩
    have hshort : items.length < k := by simpa using hn
    have hmore := ih (fun other hother => hexact other (List.mem_cons_of_mem item hother))
      (fun other hother => hitems other (List.mem_cons_of_mem item hother)) hshort false
    have hends : EndsNumber (glyphs (Value.itemsFrom false items) ++ .char ']' :: rest) := by
      cases items with
      | nil => simp [EndsNumber, Value.itemsFrom, glyphs, digit?]
      | cons next items => simp [EndsNumber, Value.itemsFrom, glyphs, digit?]
    have hitem := hitems item List.mem_cons_self _ hends
    obtain ⟨c, cs, hchars, hspace, hne⟩ := Value.chars_eq_cons (hexact item List.mem_cons_self)
    have hsource : glyphs (Value.itemsFrom first (item :: items)) ++ .char ']' :: rest =
        (if first then [] else [.char ',']) ++ .char c :: (glyphs cs ++
          (glyphs (Value.itemsFrom false items) ++ .char ']' :: rest)) := by
      have hitem : Value.itemsChars (item :: items) = c :: cs ++ Value.itemsFrom false items := by
        rw [Value.itemsChars_cons, hchars]
      cases first <;> simp [Value.itemsFrom, hitem, glyphs]
    rw [hchars, glyphs_cons, List.cons_append] at hitem
    rw [hsource]
    exact readItems_cons first hspace hne hitem hmore

theorem stringChars_eq_cons (s : String) : stringChars s = '"' :: (stringChars s).tail := rfl

/-- A field of an object behind its opening brace or behind a comma. -/
theorem readFields_cons {value : List Glyph → Reading Value} {more after rest : List Glyph}
    {field : String × Value} {fields : List (String × Value)} {n : Nat} (first : Bool)
    (hv : value more = .ok (field.2, after))
    (hfields : readFields value n false after = .ok (fields, rest)) :
    readFields value (n + 1) first
        ((if first then [] else [.char ',']) ++
          (glyphs (stringChars field.1) ++ .char ':' :: more)) =
      .ok (field :: fields, rest) := by
  have hkey : readString (glyphs (stringChars field.1).tail ++ .char ':' :: more) =
      .ok (field.1, .char ':' :: more) := readString_stringChars field.1 _
  have hvalue : readFieldValue value (.char ':' :: more) = .ok (field.2, after) := by
    rw [readFieldValue, skipSpace_cons rfl]
    exact hv
  have hquote (behind : List Glyph) : skipSpace (.char '"' :: behind) = .char '"' :: behind :=
    skipSpace_cons rfl behind
  have hcomma (behind : List Glyph) : skipSpace (.char ',' :: behind) = .char ',' :: behind :=
    skipSpace_cons rfl behind
  rw [stringChars_eq_cons, glyphs_cons, List.cons_append]
  cases first with
  | true =>
    simp [readFields, hquote, hkey, hvalue, hfields, Except.map]
  | false =>
    simp [readFields, hcomma, hquote, hkey, hvalue, hfields, Except.map]

/-- An object is read back, with its fields as they stand, if their values are. -/
theorem readFields_fieldsFrom {value : List Glyph → Reading Value}
    {fields : List (String × Value)}
    (hfields : ∀ field ∈ fields, ∀ rest, EndsNumber rest →
      value (glyphs field.2.chars ++ rest) = .ok (field.2, rest))
    {n : Nat} (hn : fields.length < n) (first : Bool) (rest : List Glyph) :
    readFields value n first (glyphs (Value.fieldsFrom first fields) ++ .char '}' :: rest) =
      .ok (fields, rest) := by
  induction fields generalizing n first with
  | nil =>
    obtain ⟨k, rfl⟩ : ∃ k, n = k + 1 := ⟨n - 1, by rw [List.length_nil] at hn; omega⟩
    have hspace : skipSpace (.char '}' :: rest) = .char '}' :: rest := skipSpace_cons rfl rest
    simp [Value.fieldsFrom, glyphs, readFields, hspace]
  | cons field fields ih =>
    obtain ⟨k, rfl⟩ : ∃ k, n = k + 1 := ⟨n - 1, by omega⟩
    have hshort : fields.length < k := by simpa using hn
    have hmore := ih (fun other hother => hfields other (List.mem_cons_of_mem field hother))
      hshort false
    have hends : EndsNumber (glyphs (Value.fieldsFrom false fields) ++ .char '}' :: rest) := by
      cases fields with
      | nil => simp [EndsNumber, Value.fieldsFrom, glyphs, digit?]
      | cons next fields => simp [EndsNumber, Value.fieldsFrom, glyphs, digit?]
    have hvalue := hfields field List.mem_cons_self _ hends
    have hsource : glyphs (Value.fieldsFrom first (field :: fields)) ++ .char '}' :: rest =
        (if first then [] else [.char ',']) ++ (glyphs (stringChars field.1) ++
          .char ':' :: (glyphs field.2.chars ++
            (glyphs (Value.fieldsFrom false fields) ++ .char '}' :: rest))) := by
      have hfield : Value.fieldsChars (field :: fields) =
          stringChars field.1 ++ ':' :: field.2.chars ++ Value.fieldsFrom false fields :=
        Value.fieldsChars_cons field fields
      cases first <;> simp [Value.fieldsFrom, hfield, glyphs]
    rw [hsource]
    exact readFields_cons first hvalue hmore

/-! ## Values -/

theorem readLiteral_glyphs (value : Value) (letters : List Char) (rest : List Glyph) :
    readLiteral value letters (glyphs letters ++ rest) = .ok (value, rest) := by
  induction letters with
  | nil => rfl
  | cons c letters ih =>
    rw [glyphs_cons, List.cons_append, readLiteral, if_pos rfl]
    exact ih

theorem readScalar_stringChars (origin : Origin) (s : String) (rest : List Glyph) :
    readScalar origin (glyphs (stringChars s) ++ rest) = .ok (.string s, rest) := by
  have hread : readString (glyphs (stringChars s).tail ++ rest) = .ok (s, rest) :=
    readString_stringChars s rest
  rw [stringChars_eq_cons, glyphs_cons, List.cons_append]
  show (readString _).map _ = _
  rw [hread]
  rfl

/-- A source that begins with neither white space nor a bracket begins with a scalar. -/
theorem readWritten_scalar (origin : Origin) (depth : Nat) {c : Char} {more : List Glyph}
    (hspace : isSpace (.char c) = false) (hlist : c ≠ '[') (hobject : c ≠ '{') :
    readWritten origin depth (.char c :: more) = readScalar origin (.char c :: more) := by
  have hcons := skipSpace_cons hspace more
  rw [readWritten_of_scalar, hcons]
  · rintro ⟨rest, heq⟩
    exact hlist (Glyph.char.inj (List.cons.inj (hcons.symm.trans heq)).1)
  · rintro ⟨rest, heq⟩
    exact hobject (Glyph.char.inj (List.cons.inj (hcons.symm.trans heq)).1)

theorem readWritten_array (origin : Origin) (depth : Nat) (more : List Glyph) :
    readWritten origin (depth + 1) (.char '[' :: more) =
      (readItems (readWritten origin depth) (more.length + 1) true more).map
        fun (items, rest) => (.array items, rest) := by
  rw [readWritten, skipSpace_cons rfl]
  rfl

theorem readWritten_object (origin : Origin) (depth : Nat) (more : List Glyph) :
    readWritten origin (depth + 1) (.char '{' :: more) =
      (readFields (readWritten origin depth) (more.length + 1) true more).map
        fun (fields, rest) => (.object fields, rest) := by
  rw [readWritten, skipSpace_cons rfl]
  rfl

theorem readWritten_chars_of_scalar (origin : Origin) (depth : Nat) {v : Value}
    (hexact : v.IsExact) (hscalar : v.depth = 0) {rest : List Glyph} (hrest : EndsNumber rest) :
    readWritten origin depth (glyphs v.chars ++ rest) = .ok (v, rest) := by
  cases hexact with
  | null =>
    refine (readWritten_scalar origin depth rfl (by decide) (by decide)).trans ?_
    exact readLiteral_glyphs .null ['u', 'l', 'l'] rest
  | bool b =>
    cases b with
    | true =>
      refine (readWritten_scalar origin depth rfl (by decide) (by decide)).trans ?_
      exact readLiteral_glyphs (.bool true) ['r', 'u', 'e'] rest
    | false =>
      refine (readWritten_scalar origin depth rfl (by decide) (by decide)).trans ?_
      exact readLiteral_glyphs (.bool false) ['a', 'l', 's', 'e'] rest
  | integer i hi =>
    have hread := readScalar_integerChars origin i hi hrest
    obtain ⟨c, cs, hchars, hspace, -⟩ := Value.chars_eq_cons (.integer i hi)
    have hchars : integerChars i = c :: cs := hchars
    have hhead : c ≠ '[' ∧ c ≠ '{' := by
      obtain ⟨d, ds, hsame, hd⟩ := integerChars_eq_cons i
      obtain ⟨rfl, -⟩ := List.cons.inj (hchars.symm.trans hsame)
      constructor
      · rintro rfl
        exact absurd hd (by decide)
      · rintro rfl
        exact absurd hd (by decide)
    show readWritten origin depth (glyphs (integerChars i) ++ rest) = _
    rw [hchars, glyphs_cons, List.cons_append] at hread ⊢
    rw [readWritten_scalar origin depth hspace hhead.1 hhead.2, hread]
  | string s =>
    refine (readWritten_scalar origin depth rfl (by decide) (by decide)).trans ?_
    exact readScalar_stringChars origin s rest
  | array hitems => cases hscalar
  | object hfields => cases hscalar

/-- The compact text of a value is read as that value. -/
theorem readWritten_chars (origin : Origin) {depth : Nat} {v : Value} (hexact : v.IsExact)
    (hdepth : v.depth ≤ depth) {rest : List Glyph} (hrest : EndsNumber rest) :
    readWritten origin depth (glyphs v.chars ++ rest) = .ok (v, rest) := by
  induction depth generalizing v rest with
  | zero => exact readWritten_chars_of_scalar origin 0 hexact (Nat.le_zero.mp hdepth) hrest
  | succ depth ih =>
    by_cases hscalar : v.depth = 0
    · exact readWritten_chars_of_scalar origin (depth + 1) hexact hscalar hrest
    cases hexact with
    | null | bool | integer | string => exact absurd rfl hscalar
    | @array items hitems =>
      have hinner : Value.itemsDepth items ≤ depth := Nat.le_of_succ_le_succ hdepth
      have hback : ∀ item ∈ items, ∀ rest, EndsNumber rest →
          readWritten origin depth (glyphs item.chars ++ rest) = .ok (item, rest) :=
        fun item hitem rest hrest => ih (hitems item hitem)
          (Nat.le_trans (Value.depth_le_itemsDepth hitem) hinner) hrest
      have hchars : glyphs (Value.array items).chars ++ rest =
          .char '[' :: (glyphs (Value.itemsFrom true items) ++ .char ']' :: rest) := by
        cases items <;> simp [Value.chars, Value.itemsChars, Value.itemsFrom, glyphs]
      have hlength := Value.length_le_length_itemsFrom true items fun item hitem => by
        obtain ⟨c, cs, hitem, -⟩ := Value.chars_eq_cons (hitems item hitem)
        rw [hitem]
        exact List.cons_ne_nil c cs
      rw [hchars, readWritten_array, readItems_itemsFrom hitems hback]
      · rfl
      · rw [List.length_append, length_glyphs]
        omega
    | @object fields hfields =>
      have hinner : Value.fieldsDepth fields ≤ depth := Nat.le_of_succ_le_succ hdepth
      have hback : ∀ field ∈ fields, ∀ rest, EndsNumber rest →
          readWritten origin depth (glyphs field.2.chars ++ rest) = .ok (field.2, rest) :=
        fun field hfield rest hrest => ih (hfields field hfield)
          (Nat.le_trans (Value.depth_le_fieldsDepth hfield) hinner) hrest
      have hchars : glyphs (Value.object fields).chars ++ rest =
          .char '{' :: (glyphs (Value.fieldsFrom true fields) ++ .char '}' :: rest) := by
        cases fields <;> simp [Value.chars, Value.fieldsChars, Value.fieldsFrom, glyphs]
      have hlength := Value.length_le_length_fieldsFrom true fields
      rw [hchars, readWritten_object, readFields_fieldsFrom hback]
      · rfl
      · rw [List.length_append, length_glyphs]
        omega

end Json
end CommandSchema
