/-
Types of options and their defaults.

`StandsFor` says which kind and which variants a type stands for, and `MayDefault` which values an
option of a type may declare as its default; neither mentions the checks.  `resolveType` and
`resolveDefault` agree with them.  An option that is resolved is well formed: its default suits its
kind, and only an option that may be repeated has none.
-/
import CommandSchema.Proofs.CommandOption.Resolve

namespace CommandSchema

namespace Variants

theorem repeatedAfter?_eq_none_iff {seen variants : List String} :
    repeatedAfter? seen variants = none ↔ (∀ v ∈ variants, v ∉ seen) ∧ variants.Nodup := by
  induction variants generalizing seen with
  | nil => simp [repeatedAfter?]
  | cons v rest ih =>
    by_cases hseen : v ∈ seen
    · simp [repeatedAfter?, hseen]
    · rw [repeatedAfter?, if_neg hseen, ih, List.forall_mem_cons, List.nodup_cons]
      constructor
      · rintro ⟨hrest, hnodup⟩
        have hold : ∀ w ∈ rest, w ∉ seen := fun w hw => mt (List.mem_cons_of_mem v) (hrest w hw)
        have hnew : v ∉ rest := fun hv => hrest v hv List.mem_cons_self
        exact ⟨⟨hseen, hold⟩, hnew, hnodup⟩
      · rintro ⟨⟨-, hold⟩, hnew, hnodup⟩
        refine ⟨fun w hw hmem => ?_, hnodup⟩
        rcases List.mem_cons.mp hmem with rfl | hmem
        · exact hnew hw
        · exact hold w hw hmem

theorem repeated?_eq_none_iff {variants : List String} :
    repeated? variants = none ↔ variants.Nodup := by
  rw [repeated?, repeatedAfter?_eq_none_iff]
  exact and_iff_right fun _ _ => List.not_mem_nil

theorem ofType_ne_nil (type : String) : ofType type ≠ [] := by
  rw [ofType, Text.split]
  simp [List.splitOn_ne_nil]

end Variants

theorem Json.inRange_natCast {n : Nat} (h : n < 18446744073709551616) :
    -9223372036854775808 ≤ (n : Int) ∧ (n : Int) < 18446744073709551616 := by
  omega

namespace CommandOption

/-! ## Types -/

/-- The kind and the variants that a type stands for. -/
inductive StandsFor : String → OptionKind → List String → Prop
  | flag : StandsFor "flag" .flag []
  | int : StandsFor "int" .int []
  | str : StandsFor "str" .str []
  | string : StandsFor "string" .str []
  | enum {type : String} (hbar : Variants.bar ∈ type.toList)
    (hempty : "" ∉ Variants.ofType type) (hnodup : (Variants.ofType type).Nodup) :
    StandsFor type .enum (Variants.ofType type)

theorem resolveEnum_eq_ok_iff {command option type : String} {variants : List String} :
    resolveEnum command option type = .ok variants ↔
      "" ∉ Variants.ofType type ∧ (Variants.ofType type).Nodup ∧
        variants = Variants.ofType type := by
  rw [← Variants.repeated?_eq_none_iff, resolveEnum]
  by_cases hempty : "" ∈ Variants.ofType type
  · simp [hempty]
  · cases hrepeated : Variants.repeated? (Variants.ofType type) with
    | some v => simp [hempty]
    | none => simp [hempty, eq_comm]

theorem resolveType_of_bar {command option type : String} (h : Variants.bar ∈ type.toList) :
    resolveType command option type =
      (resolveEnum command option type).map fun variants => (.enum, variants) := if_pos h

theorem StandsFor.resolveType {command option type : String} {kind : OptionKind}
    {variants : List String} (h : StandsFor type kind variants) :
    resolveType command option type = .ok (kind, variants) := by
  cases h with
  | flag => rfl
  | int => rfl
  | str => rfl
  | string => rfl
  | enum hbar hempty hnodup =>
    rw [resolveType_of_bar hbar, resolveEnum_eq_ok_iff.mpr ⟨hempty, hnodup, rfl⟩]
    rfl

/-- The types without variants. -/
def plainTypes : List String := ["flag", "int", "str", "string"]

/-- The types of options that may be given more than once. -/
def repeatableTypes : List String := ["int", "str", "string"]

theorem resolveType_of_not_bar (command option : String) {type : String}
    (h : Variants.bar ∉ type.toList) :
    (∃ kind, StandsFor type kind []) ∨
      type ∉ plainTypes ∧
        resolveType command option type = .error (.unknownType command option type) := by
  unfold resolveType
  rw [if_neg h]
  split
  · exact .inl ⟨_, .flag⟩
  · exact .inl ⟨_, .int⟩
  · exact .inl ⟨_, .str⟩
  · exact .inl ⟨_, .string⟩
  next hflag hint hstr hstring =>
    refine .inr ⟨?_, rfl⟩
    simp only [plainTypes, List.mem_cons, List.not_mem_nil, or_false, not_or]
    exact ⟨hflag, hint, hstr, hstring⟩

theorem standsFor_of_resolveType {command option type : String} {kind : OptionKind}
    {variants : List String} (h : resolveType command option type = .ok (kind, variants)) :
    StandsFor type kind variants := by
  by_cases hbar : Variants.bar ∈ type.toList
  · rw [resolveType_of_bar hbar, Outcome.map_eq_ok_iff] at h
    obtain ⟨_, henum, heq⟩ := h
    obtain ⟨hempty, hnodup, rfl⟩ := resolveEnum_eq_ok_iff.mp henum
    cases heq
    exact .enum hbar hempty hnodup
  · rcases resolveType_of_not_bar command option hbar with
      ⟨plain, hplain⟩ | ⟨-, herror⟩
    · rw [hplain.resolveType] at h
      cases h
      exact hplain
    · rw [herror] at h
      cases h

theorem resolveType_eq_ok_iff {command option type : String} {kind : OptionKind}
    {variants : List String} :
    resolveType command option type = .ok (kind, variants) ↔ StandsFor type kind variants :=
  ⟨standsFor_of_resolveType, StandsFor.resolveType⟩

theorem StandsFor.mem_plainTypes {type : String} {kind : OptionKind} {variants : List String}
    (h : StandsFor type kind variants) : Variants.bar ∈ type.toList ∨ type ∈ plainTypes := by
  cases h with
  | flag => decide
  | int => decide
  | str => decide
  | string => decide
  | enum hbar => exact .inl hbar

theorem StandsFor.isRepeatable_iff {type : String} {kind : OptionKind} {variants : List String}
    (h : StandsFor type kind variants) : kind.isRepeatable = true ↔ type ∈ repeatableTypes := by
  cases h with
  | flag => decide
  | int => decide
  | str => decide
  | string => decide
  | enum hbar =>
    refine iff_of_false nofun fun hmem => ?_
    have hnone : ∀ name ∈ repeatableTypes, Variants.bar ∉ name.toList := by decide
    exact hnone type hmem hbar

theorem StandsFor.variants_iff {type : String} {kind : OptionKind} {variants : List String}
    (h : StandsFor type kind variants) : variants ≠ [] ↔ kind = .enum := by
  cases h with
  | enum => exact iff_of_true (Variants.ofType_ne_nil type) rfl
  | _ => decide

/-! ## Defaults -/

/-- A value that an option of a type may declare as its default. -/
inductive MayDefault : String → Json.Value → Prop
  | flag (b : Bool) : MayDefault "flag" (.bool b)
  | int (n : Nat) (h : n < 18446744073709551616) :
    MayDefault "int" (.number (.integer n (Json.inRange_natCast h)))
  | str (s : String) : MayDefault "str" (.string s)
  | string (s : String) : MayDefault "string" (.string s)
  | enum {type : String} (hbar : Variants.bar ∈ type.toList) (s : String)
    (h : s ∈ Variants.ofType type) : MayDefault type (.string s)

/-- A value and the default that is made of it. -/
inductive Denotes : Json.Value → DefaultValue → Prop
  | bool (b : Bool) : Denotes (.bool b) (.bool b)
  | int (n : Nat) (h : n < 18446744073709551616) :
    Denotes (.number (.integer n (Json.inRange_natCast h))) (.int n)
  | str (s : String) : Denotes (.string s) (.str s)

/-- The defaults that an option may have. -/
inductive Suits (multiple : Bool) (variants : List String) : OptionKind → DefaultValue → Prop
  | flag (b : Bool) : Suits multiple variants .flag (.bool b)
  | int (n : Nat) (h : n < 18446744073709551616) : Suits multiple variants .int (.int n)
  | str (s : String) : Suits multiple variants .str (.str s)
  | enum (s : String) (h : s ∈ variants) : Suits multiple variants .enum (.str s)
  | noInt (h : multiple = true) : Suits multiple variants .int .unset
  | noStr (h : multiple = true) : Suits multiple variants .str .unset

section Suits

variable {multiple : Bool} {variants : List String} {kind : OptionKind} {default : DefaultValue}

theorem Suits.exists_bool (h : Suits multiple variants .flag default) :
    ∃ b, default = .bool b := by
  cases h with
  | flag b => exact ⟨b, rfl⟩

theorem Suits.exists_int (h : Suits multiple variants .int default) :
    default = .unset ∨ ∃ n < 18446744073709551616, default = .int n := by
  cases h with
  | int n hrange => exact .inr ⟨n, hrange, rfl⟩
  | noInt => exact .inl rfl

theorem Suits.exists_str (h : Suits multiple variants .str default) :
    default = .unset ∨ ∃ s, default = .str s := by
  cases h with
  | str s => exact .inr ⟨s, rfl⟩
  | noStr => exact .inl rfl

theorem Suits.exists_variant (h : Suits multiple variants .enum default) :
    ∃ s ∈ variants, default = .str s := by
  cases h with
  | enum s hs => exact ⟨s, hs, rfl⟩

theorem Suits.of_unset (h : Suits multiple variants kind .unset) :
    multiple = true ∧ (kind = .int ∨ kind = .str) := by
  cases h with
  | noInt hmany => exact ⟨hmany, .inl rfl⟩
  | noStr hmany => exact ⟨hmany, .inr rfl⟩

end Suits

theorem asBool?_eq_some_iff {value : Json.Value} {b : Bool} :
    value.asBool? = some b ↔ value = .bool b := by
  cases value with
  | bool c => simp [Json.Value.asBool?]
  | _ => simp [Json.Value.asBool?]

theorem asString?_eq_some_iff {value : Json.Value} {s : String} :
    value.asString? = some s ↔ value = .string s := by
  cases value with
  | string t => simp [Json.Value.asString?]
  | _ => simp [Json.Value.asString?]

theorem asNat?_eq_some_iff {value : Json.Value} {n : Nat} :
    value.asNat? = some n ↔ ∃ h : n < 18446744073709551616,
      value = .number (.integer n (Json.inRange_natCast h)) := by
  unfold Json.Value.asNat?
  split
  next i hi =>
    simp only [Json.Value.number.injEq, Json.Number.integer.injEq]
    split
    next hpos =>
      rw [Option.some.injEq]
      constructor
      · rintro rfl
        exact ⟨by omega, by omega⟩
      · rintro ⟨-, rfl⟩
        exact Int.toNat_natCast n
    next hneg => exact iff_of_false nofun fun ⟨_, heq⟩ => hneg (by omega)
  next hother => exact iff_of_false nofun fun ⟨_, heq⟩ => hother _ _ heq

theorem declaredDefault?_eq_some_iff {kind : OptionKind} (multiple : Bool)
    {variants : List String} {value : Json.Value} {default : DefaultValue} :
    declaredDefault? kind variants value = some default ↔
      Denotes value default ∧ Suits multiple variants kind default := by
  constructor
  · intro h
    cases kind with
    | flag =>
      obtain ⟨b, hb, rfl⟩ := Option.map_eq_some_iff.mp h
      obtain rfl := asBool?_eq_some_iff.mp hb
      exact ⟨.bool b, .flag b⟩
    | int =>
      obtain ⟨n, hn, rfl⟩ := Option.map_eq_some_iff.mp h
      obtain ⟨hrange, rfl⟩ := asNat?_eq_some_iff.mp hn
      exact ⟨.int n hrange, .int n hrange⟩
    | str =>
      obtain ⟨s, hs, rfl⟩ := Option.map_eq_some_iff.mp h
      obtain rfl := asString?_eq_some_iff.mp hs
      exact ⟨.str s, .str s⟩
    | enum =>
      obtain ⟨s, hs, rfl⟩ := Option.map_eq_some_iff.mp h
      obtain ⟨htext, hmem⟩ := Option.filter_eq_some_iff.mp hs
      obtain rfl := asString?_eq_some_iff.mp htext
      exact ⟨.str s, .enum s (of_decide_eq_true hmem)⟩
  · rintro ⟨hdenotes, hsuits⟩
    cases hsuits with
    | flag b =>
      cases hdenotes
      rfl
    | int n h =>
      cases hdenotes
      rw [declaredDefault?, asNat?_eq_some_iff.mpr ⟨h, rfl⟩]
      rfl
    | str s =>
      cases hdenotes
      rfl
    | enum s h =>
      cases hdenotes
      rw [declaredDefault?, asString?_eq_some_iff.mpr rfl, Option.filter_some,
        if_pos (decide_eq_true h)]
      rfl
    | noInt => cases hdenotes
    | noStr => cases hdenotes

theorem StandsFor.of_bar {type : String} {kind : OptionKind} {variants : List String}
    (h : StandsFor type kind variants) (hbar : Variants.bar ∈ type.toList) :
    kind = .enum ∧ variants = Variants.ofType type := by
  cases h with
  | enum => exact ⟨rfl, rfl⟩
  | _ => exact absurd hbar (by decide)

theorem StandsFor.unique {type : String} {kind other : OptionKind} {variants others : List String}
    (h : StandsFor type kind variants) (hother : StandsFor type other others) :
    kind = other ∧ variants = others := by
  have hkind : CommandOption.resolveType "" "" type = .ok (kind, variants) := h.resolveType
  rw [hother.resolveType] at hkind
  cases hkind
  exact ⟨rfl, rfl⟩

/-- A type may have a value as its default when the value denotes a default of its kind. -/
theorem StandsFor.mayDefault_iff {type : String} {kind : OptionKind} {variants : List String}
    (h : StandsFor type kind variants) (multiple : Bool) {value : Json.Value} :
    MayDefault type value ↔
      ∃ default, Denotes value default ∧ Suits multiple variants kind default := by
  constructor
  · intro hvalue
    cases hvalue with
    | flag b =>
      obtain ⟨rfl, rfl⟩ := h.unique .flag
      exact ⟨_, .bool b, .flag b⟩
    | int n hrange =>
      obtain ⟨rfl, rfl⟩ := h.unique .int
      exact ⟨_, .int n hrange, .int n hrange⟩
    | str s =>
      obtain ⟨rfl, rfl⟩ := h.unique .str
      exact ⟨_, .str s, .str s⟩
    | string s =>
      obtain ⟨rfl, rfl⟩ := h.unique .string
      exact ⟨_, .str s, .str s⟩
    | enum hbar s hs =>
      obtain ⟨rfl, rfl⟩ := h.of_bar hbar
      exact ⟨_, .str s, .enum s hs⟩
  · rintro ⟨default, hdenotes, hsuits⟩
    cases h with
    | flag =>
      cases hsuits
      cases hdenotes
      exact .flag _
    | int =>
      cases hsuits with
      | int n hrange =>
        cases hdenotes
        exact .int n hrange
      | noInt => cases hdenotes
    | str =>
      cases hsuits with
      | str s =>
        cases hdenotes
        exact .str s
      | noStr => cases hdenotes
    | string =>
      cases hsuits with
      | str s =>
        cases hdenotes
        exact .string s
      | noStr => cases hdenotes
    | enum hbar =>
      cases hsuits with
      | enum s hs =>
        cases hdenotes
        exact .enum hbar s hs

theorem StandsFor.suits_impliedDefault {type : String} {kind : OptionKind} {variants : List String}
    (h : StandsFor type kind variants) (multiple : Bool) :
    Suits multiple variants kind (impliedDefault kind multiple variants) := by
  have hint : Suits multiple [] .int (impliedDefault .int multiple []) := by
    cases multiple with
    | true => exact .noInt rfl
    | false => exact .int 0 (by decide)
  have hstr : Suits multiple [] .str (impliedDefault .str multiple []) := by
    cases multiple with
    | true => exact .noStr rfl
    | false => exact .str ""
  cases h with
  | flag => exact .flag false
  | int => exact hint
  | str => exact hstr
  | string => exact hstr
  | enum =>
    cases hvariants : Variants.ofType type with
    | nil => exact absurd hvariants (Variants.ofType_ne_nil type)
    | cons first rest => exact .enum first List.mem_cons_self

theorem resolveDefault_eq_ok_iff {command option : String} {kind : OptionKind} {multiple : Bool}
    {variants : List String} {declared : Option Json.Value} {default : DefaultValue} :
    resolveDefault command option kind multiple variants declared = .ok default ↔
      (declared = none ∧ default = impliedDefault kind multiple variants) ∨
        ∃ value, declared = some value ∧ Denotes value default ∧
          Suits multiple variants kind default := by
  cases declared with
  | none => simp [resolveDefault, eq_comm]
  | some value =>
    have hdeclared : resolveDefault command option kind multiple variants (some value) =
        .ok default ↔ declaredDefault? kind variants value = some default := by
      rw [resolveDefault]
      cases declaredDefault? kind variants value with
      | none => simp
      | some other => simp
    rw [hdeclared, declaredDefault?_eq_some_iff multiple]
    simp

/-! ## Options -/

section Resolved

variable {taken : TakenNames} {command : String} {decl : OptionDecl} {o : CommandOption}

/-- What an option has of the type of its declaration, and of the default if there is one. -/
theorem typed_of_resolve (h : resolve taken command decl = .ok o) :
    StandsFor decl.type o.kind o.variants ∧ o.multiple = decl.multi ∧
      (decl.multi = true → decl.type ∈ repeatableTypes) ∧
      Suits o.multiple o.variants o.kind o.default ∧
      (decl.default = none → o.default = impliedDefault o.kind o.multiple o.variants) ∧
      ∀ value, decl.default = some value → Denotes value o.default := by
  obtain ⟨-, -, -, -, short, -, kind, variants, htype, hmulti, default, hdefault, -, rfl⟩ :=
    resolve_eq_ok_iff.mp h
  have hstands := resolveType_eq_ok_iff.mp htype
  rw [hstands.isRepeatable_iff] at hmulti
  rcases resolveDefault_eq_ok_iff.mp hdefault with
    ⟨hnone, himplied⟩ | ⟨value, hvalue, hdenotes, hsuits⟩
  · refine ⟨hstands, rfl, hmulti, ?_, fun _ => himplied, fun value hvalue => ?_⟩
    · rw [himplied]
      exact hstands.suits_impliedDefault decl.multi
    · rw [hnone] at hvalue
      cases hvalue
  · refine ⟨hstands, rfl, hmulti, hsuits, fun hnone => ?_, fun other hother => ?_⟩
    · rw [hvalue] at hnone
      cases hnone
    · obtain rfl := Option.some.inj (hvalue.symm.trans hother)
      exact hdenotes

end Resolved

/-- An option with variants exactly if it is an enumeration, and with a default that suits its
kind. -/
structure WellFormed (o : CommandOption) : Prop where
  variants_iff : o.variants ≠ [] ↔ o.kind = .enum
  repeatable : o.multiple = true → o.kind = .int ∨ o.kind = .str
  flag : o.kind = .flag → ∃ b, o.default = .bool b
  int : o.kind = .int → o.default = .unset ∨ ∃ n < 18446744073709551616, o.default = .int n
  str : o.kind = .str → o.default = .unset ∨ ∃ s, o.default = .str s
  enum : o.kind = .enum → ∃ s ∈ o.variants, o.default = .str s
  unset : o.default = .unset → o.multiple = true ∧ (o.kind = .int ∨ o.kind = .str)

theorem wellFormed_of_resolve {taken : TakenNames} {command : String} {decl : OptionDecl}
    {o : CommandOption} (h : resolve taken command decl = .ok o) : o.WellFormed := by
  obtain ⟨hstands, hmultiple, hmulti, hsuits, -⟩ := typed_of_resolve h
  have hrepeatable : o.multiple = true → o.kind = .int ∨ o.kind = .str := by
    intro hmany
    have hkind := hstands.isRepeatable_iff.mpr (hmulti (hmultiple ▸ hmany))
    cases hcase : o.kind with
    | int => exact .inl rfl
    | str => exact .inr rfl
    | flag => rw [hcase] at hkind; cases hkind
    | enum => rw [hcase] at hkind; cases hkind
  exact {
    variants_iff := hstands.variants_iff
    repeatable := hrepeatable
    flag := fun hkind => (hkind ▸ hsuits).exists_bool
    int := fun hkind => (hkind ▸ hsuits).exists_int
    str := fun hkind => (hkind ▸ hsuits).exists_str
    enum := fun hkind => (hkind ▸ hsuits).exists_variant
    unset := fun hunset => (hunset ▸ hsuits).of_unset }

end CommandOption
end CommandSchema
