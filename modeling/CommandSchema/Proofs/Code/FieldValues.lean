/-
Fields and their initial values as a compiler reads them.

A field is declared by its type, its name and its initial value, and the type decides how the value
is read: a truth value is one of two words, a number is written by decimal digits and fits in 64
bits, a text is a literal, and only a vector has braces.  The field of an option is read as the
default of the option (`readField_field`), and so as what its declaration says or leaves to be
implied (`field_readBack`).
-/
import CommandSchema.Code.Field
import CommandSchema.Proofs.Code.LiteralLists
import CommandSchema.Proofs.CommandOption.Types
import CommandSchema.Proofs.Json.Scalars
import CommandSchema.Proofs.Text.Marks

namespace CommandSchema
namespace Code

/-- The types of single values. -/
inductive ScalarType where
  | truth
  | natural
  | text
  deriving DecidableEq, Repr

inductive Scalar where
  | truth (b : Bool)
  | natural (n : Nat)
  | text (s : String)
  deriving DecidableEq, Repr

/-- The type of a field: that of a single value, or of a vector of such values. -/
structure FieldType where
  scalar : ScalarType
  isVector : Bool
  deriving DecidableEq, Repr

inductive FieldValue where
  | single (x : Scalar)
  | vector (xs : List Scalar)
  deriving DecidableEq, Repr

namespace Scalar

inductive HasType : Scalar → ScalarType → Prop
  | truth (b : Bool) : HasType (.truth b) .truth
  | natural (n : Nat) (h : n < 18446744073709551616) : HasType (.natural n) .natural
  | text (s : String) : HasType (.text s) .text

/-- The value that a declared default stands for. -/
inductive OfJson : Json.Value → Scalar → Prop
  | truth (b : Bool) : OfJson (.bool b) (.truth b)
  | natural (n : Nat) (h : n < 18446744073709551616) :
    OfJson (.number (.integer n (Json.inRange_natCast h))) (.natural n)
  | text (s : String) : OfJson (.string s) (.text s)

def ofDefault? : DefaultValue → Option Scalar
  | .bool b => some (.truth b)
  | .int n => some (.natural n)
  | .str s => some (.text s)
  | .unset => none

end Scalar

namespace FieldType

def name (t : FieldType) : String :=
  let scalar := match t.scalar with
    | .truth => "bool"
    | .natural => "uint64_t"
    | .text => "std::string"
  if t.isVector then "std::vector<" ++ scalar ++ ">" else scalar

def all : List FieldType :=
  [⟨.truth, false⟩, ⟨.natural, false⟩, ⟨.text, false⟩, ⟨.natural, true⟩, ⟨.text, true⟩]

end FieldType

/-- A value of a type; a vector has at most one item. -/
inductive FieldValue.HasType : FieldValue → FieldType → Prop
  | single {x : Scalar} {t : ScalarType} (h : x.HasType t) : HasType (.single x) ⟨t, false⟩
  | empty (t : ScalarType) : HasType (.vector []) ⟨t, true⟩
  | one {x : Scalar} {t : ScalarType} (h : x.HasType t) : HasType (.vector [x]) ⟨t, true⟩

/-! ## Reading -/

def isWordChar (c : Char) : Bool := c.isAlphanum || c = '_'

/-- A number of 64 bits; one that begins with a zero and goes on would be read as octal digits. -/
def natural? (word : List Char) : Option Nat :=
  let n := Nat.ofDigitChars 10 word 0
  if word ≠ [] ∧ word.all Char.isDigit ∧ (word.head? = some '0' → word = ['0']) ∧
      n < 18446744073709551616 then some n
  else none

/-- A single value in front of some text. -/
def readScalar : ScalarType → List Char → Option (Scalar × List Char)
  | .truth, text =>
    let word := text.takeWhile isWordChar
    if word = "true".toList then some (.truth true, text.dropWhile isWordChar)
    else if word = "false".toList then some (.truth false, text.dropWhile isWordChar)
    else none
  | .natural, text =>
    (natural? (text.takeWhile isWordChar)).map fun n => (.natural n, text.dropWhile isWordChar)
  | .text, text => (readLiteral text).map fun (s, rest) => (.text s, rest)

def readValue (t : FieldType) (text : List Char) : Option (FieldValue × List Char) :=
  if t.isVector then
    (readList (readScalar t.scalar) text).map fun (xs, rest) => (.vector xs, rest)
  else (readScalar t.scalar text).map fun (x, rest) => (.single x, rest)

/-- The type, the name and the initial value of a field that is declared on a line of its own. -/
def readField (line : String) : Option (FieldType × String × FieldValue) := do
  let (typeName, rest) ← Text.cutAt [' '] line.toList
  let type ← FieldType.all.find? (·.name.toList = typeName)
  let (name, rest) ← Text.cutAt [' ', '=', ' '] rest
  let (value, behind) ← readValue type rest
  if behind = [';'] then return (type, String.ofList name, value) else none

/-! ## Single values -/

theorem isWordChar_of_isDigit {c : Char} (h : c.isDigit) : isWordChar c = true := by
  rw [isWordChar, Char.isAlphanum, h, Bool.or_true, Bool.true_or]

theorem isWhitespace_of_isDigit {c : Char} (h : c.isDigit) : c.isWhitespace = false := by
  rw [Bool.eq_false_iff]
  intro hblank
  simp only [Char.isWhitespace, Bool.or_eq_true, decide_eq_true_eq] at hblank
  rcases hblank with ((rfl | rfl) | rfl) | rfl
  all_goals exact absurd h (by decide)

theorem isWordChar_eq_false_of_mem {mark : Char} (h : mark ∈ valueEnds) :
    isWordChar mark = false := by
  have hall : valueEnds.all (fun c => !isWordChar c) = true := by decide
  exact (Bool.not_eq_true' _).mp (List.all_eq_true.mp hall mark h)

/-- A word ends where a value may end. -/
theorem word_append {word : List Char} (hword : ∀ c ∈ word, isWordChar c = true) {mark : Char}
    (hmark : mark ∈ valueEnds) (rest : List Char) :
    (word ++ mark :: rest).takeWhile isWordChar = word ∧
      (word ++ mark :: rest).dropWhile isWordChar = mark :: rest := by
  have hends : ¬ isWordChar mark = true := by
    rw [isWordChar_eq_false_of_mem hmark]
    exact Bool.false_ne_true
  rw [List.takeWhile_append_of_pos hword, List.dropWhile_append_of_pos hword,
    List.takeWhile_cons_of_neg hends, List.dropWhile_cons_of_neg hends, List.append_nil]
  exact ⟨rfl, rfl⟩

theorem natural?_toDigits {n : Nat} (h : n < 18446744073709551616) :
    natural? (Nat.toDigits 10 n) = some n := by
  have hvalue : Nat.ofDigitChars 10 (Nat.toDigits 10 n) 0 = n := Nat.ofDigitChars_ten_toDigits
  have hdigits : (Nat.toDigits 10 n).all Char.isDigit = true :=
    List.all_eq_true.mpr fun c hc => Nat.isDigit_of_mem_toDigits (by decide) (by decide) hc
  have hzero : (Nat.toDigits 10 n).head? = some '0' → Nat.toDigits 10 n = ['0'] := by
    intro hhead
    rcases Nat.eq_zero_or_pos n with rfl | hpos
    · rfl
    · exact absurd hhead (Json.head?_toDigits_ne hpos)
  simp only [natural?, hvalue]
  exact if_pos ⟨Nat.toDigits_ne_nil, hdigits, hzero, h⟩

theorem readAs_truth (b : Bool) : ReadAs (readScalar .truth) (.truth b) (truth b) := by
  have hword : (truth b).toList.all isWordChar = true := by
    cases b with
    | true => decide
    | false => decide
  refine ⟨?_, fun mark hmark rest => ?_⟩
  · cases b with
    | true => exact ⟨'t', ['r', 'u', 'e'], rfl, by decide, by decide⟩
    | false => exact ⟨'f', ['a', 'l', 's', 'e'], rfl, by decide, by decide⟩
  · obtain ⟨htake, hdrop⟩ := word_append (List.all_eq_true.mp hword) hmark rest
    simp only [readScalar, htake, hdrop]
    cases b with
    | true => rfl
    | false => rfl

theorem readAs_natural {n : Nat} (h : n < 18446744073709551616) :
    ReadAs (readScalar .natural) (.natural n) (toString n) := by
  have hchars : (toString n).toList = Nat.toDigits 10 n := by
    rw [Nat.toString_eq_repr, Nat.toList_repr]
  have hword : ∀ c ∈ (toString n).toList, isWordChar c = true := by
    intro c hc
    rw [hchars] at hc
    exact isWordChar_of_isDigit (Nat.isDigit_of_mem_toDigits (by decide) (by decide) hc)
  refine ⟨?_, fun mark hmark rest => ?_⟩
  · obtain ⟨c, ds, hdigits, hc⟩ := Json.toDigits_eq_cons n
    exact ⟨c, ds, hchars.trans hdigits, isWhitespace_of_isDigit hc, Json.ne_of_isDigit hc rfl⟩
  · obtain ⟨htake, hdrop⟩ := word_append hword hmark rest
    rw [readScalar, htake, hdrop, hchars, natural?_toDigits h]
    rfl

theorem readAs_text (s : String) : ReadAs (readScalar .text) (.text s) (literal s) := by
  have hliteral := readAs_literal s
  refine ⟨hliteral.first, fun mark hmark rest => ?_⟩
  rw [readScalar, hliteral.read mark hmark]
  rfl

/-! ## The field of an option -/

def ScalarType.ofKind : OptionKind → ScalarType
  | .flag => .truth
  | .int => .natural
  | .str | .enum => .text

def FieldType.ofOption (o : CommandOption) : FieldType := ⟨.ofKind o.kind, o.multiple⟩

/-- What a field begins with, by the default of its option. -/
def FieldValue.ofDefault (multiple : Bool) (default : DefaultValue) : FieldValue :=
  match Scalar.ofDefault? default with
  | some x => if multiple then .vector [x] else .single x
  | none => .vector []

theorem readAs_defaultText {multiple : Bool} {variants : List String} {kind : OptionKind}
    {default : DefaultValue} (h : CommandOption.Suits multiple variants kind default) {x : Scalar}
    (hx : Scalar.ofDefault? default = some x) :
    ReadAs (readScalar (.ofKind kind)) x (defaultText default) := by
  cases h with
  | flag b =>
    obtain rfl : .truth b = x := Option.some.inj hx
    exact readAs_truth b
  | int n hrange =>
    obtain rfl : .natural n = x := Option.some.inj hx
    exact readAs_natural hrange
  | str s =>
    obtain rfl : .text s = x := Option.some.inj hx
    exact readAs_text s
  | enum s =>
    obtain rfl : .text s = x := Option.some.inj hx
    exact readAs_text s
  | noInt => cases hx
  | noStr => cases hx

theorem ofDefault?_eq_none_iff {default : DefaultValue} :
    Scalar.ofDefault? default = none ↔ default = .unset := by
  cases default with
  | unset => exact iff_of_true rfl rfl
  | _ => exact iff_of_false nofun nofun

theorem readValue_vector {t : ScalarType} {xs : List Scalar} {texts : List String}
    (h : List.Forall₂ (ReadAs (readScalar t)) xs texts) (rest : List Char) :
    readValue ⟨t, true⟩ (("\x7b" ++ String.intercalate ", " texts ++ "\x7d").toList ++ rest) =
      some (.vector xs, rest) := by
  rw [readValue, if_pos rfl, readList_braces h rest]
  rfl

theorem readValue_initializer {o : CommandOption}
    (h : CommandOption.Suits o.multiple o.variants o.kind o.default) (rest : List Char) :
    readValue (.ofOption o) ((initializer o).toList ++ ';' :: rest) =
      some (.ofDefault o.multiple o.default, ';' :: rest) := by
  rw [initializer, FieldType.ofOption, FieldValue.ofDefault]
  cases hx : Scalar.ofDefault? o.default with
  | none =>
    have hunset := ofDefault?_eq_none_iff.mp hx
    have hmany : o.multiple = true := (hunset ▸ h).of_unset.1
    rw [if_pos (.inr hunset), hunset, hmany]
    exact readValue_vector List.Forall₂.nil (';' :: rest)
  | some x =>
    have hread := readAs_defaultText h hx
    cases hmany : o.multiple with
    | true =>
      rw [if_pos (.inl rfl)]
      have hitems : List.Forall₂ (ReadAs (readScalar (.ofKind o.kind))) [x]
          [defaultText o.default] := .cons hread .nil
      exact readValue_vector hitems (';' :: rest)
    | false =>
      have hset : ¬ (false = true ∨ o.default = .unset) := by
        rintro (hfalse | hunset)
        · cases hfalse
        · rw [ofDefault?_eq_none_iff.mpr hunset] at hx
          cases hx
      rw [if_neg hset, readValue, if_neg Bool.false_ne_true, hread.read ';' (by decide)]
      rfl

theorem fieldType_eq {o : CommandOption} (h : o.multiple = true → o.kind = .int ∨ o.kind = .str) :
    fieldType o = (FieldType.ofOption o).name ∧ FieldType.ofOption o ∈ FieldType.all := by
  rw [fieldType, FieldType.ofOption]
  cases hmany : o.multiple with
  | true =>
    rcases h hmany with hkind | hkind
    all_goals
      rw [hkind]
      decide
  | false => cases o.kind <;> decide

theorem find?_name {t : FieldType} (h : t ∈ FieldType.all) :
    FieldType.all.find? (·.name.toList = t.name.toList) = some t := by
  have hall : ∀ t ∈ FieldType.all,
      FieldType.all.find? (·.name.toList = t.name.toList) = some t := by decide
  exact hall t h

theorem space_notMem_name {t : FieldType} (h : t ∈ FieldType.all) : ' ' ∉ t.name.toList := by
  have hall : ∀ t ∈ FieldType.all, ' ' ∉ t.name.toList := by decide
  exact hall t h

/-- The field of an option that is well formed is read as its type, its name and its default. -/
theorem readField_field {o : CommandOption} (hname : Name.IsName .lower o.name)
    (hmany : o.multiple = true → o.kind = .int ∨ o.kind = .str)
    (h : CommandOption.Suits o.multiple o.variants o.kind o.default) :
    readField (field o) = some (.ofOption o, o.name, .ofDefault o.multiple o.default) := by
  obtain ⟨htype, hmem⟩ := fieldType_eq hmany
  have hchars : (field o).toList = (FieldType.ofOption o).name.toList ++ [' '] ++
      (o.name.toList ++ [' ', '=', ' '] ++ ((initializer o).toList ++ [';'])) := by
    simp only [field, htype, String.toList_append, List.append_assoc]
    rfl
  have hfirst : Text.cutAt [' '] (field o).toList = some ((FieldType.ofOption o).name.toList,
      o.name.toList ++ [' ', '=', ' '] ++ ((initializer o).toList ++ [';'])) := by
    rw [hchars]
    exact Text.cutAt_of_notMem (space_notMem_name hmem) _
  have hsecond : Text.cutAt [' ', '=', ' ']
      (o.name.toList ++ [' ', '=', ' '] ++ ((initializer o).toList ++ [';'])) =
        some (o.name.toList, (initializer o).toList ++ [';']) :=
    Text.cutAt_of_notMem (hname.notMem rfl) _
  rw [readField, hfirst]
  simp only [Option.bind_eq_bind, Option.bind_some, find?_name hmem, hsecond,
    readValue_initializer h, if_true, String.ofList_toList]
  rfl

theorem readField_of_isResolved {o : CommandOption} (h : o.IsResolved) :
    readField (field o) = some (.ofOption o, o.name, .ofDefault o.multiple o.default) := by
  have hname := h.isName
  obtain ⟨taken, command, decl, hresolve⟩ := h
  obtain ⟨-, -, -, hsuits, -⟩ := CommandOption.typed_of_resolve hresolve
  exact readField_field hname (CommandOption.wellFormed_of_resolve hresolve).repeatable hsuits

/-! ## The field of a declaration -/

/-- The type of the field that a declaration asks for. -/
def FieldType.ofDecl (decl : OptionDecl) : FieldType :=
  ⟨if decl.type = "flag" then .truth else if decl.type = "int" then .natural else .text, decl.multi⟩

/-- The initial value that a declaration gives to its field: the default that it declares, or what
its type implies if it declares none. -/
inductive FieldValue.OfDecl (decl : OptionDecl) : FieldValue → Prop
  | declared {value : Json.Value} {x : Scalar} (hdefault : decl.default = some value)
    (hsingle : decl.multi = false) (hx : Scalar.OfJson value x) : OfDecl decl (.single x)
  | declaredItem {value : Json.Value} {x : Scalar} (hdefault : decl.default = some value)
    (hmany : decl.multi = true) (hx : Scalar.OfJson value x) : OfDecl decl (.vector [x])
  | noItem (hdefault : decl.default = none) (hmany : decl.multi = true) : OfDecl decl (.vector [])
  | flag (hdefault : decl.default = none) (hsingle : decl.multi = false)
    (htype : decl.type = "flag") : OfDecl decl (.single (.truth false))
  | int (hdefault : decl.default = none) (hsingle : decl.multi = false)
    (htype : decl.type = "int") : OfDecl decl (.single (.natural 0))
  | str (hdefault : decl.default = none) (hsingle : decl.multi = false)
    (htype : decl.type = "str" ∨ decl.type = "string") : OfDecl decl (.single (.text ""))
  | enum {first : String} {others : List String} (hdefault : decl.default = none)
    (hsingle : decl.multi = false) (hbar : Variants.bar ∈ decl.type.toList)
    (hfirst : Variants.ofType decl.type = first :: others) : OfDecl decl (.single (.text first))

theorem hasType_of_suits {multiple : Bool} {variants : List String} {kind : OptionKind}
    {default : DefaultValue} (h : CommandOption.Suits multiple variants kind default) {x : Scalar}
    (hx : Scalar.ofDefault? default = some x) : x.HasType (.ofKind kind) := by
  cases h with
  | flag b =>
    cases hx
    exact .truth b
  | int n hrange =>
    cases hx
    exact .natural n hrange
  | str s =>
    cases hx
    exact .text s
  | enum s =>
    cases hx
    exact .text s
  | noInt => cases hx
  | noStr => cases hx

theorem hasType_ofDefault {multiple : Bool} {variants : List String} {kind : OptionKind}
    {default : DefaultValue} (h : CommandOption.Suits multiple variants kind default) :
    (FieldValue.ofDefault multiple default).HasType ⟨.ofKind kind, multiple⟩ := by
  rw [FieldValue.ofDefault]
  cases hx : Scalar.ofDefault? default with
  | none =>
    obtain rfl := ofDefault?_eq_none_iff.mp hx
    rw [h.of_unset.1]
    exact .empty _
  | some x =>
    have hscalar := hasType_of_suits h hx
    cases multiple with
    | true => exact .one hscalar
    | false => exact .single hscalar

theorem ofJson_of_denotes {value : Json.Value} {default : DefaultValue}
    (h : CommandOption.Denotes value default) :
    ∃ x, Scalar.ofDefault? default = some x ∧ Scalar.OfJson value x := by
  cases h with
  | bool b => exact ⟨.truth b, rfl, .truth b⟩
  | int n hrange => exact ⟨.natural n, rfl, .natural n hrange⟩
  | str s => exact ⟨.text s, rfl, .text s⟩

theorem ofDecl_declared {decl : OptionDecl} {value : Json.Value} {default : DefaultValue}
    (hdefault : decl.default = some value) (h : CommandOption.Denotes value default) :
    FieldValue.OfDecl decl (.ofDefault decl.multi default) := by
  obtain ⟨x, hx, hjson⟩ := ofJson_of_denotes h
  rw [FieldValue.ofDefault, hx]
  cases hmany : decl.multi with
  | true => exact .declaredItem hdefault hmany hjson
  | false => exact .declared hdefault hmany hjson

theorem ofDecl_implied {decl : OptionDecl} {kind : OptionKind} {variants : List String}
    (hdefault : decl.default = none) (h : CommandOption.StandsFor decl.type kind variants)
    (hmulti : decl.multi = true → decl.type ∈ CommandOption.repeatableTypes) :
    FieldValue.OfDecl decl
      (.ofDefault decl.multi (CommandOption.impliedDefault kind decl.multi variants)) := by
  have hrepeatable := h.isRepeatable_iff
  cases hmany : decl.multi with
  | true =>
    have hkind := hrepeatable.mpr (hmulti hmany)
    cases kind with
    | int => exact .noItem hdefault hmany
    | str => exact .noItem hdefault hmany
    | flag => cases hkind
    | enum => cases hkind
  | false =>
    generalize htype : decl.type = type at h
    cases h with
    | flag => exact .flag hdefault hmany htype
    | int => exact .int hdefault hmany htype
    | str => exact .str hdefault hmany (.inl htype)
    | string => exact .str hdefault hmany (.inr htype)
    | enum hbar =>
      subst htype
      cases hvariants : Variants.ofType decl.type with
      | nil => exact absurd hvariants (Variants.ofType_ne_nil decl.type)
      | cons first others => exact .enum hdefault hmany hbar hvariants

theorem ofKind_eq {type : String} {kind : OptionKind} {variants : List String}
    (h : CommandOption.StandsFor type kind variants) :
    ScalarType.ofKind kind =
      if type = "flag" then .truth else if type = "int" then .natural else .text := by
  cases h with
  | flag => rfl
  | int => rfl
  | str => rfl
  | string => rfl
  | enum hbar =>
    have hflag : type ≠ "flag" := fun heq => absurd (heq ▸ hbar) (by decide)
    have hint : type ≠ "int" := fun heq => absurd (heq ▸ hbar) (by decide)
    rw [if_neg hflag, if_neg hint]
    rfl

/-- The field of an option is read as a field of the declared type and name, with the default of
the option as its initial value.  This value has that type, and it is the default that the
declaration says or leaves to be implied. -/
theorem field_readBack {taken : TakenNames} {command : String} {decl : OptionDecl}
    {o : CommandOption} (h : CommandOption.resolve taken command decl = .ok o) :
    readField (field o) =
        some (.ofDecl decl, decl.name, .ofDefault o.multiple o.default) ∧
      (FieldValue.ofDefault o.multiple o.default).HasType (.ofDecl decl) ∧
      FieldValue.OfDecl decl (.ofDefault o.multiple o.default) := by
  obtain ⟨hstands, hmultiple, hmulti, hsuits, himplied, hdeclared⟩ :=
    CommandOption.typed_of_resolve h
  have hread := readField_of_isResolved ⟨taken, command, decl, h⟩
  have htype : FieldType.ofOption o = .ofDecl decl := by
    rw [FieldType.ofOption, FieldType.ofDecl, ofKind_eq hstands, hmultiple]
  have hvalue : FieldValue.OfDecl decl (.ofDefault o.multiple o.default) := by
    rw [hmultiple]
    cases hdefault : decl.default with
    | none =>
      rw [himplied hdefault, hmultiple]
      exact ofDecl_implied hdefault hstands hmulti
    | some value => exact ofDecl_declared hdefault (hdeclared value hdefault)
  rw [← htype]
  refine ⟨?_, hasType_ofDefault hsuits, hvalue⟩
  rw [hread, (CommandOption.names_of_resolve h).1]

/-- A quote and a backslash in the only item of a vector. -/
def quotedItem : OptionDecl :=
  { name := "label", type := "string", multi := true, default := some (.string "a\"\\"),
    help := .line "The label" }

theorem field_readBack_quotedItem :
    ∃ o, CommandOption.resolve {} "burn" quotedItem = .ok o ∧
      field o = "std::vector<std::string> label = \x7b\"a\\\"\\\\\"\x7d;" ∧
      readField (field o) = some (⟨.text, true⟩, "label", .vector [.text "a\"\\"]) ∧
      FieldValue.OfDecl quotedItem (.vector [.text "a\"\\"]) := by
  refine ⟨_, rfl, by decide, ?_⟩
  have h : CommandOption.resolve {} "burn" quotedItem = .ok _ := rfl
  obtain ⟨hread, -, hvalue⟩ := field_readBack h
  exact ⟨hread, hvalue⟩

end Code
end CommandSchema
