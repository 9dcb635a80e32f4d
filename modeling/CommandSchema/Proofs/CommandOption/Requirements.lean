/-
What a declaration has to satisfy to become an option.

`requirements` says it of the declaration and the names taken alone, in the order of the checks and
with the kind of fault that each of them has.  `resolve` decides these requirements stage by stage:
for a declaration with several faults the first requirement that does not hold names the one that
is reported (`resolve_meets_requirements`).
-/
import CommandSchema.Proofs.CommandOption.Types
import CommandSchema.Proofs.Requirement

namespace CommandSchema
namespace CommandOption

open Requirement

/-- A text that consists of one lower-case letter. -/
def IsLetter (text : String) : Prop :=
  ∃ c, text.toList = [c] ∧ LetterCase.lower.isLetter c = true

/-- What is asked of a declaration, in the order of the checks. -/
def requirements (taken : TakenNames) (decl : OptionDecl) : List Requirement := [
  ⟨Name.IsName .lower decl.name, .naming⟩,
  ⟨¬ Name.runtimeMark.toList <+: decl.name.toList, .naming⟩,
  ⟨decl.name ≠ "parse" ∧ decl.name ≠ "print", .naming⟩,
  ⟨decl.name ≠ "help", .duplicate⟩,
  ⟨decl.name ∉ taken.long, .duplicate⟩,
  ⟨∀ text, decl.short = some text → IsLetter text, .naming⟩,
  ⟨decl.short ≠ some "h", .duplicate⟩,
  ⟨∀ c ∈ taken.short, decl.short ≠ some (String.singleton c), .duplicate⟩,
  ⟨Variants.bar ∈ decl.type.toList ∨ decl.type ∈ plainTypes, .shape⟩,
  ⟨Variants.bar ∈ decl.type.toList → "" ∉ Variants.ofType decl.type, .value⟩,
  ⟨Variants.bar ∈ decl.type.toList → (Variants.ofType decl.type).Nodup, .duplicate⟩,
  ⟨decl.multi = true → decl.type ∈ repeatableTypes, .shape⟩,
  ⟨∀ value, decl.default = some value → MayDefault decl.type value, .type⟩,
  ⟨decl.help.toLines ≠ [] ∧ "" ∉ decl.help.toLines, .value⟩]

section Stages

variable {taken : TakenNames} {command : String}

theorem decides_checkName (name : String) :
    Decides (Name.check .lower name) [⟨Name.IsName .lower name, .naming⟩] := by
  refine .single ?_ ?_
  · rw [Outcome.exists_unit_iff, Name.check_eq_ok_iff]
  · intro fault hfault
    rw [Name.check] at hfault
    split at hfault
    · cases hfault
    · cases hfault
      rfl

theorem decides_checkLong (name : String) :
    Decides (taken.checkLong command name)
      [⟨name ≠ "help", .duplicate⟩, ⟨name ∉ taken.long, .duplicate⟩] :=
  .ite fun _ => .ite fun _ => .pure ()

theorem decides_checkShort (option : String) (c : Char) :
    Decides (taken.checkShort command option c)
      [⟨c ≠ 'h', .duplicate⟩, ⟨c ∉ taken.short, .duplicate⟩] :=
  .ite fun _ => .ite fun _ => .pure ()

theorem decides_shortOf (option text : String) :
    Decides (shortOf command option text) [⟨IsLetter text, .naming⟩] := by
  refine .single ?_ ?_
  · simp only [shortOf_eq_ok_iff]
    rfl
  · intro fault hfault
    rw [shortOf] at hfault
    split at hfault
    · split at hfault
      · cases hfault
      · cases hfault
        rfl
    · cases hfault
      rfl

theorem decides_resolveShort (option : String) (short? : Option String) :
    Decides (resolveShort taken command option short?) [
      ⟨∀ text, short? = some text → IsLetter text, .naming⟩,
      ⟨short? ≠ some "h", .duplicate⟩,
      ⟨∀ c ∈ taken.short, short? ≠ some (String.singleton c), .duplicate⟩] := by
  cases short? with
  | none => exact (Decides.pure none).before (by simp)
  | some text =>
    have hletter : (∀ other, some text = some other → IsLetter other) = IsLetter text := by simp
    rw [hletter]
    refine (decides_shortOf option text).bind fun c hc => ?_
    obtain ⟨hchars, -⟩ := shortOf_eq_ok_iff.mp hc
    have htext : text = String.singleton c := by
      rw [← String.toList_inj, hchars, String.toList_singleton]
    have hsame (d : Char) : (some text ≠ some (String.singleton d)) = (c ≠ d) := by
      rw [htext, ne_eq, Option.some.injEq, String.singleton_inj]
    have hhelp : (some text ≠ some "h") = (c ≠ 'h') := hsame 'h'
    have hfree : (∀ d ∈ taken.short, some text ≠ some (String.singleton d)) =
        (c ∉ taken.short) := by
      simp only [hsame]
      exact propext ⟨fun h hc => h c hc rfl, fun h d hd hcd => h (hcd ▸ hd)⟩
    rw [hhelp, hfree]
    exact (decides_checkShort option c).bind fun _ _ => .pure (some c)

theorem decides_resolveEnum (option type : String) :
    Decides (resolveEnum command option type) [
      ⟨"" ∉ Variants.ofType type, .value⟩, ⟨(Variants.ofType type).Nodup, .duplicate⟩] := by
  refine .ite fun _ => ?_
  rw [← Variants.repeated?_eq_none_iff]
  cases hrepeated : Variants.repeated? (Variants.ofType type) with
  | none => exact (Decides.pure _).before (by simp)
  | some v => exact .single (by simp) (by simp [Fault.kind, eq_comm])

theorem decides_resolveType (option type : String) :
    Decides (resolveType command option type) [
      ⟨Variants.bar ∈ type.toList ∨ type ∈ plainTypes, .shape⟩,
      ⟨Variants.bar ∈ type.toList → "" ∉ Variants.ofType type, .value⟩,
      ⟨Variants.bar ∈ type.toList → (Variants.ofType type).Nodup, .duplicate⟩] := by
  by_cases hbar : Variants.bar ∈ type.toList
  · rw [resolveType_of_bar hbar]
    simp only [forall_prop_of_true hbar]
    exact (decides_resolveEnum option type).map.after
      (List.forall_mem_singleton.mpr (Or.inl hbar))
  · have hnone : ∀ r ∈ [
        (⟨Variants.bar ∈ type.toList → "" ∉ Variants.ofType type, .value⟩ : Requirement),
        ⟨Variants.bar ∈ type.toList → (Variants.ofType type).Nodup, .duplicate⟩], r.Holds := by
      simp [hbar]
    have hplain : Decides (resolveType command option type)
        [⟨Variants.bar ∈ type.toList ∨ type ∈ plainTypes, .shape⟩] := by
      rcases resolveType_of_not_bar command option hbar with
        ⟨kind, hkind⟩ | ⟨hunknown, herror⟩
      · rw [hkind.resolveType]
        exact (Decides.pure _).before (List.forall_mem_singleton.mpr hkind.mem_plainTypes)
      · rw [herror]
        exact .single (by simp [hbar, hunknown]) (by simp [Fault.kind, eq_comm])
    exact hplain.before hnone

theorem decides_resolveDefault {type : String} {kind : OptionKind} {variants : List String}
    (h : StandsFor type kind variants) (option : String) (multiple : Bool)
    (declared : Option Json.Value) :
    Decides (resolveDefault command option kind multiple variants declared)
      [⟨∀ value, declared = some value → MayDefault type value, .type⟩] := by
  refine .single ?_ ?_
  · simp only [resolveDefault_eq_ok_iff, h.mayDefault_iff multiple]
    cases declared with
    | none => simp
    | some value => simp
  · intro fault hfault
    unfold resolveDefault at hfault
    split at hfault
    · cases hfault
    split at hfault
    · cases hfault
    · cases hfault
      rfl

end Stages

theorem decides_resolve (taken : TakenNames) (command : String) (decl : OptionDecl) :
    Decides (resolve taken command decl) (requirements taken decl) := by
  have hmark : (!Name.hasRuntimeMark decl.name) = true ↔
      ¬ Name.runtimeMark.toList <+: decl.name.toList := by
    rw [Bool.not_eq_true', ← Bool.not_eq_true, Name.hasRuntimeMark, List.isPrefixOf_iff_prefix]
  have hmethod : decide (decl.name ∉ Name.methods) = true ↔
      decl.name ≠ "parse" ∧ decl.name ≠ "print" := by
    simp [Name.methods]
  have hhelp : isHelp decl.help.toLines = true ↔
      decl.help.toLines ≠ [] ∧ "" ∉ decl.help.toLines := by
    simp [isHelp]
  refine (decides_checkName decl.name).bind fun _ _ => ?_
  refine (Decides.require hmark).bind fun _ _ => ?_
  refine (Decides.require hmethod).bind fun _ _ => ?_
  refine (decides_checkLong decl.name).bind fun _ _ => ?_
  refine (decides_resolveShort decl.name decl.short).bind fun short _ => ?_
  refine (decides_resolveType decl.name decl.type).bind fun ⟨kind, variants⟩ htype => ?_
  have hstands := resolveType_eq_ok_iff.mp htype
  have hmulti : (!decl.multi || kind.isRepeatable) = true ↔
      (decl.multi = true → decl.type ∈ repeatableTypes) := by
    rw [← hstands.isRepeatable_iff]
    cases decl.multi <;> simp
  refine (Decides.require hmulti).bind fun _ _ => ?_
  refine (decides_resolveDefault hstands decl.name decl.multi decl.default).bind fun _ _ => ?_
  exact (Decides.require hhelp).bind fun _ _ => .pure _

/-- An option is made of a declaration exactly when all requirements hold.  If one does not, the
fault is of the kind of the first that does not hold, whatever is wrong with the later ones.  The
option that is made is well formed. -/
theorem resolve_meets_requirements (taken : TakenNames) (command : String) (decl : OptionDecl) :
    ((∃ o, resolve taken command decl = .ok o) ↔ ∀ r ∈ requirements taken decl, r.Holds) ∧
      (∀ fault, resolve taken command decl = .error fault →
        FirstViolated (requirements taken decl) fault.kind) ∧
      ∀ o, resolve taken command decl = .ok o → o.WellFormed :=
  have h := decides_resolve taken command decl
  ⟨h.exists_ok_iff, h.error, fun _ => wellFormed_of_resolve⟩

/-- An empty variant is reported, and not that another one is repeated, that an enumeration may not
be repeated, or that there is no help. -/
example : (resolve {} "burn" { name := "mode", type := "a||a", multi := true, help := .lines [] }) =
    .error (.variantEmpty "burn" "mode" "a||a") := by rfl

end CommandOption
end CommandSchema
