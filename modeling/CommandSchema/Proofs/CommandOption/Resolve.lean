/-
What an option has to be to be resolved, and what it becomes.

`resolve_eq_ok_iff` says both at once.  The options of a command are resolved against different
names taken before them, which decide nothing about what an option becomes; `IsResolved` forgets
them.  An option that is resolved against some names is the one that its declaration is resolved to
alone, and finds its names free (`resolve_eq_ok_iff_accepts`).
-/
import CommandSchema.CommandOption.Resolve
import CommandSchema.Proofs.CommandOption.Names
import CommandSchema.Proofs.Name.Valid
import CommandSchema.Proofs.Outcome

namespace CommandSchema
namespace CommandOption

theorem resolve_eq_ok_iff {taken : TakenNames} {command : String} {decl : OptionDecl}
    {o : CommandOption} :
    resolve taken command decl = .ok o ↔
      Name.IsName .lower decl.name ∧ Name.hasRuntimeMark decl.name = false ∧
      decl.name ∉ Name.methods ∧ taken.checkLong command decl.name = .ok () ∧
      ∃ short, resolveShort taken command decl.name decl.short = .ok short ∧
      ∃ kind variants, resolveType command decl.name decl.type = .ok (kind, variants) ∧
      (decl.multi = true → kind.isRepeatable = true) ∧
      ∃ default, resolveDefault command decl.name kind decl.multi variants decl.default =
          .ok default ∧
      isHelp decl.help.toLines = true ∧
      o = {
        name := decl.name
        short := short
        kind := kind
        variants := variants
        optional := decl.optional
        multiple := decl.multi
        default := default
        help := decl.help.toLines
        hidden := decl.hide } := by
  have himplies : ∀ a b : Bool, (!a || b) = true ↔ (a = true → b = true) := by decide
  simp only [resolve, Outcome.bind_eq_ok_iff, Outcome.pure_eq_ok_iff, Outcome.require_eq_ok_iff,
    Name.check_eq_ok_iff, Bool.not_eq_true', decide_eq_true_eq, himplies,
    Outcome.exists_unit_iff, Prod.exists]

theorem help_of_resolve {taken : TakenNames} {command : String} {decl : OptionDecl}
    {o : CommandOption} (h : resolve taken command decl = .ok o) : o.help = decl.help.toLines := by
  obtain ⟨-, -, -, -, short, -, kind, variants, -, -, default, -, -, rfl⟩ :=
    resolve_eq_ok_iff.mp h
  rfl

theorem hidden_of_resolve {taken : TakenNames} {command : String} {decl : OptionDecl}
    {o : CommandOption} (h : resolve taken command decl = .ok o) : o.hidden = decl.hide := by
  obtain ⟨-, -, -, -, short, -, kind, variants, -, -, default, -, -, rfl⟩ :=
    resolve_eq_ok_iff.mp h
  rfl

/-- An option that some command has got from some declaration. -/
def IsResolved (o : CommandOption) : Prop :=
  ∃ taken command decl, resolve taken command decl = .ok o

theorem IsResolved.isName {o : CommandOption} (h : o.IsResolved) : Name.IsName .lower o.name := by
  obtain ⟨taken, command, decl, hresolve⟩ := h
  obtain ⟨hname, -, -, -, short, -, kind, variants, -, -, default, -, -, rfl⟩ :=
    resolve_eq_ok_iff.mp hresolve
  exact hname

theorem shortOf_eq_ok_iff {command option text : String} {c : Char} :
    shortOf command option text = .ok c ↔
      text.toList = [c] ∧ LetterCase.lower.isLetter c = true := by
  rw [shortOf]
  split
  next d hchars =>
    have hsame : text.toList = [c] ↔ d = c := by rw [hchars, List.cons.injEq, and_iff_left rfl]
    rw [hsame]
    by_cases hletter : LetterCase.lower.isLetter d = true
    · rw [if_pos hletter, Except.ok.injEq]
      exact ⟨fun h => ⟨h, h ▸ hletter⟩, fun h => h.1⟩
    · rw [if_neg hletter]
      exact iff_of_false nofun fun h => hletter (h.1 ▸ h.2)
  next hmany => exact iff_of_false nofun fun h => hmany c h.1

theorem resolveShort_eq_some_iff {taken : TakenNames} {command option : String}
    {text? : Option String} {c : Char} :
    resolveShort taken command option text? = .ok (some c) ↔
      ∃ text, text? = some text ∧ text.toList = [c] ∧ LetterCase.lower.isLetter c = true ∧
        taken.checkShort command option c = .ok () := by
  cases text? with
  | none => simp [resolveShort]
  | some text =>
    simp only [resolveShort, Outcome.bind_eq_ok_iff, Outcome.pure_eq_ok_iff, shortOf_eq_ok_iff,
      Outcome.exists_unit_iff, Option.some.injEq]
    constructor
    · rintro ⟨d, ⟨hchars, hletter⟩, hfree, rfl⟩
      exact ⟨text, rfl, hchars, hletter, hfree⟩
    · rintro ⟨_, rfl, hchars, hletter, hfree⟩
      exact ⟨c, ⟨hchars, hletter⟩, hfree, rfl⟩

theorem IsResolved.isLetter_short {o : CommandOption} (h : o.IsResolved) {c : Char}
    (hc : o.short = some c) : LetterCase.lower.isLetter c = true := by
  obtain ⟨taken, command, decl, hresolve⟩ := h
  obtain ⟨-, -, -, -, short, hshort, kind, variants, -, -, default, -, -, rfl⟩ :=
    resolve_eq_ok_iff.mp hresolve
  obtain rfl : short = some c := hc
  obtain ⟨text, -, -, hletter, -⟩ := resolveShort_eq_some_iff.mp hshort
  exact hletter

/-! ## What names that are taken decide -/

theorem resolveShort_eq_none_iff {taken : TakenNames} {command option : String}
    {text? : Option String} :
    resolveShort taken command option text? = .ok none ↔ text? = none := by
  cases text? with
  | none => simp [resolveShort]
  | some text =>
    simp only [resolveShort, Outcome.bind_eq_ok_iff, Outcome.pure_eq_ok_iff, reduceCtorEq,
      and_false, exists_false]

theorem resolveShort_eq_ok_iff {taken : TakenNames} {command option : String}
    {text? : Option String} {short : Option Char} :
    resolveShort taken command option text? = .ok short ↔
      resolveShort {} command option text? = .ok short ∧
        ∀ c, short = some c → c ≠ Name.helpShort ∧ c ∉ taken.short := by
  cases short with
  | none =>
    rw [resolveShort_eq_none_iff, resolveShort_eq_none_iff]
    exact ⟨fun h => ⟨h, nofun⟩, fun h => h.1⟩
  | some c =>
    simp only [resolveShort_eq_some_iff, TakenNames.checkShort_eq_ok_iff, Option.some.injEq]
    constructor
    · rintro ⟨text, htext, hchars, hletter, hhelp, htaken⟩
      refine ⟨⟨text, htext, hchars, hletter, hhelp, List.not_mem_nil⟩, ?_⟩
      rintro _ rfl
      exact ⟨hhelp, htaken⟩
    · rintro ⟨⟨text, htext, hchars, hletter, -⟩, hfree⟩
      exact ⟨text, htext, hchars, hletter, hfree c rfl⟩

theorem resolve_eq_ok_iff_accepts {taken : TakenNames} {command : String} {decl : OptionDecl}
    {o : CommandOption} :
    resolve taken command decl = .ok o ↔
      resolve {} command decl = .ok o ∧ taken.Accepts o := by
  constructor
  · intro h
    obtain ⟨hname, hmark, hmethod, hlong, short, hshort, kind, variants, htype, hmulti, default,
      hdefault, hhelp, rfl⟩ := resolve_eq_ok_iff.mp h
    rw [TakenNames.checkLong_eq_ok_iff] at hlong
    obtain ⟨halone, hfree⟩ := resolveShort_eq_ok_iff.mp hshort
    refine ⟨resolve_eq_ok_iff.mpr ⟨hname, hmark, hmethod, ?_, short, halone, kind, variants, htype,
      hmulti, default, hdefault, hhelp, rfl⟩, hlong, hfree⟩
    exact TakenNames.checkLong_eq_ok_iff.mpr ⟨hlong.1, List.not_mem_nil⟩
  · rintro ⟨h, hlong, hfree⟩
    obtain ⟨hname, hmark, hmethod, -, short, hshort, kind, variants, htype, hmulti, default,
      hdefault, hhelp, rfl⟩ := resolve_eq_ok_iff.mp h
    exact resolve_eq_ok_iff.mpr ⟨hname, hmark, hmethod, TakenNames.checkLong_eq_ok_iff.mpr hlong,
      short, resolveShort_eq_ok_iff.mpr ⟨hshort, hfree⟩, kind, variants, htype, hmulti, default,
      hdefault, hhelp, rfl⟩

theorem accepts_of_resolve {taken : TakenNames} {command : String} {decl : OptionDecl}
    {o : CommandOption} (h : resolve taken command decl = .ok o) : taken.Accepts o :=
  (resolve_eq_ok_iff_accepts.mp h).2

/-- An option keeps the name and the letter of its declaration. -/
theorem names_of_resolve {taken : TakenNames} {command : String} {decl : OptionDecl}
    {o : CommandOption} (h : resolve taken command decl = .ok o) :
    o.name = decl.name ∧ decl.short = o.short.map String.singleton := by
  obtain ⟨-, -, -, -, short, hshort, kind, variants, -, -, default, -, -, rfl⟩ :=
    resolve_eq_ok_iff.mp h
  refine ⟨rfl, ?_⟩
  cases short with
  | none => exact resolveShort_eq_none_iff.mp hshort
  | some c =>
    obtain ⟨text, htext, hchars, -⟩ := resolveShort_eq_some_iff.mp hshort
    rw [htext, Option.map_some, Option.some.injEq]
    exact String.toList_injective (hchars.trans (String.toList_singleton c).symm)

end CommandOption
end CommandSchema
