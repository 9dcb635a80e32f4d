/-
What the token of an option tells of it.

A token has one sign in front for an optional option and another for a required one, and one letter
behind if the option may be repeated; between them stands the label, which is the name and behind a
colon the letter.  So two tokens are the same when their labels are the same and the options agree
in both respects (`describe_eq_describe_iff`).  A label can be taken apart in one way, unless the
name has a colon of its own (`label_eq_label_iff`).  No declared option has such a name, so its
token tells its name, its letter, whether it is optional and whether it may be repeated.

The options of a command have different names.  So no two of its declared options have the same
token, and in the usage table none shows the same one either: a cell of the column of tokens is the
token with spaces around it, and no token begins or ends in one (`trim_tokenCell`).
-/
import CommandSchema.Proofs.Command.Acceptance
import CommandSchema.Proofs.Command.HiddenOptions
import CommandSchema.Proofs.Text.Trim

namespace CommandSchema

namespace CommandOption

variable {o p : CommandOption}

/-! ## Labels -/

/-- An option without a letter, whose name reads like the name and the letter of another one. -/
def Disguised (o p : CommandOption) : Prop :=
  o.short = none ∧ ∃ c, p.short = some c ∧ o.name = p.name ++ ":" ++ String.singleton c

theorem not_disguised_of_notMem (h : ':' ∉ o.name.toList) (p : CommandOption) :
    ¬ o.Disguised p := by
  rintro ⟨-, c, -, hname⟩
  rw [hname] at h
  simp at h

theorem label_eq_label_iff :
    o.label = p.label ↔
      (o.name = p.name ∧ o.short = p.short) ∨ o.Disguised p ∨ p.Disguised o := by
  rw [label, label, Disguised, Disguised]
  cases o.short with
  | none =>
    cases p.short with
    | none => simp
    | some d => simp
  | some c =>
    cases p.short with
    | none => simp [eq_comm]
    | some d => simp

/-! ## Tokens -/

theorem toList_describe (o : CommandOption) :
    o.describe.toList =
      (if o.optional then '\x7b' else '<') :: ' ' :: (o.label.toList ++
        ' ' :: (if o.optional then '\x7d' else '>') :: (if o.multiple then ['s'] else [])) := by
  rw [describe]
  cases o.optional <;> cases o.multiple <;> simp

theorem getLast?_describe (o : CommandOption) :
    o.describe.toList.getLast? =
      some (if o.multiple then 's' else if o.optional then '\x7d' else '>') := by
  rw [toList_describe]
  cases o.optional <;> cases o.multiple <;> simp [List.getLast?_cons, List.getLast?_append]

theorem isTrimmed_describe (o : CommandOption) : Text.IsTrimmed o.describe := by
  have hfirst : ∀ a : Bool, Text.isSpace (if a then '\x7b' else '<') = false := by decide
  have hlast : ∀ a b : Bool,
      Text.isSpace (if a then 's' else if b then '\x7d' else '>') = false := by decide
  constructor
  · intro c hc
    rw [toList_describe, List.head?_cons, Option.mem_some_iff] at hc
    exact hc ▸ hfirst o.optional
  · intro c hc
    rw [getLast?_describe, Option.mem_some_iff] at hc
    exact hc ▸ hlast o.multiple o.optional

theorem describe_eq_describe_iff :
    o.describe = p.describe ↔
      o.label = p.label ∧ o.optional = p.optional ∧ o.multiple = p.multiple := by
  have hfirst : ∀ a b : Bool,
      (if a then '\x7b' else '<') = (if b then '\x7b' else '<') → a = b := by decide
  have hlast : ∀ a b c : Bool, (if a then 's' else if c then '\x7d' else '>') =
      (if b then 's' else if c then '\x7d' else '>') → a = b := by decide
  constructor
  · intro h
    have hchars := congrArg String.toList h
    have hoptional : o.optional = p.optional := by
      have hsign := congrArg List.head? hchars
      rw [toList_describe, toList_describe, List.head?_cons, List.head?_cons,
        Option.some.injEq] at hsign
      exact hfirst _ _ hsign
    have hmultiple : o.multiple = p.multiple := by
      have hsign := congrArg List.getLast? hchars
      rw [getLast?_describe, getLast?_describe, hoptional, Option.some.injEq] at hsign
      exact hlast _ _ _ hsign
    rw [toList_describe, toList_describe, hoptional, hmultiple] at hchars
    simp only [List.cons.injEq, List.append_cancel_right_eq, true_and] at hchars
    exact ⟨String.toList_injective hchars, hoptional, hmultiple⟩
  · rintro ⟨hlabel, hoptional, hmultiple⟩
    rw [describe, describe, hlabel, hoptional, hmultiple]

/-- Two options whose names have no colon have the same token when they agree in all that it tells
of them. -/
theorem describe_eq_iff_of_notMem (ho : ':' ∉ o.name.toList) (hp : ':' ∉ p.name.toList) :
    o.describe = p.describe ↔
      o.name = p.name ∧ o.short = p.short ∧ o.optional = p.optional ∧ o.multiple = p.multiple := by
  rw [describe_eq_describe_iff, label_eq_label_iff]
  simp only [not_disguised_of_notMem ho, not_disguised_of_notMem hp, or_false, and_assoc]

theorem IsResolved.colon_notMem (h : o.IsResolved) : ':' ∉ o.name.toList :=
  h.isName.notMem (by decide)

end CommandOption

namespace Command

variable {c : Command} {o p : CommandOption}

/-! ## The column of tokens -/

/-- What the first row of an option shows in the column of tokens. -/
def tokenCell (width : Nat) (o : CommandOption) : String :=
  Text.beforeColumn (4 + width) ((optionRows width o).headD "")

theorem trim_tokenCell {width : Nat} (h : o.describe.utf8ByteSize ≤ width) :
    Text.trim (tokenCell width o) = o.describe := by
  obtain ⟨n, hcell⟩ := (aligned_usageRows h).token
  have hpadded : Text.Padded o.describe (tokenCell width o) := by
    refine ⟨"    ", Text.spaces n, rfl, ?_, hcell⟩
    simp [Text.isBlank, Text.spaces, Text.isSpace]
  exact hpadded.trim_eq o.isTrimmed_describe

/-- Two options of a command that show the same in the column have the same token. -/
theorem Consistent.describe_eq_of_tokenCell_eq (h : c.Consistent) (ho : o ∈ c.options)
    (hp : p ∈ c.options) (heq : tokenCell c.width o = tokenCell c.width p) :
    o.describe = p.describe := by
  rw [← trim_tokenCell (h.le_width ho), heq, trim_tokenCell (h.le_width hp)]

/-! ## The options of a command -/

theorem IsMade.isResolved (h : c.IsMade) : ∀ o ∈ c.options, o.IsResolved := by
  cases h with
  | created h =>
    obtain ⟨-, -, rfl⟩ := create_eq_ok_iff.mp h
    nofun
  | declared h => exact isResolved_of_ofDecl h

theorem isResolved_attempt {a : Addition} (h : ∀ o ∈ c.options, o.IsResolved)
    (ha : ∀ o, a = .option o → o.IsResolved) : ∀ o ∈ (c.attempt a).options, o.IsResolved := by
  rw [attempt]
  split
  next d haccept =>
    obtain ⟨o, -, rfl, hoption | ⟨decl, -, hresolve⟩⟩ := accept_eq_ok_iff.mp haccept
    · exact List.forall_mem_append.mpr ⟨h, List.forall_mem_singleton.mpr (ha o hoption)⟩
    · exact List.forall_mem_append.mpr ⟨h, List.forall_mem_singleton.mpr ⟨_, _, _, hresolve⟩⟩
  next => exact h

/-- Options that stand for declarations may be added as they are, too. -/
theorem isResolved_attemptAll {as : List Addition} (h : ∀ o ∈ c.options, o.IsResolved)
    (has : ∀ o, .option o ∈ as → o.IsResolved) :
    ∀ o ∈ (c.attemptAll as).options, o.IsResolved := by
  induction as generalizing c with
  | nil => exact h
  | cons a rest ih =>
    have hfirst : ∀ o, a = .option o → o.IsResolved :=
      fun o heq => has o (heq ▸ List.mem_cons_self)
    exact ih (isResolved_attempt h hfirst) fun o ho => has o (List.mem_cons_of_mem a ho)

theorem Consistent.pairwise_describe (h : c.Consistent) :
    c.options.Pairwise fun o p => o.describe = p.describe ↔
      (o.Disguised p ∨ p.Disguised o) ∧ o.optional = p.optional ∧ o.multiple = p.multiple := by
  refine (List.pairwise_map.mp h.names_nodup).imp fun {o p} hne => ?_
  rw [CommandOption.describe_eq_describe_iff, CommandOption.label_eq_label_iff]
  simp only [hne, false_and, false_or]

theorem Consistent.pairwise_describe_ne (h : c.Consistent) :
    c.options.Pairwise fun o p => o.IsResolved → p.IsResolved → o.describe ≠ p.describe := by
  refine h.pairwise_describe.imp fun {o p} hiff ho hp heq => ?_
  obtain ⟨hdisguised | hdisguised, -⟩ := hiff.mp heq
  · exact CommandOption.not_disguised_of_notMem ho.colon_notMem p hdisguised
  · exact CommandOption.not_disguised_of_notMem hp.colon_notMem o hdisguised

theorem Consistent.pairwise_tokenCell_ne (h : c.Consistent) :
    c.visible.Pairwise fun o p => o.IsResolved → p.IsResolved →
      tokenCell c.width o ≠ tokenCell c.width p := by
  refine (h.pairwise_describe_ne.filter _).imp_of_mem fun {o p} ho hp hne hor hpr heq => ?_
  refine hne hor hpr (h.describe_eq_of_tokenCell_eq ?_ ?_ heq)
  · exact (List.mem_filter.mp ho).1
  · exact (List.mem_filter.mp hp).1

theorem nodup_map_of_isResolved {α : Type} {f : CommandOption → α} {os : List CommandOption}
    (h : os.Pairwise fun o p => o.IsResolved → p.IsResolved → f o ≠ f p)
    (hall : ∀ o ∈ os, o.IsResolved) : (os.map f).Nodup :=
  List.pairwise_map.mpr (h.imp_of_mem fun ho hp hne => hne (hall _ ho) (hall _ hp))

/-- The token of a declared option tells its name, its letter, whether it is optional and whether it
may be repeated.  So no two declared options of a command have the same token, or show the same one
in the usage table; all tokens are different in a command that has got declared options only, as
declarations or as they are.  Whatever the options of a command are, two of them have the same token
exactly when one is disguised as the other. -/
theorem tokens_apart :
    (∀ o p : CommandOption, o.IsResolved → p.IsResolved →
      (o.describe = p.describe ↔ o.name = p.name ∧ o.short = p.short ∧
        o.optional = p.optional ∧ o.multiple = p.multiple)) ∧
    (∀ c : Command, c.IsReached →
      (c.options.Pairwise fun o p => o.IsResolved → p.IsResolved → o.describe ≠ p.describe) ∧
      c.visible.Pairwise fun o p => o.IsResolved → p.IsResolved →
        tokenCell c.width o ≠ tokenCell c.width p) ∧
    (∀ c : Command, c.IsMade → ∀ as : List Addition, (∀ o, .option o ∈ as → o.IsResolved) →
      ((c.attemptAll as).options.map CommandOption.describe).Nodup ∧
        ((c.attemptAll as).visible.map (tokenCell (c.attemptAll as).width)).Nodup) ∧
    ∀ c : Command, c.IsReached → c.options.Pairwise fun o p =>
      o.describe = p.describe ↔ (o.Disguised p ∨ p.Disguised o) ∧
        o.optional = p.optional ∧ o.multiple = p.multiple := by
  refine ⟨fun o p ho hp => ?_, fun c hc => ?_, fun c hc as has => ?_,
    fun c hc => hc.consistent.pairwise_describe⟩
  · exact CommandOption.describe_eq_iff_of_notMem ho.colon_notMem hp.colon_notMem
  · exact ⟨hc.consistent.pairwise_describe_ne, hc.consistent.pairwise_tokenCell_ne⟩
  · have hall := isResolved_attemptAll hc.isResolved has
    have hafter := hc.consistent.attemptAll as
    exact ⟨nodup_map_of_isResolved hafter.pairwise_describe_ne hall,
      nodup_map_of_isResolved hafter.pairwise_tokenCell_ne fun o ho =>
        hall o (List.mem_filter.mp ho).1⟩

/-- Options with names that are alike, of which the fourth is refused and the last is hidden. -/
def fileDecls : List OptionDecl := [
  { name := "file", short := some "s", type := "str", help := .line "Input file" },
  { name := "files", type := "str", multi := true, help := .line "More input" },
  { name := "file_s", type := "str", optional := true, help := .line "Sizes" },
  { name := "file", type := "str", optional := true, help := .line "again" },
  { name := "file_ss", type := "int", optional := true, multi := true, help := .line "Debug",
    hide := true }]

theorem tokens_apart_files :
    ∃ c d, create "read" ["Read files"] {} false = .ok c ∧
      d = c.attemptAll (fileDecls.map .declared) ∧
      d.options.map CommandOption.describe =
        ["< file:s >", "< files >s", "\x7b file_s \x7d", "\x7b file_ss \x7ds"] ∧
      d.visible.map (tokenCell d.width) =
        ["    < file:s >  ", "    < files >s  ", "    \x7b file_s \x7d  "] ∧
      (d.options.map CommandOption.describe).Nodup ∧ (d.visible.map (tokenCell d.width)).Nodup := by
  have hcreate : create "read" ["Read files"] {} false =
      .ok { name := "read", help := ["Read files"] } := rfl
  obtain ⟨-, -, hdeclared, -⟩ := tokens_apart
  obtain ⟨htokens, hcells⟩ := hdeclared _ (.created hcreate) (fileDecls.map .declared) (by simp)
  exact ⟨_, _, hcreate, rfl, by decide +kernel, by decide +kernel, htokens, hcells⟩

-- An option that no declaration has may be disguised as one that was declared.
example :
    (({ name := "list", help := ["List devices"] } : Command).attemptAll [
        .declared { name := "cable", short := some "c", type := "flag", help := .line "Cables" },
        .option { name := "cable:c", kind := .flag, default := .bool false,
                  help := ["Cables"] }]).options.map CommandOption.describe =
      ["< cable:c >", "< cable:c >"] := by
  decide +kernel

end Command
end CommandSchema
