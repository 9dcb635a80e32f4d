/-
What may stand on a help screen.

A screen is put together from texts of the schema and from signs, names and paddings around them.
Only the former can have the closing sequence of a raw literal in them: what comes in front of a
text in its row has no parenthesis, and an enumeration is broken after bars, which the closing
sequence does not have.  So the literals of a command are read as they were written exactly when
none of the texts that its author wrote for its screens has the closing sequence in it.  Nothing in
the compilation looks for that sequence.
-/
import CommandSchema.Proofs.Code.RawLiteral
import CommandSchema.Proofs.CommandOption.Variants
import CommandSchema.Proofs.Group.Listings

namespace CommandSchema

/-! ## The texts of an author -/

/-- The texts of an option that stand in its rows.  An enumeration stands there with the quote that
ends it. -/
def CommandOption.texts (o : CommandOption) : List String :=
  o.help ++ (if o.kind = .enum then [Variants.join o.variants ++ "\""] else [])

/-- The texts of a command that stand on its screen. -/
def Command.texts (c : Command) : List String := c.help ++ c.visible.flatMap CommandOption.texts

/-- The texts of a group that stand on one of its screens. -/
def Group.texts (g : Group) (withHidden : Bool) : List String :=
  g.mainHelp ++ (g.listed withHidden).map Member.description

namespace Code

/-- The texts that stand on each of the screens of a command at the top. -/
def authored : TopCommand → List (List String)
  | .single c => [c.texts]
  | .group g => g.members.map (·.command.texts) ++ [g.texts false, g.texts true]

/-! ## Rows -/

/-- Lines that leave a raw literal open. -/
def Harmless (lines : List String) : Prop := ∀ line ∈ lines, ¬ Closes line

theorem harmless_nil : Harmless [] := by simp [Harmless]

theorem harmless_cons {line : String} {rest : List String} :
    Harmless (line :: rest) ↔ ¬ Closes line ∧ Harmless rest := List.forall_mem_cons

theorem harmless_append {xs ys : List String} :
    Harmless (xs ++ ys) ↔ Harmless xs ∧ Harmless ys := List.forall_mem_append

/-- A text without the parenthesis at the beginning of the closing sequence. -/
def Open (s : String) : Prop := ')' ∉ s.toList

instance (s : String) : Decidable (Open s) := inferInstanceAs (Decidable (')' ∉ s.toList))

theorem open_append {a b : String} : Open (a ++ b) ↔ Open a ∧ Open b := Text.notMem_append

theorem closes_append {front s : String} (h : Open front) : Closes (front ++ s) ↔ Closes s := by
  rw [Closes, String.toList_append]
  exact Text.infix_append_iff_of_notMem h

theorem closes_append_bar {front s : String} :
    Closes (front ++ "|" ++ s) ↔ Closes front ∨ Closes s := by
  have hchars : (front ++ "|" ++ s).toList = front.toList ++ '|' :: s.toList := by
    simp [String.toList_append]
  rw [Closes, hchars]
  exact Text.infix_append_cons_iff closing_ne_nil (by decide)

theorem not_closes_of_open {s : String} (h : Open s) : ¬ Closes s := by
  intro hcloses
  exact h (hcloses.subset (by decide))

theorem harmless_of_open {lines : List String} (h : ∀ line ∈ lines, Open line) : Harmless lines :=
  fun line hline => not_closes_of_open (h line hline)

theorem not_closes_empty : ¬ Closes "" := by decide

theorem harmless_map_append {front : String} (h : Open front) {lines : List String} :
    Harmless (lines.map (front ++ ·)) ↔ Harmless lines := by
  simp only [Harmless, List.forall_mem_map, closes_append h]

theorem open_spaces (n : Nat) : Open (Text.spaces n) := Text.notMem_spaces (by decide) n

theorem open_padRight {width : Nat} {s : String} (h : Open s) : Open (Text.padRight width s) :=
  open_append.mpr ⟨h, open_spaces _⟩

theorem open_of_isName {name : String} (h : Name.IsName .lower name) : Open name := h.notMem rfl

/-! ## Enumerations -/

theorem harmless_closed_iff {segments : List String} (h : Variants.BrokenAtBars segments) :
    Harmless (Command.closed segments) ↔ ¬ Closes (String.join segments ++ "\"") := by
  -- A closing sequence lies on one side of the bar that ends a segment, so it is in one segment.
  induction segments with
  | nil => exact iff_of_true harmless_nil (by decide)
  | cons segment rest ih =>
    obtain ⟨hsegment, hrest⟩ := Variants.brokenAtBars_cons_iff.mp h
    cases rest with
    | nil => simp [Command.closed, Harmless, String.join_cons]
    | cons next rest =>
      obtain ⟨front, rfl⟩ := hsegment (List.cons_ne_nil next rest)
      have hfront : Closes (front ++ "|") ↔ Closes front := by
        rw [← String.append_empty (s := front ++ "|"), closes_append_bar,
          or_iff_left not_closes_empty]
      have hjoin : String.join ((front ++ "|") :: next :: rest) ++ "\"" =
          front ++ "|" ++ (String.join (next :: rest) ++ "\"") := by
        rw [String.join_cons, String.append_assoc]
      rw [hjoin, closes_append_bar, not_or, Command.closed, harmless_cons, ih hrest, hfront]
      exact List.cons_ne_nil next rest

theorem harmless_variantLines_iff {variants : List String} :
    Harmless (Command.variantLines variants) ↔ ¬ Closes (Variants.join variants ++ "\"") := by
  have hbroken := Variants.brokenAtBars_wrap Command.variantsWidth variants
  rw [← Variants.join_wrap Command.variantsWidth, ← harmless_closed_iff hbroken,
    Command.variantLines]
  split
  next hnone => rw [hnone]
  next first rest hsome =>
    have hlead : Open Command.variantsLead := by decide
    rw [hsome, harmless_cons, harmless_cons, closes_append hlead,
      harmless_map_append (open_spaces _)]

/-! ## Usage tables -/

theorem open_label {o : CommandOption} (h : o.IsResolved) : Open o.label := by
  rw [CommandOption.label]
  split
  · exact open_of_isName h.isName
  next c hc =>
    simp only [open_append]
    refine ⟨⟨open_of_isName h.isName, by decide⟩, ?_⟩
    rw [Open, String.toList_singleton, List.mem_singleton]
    rintro rfl
    exact absurd (h.isLetter_short hc) (by decide)

theorem open_describe {o : CommandOption} (h : o.IsResolved) : Open o.describe := by
  rw [CommandOption.describe, open_append]
  constructor
  · split
    · simp only [open_append]
      exact ⟨⟨by decide, open_label h⟩, by decide⟩
    · simp only [open_append]
      exact ⟨⟨by decide, open_label h⟩, by decide⟩
  · split
    · decide
    · decide

theorem harmless_furtherLines_iff {o : CommandOption} :
    Harmless (Command.furtherLines o) ↔ Harmless (o.help.drop 1) ∧
      (o.kind = .enum → ¬ Closes (Variants.join o.variants ++ "\"")) := by
  rw [Command.furtherLines, harmless_append]
  by_cases hkind : o.kind = .enum
  · simp only [hkind, if_true, harmless_variantLines_iff, true_implies]
  · simp only [hkind, if_false, harmless_nil, false_implies]

theorem harmless_texts_option_iff {o : CommandOption} :
    Harmless o.texts ↔ Harmless o.help ∧
      (o.kind = .enum → ¬ Closes (Variants.join o.variants ++ "\"")) := by
  rw [CommandOption.texts, harmless_append]
  by_cases hkind : o.kind = .enum
  · simp only [hkind, if_true, harmless_cons, harmless_nil, and_true, true_implies]
  · simp only [hkind, if_false, harmless_nil, false_implies]

theorem harmless_headD_iff {lines : List String} :
    ¬ Closes (lines.headD "") ∧ Harmless (lines.drop 1) ↔ Harmless lines := by
  cases lines with
  | nil => exact iff_of_true ⟨not_closes_empty, harmless_nil⟩ harmless_nil
  | cons line rest => exact harmless_cons.symm

theorem harmless_optionRows_iff {width : Nat} {o : CommandOption} (h : o.IsResolved) :
    Harmless (Command.optionRows width o) ↔ Harmless o.texts := by
  have hfirst : Open ("    " ++ Text.padRight width o.describe ++ " : ") := by
    simp only [open_append]
    exact ⟨⟨by decide, open_padRight (open_describe h)⟩, by decide⟩
  have hfurther : Open ("    " ++ Text.spaces width ++ "   ") := by
    simp only [open_append]
    exact ⟨⟨by decide, open_spaces width⟩, by decide⟩
  rw [Command.optionRows, harmless_cons, closes_append hfirst, harmless_map_append hfurther,
    harmless_furtherLines_iff, ← and_assoc, harmless_headD_iff, harmless_texts_option_iff]

theorem harmless_usageTable_iff {width : Nat} {options : List CommandOption}
    (h : ∀ o ∈ options, o.IsResolved) :
    Harmless (Command.usageTable width options) ↔ Harmless (options.flatMap CommandOption.texts) := by
  have hhead : Harmless ["", "  Usage:"] := harmless_of_open (by decide)
  have hfoot : Harmless ["", "  Note: Use --help=option to show more detail of the option"] :=
    harmless_of_open (by decide)
  rw [Command.usageTable, harmless_append, harmless_append, and_iff_left hfoot, and_iff_right hhead,
    Harmless, Harmless, List.forall_mem_flatMap, List.forall_mem_flatMap]
  exact forall₂_congr fun o ho => harmless_optionRows_iff (h o ho)

theorem harmless_helpLines_iff {c : Command} (h : ∀ o ∈ c.options, o.IsResolved) :
    Harmless c.helpLines ↔ Harmless c.texts := by
  have hvisible : ∀ o ∈ c.visible, o.IsResolved := fun o ho => h o (List.mem_of_mem_filter ho)
  have hlegend : Harmless Command.legend := harmless_of_open (by decide)
  rw [Command.texts, harmless_append, ← harmless_usageTable_iff hvisible, Command.helpLines]
  split
  · rw [harmless_append, harmless_append, and_iff_left hlegend]
  next hnone =>
    have hempty : c.visible = [] := by simpa [Command.hasTable] using hnone
    rw [harmless_usageTable_iff hvisible, hempty]
    exact (and_iff_left harmless_nil).symm

/-! ## Lists of members -/

theorem harmless_memberRows_iff {width : Nat} {members : List Member}
    (h : ∀ m ∈ members, Name.IsName .lower m.name) :
    Harmless (members.map (Group.memberRow width)) ↔ Harmless (members.map Member.description) := by
  simp only [Harmless, List.forall_mem_map]
  refine forall₂_congr fun m hm => ?_
  have hfirst : Open ("    " ++ Text.padRight width m.name ++ " : ") := by
    simp only [open_append]
    exact ⟨⟨by decide, open_padRight (open_of_isName (h m hm))⟩, by decide⟩
  rw [Group.memberRow, closes_append hfirst]

theorem harmless_groupLines_iff {g : Group} (h : g.WellFormed) {withHidden : Bool} :
    Harmless (g.helpLines withHidden) ↔ Harmless (g.texts withHidden) := by
  have hlisted : ∀ m ∈ g.listed withHidden, Name.IsName .lower m.name :=
    fun m hm => (h.members m ((g.listed_sublist withHidden).subset hm)).isName
  have hhead : Harmless ["", "  Supported sub commands:"] := harmless_of_open (by decide)
  have hnote : Open g.note := by
    simp only [Group.note, open_append]
    exact ⟨⟨by decide, open_of_isName h.isName⟩, by decide⟩
  have hfoot : Harmless ["", g.note] :=
    harmless_cons.mpr ⟨not_closes_empty, harmless_of_open (List.forall_mem_singleton.mpr hnote)⟩
  rw [Group.helpLines_eq, Group.opening, Group.texts, harmless_append, harmless_append,
    harmless_append, and_iff_left hfoot, and_iff_left hhead, harmless_append,
    harmless_memberRows_iff hlisted]

/-- Screen by screen, the lines of a built command leave a literal open exactly when the texts on
them do. -/
theorem harmless_screens {name : String} {top : TopCommand} (h : top.IsBuilt name) :
    List.Forall₂ (fun s texts => Harmless s.lines ↔ Harmless texts) (screens top) (authored top) := by
  cases top with
  | single c =>
    obtain ⟨decl, hdecl⟩ := h
    exact .cons (harmless_helpLines_iff (Command.isResolved_of_ofDecl hdecl)) .nil
  | group g =>
    have hmembers : List.Forall₂ (fun s texts => Harmless (Screen.lines s) ↔ Harmless texts)
        (g.members.map (commandScreen ·.command)) (g.members.map (·.command.texts)) := by
      rw [List.forall₂_map_left_iff, List.forall₂_map_right_iff, List.forall₂_same]
      exact fun m hm => harmless_helpLines_iff (h.2.members m hm).isResolved
    have hown : List.Forall₂ (fun s texts => Harmless (Screen.lines s) ↔ Harmless texts)
        (dispatcherScreens g) [g.texts false, g.texts true] :=
      .cons (harmless_groupLines_iff h.2) (.cons (harmless_groupLines_iff h.2) .nil)
    exact List.rel_append hmembers hown

end Code

namespace Schema

variable {primary : Schema} {auxiliary : List Schema} {fragments : List Fragment}

/-- The literals in the definition of a command are read as they were written, each exactly when
none of the texts on its screen has the closing sequence in it. -/
theorem screens_readBack_iff (h : primary.compile auxiliary = .ok fragments) :
    fragments = primary.commands.map Fragment.ofTop ∧
      ∀ top ∈ primary.commands, ∀ before s after, Code.screens top = before ++ s :: after →
        ∃ texts, (Code.authored top)[before.length]? = some texts ∧
          (Code.ReadsBack (Code.ofTop top).definition
              (Text.unlines (before.flatMap Code.Screen.written)) s ↔
            ∀ text ∈ texts, ¬ Code.Closes text) := by
  refine ⟨(compile_spec h).2.2, fun top htop before s after hscreens => ?_⟩
  have hall := Code.harmless_screens (isBuilt_of_mem_commands htop)
  rw [hscreens] at hall
  obtain ⟨hlength, hat⟩ := List.forall₂_iff_get.mp hall
  have hs : before.length < (before ++ s :: after).length := by simp
  have htexts : before.length < (Code.authored top).length := hlength ▸ hs
  refine ⟨(Code.authored top)[before.length], List.getElem?_eq_getElem htexts, ?_⟩
  have hscreen := hat before.length hs htexts
  simp only [List.get_eq_getElem, List.getElem_append_right (Nat.le_refl _), Nat.sub_self,
    List.getElem_cons_zero] at hscreen
  rw [Code.definition_ofTop, hscreens, Code.readsBack_iff]
  exact hscreen

/-- A command with the closing sequence over the ends of two lines and of two members. -/
def nearlyClosed : Schema := ⟨[
  ("list", .object [
    ("help", .array [.string ")\"\"\"", .string "\""]),
    ("option", .array [.object [
      ("help", .string "h"), ("name", .string "mode"), ("type", .string "a)|\"\"\"\"")]])])]⟩

theorem readsBack_nearlyClosed :
    ∃ fragments, nearlyClosed.compile [] = .ok fragments ∧
      ∀ top ∈ nearlyClosed.commands, ∀ s, Code.screens top = [s] →
        Code.ReadsBack (Code.ofTop top).definition "" s := by
  obtain ⟨fragments, h⟩ : ∃ fragments, nearlyClosed.compile [] = .ok fragments := ⟨_, rfl⟩
  refine ⟨fragments, h, fun top htop s hs => ?_⟩
  obtain ⟨texts, htexts, hiff⟩ := (screens_readBack_iff h).2 top htop [] s [] hs
  refine hiff.mpr ?_
  have hauthored : ∀ top ∈ nearlyClosed.commands, ∀ texts ∈ Code.authored top, ∀ text ∈ texts,
      ¬ Code.Closes text := by decide +kernel
  exact hauthored top htop texts (List.mem_of_getElem? htexts)

/-- A command whose help has the closing sequence in it. -/
def closedHelp : Schema := ⟨[("list", .object [("help", .string "a)\"\"\"\"b")])]⟩

/-- The literal ends in the middle of the help, and what is left of the help is read as code. -/
theorem not_readsBack_closedHelp :
    ∃ fragments c, closedHelp.compile [] = .ok fragments ∧
      fragments.map (·.code) = [Code.ofCommand c] ∧ c.helpLines = ["a)\"\"\"\"b"] ∧
      ¬ Code.ReadsBack (Code.ofCommand c).definition "" (Code.commandScreen c) ∧
      ∃ text rest, (Code.ofCommand c).definition = "const char * CFGArg_LIST_HELP = R\"" ++ text ∧
        Code.readRaw text.toList = some ("\na".toList, 'b' :: rest) := by
  obtain ⟨fragments, c, h, hcode, hlines, hconstant⟩ : ∃ fragments c,
      closedHelp.compile [] = .ok fragments ∧ fragments.map (·.code) = [Code.ofCommand c] ∧
        c.helpLines = ["a)\"\"\"\"b"] ∧ (Code.commandScreen c).constant = "CFGArg_LIST_HELP" :=
    ⟨_, _, rfl, rfl, rfl, by decide +kernel⟩
  have hdefinition : (Code.ofCommand c).definition =
      Text.unlines (([] ++ Code.commandScreen c :: []).flatMap Code.Screen.written) :=
    Code.definition_ofTop (.single c)
  refine ⟨fragments, c, h, hcode, hlines, ?_, ?_⟩
  · have hcloses : Code.Closes "a)\"\"\"\"b" := by decide +kernel
    intro hreads
    rw [hdefinition] at hreads
    refine Code.readsBack_iff.mp hreads "a)\"\"\"\"b" ?_ hcloses
    rw [Code.commandScreen, hlines]
    exact List.mem_singleton_self _
  · have hearly : ¬ Code.closing.toList <:+: "\na".toList ++ Code.closing.toList.dropLast := by
      decide +kernel
    obtain ⟨rest, hchars⟩ : ∃ rest, (Code.behindQuote (Code.commandScreen c) []).toList =
        "\"\"\"(".toList ++ ("\na".toList ++ Code.closing.toList ++ 'b' :: rest) := by
      rw [Code.behindQuote, Code.commandScreen, hlines]
      simp only [Text.unlines, String.toList_append, List.append_assoc]
      exact ⟨_, rfl⟩
    refine ⟨Code.behindQuote (Code.commandScreen c) [], rest, ?_, ?_⟩
    · rw [hdefinition, List.nil_append, Code.unlines_written, hconstant]
      rfl
    · rw [hchars, Code.readRaw_delimited]
      exact (Text.cutAt_append_iff Code.closing_ne_nil).mpr hearly

end Schema
end CommandSchema
