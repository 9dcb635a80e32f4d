/-
The bounds of an arity in generated code.

A constructor begins with a call of the base constructor, whose arguments are the name of the
command, whether it is hidden, and the bounds of its arity.  The call is the one line of a
constructor that begins with `callMark`; names and truth values have no comma, so the bounds are the
third and the fourth argument (`readBounds`).  They are the numbers of the declaration.
-/
import CommandSchema.Proofs.Arity
import CommandSchema.Proofs.Code.RuleTable

namespace CommandSchema

namespace Code

/-! ## Reading -/

/-- An integer whose digits are a number of 64 bits. -/
def integer? : List Char → Option Int
  | '-' :: digits => (natural? digits).map fun n : Nat => -(n : Int)
  | digits => (natural? digits).map fun n : Nat => (n : Int)

/-- The mark at the beginning of the line with the call of the base constructor. -/
def callMark : String := "  CFGArg("

def callsOf (constructor : String) : List String :=
  (Text.split '\n' constructor).filter (Text.beginsWith callMark)

/-- The third and the fourth argument of a call. -/
def readBounds (line : String) : Option (Int × Int) := do
  let (_, rest) ← Text.cutAt [',', ' '] (line.toList.drop callMark.length)
  let (_, rest) ← Text.cutAt [',', ' '] rest
  let (min, rest) ← Text.cutAt [',', ' '] rest
  let (max, _) ← Text.cutAt [',', ' '] rest
  return (← integer? min, ← integer? max)

theorem integer?_of_isDigit {c : Char} (h : c.isDigit) (ds : List Char) :
    integer? (c :: ds) = (natural? (c :: ds)).map fun n : Nat => (n : Int) := by
  have hne : c ≠ '-' := Json.ne_of_isDigit h rfl
  unfold integer?
  split
  next heq => exact absurd (List.cons.inj heq).1 hne
  next => rfl

theorem integer?_toString {n : Int} (h : n.natAbs < 18446744073709551616) :
    integer? (toString n).toList = some n := by
  cases n with
  | ofNat k =>
    have hchars : (toString (Int.ofNat k)).toList = Nat.toDigits 10 k := toList_natural k
    have hread : natural? (Nat.toDigits 10 k) = some k := natural?_toDigits h
    obtain ⟨c, ds, hcons, hc⟩ := Json.toDigits_eq_cons k
    rw [hchars, hcons, integer?_of_isDigit hc, ← hcons, hread]
    rfl
  | negSucc k =>
    have hread : natural? (Nat.toDigits 10 (k + 1)) = some (k + 1) := natural?_toDigits h
    rw [toList_negative, toList_natural, integer?, hread]
    rfl

/-! ## The call of a command -/

theorem exists_line_baseCall (c : Command) (opening : String) :
    baseCall c ++ opening = callMark ++ ("\"" ++ c.name ++ "\"" ++ (", " ++ (truth c.hidden ++
      (", " ++ (toString c.arity.min ++ (", " ++ (toString c.arity.maxBound ++
        (", " ++ ("\x7b" ++ opening))))))))) := by
  have hmark : callMark = "  " ++ (Name.baseClass ++ "(") := by decide
  simp only [baseCall, hmark, String.intercalate_cons_cons, String.intercalate_singleton,
    String.append_assoc]

theorem readBounds_baseCall {c : Command} (hname : Name.IsName .lower c.name)
    (hmin : c.arity.min < 18446744073709551616)
    (hmax : c.arity.maxBound.natAbs < 18446744073709551616) (opening : String) :
    readBounds (baseCall c ++ opening) = some ((c.arity.min : Int), c.arity.maxBound) := by
  have hquoted : ',' ∉ ("\"" ++ c.name ++ "\"").toList := by
    simp only [String.toList_append, List.mem_append, not_or]
    exact ⟨⟨by decide, hname.notMem rfl⟩, by decide⟩
  have hhidden : ',' ∉ (truth c.hidden).toList := (isLetters_truth c.hidden).notMem rfl
  have hleast : ',' ∉ (toString c.arity.min).toList := notMem_natural rfl c.arity.min
  have hgreatest : ',' ∉ (toString c.arity.maxBound).toList :=
    notMem_integer rfl (by decide) c.arity.maxBound
  have hcut {argument : String} (h : ',' ∉ argument.toList) (rest : String) :
      Text.cutAt [',', ' '] (argument ++ (", " ++ rest)).toList =
        some (argument.toList, rest.toList) := Text.cutAt_toList_of_notMem rfl h rest
  have hreadmin : integer? (toString c.arity.min).toList = some (c.arity.min : Int) :=
    integer?_toString (n := (c.arity.min : Int)) hmin
  rw [readBounds, exists_line_baseCall, String.toList_append,
    List.drop_left' String.length_toList]
  simp only [Option.bind_eq_bind, Option.bind_some, hcut hquoted, hcut hhidden, hcut hleast,
    hcut hgreatest, hreadmin, integer?_toString hmax]
  rfl

theorem filter_callMark_constructor (c : Command) :
    ∃ opening, (commandScreen c).code.filter (Text.beginsWith callMark) =
      [baseCall c ++ opening] := by
  obtain ⟨opening, htable, -⟩ := ruleTable_eq c
  refine ⟨opening, ?_⟩
  have hhead : Text.beginsWith callMark (constructorHead (Name.className c.name)) = false := by
    refine Text.beginsWith_eq_false (c := ' ') rfl ?_
    simp [constructorHead, Name.className, Name.baseClass]
  have hcall : Text.beginsWith callMark (baseCall c ++ opening) = true := by
    rw [exists_line_baseCall]
    exact Text.beginsWith_append callMark _
  -- The other lines are indented further.
  have hindented (code : String) : Text.beginsWith callMark ("    " ++ code) = false := by
    rw [Text.beginsWith, String.toList_append]
    rfl
  have hhelp : Text.beginsWith callMark
      ("    " ++ helpConstant (Name.className c.name) ++ ")") = false := by
    rw [String.append_assoc]
    exact hindented _
  have hrules : (ruleLines c.arranged).filter (Text.beginsWith callMark) = [] := by
    rw [ruleLines_eq, List.filter_eq_nil_iff]
    intro line hline
    obtain ⟨i, hi, rfl⟩ := List.mem_mapIdx.mp hline
    rw [String.append_assoc, hindented]
    exact Bool.false_ne_true
  have hclosing : ["\x7b", "\x7d", ""].filter (Text.beginsWith callMark) = [] := by decide
  rw [commandScreen, htable]
  simp only [List.filter_append, List.filter_cons, hhead, hcall, hhelp, hrules, hclosing]
  simp

theorem callsOf_constructor {c : Command} (hname : Name.IsName .lower c.name)
    (hoptions : ∀ o ∈ c.options, o.IsResolved) :
    ∃ opening, callsOf (Text.unlines (commandScreen c).code) = [baseCall c ++ opening] := by
  obtain ⟨opening, hfilter⟩ := filter_callMark_constructor c
  refine ⟨opening, ?_⟩
  have hend : [""].filter (Text.beginsWith callMark) = [] := by decide
  rw [callsOf, Text.split_unlines (isLine_constructor hname hoptions), List.filter_append,
    hfilter, hend, List.append_nil]

end Code

namespace Arity

/-- The constructor of a command whose arity is declared by two numbers calls the base constructor
once, and with these numbers. -/
theorem Declares.readBounds {value : Json.Value} {min max : Int} (h : Declares value min max)
    {name : String} {decl : CommandDecl} {c : Command} (harg : decl.arg = some value)
    (hc : Command.ofDecl name decl = .ok c) :
    (Code.callsOf (Text.unlines (Code.commandScreen c).code)).map Code.readBounds =
      [some (min, max)] := by
  have hname : Name.IsName .lower c.name := Command.isName_name_of_ofDecl hc
  have harity : c.arity = between min max := by
    have hdeclared := Command.arity_of_ofDecl hc
    rw [harg, h.ofJson name] at hdeclared
    exact (Except.ok.inj hdeclared).symm
  have hmin := h.bounds.min_between
  have hmax := h.bounds.maxBound
  rw [← harity] at hmin hmax
  obtain ⟨hnonneg, hword, hordered⟩ := h.bounds
  obtain ⟨opening, hcalls⟩ := Code.callsOf_constructor hname (Command.isResolved_of_ofDecl hc)
  rw [hcalls, List.map_singleton, Code.readBounds_baseCall hname (by omega) (by omega), hmin, hmax]

/-- A value declares an arity when it is a list of two integers that may be bounds.  The arity has
them as its bounds and no others, and only −1 leaves it without a greatest number; its bounds
declare the same arity again, and they are what the class of a command hands on to its base. -/
theorem ofJson_keeps_bounds (value : Json.Value) :
    (∀ command, (∃ a, ofJson command (some value) = .ok a) ↔ ∃ min max, Declares value min max) ∧
      ∀ min max, Declares value min max →
        ∃ a : Arity, (∀ command, ofJson command (some value) = .ok a) ∧
          (a.min : Int) = min ∧ a.maxBound = max ∧ (a.max = none ↔ max = -1) ∧
          (∀ again, Declares again a.min a.maxBound →
            ∀ command, ofJson command (some again) = .ok a) ∧
          ∀ name decl c, decl.arg = some value → Command.ofDecl name decl = .ok c →
            ∃ constructor,
              (Code.ofCommand c).definition =
                Text.unlines
                    (Code.rawConstant (Code.helpConstant (Name.className c.name)) c.helpLines) ++
                  constructor ∧
              (Code.callsOf constructor).map Code.readBounds = [some (min, max)] := by
  refine ⟨fun command => exists_ofJson_iff, fun min max h => ?_⟩
  refine ⟨between min max, h.ofJson, h.bounds.min_between, h.bounds.maxBound, max_between,
    fun again hagain => h.ofJson_again hagain, fun name decl c harg hc => ?_⟩
  exact ⟨_, Code.definition_ofCommand c, h.readBounds harg hc⟩

/-- A command that asks for as many arguments as can be declared, without bound. -/
theorem ofJson_keeps_bounds_unbounded :
    ∃ value decl c constructor, Declares value 18446744073709551615 (-1) ∧
      decl.arg = some value ∧ Command.ofDecl "program" decl = .ok c ∧
      c.arity = ⟨18446744073709551615, none⟩ ∧
      (Code.ofCommand c).definition =
        Text.unlines (Code.rawConstant "CFGArg_PROGRAM_HELP" c.helpLines) ++ constructor ∧
      (Code.callsOf constructor).map Code.readBounds = [some (18446744073709551615, -1)] := by
  have hdeclares := Declares.list (by decide) (by decide)
    (⟨by decide, by decide, .inl rfl⟩ : Bounds 18446744073709551615 (-1))
  obtain ⟨c, h, hclass, harity⟩ : ∃ c, Command.ofDecl "program"
        { help := .line "Program a device"
          arg := some (.array [.number (.integer 18446744073709551615 (by decide)),
            .number (.integer (-1) (by decide))]) } = .ok c ∧
      Code.helpConstant (Name.className c.name) = "CFGArg_PROGRAM_HELP" ∧
      c.arity = ⟨18446744073709551615, none⟩ := ⟨_, rfl, by decide +kernel, rfl⟩
  obtain ⟨_, -, -, -, -, -, hcode⟩ := (ofJson_keeps_bounds _).2 _ _ hdeclares
  obtain ⟨constructor, hdefinition, hcalls⟩ := hcode "program" _ c rfl h
  exact ⟨_, _, c, constructor, hdeclares, rfl, h, harity, hclass ▸ hdefinition, hcalls⟩

-- The greatest signed word is still a bound, and the next integer is none.
example :
    (ofValue? (.array [.number (.integer 1 (by decide)),
        .number (.integer 9223372036854775807 (by decide))])).map maxBound =
      some 9223372036854775807 ∧
    ofValue? (.array [.number (.integer 1 (by decide)),
        .number (.integer 9223372036854775808 (by decide))]) = none := by
  decide

end Arity
end CommandSchema
