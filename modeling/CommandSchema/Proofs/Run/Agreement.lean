/-
What the three kinds of runs have in common.

Each of them loads and compiles the inputs, and neither its success nor its texts depend on anything
else that a state has (`Compiles`).  Only the name of the header is found in three ways.  A run that
prints and is given none makes one from the name of the schema file; this adds no failure of its
own, since a schema is not loaded from a path without a name.
-/
import CommandSchema.Proofs.Run.Outputs

namespace CommandSchema

open FileSystem PathSystem

/-- The text of one of the generated files. -/
def Artifacts.text (texts : Artifacts) : Part → String
  | .header => texts.header
  | .source => texts.source

namespace Run

section Agreement

variable {σ : Type} [FileAccess (StateM σ)]

/-! ## Runs from a state -/

omit [FileAccess (StateM σ)] in
theorem run_bind_of_run {α β : Type} {x : StateM σ α} {f : α → StateM σ β} {s t : σ} {a : α}
    (h : x.run s = (a, t)) : (x >>= f).run s = (f a).run t := by
  rw [StateT.run_bind, h]
  rfl

/-- What a run from a state says. -/
def outcome (invocation : Invocation) (s : σ) : Outcome :=
  ((respond (m := StateM σ) (.run invocation)).run s).1

/-- The state that a run from a state leaves. -/
def final (invocation : Invocation) (s : σ) : σ :=
  ((respond (m := StateM σ) (.run invocation)).run s).2

theorem outcome_of_invoke {invocation : Invocation} {s t : σ} {out : String}
    (h : (invoke (m := StateM σ) invocation).run s = (.ok out, t)) :
    outcome invocation s = { status := 0, out := out } ∧ final invocation s = t := by
  have hrun : (respond (m := StateM σ) (.run invocation)).run s =
      ({ status := 0, out := out }, t) := run_bind_eq_iff.mpr ⟨_, t, h, rfl⟩
  rw [outcome, final, hrun]
  exact ⟨rfl, rfl⟩

theorem status_eq_zero_iff {invocation : Invocation} {s : σ} :
    (outcome invocation s).status = 0 ↔
      ∃ out t, (invoke (m := StateM σ) invocation).run s = (.ok out, t) := by
  constructor
  · intro hok
    have hrun : (respond (m := StateM σ) (.run invocation)).run s =
        (outcome invocation s, final invocation s) := rfl
    obtain ⟨result, t, hinvoke, hrest⟩ := run_bind_eq_iff.mp hrun
    cases result with
    | ok out => exact ⟨out, t, hinvoke⟩
    | error fault =>
      rw [← (Prod.mk.inj hrest).1] at hok
      cases hok
  · rintro ⟨out, t, hinvoke⟩
    rw [(outcome_of_invoke hinvoke).1]

/-! ## The inputs -/

/-- The inputs that a run from a state loads, and the fragments that they compile to. -/
def Compiles (paths : InputPaths) (s : σ) (inputs : SchemaInputs) (settings : Settings)
    (fragments : List Fragment) : Prop :=
  (∃ t, (loadInputs (m := StateM σ) paths).run s = (.ok (inputs, settings), t)) ∧
    inputs.compile = .ok fragments

theorem compile_eq_ok_iff {inputs : SchemaInputs} {fragments : List Fragment} :
    compile inputs = .ok fragments ↔ inputs.compile = .ok fragments :=
  Outcome.mapError_eq_ok_iff

variable {paths : InputPaths} {s : σ} {inputs : SchemaInputs} {settings : Settings}
  {fragments : List Fragment}

/-- A schema that has been loaded has a path that ends in a name. -/
theorem fileName_of_load {path : String} {schema : Schema} {t : σ}
    (h : (Schema.load (m := StateM σ) path).run s = (.ok schema, t)) :
    ∃ name, fileName path = .ok name := by
  rw [Schema.load] at h
  split at h
  · cases (Prod.mk.inj h).1
  next hextension =>
    rw [not_not, Path.extension?] at hextension
    obtain ⟨name, hname, -⟩ := Option.bind_eq_some_iff.mp hextension
    exact ⟨name, by rw [fileName, hname]⟩

theorem fileName_of_loadInputs {t : σ}
    (h : (loadInputs (m := StateM σ) paths).run s = (.ok (inputs, settings), t)) :
    ∃ name, fileName paths.input = .ok name := by
  obtain ⟨_, u, -, hrest⟩ := run_bind_eq_ok h fun _ _ => ⟨_, rfl⟩
  obtain ⟨_, v, hinputs, -⟩ := run_bind_eq_ok hrest fun _ _ => ⟨_, rfl⟩
  obtain ⟨_, w, hprimary, -⟩ := run_bind_eq_ok hinputs fun _ _ => ⟨_, rfl⟩
  exact fileName_of_load hprimary

/-! ## Checking and printing -/

theorem check_status_iff :
    (outcome (.check paths) s).status = 0 ↔
      ∃ inputs settings fragments, Compiles paths s inputs settings fragments := by
  rw [status_eq_zero_iff]
  constructor
  · rintro ⟨out, t, hcheck⟩
    obtain ⟨⟨inputs, settings⟩, u, hloaded, hrest⟩ :=
      run_bind_eq_ok hcheck fun _ _ => ⟨_, rfl⟩
    obtain ⟨fragments, hfragments, -⟩ := Outcome.map_eq_ok_iff.mp (Prod.mk.inj hrest).1
    exact ⟨inputs, settings, fragments, ⟨u, hloaded⟩, compile_eq_ok_iff.mp hfragments⟩
  · rintro ⟨inputs, settings, fragments, ⟨u, hloaded⟩, hcompile⟩
    have hcheck : (check (m := StateM σ) paths).run s =
        ((compile inputs).map _, u) := run_bind_of_run hloaded
    rw [compile_eq_ok_iff.mpr hcompile] at hcheck
    exact ⟨_, u, hcheck⟩

theorem artifacts_of_compiles (h : Compiles paths s inputs settings fragments)
    (headerName : String) :
    ∃ t, (artifacts (m := StateM σ) paths headerName).run s =
      (.ok (Artifacts.assemble inputs.name headerName fragments settings), t) := by
  obtain ⟨⟨u, hloaded⟩, hcompile⟩ := h
  have hrun : (artifacts (m := StateM σ) paths headerName).run s =
      ((compile inputs).map _, u) := run_bind_of_run hloaded
  rw [compile_eq_ok_iff.mpr hcompile] at hrun
  exact ⟨u, hrun⟩

/-- The header name that a run prints with. -/
theorem exists_headerName (h : Compiles paths s inputs settings fragments)
    (given : Option String) :
    ∃ name, (given.map .ok |>.getD (defaultHeaderName paths.input)) = .ok name := by
  cases given with
  | some name => exact ⟨name, rfl⟩
  | none =>
    obtain ⟨⟨u, hloaded⟩, -⟩ := h
    obtain ⟨name, hname⟩ := fileName_of_loadInputs hloaded
    rw [Option.map_none, Option.getD_none, defaultHeaderName, hname]
    exact ⟨_, rfl⟩

theorem outcome_print (h : Compiles paths s inputs settings fragments) (part : Part)
    {given : Option String} {name : String}
    (hname : (given.map .ok |>.getD (defaultHeaderName paths.input)) = .ok name) :
    outcome (.print paths part given) s =
      { status := 0,
        out := (Artifacts.assemble inputs.name name fragments settings).text part } := by
  obtain ⟨u, hartifacts⟩ := artifacts_of_compiles h name
  refine (outcome_of_invoke (t := u) ?_).1
  rw [invoke, print, hname]
  simp only [run_bind_of_run hartifacts]
  cases part with
  | header => rfl
  | source => rfl

theorem print_status_iff (part : Part) (given : Option String) :
    (outcome (.print paths part given) s).status = 0 ↔
      ∃ inputs settings fragments, Compiles paths s inputs settings fragments := by
  constructor
  · intro hok
    obtain ⟨out, t, hprint⟩ := status_eq_zero_iff.mp hok
    rw [invoke, print] at hprint
    split at hprint
    · cases (Prod.mk.inj hprint).1
    · obtain ⟨texts, u, hartifacts, -⟩ := run_bind_eq_ok hprint fun _ _ => ⟨_, rfl⟩
      obtain ⟨inputs, settings, fragments, hloaded, hcompile, -⟩ := artifacts_eq_ok hartifacts
      exact ⟨inputs, settings, fragments, ⟨u, hloaded⟩, hcompile⟩
  · rintro ⟨inputs, settings, fragments, h⟩
    obtain ⟨name, hname⟩ := exists_headerName h given
    rw [outcome_print h part hname]

/-! ## All three -/

/-- A check succeeds exactly when printing does, whichever file is printed and whatever header name
is given.  A generation into two files leaves in them what printing says in the state before: the
header with any header name, and the source file with the name of the header file. -/
theorem subcommands_agree [PathSystem σ] (paths : InputPaths) (s : σ) :
    (∀ part given, (outcome (.check paths) s).status = 0 ↔
      (outcome (.print paths part given) s).status = 0) ∧
    ∀ header source, (outcome (.generate paths header source) s).status = 0 →
      place? (final (.generate paths header source) s) header ≠
        place? (final (.generate paths header source) s) source →
      ∃ headerName, fileName header = .ok headerName ∧
        (∀ given, (outcome (.print paths .header given) s).status = 0 ∧
          Holds (final (.generate paths header source) s) header
            (outcome (.print paths .header given) s).out.toUTF8) ∧
        (outcome (.print paths .source (some headerName)) s).status = 0 ∧
        Holds (final (.generate paths header source) s) source
          (outcome (.print paths .source (some headerName)) s).out.toUTF8 := by
  refine ⟨fun part given => ?_, fun header source hok hplaces => ?_⟩
  · rw [check_status_iff, print_status_iff]
  · obtain ⟨out, t, hgenerate⟩ := status_eq_zero_iff.mp hok
    rw [(outcome_of_invoke hgenerate).2] at hplaces ⊢
    rw [invoke] at hgenerate
    obtain ⟨headerName, texts, u, hname, hartifacts, hsource, hheader⟩ :=
      holds_of_generate hgenerate
    obtain ⟨inputs, settings, fragments, hloaded, hcompile, rfl⟩ := artifacts_eq_ok hartifacts
    have hcompiles : Compiles paths s inputs settings fragments := ⟨⟨u, hloaded⟩, hcompile⟩
    refine ⟨headerName, hname, fun given => ?_, ?_⟩
    · -- The text of a header does not mention its name.
      obtain ⟨name, hgiven⟩ := exists_headerName hcompiles given
      rw [outcome_print hcompiles .header hgiven]
      exact ⟨rfl, hheader.mpr hplaces⟩
    · rw [outcome_print hcompiles .source rfl]
      exact ⟨rfl, hsource⟩

end Agreement

/-- Runs of all three kinds over one schema. -/
theorem subcommands_agree_stale :
    (outcome (.check ⟨"s.json", [], none⟩) stale).status = 0 ∧
      Holds (final (.generate ⟨"s.json", [], none⟩ "gen/out.h" "out.cpp") stale) "gen/out.h"
        (outcome (.print ⟨"s.json", [], none⟩ .header none) stale).out.toUTF8 ∧
      Holds (final (.generate ⟨"s.json", [], none⟩ "gen/out.h" "out.cpp") stale) "out.cpp"
        (outcome (.print ⟨"s.json", [], none⟩ .source (some "out.h")) stale).out.toUTF8 := by
  have hok : (outcome (.generate ⟨"s.json", [], none⟩ "gen/out.h" "out.cpp") stale).status = 0 := by
    decide +kernel
  have hplaces : (final (.generate ⟨"s.json", [], none⟩ "gen/out.h" "out.cpp")
      stale).fileLocation? "gen/out.h" ≠
        (final (.generate ⟨"s.json", [], none⟩ "gen/out.h" "out.cpp") stale).fileLocation?
          "out.cpp" := by
    decide +kernel
  have hfileName : fileName "gen/out.h" = .ok "out.h" := rfl
  obtain ⟨hcheck, hgenerate⟩ := subcommands_agree ⟨"s.json", [], none⟩ stale
  obtain ⟨headerName, hname, hheader, -, hsource⟩ := hgenerate _ _ hok hplaces
  obtain rfl := Except.ok.inj (hfileName.symm.trans hname)
  obtain ⟨hprint, hholds⟩ := hheader none
  exact ⟨(hcheck .header none).mpr hprint, hholds, hsource⟩

end Run
end CommandSchema
