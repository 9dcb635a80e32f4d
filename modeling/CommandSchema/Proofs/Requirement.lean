/-
Requirements in the order in which they are checked.

A computation that makes one check after the other decides a list of requirements: it succeeds when
all of them hold, and otherwise its fault is of the kind of the first one that does not.  A stage
behind a stage decides the requirements of both in their order (`Decides.bind`), so what a
definition asks for is put together from what its stages ask for.
-/
import CommandSchema.Proofs.Outcome

namespace CommandSchema

/-- Something that is asked for, and the kind of the fault when it does not hold. -/
structure Requirement where
  Holds : Prop
  kind : FaultKind

namespace Requirement

/-- The kind of the first of several requirements that does not hold. -/
def FirstViolated (rs : List Requirement) (kind : FaultKind) : Prop :=
  ∃ before r after, rs = before ++ r :: after ∧ (∀ q ∈ before, q.Holds) ∧ ¬ r.Holds ∧ r.kind = kind

theorem FirstViolated.append {rs : List Requirement} {kind : FaultKind}
    (h : FirstViolated rs kind) (ss : List Requirement) : FirstViolated (rs ++ ss) kind := by
  obtain ⟨before, r, after, hrs, hbefore, hr, hkind⟩ := h
  have hsplit : rs ++ ss = before ++ r :: (after ++ ss) := by
    rw [hrs, List.append_assoc, List.cons_append]
  exact ⟨before, r, after ++ ss, hsplit, hbefore, hr, hkind⟩

theorem FirstViolated.after {rs ss : List Requirement} {kind : FaultKind}
    (hrs : ∀ r ∈ rs, r.Holds) (h : FirstViolated ss kind) : FirstViolated (rs ++ ss) kind := by
  obtain ⟨before, r, after, hss, hbefore, hr, hkind⟩ := h
  have hsplit : rs ++ ss = (rs ++ before) ++ r :: after := by rw [hss, List.append_assoc]
  exact ⟨rs ++ before, r, after, hsplit, List.forall_mem_append.mpr ⟨hrs, hbefore⟩, hr, hkind⟩

theorem FirstViolated.not_all {rs : List Requirement} {kind : FaultKind}
    (h : FirstViolated rs kind) : ¬ ∀ r ∈ rs, r.Holds := by
  obtain ⟨before, r, after, rfl, -, hr, -⟩ := h
  intro hall
  exact hr (hall r (List.mem_append_right before List.mem_cons_self))

/-- A computation that succeeds when all requirements hold, and otherwise has a fault of the kind
of the first one that does not. -/
structure Decides {α : Type} (x : Except Fault α) (rs : List Requirement) : Prop where
  ok : ∀ a, x = .ok a → ∀ r ∈ rs, r.Holds
  error : ∀ fault, x = .error fault → FirstViolated rs fault.kind

namespace Decides

variable {α β : Type}

theorem exists_ok_iff {x : Except Fault α} {rs : List Requirement} (h : Decides x rs) :
    (∃ a, x = .ok a) ↔ ∀ r ∈ rs, r.Holds := by
  constructor
  · rintro ⟨a, hx⟩
    exact h.ok a hx
  · intro hall
    cases hx : x with
    | ok a => exact ⟨a, rfl⟩
    | error fault => exact absurd hall (h.error fault hx).not_all

theorem pure (a : α) : Decides (.ok a) [] where
  ok := fun _ _ => nofun
  error := fun _ => nofun

/-- A single check. -/
theorem single {x : Except Fault α} {p : Prop} {kind : FaultKind} (hok : (∃ a, x = .ok a) ↔ p)
    (hkind : ∀ fault, x = .error fault → fault.kind = kind) : Decides x [⟨p, kind⟩] where
  ok := fun a hx => List.forall_mem_singleton.mpr (hok.mp ⟨a, hx⟩)
  error := by
    intro fault hx
    have hp : ¬ p := by
      intro hp
      obtain ⟨a, ha⟩ := hok.mpr hp
      rw [hx] at ha
      cases ha
    exact ⟨[], ⟨p, kind⟩, [], rfl, nofun, hp, (hkind fault hx).symm⟩

theorem require {condition : Bool} {fault : Fault} {p : Prop} (h : condition = true ↔ p) :
    Decides (Fault.require condition fault) [⟨p, fault.kind⟩] := by
  refine single ?_ ?_
  · rw [Outcome.exists_unit_iff, Outcome.require_eq_ok_iff, h]
  · intro other hother
    cases condition with
    | true => cases hother
    | false =>
      obtain rfl : fault = other := Except.error.inj hother
      rfl

/-- A stage behind a stage decides what both ask for, the first one first. -/
theorem bind {x : Except Fault α} {f : α → Except Fault β} {rs ss : List Requirement}
    (hx : Decides x rs) (hf : ∀ a, x = .ok a → Decides (f a) ss) :
    Decides (x >>= f) (rs ++ ss) where
  ok := by
    intro b hb
    obtain ⟨a, ha, hfa⟩ := Outcome.bind_eq_ok_iff.mp hb
    exact List.forall_mem_append.mpr ⟨hx.ok a ha, (hf a ha).ok b hfa⟩
  error := by
    intro fault hfault
    rcases Outcome.bind_eq_error_iff.mp hfault with hfirst | ⟨a, ha, hfa⟩
    · exact (hx.error fault hfirst).append ss
    · exact ((hf a ha).error fault hfa).after (hx.ok a ha)

/-- Requirements that hold anyway may be asked for first. -/
theorem after {x : Except Fault α} {rs ss : List Requirement} (hrs : ∀ r ∈ rs, r.Holds)
    (h : Decides x ss) : Decides x (rs ++ ss) where
  ok := fun a ha => List.forall_mem_append.mpr ⟨hrs, h.ok a ha⟩
  error := fun fault hfault => (h.error fault hfault).after hrs

/-- Requirements that hold anyway may be asked for last. -/
theorem before {x : Except Fault α} {rs ss : List Requirement} (h : Decides x rs)
    (hss : ∀ s ∈ ss, s.Holds) : Decides x (rs ++ ss) where
  ok := fun a ha => List.forall_mem_append.mpr ⟨h.ok a ha, hss⟩
  error := fun fault hfault => (h.error fault hfault).append ss

/-- A fault if a condition holds, and else what comes then. -/
theorem ite {condition : Prop} [Decidable condition] {fault : Fault} {x : Except Fault α}
    {rs : List Requirement} (h : ¬ condition → Decides x rs) :
    Decides (if condition then .error fault else x) (⟨¬ condition, fault.kind⟩ :: rs) := by
  by_cases hcondition : condition
  · rw [if_pos hcondition]
    refine ⟨fun a => nofun, fun other hother => ?_⟩
    obtain rfl : fault = other := Except.error.inj hother
    exact ⟨[], ⟨¬ condition, fault.kind⟩, rs, rfl, nofun, fun hnot => hnot hcondition, rfl⟩
  · rw [if_neg hcondition]
    exact (h hcondition).after (List.forall_mem_singleton.mpr hcondition)

theorem map {x : Except Fault α} {f : α → β} {rs : List Requirement} (h : Decides x rs) :
    Decides (x.map f) rs where
  ok := by
    intro b hb
    obtain ⟨a, ha, -⟩ := Outcome.map_eq_ok_iff.mp hb
    exact h.ok a ha
  error := fun fault hfault => h.error fault (Outcome.map_eq_error_iff.mp hfault)

end Decides
end Requirement
end CommandSchema
