/-
A registry that is changed in place.

A call puts names in one after the other, and ends with a fault at the first name that is there
already; the names in front of it stay (`perform_spec`).  A claim puts in a single name, so there is
nothing in front of it that could stay.  After any calls, refused or not, the registry has exactly
the names that have been put in (`names_after`), each of them once.
-/
import CommandSchema.Proofs.NameRegistry
import Mathlib.Data.Finset.Card
import Mathlib.Data.List.Induction

namespace CommandSchema
namespace NameRegistry

/-- What a registry is asked to take in. -/
inductive Call where
  | seed (names : List String)
  | claim (name : String)
  | member (group member : String)

/-- A computation that changes a registry in place.  It ends with the registry as it is by then,
also when it ends in a fault. -/
abbrev Claiming := EStateM Fault NameRegistry

/-- Puts a name into the set, and says whether it is new there. -/
def record (name : String) : Claiming Bool := do
  let r ← get
  if r.contains name then return false
  set (⟨name :: r.names⟩ : NameRegistry)
  return true

def put (name : String) (fault : Fault) : Claiming Unit := do
  if !(← record name) then throw fault

def putAll (fault : String → Fault) (names : List String) : Claiming Unit :=
  names.forM fun name => put name (fault name)

namespace Call

def perform : Call → Claiming Unit
  | .seed names => putAll .auxiliaryRepeated names
  | .claim name => put name (.commandTaken name)
  | .member group sub =>
    let qualified := Name.qualified group sub
    put qualified (.memberTaken group sub qualified)

/-- What the registry says to a call, and what it is afterwards. -/
def answer (r : NameRegistry) : Call → EStateM.Result Fault NameRegistry Unit
  | .seed names =>
    match r.seed names with
    | (s, .ok ()) => .ok () s
    | (s, .error fault) => .error fault s
  | .claim name =>
    match r.claim name with
    | .ok s => .ok () s
    | .error fault => .error fault r
  | .member group sub =>
    match r.claimMember group sub with
    | .ok s => .ok () s
    | .error fault => .error fault r

/-- The names that a call puts in, in their order. -/
def names : Call → List String
  | .seed names => names
  | .claim name => [name]
  | .member group sub => [Name.qualified group sub]

/-- What is wrong if a call finds one of its names taken. -/
def fault : Call → String → Fault
  | .seed _, name => .auxiliaryRepeated name
  | .claim _, name => .commandTaken name
  | .member group sub, name => .memberTaken group sub name

def Succeeds (c : Call) (r : NameRegistry) : Prop := ∃ s, c.perform.run r = .ok () s

/-- The registry that a call leaves behind, with or without a fault. -/
def left (c : Call) (r : NameRegistry) : NameRegistry :=
  match c.perform.run r with
  | .ok _ s => s
  | .error _ s => s

end Call

/-- The registry after several calls, each on what the one before has left behind. -/
def after (calls : List Call) : NameRegistry := calls.foldl (fun r c => c.left r) {}

/-- The names in front of the first that is repeated, or that is among those taken before. -/
def fresh (taken : List String) : List String → List String
  | [] => []
  | name :: rest => if name ∈ taken then [] else name :: fresh (name :: taken) rest

/-- The names that have been put in by several calls, in the order in which they have been. -/
def inserted (calls : List Call) : List String :=
  calls.foldl (fun taken c => taken ++ fresh taken c.names) []

/-! ## Calls in place -/

theorem run_put (r : NameRegistry) (name : String) (fault : Fault) :
    (put name fault).run r =
      if name ∈ r.names then .error fault r else .ok () (r.extend [name]) := by
  by_cases h : name ∈ r.names
  · have hfound : r.contains name = true := decide_eq_true h
    simp [put, record, hfound, h]
  · have hfound : r.contains name = false := decide_eq_false h
    simp [put, record, hfound, h, extend]

theorem put_eq_insert (r : NameRegistry) (name : String) (fault : Fault) :
    (put name fault).run r =
      match r.insert name fault with
      | .ok s => .ok () s
      | .error fault => .error fault r := by
  rw [run_put, insert, contains]
  by_cases h : name ∈ r.names
  · simp [h]
  · simp [h, extend]

theorem putAll_cons (fault : String → Fault) (name : String) (rest : List String) :
    putAll fault (name :: rest) = (do put name (fault name); putAll fault rest) := rfl

theorem putAll_singleton (fault : String → Fault) (name : String) :
    putAll fault [name] = put name (fault name) := bind_pure_unit

theorem putAll_eq_seed (r : NameRegistry) (names : List String) :
    (putAll .auxiliaryRepeated names).run r =
      match r.seed names with
      | (s, .ok ()) => .ok () s
      | (s, .error fault) => .error fault s := by
  induction names generalizing r with
  | nil => rfl
  | cons name rest ih =>
    rw [putAll_cons, EStateM.run_bind, put_eq_insert, seed]
    cases r.insert name (.auxiliaryRepeated name) with
    | ok s => exact ih s
    | error fault => rfl

/-- In place or not, a call has the same answer and leaves the same registry. -/
theorem perform_eq_answer (c : Call) (r : NameRegistry) : c.perform.run r = c.answer r := by
  cases c with
  | seed names => exact putAll_eq_seed r names
  | claim name => exact put_eq_insert r name (.commandTaken name)
  | member group sub => exact put_eq_insert r (Name.qualified group sub) _

theorem perform_eq_putAll (c : Call) : c.perform = putAll c.fault c.names := by
  cases c with
  | seed names => rfl
  | claim name => exact (putAll_singleton _ name).symm
  | member group sub => exact (putAll_singleton _ (Name.qualified group sub)).symm

/-! ## Names in front of a repeated one -/

theorem fresh_congr {taken others : List String} (h : ∀ name, name ∈ taken ↔ name ∈ others)
    (names : List String) : fresh taken names = fresh others names := by
  induction names generalizing taken others with
  | nil => rfl
  | cons name rest ih =>
    have hrest : fresh (name :: taken) rest = fresh (name :: others) rest :=
      ih fun other => by rw [List.mem_cons, List.mem_cons, h]
    rw [fresh, fresh, hrest]
    simp only [h]

theorem fresh_cons_of_mem {taken rest : List String} {name : String} (h : name ∈ taken) :
    fresh taken (name :: rest) = [] := if_pos h

theorem fresh_cons_of_notMem {taken rest : List String} {name : String} (h : name ∉ taken) :
    fresh taken (name :: rest) = name :: fresh (name :: taken) rest := if_neg h

/-- What is put in is free to be, up to the first name that is not. -/
theorem free_fresh (r : NameRegistry) (names : List String) : r.Free (fresh r.names names) := by
  induction names generalizing r with
  | nil => exact free_nil r
  | cons name rest ih =>
    by_cases h : name ∈ r.names
    · rw [fresh_cons_of_mem h]
      exact free_nil r
    · rw [fresh_cons_of_notMem h, free_cons_iff]
      exact ⟨h, ih (r.extend [name])⟩

/-- Names that are free are put in as they are. -/
theorem fresh_eq_self {r : NameRegistry} {names : List String} (h : r.Free names) :
    fresh r.names names = names := by
  induction names generalizing r with
  | nil => rfl
  | cons name rest ih =>
    obtain ⟨hname, hrest⟩ := free_cons_iff.mp h
    rw [fresh_cons_of_notMem hname]
    exact congrArg (name :: ·) (ih hrest)

theorem run_putAll (fault : String → Fault) (r : NameRegistry) (names : List String) :
    (fresh r.names names = names ∧ (putAll fault names).run r = .ok () (r.extend names)) ∨
      ∃ name back, names = fresh r.names names ++ name :: back ∧
        (name ∈ fresh r.names names ∨ name ∈ r.names) ∧
        (putAll fault names).run r = .error (fault name) (r.extend (fresh r.names names)) := by
  induction names generalizing r with
  | nil => exact Or.inl ⟨rfl, rfl⟩
  | cons name rest ih =>
    rw [putAll_cons, EStateM.run_bind, run_put]
    by_cases h : name ∈ r.names
    · rw [if_pos h, fresh_cons_of_mem h]
      exact Or.inr ⟨name, rest, rfl, Or.inr h, rfl⟩
    · rw [if_neg h, fresh_cons_of_notMem h, extend_cons r name rest,
        extend_cons r name (fresh (name :: r.names) rest)]
      rcases ih (r.extend [name]) with ⟨hfresh, hrun⟩ | ⟨other, back, hnames, hother, hrun⟩
      · exact Or.inl ⟨congrArg (name :: ·) hfresh, hrun⟩
      · refine Or.inr ⟨other, back, congrArg (name :: ·) hnames, ?_, hrun⟩
        rcases hother with hfront | htaken
        · exact Or.inl (List.mem_cons_of_mem name hfront)
        · rcases mem_names_extend.mp htaken with hname | hr
          · exact Or.inl (List.mem_singleton.mp hname ▸ List.mem_cons_self)
          · exact Or.inr hr

/-! ## One call -/

theorem left_eq (c : Call) (r : NameRegistry) : c.left r = r.extend (fresh r.names c.names) := by
  rw [Call.left, perform_eq_putAll]
  rcases run_putAll c.fault r c.names with ⟨hfresh, hrun⟩ | ⟨name, back, -, -, hrun⟩
  · rw [hrun, hfresh]
  · rw [hrun]

theorem succeeds_iff {c : Call} {r : NameRegistry} : c.Succeeds r ↔ r.Free c.names := by
  rw [Call.Succeeds, perform_eq_putAll]
  rcases run_putAll c.fault r c.names with ⟨hfresh, hrun⟩ | ⟨name, back, hnames, hname, hrun⟩
  · exact iff_of_true ⟨_, hrun⟩ (hfresh ▸ free_fresh r c.names)
  · refine iff_of_false (fun ⟨s, hok⟩ => ?_) fun hfree => ?_
    · cases hrun.symm.trans hok
    · rw [hnames, free_append_iff, free_cons_iff] at hfree
      exact hfree.2.1 (mem_names_extend.mpr hname)

theorem left_of_succeeds {c : Call} {r : NameRegistry} (h : c.Succeeds r) :
    c.left r = r.extend c.names := by
  rw [left_eq, fresh_eq_self (succeeds_iff.mp h)]

/-- A claim of one name is all or nothing. -/
theorem left_of_refused {c : Call} {r : NameRegistry} {name : String} (hname : c.names = [name])
    (h : ¬ c.Succeeds r) : c.left r = r := by
  rw [succeeds_iff, hname, free_singleton_iff, not_not] at h
  rw [left_eq, hname, fresh_cons_of_mem h, extend_nil]

/-- A seed that is refused has put in the names in front of the first that is repeated. -/
theorem left_seed_of_refused {names : List String} {r : NameRegistry}
    (h : ¬ (Call.seed names).Succeeds r) :
    ∃ front name back, names = front ++ name :: back ∧ r.Free front ∧
      (name ∈ front ∨ name ∈ r.names) ∧
      (Call.seed names).perform.run r = .error (.auxiliaryRepeated name) (r.extend front) := by
  rcases run_putAll .auxiliaryRepeated r names with ⟨-, hrun⟩ | ⟨name, back, hnames, hname, hrun⟩
  · exact absurd ⟨_, hrun⟩ h
  · exact ⟨fresh r.names names, name, back, hnames, free_fresh r names, hname, hrun⟩

/-! ## Several calls -/

theorem after_concat (calls : List Call) (c : Call) : after (calls ++ [c]) = c.left (after calls) :=
  List.foldl_concat ..

theorem inserted_concat (calls : List Call) (c : Call) :
    inserted (calls ++ [c]) = inserted calls ++ fresh (inserted calls) c.names :=
  List.foldl_concat ..

theorem names_after (calls : List Call) : (after calls).names = (inserted calls).reverse := by
  induction calls using List.reverseRecOn with
  | nil => rfl
  | append_singleton calls c ih =>
    have hfresh : fresh (after calls).names c.names = fresh (inserted calls) c.names :=
      fresh_congr (fun name => by rw [ih, List.mem_reverse]) c.names
    rw [after_concat, inserted_concat, left_eq, hfresh, extend, ih, List.reverse_append]

theorem nodup_inserted (calls : List Call) : (inserted calls).Nodup := by
  induction calls using List.reverseRecOn with
  | nil => exact List.nodup_nil
  | append_singleton calls c ih =>
    obtain ⟨hnodup, hfree⟩ := free_fresh ⟨inserted calls⟩ c.names
    rw [inserted_concat]
    exact List.nodup_append.mpr ⟨ih, hnodup, fun x hx y hy heq => hfree y hy (heq ▸ hx)⟩

theorem inserted_beginning (calls more : List Call) :
    inserted calls <+: inserted (calls ++ more) := by
  induction more using List.reverseRecOn with
  | nil => rw [List.append_nil]
  | append_singleton more c ih =>
    rw [← List.append_assoc, inserted_concat]
    exact ih.trans (List.prefix_append _ _)

/-- After any calls on an empty registry, it has the names that have been put in and no others, and
its size is their number; what it has, it keeps.  A claim of a name succeeds exactly when the
registry has not got it, and changes nothing otherwise; a member is claimed as its qualified name
is.  A seed that is refused has put in exactly the names in front of the first repeated one. -/
theorem history_of_calls (calls : List Call) :
    (∀ name, (after calls).contains name = true ↔ name ∈ inserted calls) ∧
      (after calls).size = (inserted calls).toFinset.card ∧
      (∀ more name, (after calls).contains name = true →
        (after (calls ++ more)).contains name = true) ∧
      (∀ name, ((Call.claim name).Succeeds (after calls) ↔ (after calls).contains name = false) ∧
        ((Call.claim name).Succeeds (after calls) →
          (Call.claim name).left (after calls) = (after calls).extend [name]) ∧
        (¬ (Call.claim name).Succeeds (after calls) →
          (Call.claim name).left (after calls) = after calls)) ∧
      (∀ group sub, ((Call.member group sub).Succeeds (after calls) ↔
          (Call.claim (Name.qualified group sub)).Succeeds (after calls)) ∧
        (Call.member group sub).left (after calls) =
          (Call.claim (Name.qualified group sub)).left (after calls)) ∧
      (∀ names, ((Call.seed names).Succeeds (after calls) ↔ (after calls).Free names) ∧
        (¬ (Call.seed names).Succeeds (after calls) →
          ∃ front name back, names = front ++ name :: back ∧ (after calls).Free front ∧
            (name ∈ front ∨ (after calls).contains name = true) ∧
            (Call.seed names).left (after calls) = (after calls).extend front)) ∧
      ∀ c : Call, c.perform.run (after calls) = c.answer (after calls) := by
  have hmem : ∀ calls name, (after calls).contains name = true ↔ name ∈ inserted calls := by
    intro calls name
    rw [contains, decide_eq_true_iff, names_after, List.mem_reverse]
  refine ⟨hmem calls, ?_, ?_, ?_, ?_, ?_, fun c => perform_eq_answer c _⟩
  · rw [size, names_after, List.length_reverse, List.toFinset_card_of_nodup (nodup_inserted calls)]
  · intro more name hname
    rw [hmem] at hname ⊢
    exact (inserted_beginning calls more).subset hname
  · intro name
    refine ⟨?_, left_of_succeeds, left_of_refused rfl⟩
    rw [succeeds_iff, contains, decide_eq_false_iff_not]
    exact free_singleton_iff
  · intro group sub
    refine ⟨?_, ?_⟩
    · rw [succeeds_iff, succeeds_iff]
      rfl
    · rw [left_eq, left_eq]
      rfl
  · intro names
    refine ⟨succeeds_iff, fun hrefused => ?_⟩
    obtain ⟨front, name, back, hnames, hfree, hname, hrun⟩ := left_seed_of_refused hrefused
    refine ⟨front, name, back, hnames, hfree, hname.imp_right decide_eq_true, ?_⟩
    rw [Call.left, hrun]

-- The seed is refused for its third name, and the first two stay; the member is new.
example :
    (after [.claim "utst", .seed ["list", "flash", "utst", "burn"], .member "flash" "all",
      .claim "list"]).names = ["flash_all", "flash", "list", "utst"] := by
  decide +kernel

end NameRegistry
end CommandSchema
