import Gradual.Proofs.Runs

/-!
Inferred types: a variable that no definition gives a type to gets at most one, from the first value
that is assigned to it, and that is neither `None` nor missing, nor holds such a type.
-/

namespace Gradual

mutual

/-- A type with the type arguments and the items of tuples in it. -/
def Ty.contents : Ty → List Ty
  | .inst c name args => .inst c name args :: contentsOfEach args
  | .tuple items => .tuple items :: contentsOfEach items
  | .any => [.any]
  | .void => [.void]
  | .noneType => [.noneType]
  | .callable s => [.callable s]
  | .overloaded items => [.overloaded items]
  | .typeVar v => [.typeVar v]
  | .unbound name => [.unbound name]
  | .error => [.error]

def contentsOfEach : List Ty → List Ty
  | [] => []
  | t :: ts => t.contents ++ contentsOfEach ts

end

/-- A type that stands for no value in particular. -/
def Ty.Blank (t : Ty) : Prop := t = .noneType ∨ t = .void

mutual

/-- A type is specific if it is not blank and holds no blank type. -/
theorem Ty.isSpecific_iff : (t : Ty) → (t.isSpecific = true ↔ ∀ u ∈ t.contents, ¬ u.Blank)
  | .inst c name args => by
    rw [Ty.contents, List.forall_mem_cons, ← allSpecific_iff_contents args, Ty.isSpecific]
    simp [Ty.Blank]
  | .tuple items => by
    rw [Ty.contents, List.forall_mem_cons, ← allSpecific_iff_contents items, Ty.isSpecific]
    simp [Ty.Blank]
  | .void | .noneType => by simp [Ty.isSpecific, Ty.contents, Ty.Blank]
  | .any | .callable _ | .overloaded _ | .typeVar _ | .unbound _ | .error => by
    simp [Ty.isSpecific, Ty.contents, Ty.Blank]

theorem allSpecific_iff_contents : (ts : List Ty) →
    (Ty.isSpecific.allSpecific ts = true ↔ ∀ u ∈ contentsOfEach ts, ¬ u.Blank)
  | [] => by simp [Ty.isSpecific.allSpecific, contentsOfEach]
  | t :: ts => by
    rw [Ty.isSpecific.allSpecific, contentsOfEach, List.forall_mem_append, Bool.and_eq_true,
      t.isSpecific_iff, allSpecific_iff_contents ts]

end

/-- Between two states a variable keeps the type that it has, and if it had none it got a specific
one or none. -/
structure Var.Settles (v : Var) (s t : State) : Prop where
  kept : ∀ type, s.vars.get? v = some type → t.vars.get? v = some type
  specific : s.vars.get? v = none → ∀ type, t.vars.get? v = some type →
    type.isSpecific = true ∧ ∀ u ∈ type.contents, ¬ u.Blank

/-- Along any chain of changes, variables that none of them gives types to settle. -/
theorem Changes.settles {w : Effects} {s t : State} {made : List FuncDef} {v : Var}
    (h : Changes w s made t) (old : v.id < s.vars.next) (only : ∀ given, ¬ w.retypes v.id given) :
    v.Settles s t where
  kept _ known := h.typed old (fun given allowed => absurd allowed (only given)) known
  specific none type known := by
    have specific := h.specific old only none known
    exact ⟨specific, type.isSpecific_iff.mp specific⟩

open Check

/-- The type of a variable that is neither an argument of a function nor the outcome of decorators is
written once, and is specific: by the check of any statement in any state, and from any point of a run
on, however many modules are checked before and behind it and however often. -/
theorem inferred_types_settle :
    (∀ (env : Env) (s : State) (stmt : Stmt) (v : Var), v.id < s.vars.next →
      (∀ r ∈ Block.retypings [stmt], r.1 ≠ v.id) →
        v.Settles s ((stmt.check Block.check).outcome env s).2) ∧
    ∀ (p : Program) (options : Options) (earlier later : List String) (v : Var),
      let s := (p.run options (earlier.mapM checkModuleNamed)).2
      let t := ((later.mapM checkModuleNamed).outcome (.ofProgram p options) s).2
      v.id < s.vars.next →
      (∀ (name : String) (m : Module), p.modules[name]? = some m →
        ∀ r ∈ m.body.retypings, r.1 ≠ v.id) →
          v.Settles s t := by
  refine ⟨fun env s stmt v old given => ?_, ?_⟩
  · obtain ⟨made, changes⟩ := (stmt.check_keeps_effects.frame env s).changes
    exact changes.settles old (Block.not_retypes given)
  · intro p options earlier later v s t old given
    obtain ⟨made, changes⟩ := checkModules_changes (.ofProgram p options) s later
    -- Which module gives a type to a variable plays no part: none of them gives one to `v`.
    have only : ∀ type, ¬ p.effects.retypes v.id type := by
      rintro type ⟨name, m, known, retyped⟩
      exact Block.not_retypes (given name m known) type retyped
    obtain ⟨kept, specific⟩ := changes.settles (v := v) old only
    exact ⟨kept, specific⟩

/-! ### A module -/

def Var.pair : Var := ⟨0, "pair", "m.pair", none⟩

/-- A tuple is assigned to a variable without a type. -/
def Block.pairing : Block :=
  [⟨.atLine 1, .assign [⟨0, .atLine 1, .name ⟨"pair", "m.pair", .inModule, .var .pair, true⟩⟩]
    ⟨2, .atLine 1, .tuple [⟨1, .atLine 1, .placeholder none⟩]⟩⟩]

def Program.pairing : Program :=
  ⟨(∅ : Std.TreeMap String Module).insert "m" ⟨"m", "m.py", .pairing, ∅⟩, .empty, 3, ⟨1, ∅⟩⟩

/-- The variable has the type of the tuple when the module has been checked once, and when it has been
checked twice. -/
theorem pairing_settles :
    let s := (Program.pairing.run default (([] : List String).mapM checkModuleNamed)).2
    let t := ((["m"].mapM checkModuleNamed).outcome (.ofProgram .pairing default) s).2
    let u := ((["m"].mapM checkModuleNamed).outcome (.ofProgram .pairing default) t).2
    s.vars.get? .pair = none ∧ t.vars.get? .pair = some (.tuple [.any]) ∧
      (Ty.tuple [.any]).isSpecific = true ∧ u.vars.get? .pair = some (.tuple [.any]) := by
  intro s t u
  have given : ∀ (name : String) (m : Module), Program.pairing.modules[name]? = some m →
      ∀ r ∈ m.body.retypings, r.1 ≠ Var.pair.id := by
    intro name m known
    simp only [Program.pairing, Std.TreeMap.getElem?_insert, Std.TreeMap.getElem?_emptyc] at known
    split at known
    · cases known
      decide
    · cases known
  have first := inferred_types_settle.2 .pairing default [] ["m"] .pair (by decide) given
  have second := inferred_types_settle.2 .pairing default ["m"] ["m"] .pair (by decide) given
  have empty : s.vars.get? .pair = none := by with_unfolding_all rfl
  have known : t.vars.get? .pair = some (.tuple [.any]) := by with_unfolding_all rfl
  exact ⟨empty, known, (first.specific empty _ known).1, second.kept _ known⟩

end Gradual
