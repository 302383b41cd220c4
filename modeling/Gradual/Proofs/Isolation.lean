import Gradual.Proofs.Builders
import Gradual.Proofs.Traces

/-!
Isolation: the copies that are made of a function have ids of their own, and what is found out in them
about their variables is not found in the function.
-/

namespace Gradual

open Check

/-! ### Variables -/

/-- A function in which no definitions are wrapped shares no variables whose types are replaced. -/
theorem FuncDef.sharedRetyped_eq_nil {d : FuncDef}
    (unwrapped : ∀ stmt ∈ d.stmts, ∀ f decorators v, stmt.kind ≠ .decorated f decorators v) :
    d.sharedRetyped = [] := by
  refine List.flatMap_eq_nil_iff.mpr fun stmt listed => ?_
  cases same : stmt.kind with
  | decorated f decorators v => exact absurd same (unwrapped stmt listed f decorators v)
  | _ => rfl

/-- The effects of what a function shares with its copies. -/
def FuncDef.shared (d : FuncDef) : Effects where
  nodes _ := False
  retypes v _ := v ∈ d.sharedRetyped
  infers v := v ∈ d.sharedIntroduced
  copies := true
  declares := false

/-- The check of a function with a restricted type variable changes what it shares with its copies,
and nothing else of what was there. -/
theorem FuncDef.check_keeps_shared {d : FuncDef} {v : TypeVar} (restricted : d.restricted? = some v) :
    Keeps d.shared (d.check Block.check) := by
  have shares : d.shared.Shares d := ⟨rfl, fun _ member _ => member, fun _ member => member⟩
  have copies : CopiesKeep Block.check := fun _ _ b h => b.check_keeps h
  cases d with
  | mk => exact checkFunc_keeps_of_restricted restricted shares copies

/-! ### Runs -/

/-- The copies that are made in a run have the ids that are handed out in it. -/
theorem Program.run_issues (p : Program) (options : Options) (names : List String) :
    Issues (.initial p) (p.run options (names.mapM checkModuleNamed)).2
      (copiesIn (p.events options names)) :=
  checkModules_issues names (.ofProgram p options) (.initial p)

def Var.given : Var := ⟨0, "x", "x", none⟩

def Var.kept : Var := ⟨1, "y", "y", none⟩

/-- An occurrence of a variable of a function. -/
def Var.occurrence (v : Var) (isDef : Bool) : ExprKind :=
  .name ⟨v.name, v.fullName, .inFunction, .var v, isDef⟩

/-- A type variable for two types. -/
def TypeVar.emptyOrSingle : TypeVar := ⟨"T", -1, [.tuple [], .tuple [.any]], .any⟩

/-- A function that assigns its argument to a variable. -/
def FuncDef.keep : FuncDef where
  name := "keep"
  fullName := "m.keep"
  owner := none
  params := [⟨.given, .pos, none⟩]
  body := [⟨.atLine 1, .assign [⟨1, .atLine 1, Var.kept.occurrence true⟩]
    ⟨0, .atLine 1, Var.given.occurrence false⟩⟩]
  signature := some { Signature.positional [.typeVar .emptyOrSingle] .any with
    quantified := [.emptyOrSingle] }
  isGenerator := false
  span := .atLine 1
  isAbstract := false
  earlier := none
  symbol := ⟨"keep", "m.keep", none, .any, false⟩

/-- A builder that has added the function to a module. -/
def Builder.keeping : Builder :=
  let added : Build Unit := do
    enterModule "m"
    discard <| localVar "x" none
    discard <| localVar "y" none
    discard <| expr (Var.given.occurrence false)
    discard <| expr (Var.kept.occurrence true)
    push ⟨.atLine 1, .func .keep⟩
  (added.run .bare).2

theorem Builder.keeping_built : ∃ made, Built made .keeping := by
  have named := ((Built.bare.enterModule "m").newVar "x" "x" none none).newVar "y" "y" none none
  have value := named.expr (Var.given.occurrence false) fun _ inside => nomatch inside
  have target := value.expr (Var.kept.occurrence true) fun _ inside => nomatch inside
  refine ⟨_, target.push ⟨.atLine 1, .func .keep⟩ fun inner listed e part => ?_⟩
  have member : e ∈ (Block.stmts [⟨.atLine 1, .func .keep⟩]).flatMap (·.exprs) :=
    List.mem_flatMap.mpr ⟨inner, listed, part⟩
  exact member

end Gradual
