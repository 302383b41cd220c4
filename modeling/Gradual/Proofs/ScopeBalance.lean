import Gradual.Checker.Module
import Gradual.Proofs.Depth

/-!
What follows the nesting of the program is back to what it was when a construct has been checked.
-/

namespace Gradual

namespace Check

/-- Within whatever effects, an action that binds no names leaves the scope. -/
theorem Keeps.scope_eq {α : Type} {x : Check α} {post : α → Prop} (h : Keeps Effects.anything x post)
    (env : Env) (s : State) : (x.outcome env s).2.scope = s.scope :=
  (h.frame env s).scope_eq rfl

theorem accept_scope (e : Expr) (expected : Option Ty) (env : Env) (s : State) :
    ((e.accept expected).outcome env s).2.scope = s.scope :=
  (e.within_anything.accept expected).scope_eq env s

theorem check_scope (b : Block) (env : Env) (s : State) :
    (b.check.outcome env s).2.scope = s.scope :=
  Keeps.scope_eq (b.check_keeps (f := none) fun p _ => p.stmt.within_anything) env s

theorem stmt_check_scope (stmt : Stmt) (env : Env) (s : State) :
    ((stmt.check Block.check).outcome env s).2.scope = s.scope := by
  have copies : CopiesKeep Block.check := fun _ _ b h => b.check_keeps h
  exact Keeps.scope_eq (stmt.check_keeps copies (f := none) fun p _ => p.stmt.within_anything) env s

/-- A module starts without names of a function and without narrowed variables. -/
theorem checkModule_scope (m : Module) (env : Env) (s : State) :
    ((checkModule m).outcome env s).2.scope =
      { s.scope with locals := none, binder := .empty } :=
  check_scope m.body env _

theorem checkModuleNamed_scope (name : String) (env : Env) (s : State)
    (outermost : s.scope = .outermost) :
    ((checkModuleNamed name).outcome env s).2.scope = .outermost := by
  unfold checkModuleNamed
  rw [outcome_bind, outcome_read]
  split
  · rename_i m known
    show ((checkModule m).outcome env s).2.scope = .outermost
    rw [checkModule_scope, outermost]
    rfl
  · exact outermost

theorem checkModules_scope (names : List String) (env : Env) (s : State)
    (outermost : s.scope = .outermost) :
    ((names.mapM checkModuleNamed).outcome env s).2.scope = .outermost := by
  induction names generalizing s with
  | nil => exact outermost
  | cons name rest ih =>
    rw [List.mapM_cons]
    exact ih _ (checkModuleNamed_scope name env s outermost)

end Check

open Check

/-- Inferring an expression and checking a statement leave the scope, with all that variables are
narrowed to, as they found it, whatever is reported and whichever branches are pruned; and however
many modules are checked one after the other, nothing is narrowed when they are done. -/
theorem scope_balanced :
    (∀ (env : Env) (s : State) (e : Expr) (expected : Option Ty),
      ((e.accept expected).outcome env s).2.scope = s.scope) ∧
    (∀ (env : Env) (s : State) (stmt : Stmt),
      ((stmt.check Block.check).outcome env s).2.scope = s.scope) ∧
    ∀ (p : Program) (options : Options) (names : List String),
      (p.run options (names.mapM checkModuleNamed)).2.scope = .outermost ∧
      (p.run options (names.mapM checkModuleNamed)).2.scope.binder = .empty := by
  refine ⟨fun env s e expected => accept_scope e expected env s,
    fun env s stmt => stmt_check_scope stmt env s, fun p options names => ?_⟩
  have scope : (p.run options (names.mapM checkModuleNamed)).2.scope = .outermost :=
    checkModules_scope names (.ofProgram p options) (.initial p) rfl
  refine ⟨scope, ?_⟩
  rw [scope]
  rfl

end Gradual
