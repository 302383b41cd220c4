import Gradual.Checker.State

/-!
What an action of the checker answers and the state that it leaves.
-/

namespace Gradual

/-- The state in which an expression is inferred of which a type is expected. -/
def State.expecting (s : State) (type : Option Ty) : State :=
  { s with scope := { s.scope with expected := type :: s.scope.expected } }

namespace Check

/-- The answer of an action and the state after it. -/
def outcome {α : Type} (x : Check α) (env : Env) (s : State) : α × State := (x.run env).run s

variable {α β : Type} {env : Env} {s : State}

@[simp] theorem outcome_pure (a : α) : (pure a : Check α).outcome env s = (a, s) := rfl

@[simp] theorem outcome_bind (x : Check α) (f : α → Check β) :
    (x >>= f).outcome env s = (f (x.outcome env s).1).outcome env (x.outcome env s).2 := rfl

@[simp] theorem outcome_discard (x : Check α) :
    (discard x).outcome env s = ((), (x.outcome env s).2) := rfl

@[simp] theorem outcome_read : (read : Check Env).outcome env s = (env, s) := rfl

@[simp] theorem outcome_get : (get : Check State).outcome env s = (s, s) := rfl

@[simp] theorem outcome_scope : scope.outcome env s = (s.scope, s) := rfl

theorem outcome_between (enter leave : Scope → Scope) (x : Check α) :
    (between enter leave x).outcome env s =
      let inside := x.outcome env { s with scope := enter s.scope }
      (inside.1, { inside.2 with scope := leave inside.2.scope }) := rfl

@[simp] theorem outcome_isDynamic :
    isDynamic.outcome env s = (s.scope.functions.head?.any (·.isDynamic), s) := rfl

@[simp] theorem outcome_store (node : NodeId) (type : Ty) :
    (store node type).outcome env s = ((), { s with types := s.types.insert node type }) := rfl

@[simp] theorem outcome_typeOfVar (v : Var) :
    (typeOfVar v).outcome env s = (s.vars.get? v, s) := rfl

@[simp] theorem outcome_setVar (v : Var) (type : Ty) :
    (setVar v type).outcome env s = ((), { s with vars := s.vars.set v type }) := rfl

@[simp] theorem outcome_inferVar (v : Var) (type : Ty) :
    (inferVar v type).outcome env s = ((), { s with vars := s.vars.infer v type }) := rfl

@[simp] theorem outcome_isSubtype (l r : Ty) :
    (isSubtype l r).outcome env s = (env.order.isSubtype l r, s) := rfl

/-- The state after a report: a report that was made before is not made again. -/
theorem outcome_report (p : Problem) (span : Span) :
    (report p span).outcome env s =
      ((), if diagnostic env s.file s.scope p span ∈ s.diagnostics then s
        else { s with
          diagnostics := s.diagnostics ++ [diagnostic env s.file s.scope p span] }) := rfl

theorem mem_report {p : Problem} {span : Span} :
    diagnostic env s.file s.scope p span ∈ ((report p span).outcome env s).2.diagnostics := by
  rw [outcome_report]
  split
  · assumption
  · exact List.mem_append_right _ (List.mem_singleton.mpr rfl)

end Check
end Gradual
