import Gradual.Checker.Display
import Gradual.Checker.Iteration
import Gradual.Proofs.Contract
import Gradual.Proofs.Subtyping

/-!
Code that declares no types. All that is inferred there answers the dynamic type, which every rule
accepts, so of what the rules can report only that remains which does not depend on types.
-/

namespace Gradual

/-- What may be wrong where no types are declared: a tuple that is written out has too many or too
few items for its targets, or names no exceptions. -/
def Diagnostic.IsUntyped (d : Diagnostic) : Prop :=
  d.code = Code.valueCountMismatch.text ∨ d.code = Code.unsupportedException.text

/-- The code is in a function that declares no types. -/
structure Scope.Untyped (returns : Option Ty) (scope : Scope) : Prop where
  dynamic : scope.functions.head?.any (·.isDynamic) = true
  returns : scope.returnTypes.head? = returns

/-- The functions around are the same, and what has been reported does not depend on types. -/
structure State.Untyped (s s' : State) : Prop where
  functions : s'.scope.functions = s.scope.functions
  returnTypes : s'.scope.returnTypes = s.scope.returnTypes
  diagnostics : ∃ reports, s'.diagnostics = s.diagnostics ++ reports ∧ ∀ d ∈ reports, d.IsUntyped

namespace State.Untyped

variable {s t u : State}

/-- A change of other parts of the state. -/
theorem of_same (scope : t.scope = s.scope) (diagnostics : t.diagnostics = s.diagnostics) :
    s.Untyped t :=
  ⟨by rw [scope], by rw [scope], [], by simp [diagnostics], by simp⟩

theorem trans (first : s.Untyped t) (second : t.Untyped u) : s.Untyped u where
  functions := second.functions.trans first.functions
  returnTypes := second.returnTypes.trans first.returnTypes
  diagnostics := by
    obtain ⟨before, earlier, allowed⟩ := first.diagnostics
    obtain ⟨after, later, allowed'⟩ := second.diagnostics
    refine ⟨before ++ after, ?_, List.forall_mem_append.mpr ⟨allowed, allowed'⟩⟩
    rw [later, earlier, List.append_assoc]

end State.Untyped

/-- The contract of actions in code that declares no types. -/
@[reducible]
def Contract.untyped (returns : Option Ty) : Contract where
  before s := s.scope.Untyped returns
  frame := State.Untyped
  refl _ := .of_same rfl rfl
  trans := .trans
  stable before same :=
    ⟨by rw [same.functions]; exact before.dynamic, by rw [same.returnTypes]; exact before.returns⟩

/-- The value is dynamic. -/
def Operand.Untyped (r : Option Ty) (o : Operand) : Prop :=
  ∀ expected, Check.Keeps (.untyped r) (o.accept expected) (· = .any)

namespace Check

variable {r r' : Option Ty}

/-! ### Scopes -/

variable {α : Type} {x : Check α} {post : α → Prop}

theorem between_untyped {enter leave : Scope → Scope}
    (enters : ∀ scope, scope.Untyped r → (enter scope).Untyped r')
    (leaves : ∀ scope inner, inner.functions = (enter scope).functions →
      inner.returnTypes = (enter scope).returnTypes →
        (leave inner).functions = scope.functions ∧ (leave inner).returnTypes = scope.returnTypes)
    (h : Keeps (.untyped r') x post) : Keeps (.untyped r) (between enter leave x) post := by
  intro env s before
  obtain ⟨same, answer⟩ := h env { s with scope := enter s.scope } (enters _ before)
  obtain ⟨functions, returnTypes⟩ := leaves s.scope _ same.functions same.returnTypes
  exact ⟨⟨functions, returnTypes, same.diagnostics⟩, answer⟩

/-- Most changes of the scope leave the functions around. -/
theorem inside_untyped {enter leave : Scope → Scope}
    (entered : ∀ scope, (enter scope).functions = scope.functions ∧
      (enter scope).returnTypes = scope.returnTypes)
    (left : ∀ scope, (leave scope).functions = scope.functions ∧
      (leave scope).returnTypes = scope.returnTypes)
    (h : Keeps (.untyped r) x post) : Keeps (.untyped r) (between enter leave x) post := by
  refine between_untyped (fun scope before => ⟨?_, ?_⟩)
    (fun scope inner functions returnTypes => ?_) h
  · rw [(entered scope).1]
    exact before.dynamic
  · rw [(entered scope).2]
    exact before.returns
  · rw [(left inner).1, (left inner).2, functions, returnTypes]
    exact entered scope

theorem expecting_untyped {type : Option Ty} (h : Keeps (.untyped r) x post) :
    Keeps (.untyped r) (expecting type x) post :=
  inside_untyped (fun _ => ⟨rfl, rfl⟩) (fun _ => ⟨rfl, rfl⟩) h

theorem narrowing_untyped {narrowed : Option (Var × Ty)} (h : Keeps (.untyped r) x post) :
    Keeps (.untyped r) (narrowing narrowed x) post := by
  cases narrowed with
  | none => exact h
  | some narrowed => exact inside_untyped (fun _ => ⟨rfl, rfl⟩) (fun _ => ⟨rfl, rfl⟩) h

theorem inLocalScope_untyped (h : Keeps (.untyped r) x post) :
    Keeps (.untyped r) (inLocalScope x) post := by
  intro env s before
  have kept : Keeps (.untyped r) (between (fun scope => { scope with locals := some ∅ })
      (fun scope => { scope with locals := s.scope.locals }) x) post :=
    inside_untyped (fun _ => ⟨rfl, rfl⟩) (fun _ => ⟨rfl, rfl⟩) h
  exact kept env s before

theorem returning_untyped {type : Ty} (h : Keeps (.untyped (some type)) x post) :
    Keeps (.untyped r) (returning type x) post := by
  refine between_untyped (fun _ before => ⟨before.dynamic, rfl⟩) (fun _ inner functions types => ?_) h
  exact ⟨functions, by rw [types]; rfl⟩

theorem inFunction_untyped {frame : Frame} (dynamic : frame.isDynamic = true)
    (h : Keeps (.untyped r) x post) : Keeps (.untyped r) (inFunction frame x) post := by
  refine between_untyped (fun _ before => ⟨dynamic, before.returns⟩)
    (fun _ inner functions returnTypes => ?_) h
  exact ⟨by rw [functions]; rfl, returnTypes⟩

/-- A function without types may be anywhere. -/
theorem outcome_inFunction_untyped {frame : Frame} {env : Env} {s : State}
    (dynamic : frame.isDynamic = true) (h : Keeps (.untyped s.scope.returnTypes.head?) x post) :
    s.Untyped ((inFunction frame x).outcome env s).2 := by
  have same := (h env { s with scope := { s.scope with functions := frame :: s.scope.functions } }
    ⟨dynamic, rfl⟩).1
  exact ⟨congrArg List.tail same.functions, same.returnTypes, same.diagnostics⟩

/-! ### The changes that rules are made of -/

theorem store_untyped {node : NodeId} {type : Ty} : Keeps (.untyped r) (store node type) :=
  .of_frame fun _ _ => .of_same rfl rfl

theorem setVar_untyped {v : Var} {type : Ty} : Keeps (.untyped r) (setVar v type) :=
  .of_frame fun _ _ => .of_same rfl rfl

theorem inferVar_untyped {v : Var} {type : Ty} : Keeps (.untyped r) (inferVar v type) :=
  .of_frame fun _ _ => .of_same rfl rfl

theorem declareLocal_untyped {v : Var} : Keeps (.untyped r) (declareLocal v) :=
  .of_frame fun _ s => ⟨rfl, rfl, [], (List.append_nil s.diagnostics).symm, by simp⟩

theorem report_untyped {p : Problem} {span : Span}
    (allowed : p.code = .valueCountMismatch ∨ p.code = .unsupportedException) :
    Keeps (.untyped r) (report p span) := by
  refine .of_frame fun env s => ?_
  rw [outcome_report]
  split
  · exact .of_same rfl rfl
  · refine ⟨rfl, rfl, [diagnostic env s.file s.scope p span], rfl, ?_⟩
    intro d reported
    rw [List.mem_singleton.mp reported]
    exact allowed.imp (congrArg Code.text) (congrArg Code.text)

theorem named_untyped {fullName : String} {args : List Ty} :
    Keeps (.untyped r) (named fullName args) := by
  refine read_keeps.seq fun env => get_keeps.seq fun s => ?_
  split
  · exact .done
  · exact .seq (.of_frame fun _ _ => .of_same rfl rfl) fun _ => .done

theorem isDynamic_untyped : Keeps (.untyped r) isDynamic (· = true) :=
  fun _ s before => ⟨Contract.refl _ s, before.dynamic⟩

theorem scope_untyped : Keeps (.untyped r) scope (·.Untyped r) :=
  fun _ s before => ⟨Contract.refl _ s, before⟩

/-! ### What the rules make of the dynamic type -/

theorem isSubtype_untyped {type : Ty} : Keeps (.untyped r) (isSubtype .any type) (· = true) :=
  fun _ s _ => ⟨Contract.refl _ s, TypeOrder.isSubtype_any_left type⟩

theorem join_untyped : Keeps (.untyped r) (join .any .any) (· = .any) :=
  fun env s _ => ⟨Contract.refl _ s, TypeOrder.join_any (o := env.order)⟩

theorem joinAll_untyped {types : List Ty} (h : ∀ t ∈ types, t = .any) :
    Keeps (.untyped r) (joinAll types) (·.isError = false) :=
  fun env s _ => ⟨Contract.refl _ s, TypeOrder.isError_foldl_join (o := env.order) h⟩

theorem foldlM_join_untyped {types : List Ty} (h : ∀ t ∈ types, t = .any) :
    Keeps (.untyped r) (types.foldlM join .any) (· = .any) := by
  induction types with
  | nil => exact .pure rfl
  | cons t rest ih =>
    obtain ⟨rfl, others⟩ := List.forall_mem_cons.mp h
    rw [List.foldlM_cons]
    apply join_untyped.bind
    intro _ answer
    subst answer
    exact ih others

theorem checkSubtype_untyped {type : Ty} {span : Span} {p : Problem} {call : Option String} :
    Keeps (.untyped r) (checkSubtype .any type span p call) := by
  apply isSubtype_untyped.bind
  intro _ answer
  subst answer
  exact .done

theorem known_untyped : (Operand.known .any).Untyped r := fun _ => .pure rfl

/-! ### Calls -/

theorem getAttribute?_untyped {name : String} :
    Keeps (.untyped r) (getAttribute? name .any) (· = some .any) :=
  fun _ s _ => ⟨Contract.refl _ s, rfl⟩

theorem getAttribute_untyped {name : String} {span : Span} :
    Keeps (.untyped r) (getAttribute name .any span) (· = .any) := by
  apply getAttribute?_untyped.bind
  intro _ answer
  subst answer
  exact .pure rfl

theorem giveFrom_untyped {context : Nat → ArgShape → Option Ty} {i : Nat} {args : List Arg}
    (h : ∀ a ∈ args, a.operand.Untyped r) : Keeps (.untyped r) (giveFrom context i args) := by
  induction args generalizing i with
  | nil => exact .done
  | cons a rest ih =>
    apply (h a (by simp) _).trivial.seq
    intro type
    exact (ih fun b hb => h b (by simp [hb])).seq fun _ => .done

theorem resolveCallee_any {env : Env} {vars : VarTypes} {steps : Nat} :
    resolveCallee env vars steps .any = .any := by
  cases steps <;> rfl

theorem checkCall_untyped {args : List Arg} {span : Span} (h : ∀ a ∈ args, a.operand.Untyped r) :
    Keeps (.untyped r) (checkCall .any args span) (·.type = .any) := by
  refine read_keeps.seq fun env => get_keeps.seq fun s => ?_
  rw [resolveCallee_any]
  exact (giveFrom_untyped h).discard.seq fun _ => .pure rfl

theorem checkMethodCall_untyped {method : String} {args : List Operand} {span : Span}
    (h : ∀ o ∈ args, o.Untyped r) :
    Keeps (.untyped r) (checkMethodCall method .any args span) (· = .any) := by
  apply getAttribute_untyped.bind
  intro _ answer
  subst answer
  refine (checkCall_untyped fun a ha => ?_).bind fun called answer => .pure answer
  obtain ⟨o, ho, rfl⟩ := List.mem_map.mp ha
  exact h o ho

theorem checkOperator_untyped {method op : String} {arg : Operand} {span : Span}
    (h : arg.Untyped r) :
    Keeps (.untyped r) (checkOperator method .any arg op span) (·.type = .any) :=
  (h none).trivial.discard.seq fun _ => .pure rfl

end Check
end Gradual
