import Gradual.Proofs.Agreement
import Gradual.Proofs.Outcome

/-!
Agreement of checks that give expressions different ids: the states differ in the ids under which types
are recorded and in the next id, and in nothing else.
-/

namespace Gradual

/-- What is recorded for an id in the first state is recorded for the changed id in the second one, and
the next ids of the first are changed to those of the second. -/
inductive State.Alike (ρ : NodeId → NodeId) (s : State) : State → Prop
  | intro (types : TypeMap) (n : NodeId) (injective : ∀ i j, ρ i = ρ j → i = j)
    (recorded : ∀ id, types[ρ id]? = s.types[id]?) (next : ∀ k, ρ (s.nextNode + k) = n + k) :
    Alike ρ s { s with types, nextNode := n }

theorem State.Alike.vars_eq {ρ : NodeId → NodeId} {s t : State} (h : s.Alike ρ t) :
    t.vars = s.vars := by cases h; rfl

namespace Check

variable {ρ : NodeId → NodeId} {α β : Type}

/-- Both checks find the same, and record it under different ids. -/
abbrev Same (ρ : NodeId → NodeId) (x y : Check α) : Prop := Agree (State.Alike ρ) Eq x y

/-- The check neither looks at ids nor at what is recorded for them. -/
abbrev Blind (ρ : NodeId → NodeId) (x : Check α) : Prop := Same ρ x x

/-- An action that depends on nothing that is told by ids, and that changes nothing of it. -/
theorem Blind.of_outcome {x : Check α}
    (kept : ∀ env s, (x.outcome env s).2.types = s.types ∧ (x.outcome env s).2.nextNode = s.nextNode)
    (told : ∀ env s types n, x.outcome env { s with types, nextNode := n } =
      ((x.outcome env s).1, { (x.outcome env s).2 with types, nextNode := n })) : Blind ρ x := by
  rintro env s _ ⟨types, n, injective, recorded, next⟩
  obtain ⟨sameTypes, sameNext⟩ := kept env s
  rw [← sameTypes] at recorded
  rw [← sameNext] at next
  have outcome := told env s types n
  simp only [Check.outcome] at outcome recorded next
  rw [outcome]
  exact ⟨rfl, .intro types n injective recorded next⟩

theorem Blind.bind {x : Check α} {f : α → Check β} (first : Blind ρ x) (next : ∀ a, Blind ρ (f a)) :
    Blind ρ (x >>= f) := first.seq next

theorem Blind.done {a : α} : Blind ρ (pure a : Check α) := Agree.done

/-! ### What only reads -/

theorem scope_blind : Blind ρ scope := .of_outcome (fun _ _ => ⟨rfl, rfl⟩) fun _ _ _ _ => rfl

theorem read_blind : Blind ρ (read : Check Env) :=
  .of_outcome (fun _ _ => ⟨rfl, rfl⟩) fun _ _ _ _ => rfl

theorem isDynamic_blind : Blind ρ isDynamic :=
  .of_outcome (fun _ _ => ⟨rfl, rfl⟩) fun _ _ _ _ => rfl

theorem expectedType_blind : Blind ρ expectedType :=
  .of_outcome (fun _ _ => ⟨rfl, rfl⟩) fun _ _ _ _ => rfl

theorem typeOfVar_blind {v : Var} : Blind ρ (typeOfVar v) :=
  .of_outcome (fun _ _ => ⟨rfl, rfl⟩) fun _ _ _ _ => rfl

theorem isSubtype_blind {l r : Ty} : Blind ρ (isSubtype l r) :=
  .of_outcome (fun _ _ => ⟨rfl, rfl⟩) fun _ _ _ _ => rfl

theorem join_blind {l r : Ty} : Blind ρ (join l r) :=
  .of_outcome (fun _ _ => ⟨rfl, rfl⟩) fun _ _ _ _ => rfl

theorem joinAll_blind {ts : List Ty} : Blind ρ (joinAll ts) :=
  .of_outcome (fun _ _ => ⟨rfl, rfl⟩) fun _ _ _ _ => rfl

theorem get_alike : Agree (State.Alike ρ) (State.Alike ρ) (get : Check State) get :=
  fun _ _ _ related => ⟨related, related⟩

theorem recorded_same {node : NodeId} : Same ρ (recorded node) (recorded (ρ node)) := by
  rintro env s _ ⟨types, n, injective, known, next⟩
  exact ⟨congrArg (·.getD .any) (known node).symm, .intro types n injective known next⟩

/-! ### What changes the state -/

theorem store_same {node : NodeId} {type : Ty} : Same ρ (store node type) (store (ρ node) type) := by
  rintro env s _ ⟨types, n, injective, recorded, next⟩
  refine ⟨rfl, .intro (types.insert (ρ node) type) n injective (fun id => ?_) next⟩
  show (types.insert (ρ node) type)[ρ id]? = (s.types.insert node type)[id]?
  by_cases same : node = id
  · simp [same]
  · have other : ρ node ≠ ρ id := fun equal => same (injective _ _ equal)
    simp [Std.TreeMap.getElem?_insert, same, other, recorded]

theorem modifyScope_blind {f : Scope → Scope} : Blind ρ (modifyScope f) :=
  .of_outcome (fun _ _ => ⟨rfl, rfl⟩) fun _ _ _ _ => rfl

theorem setVar_blind {v : Var} {type : Ty} : Blind ρ (setVar v type) :=
  .of_outcome (fun _ _ => ⟨rfl, rfl⟩) fun _ _ _ _ => rfl

theorem inferVar_blind {v : Var} {type : Ty} : Blind ρ (inferVar v type) :=
  .of_outcome (fun _ _ => ⟨rfl, rfl⟩) fun _ _ _ _ => rfl

theorem declareLocal_blind {v : Var} : Blind ρ (declareLocal v) := modifyScope_blind

theorem report_blind {p : Problem} {span : Span} : Blind ρ (report p span) := by
  refine .of_outcome (fun env s => ?_) fun env s types n => ?_
  · rw [outcome_report]
    dsimp only
    split <;> exact ⟨rfl, rfl⟩
  · rw [outcome_report, outcome_report]
    dsimp only
    split <;> rfl

theorem outcome_named (fullName : String) (args : List Ty) (env : Env) (s : State) :
    (named fullName args).outcome env s =
      match resolve? env s fullName with
      | some (.cls c) => (.inst c fullName args, s)
      | _ => (.unbound fullName, { s with missing := s.missing.insert fullName }) := by
  unfold named
  rw [outcome_bind, outcome_read, outcome_bind, outcome_get]
  dsimp only
  rcases resolve? env s fullName with _ | symbol
  · rfl
  · cases symbol <;> rfl

theorem named_blind {fullName : String} {args : List Ty} : Blind ρ (named fullName args) := by
  refine .of_outcome (fun env s => ?_) fun env s types n => ?_
  · rw [outcome_named]
    split <;> exact ⟨rfl, rfl⟩
  · rw [outcome_named, outcome_named]
    -- What a name stands for is not told from ids.
    have same : resolve? env { s with types, nextNode := n } fullName = resolve? env s fullName := rfl
    rw [same]
    rcases resolve? env s fullName with _ | symbol
    · rfl
    · cases symbol <;> rfl

theorem boolType_blind : Blind ρ boolType := named_blind

theorem strType_blind : Blind ρ strType := named_blind

/-! ### Scopes -/

section

variable {answers : α → β → Prop} {x : Check α} {y : Check β}

theorem between_agree {enter leave : Scope → Scope} (h : Agree (State.Alike ρ) answers x y) :
    Agree (State.Alike ρ) answers (between enter leave x) (between enter leave y) :=
  modifyScope_blind.seq fun _ => h.bind fun _ _ answered =>
    modifyScope_blind.seq fun _ => .pure answered

theorem expecting_agree {type : Option Ty} (h : Agree (State.Alike ρ) answers x y) :
    Agree (State.Alike ρ) answers (expecting type x) (expecting type y) := between_agree h

theorem inFunction_agree {frame : Frame} (h : Agree (State.Alike ρ) answers x y) :
    Agree (State.Alike ρ) answers (inFunction frame x) (inFunction frame y) := between_agree h

theorem returning_agree {type : Ty} (h : Agree (State.Alike ρ) answers x y) :
    Agree (State.Alike ρ) answers (returning type x) (returning type y) := between_agree h

theorem inClass_agree {c : ClassId} (h : Agree (State.Alike ρ) answers x y) :
    Agree (State.Alike ρ) answers (inClass c x) (inClass c y) := between_agree h

theorem inInstantiation_agree {note : String} (h : Agree (State.Alike ρ) answers x y) :
    Agree (State.Alike ρ) answers (inInstantiation note x) (inInstantiation note y) :=
  between_agree h

theorem inLocalScope_agree (h : Agree (State.Alike ρ) answers x y) :
    Agree (State.Alike ρ) answers (inLocalScope x) (inLocalScope y) :=
  scope_blind.seq fun _ => between_agree h

theorem narrowing_agree {narrowed : Option (Var × Ty)} (h : Agree (State.Alike ρ) answers x y) :
    Agree (State.Alike ρ) answers (narrowing narrowed x) (narrowing narrowed y) := by
  cases narrowed with
  | none => exact h
  | some => exact between_agree h

end

/-! ### Small rules -/

theorem checkSubtype_blind {l r : Ty} {span : Span} {p : Problem} {call : Option String} :
    Blind ρ (checkSubtype l r span p call) := by
  apply isSubtype_blind.bind
  intro fits
  split
  · exact report_blind
  · exact .done

theorem checkHasValue_blind {t : Ty} {call : Option String} {span : Span} :
    Blind ρ (checkHasValue t call span) := by
  unfold checkHasValue
  split
  · exact report_blind
  · exact .done

end Check
end Gradual
