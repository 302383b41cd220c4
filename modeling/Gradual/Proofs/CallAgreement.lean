import Gradual.Checker.Call
import Gradual.Proofs.StateAgreement

/-!
Agreement of calls: calls with arguments that agree.
-/

namespace Gradual

variable {ρ : NodeId → NodeId}

/-- Values that agree, whatever is expected of them. -/
structure Operand.Alike (ρ : NodeId → NodeId) (o p : Operand) : Prop where
  accept : ∀ expected, Check.Same ρ (o.accept expected) (p.accept expected)
  call : p.call = o.call

structure Arg.Alike (ρ : NodeId → NodeId) (a b : Arg) : Prop where
  shape : b.shape = a.shape
  operand : a.operand.Alike ρ b.operand

namespace Check

theorem known_alike {type : Ty} : (Operand.known type).Alike ρ (.known type) :=
  ⟨fun _ => .done, rfl⟩

/-! ### Attributes -/

theorem getAttribute?_blind {name : String} {base : Ty} : Blind ρ (getAttribute? name base) :=
  .of_outcome (fun _ _ => ⟨rfl, rfl⟩) fun _ _ _ _ => rfl

theorem getAttribute_blind {name : String} {base : Ty} {span : Span} :
    Blind ρ (getAttribute name base span) := by
  apply getAttribute?_blind.bind
  intro found
  split
  · exact .done
  · exact report_blind.bind fun _ => .done

theorem superAttribute_blind {name : String} {span : Span} : Blind ρ (superAttribute name span) := by
  refine read_blind.bind fun env => scope_blind.bind fun s => ?_
  split
  · exact report_blind.bind fun _ => .done
  · split
    · exact .done
    · exact typeOfVar_blind.bind fun _ => .done
    · exact .done
    · exact report_blind.bind fun _ => .done

/-! ### Type arguments -/

theorem typeArgument_blind {callee : Signature} {fromArgs fromContext : Constraints} {span : Span}
    {position : Nat} {v : TypeVar} :
    Blind ρ (typeArgument callee fromArgs fromContext span position v) := by
  apply read_blind.bind
  intro env
  extract_lets o bounds inferred
  split
  · exact report_blind.bind fun _ => .done
  · split
    · exact .done
    · split
      · exact .done
      · exact report_blind.bind fun _ => .done

theorem typeArguments_blind {callee : Signature} {fromArgs fromContext : Constraints} {span : Span}
    {i : Nat} {vs : List TypeVar} :
    Blind ρ (typeArguments callee fromArgs fromContext span i vs) := by
  induction vs generalizing i with
  | nil => exact .done
  | cons v rest ih => exact typeArgument_blind.bind fun _ => ih.bind fun _ => .done

theorem applied_blind {callee : Signature} {given : List Given} {bound : ArgBinding.Bound}
    {span : Span} : Blind ρ (applied callee given bound span) := by
  refine read_blind.bind fun env => expectedType_blind.bind fun expected => ?_
  exact typeArguments_blind.bind fun _ => .done

/-! ### Arguments -/

theorem giveFrom_same {context : Nat → ArgShape → Option Ty} {i : Nat} {args args' : List Arg}
    (h : List.Forall₂ (Arg.Alike ρ) args args') :
    Same ρ (giveFrom context i args) (giveFrom context i args') := by
  induction h generalizing i with
  | nil => exact .done
  | cons first _ ih =>
    unfold giveFrom
    rw [first.shape, first.operand.call]
    exact (first.operand.accept _).seq fun _ => ih.seq fun _ => .done

theorem giveAll_same {args args' : List Arg} (h : List.Forall₂ (Arg.Alike ρ) args args') :
    Same ρ (giveAll args) (giveAll args') := giveFrom_same h

theorem shapes_eq {args args' : List Arg} (h : List.Forall₂ (Arg.Alike ρ) args args') :
    args'.map (·.shape) = args.map (·.shape) := by
  induction h with
  | nil => rfl
  | cons first _ ih => rw [List.map_cons, List.map_cons, first.shape, ih]

theorem reportUnbound_blind {callee : Signature} {bound : ArgBinding.Bound} {span : Span} {i : Nat}
    {tooMany : Bool} {shapes : List ArgShape} :
    Blind ρ (reportUnbound callee bound span i tooMany shapes) := by
  induction shapes generalizing i tooMany with
  | nil => exact .done
  | cons shape rest ih =>
    unfold reportUnbound
    split
    · exact ih
    · split
      · exact report_blind.bind fun _ => ih
      · split
        · exact report_blind.bind fun _ => ih
        · exact ih
      · split
        · exact report_blind.bind fun _ => ih
        · exact ih
      · exact ih
      · exact ih

theorem checkCount_blind {callee : Signature} {shapes : List ArgShape} {bound : ArgBinding.Bound}
    {span : Span} : Blind ρ (checkCount callee shapes bound span) := by
  apply reportUnbound_blind.bind
  intro tooMany
  split
  · exact report_blind
  · exact .done

theorem checkArgument_blind {callee : Signature} {formal : Ty} {i : Nat} {g : Given} {span : Span} :
    Blind ρ (checkArgument callee formal i g span) := by
  unfold checkArgument
  split
  · exact report_blind
  · apply isSubtype_blind.bind
    intro fits
    split
    · exact report_blind
    · exact .done

theorem checkArguments_blind {callee : Signature} {given : List Given} {bound : ArgBinding.Bound}
    {span : Span} : Blind ρ (checkArguments callee given bound span) := by
  refine .forM (List.forall₂_same.mpr ?_)
  rintro ⟨formal, i⟩ -
  dsimp only
  split
  · exact checkArgument_blind
  · exact .done

theorem checkGiven_blind {callee : Signature} {given : List Given} {bound : ArgBinding.Bound}
    {span : Span} : Blind ρ (checkGiven callee given bound span) := by
  unfold checkGiven
  extract_lets compared
  have comparedBlind : ∀ s, Blind ρ (compared s) := fun s =>
    checkCount_blind.bind fun _ => checkArguments_blind.bind fun _ => .done
  split
  · exact Blind.done.bind comparedBlind
  · exact applied_blind.bind comparedBlind

/-! ### Calls -/

theorem checkNotCallable_same {callee : Ty} {args args' : List Arg} {span : Span}
    (h : List.Forall₂ (Arg.Alike ρ) args args') :
    Same ρ (checkNotCallable callee args span) (checkNotCallable callee args' span) :=
  report_blind.seq fun _ => (giveAll_same h).discard.seq fun _ => .done

theorem checkCall_same {callee : Ty} {args args' : List Arg} {span : Span}
    (h : List.Forall₂ (Arg.Alike ρ) args args') :
    Same ρ (checkCall callee args span) (checkCall callee args' span) := by
  refine read_blind.seq fun env => get_alike.bind fun s t alike => ?_
  rw [alike.vars_eq, shapes_eq h]
  dsimp only
  cases resolveCallee env s.vars maxCallSteps callee with
  | callable => exact (giveFrom_same h).seq fun _ => checkGiven_blind
  | overloaded items =>
    refine (giveAll_same h).seq fun given => read_blind.seq fun env => ?_
    cases items.find? (env.order.accepts · given) with
    | some s => exact checkGiven_blind
    | none =>
      cases items.head? with
      | some first => exact report_blind.seq fun _ => .done
      | none => exact .done
  | any | error | unbound => exact (giveAll_same h).discard.seq fun _ => .done
  | void | noneType | inst | tuple | typeVar => exact checkNotCallable_same h

theorem positional_alike {args args' : List Operand} (h : List.Forall₂ (Operand.Alike ρ) args args') :
    List.Forall₂ (Arg.Alike ρ) (args.map Arg.positional) (args'.map Arg.positional) := by
  induction h with
  | nil => exact .nil
  | cons first _ ih => exact .cons ⟨rfl, first⟩ ih

theorem checkMethodCall_same {method : String} {base : Ty} {args args' : List Operand} {span : Span}
    (h : List.Forall₂ (Operand.Alike ρ) args args') :
    Same ρ (checkMethodCall method base args span) (checkMethodCall method base args' span) :=
  getAttribute_blind.seq fun _ => (checkCall_same (positional_alike h)).seq fun _ => .done

theorem checkOperator_same {method op : String} {base : Ty} {arg arg' : Operand} {span : Span}
    (h : arg.Alike ρ arg') :
    Same ρ (checkOperator method base arg op span) (checkOperator method base arg' op span) := by
  unfold checkOperator
  split
  · exact (h.accept none).discard.seq fun _ => .done
  · refine getAttribute?_blind.seq fun found => ?_
    cases found with
    | none => exact report_blind.seq fun _ => (h.accept none).discard.seq fun _ => .done
    | some type =>
      refine (h.accept _).seq fun argType => read_blind.seq fun env => ?_
      show Blind ρ _
      dsimp only
      split
      · split
        · exact report_blind.bind fun _ => .done
        · exact .done
      · split
        · exact .done
        · exact report_blind.bind fun _ => .done
      · exact .done
      · exact .done
      · exact .done
      · exact report_blind.bind fun _ => .done

end Check
end Gradual
