import Gradual.Checker.Call
import Gradual.Proofs.Effects

/-!
The effects of calls: a call does what its arguments do, and reports.
-/

namespace Gradual

/-- The value stays within the effects, whatever is expected of it. -/
def Operand.Keeps (w : Effects) (o : Operand) : Prop :=
  ∀ expected, Check.Keeps w (o.accept expected)

namespace Check

variable {w : Effects}

theorem known_keeps {type : Ty} : (Operand.known type).Keeps w := fun _ => .done

/-! ### Attributes -/

theorem getAttribute?_keeps {name : String} {base : Ty} : Keeps w (getAttribute? name base) :=
  .of_reads fun _ _ => rfl

theorem getAttribute_keeps {name : String} {base : Ty} {span : Span} :
    Keeps w (getAttribute name base span) := by
  apply getAttribute?_keeps.seq
  intro found
  split
  · exact .done
  · exact report_keeps.seq fun _ => .done

theorem superAttribute_keeps {name : String} {span : Span} : Keeps w (superAttribute name span) := by
  refine read_keeps.seq fun env => scope_keeps.seq fun s => ?_
  split
  · exact report_keeps.seq fun _ => .done
  · split
    · exact .done
    · exact typeOfVar_keeps.seq fun _ => .done
    · exact .done
    · exact report_keeps.seq fun _ => .done

/-! ### Type arguments -/

theorem typeArgument_keeps {callee : Signature} {fromArgs fromContext : Constraints} {span : Span}
    {position : Nat} {v : TypeVar} :
    Keeps w (typeArgument callee fromArgs fromContext span position v) := by
  apply read_keeps.seq
  intro env
  extract_lets o bounds inferred
  split
  · exact report_keeps.seq fun _ => .done
  · split
    · exact .done
    · split
      · exact .done
      · exact report_keeps.seq fun _ => .done

theorem typeArguments_keeps {callee : Signature} {fromArgs fromContext : Constraints} {span : Span}
    {i : Nat} {vs : List TypeVar} :
    Keeps w (typeArguments callee fromArgs fromContext span i vs) := by
  induction vs generalizing i with
  | nil => exact .done
  | cons v rest ih =>
    exact typeArgument_keeps.seq fun _ => ih.seq fun _ => .done

theorem applied_keeps {callee : Signature} {given : List Given} {bound : ArgBinding.Bound}
    {span : Span} : Keeps w (applied callee given bound span) := by
  refine read_keeps.seq fun env => expectedType_keeps.seq fun expected => ?_
  exact typeArguments_keeps.seq fun _ => .done

/-! ### Arguments -/

theorem giveFrom_keeps {context : Nat → ArgShape → Option Ty} {i : Nat} {args : List Arg}
    (h : ∀ a ∈ args, a.operand.Keeps w) : Keeps w (giveFrom context i args) := by
  induction args generalizing i with
  | nil => exact .done
  | cons a rest ih =>
    apply (h a (by simp) _).seq
    intro type
    exact (ih fun b hb => h b (by simp [hb])).seq fun _ => .done

theorem giveAll_keeps {args : List Arg} (h : ∀ a ∈ args, a.operand.Keeps w) :
    Keeps w (giveAll args) := giveFrom_keeps h

theorem reportUnbound_keeps {callee : Signature} {bound : ArgBinding.Bound} {span : Span} {i : Nat}
    {tooMany : Bool} {shapes : List ArgShape} :
    Keeps w (reportUnbound callee bound span i tooMany shapes) := by
  induction shapes generalizing i tooMany with
  | nil => exact .done
  | cons shape rest ih =>
    unfold reportUnbound
    split
    · exact ih
    · split
      · exact report_keeps.seq fun _ => ih
      · split
        · exact report_keeps.seq fun _ => ih
        · exact ih
      · split
        · exact report_keeps.seq fun _ => ih
        · exact ih
      · exact ih
      · exact ih

theorem checkCount_keeps {callee : Signature} {shapes : List ArgShape} {bound : ArgBinding.Bound}
    {span : Span} : Keeps w (checkCount callee shapes bound span) := by
  apply reportUnbound_keeps.seq
  intro tooMany
  split
  · exact report_keeps
  · exact .done

theorem checkArgument_keeps {callee : Signature} {formal : Ty} {i : Nat} {g : Given} {span : Span} :
    Keeps w (checkArgument callee formal i g span) := by
  unfold checkArgument
  split
  · exact report_keeps
  · apply isSubtype_keeps.seq
    intro fits
    split
    · exact report_keeps
    · exact .done

theorem checkArguments_keeps {callee : Signature} {given : List Given} {bound : ArgBinding.Bound}
    {span : Span} : Keeps w (checkArguments callee given bound span) := by
  refine .forM fun (formal, i) _ => ?_
  dsimp only
  split
  · exact checkArgument_keeps
  · exact .done

theorem checkGiven_keeps {callee : Signature} {given : List Given} {bound : ArgBinding.Bound}
    {span : Span} : Keeps w (checkGiven callee given bound span) := by
  unfold checkGiven
  extract_lets compared
  have comparedKeeps : ∀ s, Keeps w (compared s) := fun s =>
    checkCount_keeps.seq fun _ => checkArguments_keeps.seq fun _ => .done
  split
  · exact Keeps.done.seq comparedKeeps
  · exact applied_keeps.seq comparedKeeps

/-! ### Calls -/

theorem checkNotCallable_keeps {callee : Ty} {args : List Arg} {span : Span}
    (h : ∀ a ∈ args, a.operand.Keeps w) : Keeps w (checkNotCallable callee args span) := by
  apply report_keeps.seq
  intro _
  exact (giveAll_keeps h).discard.seq fun _ => .done

theorem checkCall_keeps {callee : Ty} {args : List Arg} {span : Span}
    (h : ∀ a ∈ args, a.operand.Keeps w) : Keeps w (checkCall callee args span) := by
  refine read_keeps.seq fun env => get_keeps.seq fun s => ?_
  dsimp only
  split
  · exact (giveFrom_keeps h).seq fun given => checkGiven_keeps
  · refine (giveAll_keeps h).seq fun given => read_keeps.seq fun env => ?_
    split
    · exact checkGiven_keeps
    · split
      · exact report_keeps.seq fun _ => .done
      · exact .done
  · exact (giveAll_keeps h).discard.seq fun _ => .done
  · exact (giveAll_keeps h).discard.seq fun _ => .done
  · exact (giveAll_keeps h).discard.seq fun _ => .done
  · exact checkNotCallable_keeps h

theorem checkMethodCall_keeps {method : String} {base : Ty} {args : List Operand} {span : Span}
    (h : ∀ o ∈ args, o.Keeps w) : Keeps w (checkMethodCall method base args span) := by
  apply getAttribute_keeps.seq
  intro callee
  refine (checkCall_keeps fun a ha => ?_).seq fun _ => .done
  obtain ⟨o, ho, rfl⟩ := List.mem_map.mp ha
  exact h o ho

theorem checkOperator_keeps {method op : String} {base : Ty} {arg : Operand} {span : Span}
    (h : arg.Keeps w) : Keeps w (checkOperator method base arg op span) := by
  unfold checkOperator
  split
  · exact (h none).discard.seq fun _ => .done
  · apply getAttribute?_keeps.seq
    intro found
    split
    · apply report_keeps.seq
      intro _
      exact (h none).discard.seq fun _ => .done
    · refine (h _).seq fun argType => read_keeps.seq fun env => ?_
      dsimp only
      split
      · split
        · exact report_keeps.seq fun _ => .done
        · exact .done
      · split
        · exact .done
        · exact report_keeps.seq fun _ => .done
      · exact .done
      · exact .done
      · exact .done
      · exact report_keeps.seq fun _ => .done

/-! ### What is called -/

/-- Infers the arguments of a call of a function with one signature or with several. -/
def giveFor (callee : Ty) (args : List Arg) : Check (List Given) :=
  match callee with
  | .callable s => giveFrom (argContext? s (ArgBinding.bind s (args.map (·.shape)))) 0 args
  | _ => giveAll args

/-- The signature by which a function is called. -/
def called? (o : TypeOrder) (callee : Ty) (given : List Given) : Option Signature :=
  match callee with
  | .callable s => some s
  | .overloaded items => items.find? (o.accepts · given)
  | _ => none

section

variable {env : Env} {st st' : State} {s : Signature} {given : List Given} {span : Span}

theorem outcome_checkCall {callee resolved : Ty} {args : List Arg}
    (resolves : resolveCallee env st.vars maxCallSteps callee = resolved)
    (infers : (giveFor resolved args).outcome env st = (given, st'))
    (called : called? env.order resolved given = some s) :
    (checkCall callee args span).outcome env st =
      (checkGiven s given (ArgBinding.bind s (args.map (·.shape))) span).outcome env st' := by
  unfold checkCall
  rw [outcome_bind, outcome_read, outcome_bind, outcome_get]
  dsimp only
  rw [resolves]
  cases resolved with
  | callable own =>
    have same : own = s := Option.some.inj called
    subst same
    have known : (giveFrom (argContext? own (ArgBinding.bind own (args.map (·.shape)))) 0 args).outcome
        env st = (given, st') := infers
    dsimp only
    rw [outcome_bind, known]
  | overloaded items =>
    have found : items.find? (env.order.accepts · given) = some s := called
    have all : (giveAll args).outcome env st = (given, st') := infers
    dsimp only
    rw [outcome_bind, all, outcome_bind, outcome_read]
    dsimp only
    rw [found]
  | any | void | noneType | inst | tuple | typeVar | unbound | error => cases called

theorem checkGiven_fst {bound : ArgBinding.Bound} : ((checkGiven s given bound span).outcome env st).1 =
    let callee := if s.quantified.isEmpty then s else ((applied s given bound span).outcome env st).1
    ⟨callee.ret, .callable callee⟩ := by
  unfold checkGiven
  cases s.quantified.isEmpty <;> rfl

end

end Check
end Gradual
