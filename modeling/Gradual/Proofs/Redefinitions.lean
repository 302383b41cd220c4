import Gradual.Proofs.KeywordTargets

/-!
Definitions that stand in for earlier ones. A definition is compared with the one that it may replace, and
signatures that are the same pass, whatever names their arguments have. So calls are checked alike by both
as far as names have no part in them.
-/

namespace Gradual

/-- The statement defines the function, perhaps with others wrapped around it. -/
inductive StmtKind.Defines (d : FuncDef) : StmtKind → Prop
  | bare : Defines d (.func d)
  | wrapped (decorators : List Expr) (v : Var) : Defines d (.decorated d decorators v)

namespace Check

variable {env : Env} {s : State} {d : FuncDef} {earlier : FunctionSymbol}

theorem mem_checkPlace (stands : d.earlier = some earlier)
    (different : (Ty.callable d.type).isSame earlier.type = false) :
    diagnostic env s.file s.scope .conditionalRedefinition d.span ∈
      ((checkPlace d).outcome env s).2.diagnostics := by
  unfold checkPlace
  rw [stands]
  dsimp only
  rw [different]
  cases d.owner with
  | none => exact mem_report
  | some c =>
    have keeps : Keeps Effects.reporting (checkOverrides d.name c d.symbol.type d.span) :=
      checkOverrides_keeps
    rw [← (keeps.frame env s).diagnostic_eq]
    exact mem_report

/-- A definition that is not the same as the one that it may replace is reported. -/
theorem mem_reports_definition {kind : StmtKind} {span : Span} (defines : kind.Defines d)
    (stands : d.earlier = some earlier) (different : (Ty.callable d.type).isSame earlier.type = false) :
    diagnostic env s.file s.scope .conditionalRedefinition d.span ∈
      (kind.check Block.check span).reports env s := by
  have copies : CopiesKeep Block.check := fun _ _ b h => b.check_keeps h
  have checked : Keeps Effects.anything (d.check Block.check) :=
    d.check_keeps copies d.within_anything fun p _ => p.stmt.within_anything
  have compared : diagnostic env s.file s.scope .conditionalRedefinition d.span ∈
      (do d.check Block.check; checkPlace d : Check Unit).reports env s := by
    have same := (checked.frame env { s with diagnostics := [] }).diagnostic_eq env
      .conditionalRedefinition d.span
    rw [reports, outcome_bind, ← same]
    exact mem_checkPlace stands different
  cases defines with
  | bare => exact compared
  | wrapped decorators v =>
    have later : Keeps Effects.anything (checkDecorators d decorators v span) :=
      checkDecorators_keeps (fun e _ => e.within_anything) fun _ _ => True.intro
    have frame := later.frame env
      ((do d.check Block.check; checkPlace d : Check Unit).outcome env { s with diagnostics := [] }).2
    obtain ⟨new, appended, -⟩ := frame.diagnostics
    have kept := List.mem_append_left new compared
    rwa [reports, ← appended] at kept

end Check

open Check ArgBinding in
/-- A definition for which no difference from the earlier one is reported gives calls the same result, and it
takes the same arguments as far as names have no part in it: where those names agree that count in the types of
formals, calls whose keywords go to the same formals are accepted alike. But names are not compared, and a
keyword that only one of the two definitions has a formal for makes a call that only this one accepts. -/
theorem unreported_redefinition_interchangeable {env : Env} {s : State} {kind : StmtKind} {span : Span}
    {d : FuncDef} {earlier : FunctionSymbol} {original : Signature} (defines : kind.Defines d)
    (stands : d.earlier = some earlier) (single : earlier.type = .callable original)
    (concrete : d.type.IsConcrete)
    (unreported : diagnostic env s.file s.scope .conditionalRedefinition d.span ∉
      (kind.check Block.check span).reports env s) :
    let call (callee : Signature) (given : List Given) (place : Span) :=
      checkCall (.callable callee) (given.map .known) place
    (∀ given place s, ((call d.type given place).outcome env s).1.type.isSame
      ((call original given place).outcome env s).1.type = true) ∧
    (namesAgreeEach .expected d.type.argTypes original.argTypes = true →
      ∀ given : List Given, KeywordsAgree original d.type (given.map (·.shape)) →
        env.order.accepts original given = env.order.accepts d.type given ∧
          ∀ place s, (call original given place).Silent env s ↔ (call d.type given place).Silent env s) ∧
    ∀ name, (keywordFormal? original name).isSome ≠ (keywordFormal? d.type name).isSome →
      ∃ given : List Given, env.order.accepts original given ≠ env.order.accepts d.type given ∧
        ∀ place s, ¬ ((call original given place).Silent env s ↔ (call d.type given place).Silent env s) := by
  intro call
  have same : (Ty.callable d.type).isSame earlier.type = true := by
    rw [← Bool.not_eq_false]
    exact fun different => unreported (mem_reports_definition defines stands different)
  rw [single, Ty.isSame] at same
  obtain ⟨types, kinds, result, -, quantified⟩ := Ty.isSameSignature_iff.mp same
  have unquantified := concrete.quantified_eq_nil
  have unquantified' : original.quantified = [] := by
    rw [unquantified] at quantified
    exact List.eq_nil_of_length_eq_zero quantified.symm
  refine ⟨fun given place s => ?_, fun names given keywords => ?_, fun name known => ?_⟩
  · rw [checkCall_type unquantified, checkCall_type unquantified']
    exact result
  · have cores := (concrete.map_core_eq types names).symm
    exact ⟨TypeOrder.accepts_congr kinds.symm cores keywords, fun place s =>
      checkCall_silent_congr unquantified' unquantified kinds.symm cores keywords⟩
  · exact exists_accepted_by_one unquantified' unquantified known

/-- The signature of a function of a dog under a name. -/
def Signature.walking (name : String) : Signature :=
  .ofFormals [.inst 1 "Dog" []] [.pos] [some name] .noneType

/-- A definition that calls its argument differently from the one for which it may stand in. -/
def FuncDef.rewalked : FuncDef :=
  let earlier : FunctionSymbol := ⟨"walk", "walk", none, .callable (.walking "dog"), false⟩
  ⟨"walk", "walk", none, [⟨⟨1, "pet", "pet", none⟩, .pos, none⟩], [⟨.atLine 2, .pass⟩], some (.walking "pet"),
    false, .atLine 2, false, some earlier, { earlier with type := .callable (.walking "pet") }⟩

open Check in
/-- The definition is not reported. Calls by position are accepted alike, and there are calls that are not. -/
theorem rewalked_unreported :
    let env : Env := .ofProgram .derivedPair default
    let s : State := .initial .derivedPair
    let dog : Given := ⟨⟨.pos, none⟩, .inst 1 "Dog" [], none⟩
    ((StmtKind.func .rewalked).check Block.check (.atLine 2)).Silent env s ∧
      env.order.accepts (.walking "dog") [dog] = env.order.accepts (.walking "pet") [dog] ∧
      ∃ given, env.order.accepts (.walking "dog") given ≠ env.order.accepts (.walking "pet") given := by
  intro env s dog
  have silent : ((StmtKind.func .rewalked).check Block.check (.atLine 2)).Silent env s := by
    rw [Silent]
    decide +kernel
  have apart : diagnostic env s.file s.scope .conditionalRedefinition FuncDef.rewalked.span ∉
      ((StmtKind.func .rewalked).check Block.check (.atLine 2)).reports env s := by
    rw [silent]
    exact List.not_mem_nil
  have positional : ArgBinding.KeywordsAgree (.walking "dog") (.walking "pet") ([dog].map (·.shape)) := by
    intro shape member keyword
    rw [List.mem_singleton.mp member] at keyword
    cases keyword
  obtain ⟨-, agree, differ⟩ :=
    unreported_redefinition_interchangeable .bare rfl rfl (by decide) apart
  obtain ⟨given, told, -⟩ := differ (some "dog") (by decide)
  exact ⟨silent, (agree (by decide) [dog] positional).1, given, told⟩

end Gradual
