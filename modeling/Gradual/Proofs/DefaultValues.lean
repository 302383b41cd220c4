import Gradual.Proofs.Definitions
import Gradual.Proofs.Handlers
import Gradual.Proofs.StateAgreement
import Gradual.Proofs.Traces

/-!
Default values of parameters. When a function is checked each default is inferred by itself, in its turn,
and its type is recorded. It is compared with nothing, so the type that its parameter declares has no part
in whether anything is reported.
-/

namespace Gradual

namespace Check

/-! ### The parts of the check of a function

A constructor must not say what it returns; the parameters get their types; then the defaults are inferred,
one after the other.
-/

def checkConstructor (d : FuncDef) (s : Signature) : Check Unit := do
  if d.owner.isSome && d.name == "__init__" && !s.ret.isVoid && !(← isDynamic) then
    report .initReturnType d.span

def declareParams (d : FuncDef) (s : Signature) : Check Unit := do
  for (p, type, kind) in d.params.zip (s.argTypes.zip s.argKinds) do
    declareParam p.var kind type

def inferDefaults (params : List Param) : Check Unit := do
  for default in params.filterMap (·.default) do
    discard <| default.accept none

theorem checkFormals_eq (d : FuncDef) (s : Signature) :
    checkFormals d s =
      checkConstructor d s >>= fun _ => declareParams d s >>= fun _ => inferDefaults d.params := by
  unfold checkFormals checkConstructor declareParams inferDefaults
  rw [bind_assoc]
  congr 1
  funext dynamic
  split <;> simp only [bind_assoc, pure_bind]

variable {env : Env} {s : State} {p : Param} {params later : List Param} {e : Expr} {nodes : List NodeId}

theorem inferDefaults_cons_none (none : p.default = none) :
    inferDefaults (p :: params) = inferDefaults params := by
  rw [inferDefaults, List.filterMap_cons_none none]
  rfl

theorem inferDefaults_cons_some (some : p.default = some e) :
    inferDefaults (p :: params) = discard (e.accept Option.none) >>= fun _ => inferDefaults params := by
  rw [inferDefaults, List.filterMap_cons_some some, List.forIn_cons]
  simp only [bind_assoc, pure_bind]
  rfl

theorem inferDefaults_append :
    inferDefaults (params ++ later) = inferDefaults params >>= fun _ => inferDefaults later := by
  induction params with
  | nil => rfl
  | cons p params ih =>
    rw [List.cons_append]
    cases has : p.default with
    | none => rw [inferDefaults_cons_none has, inferDefaults_cons_none has, ih]
    | some e => rw [inferDefaults_cons_some has, inferDefaults_cons_some has, ih, bind_assoc]

theorem inferDefaults_keeps {w : Effects} (h : ∀ e ∈ params.filterMap (·.default), e.Within w) :
    Keeps w (inferDefaults params) :=
  (Keeps.forIn fun e member => ((h e member).accept none).discard.yielding).seq fun _ => .done

theorem checkConstructor_keeps {w : Effects} {d : FuncDef} {sig : Signature} :
    Keeps w (checkConstructor d sig) := by
  refine isDynamic_keeps.seq fun dynamic => ?_
  split
  · exact report_keeps
  · exact .done

/-! ### Silence -/

theorem Silent.bind_iff {α β : Type} {w : Effects} {x : Check α} {f : α → Check β} (later : ∀ a, Keeps w (f a))
    (none : s.diagnostics = []) : (x >>= f).Silent env s ↔
      x.Silent env s ∧ (f (x.outcome env s).1).Silent env (x.outcome env s).2 := by
  have fresh : { s with diagnostics := [] } = s := by rw [← none]
  have split : ((f (x.outcome env s).1).outcome env (x.outcome env s).2).2.diagnostics = [] ↔
      (x.outcome env s).2.diagnostics = [] ∧ (f (x.outcome env s).1).Silent env (x.outcome env s).2 :=
    diagnostics_eq_nil_iff (later (x.outcome env s).1)
  rw [Silent, Silent, reports, reports, fresh]
  exact split

theorem Silent.diagnostics {α : Type} {x : Check α} (silent : x.Silent env s) (none : s.diagnostics = []) :
    (x.outcome env s).2.diagnostics = [] := by
  have fresh : { s with diagnostics := [] } = s := by rw [← none]
  rw [Silent, reports, fresh] at silent
  exact silent

/-- In its turn, behind those of the parameters before, the default of a parameter reports nothing. -/
def DefaultSilent (env : Env) (s : State) (params : List Param) (i : Nat) : Prop :=
  ∀ (p : Param) (e : Expr), params[i]? = some p → p.default = some e →
    (e.accept none).Silent env ((inferDefaults (params.take i)).outcome env s).2

theorem inferDefaults_silent_iff (none : s.diagnostics = []) :
    (inferDefaults params).Silent env s ↔ ∀ i, DefaultSilent env s params i := by
  -- By induction on the parameters from the first on: the default of the first leads to the state in which
  -- the turns of the others are.
  induction params generalizing s with
  | nil => exact iff_of_true rfl fun i p e listed => nomatch listed
  | cons p params ih =>
    have split (P : Nat → Prop) : (∀ i, P i) ↔ P 0 ∧ ∀ i, P (i + 1) :=
      ⟨fun all => ⟨all 0, fun i => all (i + 1)⟩, fun ⟨zero, succ⟩ i => i.casesOn zero succ⟩
    rw [split]
    cases has : p.default with
    | none =>
      have first : DefaultSilent env s (p :: params) 0 := by
        rintro _ e ⟨⟩ given
        cases has.symm.trans given
      have later (i : Nat) : DefaultSilent env s (p :: params) (i + 1) ↔ DefaultSilent env s params i := by
        unfold DefaultSilent
        rw [List.take_succ_cons, inferDefaults_cons_none has]
        rfl
      simp only [inferDefaults_cons_none has, ih none, later, first, true_and]
    | some e =>
      have first : DefaultSilent env s (p :: params) 0 ↔ (e.accept Option.none).Silent env s := by
        constructor
        · exact fun silent => silent p e rfl has
        · rintro silent _ _ ⟨⟩ given
          cases has.symm.trans given
          exact silent
      have later (i : Nat) : DefaultSilent env s (p :: params) (i + 1) ↔
          DefaultSilent env ((e.accept Option.none).outcome env s).2 params i := by
        unfold DefaultSilent
        rw [List.take_succ_cons, inferDefaults_cons_some has]
        rfl
      have rest : Keeps Effects.anything (inferDefaults params) := inferDefaults_keeps fun e _ => e.within_anything
      rw [inferDefaults_cons_some has, Silent.bind_iff (fun _ => rest) none, first]
      simp only [later]
      exact and_congr_right fun silent => ih (Silent.diagnostics (x := e.accept Option.none) silent none)

theorem checkConstructor_silent_iff {d : FuncDef} {sig : Signature} (static : s.isDynamic = false) :
    (checkConstructor d sig).Silent env s ↔
      (d.owner.isSome = true → d.name = "__init__" → sig.ret.isVoid = true) := by
  have asked : (checkConstructor d sig).Silent env s ↔
      (if d.owner.isSome && d.name == "__init__" && !sig.ret.isVoid && !s.isDynamic then
        report .initReturnType d.span
      else pure ()).Silent env s := Iff.rfl
  rw [asked, static, Bool.not_false, Bool.and_true]
  split
  · rename_i wrong
    simp only [Bool.and_eq_true, beq_iff_eq, Bool.not_eq_true'] at wrong
    refine iff_of_false not_silent_report fun void => ?_
    exact Bool.false_ne_true (wrong.2.symm.trans (void wrong.1.1 wrong.1.2))
  · rename_i right
    refine iff_of_true rfl fun owned named => ?_
    simpa [owned, named] using right

theorem outcome_paramType_diagnostics (kind : ArgKind) (type : Ty) :
    ((paramType kind type).outcome env s).2.diagnostics = s.diagnostics := by
  have named (fullName : String) (args : List Ty) (s : State) :
      ((named fullName args).outcome env s).2.diagnostics = s.diagnostics := by
    rw [outcome_named]
    split <;> rfl
  cases kind with
  | pos | opt | named => rfl
  | star => exact named _ _ s
  | star2 => exact (named _ _ _).trans (named _ _ s)

theorem declareParams_silent {d : FuncDef} {sig : Signature} : (declareParams d sig).Silent env s := by
  have kept (rows : List (Param × Ty × ArgKind)) (s : State) : ((forIn rows PUnit.unit fun row _ => do
      declareParam row.1.var row.2.2 row.2.1
      pure (ForInStep.yield PUnit.unit) : Check PUnit).outcome env s).2.diagnostics = s.diagnostics := by
    induction rows generalizing s with
    | nil => rfl
    | cons row rows ih =>
      have declared : ((declareParam row.1.var row.2.2 row.2.1).outcome env s).2.diagnostics = s.diagnostics :=
        outcome_paramType_diagnostics row.2.2 row.2.1
      rw [List.forIn_cons]
      exact (ih _).trans declared
  exact kept _ { s with diagnostics := [] }

end Check

open Check

namespace FuncDef

variable {d : FuncDef} {env : Env} {s : State}

/-- The state in which the check of a function starts. -/
def entered (d : FuncDef) (s : State) : State :=
  { s with scope := { s.scope with
      functions := ⟨some d.name, d.signature.isNone, d.isGenerator⟩ :: s.scope.functions
      locals := some ∅ } }

/-- The state in which it is the turn of the default of a parameter, if it has one, and behind the last
parameter that of the body. -/
def turn (env : Env) (d : FuncDef) (s : State) (i : Nat) : State :=
  let before : Check Unit := do
    checkConstructor d d.type
    declareParams d d.type
    inferDefaults (d.params.take i)
  (before.outcome env (d.entered s)).2

theorem check_eq_of_plain (plain : d.restricted? = none) :
    d.check Block.check = inFunction ⟨some d.name, d.signature.isNone, d.isGenerator⟩
      (inLocalScope (checkFormals d d.type >>= fun _ => returning d.type.ret (Block.check d.body))) := by
  have whole : d.check Block.check = checkFunc d (checkBlock Block.check d.body) Block.check := by
    cases d
    rw [FuncDef.check]
  rw [whole, checkFunc, plain, ← Block.check_eq]
  exact congrArg (fun x => inFunction _ (inLocalScope x)) (checkFuncBody_eq _ _ _)

/-- A function that declares its types reports nothing if the parts of its check do not. -/
theorem check_silent_iff (declared : d.signature.isSome = true) (plain : d.restricted? = none)
    (none : s.diagnostics = []) :
    (d.check Block.check).Silent env s ↔
      (d.owner.isSome = true → d.name = "__init__" → d.type.ret.isVoid = true) ∧
      (∀ (i : Nat) (p : Param) (e : Expr), d.params[i]? = some p → p.default = some e →
        (e.accept Option.none).Silent env (d.turn env s i)) ∧
      (returning d.type.ret (Block.check d.body)).Silent env (d.turn env s d.params.length) := by
  have static : (d.entered s).isDynamic = false := Option.isNone_eq_false_iff.mpr declared
  have bodyKeeps : Keeps Effects.anything.declaring (returning d.type.ret (Block.check d.body)) :=
    (Block.check_keeps (f := Option.none) d.body fun p _ => p.stmt.within_anything).returning.declaring
  have defaultsKeep : Keeps Effects.anything.declaring (inferDefaults d.params) :=
    (inferDefaults_keeps fun e _ => e.within_anything).declaring
  have paramsKeep : Keeps Effects.anything.declaring (declareParams d d.type) :=
    declareParams_keeps fun _ _ _ _ => True.intro
  have whole : (d.check Block.check).Silent env s ↔ (checkConstructor d d.type >>= fun _ =>
      declareParams d d.type >>= fun _ => inferDefaults d.params >>= fun _ =>
        returning d.type.ret (Block.check d.body)).Silent env (d.entered s) := by
    rw [check_eq_of_plain plain, checkFormals_eq]
    simp only [bind_assoc]
    exact Iff.rfl
  -- The parts are split off one by one, each from a state in which nothing has been reported.
  have none₀ : (d.entered s).diagnostics = [] := none
  rw [whole, Silent.bind_iff (fun _ => paramsKeep.seq fun _ => defaultsKeep.seq fun _ => bodyKeeps) none₀,
    checkConstructor_silent_iff static]
  refine and_congr_right fun fits => ?_
  have constructor : (checkConstructor d d.type).Silent env (d.entered s) :=
    (checkConstructor_silent_iff static).mpr fits
  have none₁ := constructor.diagnostics none₀
  have params : (declareParams d d.type).Silent env ((checkConstructor d d.type).outcome env (d.entered s)).2 :=
    declareParams_silent
  have none₂ := params.diagnostics none₁
  rw [Silent.bind_iff (fun _ => defaultsKeep.seq fun _ => bodyKeeps) none₁, and_iff_right declareParams_silent,
    Silent.bind_iff (fun _ => bodyKeeps) none₂, inferDefaults_silent_iff none₂, turn, List.take_length]
  exact Iff.rfl

/-- Before the body nothing is recorded but for the defaults, and no ids are handed out. -/
theorem turn_frame (env : Env) (d : FuncDef) (s : State) (i : Nat) :
    (Effects.recording ((d.params.take i).filterMap (·.default) |>.flatMap (·.nodes))).Frame (d.entered s)
      (d.turn env s i) := by
  have keeps : Keeps (Effects.recording ((d.params.take i).filterMap (·.default) |>.flatMap (·.nodes))) (do
      checkConstructor d d.type
      declareParams d d.type
      inferDefaults (d.params.take i)) := by
    refine checkConstructor_keeps.seq fun _ => Keeps.seq ?_ fun _ => ?_
    · exact declareParams_keeps (w := .recording _) fun _ _ _ _ => True.intro
    · exact inferDefaults_keeps (Expr.each_within_recording _)
  exact keeps.frame env (d.entered s)

theorem turn_isDynamic (declared : d.signature.isSome = true) (i : Nat) :
    (d.turn env s i).isDynamic = false := by
  rw [State.isDynamic, (turn_frame env d s i).scope]
  exact Option.isNone_eq_false_iff.mpr declared

/-- If a function mentions no id twice, that of a default stands in nothing that is checked behind it. -/
theorem default_apart (distinct : d.nodes.Nodup) {i : Nat} {p : Param} {e : Expr}
    (listed : d.params[i]? = some p) (has : p.default = some e) :
    e.id ∈ d.nodes ∧ e.id ∉ ((d.params.drop (i + 1)).filterMap (·.default)).flatMap (·.nodes) ∧
      e.id ∉ Block.nodes d.body := by
  have own : e.id ∈ e.nodes := List.mem_map_of_mem e.self_mem_all
  have nodes : d.nodes = ((d.params.take i).filterMap (·.default)).flatMap (·.nodes) ++ (e.nodes ++
      ((d.params.drop (i + 1)).filterMap (·.default)).flatMap (·.nodes)) ++ Block.nodes d.body := by
    obtain ⟨inside, rfl⟩ := List.getElem?_eq_some_iff.mp listed
    rw [d.nodes_eq, defaults]
    conv_lhs => rw [← List.take_append_drop i d.params, ← List.getElem_cons_drop inside]
    rw [List.filterMap_append, List.filterMap_cons_some has, List.flatMap_append, List.flatMap_cons]
  rw [nodes] at distinct ⊢
  obtain ⟨inDefaults, -, inBody⟩ := List.nodup_append.mp distinct
  obtain ⟨-, fromHere, -⟩ := List.nodup_append.mp inDefaults
  obtain ⟨-, -, inLater⟩ := List.nodup_append.mp fromHere
  refine ⟨by simp [own], fun both => inLater _ own _ both rfl, fun both => ?_⟩
  exact inBody _ (by simp [own]) _ both rfl

/-- What is recorded for a default is what is inferred in its turn. -/
theorem recorded_default (declared : d.signature.isSome = true) (plain : d.restricted? = none)
    (distinct : d.nodes.Nodup) (old : ∀ id ∈ d.nodes, id < s.nextNode) {i : Nat} {p : Param} {e : Expr}
    (listed : d.params[i]? = some p) (has : p.default = some e) :
    ((d.check Block.check).outcome env s).2.types[e.id]? =
      some ((e.accept none).outcome env (d.turn env s i)).1 := by
  have start := turn_frame env d s i
  let found := (e.accept none).outcome env (d.turn env s i)
  let behind := ((inferDefaults (d.params.drop (i + 1))).outcome env found.2).2
  have checked : ((d.check Block.check).outcome env s).2.types =
      ((returning d.type.ret (Block.check d.body)).outcome env behind).2.types := by
    obtain ⟨inside, rfl⟩ := List.getElem?_eq_some_iff.mp listed
    have inOrder : inferDefaults d.params = inferDefaults (d.params.take i) >>= fun _ =>
        discard (e.accept none) >>= fun _ => inferDefaults (d.params.drop (i + 1)) := by
      rw [← inferDefaults_cons_some has, ← inferDefaults_append, List.getElem_cons_drop, List.take_append_drop]
    rw [check_eq_of_plain plain, checkFormals_eq, inOrder]
    rfl
  -- Behind the default there are other ids, or those of copies, which were not given out before.
  obtain ⟨own, inLater, inBody⟩ := default_apart distinct listed has
  have later : behind.types[e.id]? = found.2.types[e.id]? :=
    Keeps.types_eq (inferDefaults_keeps (Expr.each_within_recording _)) inLater env found.2
  let body : Check Unit := returning d.type.ret (Block.check d.body)
  have traced : Traced (Block.nodes d.body) behind (body.outcome env behind).2 _ :=
    (Block.check_traces d.body).returning env behind
  have given : s.nextNode ≤ behind.nextNode := by
    have others : Keeps Effects.anything (inferDefaults (d.params.drop (i + 1))) :=
      inferDefaults_keeps fun e _ => e.within_anything
    have accepted := (e.within_anything.accept none).frame env (d.turn env s i)
    exact Nat.le_trans start.nextNode (Nat.le_trans accepted.nextNode (others.frame env found.2).nextNode)
  have before : e.id < behind.nextNode := Nat.lt_of_lt_of_le (old e.id own) given
  have spared : (body.outcome env behind).2.types[e.id]? = behind.types[e.id]? :=
    traced.spares.types e.id inBody fun handed => absurd handed.1 (Nat.not_le.mpr before)
  rw [checked, spared, later]
  exact e.accept_recorded none env (turn_isDynamic declared i)

end FuncDef

/-! ### Values that are written out -/

/-- The name of the class of a value that is written out. -/
def Expr.literalClass? (version : Nat) (e : Expr) : Option String :=
  match e.kind with
  | .int _ => some "builtins.int"
  | .float => some "builtins.float"
  | .str _ => some "builtins.str"
  | .bytes _ => some (if 3 ≤ version then "builtins.bytes" else "builtins.str")
  | .unicode _ => some (if 3 ≤ version then "builtins.str" else "builtins.unicode")
  | _ => none

section Literals

variable {env : Env} {s : State} {e : Expr} {fullName : String}

theorem Expr.dotted_of_literalClass? {version : Nat} (literal : e.literalClass? version = some fullName) :
    fullName.contains '.' = true := by
  obtain ⟨id, span, kind⟩ := e
  cases kind with
  | int | float | str =>
    cases literal
    simp
  | bytes | unicode =>
    cases literal
    split <;> simp
  | _ => cases literal

theorem Check.outcome_acceptAs_congr {infer infer' : Check Ty} (id : NodeId) (expected : Option Ty)
    (same : ∀ s, infer.outcome env s = infer'.outcome env s) :
    (acceptAs id infer expected).outcome env s = (acceptAs id infer' expected).outcome env s := by
  simp only [acceptAs, expecting, outcome_bind, outcome_between, same]

theorem Expr.outcome_accept_literal (literal : e.literalClass? env.options.version = some fullName) :
    (e.accept none).outcome env s = (acceptAs e.id (named fullName []) none).outcome env s := by
  obtain ⟨id, span, kind⟩ := e
  cases kind with
  | int | float | str =>
    cases literal
    rfl
  | bytes | unicode =>
    cases literal
    refine outcome_acceptAs_congr id none fun s => ?_
    rw [outcome_bind, outcome_read]
    dsimp only
    split <;> rfl
  | _ => cases literal

theorem Check.outcome_named_fst (dotted : fullName.contains '.' = true) :
    ((named fullName []).outcome env s).1 = env.typeOfName fullName := by
  have resolved : resolve? env s fullName = (env.program.lookup fullName).toOption := if_pos dotted
  rw [outcome_named, resolved, Env.typeOfName, Program.lookupClass]
  cases env.program.lookup fullName with
  | error => rfl
  | ok symbol => cases symbol <;> rfl

/-- Nothing is reported for a value that is written out, and in code that is not dynamic it has the type of
its class. -/
theorem Expr.accept_literal (literal : e.literalClass? env.options.version = some fullName) :
    (e.accept none).Silent env s ∧
      (s.isDynamic = false → ((e.accept none).outcome env s).1 = env.typeOfName fullName) := by
  have kept (s : State) : ((named fullName []).outcome env s).2.diagnostics = s.diagnostics := by
    rw [outcome_named]
    split <;> rfl
  constructor
  · rw [Silent, reports, outcome_accept_literal literal]
    exact kept _
  · intro static
    have scope : ((named fullName []).outcome env (s.expecting none)).2.scope = (s.expecting none).scope := by
      rw [outcome_named]
      split <;> rfl
    have typed :
        ((expecting none (named fullName [])).outcome env s).2.scope.functions.head?.any (·.isDynamic) = false :=
      (congrArg (fun scope => scope.functions.head?.any (·.isDynamic)) scope).trans static
    rw [outcome_accept_literal literal, outcome_acceptAs typed]
    exact outcome_named_fst (dotted_of_literalClass? literal)

end Literals

/-- A function that declares its types, without restricted type variables, reports nothing exactly if it is
no constructor with a result, each default reports nothing by itself, without a type that is expected of
it, and the body does not. For defaults that are written out this leaves the body, whatever types the
parameters declare. What is recorded for a default is the type that it has by itself: if it is written out,
that of its class, whether or not it fits. -/
theorem defaults_compared_with_nothing (env : Env) (s : State) (d : FuncDef)
    (declared : d.signature.isSome = true) (plain : d.restricted? = none) :
    let fresh : State := { s with diagnostics := [] }
    let fits := d.owner.isSome = true → d.name = "__init__" → d.type.ret.isVoid = true
    let bodySilent := (returning d.type.ret (Block.check d.body)).Silent env (d.turn env fresh d.params.length)
    ((d.check Block.check).Silent env s ↔ fits ∧
      (∀ (i : Nat) (p : Param) (e : Expr), d.params[i]? = some p → p.default = some e →
        (e.accept none).Silent env (d.turn env fresh i)) ∧ bodySilent) ∧
    ((∀ p ∈ d.params, ∀ e, p.default = some e → (e.literalClass? env.options.version).isSome = true) →
      ((d.check Block.check).Silent env s ↔ fits ∧ bodySilent)) ∧
    (d.nodes.Nodup → (∀ id ∈ d.nodes, id < s.nextNode) →
      ∀ (i : Nat) (p : Param) (e : Expr), d.params[i]? = some p → p.default = some e →
        let type := ((e.accept none).outcome env (d.turn env s i)).1
        ((d.check Block.check).outcome env s).2.types[e.id]? = some type ∧
          ∀ fullName, e.literalClass? env.options.version = some fullName →
            type = env.typeOfName fullName) := by
  intro fresh fits bodySilent
  have silent : (d.check Block.check).Silent env s ↔ fits ∧
      (∀ (i : Nat) (p : Param) (e : Expr), d.params[i]? = some p → p.default = some e →
        (e.accept none).Silent env (d.turn env fresh i)) ∧ bodySilent :=
    FuncDef.check_silent_iff (s := fresh) declared plain rfl
  refine ⟨silent, fun literals => ?_, fun distinct old i p e listed has =>
    ⟨FuncDef.recorded_default declared plain distinct old listed has, fun fullName literal => ?_⟩⟩
  · refine silent.trans (and_congr_right fun _ => and_iff_right fun i p e listed has => ?_)
    obtain ⟨fullName, literal⟩ := Option.isSome_iff_exists.mp (literals p (List.mem_of_getElem? listed) e has)
    exact (Expr.accept_literal literal).1
  · exact (Expr.accept_literal literal).2 (FuncDef.turn_isDynamic declared i)

/-- A function whose parameter declares integers and has a text as its default. -/
def FuncDef.misfit : FuncDef :=
  let x : Var := ⟨0, "x", "x", none⟩
  let type : Signature := .ofFormals [.inst 3 "builtins.int" []] [.opt] [some "x"] .noneType
  ⟨"f", "__main__.f", none, [⟨x, .opt, some ⟨0, .atLine 1, .str "a"⟩⟩], [⟨.atLine 1, .pass⟩], some type, false,
    .atLine 1, false, none, ⟨"f", "__main__.f", none, .callable type, false⟩⟩

/-- The text is recorded without a report, and it is no integer. -/
theorem misfit_unreported :
    let p : Program := { Builder.new.toProgram with nextNode := 1 }
    let env : Env := .ofProgram p default
    let s : State := .initial p
    let str : Ty := .inst 5 "builtins.str" []
    (FuncDef.misfit.check Block.check).Silent env s ∧
      ((FuncDef.misfit.check Block.check).outcome env s).2.types[0]? = some str ∧
      env.order.isSubtype str (.inst 3 "builtins.int" []) = false := by
  intro p env s str
  obtain ⟨-, literals, recorded⟩ := defaults_compared_with_nothing env s .misfit rfl rfl
  have literal : ∀ p ∈ FuncDef.misfit.params, ∀ e, p.default = some e →
      (e.literalClass? env.options.version).isSome = true := by
    simp [FuncDef.misfit, Expr.literalClass?]
  have silent := (literals literal).mpr ⟨fun owned => (nomatch owned), rfl⟩
  obtain ⟨known, classOf⟩ := recorded (by decide +kernel) (by decide +kernel) 0 _ _ rfl rfl
  rw [classOf "builtins.str" rfl] at known
  have split : splitWithin "builtins.str" 13 0 0 [] = some ["builtins", "str"] := by decide +kernel
  have found : env.program.lookup "builtins.str" = .ok (.cls 5) :=
    Program.lookup_provided (splitOnAux_of_splitWithin split) (by decide +kernel)
  have named : env.typeOfName "builtins.str" = str := by
    rw [Env.typeOfName, Program.lookupClass, found]
    rfl
  exact ⟨silent, known.trans (congrArg some named), by decide +kernel⟩

end Gradual
