import Gradual.Checker.Module
import Gradual.Proofs.Nodes
import Gradual.Proofs.Outcome

/-!
What happens in a check: guards are decided, and copies are made of functions. It is told from the
states in which the checker comes to them, in whatever functions, classes, loops and copies they are.
-/

namespace Gradual

open Check

/-- What a guard decides about: its own branch and those behind it. -/
structure Decision where
  kind : GuardKind
  body : Block
  later : List Arm
  orElse : Option Block

/-- The ids of the expressions that the decision rules out. -/
def Decision.pruned (d : Decision) : List NodeId :=
  match d.kind with
  | .overlapping => []
  | .alwaysFalse => Block.nodes d.body
  | .alwaysTrue => armNodes d.later d.orElse

inductive Event where
  | decided (d : Decision)
  /-- A copy was made, to be checked in place of a function. -/
  | copied (copy : FuncDef)

/-- The decisions about guards among what happened. -/
def decisionsIn (es : List Event) : List Decision :=
  es.filterMap fun
    | .decided d => some d
    | .copied _ => none

/-- The copies that were made. -/
def copiesIn (es : List Event) : List FuncDef :=
  es.filterMap fun
    | .decided _ => none
    | .copied copy => some copy

@[simp] theorem decisionsIn_append (es es' : List Event) :
    decisionsIn (es ++ es') = decisionsIn es ++ decisionsIn es' := List.filterMap_append

@[simp] theorem copiesIn_append (es es' : List Event) :
    copiesIn (es ++ es') = copiesIn es ++ copiesIn es' := List.filterMap_append

@[simp] theorem decisionsIn_copied (copies : List FuncDef) :
    decisionsIn (copies.map .copied) = [] := by
  simp [decisionsIn, List.filterMap_map]

@[simp] theorem copiesIn_copied (copies : List FuncDef) :
    copiesIn (copies.map .copied) = copies := by
  simp [copiesIn, List.filterMap_map]

/-- What happens when an action starts in a state. -/
abbrev Events := Env → State → List Event

namespace Events

variable {α : Type}

def none : Events := fun _ _ => []

/-- What happens after an action. -/
def after (x : Check α) (es : Events) : Events := fun env s => es env (x.outcome env s).2

/-- What happens in an action and then after it. -/
def followed (es : Events) (x : Check α) (next : Events) : Events := fun env s =>
  es env s ++ next env (x.outcome env s).2

/-- What happens within a scope. -/
def inside (enter : Check State → Check State) (es : Events) : Events := fun env s =>
  es env ((enter get).outcome env s).1

end Events

namespace Check

/-- The part of the check of a function before that of the body. -/
def checkFormals (d : FuncDef) (s : Signature) : Check Unit := do
  if d.owner.isSome && d.name == "__init__" && !s.ret.isVoid && !(← isDynamic) then
    report .initReturnType d.span
  for (p, type, kind) in d.params.zip (s.argTypes.zip s.argKinds) do
    declareParam p.var kind type
  for default in d.params.filterMap (·.default) do
    discard <| default.accept none

theorem checkFuncBody_eq (d : FuncDef) (s : Signature) (body : Check Unit) :
    checkFuncBody d s body = (do checkFormals d s; returning s.ret body) := by
  unfold checkFuncBody checkFormals
  rw [bind_assoc]
  congr 1
  funext dynamic
  split <;> simp only [bind_assoc, pure_bind]

/-- The check of a copy of a function. -/
def checkInstance (checkCopy : Block → Check Unit) (i : Instantiation) : Check Unit :=
  inInstantiation i.note <| inLocalScope <|
    checkFuncBody i.func i.signature (checkCopy i.func.body)

/-- What happens where a condition has been inferred. -/
def guardEvents (arm : Arm) (later : List Arm) (orElse : Option Block) (inBody : Events)
    (body : Check Unit) (others : Events) : Events := fun env s =>
  match ((guard? arm.test).outcome env s).1 with
  | none => inBody.followed body others env s
  | some g =>
    .decided ⟨g.kind, arm.body, later, orElse⟩ ::
      match g.kind with
      | .alwaysFalse => others env s
      | .alwaysTrue => inBody.inside (narrowing (some g.narrowing)) env s
      | .overlapping =>
        (inBody.inside (narrowing (some g.narrowing))).followed
          (narrowing (some g.narrowing) body) others env s

/-- What happens in a function, given what happens in its body. -/
def bodyEvents (d : FuncDef) (s : Signature) (inBody : Events) : Events :=
  .inside inLocalScope <| .after (checkFormals d s) <| .inside (returning s.ret) inBody

end Check

section Trees

variable (checkCopy : Block → Check Unit) (inCopy : Block → Events)

/-- What happens in copies of functions. -/
def copyEvents : List Instantiation → Events
  | [] => .none
  | i :: rest =>
    .followed (.inside (inInstantiation i.note) (bodyEvents i.func i.signature
      (inCopy i.func.body))) (checkInstance checkCopy i) (copyEvents rest)

/-- What happens in a function, or else in its copies. -/
def functionEvents (d : FuncDef) (inBody : Events) : Events :=
  .inside (inFunction ⟨some d.name, d.signature.isNone, d.isGenerator⟩) <|
    match d.restricted? with
    | none => bodyEvents d d.type inBody
    | some v => fun env s =>
      let (copies, t) := (v.values.mapM (instantiate d v)).outcome env s
      (copies.map (·.func)).map .copied ++ copyEvents checkCopy inCopy copies env t

mutual

/-- What happens when a statement is checked. -/
def Stmt.events : Stmt → Events
  | ⟨span, kind⟩ => kind.events span

def StmtKind.events (span : Span) : StmtKind → Events
  | .func d => d.events
  | .overloaded items _ _ => eventsOfEach items
  | .cls _ c body => .inside (inClass c) (blockEvents body)
  | .decorated d _ _ => d.events
  | .ifElse arms orElse => armEvents orElse (optionEvents orElse) arms
  | .whileLoop test body orElse =>
    .after (checkCondition test) <|
      .followed (blockEvents body) (checkBlock checkCopy body) (optionEvents orElse)
  | .forLoop targets isAnnotated sequence body orElse =>
    .after (checkForTargets targets isAnnotated sequence span) <|
      .followed (blockEvents body) (checkBlock checkCopy body) (optionEvents orElse)
  | .withBlock items body =>
    .after (do
      for (manager, target) in items do
        checkContext manager target) (blockEvents body)
  | .tryBlock body handlers orElse atEnd =>
    .followed (blockEvents body) (checkBlock checkCopy body) <|
      .followed (handlerEvents handlers) (checkHandlers checkCopy handlers) <|
        .followed (optionEvents orElse) (checkOption checkCopy orElse) (optionEvents atEnd)
  | .varDef .. | .assign .. | .opAssign .. | .expr _ | .ret _ | .yield _ | .assert _ | .raise ..
  | .del _ | .print _ | .pass | .breakLoop | .continueLoop | .globals _ | .imports _ => .none

def FuncDef.events : FuncDef → Events
  | ⟨name, fullName, owner, params, body, signature, isGenerator, span, isAbstract, earlier,
      symbol⟩ =>
    functionEvents checkCopy inCopy
      ⟨name, fullName, owner, params, body, signature, isGenerator, span, isAbstract, earlier,
        symbol⟩
      (blockEvents body)

def eventsOfEach : List FuncDef → Events
  | [] => .none
  | d :: rest => .followed d.events (d.check checkCopy) (eventsOfEach rest)

def blockEvents : List Stmt → Events
  | [] => .none
  | s :: rest => .followed s.events (s.check checkCopy) (blockEvents rest)

def optionEvents : Option (List Stmt) → Events
  | none => .none
  | some body => blockEvents body

def armEvents (orElse : Option Block) (otherwise : Events) : List Arm → Events
  | [] => otherwise
  | ⟨test, body⟩ :: rest =>
    .after (checkCondition test) <|
      guardEvents ⟨test, body⟩ rest orElse (blockEvents body) (checkBlock checkCopy body)
        (armEvents orElse otherwise rest)

def handlerEvents : List Handler → Events
  | [] => .none
  | ⟨type, v, body⟩ :: rest =>
    .after (checkCaught type v) <|
      .followed (blockEvents body) (checkBlock checkCopy body) (handlerEvents rest)

end

end Trees

/-- What happens in a block in which function definitions are nested at most so deeply. -/
def nestedEvents : (depth : Nat) → Block → Events
  | 0 => blockEvents (fun _ => pure ()) fun _ => .none
  | depth + 1 => blockEvents (checkNested depth) (nestedEvents depth)

/-- What happens when a block is checked. -/
def Block.events (b : Block) : Events := nestedEvents (blockNesting b) b

/-- What happens when a module is checked. -/
def Module.events (m : Module) : Events := .after (enterModule m) m.body.events

/-- What happens when modules are checked one after the other. -/
def modulesEvents : List String → Events
  | [] => .none
  | name :: rest =>
    .followed (fun env s =>
      match env.program.modules[name]? with
      | some m => m.events env s
      | none => []) (checkModuleNamed name) (modulesEvents rest)

/-- What happens in a run of a program. -/
def Program.events (p : Program) (options : Options) (names : List String) : List Event :=
  modulesEvents names (.ofProgram p options) (.initial p)

end Gradual
