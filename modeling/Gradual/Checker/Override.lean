import Gradual.Checker.ClassTypes

/-!
Names that a class shares with the classes it derives from: a method has to fit the methods that it
overrides, and names that come from two bases have to agree.
-/

namespace Gradual

/-- What is wrong with a method of type `new` where the class `supertype` has one of type `old`,
both without receivers. Signatures that take as many arguments are compared one argument at a
time. -/
def TypeOrder.overrideProblems (o : TypeOrder) (name supertype : String) (new old : Ty) :
    List Problem :=
  let whole :=
    if o.isSubtype new old then [] else [.overrideSignature name supertype]
  match new, old with
  | .callable n, .callable m =>
    if n.argTypes.length = m.argTypes.length ∧ n.minArgs = m.minArgs then
      let different := (m.argTypes.zip n.argTypes).mapIdx fun i (before, after) =>
        if o.isEquivalent before after then none
        else some (.overrideArgument (i + 1) name supertype)
      different.filterMap id
        ++ if o.isSubtype n.ret m.ret then [] else [.overrideReturn name supertype]
    else whole
  | _, _ => whole

/-- Do two declarations of a name agree? One whose type is not known agrees with every other. -/
def TypeOrder.membersAgree (o : TypeOrder) (first second : Option Ty) : Bool :=
  match first, second with
  | some s, some t =>
    if s.isFunctionLike && t.isFunctionLike then o.isEquivalent s.boundMethod t.boundMethod
    else o.isEquivalent s t
  | _, _ => true

namespace Env

/-- The type that a class states for a name in its body. -/
def declaredType? (env : Env) (vars : VarTypes) (c : ClassId) (name : String) : Option Ty :=
  (env.classes.own? c name).bind (·.declaredType? vars)

/-- What is wrong with a method of a class with regard to one class that it derives from. -/
def overrideProblems (env : Env) (vars : VarTypes) (name : String) (c : ClassId) (type : Ty)
    (base : ClassId) : List Problem :=
  match env.classes.own? base name with
  | none => []
  | some symbol =>
    let supertype := (env.classes.info base).name
    let old? := (symbol.declaredType? vars).filter Ty.isFunctionLike
    match old? with
    | some old =>
      env.order.overrideProblems name supertype type.boundMethod
        (env.fromSupertype old.boundMethod c base)
    | none => [.overrideSignature name supertype]

/-- The names that some classes of a lookup order share, each with the two classes; `isExempt` tells
the names that are left out. -/
def sharedNames (env : Env) (isExempt : String → Bool) :
    List ClassId → List (String × ClassId × ClassId)
  | [] => []
  | first :: rest =>
    let names := (env.classes.info first).names.keys.filter (!isExempt ·)
    let shared := names.flatMap fun name =>
      (rest.filter fun c => (env.classes.own? c name).isSome).map fun second =>
        (name, first, second)
    shared ++ env.sharedNames isExempt rest

/-- The names that a class inherits from two classes whose declarations do not agree. Constructors
and the names that the class itself declares are exempt. -/
def conflicts (env : Env) (vars : VarTypes) (c : ClassId) : List (String × ClassId × ClassId) :=
  let info := env.classes.info c
  if info.bases.length ≤ 1 then []
  else
    (env.sharedNames (fun name => name == "__init__" || info.names.contains name)
      info.mro.tail).filter fun (name, first, second) =>
      !env.order.membersAgree (env.declaredType? vars first name)
        (env.declaredType? vars second name)

end Env

namespace Check

/-- Compares a method with those that it overrides. Constructors are exempt. -/
def checkOverrides (name : String) (c : ClassId) (type : Ty) (span : Span) : Check Unit := do
  let env ← read
  if name != "__init__" then
    for base in (env.classes.mro c).tail do
      for p in env.overrideProblems (← get).vars name c type base do
        report p span

/-- Compares the names that a class inherits more than once. -/
def checkInherited (c : ClassId) (span : Span) : Check Unit := do
  let env ← read
  for (name, first, second) in env.conflicts (← get).vars c do
    report
      (.conflictingBases name (env.classes.info first).name (env.classes.info second).name) span

end Check
end Gradual
