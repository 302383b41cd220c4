import Gradual.Proofs.Handlers

/-!
Exceptions that are caught and raised again. The variable of a handler for several classes gets their join. The
classes are all exceptions, or else one of them is reported, but their join need not be one: it is the first
class that they have in common, and that can be a base of them that is not an exception.
-/

namespace Gradual

open Check

variable {env : Env} {s : State} {b : ClassId}

/-! ### Raising -/

/-- What a raised value of the type is an instance of: a class that is raised is called first. -/
def Ty.raised (type : Ty) : Ty :=
  if type.isTypeObject then (type.signatures.head?.map (·.ret)).getD .any else type

namespace Check

theorem checkException_demands {type : Ty} {span : Span}
    (found : env.program.lookup "builtins.BaseException" = .ok (.cls b)) :
    Demands (checkException type span) env s (env.order.isSubtype type.raised (.exception b) = true) () := by
  unfold checkException Ty.raised
  refine .after (named_exception found) ?_
  split
  · exact .after (fun _ => rfl) (.reportUnless _)
  · exact checkSubtype_demands

/-- A name that has a type is raised without a report exactly if it is an exception. -/
theorem checkRaised_silent_iff {e : Expr} {ref : NameRef} {type : Ty}
    (found : env.program.lookup "builtins.BaseException" = .ok (.cls b)) (name : e.unwrapped.kind = .name ref)
    (known : ref.type? env s = some type) :
    (checkRaised e).Silent env s ↔ env.order.isSubtype (s.answer type).raised (.exception b) = true := by
  obtain ⟨types, accepted⟩ := e.accept_name_clean name known none
  unfold checkRaised
  rw [accepted.silent_bind]
  exact (checkException_demands found).silent_iff

section Handler

variable {handler target : Expr} {h : Caught} {k : Target}

/-- A handler is accepted exactly if its classes are and its variable takes what it catches. -/
theorem checkCaught_silent_iff (handles : Handles env s b handler.caught h) (wants : target.Wants env s k) :
    (checkCaught (some handler) (some target)).Silent env s ↔
      handler.caught.Silent env s ∧ k.Takes env.order (s.answer (h.type env)) := by
  have within : ∀ t ∈ [target], t.Within .anything := List.forall_mem_singleton.mpr target.within_anything
  have later (caught : Ty) : Keeps Effects.anything (assign [target.placedTarget] (.known caught) target.span) :=
    assignTargets_keeps within Value.known_keeps
  have wants (types : TypeMap) : target.Wants env { s with types } k := wants.congr rfl rfl
  unfold checkCaught
  constructor
  · intro silent
    have first := silent.first later
    obtain ⟨types, found⟩ := handles.clean first
    rw [found.silent_bind] at silent
    exact ⟨first, (assignKnown_silent_iff (wants types)).mp silent⟩
  · rintro ⟨first, takes⟩
    obtain ⟨types, found⟩ := handles.clean first
    rw [found.silent_bind]
    exact (assignKnown_silent_iff (wants types)).mpr takes

/-- A handler that is accepted gives its variable a type, if it has none. -/
theorem checkCaught_clean (handles : Handles env s b handler.caught h) (wants : target.Wants env s k)
    (silent : (checkCaught (some handler) (some target)).Silent env s) :
    ∃ types, (checkCaught (some handler) (some target)).Clean env s ()
      { s with types, vars := k.giving (s.answer (h.type env)) s.vars } := by
  obtain ⟨first, takes⟩ := (checkCaught_silent_iff handles wants).mp silent
  obtain ⟨types, found⟩ := handles.clean first
  have wants : target.Wants env { s with types } k := wants.congr rfl rfl
  obtain ⟨types', given⟩ := assignKnown_clean wants takes target.span
  exact ⟨types', found.bind given⟩

end Handler
end Check

/-! ### Catching and raising again -/

section Again

variable {handler target mention : Expr} {h : Caught} {v : Var} {ref : NameRef}
  (exceptions : env.program.HasExceptions b) (catches : handler.catches? = some h) (defines : target.Defines v)
  (name : mention.unwrapped.kind = .name ref) (symbol : ref.symbol = .var v)
  (silent : (checkCaught (some handler) (some target)).Silent env s)
include exceptions catches defines name symbol silent

/-- A variable that has a type when its handler is reached is raised as it was before. -/
theorem raised_as_before {type : Ty} (typed : s.scope.binder.get? s.vars v = some type) :
    let after := ((checkCaught (some handler) (some target)).outcome env s).2
    after.scope.binder.get? after.vars v = some type ∧
      ((checkRaised mention).Silent env after ↔ (checkRaised mention).Silent env s) := by
  intro after
  have handles : Handles env s b handler.caught h := handler.handles exceptions.found s h catches
  obtain ⟨k, wants, kept⟩ : ∃ k, target.Wants env s k ∧
      ∀ given, s.scope.binder.get? (k.giving given s.vars) v = some type := by
    rcases Option.or_eq_some_iff.mp typed with narrowed | ⟨wide, own⟩
    · have still (vars : VarTypes) : s.scope.binder.get? vars v = some type :=
        Option.or_eq_some_iff.mpr (.inl narrowed)
      cases own : s.vars.get? v with
      | none => exact ⟨_, .fresh defines own, fun _ => still _⟩
      | some other => exact ⟨_, .declared defines own, fun _ => still _⟩
    · exact ⟨_, .declared defines own, fun _ => typed⟩
  obtain ⟨types, clean⟩ := checkCaught_clean handles wants silent
  have state : after = { s with types, vars := k.giving (s.answer (h.type env)) s.vars } :=
    congrArg (·.2) (clean s.diagnostics)
  have typed' : after.scope.binder.get? after.vars v = some type := by
    rw [state]
    exact kept _
  have answer : after.answer type = s.answer type := by
    rw [state]
    rfl
  have type? (t : State) : ref.type? env t = t.scope.binder.get? t.vars v := by rw [NameRef.type?, symbol]
  refine ⟨typed', ?_⟩
  rw [checkRaised_silent_iff exceptions.found name ((type? after).trans typed'), answer,
    checkRaised_silent_iff exceptions.found name ((type? s).trans typed)]

variable (rooted : env.classes.Rooted) (order : env.order = .ofClasses env.classes)
include rooted order

/-- A variable that has no type gets the one that its handler catches, and is raised with it. -/
theorem raised_as_caught (untyped : s.scope.binder.get? s.vars v = none) :
    let after := ((checkCaught (some handler) (some target)).outcome env s).2
    let type := s.answer (h.type env)
    after.vars.get? v = some type ∧
      ((checkRaised mention).Silent env after ↔ env.order.isSubtype type (.exception b) = true) ∧
      (env.order.isSubtype type (.exception b) = true ↔ s.isDynamic = true ∨ h.Meets env b) := by
  intro after type
  have handles : Handles env s b handler.caught h := handler.handles exceptions.found s h catches
  obtain ⟨wide, own⟩ := Option.or_eq_none_iff.mp untyped
  have wants : target.Wants env s (.inferred v) := .fresh defines own
  have accepted := handles.silent_iff.mp ((checkCaught_silent_iff handles wants).mp silent).1
  obtain ⟨types, clean⟩ := checkCaught_clean handles wants silent
  obtain ⟨stripped, raised, fits⟩ : type.stripped = type ∧ (s.answer type).raised = type ∧
      (env.order.isSubtype type (.exception b) = true ↔ s.isDynamic = true ∨ h.Meets env b) := by
    cases dynamic : s.isDynamic with
    | true =>
      have any : type = .any := if_pos dynamic
      rw [any, State.answer, dynamic]
      exact ⟨rfl, rfl, iff_of_true (TypeOrder.isSubtype_any_left _) (.inl rfl)⟩
    | false =>
      have static : ¬ s.isDynamic = true := Bool.eq_false_iff.mp dynamic
      have same : type = h.type env := if_neg static
      obtain ⟨⟨i, own, -⟩, fits⟩ := Caught.type_below_iff rooted order exceptions (accepted.resolve_left static)
      rw [same, State.answer, dynamic, fits, own]
      exact ⟨rfl, rfl, (or_iff_right Bool.false_ne_true).symm⟩
  have state : after = { s with types, vars := s.vars.set v type.stripped } := congrArg (·.2) (clean s.diagnostics)
  have typed : after.vars.get? v = some type := by
    rw [state]
    exact (VarTypes.get?_set_self _ _ _).trans (congrArg some stripped)
  have read : ref.type? env after = some type := by
    rw [NameRef.type?, symbol]
    refine Option.or_eq_some_iff.mpr (.inr ⟨?_, typed⟩)
    rw [state]
    exact wide
  have answer : after.answer type = s.answer type := by
    rw [state]
    rfl
  refine ⟨typed, ?_, fits⟩
  rw [checkRaised_silent_iff exceptions.found name read, answer, raised]

end Again

open Builder

/-- Declares a class with bases that have no type arguments. -/
def Builder.withPlain (b : Builder) (name : String) (bases : List ClassId) : Builder :=
  ((newPlainClass name bases).run b).2

theorem Builder.Grown.withPlain {b : Builder} (h : b.Grown) {name : String} {bases : List ClassId}
    (other : b.qualify name ≠ "builtins.object")
    (known : ∀ base ∈ bases.map fun c => b.classes.instanceOf c [],
      ∀ c ∈ base.toTy.mentioned b.classes.basic, c < b.classes.size) : (b.withPlain name bases).Grown :=
  .newClass h [] other known

/-- What the language provides and three exceptions with a base that is none. It comes first among the bases of
two of them, and last among those of the third. -/
@[irreducible] def Builder.withMixin : Builder :=
  (((Builder.new.withPlain "Mixin" []).withPlain "First" [18, 17]).withPlain "Second" [18, 17]).withPlain "Third"
    [17, 18]

theorem Builder.withMixin_rooted : Builder.withMixin.toProgram.classes.Rooted := by
  have grown : Builder.withMixin.Grown := by
    unfold Builder.withMixin
    exact (((Grown.new.withPlain (by decide +kernel) (by decide +kernel)).withPlain (by decide +kernel)
      (by decide +kernel)).withPlain (by decide +kernel) (by decide +kernel)).withPlain (by decide +kernel)
      (by decide +kernel)
  exact grown.rooted.1

theorem Builder.withMixin_exceptions : Builder.withMixin.toProgram.HasExceptions 16 where
  found := Program.lookup_exception (by decide +kernel)
  inside := by decide +kernel
  below := by decide +kernel

/-- A handler for two of the exceptions. -/
def Expr.mixinHandler (first second : ClassId) : Expr :=
  ⟨0, default, .tuple [⟨1, default, .name (Builder.withMixin.classRef first)⟩,
    ⟨2, default, .name (Builder.withMixin.classRef second)⟩]⟩

/-- The variable of the handler. -/
def Var.caught : Var := ⟨100, "e", "e", none⟩

def NameRef.caught : NameRef := ⟨"e", "e", .inModule, .var .caught, false⟩

def Expr.caughtMention : Expr := ⟨3, default, .name .caught⟩

theorem mixinHandler_catches (first second : ClassId) :
    (Expr.mixinHandler first second).catches? = some (.join (.cls first) (.cls second)) := rfl

/-- The program with the three exceptions, and the state in which it begins. -/
def Env.withMixin : Env := .ofProgram Builder.withMixin.toProgram default

def State.withMixin : State := .initial Builder.withMixin.toProgram

theorem State.withMixin_untyped : State.withMixin.scope.binder.get? State.withMixin.vars .caught = none := by
  rw [← Option.isNone_iff_eq_none]
  decide +kernel

/-- A handler for any two of the exceptions is accepted. -/
theorem mixinHandler_silent {first second : ClassId} (hf : first ∈ [19, 20, 21]) (hs : second ∈ [19, 20, 21]) :
    (checkCaught (some (.mixinHandler first second)) (some Var.caught.introduction)).Silent .withMixin .withMixin := by
  have all : ∀ c ∈ [19, 20, 21], (Env.withMixin.typeObject c).signatures.isEmpty = false ∧
      Env.withMixin.order.isSubtype (Env.withMixin.selfInstance c).toTy (.exception 16) = true := by
    decide +kernel
  have raises {c : ClassId} (member : c ∈ [19, 20, 21]) : Env.withMixin.Raises 16 c :=
    ⟨List.isEmpty_eq_false_iff.mp (all c member).1, (all c member).2⟩
  have specific : ∀ c ∈ [19, 20, 21], ∀ d ∈ [19, 20, 21],
      (State.withMixin.answer ((Caught.join (.cls c) (.cls d)).type .withMixin)).isSpecific = true := by
    decide +kernel
  have handles : Handles .withMixin .withMixin 16 (Expr.mixinHandler first second).caught
      (.join (.cls first) (.cls second)) :=
    Expr.handles Builder.withMixin_exceptions.found _ _ _ (mixinHandler_catches first second)
  have wants : Var.caught.introduction.Wants .withMixin .withMixin (.inferred .caught) :=
    .fresh ⟨_, rfl, rfl, rfl⟩ (Option.or_eq_none_iff.mp State.withMixin_untyped).2
  refine (checkCaught_silent_iff handles wants).mpr ⟨handles.silent_iff.mpr (.inr ?_), specific first hf second hs⟩
  exact List.forall_mem_cons.mpr ⟨raises hf, List.forall_mem_singleton.mpr (raises hs)⟩

end Gradual
