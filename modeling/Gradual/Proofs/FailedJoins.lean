import Gradual.Proofs.Joins
import Gradual.Proofs.Runs

/-!
Joins that fail: which types have no join, and where a failed join is reported. The displays, the loops
over tuples and the type arguments of calls test what was joined; the operators `and` and `or` and the
conditional expressions do not, so there the error type is recorded and nothing is said.
-/

namespace Gradual

/-- The type of something that has a value. Bounds stand for their type variables. -/
def Ty.isValue : Ty → Bool
  | .void | .error => false
  | .typeVar ⟨_, _, _, bound⟩ => bound.isValue
  | .any | .noneType | .inst .. | .callable _ | .overloaded _ | .tuple _ | .unbound _ => true

/-- The type of something that has a value and that is not dynamic. -/
def Ty.isOrdinary (t : Ty) : Bool := t.isValue && !t.isDynamic

/-- The one type is that of something without a value, and the other one is ordinary. -/
def Ty.FailsWith (t u : Ty) : Prop :=
  t = .void ∧ u.isOrdinary = true ∨ u = .void ∧ t.isOrdinary = true

theorem Ty.isValue_typeVar (v : TypeVar) : (Ty.typeVar v).isValue = v.upperBound.isValue := by
  cases v
  rfl

namespace TypeOrder

variable {o : TypeOrder} {s t : Ty} {steps : Nat}

/-! ### Which joins fail -/

theorem joinSameClass_isError {le : Ty → Ty → Option Bool} {join : Ty → Ty → Option Ty}
    {a b : Instance} (object : o.objectType.isError = false) :
    o.joinSameClass le join a b ≠ some .error := by
  intro failed
  unfold joinSameClass at failed
  simp only [Option.bind_eq_bind, Option.bind_eq_some_iff] at failed
  obtain ⟨below, -, failed⟩ := failed
  split at failed
  · cases failed
  · simp only [Option.bind_eq_some_iff] at failed
    obtain ⟨above, -, failed⟩ := failed
    split at failed
    · cases failed
    · obtain ⟨args, -, failed⟩ := Option.bind_eq_some_iff.mp failed
      split at failed
      · rw [Option.some.inj failed] at object
        cases object
      · cases failed

theorem joinInstances_isError {le : Ty → Ty → Option Bool} {join : Ty → Ty → Option Ty}
    {a b : Instance} (object : o.objectType.isError = false) :
    o.joinInstances le join a b ≠ some .error := by
  have other : some o.objectType ≠ some .error := by
    intro failed
    rw [Option.some.inj failed] at object
    cases object
  unfold joinInstances
  split
  · exact joinSameClass_isError object
  · split
    · exact other
    · split
      · exact joinSameClass_isError object
      · exact other

theorem joinFallbacks_isError {le : Ty → Ty → Option Bool} {join : Ty → Ty → Option Ty}
    (object : o.objectType.isError = false) : o.joinFallbacks le join s t ≠ some .error := by
  unfold joinFallbacks
  split
  · exact joinInstances_isError object
  · intro failed
    rw [Option.some.inj failed] at object
    cases object

theorem ne_error_of_isValue (h : t.isValue = true) : some t ≠ some .error := by
  rintro ⟨⟩
  cases h

/-- Two types of which none is an instance, a type variable or a marker. -/
theorem joinMixed_isError {le : Ty → Ty → Option Bool} {join : Ty → Ty → Option Ty}
    (object : o.objectType.isError = false) (hs : s.isValue = true) (ht : t.isValue = true) :
    (do
      match s, t with
      | .tuple as, .tuple bs =>
        if as.length = bs.length then
          return .tuple (← (as.zip bs).mapM fun (a, b) => join a b)
      | .callable _, .callable _ =>
        if ← le s t then return t
        if ← le t s then return s
      | _, _ => pure ()
      o.joinFallbacks le join s t) ≠ some Ty.error := by
  have fallback : o.joinFallbacks le join s t ≠ some .error := joinFallbacks_isError object
  split
  · split
    · intro failed
      obtain ⟨items, -, made⟩ := Option.bind_eq_some_iff.mp failed
      cases made
    · exact fallback
  · simp only [Option.bind_eq_bind, ne_eq, Option.bind_eq_some_iff, not_exists, not_and]
    intro below _
    split
    · exact ne_error_of_isValue ht
    · simp only [Option.bind_eq_some_iff, not_exists, not_and]
      intro above _
      split
      · exact ne_error_of_isValue hs
      · exact fallback
  · exact fallback

/-- The join of two values is not a failure. -/
theorem joinWithin_isError (object : o.objectType.isError = false) (steps : Nat) (s t : Ty)
    (hs : s.isValue = true) (ht : t.isValue = true) : o.joinWithin steps s t ≠ some .error := by
  induction steps generalizing s t with
  | zero => exact fun failed => nomatch failed
  | succ steps ih =>
    unfold joinWithin
    split
    case h_1 | h_7 | h_8 => cases hs
    case h_2 | h_9 => cases ht
    case h_3 | h_4 | h_5 | h_6 => exact fun failed => nomatch failed
    case h_10 => exact ne_error_of_isValue ht
    case h_11 => exact ne_error_of_isValue hs
    case h_12 =>
      split
      · exact ne_error_of_isValue hs
      split
      case h_1 => exact ih _ _ (Ty.isValue_typeVar _ ▸ hs) ht
      case h_2 => exact ih _ _ hs (Ty.isValue_typeVar _ ▸ ht)
      case h_3 => exact joinInstances_isError object
      case h_4 => exact joinMixed_isError object hs ht

theorem joinWithin_void_left (ordinary : t.isOrdinary = true) :
    o.joinWithin (steps + 1) .void t = some .error := by
  cases t <;> first | rfl | cases ordinary

theorem joinWithin_void_right (ordinary : s.isOrdinary = true) :
    o.joinWithin (steps + 1) s .void = some .error := by
  cases s <;> first | rfl | cases ordinary

/-- A join fails where one of the two has no value and the other has one that is not dynamic. -/
theorem join?_eq_error_iff (object : o.objectType.isError = false)
    (hs : s = .void ∨ s.isValue = true) (ht : t = .void ∨ t.isValue = true) :
    o.join? s t = some .error ↔ s.FailsWith t := by
  unfold join?
  constructor
  · intro failed
    rcases hs with rfl | hs
    · rcases ht with rfl | ht
      · cases failed
      · refine .inl ⟨rfl, ?_⟩
        rw [Ty.isOrdinary, ht, Bool.true_and, Bool.not_eq_true']
        cases t with
        | error => cases ht
        | any | unbound => cases failed
        | _ => rfl
    · rcases ht with rfl | ht
      · refine .inr ⟨rfl, ?_⟩
        rw [Ty.isOrdinary, hs, Bool.true_and, Bool.not_eq_true']
        cases s with
        | error => cases hs
        | any | unbound => cases failed
        | _ => rfl
      · exact absurd failed (joinWithin_isError object _ s t hs ht)
  · rintro (⟨rfl, ordinary⟩ | ⟨rfl, ordinary⟩)
    · exact joinWithin_void_left ordinary
    · exact joinWithin_void_right ordinary

/-- Two types that can be joined: the type of all values is there, the join comes to an end, and each
type is that of a value or of something without one. -/
structure Joinable (o : TypeOrder) (s t : Ty) : Prop where
  object : o.objectType.isError = false
  ends : (o.join? s t).isSome = true
  left : s = .void ∨ s.isValue = true
  right : t = .void ∨ t.isValue = true

theorem join_eq_error_iff (h : o.Joinable s t) : o.join s t = .error ↔ s.FailsWith t := by
  obtain ⟨joined, ends⟩ := Option.isSome_iff_exists.mp h.ends
  rw [← join?_eq_error_iff h.object h.left h.right, join, ends, Option.getD_some, Option.some_inj]

/-- Where items are joined one by one, a join that fails is found among the joins. -/
theorem mapM_joinWithin_error {i : Nat} {as bs items : List Ty}
    (joined : ((as.zip bs).mapM fun (a, b) => o.joinWithin (steps + 1) a b) = some items)
    (left : as[i]? = some .void) (right : bs[i]? = some t) (ordinary : t.isOrdinary = true) :
    items[i]? = some .error := by
  induction as generalizing bs items i with
  | nil => cases left
  | cons a as ih =>
    cases bs with
    | nil => cases right
    | cons b bs =>
      rw [List.zip_cons_cons, List.mapM_cons] at joined
      obtain ⟨first, met, joined⟩ := Option.bind_eq_some_iff.mp joined
      obtain ⟨others, rest, made⟩ := Option.bind_eq_some_iff.mp joined
      cases made
      cases i with
      | zero =>
        cases left
        cases right
        exact met.symm.trans (joinWithin_void_left ordinary)
      | succ i =>
        rw [List.getElem?_cons_succ] at left right ⊢
        exact ih rest left right

theorem isSameEach_getElem? {i : Nat} {a b : Ty} {as bs : List Ty}
    (same : Ty.isSameEach as bs = true) (left : as[i]? = some a) (right : bs[i]? = some b) :
    a.isSame b = true := by
  induction as generalizing bs i with
  | nil => cases left
  | cons x as ih =>
    cases bs with
    | nil => cases right
    | cons y bs =>
      rw [Ty.isSameEach, Bool.and_eq_true] at same
      cases i with
      | zero =>
        cases left
        cases right
        exact same.1
      | succ i =>
        rw [List.getElem?_cons_succ] at left right
        exact ih same.2 left right

/-- Tuples of one length are joined item by item. -/
theorem joinWithin_tuple {as bs : List Ty} (differ : (Ty.tuple as).isSame (.tuple bs) = false)
    (length : as.length = bs.length) :
    o.joinWithin (steps + 1) (.tuple as) (.tuple bs) =
      ((as.zip bs).mapM fun (a, b) => o.joinWithin steps a b).map .tuple := by
  conv_lhs => unfold joinWithin
  dsimp only
  rw [if_neg (Bool.eq_false_iff.mp differ), if_pos length, bind_pure_comp]
  rfl

theorem isSame_void_of_isOrdinary (ordinary : t.isOrdinary = true) : Ty.void.isSame t = false := by
  cases t with
  | void => cases ordinary
  | _ => simp [Ty.isSame]

/-- A failure inside of tuples is not seen from outside: the join is a tuple with the failure in it. -/
theorem join_tuple_of_void {i : Nat} {as bs : List Ty} (length : as.length = bs.length)
    (left : as[i]? = some .void) (right : bs[i]? = some t) (ordinary : t.isOrdinary = true)
    (ends : (o.join? (.tuple as) (.tuple bs)).isSome = true) :
    ∃ items, o.join (.tuple as) (.tuple bs) = .tuple items ∧ items[i]? = some .error := by
  obtain ⟨steps, enough⟩ := Nat.exists_eq_add_one.mpr (budget_pos (o := o) (.tuple as) (.tuple bs))
  have differ : (Ty.tuple as).isSame (.tuple bs) = false := by
    rw [Ty.isSame, Bool.eq_false_iff]
    intro same
    have alike := isSameEach_getElem? same left right
    rw [isSame_void_of_isOrdinary ordinary] at alike
    cases alike
  have one_by_one : o.join? (.tuple as) (.tuple bs) =
      ((as.zip bs).mapM fun (a, b) => o.joinWithin (steps + 1) a b).map Ty.tuple := by
    rw [join?, enough, joinWithin_tuple differ length]
  obtain ⟨joined, made⟩ := Option.isSome_iff_exists.mp ends
  obtain ⟨items, joins, rfl⟩ := Option.map_eq_some_iff.mp (one_by_one.symm.trans made)
  exact ⟨items, by rw [join, made, Option.getD_some], mapM_joinWithin_error joins left right ordinary⟩

end TypeOrder

open Check

/-- What two parts of an expression have in common is recorded for it as it is, also where the join of
their types fails, with no report but those of the parts. -/
structure State.RecordsJoin (env : Env) (after : State) (id : NodeId) (left right : Ty × State) :
    Prop where
  type : after.types[id]? = some (env.order.join left.1 right.1)
  failure : env.order.Joinable left.1 right.1 →
    (after.types[id]? = some .error ↔ left.1.FailsWith right.1)
  diagnostics : after.diagnostics = right.2.diagnostics

/-- A problem is reported, and the error type does not go on from there. -/
structure ReportsFailure (env : Env) (p : Problem) (after : Ty × State) : Prop where
  answer : after.1.isError = false
  reported : ∃ file scope span, diagnostic env file scope p span ∈ after.2.diagnostics

namespace Check

variable {env : Env} {s : State}

/-! ### Joins that are not tested -/

/-- An expression whose type is the join of the types of two parts, of which the second is inferred
last. -/
theorem acceptAs_recordsJoin {id : NodeId} {infer : Check Ty} {expected : Option Ty}
    {left right : Ty × State} (joins : infer.outcome env (s.expecting expected) =
      (env.order.join left.1 right.1, right.2)) :
    ((acceptAs id infer expected).outcome env s).2.RecordsJoin env id left right := by
  have type : ((acceptAs id infer expected).outcome env s).2.types[id]? =
      some (infer.outcome env (s.expecting expected)).1 := Std.TreeMap.getElem?_insert_self
  rw [joins] at type
  refine ⟨type, fun joinable => ?_, ?_⟩
  · rw [type, Option.some_inj, TypeOrder.join_eq_error_iff joinable]
  · exact congrArg (·.2.diagnostics) joins

theorem accept_logical {op : BinaryOp} (logical : op = .and ∨ op = .or) (id : NodeId) (span : Span)
    (l r : Expr) (expected : Option Ty) :
    let left := (l.accept none).outcome env (s.expecting expected)
    let right := (r.accept none).outcome env left.2
    let whole : Expr := ⟨id, span, .binary op l r⟩
    ((whole.accept expected).outcome env s).2.RecordsJoin env id left right := by
  intro left right whole
  rcases logical with rfl | rfl <;> exact acceptAs_recordsJoin rfl

theorem accept_conditional (id : NodeId) (span : Span) (cond ifTrue ifFalse : Expr)
    (expected : Option Ty) :
    let tested := ((cond.accept none).outcome env (s.expecting expected)).2
    let guard := Guard.ofExpr? env.order tested.types tested.scope.binder tested.vars cond
    let left := (narrowing (guard.map (·.narrowing)) (ifTrue.accept expected)).outcome env tested
    let right := (ifFalse.accept expected).outcome env left.2
    let whole : Expr := ⟨id, span, .conditional cond ifTrue ifFalse⟩
    ((whole.accept expected).outcome env s).2.RecordsJoin env id left right := by
  intro tested guard left right whole
  exact acceptAs_recordsJoin rfl

/-! ### Joins that are tested -/

theorem report_reports (p : Problem) (span : Span) :
    ∃ file scope span', diagnostic env file scope p span' ∈
      ((report p span).outcome env s).2.diagnostics := by
  refine ⟨s.file, s.scope, span, ?_⟩
  rw [outcome_report]
  dsimp only
  split
  · assumption
  · exact List.mem_append_right _ (List.mem_singleton.mpr rfl)

/-- An instance of a named class is not a failed join, and nothing is reported for it. -/
theorem named_not_error (env : Env) (s : State) (fullName : String) (args : List Ty) :
    ((named fullName args).outcome env s).1.isError = false ∧
      ((named fullName args).outcome env s).2.diagnostics = s.diagnostics := by
  unfold named
  simp only [outcome_bind, outcome_read, outcome_get]
  split <;> exact ⟨rfl, rfl⟩

theorem expectedArgs?_state (fullName : String) (count : Nat) :
    ((expectedArgs? fullName count).outcome env s).2 = s := by
  unfold expectedArgs?
  rw [outcome_bind]
  split <;> rfl

theorem outcome_joinAll (ts : List Ty) :
    (joinAll ts).outcome env s = (ts.foldl env.order.join .noneType, s) := rfl

/-- After a report the dynamic type is answered. -/
theorem reported_any (p : Problem) (span : Span) :
    ReportsFailure env p <| (do
      report p span
      return .any : Check Ty).outcome env s :=
  ⟨rfl, report_reports p span⟩

/-- After a report an instance of a class is answered. -/
theorem reported_named (p : Problem) (span : Span) (fullName : String) (args : List Ty) :
    ReportsFailure env p <| (do
      report p span
      named fullName args).outcome env s := by
  obtain ⟨proper, unchanged⟩ := named_not_error env ((report p span).outcome env s).2 fullName args
  refine ⟨proper, ?_⟩
  rw [outcome_bind, unchanged]
  exact report_reports p span

/-- A list or set whose items have no join, where no item type is expected. -/
theorem sequenceDisplay_failed {display : Display} {items : List (Operand × Span)}
    (free : ((expectedItem? display.className).outcome env s).1 = none)
    (failed : ((joinItems items).outcome env s).1.isError = true) :
    ReportsFailure env (.noDisplayItemType display)
      ((sequenceDisplay display items).outcome env s) := by
  have expects : (expectedItem? display.className).outcome env s = (none, s) :=
    Prod.ext free (expectedArgs?_state display.className 1)
  cases items with
  | nil => cases failed
  | cons item items =>
    unfold sequenceDisplay
    rw [outcome_bind, expects]
    dsimp only
    rw [outcome_bind, if_pos failed]
    exact reported_named (.noDisplayItemType display) item.2 display.className [.any]

/-- The join of the keys of a dictionary and that of the values. -/
def joinEntries (entries : List DictEntry) : Check (Ty × Ty) := do
  let types ← entries.mapM fun e => return (← e.key.accept none, ← e.value.accept none)
  return (← joinAll (types.map (·.1)), ← joinAll (types.map (·.2)))

/-- A dictionary whose keys or values have no join, where no types are expected of them. -/
theorem dictDisplay_failed {entries : List DictEntry} {span : Span}
    (free : ((expectedArgs? "builtins.dict" 2).outcome env s).1 = none)
    (failed : ((joinEntries entries).outcome env s).1.1.isError = true ∨
      ((joinEntries entries).outcome env s).1.2.isError = true) :
    ReportsFailure env (.noDisplayItemType .dict) ((dictDisplay entries span).outcome env s) := by
  have expects : (expectedArgs? "builtins.dict" 2).outcome env s = (none, s) :=
    Prod.ext free (expectedArgs?_state "builtins.dict" 2)
  rw [← Bool.or_eq_true] at failed
  unfold dictDisplay
  rw [outcome_bind, expects]
  dsimp only
  rw [outcome_bind, outcome_bind, outcome_bind]
  split
  · exact reported_named (.noDisplayItemType .dict) span "builtins.dict" [.any, .any]
  · rename_i passed
    exact absurd failed passed

/-- A loop over a tuple whose items have no join. -/
theorem itemType_failed {sequence : Operand} {span : Span} {items : List Ty}
    (tuple : ((sequence.accept none).outcome env s).1 = .tuple items)
    (failed : (items.foldl env.order.join .noneType).isError = true) :
    ReportsFailure env .noItemType ((itemType sequence span).outcome env s) := by
  unfold itemType
  rw [outcome_bind, tuple, outcome_bind]
  dsimp only
  rw [outcome_bind, outcome_joinAll, if_pos failed]
  exact reported_any .noItemType span

/-- What a type argument has to cover: what the arguments say or else what the context says. -/
def typeBounds (fromArgs fromContext : Constraints) (v : TypeVar) : List Ty :=
  match fromArgs.of v.id with
  | [] => fromContext.of v.id
  | bounds => bounds

/-- A type argument of a call for which there is no join. -/
theorem typeArgument_failed {callee : Signature} {fromArgs fromContext : Constraints} {span : Span}
    {position : Nat} {v : TypeVar} {first : Ty} {rest : List Ty}
    (bounds : typeBounds fromArgs fromContext v = first :: rest)
    (failed : (rest.foldl env.order.join first).isError = true) :
    ReportsFailure env (.noTypeArgument position callee)
      ((typeArgument callee fromArgs fromContext span position v).outcome env s) := by
  unfold typeArgument
  rw [outcome_bind]
  extract_lets o known inferred
  have covers : known = first :: rest := bounds
  have fails : inferred.isError = true := by
    simp only [inferred, covers]
    exact failed
  rw [if_pos fails]
  exact reported_any (.noTypeArgument position callee) span

end Check

/-! ### Where failed joins are reported -/

/-- Two types, of something without a value or of values, have no join if the one has no value and
the other is a value that is not dynamic; between the items of two tuples such a failure is not seen
from outside. Where a list, set or dictionary is written out, where the items of a tuple are looped
over and where a call infers a type argument, a join that fails is reported and the error type does not
go on. But the join of the operands of `and` or `or`, and that of the branches of a conditional
expression, is recorded as it is: just where it fails, the error type is recorded, and nothing is
reported. -/
theorem failed_joins_untested_in_and_or_conditional (env : Env) (s : State) :
    (∀ t u : Ty, env.order.Joinable t u → (env.order.join t u = .error ↔ t.FailsWith u)) ∧
    (∀ (as bs : List Ty) (i : Nat) (t : Ty), as.length = bs.length →
      as[i]? = some .void → bs[i]? = some t → t.isOrdinary = true →
      (env.order.join? (.tuple as) (.tuple bs)).isSome = true →
      ∃ items, env.order.join (.tuple as) (.tuple bs) = .tuple items ∧ items[i]? = some .error) ∧
    (∀ (display : Display) (items : List (Operand × Span)),
      ((expectedItem? display.className).outcome env s).1 = none →
      ((joinItems items).outcome env s).1.isError = true →
      ReportsFailure env (.noDisplayItemType display)
        ((sequenceDisplay display items).outcome env s)) ∧
    (∀ (entries : List DictEntry) (span : Span),
      ((expectedArgs? "builtins.dict" 2).outcome env s).1 = none →
      ((joinEntries entries).outcome env s).1.1.isError = true ∨
        ((joinEntries entries).outcome env s).1.2.isError = true →
      ReportsFailure env (.noDisplayItemType .dict) ((dictDisplay entries span).outcome env s)) ∧
    (∀ (sequence : Operand) (span : Span) (items : List Ty),
      ((sequence.accept none).outcome env s).1 = .tuple items →
      (items.foldl env.order.join .noneType).isError = true →
      ReportsFailure env .noItemType ((itemType sequence span).outcome env s)) ∧
    (∀ (callee : Signature) (fromArgs fromContext : Constraints) (span : Span) (position : Nat)
      (v : TypeVar) (first : Ty) (rest : List Ty),
      typeBounds fromArgs fromContext v = first :: rest →
      (rest.foldl env.order.join first).isError = true →
      ReportsFailure env (.noTypeArgument position callee)
        ((typeArgument callee fromArgs fromContext span position v).outcome env s)) ∧
    ∀ (id : NodeId) (span : Span) (expected : Option Ty),
      (∀ (op : BinaryOp) (l r : Expr), op = .and ∨ op = .or →
        let left := (l.accept none).outcome env (s.expecting expected)
        let right := (r.accept none).outcome env left.2
        let whole : Expr := ⟨id, span, .binary op l r⟩
        ((whole.accept expected).outcome env s).2.RecordsJoin env id left right) ∧
      ∀ cond ifTrue ifFalse : Expr,
        let tested := ((cond.accept none).outcome env (s.expecting expected)).2
        let guard := Guard.ofExpr? env.order tested.types tested.scope.binder tested.vars cond
        let left := (narrowing (guard.map (·.narrowing)) (ifTrue.accept expected)).outcome env
          tested
        let right := (ifFalse.accept expected).outcome env left.2
        let whole : Expr := ⟨id, span, .conditional cond ifTrue ifFalse⟩
        ((whole.accept expected).outcome env s).2.RecordsJoin env id left right := by
  refine ⟨fun t u => TypeOrder.join_eq_error_iff, fun as bs i t => TypeOrder.join_tuple_of_void,
    ?_, ?_, ?_, ?_, fun id span expected => ⟨?_, ?_⟩⟩
  · exact fun display items => sequenceDisplay_failed
  · exact fun entries span => dictDisplay_failed
  · exact fun sequence span items => itemType_failed
  · exact fun callee fromArgs fromContext span position v first rest => typeArgument_failed
  · exact fun op l r logical => accept_logical logical id span l r expected
  · exact fun cond ifTrue ifFalse => accept_conditional id span cond ifTrue ifFalse expected

/-- A call of a function that returns no value. -/
def Expr.emptyCall : Expr :=
  ⟨1, .atLine 1, .call ⟨0, .atLine 1, .name
    ⟨"f", "m.f", .inModule, .func ⟨"f", "m.f", none, .callable (.positional [] .void), false⟩, false⟩⟩
    []⟩

/-- Such a call or else an empty tuple. -/
def Expr.emptyCallOrTuple : Expr :=
  ⟨3, .atLine 1, .binary .or .emptyCall ⟨2, .atLine 1, .tuple []⟩⟩

/-- A module of this expression alone. -/
def Module.emptyCallOrTuple : Module := ⟨"m", "m.py", [⟨.atLine 1, .expr .emptyCallOrTuple⟩], ∅⟩

def Program.emptyCallOrTuple : Program :=
  ⟨.ofList [("m", Module.emptyCallOrTuple)], .empty, 4, .empty⟩

/-- Nothing is reported in the module, and the error type is recorded. -/
theorem emptyCallOrTuple_records_error :
    let env : Env := .ofProgram .emptyCallOrTuple default
    let report := ((checkModule .emptyCallOrTuple).outcome env (.initial .emptyCallOrTuple)).1
    report.diagnostics = [] ∧ report.types[3]? = some .error := by
  intro env report
  refine ⟨by with_unfolding_all rfl, ?_⟩
  let entered := ((enterModule .emptyCallOrTuple).outcome env (.initial .emptyCallOrTuple)).2
  have recorded := ((failed_joins_untested_in_and_or_conditional env entered).2.2.2.2.2.2 3
    (.atLine 1) none).1 .or .emptyCall ⟨2, .atLine 1, .tuple []⟩ (.inr rfl)
  have joined : env.order.join .void (.tuple []) = .error := rfl
  exact recorded.type.trans (congrArg some joined)

end Gradual
