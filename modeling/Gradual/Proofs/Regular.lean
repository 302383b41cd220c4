import Gradual.Proofs.Decisions
import Gradual.Proofs.Reflexivity
import Gradual.Proofs.Supertypes

/-!
Types that say all there is to say: instances have a type argument for each type variable of their
class, signatures quantify nothing, and type variables of one id have one bound. Static types have no
part that is dynamic or missing. Every such type is a subtype of itself.
-/

namespace Gradual

/-- What types are written with: the classes, whether functions are classes as values or functions of
their own, and the bounds of type variables. -/
structure Vocabulary where
  classes : ClassTable
  constructs : Bool
  bound : Int → Ty

def Vocabulary.order (voc : Vocabulary) : TypeOrder := .ofClasses voc.classes

/-- A signature that quantifies nothing, takes no argument by keyword only and leaves no choice where
an argument by position goes. -/
structure Signature.Plain (s : Signature) (constructs : Bool) : Prop where
  quantified : s.quantified = []
  constructs : s.isTypeObject = constructs
  formals : WellFormedFormals s.argTypes.length s.argKinds s.argNames
  unnamed : .named ∉ s.argKinds
  settled : .star ∈ s.argKinds → .opt ∉ s.argKinds

variable {voc : Vocabulary} {static : Bool} {t : Ty} {i : Instance}

/-- Types over a vocabulary. Only those that are not static have markers in them. -/
inductive Ty.Regular (voc : Vocabulary) : (static : Bool) → Ty → Prop
  | dynamic {t : Ty} : t.isDynamic = true → Regular voc false t
  | void : Regular voc false .void
  | noneType {static : Bool} : Regular voc static .noneType
  | inst {static : Bool} {c : ClassId} {n : String} {args : List Ty} :
    c < voc.classes.size → args.length = voc.classes.arity c → (∀ a ∈ args, Regular voc static a) →
      Regular voc static (.inst c n args)
  | tuple {static : Bool} {items : List Ty} :
    (∀ a ∈ items, Regular voc static a) → Regular voc static (.tuple items)
  | callable {static : Bool} {s : Signature} : s.Plain voc.constructs →
    (∀ a ∈ s.argTypes, Regular voc static a) → (s.ret ≠ .void → Regular voc static s.ret) →
      Regular voc static (.callable s)
  | typeVar {static : Bool} {v : TypeVar} : v.upperBound = voc.bound v.id →
    Regular voc true v.upperBound → Regular voc static (.typeVar v)

namespace Ty.Regular

theorem inst_iff {c : ClassId} {n : String} {args : List Ty} : (Ty.inst c n args).Regular voc static ↔
    c < voc.classes.size ∧ args.length = voc.classes.arity c ∧ ∀ a ∈ args, a.Regular voc static := by
  constructor
  · rintro (⟨⟨⟩⟩ | _ | _ | ⟨known, length, args⟩)
    exact ⟨known, length, args⟩
  · exact fun ⟨known, length, args⟩ => .inst known length args

theorem tuple_iff {items : List Ty} :
    (Ty.tuple items).Regular voc static ↔ ∀ a ∈ items, a.Regular voc static := by
  constructor
  · rintro (⟨⟨⟩⟩ | _ | _ | _ | items)
    exact items
  · exact .tuple

theorem callable_iff {s : Signature} : (Ty.callable s).Regular voc static ↔
    s.Plain voc.constructs ∧ (∀ a ∈ s.argTypes, a.Regular voc static) ∧
      (s.ret ≠ .void → s.ret.Regular voc static) := by
  constructor
  · rintro (⟨⟨⟩⟩ | _ | _ | _ | _ | ⟨plain, args, ret⟩)
    exact ⟨plain, args, ret⟩
  · exact fun ⟨plain, args, ret⟩ => .callable plain args ret

theorem typeVar_iff {v : TypeVar} : (Ty.typeVar v).Regular voc static ↔
    v.upperBound = voc.bound v.id ∧ v.upperBound.Regular voc true := by
  constructor
  · rintro (⟨⟨⟩⟩ | _ | _ | _ | _ | _ | ⟨same, bound⟩)
    exact ⟨same, bound⟩
  · exact fun ⟨same, bound⟩ => .typeVar same bound

/-- A static type may stand where markers are allowed. -/
theorem loosen (h : t.Regular voc true) : t.Regular voc static := by
  cases static with
  | true => exact h
  | false =>
    generalize fixed : true = b at h
    induction h with
    | dynamic | void => cases fixed
    | noneType => exact .noneType
    | inst known length _ ih => exact .inst known length fun a member => ih a member fixed
    | tuple _ ih => exact .tuple fun a member => ih a member fixed
    | callable plain _ _ args ret =>
      exact .callable plain (fun a member => args a member fixed) fun value => ret value fixed
    | typeVar same bound => exact .typeVar same bound

theorem weaken (h : t.Regular voc static) : t.Regular voc false := by
  cases static with
  | true => exact h.loosen
  | false => exact h

theorem of_value (h : t ≠ .void → t.Regular voc static) : t.Regular voc false := by
  by_cases value : t = .void
  · exact value ▸ .void
  · exact (h value).weaken

theorem not_dynamic (h : t.Regular voc true) : t.isDynamic = false := by
  cases h <;> rfl

theorem ne_void (h : t.Regular voc true) : t ≠ .void := by
  rintro rfl
  cases h

variable (decides : voc.order.Decides)
include decides

/-- A type fits in its own place. -/
theorem isSubtype_self (h : t.Regular voc static) : voc.order.isSubtype t t = true := by
  induction h with
  | dynamic marked => exact decides.dynamic_le marked
  | void => exact decides.void_le_iff.mpr (.inr rfl)
  | noneType => exact decides.noneType_le (by simp)
  | inst _ _ _ ih => exact decides.inst_le_of_args (List.forall₂_same.mpr ih)
  | tuple _ ih => exact decides.tuple_le_iff.mpr (List.forall₂_same.mpr ih)
  | @callable _ s plain _ _ args ret =>
    have result : voc.order.isSubtype s.ret s.ret = true := by
      by_cases value : s.ret = .void
      · rw [value]
        exact decides.void_le_iff.mpr (.inr rfl)
      · exact ret value
    rw [decides.callable_le_iff plain.quantified plain.quantified,
      ← TypeOrder.plainSignatureLe_eq_some_true_iff,
      TypeOrder.plainSignatureLe_self_iff plain.formals]
    exact ⟨TypeOrder.compare_eq_some_true.mpr result, fun a member =>
      TypeOrder.compare_eq_some_true.mpr (args a member)⟩
  | typeVar => exact (decides.typeVar_le_iff (by simp)).mpr (.inl ⟨_, rfl, rfl⟩)

/-- A static type has values, and so has what it fits. -/
theorem ne_void_of_le (h : t.Regular voc true) (below : voc.order.isSubtype t r = true) :
    r ≠ .void := by
  rintro rfl
  rcases decides.le_void_iff.mp below with dynamic | void
  · rw [h.not_dynamic] at dynamic
    cases dynamic
  · exact h.ne_void void

end Ty.Regular

/-! ### Type arguments of bases -/

/-- A type argument of a base of a class with `n` type variables. It has no functions in it, so what
is put in for the type variables stays on its side of a comparison. -/
inductive Ty.Pattern (t : ClassTable) (n : Nat) : Ty → Prop
  | noneType : Pattern t n .noneType
  | inst {c : ClassId} {name : String} {args : List Ty} :
    c < t.size → args.length = t.arity c → (∀ a ∈ args, Pattern t n a) → Pattern t n (.inst c name args)
  | tuple {items : List Ty} : (∀ a ∈ items, Pattern t n a) → Pattern t n (.tuple items)
  | classVar {v : TypeVar} : 1 ≤ v.id → v.id ≤ n → Pattern t n (.typeVar v)

namespace Ty

theorem expandBy_inst (c : ClassId) (name : String) (ts args : List Ty) :
    (inst c name ts).expandBy args = inst c name (ts.map (·.expandBy args)) := by
  cases args with
  | nil => simp [expandBy]
  | cons => exact congrArg (inst c name) (substituteEach_eq_map _ ts)

theorem expandBy_tuple (ts args : List Ty) :
    (tuple ts).expandBy args = tuple (ts.map (·.expandBy args)) := by
  cases args with
  | nil => simp [expandBy]
  | cons => exact congrArg tuple (substituteEach_eq_map _ ts)

theorem expandBy_noneType (args : List Ty) : noneType.expandBy args = noneType := by
  cases args <;> rfl

/-- A type variable of a class is replaced by the type argument at its position. -/
theorem expandBy_classVar {v : TypeVar} {args : List Ty} (one : 1 ≤ v.id) (low : v.id ≤ args.length) :
    ∃ inside : (v.id - 1).toNat < args.length,
      (typeVar v).expandBy args = args[(v.id - 1).toNat] := by
  have inside : (v.id - 1).toNat < args.length := by omega
  have given : args ≠ [] := List.ne_nil_of_length_pos (Nat.zero_lt_of_lt inside)
  refine ⟨inside, ?_⟩
  rw [expandBy.eq_2 _ _ given, substitute, if_pos one, List.getElem?_eq_getElem inside]
  rfl

variable {n : Nat} {args as bs : List Ty}

theorem Pattern.regular (h : t.Pattern voc.classes args.length)
    (given : ∀ a ∈ args, a.Regular voc static) : (t.expandBy args).Regular voc static := by
  induction h with
  | noneType =>
    rw [expandBy_noneType]
    exact .noneType
  | inst known length _ ih =>
    rw [expandBy_inst]
    exact .inst known (by rw [List.length_map, length]) (List.forall_mem_map.mpr ih)
  | tuple _ ih =>
    rw [expandBy_tuple]
    exact .tuple (List.forall_mem_map.mpr ih)
  | classVar one low =>
    obtain ⟨inside, replaced⟩ := expandBy_classVar one low
    exact replaced ▸ given _ (List.getElem_mem inside)

/-- What is put in for the type variables of a class fits where greater types are put in. -/
theorem Pattern.expandBy_le {o : TypeOrder} (decides : o.Decides) (h : t.Pattern o.classes as.length)
    (args : List.Forall₂ (fun a b => o.isSubtype a b = true) as bs) :
    o.isSubtype (t.expandBy as) (t.expandBy bs) = true := by
  have each {ts : List Ty}
      (ih : ∀ u ∈ ts, o.isSubtype (u.expandBy as) (u.expandBy bs) = true) :
      List.Forall₂ (fun a b => o.isSubtype a b = true) (ts.map (·.expandBy as))
        (ts.map (·.expandBy bs)) :=
    List.forall₂_map_left_iff.mpr (List.forall₂_map_right_iff.mpr (List.forall₂_same.mpr ih))
  induction h with
  | noneType =>
    rw [expandBy_noneType]
    exact decides.noneType_le (by simp [expandBy_noneType])
  | inst _ _ _ ih =>
    rw [expandBy_inst, expandBy_inst]
    exact decides.inst_le_of_args (each ih)
  | tuple _ ih =>
    rw [expandBy_tuple, expandBy_tuple]
    exact decides.tuple_le_iff.mpr (each ih)
  | classVar one low =>
    have same := args.length_eq
    obtain ⟨inside, replaced⟩ := expandBy_classVar one low
    obtain ⟨inside', replaced'⟩ := expandBy_classVar one (same ▸ low)
    rw [replaced, replaced']
    exact args.get inside inside'

end Ty
end Gradual
