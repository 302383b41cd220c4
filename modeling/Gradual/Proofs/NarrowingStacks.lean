import Gradual.Binder
import Mathlib.Algebra.GroupWithZero.Nat
import Mathlib.Data.List.Basic

/-!
The narrowings of variables under any sequence of operations, nested or not: each variable has a
last-in-first-out stack of its own, and the depth of all is the sum of the depths of each.
-/

namespace Gradual
namespace Binder

/-- What is done to the narrowings of a variable. -/
inductive Op where
  | push (v : Var) (type : Ty)
  | pop (v : Var)

namespace Op

def var : Op → Var
  | push v _ | pop v => v

/-- Is the operation one on this variable? Variables are told apart by their ids, not by their names. -/
def isOn (v : Var) (op : Op) : Bool := op.var.id == v.id

/-- What an operation answers, which only the end of a narrowing does, and what it leaves. -/
def run (b : Binder) : Op → Option Ty × Binder
  | push v type => (none, b.push v type)
  | pop v => b.take v

/-- The same for a stack alone. -/
def onStack (types : List Ty) : Op → Option Ty × List Ty
  | push _ type => (none, type :: types)
  | pop _ => (types.head?, types.tail)

end Op

/-- The narrowings behind operations. -/
def after (b : Binder) : List Op → Binder
  | [] => b
  | op :: ops => (op.run b).2.after ops

/-- The answers of those operations that are on a variable. -/
def answersOn (v : Var) (b : Binder) : List Op → List (Option Ty)
  | [] => []
  | op :: ops =>
    if op.isOn v then (op.run b).1 :: answersOn v (op.run b).2 ops else answersOn v (op.run b).2 ops

/-- A stack behind operations. -/
def stackAfter (types : List Ty) : List Op → List Ty
  | [] => types
  | op :: ops => stackAfter (op.onStack types).2 ops

/-- The answers of operations on a stack. -/
def stackAnswers (types : List Ty) : List Op → List (Option Ty)
  | [] => []
  | op :: ops => (op.onStack types).1 :: stackAnswers (op.onStack types).2 ops

/-! ### One operation -/

namespace Op

variable {b : Binder} {v : Var} {op : Op}

/-- An operation on a variable is one on its stack. -/
theorem run_of_isOn (on : op.isOn v = true) :
    (op.run b).1 = (op.onStack (b.stack v)).1 ∧
      (op.run b).2.stack v = (op.onStack (b.stack v)).2 := by
  have same : op.var.id = v.id := eq_of_beq on
  rw [← stack_congr same]
  cases op with
  | push w type => exact ⟨rfl, (stack_push b w v type).trans (if_pos same)⟩
  | pop w => exact ⟨b.take_fst w, (stack_pop b w v).trans (if_pos same)⟩

/-- Other variables do not see it. -/
theorem run_of_not_isOn (off : ¬ op.isOn v = true) : (op.run b).2.stack v = b.stack v := by
  have apart : ¬ op.var.id = v.id := fun same => off (beq_iff_eq.mpr same)
  cases op with
  | push w type => exact (stack_push b w v type).trans (if_neg apart)
  | pop w => exact (stack_pop b w v).trans (if_neg apart)

end Op

/-! ### Sequences of operations -/

section Sequences

variable {b : Binder} {v : Var}

theorem stack_after (ops : List Op) :
    (b.after ops).stack v = stackAfter (b.stack v) (ops.filter (Op.isOn v)) := by
  induction ops generalizing b with
  | nil => rfl
  | cons op ops ih =>
    rw [after, ih]
    by_cases on : op.isOn v = true
    · rw [List.filter_cons_of_pos on, stackAfter, (Op.run_of_isOn on).2]
    · rw [List.filter_cons_of_neg on, Op.run_of_not_isOn on]

/-- A variable that is narrowed was operated on. -/
theorem exists_op_of_depth_ne_zero {ops : List Op} (deep : (empty.after ops).depth v ≠ 0) :
    ∃ op ∈ ops, op.isOn v = true := by
  by_contra none
  have others : ops.filter (Op.isOn v) = [] :=
    List.filter_eq_nil_iff.mpr fun op listed on => none ⟨op, listed, on⟩
  rw [depth, stack_after, others, stack_empty] at deep
  exact deep rfl

theorem answersOn_eq (ops : List Op) :
    answersOn v b ops = stackAnswers (b.stack v) (ops.filter (Op.isOn v)) := by
  induction ops generalizing b with
  | nil => rfl
  | cons op ops ih =>
    rw [answersOn, ih]
    by_cases on : op.isOn v = true
    · obtain ⟨answer, left⟩ := Op.run_of_isOn (b := b) on
      rw [if_pos on, List.filter_cons_of_pos on, stackAnswers, answer, left]
    · rw [if_neg on, List.filter_cons_of_neg on, Op.run_of_not_isOn on]

end Sequences

/-! ### All variables together -/

section Total

/-- The number of narrowings of the variable with an id. -/
def depthOf (b : Binder) (id : VarId) : Nat := ((b.byId[id]?).getD []).length

variable {b : Binder}

theorem depthOf_ne_zero_iff {id : VarId} : b.depthOf id ≠ 0 ↔ id ∈ b.byId := by
  rw [depthOf, ne_eq, List.length_eq_zero_iff, Std.ExtTreeMap.mem_iff_isSome_getElem?]
  cases found : b.byId[id]? with
  | none => simp
  | some stack => simpa using b.ne_nil id stack found

theorem totalDepth_eq : b.totalDepth = (b.byId.keys.map b.depthOf).sum := by
  have depths : b.totalDepth = (b.byId.toList.map (·.2.length)).sum := List.foldr_map.symm
  rw [depths, ← Std.ExtTreeMap.map_fst_toList_eq_keys, List.map_map]
  congr 1
  refine List.map_congr_left fun p listed => ?_
  have found : b.byId[p.1]? = some p.2 := Std.ExtTreeMap.mem_toList_iff_getElem?_eq_some.mp listed
  rw [Function.comp_apply, depthOf, found]
  rfl

theorem sum_map_filter_ne_zero {α : Type} (f : α → Nat) (xs : List α) :
    ((xs.filter (f · ≠ 0)).map f).sum = (xs.map f).sum := by
  induction xs with
  | nil => rfl
  | cons x xs ih =>
    by_cases zero : f x = 0
    · simpa [zero] using ih
    · simpa [zero] using ih

/-- The depth of all is the sum over any variables among which are all that are narrowed. -/
theorem totalDepth_eq_sum {vs : List Var} (distinct : (vs.map (·.id)).Nodup)
    (covered : ∀ v, b.depth v ≠ 0 → v.id ∈ vs.map (·.id)) : b.totalDepth = (vs.map b.depth).sum := by
  have same : b.byId.keys.Perm ((vs.map (·.id)).filter (b.depthOf · ≠ 0)) := by
    refine (List.perm_ext_iff_of_nodup Std.ExtTreeMap.nodup_keys (distinct.filter _)).mpr fun id => ?_
    rw [Std.ExtTreeMap.mem_keys, ← depthOf_ne_zero_iff, List.mem_filter, decide_eq_true_iff]
    exact ⟨fun narrowed => ⟨covered ⟨id, "", "", none⟩ narrowed, narrowed⟩, And.right⟩
  have depths : vs.map b.depth = (vs.map (·.id)).map b.depthOf := by
    rw [List.map_map]
    rfl
  rw [totalDepth_eq, (same.map _).sum_nat, sum_map_filter_ne_zero, depths]

theorem isEmpty_iff : b.isEmpty = true ↔ ∀ v, b.depth v = 0 := by
  rw [isEmpty, Std.ExtTreeMap.isEmpty_iff]
  constructor
  · intro none v
    rw [depth, stack, none]
    rfl
  · intro flat
    refine Std.ExtTreeMap.eq_empty_iff_forall_not_mem.mpr fun id inside => ?_
    exact depthOf_ne_zero_iff.mpr inside (flat ⟨id, "", "", none⟩)

end Total

end Binder

/-- Whatever guards on however many variables are entered and left, and in whatever order: what is
answered about a variable is what a stack of its own answers, over which its own type lies, behind
the operations that are on it. Operations on other variables do not show, be their names the same. The
depth of all is the sum of the depths, and nothing is narrowed exactly if all of them are zero. -/
theorem narrowings_stack (ops : List Binder.Op) (vars : VarTypes) (v : Var) :
    let b := Binder.empty.after ops
    let own := ops.filter (Binder.Op.isOn v)
    Binder.empty.answersOn v ops = Binder.stackAnswers [] own ∧
    b.get? vars v = (Binder.stackAfter [] own).head?.or (vars.get? v) ∧
    b.depth v = (Binder.stackAfter [] own).length ∧
    (b.take v).1 = (Binder.stackAfter [] own).head? ∧
    (∀ op : Binder.Op, op.var.id ≠ v.id →
      (op.run b).2.get? vars v = b.get? vars v ∧ (op.run b).2.depth v = b.depth v ∧
        ((op.run b).2.take v).1 = (b.take v).1) ∧
    (∀ vs : List Var, (vs.map (·.id)).Nodup → (∀ w, b.depth w ≠ 0 → w.id ∈ vs.map (·.id)) →
      b.totalDepth = (vs.map b.depth).sum) ∧
    (b.isEmpty = true ↔ ∀ w, b.depth w = 0) := by
  intro b own
  have stack : b.stack v = Binder.stackAfter [] own := by
    rw [Binder.stack_after, Binder.stack_empty]
  refine ⟨?_, ?_, ?_, ?_, ?_, fun _ => Binder.totalDepth_eq_sum, Binder.isEmpty_iff⟩
  · rw [Binder.answersOn_eq, Binder.stack_empty]
  · rw [Binder.get?, Binder.narrowed?, stack]
  · rw [Binder.depth, stack]
  · rw [Binder.take_fst, Binder.narrowed?, stack]
  · intro op apart
    have kept : (op.run b).2.stack v = b.stack v :=
      Binder.Op.run_of_not_isOn fun on => apart (eq_of_beq on)
    simp only [Binder.get?, Binder.narrowed?, Binder.depth, Binder.take_fst, kept]
    exact ⟨trivial, trivial, trivial⟩

/-- Of two variables of one name the first is left before the second, and once more than it was
entered. -/
theorem namesakes_apart :
    let x : Var := ⟨0, "x", "x", none⟩
    let y : Var := ⟨1, "x", "x", none⟩
    let ops : List Binder.Op := [.push x .any, .push y .noneType, .pop x, .pop x]
    Binder.empty.answersOn x ops = [none, some .any, none] ∧
    (Binder.empty.after ops).get? .empty y = some .noneType ∧
    (Binder.empty.after ops).totalDepth = 1 := by
  intro x y ops
  obtain ⟨answers, -, flat, -⟩ := narrowings_stack ops .empty x
  obtain ⟨-, type, one, -, -, total, -⟩ := narrowings_stack ops .empty y
  refine ⟨answers, type, ?_⟩
  have narrowed (w : Var) (deep : (Binder.empty.after ops).depth w ≠ 0) : w.id ∈ [x, y].map (·.id) := by
    obtain ⟨op, listed, on⟩ := Binder.exists_op_of_depth_ne_zero deep
    rw [← eq_of_beq on]
    simp only [ops, List.mem_cons, List.not_mem_nil, or_false] at listed
    rcases listed with rfl | rfl | rfl | rfl <;> decide
  rw [total [x, y] (by decide) narrowed, List.map_cons, List.map_cons, flat, one]
  rfl

end Gradual
