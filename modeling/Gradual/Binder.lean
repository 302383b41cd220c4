import Gradual.Symbol
import Std.Data.ExtTreeMap

/-!
Narrowed types of variables. Guards are entered and left in nested order, but each variable has a
stack of its own: what is done to one variable does not show on another.
-/

namespace Gradual

/-- The narrowings in force: for each variable that is narrowed, by its id, the types that it is
narrowed to, the innermost first. A variable whose last narrowing has ended has no entry. -/
structure Binder where
  byId : Std.ExtTreeMap VarId (List Ty)
  ne_nil : ∀ (id : VarId) (stack : List Ty), byId[id]? = some stack → stack ≠ []

namespace Binder

def empty : Binder := ⟨∅, by simp⟩

instance : Inhabited Binder := ⟨empty⟩

/-- The types that a variable is narrowed to, the innermost first. -/
def stack (b : Binder) (v : Var) : List Ty := (b.byId[v.id]?).getD []

/-- Gives a variable another stack. One that is empty is not kept. -/
def withStack (b : Binder) (v : Var) (stack : List Ty) : Binder where
  byId := if stack.isEmpty then b.byId.erase v.id else b.byId.insert v.id stack
  ne_nil id other found := by
    split at found
    · rw [Std.ExtTreeMap.getElem?_erase] at found
      split at found
      · cases found
      · exact b.ne_nil id other found
    · rename_i kept
      rw [Std.ExtTreeMap.getElem?_insert] at found
      split at found
      · cases found
        simpa using kept
      · exact b.ne_nil id other found

/-- Narrows a variable to a type. -/
def push (b : Binder) (v : Var) (type : Ty) : Binder := b.withStack v (type :: b.stack v)

/-- Ends the innermost narrowing of a variable, if there is one, and says to what type it was. -/
def take (b : Binder) (v : Var) : Option Ty × Binder :=
  match b.stack v with
  | [] => (none, b)
  | type :: rest => (some type, b.withStack v rest)

/-- Ends the innermost narrowing of a variable, if there is one. -/
def pop (b : Binder) (v : Var) : Binder := (b.take v).2

/-- The innermost type that a variable is narrowed to. -/
def narrowed? (b : Binder) (v : Var) : Option Ty := (b.stack v).head?

/-- The type of a variable: the innermost narrowed one, or its own. -/
def get? (b : Binder) (vars : VarTypes) (v : Var) : Option Ty := (b.narrowed? v).or (vars.get? v)

def depth (b : Binder) (v : Var) : Nat := (b.stack v).length

def totalDepth (b : Binder) : Nat := b.byId.toList.foldr (fun p total => p.2.length + total) 0

def isEmpty (b : Binder) : Bool := b.byId.isEmpty

theorem ext_stack {b b' : Binder} (h : ∀ v, b.stack v = b'.stack v) : b = b' := by
  have same : b.byId = b'.byId := by
    apply Std.ExtTreeMap.ext_getElem?
    intro id
    have equal := h ⟨id, "", "", none⟩
    simp only [stack] at equal
    cases first : b.byId[id]? with
    | none =>
      cases second : b'.byId[id]? with
      | none => rfl
      | some other => exact absurd (by simpa [first, second] using equal.symm) (b'.ne_nil id other second)
    | some own =>
      cases second : b'.byId[id]? with
      | none => exact absurd (by simpa [first, second] using equal) (b.ne_nil id own first)
      | some other => simpa [first, second] using equal
  cases b
  cases b'
  cases same
  rfl

theorem stack_congr {b : Binder} {v w : Var} (same : v.id = w.id) : b.stack v = b.stack w := by
  rw [stack, stack, same]

@[simp] theorem stack_empty (v : Var) : empty.stack v = [] := by simp [stack, empty]

theorem stack_withStack (b : Binder) (v w : Var) (types : List Ty) :
    (b.withStack v types).stack w = if v.id = w.id then types else b.stack w := by
  cases types <;> by_cases same : v.id = w.id <;>
    simp [stack, withStack, Std.ExtTreeMap.getElem?_erase, Std.ExtTreeMap.getElem?_insert, same]

theorem stack_push (b : Binder) (v w : Var) (type : Ty) :
    (b.push v type).stack w = if v.id = w.id then type :: b.stack v else b.stack w :=
  stack_withStack b v w _

theorem stack_pop (b : Binder) (v w : Var) :
    (b.pop v).stack w = if v.id = w.id then (b.stack v).tail else b.stack w := by
  rw [pop, take]
  cases own : b.stack v with
  | nil =>
    by_cases same : v.id = w.id
    · rw [if_pos same, ← stack_congr same, own, List.tail_nil]
    · rw [if_neg same]
  | cons type rest => exact stack_withStack b v w rest

/-- What is taken off is the innermost type. -/
theorem take_fst (b : Binder) (v : Var) : (b.take v).1 = b.narrowed? v := by
  rw [take, narrowed?]
  cases b.stack v <;> rfl

@[simp] theorem narrowed?_push (b : Binder) (v : Var) (type : Ty) :
    (b.push v type).narrowed? v = some type := by
  rw [narrowed?, stack_push, if_pos rfl, List.head?_cons]

@[simp] theorem pop_push (b : Binder) (v : Var) (type : Ty) : (b.push v type).pop v = b := by
  apply ext_stack
  intro w
  rw [stack_pop, stack_push, stack_push, if_pos rfl, List.tail_cons]
  by_cases same : v.id = w.id
  · rw [if_pos same, stack_congr same]
  · rw [if_neg same, if_neg same]

end Binder
end Gradual
