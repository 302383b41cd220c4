import Gradual.Proofs.Builders
import Gradual.Proofs.Covering
import Gradual.Proofs.FailedJoins

/-!
The items of lists and sets that are written out. Their types are joined one after the other, and each
join may be taken for what came before only as far as it is static: an item with dynamic type
arguments fits what is before it and what comes after it, which need not fit together.
-/

namespace Gradual

open TypeOrder

variable {voc : Vocabulary}

/-- The join of types one after the other is above each, if all but the last are loose. -/
theorem above_foldl_join (coh : voc.classes.Coherent) {ts : List Ty} {acc : Ty} (hacc : acc.Loose voc)
    (regular : ∀ t ∈ ts, t.Regular voc false) (loose : ∀ t ∈ ts.dropLast, t.Loose voc) :
    (∀ x, x.Regular voc false → voc.order.isSubtype x acc = true →
      voc.order.isSubtype x (ts.foldl voc.order.join acc) = true) ∧
    ∀ t ∈ ts, voc.order.isSubtype t (ts.foldl voc.order.join acc) = true := by
  induction ts generalizing acc with
  | nil => exact ⟨fun _ _ h => h, List.forall_mem_nil _⟩
  | cons t ts ih =>
    obtain ⟨first, others⟩ := List.forall_mem_cons.mp regular
    have covers := covers_join coh hacc first
    rw [List.foldl_cons, List.forall_mem_cons]
    cases ts with
    | nil => exact ⟨covers.keeps, covers.above, List.forall_mem_nil _⟩
    | cons u us =>
      rw [List.dropLast_cons_cons, List.forall_mem_cons] at loose
      obtain ⟨keeps, above⟩ := ih (covers.loose loose.1) others loose.2
      exact ⟨fun x hx below => keeps x hx (covers.keeps x hx below), keeps t first covers.above, above⟩

namespace Check

variable {env : Env} {s : State}

/-- The types of items, where none is expected. -/
def acceptItems (items : List (Operand × Span)) : Check (List Ty) :=
  items.mapM fun item => item.1.accept none

theorem outcome_joinItems (items : List (Operand × Span)) :
    (joinItems items).outcome env s =
      let types := (acceptItems items).outcome env s
      (types.1.foldl env.order.join .noneType, types.2) := rfl

/-- An instance of a named class, or the name if there is no such class. -/
theorem named_eq (fullName : String) (args : List Ty) :
    ((named fullName args).outcome env s).1 = .unbound fullName ∨
      ∃ c, ((named fullName args).outcome env s).1 = .inst c fullName args := by
  unfold named
  simp only [outcome_bind, outcome_read, outcome_get]
  split
  · exact .inr ⟨_, rfl⟩
  · exact .inl rfl

/-- The item type of a list or set: the join of the types of its items, or the dynamic type if there is
none. -/
def joinedItem (env : Env) (types : List Ty) : Ty :=
  let joined := types.foldl env.order.join .noneType
  if joined.isError then .any else joined

theorem sequenceDisplay_eq {display : Display} {items : List (Operand × Span)}
    (free : ((expectedItem? display.className).outcome env s).1 = none) :
    let item := joinedItem env ((acceptItems items).outcome env s).1
    let type := ((sequenceDisplay display items).outcome env s).1
    type = .unbound display.className ∨ ∃ c, type = .inst c display.className [item] := by
  have expects : (expectedItem? display.className).outcome env s = (none, s) :=
    Prod.ext free (expectedArgs?_state display.className 1)
  intro item type
  have made : type = ((sequenceDisplay display items).outcome env s).1 := rfl
  unfold sequenceDisplay at made
  rw [outcome_bind, expects] at made
  dsimp only at made
  rw [outcome_bind, outcome_joinItems] at made
  dsimp only at made
  by_cases failed : (((acceptItems items).outcome env s).1.foldl env.order.join .noneType).isError = true
  · have same : item = .any := if_pos failed
    rw [if_pos failed] at made
    rw [same, made]
    cases items.head? with
    | none => exact named_eq display.className [.any]
    | some first => exact named_eq display.className [.any]
  · have same : item = ((acceptItems items).outcome env s).1.foldl env.order.join .noneType :=
      if_neg failed
    rw [if_neg failed] at made
    rw [same, made]
    exact named_eq display.className _

end Check

/-! ### Displays -/

/-- Over coherent classes, each item of a list or set that is written out where no item type is
expected fits the item type of the result, if all items but the last have dynamic types only at the top
or as items of tuples. -/
theorem display_items_fit (program : Program) (options : Options) (constructs : Bool)
    (bound : Int → Ty) (coherent : program.classes.Coherent) (s : State) (display : Display)
    (items : List (Operand × Span)) :
    let env : Env := .ofProgram program options
    let voc : Vocabulary := ⟨program.classes, constructs, bound⟩
    let types := ((Check.acceptItems items).outcome env s).1
    let type := ((Check.sequenceDisplay display items).outcome env s).1
    ((Check.expectedItem? display.className).outcome env s).1 = none →
    (∀ t ∈ types, t.Regular voc false) → (∀ t ∈ types.dropLast, t.Loose voc) →
    let item := Check.joinedItem env types
    (∀ t ∈ types, env.order.isSubtype t item = true) ∧
      (type = .unbound display.className ∨ ∃ c, type = .inst c display.className [item]) := by
  intro env voc types type free regular loose item
  refine ⟨fun t member => ?_, Check.sequenceDisplay_eq free⟩
  have coh : voc.classes.Coherent := coherent
  obtain ⟨-, above⟩ := above_foldl_join coh (.static .noneType) regular loose
  simp only [item, Check.joinedItem]
  split
  · exact coh.decides.le_dynamic rfl
  · exact above t member

/-- A builder with the classes that types fall back to, lists and three classes of shapes. -/
def Builder.shapes : Builder :=
  let declared : Build Unit := do
    let object ← newClass "object" [] []
    let base : List Instance := [⟨object, "builtins.object", []⟩]
    discard <| newClass "type" [] base
    discard <| newClass "tuple" [] base
    discard <| newClass "function" [] base
    discard <| newClass "list" ["T"] base
    let shape ← newClass "Shape" [] base
    discard <| newClass "Circle" [] [⟨shape, "builtins.Shape", []⟩]
    discard <| newClass "Square" [] [⟨shape, "builtins.Shape", []⟩]
  (declared.run .bare).2

theorem Builder.shapes_built : Built [] .shapes :=
  (Declares.newClass.bind fun _ => Declares.newClass.discard.bind fun _ =>
    Declares.newClass.discard.bind fun _ => Declares.newClass.discard.bind fun _ =>
      Declares.newClass.discard.bind fun _ => Declares.newClass.bind fun _ =>
        Declares.newClass.discard.bind fun _ => Declares.newClass.discard) [] .bare .bare

theorem Builder.shapes_coherent : shapes.classes.Coherent := by
  have plain : ∀ c < shapes.classes.size, ∀ base ∈ shapes.classes.bases c,
      base.cls < shapes.classes.size ∧ base.args.length = shapes.classes.arity base.cls ∧
        base.args.length = 0 := by decide +kernel
  refine .of_single shapes_built.linearized (by decide +kernel) (fun c known base member => ?_)
    (by decide +kernel) ⟨0, by decide +kernel, by decide +kernel, by decide +kernel, by decide +kernel⟩
    (by decide +kernel)
  obtain ⟨inside, length, none⟩ := plain c known base member
  refine .inst inside length ?_
  rw [List.length_eq_zero_iff.mp none]
  exact List.forall_mem_nil _

/-- An instance of a class, over these classes. -/
def Ty.shape (c : ClassId) (args : List Ty) : Ty := (Builder.shapes.classes.instanceOf c args).toTy

/-- Lists of circles, lists of squares and lists of something dynamic, in one list. -/
theorem shape_lists_fit :
    let program := Builder.shapes.toProgram
    let env : Env := .ofProgram program default
    let types : List Ty := [.shape 4 [.shape 6 []], .shape 4 [.shape 7 []], .shape 4 [.any]]
    let items : List (Operand × Span) := types.map fun t => (.known t, .atLine 1)
    let type := ((Check.sequenceDisplay .list items).outcome env (.initial program)).1
    ∃ item, (type = .unbound "builtins.list" ∨ ∃ c, type = .inst c "builtins.list" [item]) ∧
      item.isSame (.shape 4 [.any]) = true ∧ ∀ t ∈ types, env.order.isSubtype t item = true := by
  intro program env types items type
  let voc : Vocabulary := ⟨program.classes, false, fun _ => .any⟩
  have list {static : Bool} (item : Ty) (regular : item.Regular voc static) :
      (Ty.shape 4 [item]).Regular voc static :=
    .inst (show 4 < voc.classes.size by decide +kernel) (show 1 = voc.classes.arity 4 by decide +kernel)
      (List.forall_mem_singleton.mpr regular)
  have circle : (Ty.shape 6 []).Regular voc true :=
    .inst (show 6 < voc.classes.size by decide +kernel) (show 0 = voc.classes.arity 6 by decide +kernel)
      (List.forall_mem_nil _)
  have square : (Ty.shape 7 []).Regular voc true :=
    .inst (show 7 < voc.classes.size by decide +kernel) (show 0 = voc.classes.arity 7 by decide +kernel)
      (List.forall_mem_nil _)
  have regular : ∀ t ∈ types, t.Regular voc false := by
    simp only [types, List.forall_mem_cons]
    exact ⟨list _ circle.loosen, list _ square.loosen, list _ (.dynamic rfl), List.forall_mem_nil _⟩
  have loose : ∀ t ∈ types.dropLast, t.Loose voc := by
    simp only [types, List.dropLast_cons_cons, List.dropLast_singleton, List.forall_mem_cons]
    exact ⟨.static (list _ circle), .static (list _ square), List.forall_mem_nil _⟩
  obtain ⟨fits, made⟩ := display_items_fit program default false (fun _ => .any)
    Builder.shapes_coherent (.initial program) .list items rfl regular loose
  exact ⟨_, made, by decide +kernel, fits⟩

/-- What is dynamic in the middle fits on both sides, but what is before it and what comes after it do
not fit together. -/
example :
    let env : Env := .ofProgram Builder.shapes.toProgram default
    let item := Check.joinedItem env
      [.shape 4 [.shape 6 []], .shape 4 [.any], .shape 4 [.shape 7 []]]
    item.isSame (.shape 4 [.shape 7 []]) = true ∧
      env.order.isSubtype (.shape 4 [.shape 6 []]) item = false := by
  decide +kernel

end Gradual
