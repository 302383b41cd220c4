import Gradual.Builtins
import Gradual.Proofs.Nodes

/-!
Builders: which of them there are, and that the ids in their modules are below the next one. All that
is done with a builder is put together from few operations, of which only one hands out an id.
-/

namespace Gradual

open Builder

/-- A builder that was made by the operations on builders; `made` are the expressions that it made,
from which alone other expressions and statements are put together. -/
inductive Builder.Built : List Expr → Builder → Prop
  | bare : Built [] .bare
  | setLine {made : List Expr} {b : Builder} (h : Built made b) (line : Nat) :
      Built made ((Builder.setLine line).run b).2
  | enterModule {made : List Expr} {b : Builder} (h : Built made b) (name : String) :
      Built made ((Builder.enterModule name).run b).2
  | define {made : List Expr} {b : Builder} (h : Built made b) (name : String) (symbol : Symbol) :
      Built made ((Builder.define name symbol).run b).2
  | newVar {made : List Expr} {b : Builder} (h : Built made b) (name fullName : String)
      (owner : Option ClassId) (type : Option Ty) :
      Built made ((Builder.newVar name fullName owner type).run b).2
  | newClass {made : List Expr} {b : Builder} (h : Built made b) (name : String)
      (typeVars : List String) (bases : List Instance) :
      Built made ((Builder.newClass name typeVars bases).run b).2
  | setAbstract {made : List Expr} {b : Builder} (h : Built made b) (c : ClassId) :
      Built made ((Builder.setAbstract c).run b).2
  | declare {made : List Expr} {b : Builder} (h : Built made b) (c : ClassId) (name : String)
      (symbol : Symbol) : Built made ((Builder.declare c name symbol).run b).2
  | provide {made : List Expr} {b : Builder} (h : Built made b) (object : Option ClassId)
      (builtins : Option Builtins) : Built made { b with object, builtins }
  | expr {made : List Expr} {b : Builder} (h : Built made b) (kind : ExprKind)
      (parts : ∀ e ∈ kind.inside, e ∈ made) :
      Built (((Builder.expr kind).run b).1 :: made) ((Builder.expr kind).run b).2
  | push {made : List Expr} {b : Builder} (h : Built made b) (s : Stmt)
      (parts : ∀ inner ∈ Block.stmts [s], ∀ e ∈ inner.exprs, e ∈ made) :
      Built made ((Builder.push s).run b).2

/-! ### Derived operations -/

/-- An operation that makes no expressions, and that the others make up. -/
def Builder.Declares {α : Type} (x : Build α) : Prop :=
  ∀ made b, Built made b → Built made (x.run b).2

namespace Builder.Declares

variable {α β : Type} {x : Build α} {f : α → Build β}

theorem pure {a : α} : Declares (Pure.pure a : Build α) := fun _ _ h => h

theorem get : Declares (MonadState.get : Build Builder) := fun _ _ h => h

theorem bind (first : Declares x) (next : ∀ a, Declares (f a)) : Declares (x >>= f) :=
  fun made b h => next _ made _ (first made b h)

theorem discard (h : Declares x) : Declares (discard x) := fun made b built => h made b built

theorem forM {items : List β} {g : β → Build PUnit} (h : ∀ item, Declares (g item)) :
    Declares (items.forM g) := by
  induction items with
  | nil => exact pure
  | cons item rest ih => exact (h item).bind fun _ => ih

theorem setLine {line : Nat} : Declares (Builder.setLine line) := fun _ _ h => h.setLine line

theorem enterModule {name : String} : Declares (Builder.enterModule name) := fun _ _ h =>
  h.enterModule name

theorem define {name : String} {symbol : Symbol} : Declares (Builder.define name symbol) :=
  fun _ _ h => h.define name symbol

theorem newVar {name fullName : String} {owner : Option ClassId} {type : Option Ty} :
    Declares (Builder.newVar name fullName owner type) := fun _ _ h =>
  h.newVar name fullName owner type

theorem newClass {name : String} {typeVars : List String} {bases : List Instance} :
    Declares (Builder.newClass name typeVars bases) := fun _ _ h => h.newClass name typeVars bases

theorem setAbstract {c : ClassId} : Declares (Builder.setAbstract c) := fun _ _ h =>
  h.setAbstract c

theorem declare {c : ClassId} {name : String} {symbol : Symbol} :
    Declares (Builder.declare c name symbol) := fun _ _ h => h.declare c name symbol

theorem bindName {owner : Option ClassId} {name : String} {symbol : Symbol} :
    Declares (Builder.bind owner name symbol) := by
  cases owner with
  | none => exact define
  | some c => exact declare

theorem localVar {name : String} {type : Option Ty} : Declares (Builder.localVar name type) :=
  newVar

theorem globalVar {name : String} {type : Option Ty} : Declares (Builder.globalVar name type) :=
  get.bind fun _ => newVar.bind fun _ => define.bind fun _ => pure

theorem classVar {c : ClassId} {name : String} {type : Option Ty} :
    Declares (Builder.classVar c name type) :=
  get.bind fun _ => newVar.bind fun _ => declare.bind fun _ => pure

theorem newPlainClass {name : String} {bases : List ClassId} :
    Declares (Builder.newPlainClass name bases) := get.bind fun _ => newClass

theorem declareMethod {c : ClassId} {name : String} {s : Signature} :
    Declares (Builder.declareMethod c name s) :=
  get.bind fun _ => declare.bind fun _ => pure

theorem declareOverloadedMethod {c : ClassId} {name : String} {items : List Signature} :
    Declares (Builder.declareOverloadedMethod c name items) :=
  get.bind fun _ => declare.bind fun _ => pure

theorem declareFunction {name : String} {s : Signature} :
    Declares (Builder.declareFunction name s) :=
  get.bind fun _ => define.bind fun _ => pure

theorem newFunction {owner : Option ClassId} {f : FuncSpec} :
    Declares (Builder.newFunction owner f) :=
  get.bind fun _ => bindName.bind fun _ => pure

theorem stmt {kind : StmtKind} : Declares (Builder.stmt kind) := get.bind fun _ => pure

theorem overloaded {items : List FuncDef} : Declares (Builder.overloaded items) :=
  get.bind fun _ => bindName.bind fun _ => stmt

theorem decorated {func : FuncDef} {decorators : List Expr} :
    Declares (Builder.decorated func decorators) :=
  newVar.bind fun _ => bindName.bind fun _ => stmt.bind fun _ => pure

end Builder.Declares

/-! ### What the language provides -/

namespace Builtins

open Builder.Declares

theorem declareMethods_declares {c : ClassId} {s : Signature} {names : List String} :
    Declares (declareMethods c s names) := forM fun _ => declareMethod.discard

theorem declareOrder_declares {c : ClassId} {self bool : Ty} :
    Declares (declareOrder c self bool) := declareMethods_declares

theorem provideObject_declares {object : Option ClassId} :
    Declares (modify fun b => { b with object } : Build Unit) := fun _ b h =>
  h.provide object b.builtins

theorem provideBuiltins_declares {builtins : Option Builtins} :
    Declares (modify fun b => { b with builtins } : Build Unit) := fun _ b h =>
  h.provide b.object builtins

theorem declareClasses_declares : Declares declareClasses := by
  unfold declareClasses
  -- Reducibly, as otherwise every operation would be taken for one of the others and unfolded.
  repeat' with_reducible first
    | refine bind ?_ fun _ => ?_
    | exact pure | exact get | exact newPlainClass | exact newClass | exact setAbstract
    | exact provideObject_declares

theorem declareNumbers_declares {c : Builtins} {object int float bool : Ty} :
    Declares (declareNumbers c object int float bool) := by
  unfold declareNumbers
  repeat' with_reducible first
    | refine bind ?_ fun _ => ?_
    | exact declareMethods_declares | exact declareOrder_declares

theorem declareText_declares {c : ClassId} {self int slice bool : Ty} :
    Declares (declareText c self int slice bool) := by
  unfold declareText
  repeat' with_reducible first
    | refine bind ?_ fun _ => ?_
    | exact declareMethods_declares | exact declareOrder_declares
    | exact declareOverloadedMethod.discard

theorem declareContainers_declares {c : Builtins} {object int slice bool : Ty} :
    Declares (declareContainers c object int slice bool) := by
  unfold declareContainers
  repeat' with_reducible first
    | refine bind ?_ fun _ => ?_
    | exact get | exact declareMethods_declares | exact declareOverloadedMethod.discard

theorem install_declares : Declares install := by
  unfold install
  repeat' with_reducible first
    | refine bind ?_ fun _ => ?_
    | exact enterModule | exact get | exact declareClasses_declares | exact declareNumbers_declares
    | exact declareText_declares | exact declareContainers_declares | exact declareMethods_declares
    | exact declareFunction.discard | exact globalVar.discard | exact provideBuiltins_declares

end Builtins

namespace Builder.Built

/-- The builder that programs are begun with. -/
theorem new : Built [] .new :=
  (Builtins.install_declares.bind fun _ => .enterModule) [] .bare .bare

end Builder.Built

/-! ### Ids -/

theorem Block.nodes_append (b b' : Block) : Block.nodes (b ++ b') = b.nodes ++ Block.nodes b' := by
  induction b with
  | nil => rfl
  | cons s rest ih =>
    rw [List.cons_append, Block.nodes_cons, ih, ← List.append_assoc, ← Block.nodes_cons]

/-- The ids of what was made and of what is in the modules are below the next one. -/
structure Builder.Numbered (made : List Expr) (b : Builder) : Prop where
  made : ∀ e ∈ made, e.id < b.nextNode
  modules : ∀ (name : String) (m : Module), b.modules[name]? = some m →
    ∀ id ∈ m.body.nodes, id < b.nextNode

namespace Builder.Numbered

variable {made : List Expr} {b b' : Builder}

theorem of_modules_eq (h : Numbered made b) (modules : b'.modules = b.modules)
    (nextNode : b'.nextNode = b.nextNode) : Numbered made b' where
  made := by rw [nextNode]; exact h.made
  modules := by rw [modules, nextNode]; exact h.modules

theorem enterModule (h : Numbered made b) (name : String) :
    Numbered made ((Builder.enterModule name).run b).2 := by
  by_cases known : b.modules.contains name = true
  · refine h.of_modules_eq ?_ rfl
    exact if_pos known
  · refine ⟨h.made, fun other m found => ?_⟩
    have entered : ((Builder.enterModule name).run b).2.modules =
        b.modules.insert name ⟨name, "/".intercalate (name.splitOn ".") ++ ".py", [], ∅⟩ :=
      if_neg known
    rw [entered, Std.TreeMap.getElem?_insert] at found
    split at found
    · cases found
      exact fun _ own => nomatch own
    · exact h.modules other m found

theorem modifyModule (h : Numbered made b) {f : Module → Module}
    (kept : ∀ m : Module, ∀ id ∈ (f m).body.nodes, id ∈ m.body.nodes ∨ id < b.nextNode) :
    Numbered made ((Builder.modifyModule f).run b).2 := by
  refine ⟨h.made, fun name m found id own => ?_⟩
  have modified : ((Builder.modifyModule f).run b).2.modules = b.modules.modify b.current f := rfl
  rw [modified, Std.TreeMap.getElem?_modify] at found
  split at found
  · obtain ⟨before, known, rfl⟩ := Option.map_eq_some_iff.mp found
    rcases kept before id own with old | new
    · exact h.modules _ before known id old
    · exact new
  · exact h.modules name m found id own

theorem define (h : Numbered made b) (name : String) (symbol : Symbol) :
    Numbered made ((Builder.define name symbol).run b).2 :=
  h.modifyModule fun _ _ own => .inl own

theorem push (h : Numbered made b) (s : Stmt)
    (parts : ∀ inner ∈ Block.stmts [s], ∀ e ∈ inner.exprs, e ∈ made) :
    Numbered made ((Builder.push s).run b).2 := by
  refine h.modifyModule fun m id own => ?_
  rw [Block.nodes_append, List.mem_append] at own
  refine own.imp_right fun inside => ?_
  rw [Block.nodes_eq] at inside
  obtain ⟨inner, listed, inside⟩ := List.mem_flatMap.mp inside
  rw [Stmt.nodes_eq] at inside
  obtain ⟨e, part, rfl⟩ := List.mem_map.mp inside
  exact h.made e (parts inner listed e part)

theorem expr (h : Numbered made b) (kind : ExprKind) :
    Numbered (((Builder.expr kind).run b).1 :: made) ((Builder.expr kind).run b).2 where
  made := by
    rw [List.forall_mem_cons]
    exact ⟨Nat.lt_succ_self _, fun e member => Nat.lt_succ_of_lt (h.made e member)⟩
  modules name m found id own := Nat.lt_succ_of_lt (h.modules name m found id own)

end Builder.Numbered

theorem Builder.Built.numbered {made : List Expr} {b : Builder} (h : Built made b) :
    Numbered made b := by
  induction h with
  | bare =>
    have empty : Numbered [] (⟨∅, .empty, .empty, 0, "", 1, none, none⟩ : Builder) := by
      refine ⟨fun _ member => (nomatch member), fun name m found => ?_⟩
      exact nomatch found
    exact empty.enterModule builtinsName
  | enterModule _ name ih => exact ih.enterModule name
  | define _ name symbol ih => exact ih.define name symbol
  -- A class is bound to its name like any symbol; beside that it is kept in the class table.
  | newClass _ name typeVars bases ih =>
    exact (ih.define name (.cls _)).of_modules_eq rfl rfl
  | expr _ kind _ ih => exact ih.expr kind
  | push _ s parts ih => exact ih.push s parts
  | setLine _ _ ih | newVar _ _ _ _ _ ih | setAbstract _ _ ih | declare _ _ _ _ ih
  | provide _ _ _ ih => exact ih.of_modules_eq rfl rfl

end Gradual
