import Gradual.Proofs.Builders
import Gradual.Proofs.Demands
import Gradual.Proofs.LookupOrder

/-!
Attributes that a class does not declare itself. Looked up behind the class, as `super` does, or
along its whole lookup order, as an instance does, they are found in the same place, and seen
through the same type arguments they have the same type.
-/

namespace Gradual

/-! ### Class tables -/

/-- A variable or a function, and not a class, a module or a type variable. -/
def Symbol.IsAttribute : Symbol → Prop
  | .var _ | .func _ => True
  | .cls _ | .module _ | .typeVar _ => False

/-- Each class comes first in its lookup order, and its members are variables and functions. -/
structure ClassTable.WellFormed (t : ClassTable) : Prop where
  front : ∀ c, t.mro c = [] ∨ ∃ rest, t.mro c = c :: rest
  members : ∀ c name symbol, t.own? c name = some symbol → symbol.IsAttribute

namespace ClassTable.WellFormed

variable {t : ClassTable} {c : ClassId}

theorem own?_of_le {name : String} (outside : t.size ≤ c) : t.own? c name = none := by
  rw [own?, info_of_le outside]
  exact Std.TreeMap.getElem?_emptyc

theorem empty : ClassTable.empty.WellFormed where
  front _ := .inl rfl
  members c name symbol own := by
    rw [own?_of_le (Nat.zero_le c)] at own
    cases own

theorem push (h : t.WellFormed) {i : ClassInfo} (front : ∃ rest, i.mro = t.size :: rest)
    (names : i.names = ∅) : (t.push i).WellFormed where
  front c := by
    rcases Nat.lt_trichotomy c t.size with old | rfl | outside
    · rw [mro, info_push_of_lt old]
      exact h.front c
    · rw [mro, info_push_self]
      exact .inr front
    · exact .inl (mro_of_le (by rwa [size_push]))
  members c name symbol own := by
    rcases Nat.lt_trichotomy c t.size with old | rfl | outside
    · rw [own?, info_push_of_lt old] at own
      exact h.members c name symbol own
    · rw [own?, info_push_self, names, Std.TreeMap.getElem?_emptyc] at own
      cases own
    · rw [own?_of_le (by rwa [size_push])] at own
      cases own

theorem modify (h : t.WellFormed) {f : ClassInfo → ClassInfo} (mro : ∀ i, (f i).mro = i.mro)
    (names : ∀ (i : ClassInfo) (name : String) (symbol : Symbol), (f i).names[name]? = some symbol →
      i.names[name]? = some symbol ∨ symbol.IsAttribute) : (t.modify c f).WellFormed where
  front d := by
    rw [mro_modify mro]
    exact h.front d
  members d name symbol own := by
    rw [own?, info_modify] at own
    split at own
    · rcases names _ name symbol own with old | new
      · exact h.members d name symbol old
      · exact new
    · exact h.members d name symbol own

theorem declare (h : t.WellFormed) (name : String) {symbol : Symbol} (member : symbol.IsAttribute) :
    (t.declare c name symbol).WellFormed := by
  refine h.modify (fun _ => rfl) fun i name' symbol' found => ?_
  rw [Std.TreeMap.getElem?_insert] at found
  split at found
  · cases found
    exact .inr member
  · exact .inl found

end ClassTable.WellFormed

/-! ### What programs are written with -/

namespace Builder

/-- An operation that leaves class tables well-formed. -/
def Furnishes {α : Type} (x : Build α) : Prop :=
  ∀ b, b.classes.WellFormed → (x.run b).2.classes.WellFormed

namespace Furnishes

variable {α β : Type} {x : Build α} {f : α → Build β}

theorem pure {a : α} : Furnishes (Pure.pure a : Build α) := fun _ h => h

theorem get : Furnishes (MonadState.get : Build Builder) := fun _ h => h

theorem bind (first : Furnishes x) (next : ∀ a, Furnishes (f a)) : Furnishes (x >>= f) :=
  fun b h => next _ _ (first b h)

theorem discard (h : Furnishes x) : Furnishes (discard x) := fun b formed => h b formed

theorem forM {items : List β} {g : β → Build PUnit} (h : ∀ item, Furnishes (g item)) :
    Furnishes (items.forM g) := by
  induction items with
  | nil => exact pure
  | cons item rest ih => exact (h item).bind fun _ => ih

theorem setLine {line : Nat} : Furnishes (Builder.setLine line) := fun _ h => h

theorem enterModule {name : String} : Furnishes (Builder.enterModule name) := fun _ h => h

theorem define {name : String} {symbol : Symbol} : Furnishes (Builder.define name symbol) :=
  fun _ h => h

theorem push {s : Stmt} : Furnishes (Builder.push s) := fun _ h => h

theorem expr {kind : ExprKind} : Furnishes (Builder.expr kind) := fun _ h => h

theorem stmt {kind : StmtKind} : Furnishes (Builder.stmt kind) := fun _ h => h

theorem newVar {name fullName : String} {owner : Option ClassId} {type : Option Ty} :
    Furnishes (Builder.newVar name fullName owner type) := fun _ h => h

theorem newClass {name : String} {typeVars : List String} {bases : List Instance} :
    Furnishes (Builder.newClass name typeVars bases) := fun _ h => h.push ⟨_, rfl⟩ rfl

theorem newPlainClass {name : String} {bases : List ClassId} :
    Furnishes (Builder.newPlainClass name bases) := get.bind fun _ => newClass

theorem setAbstract {c : ClassId} : Furnishes (Builder.setAbstract c) := fun _ h =>
  h.modify (fun _ => rfl) fun _ _ _ => .inl

theorem bindName {owner : Option ClassId} {name : String} {symbol : Symbol}
    (member : symbol.IsAttribute) : Furnishes (Builder.bind owner name symbol) := by
  cases owner with
  | none => exact define
  | some c => exact fun _ h => h.declare name member

theorem declareVar {c : ClassId} {name : String} {v : Var} :
    Furnishes (Builder.declare c name (.var v)) := fun _ h => h.declare name trivial

theorem declareFunc {c : ClassId} {name : String} {f : FunctionSymbol} :
    Furnishes (Builder.declare c name (.func f)) := fun _ h => h.declare name trivial

theorem bindVar {owner : Option ClassId} {name : String} {v : Var} :
    Furnishes (Builder.bind owner name (.var v)) := by
  cases owner with
  | none => exact define
  | some c => exact declareVar

theorem bindFunc {owner : Option ClassId} {name : String} {f : FunctionSymbol} :
    Furnishes (Builder.bind owner name (.func f)) := by
  cases owner with
  | none => exact define
  | some c => exact declareFunc

theorem globalVar {name : String} {type : Option Ty} : Furnishes (Builder.globalVar name type) :=
  get.bind fun _ => newVar.bind fun _ => define.bind fun _ => pure

theorem classVar {c : ClassId} {name : String} {type : Option Ty} :
    Furnishes (Builder.classVar c name type) :=
  get.bind fun _ => newVar.bind fun _ => declareVar.bind fun _ => pure

theorem declareMethod {c : ClassId} {name : String} {s : Signature} :
    Furnishes (Builder.declareMethod c name s) :=
  get.bind fun _ => declareFunc.bind fun _ => pure

theorem declareOverloadedMethod {c : ClassId} {name : String} {items : List Signature} :
    Furnishes (Builder.declareOverloadedMethod c name items) :=
  get.bind fun _ => declareFunc.bind fun _ => pure

theorem declareFunction {name : String} {s : Signature} :
    Furnishes (Builder.declareFunction name s) :=
  get.bind fun _ => define.bind fun _ => pure

theorem newFunction {owner : Option ClassId} {f : FuncSpec} :
    Furnishes (Builder.newFunction owner f) :=
  get.bind fun _ => bindFunc.bind fun _ => pure

theorem overloaded {items : List FuncDef} : Furnishes (Builder.overloaded items) :=
  get.bind fun _ => bindFunc.bind fun _ => stmt

theorem decorated {func : FuncDef} {decorators : List Expr} :
    Furnishes (Builder.decorated func decorators) :=
  newVar.bind fun _ => bindVar.bind fun _ => stmt.bind fun _ => pure

open Builtins

theorem declareMethods {c : ClassId} {s : Signature} {names : List String} :
    Furnishes (declareMethods c s names) := forM fun _ => declareMethod.discard

theorem declareClasses : Furnishes declareClasses := by
  have provide {object : Option ClassId} :
      Furnishes (modify fun b => { b with object } : Build Unit) := fun _ h => h
  unfold Builtins.declareClasses
  -- Reducibly, as otherwise every operation would be taken for one of the others and unfolded.
  repeat' with_reducible first
    | refine bind ?_ fun _ => ?_
    | exact pure | exact get | exact newPlainClass | exact newClass | exact setAbstract
    | exact provide

theorem declareNumbers {c : Builtins} {object int float bool : Ty} :
    Furnishes (declareNumbers c object int float bool) := by
  unfold Builtins.declareNumbers declareOrder
  repeat' with_reducible first
    | refine bind ?_ fun _ => ?_
    | exact declareMethods

theorem declareText {c : ClassId} {self int slice bool : Ty} :
    Furnishes (declareText c self int slice bool) := by
  unfold Builtins.declareText declareOrder
  repeat' with_reducible first
    | refine bind ?_ fun _ => ?_
    | exact declareMethods | exact declareOverloadedMethod.discard

theorem declareContainers {c : Builtins} {object int slice bool : Ty} :
    Furnishes (declareContainers c object int slice bool) := by
  unfold Builtins.declareContainers
  repeat' with_reducible first
    | refine bind ?_ fun _ => ?_
    | exact get | exact declareMethods | exact declareOverloadedMethod.discard

theorem install : Furnishes install := by
  have provide {builtins : Option Builtins} :
      Furnishes (modify fun b => { b with builtins } : Build Unit) := fun _ h => h
  unfold Builtins.install
  repeat' with_reducible first
    | refine bind ?_ fun _ => ?_
    | exact enterModule | exact get | exact declareClasses | exact declareNumbers
    | exact declareText | exact declareContainers | exact declareMethods
    | exact declareFunction.discard | exact globalVar.discard | exact provide

end Furnishes

/-- What programs are written with: some operations, one after the other. -/
inductive Offered : {α : Type} → Build α → Prop
  | pure {α : Type} (a : α) : Offered (Pure.pure a : Build α)
  | bind {α β : Type} {x : Build α} {f : α → Build β} (first : Offered x)
      (next : ∀ a, Offered (f a)) : Offered (x >>= f)
  | setLine (line : Nat) : Offered (setLine line)
  | enterModule (name : String) : Offered (enterModule name)
  | push (s : Stmt) : Offered (push s)
  | define (name : String) (symbol : Symbol) : Offered (define name symbol)
  | newClass (name : String) (typeVars : List String) (bases : List Instance) :
      Offered (newClass name typeVars bases)
  | newPlainClass (name : String) (bases : List ClassId) : Offered (newPlainClass name bases)
  | setAbstract (c : ClassId) : Offered (setAbstract c)
  | localVar (name : String) (type : Option Ty) : Offered (localVar name type)
  | globalVar (name : String) (type : Option Ty) : Offered (globalVar name type)
  | classVar (c : ClassId) (name : String) (type : Option Ty) : Offered (classVar c name type)
  | declareMethod (c : ClassId) (name : String) (s : Signature) : Offered (declareMethod c name s)
  | declareOverloadedMethod (c : ClassId) (name : String) (items : List Signature) :
      Offered (declareOverloadedMethod c name items)
  | declareFunction (name : String) (s : Signature) : Offered (declareFunction name s)
  | newFunction (owner : Option ClassId) (f : FuncSpec) : Offered (newFunction owner f)
  | overloaded (items : List FuncDef) : Offered (overloaded items)
  | decorated (func : FuncDef) (decorators : List Expr) : Offered (decorated func decorators)
  | expr (kind : ExprKind) : Offered (expr kind)
  | stmt (kind : StmtKind) : Offered (stmt kind)

theorem Offered.furnishes {α : Type} {x : Build α} (offered : Offered x) : Furnishes x := by
  induction offered with
  | pure a => exact .pure
  | bind _ _ ih ih' => exact ih.bind ih'
  | setLine => exact .setLine
  | enterModule => exact .enterModule
  | push => exact .push
  | define => exact .define
  | newClass => exact .newClass
  | newPlainClass => exact .newPlainClass
  | setAbstract => exact .setAbstract
  | localVar => exact .newVar
  | globalVar => exact .globalVar
  | classVar => exact .classVar
  | declareMethod => exact .declareMethod
  | declareOverloadedMethod => exact .declareOverloadedMethod
  | declareFunction => exact .declareFunction
  | newFunction => exact .newFunction
  | overloaded => exact .overloaded
  | decorated => exact .decorated
  | expr => exact .expr
  | stmt => exact .stmt

/-- The builder after a program has been written, with or without what the language provides. -/
inductive Reached : Builder → Prop
  | bare {α : Type} {x : Build α} (offered : Offered x) : Reached (x.run .bare).2
  | new {α : Type} {x : Build α} (offered : Offered x) : Reached (x.run .new).2

theorem wellFormed_bare : Builder.bare.classes.WellFormed := .empty

theorem wellFormed_new : Builder.new.classes.WellFormed := by
  have furnishes : Furnishes (do Builtins.install; Builder.enterModule "__main__" : Build Unit) :=
    Furnishes.install.bind fun _ => .enterModule
  have furnished := furnishes .bare wellFormed_bare
  rw [Builder.new]
  exact furnished

theorem Reached.wellFormed {b : Builder} (reached : Reached b) : b.classes.WellFormed := by
  cases reached with
  | bare offered => exact offered.furnishes .bare wellFormed_bare
  | new offered => exact offered.furnishes .new wellFormed_new

end Builder

/-! ### The two lookups -/

namespace Check

variable {env : Env} {s : State} {c : ClassId} {name : String}

/-- Where a class does not declare a name, it makes no difference to begin behind it. -/
theorem firstDeclaring_tail (formed : env.classes.WellFormed)
    (inherited : env.classes.own? c name = none) :
    env.firstDeclaring (env.classes.mro c).tail name = env.attribute? c name := by
  rw [Env.attribute?]
  rcases formed.front c with none | ⟨rest, order⟩
  · rw [none, List.tail_nil]
  · rw [order, List.tail_cons, Env.firstDeclaring, Env.firstDeclaring, List.findSome?_cons,
      inherited]
    rfl

theorem own?_of_firstDeclaring {owners : List ClassId} {owner : ClassId} {symbol : Symbol}
    (found : env.firstDeclaring owners name = some (owner, symbol)) :
    env.classes.own? owner name = some symbol := by
  obtain ⟨d, -, declared⟩ := List.exists_of_findSome?_eq_some found
  obtain ⟨own, stated, same⟩ := Option.map_eq_some_iff.mp declared
  cases same
  exact stated

theorem outcome_superAttribute (formed : env.classes.WellFormed)
    (inherited : env.classes.own? c name = none) (s : State)
    (inside : s.scope.classes.head? = some c) (span : Span) :
    (superAttribute name span).outcome env s =
      match env.attributeType? s.vars name (env.selfInstance c).toTy with
      | some type => (type, s)
      | none => (.any, ((report (.superNoAttribute name) span).outcome env s).2) := by
  have self : env.attributeType? s.vars name (env.selfInstance c).toTy =
      env.instanceAttribute? s.vars name (env.selfInstance c) := rfl
  have found : env.attribute? (env.selfInstance c).cls name =
      env.firstDeclaring (env.classes.mro c).tail name :=
    (firstDeclaring_tail formed inherited).symm
  rw [self, Env.instanceAttribute?, found]
  simp only [superAttribute, outcome_bind, outcome_read, outcome_scope, inside]
  cases declared : env.firstDeclaring (env.classes.mro c).tail name with
  | none => rfl
  | some member =>
    obtain ⟨owner, symbol⟩ := member
    have member := formed.members owner name symbol (own?_of_firstDeclaring declared)
    cases symbol with
    | func f => rfl
    | var v => rfl
    | cls | module | typeVar => exact member.elim

theorem superAttribute_demands (formed : env.classes.WellFormed)
    (inherited : env.classes.own? c name = none) (inside : s.scope.classes.head? = some c)
    (span : Span) :
    (superAttribute name span).Demands env s
      (∃ type, env.attributeType? s.vars name (env.selfInstance c).toTy = some type)
      ((env.attributeType? s.vars name (env.selfInstance c).toTy).getD .any) := by
  have answer (ds : List Diagnostic) :
      (superAttribute name span).outcome env { s with diagnostics := ds } = _ :=
    outcome_superAttribute formed inherited { s with diagnostics := ds } inside span
  constructor
  · rintro ⟨type, seen⟩ ds
    rw [answer]
    simp only [seen, Option.getD_some]
  · intro unseen silent
    have none : env.attributeType? s.vars name (env.selfInstance c).toTy = none :=
      Option.eq_none_iff_forall_ne_some.mpr fun type seen => unseen ⟨type, seen⟩
    rw [Silent, reports, answer] at silent
    simp only [none] at silent
    exact not_silent_report silent

end Check

/-- In the body of a class that does not declare a name itself, in any class table that a program
can be written against, `super` finds the attribute exactly if the instance of the class that its
body sees has it, and then both have one type. -/
theorem inherited_attribute_as_own {b : Builder} (reached : b.Reached) {env : Env}
    (table : env.classes = b.classes) {s : State} {c : ClassId} {name : String}
    (inherited : env.classes.own? c name = none) (inside : s.scope.classes.head? = some c)
    (span : Span) :
    ((Check.superAttribute name span).Silent env s ↔
      ∃ type, env.attributeType? s.vars name (env.selfInstance c).toTy = some type) ∧
    ∀ type, env.attributeType? s.vars name (env.selfInstance c).toTy = some type →
      (Check.superAttribute name span).outcome env s = (type, s) := by
  have formed : env.classes.WellFormed := table ▸ reached.wellFormed
  refine ⟨(Check.superAttribute_demands formed inherited inside span).silent_iff,
    fun type seen => ?_⟩
  rw [Check.outcome_superAttribute formed inherited s inside, seen]

/-- A generic class with a method and a variable, one that derives from it with its two type
variables in a pair, and one that derives from that with type arguments. -/
def Builder.cells : Builder :=
  let typeVar (name : String) (id : Int) : Ty := .typeVar (.plain name id .any)
  let declared : Build ClassId := do
    let cell ← newClass "Cell" ["T"] []
    let _ ← declareMethod cell "get" (.positional [] (typeVar "T" 1))
    let _ ← classVar cell "item" (some (typeVar "T" 1))
    let pair ← newClass "Pair" ["A", "B"]
      [⟨cell, "builtins.Cell", [.tuple [typeVar "B" 2, typeVar "A" 1]]⟩]
    newClass "Flag" [] [⟨pair, "builtins.Pair", [.noneType, .tuple []]⟩]
  (declared.run .bare).2

theorem Builder.cells_reached : Reached .cells :=
  .bare (.bind (.newClass _ _ _) fun _ => .bind (.declareMethod _ _ _) fun _ =>
    .bind (.classVar _ _ _) fun _ => .bind (.newClass _ _ _) fun _ => .newClass _ _ _)

/-- In the body of the last class, `super` gives the pair the other way round, and has nothing else
to give. -/
theorem super_of_cells :
    let env := Env.ofProgram Builder.cells.toProgram default
    let s : State := { State.initial Builder.cells.toProgram with
      scope := { Scope.outermost with classes := [2] } }
    let item : Ty := .tuple [.tuple [], .noneType]
    (Check.superAttribute "item" (.atLine 1)).outcome env s = (item, s) ∧
      (∃ get, (Check.superAttribute "get" (.atLine 1)).outcome env s = (.callable get, s) ∧
        get.ret = item) ∧
      ¬ (Check.superAttribute "put" (.atLine 1)).Silent env s := by
  intro env s item
  have empty : (Builder.cells.classes.info 2).names = ∅ := rfl
  have inherited (name : String) : env.classes.own? 2 name = none := by
    change (Builder.cells.classes.info 2).names[name]? = none
    rw [empty]
    exact Std.TreeMap.getElem?_emptyc
  have both (name : String) := inherited_attribute_as_own Builder.cells_reached
    (rfl : env.classes = Builder.cells.classes) (inherited name)
    (rfl : s.scope.classes.head? = some 2) (.atLine 1)
  refine ⟨(both "item").2 item rfl, ⟨_, (both "get").2 _ rfl, rfl⟩, fun silent => ?_⟩
  obtain ⟨type, seen⟩ := (both "put").1.mp silent
  have none : env.attributeType? s.vars "put" (env.selfInstance 2).toTy = none := rfl
  rw [none] at seen
  cases seen

end Gradual
