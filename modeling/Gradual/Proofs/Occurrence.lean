import Gradual.Syntax.Stmt

/-!
What occurs in a tree: the expressions in an expression, the statements in a block, each with the
function around it, the variables whose types a check replaces, and those that get a type where they
are introduced.
-/

namespace Gradual

mutual

/-- An expression with all expressions in it. -/
def Expr.all : Expr → List Expr
  | ⟨id, span, kind⟩ => ⟨id, span, kind⟩ :: kind.inside

/-- The expressions in an expression of this kind. -/
def ExprKind.inside : ExprKind → List Expr
  | .name _ | .int _ | .str _ | .bytes _ | .unicode _ | .float | .super _ | .typeVar _
  | .placeholder _ => []
  | .member base _ _ _ => base.all
  | .call callee args => callee.all ++ allOfActuals args
  | .paren inner => inner.all
  | .binary _ left right => left.all ++ right.all
  | .unary _ operand => operand.all
  | .index base index => base.all ++ index.all
  | .cast inner _ => inner.all
  | .typeApplication inner _ => inner.all
  | .list items | .set items | .tuple items => allOfExprs items
  | .dict items => allOfPairs items
  | .slice first last stride => allOfOption first ++ allOfOption last ++ allOfOption stride
  | .lambda _ body => body.all
  | .listComprehension left clauses | .generator left clauses => left.all ++ allOfClauses clauses
  | .conditional cond ifTrue ifFalse => cond.all ++ ifTrue.all ++ ifFalse.all

def allOfExprs : List Expr → List Expr
  | [] => []
  | e :: rest => e.all ++ allOfExprs rest

def allOfActuals : List Actual → List Expr
  | [] => []
  | ⟨_, _, value⟩ :: rest => value.all ++ allOfActuals rest

def allOfPairs : List (Expr × Expr) → List Expr
  | [] => []
  | (key, value) :: rest => key.all ++ value.all ++ allOfPairs rest

def allOfOption : Option Expr → List Expr
  | none => []
  | some e => e.all

def allOfClauses : List Clause → List Expr
  | [] => []
  | ⟨targets, sequence, conditions⟩ :: rest =>
    allOfExprs targets ++ sequence.all ++ allOfExprs conditions ++ allOfClauses rest

end

/-- The ids of an expression and of those in it. -/
def Expr.nodes (e : Expr) : List NodeId := e.all.map (·.id)

/-- A variable whose type a check replaces, with the type that it gets where that is declared. -/
abbrev Retyping := VarId × Option Ty

/-- The variables that an expression itself, without those in it, gives types to. -/
def Expr.retypings (e : Expr) : List Retyping :=
  match e.kind with
  | .lambda params _ => params.map fun (v, _) => (v.id, none)
  | _ => []

/-- The variable that an occurrence of a name introduces. -/
def NameRef.introduces (ref : NameRef) : List VarId :=
  match ref.isDef, ref.symbol with
  | true, .var v => [v.id]
  | _, _ => []

/-- The variable that an expression itself introduces where a value is assigned to it. -/
def Expr.introduces (e : Expr) : List VarId :=
  match e.kind with
  | .name ref => ref.introduces
  | .member _ _ (some v) true => [v.id]
  | _ => []

/-- The same if a copy of the function around introduces no other in its place. -/
def Expr.shares (e : Expr) : List VarId :=
  match e.kind with
  | .name ref => if ref.binding = .inFunction then [] else ref.introduces
  | .member _ _ (some v) true => [v.id]
  | _ => []

/-- The arguments of a function: one that takes one value gets the type that the signature
declares. -/
def formalRetypings (params : List Param) (s : Signature) : List Retyping :=
  (params.zip (s.argTypes.zip s.argKinds)).map fun (p, type, kind) =>
    (p.var.id, match kind with
      | .star | .star2 => none
      | .pos | .opt | .named => some type)

namespace FuncDef

/-- The defaults of the arguments. -/
def defaults (d : FuncDef) : List Expr := d.params.filterMap (·.default)

def retypings (d : FuncDef) : List Retyping := formalRetypings d.params d.type

end FuncDef

/-- The expressions of a statement itself, without those of the blocks in it. -/
def StmtKind.exprs : StmtKind → List Expr
  | .varDef _ _ _ init => init.toList
  | .func d => d.defaults
  | .overloaded items _ _ => items.flatMap (·.defaults)
  | .cls .. => []
  | .decorated d decorators _ => d.defaults ++ decorators
  | .assign targets value => targets ++ [value]
  | .opAssign _ target value => [target, value]
  | .expr e => [e]
  | .ret value => value.toList
  | .yield value => [value]
  | .ifElse arms _ => arms.map (·.test)
  | .whileLoop test _ _ => [test]
  | .forLoop targets _ sequence _ _ => targets ++ [sequence]
  | .withBlock items _ => items.flatMap fun (manager, target) => manager :: target.toList
  | .assert test => [test]
  | .raise value cause => value.toList ++ cause.toList
  | .tryBlock _ handlers _ _ => handlers.flatMap fun h => h.type.toList ++ h.var.toList
  | .del target => [target]
  | .print args => args
  | .pass | .breakLoop | .continueLoop | .globals _ | .imports _ => []

/-- The functions that a statement itself defines. -/
def StmtKind.functions : StmtKind → List FuncDef
  | .func d | .decorated d _ _ => [d]
  | .overloaded items _ _ => items
  | _ => []

/-- The variables that a statement itself gives types to. -/
def StmtKind.retypings : StmtKind → List Retyping
  | .func d => d.retypings
  | .overloaded items _ _ => items.flatMap (·.retypings)
  | .decorated d _ v => d.retypings ++ [(v.id, none)]
  | _ => []

/-- The variables of a statement itself that get the type of a value. -/
def StmtKind.introduces : StmtKind → List VarId
  | .varDef vars binding isTopLevel _ =>
    if binding == .inFunction && !isTopLevel then vars.map (·.id) else []
  | _ => []

/-- The variable to which a statement itself gives a type in all copies of the function around. -/
def StmtKind.shares : StmtKind → List VarId
  | .decorated _ _ v => [v.id]
  | _ => []

namespace Stmt

/-- The expressions of a statement itself with those in them. -/
def exprs (s : Stmt) : List Expr := s.kind.exprs.flatMap (·.all)

/-- The ids of the expressions of a statement itself. -/
def nodes (s : Stmt) : List NodeId := s.kind.exprs.flatMap (·.nodes)

/-- The variables that a statement and the expressions of it give types to. -/
def retypings (s : Stmt) : List Retyping :=
  s.kind.retypings ++ s.kind.exprs.flatMap fun e => e.all.flatMap (·.retypings)

end Stmt

/-- A statement with the innermost function around it. -/
structure Place where
  func : Option FuncDef
  stmt : Stmt

mutual

/-- A statement with all statements in it; `f` is the function around. -/
def Stmt.places (f : Option FuncDef) : Stmt → List Place
  | ⟨span, kind⟩ => ⟨f, ⟨span, kind⟩⟩ :: kind.places f

/-- The statements in a statement of this kind. -/
def StmtKind.places (f : Option FuncDef) : StmtKind → List Place
  | .func d => d.places
  | .overloaded items _ _ => placesOfEach items
  | .cls _ _ body => blockPlaces f body
  | .decorated d _ _ => d.places
  | .ifElse arms orElse => armPlaces f arms ++ optionPlaces f orElse
  | .whileLoop _ body orElse => blockPlaces f body ++ optionPlaces f orElse
  | .forLoop _ _ _ body orElse => blockPlaces f body ++ optionPlaces f orElse
  | .withBlock _ body => blockPlaces f body
  | .tryBlock body handlers orElse atEnd =>
    blockPlaces f body ++ handlerPlaces f handlers ++ optionPlaces f orElse ++ optionPlaces f atEnd
  | .varDef .. | .assign .. | .opAssign .. | .expr _ | .ret _ | .yield _ | .assert _ | .raise ..
  | .del _ | .print _ | .pass | .breakLoop | .continueLoop | .globals _ | .imports _ => []

/-- The statements in the body of a function. -/
def FuncDef.places : FuncDef → List Place
  | ⟨name, fullName, owner, params, body, signature, isGenerator, span, isAbstract, earlier,
      symbol⟩ =>
    blockPlaces
      (some ⟨name, fullName, owner, params, body, signature, isGenerator, span, isAbstract,
        earlier, symbol⟩)
      body

def placesOfEach : List FuncDef → List Place
  | [] => []
  | d :: rest => d.places ++ placesOfEach rest

def blockPlaces (f : Option FuncDef) : List Stmt → List Place
  | [] => []
  | s :: rest => s.places f ++ blockPlaces f rest

def optionPlaces (f : Option FuncDef) : Option (List Stmt) → List Place
  | none => []
  | some body => blockPlaces f body

def armPlaces (f : Option FuncDef) : List Arm → List Place
  | [] => []
  | ⟨_, body⟩ :: rest => blockPlaces f body ++ armPlaces f rest

def handlerPlaces (f : Option FuncDef) : List Handler → List Place
  | [] => []
  | ⟨_, _, body⟩ :: rest => blockPlaces f body ++ handlerPlaces f rest

end

theorem Expr.all_eq (e : Expr) : e.all = e :: e.kind.inside := by cases e; rfl

theorem Expr.self_mem_all (e : Expr) : e ∈ e.all := by simp [e.all_eq]

mutual

theorem Expr.unwrapped_all_subset : (e : Expr) → e.unwrapped.all ⊆ e.all
  | ⟨id, span, kind⟩ => kind.unwrappedOr_all_subset ⟨id, span, kind⟩ (by simp [Expr.all])

theorem ExprKind.unwrappedOr_all_subset {xs : List Expr} (self : Expr) : (kind : ExprKind) →
    self.all ⊆ xs ∧ kind.inside ⊆ xs → (kind.unwrappedOr self).all ⊆ xs
  | .paren inner, h => List.Subset.trans inner.unwrapped_all_subset h.2
  | .name _, h | .int _, h | .str _, h | .bytes _, h | .unicode _, h | .float, h | .super _, h
  | .typeVar _, h | .placeholder _, h | .member .., h | .call .., h | .binary .., h | .unary .., h
  | .index .., h | .cast .., h | .typeApplication .., h | .list _, h | .set _, h | .tuple _, h
  | .dict _, h | .slice .., h | .lambda .., h | .listComprehension .., h | .generator .., h
  | .conditional .., h => h.1

end

/-! ### Lists -/

theorem allOfExprs_eq (items : List Expr) : allOfExprs items = items.flatMap (·.all) := by
  induction items with
  | nil => rfl
  | cons e rest ih => rw [allOfExprs, ih, List.flatMap_cons]

theorem allOfOption_eq (e : Option Expr) : allOfOption e = e.toList.flatMap (·.all) := by
  cases e <;> simp [allOfOption]

theorem allOfClauses_eq (clauses : List Clause) :
    allOfClauses clauses = clauses.flatMap fun c =>
      c.targets.flatMap (·.all) ++ c.sequence.all ++ c.conditions.flatMap (·.all) := by
  induction clauses with
  | nil => rfl
  | cons c rest ih =>
    obtain ⟨targets, sequence, conditions⟩ := c
    rw [allOfClauses, ih, List.flatMap_cons, allOfExprs_eq, allOfExprs_eq]

theorem placesOfEach_eq (items : List FuncDef) : placesOfEach items = items.flatMap (·.places) := by
  induction items with
  | nil => rfl
  | cons d rest ih => rw [placesOfEach, ih, List.flatMap_cons]

theorem armPlaces_eq (f : Option FuncDef) (arms : List Arm) :
    armPlaces f arms = arms.flatMap (blockPlaces f ·.body) := by
  induction arms with
  | nil => rfl
  | cons arm rest ih =>
    obtain ⟨test, body⟩ := arm
    rw [armPlaces, ih, List.flatMap_cons]

theorem handlerPlaces_eq (f : Option FuncDef) (handlers : List Handler) :
    handlerPlaces f handlers = handlers.flatMap (blockPlaces f ·.body) := by
  induction handlers with
  | nil => rfl
  | cons h rest ih =>
    obtain ⟨type, v, body⟩ := h
    rw [handlerPlaces, ih, List.flatMap_cons]

theorem Stmt.nodes_eq (s : Stmt) : s.nodes = s.exprs.map (·.id) := by
  rw [Stmt.nodes, Stmt.exprs, List.map_flatMap]
  rfl

theorem all_subset_allOfExprs {e : Expr} {items : List Expr} (h : e ∈ items) :
    e.all ⊆ allOfExprs items := by
  intro x hx
  rw [allOfExprs_eq]
  exact List.mem_flatMap.mpr ⟨e, h, hx⟩

theorem Stmt.places_eq (f : Option FuncDef) (s : Stmt) : s.places f = ⟨f, s⟩ :: s.kind.places f := by
  cases s; rfl

theorem FuncDef.places_eq (d : FuncDef) : d.places = blockPlaces (some d) d.body := by cases d; rfl

/-- The statements of a block that is in no function, with all statements in them. -/
def Block.places (b : Block) : List Place := blockPlaces none b

/-- All statements of a block. -/
def Block.stmts (b : Block) : List Stmt := b.places.map (·.stmt)

/-- The ids of all expressions of a block. -/
def Block.nodes (b : Block) : List NodeId := b.places.flatMap (·.stmt.nodes)

/-- The variables that a block gives types to. -/
def Block.retypings (b : Block) : List Retyping := b.places.flatMap (·.stmt.retypings)

/-! ### The function around -/

mutual

/-- The statements in a statement are the same in whatever function they are. -/
theorem Stmt.map_stmt_places (f : Option FuncDef) : (s : Stmt) →
    (s.places f).map (·.stmt) = (s.places none).map (·.stmt)
  | ⟨_, kind⟩ => by
    rw [Stmt.places, Stmt.places, List.map_cons, List.map_cons, kind.map_stmt_places f]

theorem StmtKind.map_stmt_places (f : Option FuncDef) : (kind : StmtKind) →
    (kind.places f).map (·.stmt) = (kind.places none).map (·.stmt)
  | .cls _ _ body => blockPlaces_map_stmt f body
  | .ifElse arms orElse => by
    rw [StmtKind.places, StmtKind.places, List.map_append, List.map_append,
      armPlaces_map_stmt f arms, optionPlaces_map_stmt f orElse]
  | .whileLoop _ body orElse => by
    rw [StmtKind.places, StmtKind.places, List.map_append, List.map_append,
      blockPlaces_map_stmt f body, optionPlaces_map_stmt f orElse]
  | .forLoop _ _ _ body orElse => by
    rw [StmtKind.places, StmtKind.places, List.map_append, List.map_append,
      blockPlaces_map_stmt f body, optionPlaces_map_stmt f orElse]
  | .withBlock _ body => blockPlaces_map_stmt f body
  | .tryBlock body handlers orElse atEnd => by
    simp only [StmtKind.places, List.map_append]
    rw [blockPlaces_map_stmt f body, handlerPlaces_map_stmt f handlers,
      optionPlaces_map_stmt f orElse, optionPlaces_map_stmt f atEnd]
  | .func _ | .overloaded _ _ _ | .decorated _ _ _ | .varDef _ _ _ _ | .assign _ _
  | .opAssign _ _ _ | .expr _ | .ret _ | .yield _ | .assert _ | .raise _ _ | .del _ | .print _
  | .pass | .breakLoop | .continueLoop | .globals _ | .imports _ => rfl

theorem blockPlaces_map_stmt (f : Option FuncDef) : (b : List Stmt) →
    (blockPlaces f b).map (·.stmt) = (blockPlaces none b).map (·.stmt)
  | [] => rfl
  | s :: rest => by
    rw [blockPlaces, blockPlaces, List.map_append, List.map_append, s.map_stmt_places f,
      blockPlaces_map_stmt f rest]

theorem optionPlaces_map_stmt (f : Option FuncDef) : (b : Option (List Stmt)) →
    (optionPlaces f b).map (·.stmt) = (optionPlaces none b).map (·.stmt)
  | none => rfl
  | some b => blockPlaces_map_stmt f b

theorem armPlaces_map_stmt (f : Option FuncDef) : (arms : List Arm) →
    (armPlaces f arms).map (·.stmt) = (armPlaces none arms).map (·.stmt)
  | [] => rfl
  | ⟨_, body⟩ :: rest => by
    rw [armPlaces, armPlaces, List.map_append, List.map_append, blockPlaces_map_stmt f body,
      armPlaces_map_stmt f rest]

theorem handlerPlaces_map_stmt (f : Option FuncDef) : (handlers : List Handler) →
    (handlerPlaces f handlers).map (·.stmt) = (handlerPlaces none handlers).map (·.stmt)
  | [] => rfl
  | ⟨_, _, body⟩ :: rest => by
    rw [handlerPlaces, handlerPlaces, List.map_append, List.map_append,
      blockPlaces_map_stmt f body, handlerPlaces_map_stmt f rest]

end

/-- All statements in a statement of this kind. -/
def StmtKind.inner (kind : StmtKind) : List Stmt := (kind.places none).map (·.stmt)

theorem Block.stmts_cons (s : Stmt) (rest : List Stmt) :
    Block.stmts (s :: rest) = s :: s.kind.inner ++ Block.stmts rest := by
  rw [Block.stmts, Block.places, blockPlaces, List.map_append, s.places_eq, List.map_cons]
  rfl

theorem optionPlaces_stmts (b : Option (List Stmt)) :
    (optionPlaces none b).map (·.stmt) = b.toList.flatMap Block.stmts := by
  cases b with
  | none => rfl
  | some b => rw [Option.toList_some, List.flatMap_singleton]; rfl

theorem armPlaces_stmts (arms : List Arm) :
    (armPlaces none arms).map (·.stmt) = (arms.map (·.body)).flatMap Block.stmts := by
  rw [armPlaces_eq, List.map_flatMap, List.flatMap_map]
  rfl

theorem handlerPlaces_stmts (handlers : List Handler) :
    (handlerPlaces none handlers).map (·.stmt) = (handlers.map (·.body)).flatMap Block.stmts := by
  rw [handlerPlaces_eq, List.map_flatMap, List.flatMap_map]
  rfl

/-! ### Definitions -/

namespace FuncDef

/-- All statements in a function. -/
def stmts (d : FuncDef) : List Stmt := d.places.map (·.stmt)

/-- All expressions in a function. -/
def exprs (d : FuncDef) : List Expr := d.defaults.flatMap (·.all) ++ d.stmts.flatMap (·.exprs)

/-- The ids of all expressions in a function. -/
def nodes (d : FuncDef) : List NodeId := d.exprs.map (·.id)

/-- The variables whose types a check of the function replaces: all arguments in it and what takes
the outcomes of decorators. -/
def retyped (d : FuncDef) : List VarId :=
  d.params.map (·.var.id) ++ d.exprs.flatMap (·.retypings.map (·.1)) ++
    d.stmts.flatMap (·.kind.retypings.map (·.1))

/-- The variables that are introduced in a function. -/
def introduced (d : FuncDef) : List VarId :=
  d.exprs.flatMap (·.introduces) ++ d.stmts.flatMap (·.kind.introduces)

/-- The variables that a function introduces in all its copies. -/
def sharedIntroduced (d : FuncDef) : List VarId := d.exprs.flatMap (·.shares)

/-- The variables whose types a check of any copy of the function replaces. -/
def sharedRetyped (d : FuncDef) : List VarId := d.stmts.flatMap (·.kind.shares)

theorem stmts_eq (d : FuncDef) : d.stmts = Block.stmts d.body := by
  rw [stmts, places_eq, blockPlaces_map_stmt]
  rfl

end FuncDef

end Gradual
