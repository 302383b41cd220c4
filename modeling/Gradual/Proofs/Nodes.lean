import Gradual.Proofs.Occurrence
import Mathlib.Data.List.Perm.Basic

/-!
The ids of the expressions of a statement, part by part.
-/

namespace Gradual

theorem Block.nodes_eq (b : Block) : b.nodes = b.stmts.flatMap (·.nodes) := by
  rw [Block.stmts, List.flatMap_map]
  rfl

theorem Block.nodes_cons (s : Stmt) (rest : Block) :
    Block.nodes (s :: rest) = Block.nodes [s] ++ Block.nodes rest := by
  simp only [Block.nodes_eq, Block.stmts_cons s, List.flatMap_append, List.flatMap_cons]
  simp [Block.stmts, Block.places, blockPlaces]

theorem Block.nodes_singleton (s : Stmt) :
    Block.nodes [s] = s.nodes ++ s.kind.inner.flatMap (·.nodes) := by
  rw [Block.nodes_eq, Block.stmts_cons]
  simp [Block.stmts, Block.places, blockPlaces]

theorem FuncDef.nodes_eq (d : FuncDef) :
    d.nodes = d.defaults.flatMap (·.nodes) ++ Block.nodes d.body := by
  rw [FuncDef.nodes, FuncDef.exprs, FuncDef.stmts_eq, Block.nodes_eq, List.map_append,
    List.map_flatMap, List.map_flatMap]
  have own : (fun s : Stmt => s.exprs.map (·.id)) = (·.nodes) := funext fun s => s.nodes_eq.symm
  rw [own]
  rfl

/-- The ids of conditions with what is done if they hold, and of what is done if none does. -/
def armNodes (arms : List Arm) (orElse : Option Block) : List NodeId :=
  (arms.flatMap fun arm => arm.test.nodes ++ Block.nodes arm.body) ++
    orElse.toList.flatMap Block.nodes

/-- The ids of handlers: those of their classes and names, and those of what they do. -/
def handlerNodes (handlers : List Handler) : List NodeId :=
  handlers.flatMap fun h =>
    (h.type.toList ++ h.var.toList).flatMap (·.nodes) ++ Block.nodes h.body

namespace Block

variable {span : Span}

theorem nodes_func (d : FuncDef) : Block.nodes [⟨span, .func d⟩] = d.nodes := by
  rw [nodes_singleton, d.nodes_eq, nodes_eq, ← d.stmts_eq]
  rfl

theorem nodes_cls (name : String) (c : ClassId) (body : Block) :
    Block.nodes [⟨span, .cls name c body⟩] = Block.nodes body := by
  rw [nodes_singleton, body.nodes_eq]
  rfl

theorem nodes_overloaded_perm (items : List FuncDef) (owner : Option ClassId)
    (symbol : FunctionSymbol) :
    (items.flatMap (·.nodes)).Perm (Block.nodes [⟨span, .overloaded items owner symbol⟩]) := by
  have own : Stmt.nodes ⟨span, .overloaded items owner symbol⟩ =
      items.flatMap fun d => d.defaults.flatMap (·.nodes) := List.flatMap_assoc
  have inner : (StmtKind.overloaded items owner symbol).inner.flatMap (·.nodes) =
      items.flatMap fun d => Block.nodes d.body := by
    rw [StmtKind.inner, StmtKind.places, placesOfEach_eq, List.map_flatMap, List.flatMap_assoc]
    simp only [nodes_eq, ← FuncDef.stmts_eq]
    rfl
  rw [nodes_singleton, own, inner]
  simp only [FuncDef.nodes_eq]
  exact (List.flatMap_append_perm ..).symm

theorem nodes_decorated_perm (d : FuncDef) (decorators : List Expr) (v : Var) :
    (d.nodes ++ decorators.flatMap (·.nodes)).Perm
      (Block.nodes [⟨span, .decorated d decorators v⟩]) := by
  have own : Stmt.nodes ⟨span, .decorated d decorators v⟩ =
      d.defaults.flatMap (·.nodes) ++ decorators.flatMap (·.nodes) := List.flatMap_append
  have inner : (StmtKind.decorated d decorators v).inner.flatMap (·.nodes) =
      Block.nodes d.body := by
    rw [nodes_eq, ← d.stmts_eq]
    rfl
  rw [nodes_singleton, own, inner, d.nodes_eq, List.append_assoc, List.append_assoc]
  exact List.perm_append_comm.append_left _

theorem nodes_option (b : Option Block) :
    ((optionPlaces none b).map (·.stmt)).flatMap (·.nodes) = b.toList.flatMap Block.nodes := by
  cases b with
  | none => rfl
  | some b => rw [Option.toList_some, List.flatMap_singleton, nodes_eq]; rfl

theorem nodes_arms (arms : List Arm) :
    ((armPlaces none arms).map (·.stmt)).flatMap (·.nodes) =
      arms.flatMap fun arm => Block.nodes arm.body := by
  rw [armPlaces_stmts, List.flatMap_assoc, List.flatMap_map]
  simp only [nodes_eq]

theorem nodes_handlers (handlers : List Handler) :
    ((handlerPlaces none handlers).map (·.stmt)).flatMap (·.nodes) =
      handlers.flatMap fun h => Block.nodes h.body := by
  rw [handlerPlaces_stmts, List.flatMap_assoc, List.flatMap_map]
  simp only [nodes_eq]

theorem nodes_ifElse_perm (arms : List Arm) (orElse : Option Block) :
    (armNodes arms orElse).Perm (Block.nodes [⟨span, .ifElse arms orElse⟩]) := by
  have own : Stmt.nodes ⟨span, .ifElse arms orElse⟩ = arms.flatMap (·.test.nodes) :=
    List.flatMap_map ..
  have inner : (StmtKind.ifElse arms orElse).inner.flatMap (·.nodes) =
      (arms.flatMap fun arm => Block.nodes arm.body) ++ orElse.toList.flatMap Block.nodes := by
    rw [StmtKind.inner, StmtKind.places, List.map_append, List.flatMap_append, nodes_arms,
      nodes_option]
  rw [nodes_singleton, own, inner, ← List.append_assoc]
  -- The ids of a statement are those of all conditions, then those of all bodies.
  exact (List.flatMap_append_perm ..).symm.append_right _

theorem nodes_whileLoop (test : Expr) (body : Block) (orElse : Option Block) :
    Block.nodes [⟨span, .whileLoop test body orElse⟩] =
      test.nodes ++ (Block.nodes body ++ orElse.toList.flatMap Block.nodes) := by
  have own : Stmt.nodes ⟨span, .whileLoop test body orElse⟩ = test.nodes := List.flatMap_singleton ..
  rw [nodes_singleton, own, StmtKind.inner, StmtKind.places, List.map_append, List.flatMap_append,
    nodes_option, body.nodes_eq]
  rfl

theorem nodes_forLoop (targets : List Expr) (isAnnotated : Bool) (sequence : Expr) (body : Block)
    (orElse : Option Block) :
    Block.nodes [⟨span, .forLoop targets isAnnotated sequence body orElse⟩] =
      (targets ++ [sequence]).flatMap (·.nodes) ++
        (Block.nodes body ++ orElse.toList.flatMap Block.nodes) := by
  rw [nodes_singleton, StmtKind.inner, StmtKind.places, List.map_append, List.flatMap_append,
    nodes_option, body.nodes_eq]
  rfl

theorem nodes_withBlock (items : List (Expr × Option Expr)) (body : Block) :
    Block.nodes [⟨span, .withBlock items body⟩] =
      (StmtKind.withBlock items body).exprs.flatMap (·.nodes) ++ Block.nodes body := by
  rw [nodes_singleton, body.nodes_eq]
  rfl

theorem nodes_tryBlock_perm (body : Block) (handlers : List Handler)
    (orElse atEnd : Option Block) :
    (Block.nodes body ++ (handlerNodes handlers ++
        (orElse.toList.flatMap Block.nodes ++ atEnd.toList.flatMap Block.nodes))).Perm
      (Block.nodes [⟨span, .tryBlock body handlers orElse atEnd⟩]) := by
  have own : Stmt.nodes ⟨span, .tryBlock body handlers orElse atEnd⟩ =
      handlers.flatMap fun h => (h.type.toList ++ h.var.toList).flatMap (·.nodes) :=
    List.flatMap_assoc
  have inner : (StmtKind.tryBlock body handlers orElse atEnd).inner.flatMap (·.nodes) =
      Block.nodes body ++ ((handlers.flatMap fun h => Block.nodes h.body) ++
        (orElse.toList.flatMap Block.nodes ++ atEnd.toList.flatMap Block.nodes)) := by
    simp only [StmtKind.inner, StmtKind.places, List.map_append, List.flatMap_append, nodes_option,
      nodes_handlers, List.append_assoc]
    rw [body.nodes_eq]
    rfl
  have both : (handlers.flatMap (fun h => (h.type.toList ++ h.var.toList).flatMap (·.nodes)) ++
      handlers.flatMap fun h => Block.nodes h.body).Perm (handlerNodes handlers) :=
    List.flatMap_append_perm ..
  rw [nodes_singleton, own, inner]
  refine .trans ?_ (List.perm_append_comm_assoc ..)
  rw [← List.append_assoc (handlers.flatMap _)]
  exact (both.symm.append_right _).append_left _

end Block

end Gradual
