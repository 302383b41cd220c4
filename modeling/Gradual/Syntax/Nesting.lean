import Gradual.Syntax.Stmt

/-!
How deeply function definitions are nested in each other.
-/

namespace Gradual

mutual

/-- The number of function definitions that lie within each other, the statement included. -/
def Stmt.nesting : Stmt → Nat
  | ⟨_, kind⟩ => kind.nesting

def StmtKind.nesting : StmtKind → Nat
  | .func d => d.nesting
  | .overloaded items _ _ => nestingOfEach items
  | .decorated func _ _ => func.nesting
  | .cls _ _ body => blockNesting body
  | .ifElse arms orElse => max (armsNesting arms) (optBlockNesting orElse)
  | .whileLoop _ body orElse => max (blockNesting body) (optBlockNesting orElse)
  | .forLoop _ _ _ body orElse => max (blockNesting body) (optBlockNesting orElse)
  | .withBlock _ body => blockNesting body
  | .tryBlock body handlers orElse atEnd =>
    max (max (blockNesting body) (handlersNesting handlers))
      (max (optBlockNesting orElse) (optBlockNesting atEnd))
  | _ => 0

def FuncDef.nesting : FuncDef → Nat
  | ⟨_, _, _, _, body, _, _, _, _, _, _⟩ => blockNesting body + 1

def nestingOfEach : List FuncDef → Nat
  | [] => 0
  | d :: rest => max d.nesting (nestingOfEach rest)

def blockNesting : List Stmt → Nat
  | [] => 0
  | s :: rest => max s.nesting (blockNesting rest)

def armsNesting : List Arm → Nat
  | [] => 0
  | ⟨_, body⟩ :: rest => max (blockNesting body) (armsNesting rest)

def handlersNesting : List Handler → Nat
  | [] => 0
  | ⟨_, _, body⟩ :: rest => max (blockNesting body) (handlersNesting rest)

def optBlockNesting : Option (List Stmt) → Nat
  | none => 0
  | some body => blockNesting body

end

end Gradual
