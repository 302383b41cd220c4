import Gradual.Span
import Gradual.Symbol
import Gradual.Syntax.Operator

/-!
Resolved expressions: each name carries the declaration that it refers to, and each node an id
under which its type is recorded.
-/

namespace Gradual

/-- The identity of an expression. -/
abbrev NodeId := Nat

/-- An occurrence of a name. -/
structure NameRef where
  name : String
  fullName : String
  binding : Binding
  symbol : Symbol
  /-- The occurrence introduces the name. -/
  isDef : Bool

mutual

structure Expr where
  id : NodeId
  span : Span
  kind : ExprKind

inductive ExprKind where
  | name (ref : NameRef)
  /-- An attribute; `defined` is the member variable that assigning to it introduces. -/
  | member (base : Expr) (name : String) (defined : Option Var) (isDef : Bool)
  | call (callee : Expr) (args : List Actual)
  | paren (inner : Expr)
  | int (value : Int)
  | str (value : String)
  | bytes (value : String)
  | unicode (value : String)
  | float
  | binary (op : BinaryOp) (left right : Expr)
  | unary (op : UnaryOp) (operand : Expr)
  | index (base index : Expr)
  | cast (inner : Expr) (type : Ty)
  /-- An attribute looked up behind the enclosing class. -/
  | super (name : String)
  | typeApplication (inner : Expr) (types : List Ty)
  /-- The declaration of a type variable. -/
  | typeVar (name : String)
  | list (items : List Expr)
  | set (items : List Expr)
  | tuple (items : List Expr)
  | dict (items : List (Expr × Expr))
  | slice (first last stride : Option Expr)
  | lambda (params : List (Var × ArgKind)) (body : Expr)
  | listComprehension (left : Expr) (clauses : List Clause)
  | generator (left : Expr) (clauses : List Clause)
  /-- A value that is supplied later, of a declared type or of any type that is asked for. -/
  | placeholder (type : Option Ty)
  | conditional (cond ifTrue ifFalse : Expr)

/-- An argument of a call. -/
structure Actual where
  kind : ArgKind
  name : Option String
  value : Expr

/-- One `for` of a comprehension with the conditions that follow it. -/
structure Clause where
  targets : List Expr
  sequence : Expr
  conditions : List Expr

end

mutual

/-- An expression without the parentheses around it. -/
def Expr.unwrapped : Expr → Expr
  | ⟨id, span, kind⟩ => kind.unwrappedOr ⟨id, span, kind⟩

/-- What parentheses hold, or else the given expression. -/
def ExprKind.unwrappedOr (self : Expr) : ExprKind → Expr
  | .paren inner => inner.unwrapped
  | _ => self

end

end Gradual
