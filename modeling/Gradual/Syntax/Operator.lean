/-!
The operators of expressions and the methods that implement them.
-/

namespace Gradual

inductive BinaryOp where
  | add | sub | mul | div | floorDiv | mod | pow
  | bitAnd | bitOr | bitXor | leftShift | rightShift
  | eq | ne | lt | gt | le | ge
  | isIn | isNotIn | same | notSame
  | and | or
  deriving DecidableEq, Repr

namespace BinaryOp

/-- Every operator, in the order of the language's tables. -/
def all : List BinaryOp :=
  [.add, .sub, .mul, .div, .floorDiv, .mod, .pow, .bitAnd, .bitOr, .bitXor, .leftShift,
    .rightShift, .eq, .ne, .lt, .gt, .le, .ge, .isIn, .isNotIn, .same, .notSame, .and, .or]

/-- How the operator is written. -/
def symbol : BinaryOp → String
  | .add => "+"
  | .sub => "-"
  | .mul => "*"
  | .div => "/"
  | .floorDiv => "//"
  | .mod => "%"
  | .pow => "**"
  | .bitAnd => "&"
  | .bitOr => "|"
  | .bitXor => "^"
  | .leftShift => "<<"
  | .rightShift => ">>"
  | .eq => "=="
  | .ne => "!="
  | .lt => "<"
  | .gt => ">"
  | .le => "<="
  | .ge => ">="
  | .isIn => "in"
  | .isNotIn => "not in"
  | .same => "is"
  | .notSame => "is not"
  | .and => "and"
  | .or => "or"

/-- The operator written that way. -/
def ofSymbol? (text : String) : Option BinaryOp := all.find? (·.symbol == text)

/-- The method that implements the operator: one of the left operand, or, for membership, of the
right operand. Division changed its method with version 3 of the language. -/
def method? (op : BinaryOp) (version : Nat) : Option String :=
  match op with
  | .add => some "__add__"
  | .sub => some "__sub__"
  | .mul => some "__mul__"
  | .div => some (if 3 ≤ version then "__truediv__" else "__div__")
  | .floorDiv => some "__floordiv__"
  | .mod => some "__mod__"
  | .pow => some "__pow__"
  | .bitAnd => some "__and__"
  | .bitOr => some "__or__"
  | .bitXor => some "__xor__"
  | .leftShift => some "__lshift__"
  | .rightShift => some "__rshift__"
  | .eq => some "__eq__"
  | .ne => some "__ne__"
  | .lt => some "__lt__"
  | .gt => some "__gt__"
  | .le => some "__le__"
  | .ge => some "__ge__"
  | .isIn | .isNotIn => some "__contains__"
  | .same | .notSame | .and | .or => none

theorem mem_all (op : BinaryOp) : op ∈ all := by
  cases op <;> decide

end BinaryOp

inductive UnaryOp where
  | neg | pos | invert | not
  deriving DecidableEq, Repr

namespace UnaryOp

def all : List UnaryOp := [.neg, .pos, .invert, .not]

def symbol : UnaryOp → String
  | .neg => "-"
  | .pos => "+"
  | .invert => "~"
  | .not => "not"

def ofSymbol? (text : String) : Option UnaryOp := all.find? (·.symbol == text)

/-- The method of the operand that implements the operator. -/
def method? : UnaryOp → Option String
  | .neg => some "__neg__"
  | .pos => some "__pos__"
  | .invert => some "__invert__"
  | .not => none

end UnaryOp
end Gradual
