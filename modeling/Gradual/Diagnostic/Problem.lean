import Gradual.Diagnostic.Code
import Gradual.Ty.Display

/-!
What can be wrong with a program: one alternative for each cause, with its code and its wording.
-/

namespace Gradual

/-- What is assigned where: each has a wording of its own. -/
inductive Assignment where
  | toVariable
  | inFor
  deriving DecidableEq, Repr

/-- A way in which a call has the wrong arguments. -/
inductive ArityError where
  | tooFew
  | tooMany
  | unexpectedKeyword (name : String)
  deriving DecidableEq, Repr

/-- A display of a collection by its items. -/
inductive Display where
  | list
  | set
  | dict
  deriving DecidableEq, Repr

/-- The word for a display at the start of a message. -/
def Display.word : Display → String
  | .list => "List"
  | .set => "Set"
  | .dict => "Dict"

/-- The word for a display inside a message. -/
def Display.innerWord : Display → String
  | .list => "list"
  | .set => "set"
  | .dict => "dict"

inductive Problem where
  | incompatibleYield
  | incompatibleAssignment (kind : Assignment)
  | incompatibleReturn
  | noReturnValueExpected
  | returnValueExpected
  /-- A call without a result is used as a value; the function may have a name. -/
  | noValue (function : Option String)
  | yieldOutsideIterator
  | invalidException
  | unsupportedException
  | iterableExpected
  | noItemType
  | valueCount (expected provided : Nat)
  | needsType
  | initReturnType
  | inconsistentAbstract
  | overrideSignature (name supertype : String)
  | overrideArgument (position : Nat) (name supertype : String)
  | overrideReturn (name supertype : String)
  | conflictingBases (name first second : String)
  | conditionalRedefinition
  | operatorResult (op : String)
  | noAttribute (type : Ty) (name : String)
  | superNoAttribute (name : String)
  | superOutsideClass
  | notCallable (type : Ty)
  | arity (error : ArityError) (callee : Option String)
  | argument (position : Nat) (callee : Option String) (actual expected : Ty)
  | operands (op : String) (left right : Ty)
  | leftOperand (op : String) (type : Ty)
  | unaryOperand (op : String) (type : Ty)
  | noOverload (callee : Signature)
  | tupleIndexRange
  | tupleIndexLiteral
  | noTypeArgument (position : Nat) (callee : Signature)
  | typeArgumentValue (position : Nat) (callee : Signature) (value : Ty)
  /-- The items have no common type. -/
  | noDisplayItemType (display : Display)
  | displayItem (display : Display) (position : Nat) (type : Ty)
  | unknownType (name : String)
  | typeApplication (expected given : Nat)
  | sliceIndex
  | missingBuiltin (fullName : String)

namespace Problem

def code : Problem → Code
  | incompatibleYield | displayItem .. => .incompatibleTypes
  | incompatibleAssignment .toVariable => .incompatibleAssignment
  | incompatibleAssignment .inFor => .incompatibleTypesInFor
  | incompatibleReturn => .incompatibleReturnValue
  | noReturnValueExpected => .noReturnValueExpected
  | returnValueExpected => .returnValueExpected
  | noValue _ => .doesNotReturnValue
  | yieldOutsideIterator => .invalidReturnTypeForYield
  | invalidException => .invalidExceptionType
  | unsupportedException => .unsupportedException
  | iterableExpected => .iterableExpected
  | noItemType => .cannotInferItemType
  | valueCount .. => .valueCountMismatch
  | needsType => .needsType
  | initReturnType => .initReturnType
  | inconsistentAbstract => .inconsistentAbstractOverload
  | overrideSignature .. => .signatureIncompatibleWithSupertype
  | overrideArgument .. => .argumentIncompatibleWithSupertype
  | overrideReturn .. => .returnIncompatibleWithSupertype
  | conflictingBases .. => .baseClassDefinitionsIncompatible
  | conditionalRedefinition => .incompatibleConditionalFunctionDef
  | operatorResult _ => .incompatibleOperatorAssignment
  | noAttribute .. | superNoAttribute _ => .hasNoAttribute
  | superOutsideClass => .superOutsideClass
  | notCallable _ => .notCallable
  | arity .. => .argCount
  | argument .. => .incompatibleArgument
  | operands .. | leftOperand .. | unaryOperand .. => .unsupportedOperand
  | noOverload _ => .noMatchingOverload
  | tupleIndexRange | tupleIndexLiteral => .invalidTupleIndex
  | noTypeArgument .. | typeArgumentValue .. | noDisplayItemType _ => .cannotInferTypeArgument
  | unknownType _ => .cannotDetermineType
  | typeApplication .. => .invalidTypeApplication
  | sliceIndex => .invalidSliceIndex
  | missingBuiltin _ => .missingBuiltin

/-- A text in double quotes. -/
def quoted (text : String) : String := "\"" ++ text ++ "\""

/-- A callee that has a name, behind a word. -/
def naming (word : String) : Option String → String
  | some name => " " ++ word ++ " " ++ quoted name
  | none => ""

def text : Problem → String
  | incompatibleYield => "Incompatible types"
  | incompatibleAssignment .toVariable => "Incompatible types in assignment"
  | incompatibleAssignment .inFor => "Incompatible types in for statement"
  | incompatibleReturn => "Incompatible return value type"
  | noReturnValueExpected => "No return value expected"
  | returnValueExpected => "Return value expected"
  | noValue (some name) => quoted name ++ " does not return a value"
  | noValue none => "Function does not return a value"
  | yieldOutsideIterator => "Iterator function return type expected for \"yield\""
  | invalidException => "Invalid exception type"
  | unsupportedException => "Unsupported exception"
  | iterableExpected => "Iterable expected"
  | noItemType => "Cannot infer iterable item type"
  | valueCount expected provided =>
    if expected < provided then
      "Too many values to unpack (" ++ toString expected ++ " expected, " ++ toString provided
        ++ " provided)"
    else
      "Need more than " ++ toString provided ++ " values to unpack (" ++ toString expected
        ++ " expected)"
  | needsType => "Need type annotation for variable"
  | initReturnType => "Cannot define return type for \"__init__\""
  | inconsistentAbstract => "Overloaded method has both abstract and non-abstract variants"
  | overrideSignature name supertype =>
    "Signature of " ++ quoted name ++ " incompatible with supertype " ++ quoted supertype
  | overrideArgument position name supertype =>
    "Argument " ++ toString position ++ " of " ++ quoted name ++ " incompatible with supertype "
      ++ quoted supertype
  | overrideReturn name supertype =>
    "Return type of " ++ quoted name ++ " incompatible with supertype " ++ quoted supertype
  | conflictingBases name first second =>
    "Definition of " ++ quoted name ++ " in base class " ++ quoted first
      ++ " is incompatible with definition in base class " ++ quoted second
  | conditionalRedefinition => "All conditional function variants must have identical signatures"
  | operatorResult op => "Result type of " ++ op ++ " incompatible in assignment"
  | noAttribute type name => quoted type.display ++ " has no attribute " ++ quoted name
  | superNoAttribute name => "\"super\" has no attribute " ++ quoted name
  | superOutsideClass => "\"super\" used outside class"
  | notCallable type => quoted type.display ++ " not callable"
  | arity .tooFew callee => "Too few arguments" ++ naming "for" callee
  | arity .tooMany callee => "Too many arguments" ++ naming "for" callee
  | arity (.unexpectedKeyword name) callee =>
    "Unexpected keyword argument " ++ quoted name ++ naming "for" callee
  | argument position callee actual expected =>
    "Argument " ++ toString position ++ naming "to" callee ++ " has incompatible type "
      ++ quoted actual.display ++ "; expected " ++ quoted expected.display
  | operands op left right =>
    "Unsupported operand types for " ++ op ++ " (" ++ quoted left.display ++ " and "
      ++ quoted right.display ++ ")"
  | leftOperand op type =>
    "Unsupported left operand type for " ++ op ++ " (" ++ quoted type.display ++ ")"
  | unaryOperand op type =>
    "Unsupported operand type for unary " ++ op ++ " (" ++ quoted type.display ++ ")"
  | noOverload callee =>
    "No overload variant of " ++ callee.displayName ++ " matches argument types"
  | tupleIndexRange => "Tuple index out of range"
  | tupleIndexLiteral => "Tuple index must be an integer literal"
  | noTypeArgument position callee =>
    "Cannot infer type argument " ++ toString position ++ " of " ++ callee.displayName
  | typeArgumentValue position callee value =>
    "Type argument " ++ toString position ++ " of " ++ callee.displayName
      ++ " has incompatible value " ++ quoted value.display
  | noDisplayItemType display => "Cannot infer " ++ display.innerWord ++ " item type"
  | displayItem display position type =>
    display.word ++ " item " ++ toString position ++ " has incompatible type " ++
      quoted type.display
  | unknownType name => "Cannot determine type of " ++ quoted name
  | typeApplication expected given =>
    if expected = 0 then "Type application targets a non-generic function"
    else if expected < given then
      "Type application has too many types (" ++ toString expected ++ " expected)"
    else "Type application has too few types (" ++ toString expected ++ " expected)"
  | sliceIndex => "Slice index must be an integer or None"
  | missingBuiltin fullName => "Builtin class " ++ quoted fullName ++ " is not defined"

end Problem
end Gradual
