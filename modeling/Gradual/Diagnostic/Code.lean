/-!
The registry of problem codes: what each stands for, and advice where there is some.
-/

namespace Gradual

/-- The kinds of problems, in the order of their codes. -/
inductive Code where
  | incompatibleTypes
  | incompatibleAssignment
  | incompatibleReturnValue
  | noReturnValueExpected
  | returnValueExpected
  | doesNotReturnValue
  | invalidReturnTypeForYield
  | invalidExceptionType
  | iterableExpected
  | cannotInferItemType
  | valueCountMismatch
  | needsType
  | initReturnType
  | inconsistentAbstractOverload
  | signatureIncompatibleWithSupertype
  | argumentIncompatibleWithSupertype
  | returnIncompatibleWithSupertype
  | baseClassDefinitionsIncompatible
  | incompatibleConditionalFunctionDef
  | incompatibleOperatorAssignment
  | incompatibleTypesInFor
  | hasNoAttribute
  | notCallable
  | argCount
  | incompatibleArgument
  | unsupportedOperand
  | noMatchingOverload
  | invalidTupleIndex
  | cannotInferTypeArgument
  | unsupportedException
  | cannotDetermineType
  | superOutsideClass
  | invalidTypeApplication
  | invalidSliceIndex
  | missingBuiltin
  deriving DecidableEq, Repr

namespace Code

/-- Every kind, in order. -/
def all : List Code :=
  [.incompatibleTypes, .incompatibleAssignment, .incompatibleReturnValue, .noReturnValueExpected,
    .returnValueExpected, .doesNotReturnValue, .invalidReturnTypeForYield, .invalidExceptionType,
    .iterableExpected, .cannotInferItemType, .valueCountMismatch, .needsType,
    .initReturnType, .inconsistentAbstractOverload, .signatureIncompatibleWithSupertype,
    .argumentIncompatibleWithSupertype, .returnIncompatibleWithSupertype,
    .baseClassDefinitionsIncompatible, .incompatibleConditionalFunctionDef,
    .incompatibleOperatorAssignment, .incompatibleTypesInFor, .hasNoAttribute, .notCallable,
    .argCount, .incompatibleArgument, .unsupportedOperand, .noMatchingOverload,
    .invalidTupleIndex, .cannotInferTypeArgument, .unsupportedException, .cannotDetermineType,
    .superOutsideClass, .invalidTypeApplication, .invalidSliceIndex, .missingBuiltin]

/-- The code as it is printed. Problems of the checked program start with 3, problems of the setup
with 9. -/
def text : Code → String
  | .incompatibleTypes => "PY3001"
  | .incompatibleAssignment => "PY3002"
  | .incompatibleReturnValue => "PY3003"
  | .noReturnValueExpected => "PY3004"
  | .returnValueExpected => "PY3005"
  | .doesNotReturnValue => "PY3006"
  | .invalidReturnTypeForYield => "PY3007"
  | .invalidExceptionType => "PY3008"
  | .iterableExpected => "PY3009"
  | .cannotInferItemType => "PY3010"
  | .valueCountMismatch => "PY3011"
  | .needsType => "PY3012"
  | .initReturnType => "PY3013"
  | .inconsistentAbstractOverload => "PY3014"
  | .signatureIncompatibleWithSupertype => "PY3015"
  | .argumentIncompatibleWithSupertype => "PY3016"
  | .returnIncompatibleWithSupertype => "PY3017"
  | .baseClassDefinitionsIncompatible => "PY3018"
  | .incompatibleConditionalFunctionDef => "PY3019"
  | .incompatibleOperatorAssignment => "PY3020"
  | .incompatibleTypesInFor => "PY3021"
  | .hasNoAttribute => "PY3022"
  | .notCallable => "PY3023"
  | .argCount => "PY3024"
  | .incompatibleArgument => "PY3025"
  | .unsupportedOperand => "PY3026"
  | .noMatchingOverload => "PY3027"
  | .invalidTupleIndex => "PY3028"
  | .cannotInferTypeArgument => "PY3029"
  | .unsupportedException => "PY3030"
  | .cannotDetermineType => "PY3031"
  | .superOutsideClass => "PY3032"
  | .invalidTypeApplication => "PY3033"
  | .invalidSliceIndex => "PY3034"
  | .missingBuiltin => "PY9001"

/-- What the code stands for, in general. -/
def description : Code → String
  | .incompatibleTypes => "Incompatible types"
  | .incompatibleAssignment => "Incompatible types in assignment"
  | .incompatibleReturnValue => "Incompatible return value type"
  | .noReturnValueExpected => "No return value expected"
  | .returnValueExpected => "Return value expected"
  | .doesNotReturnValue => "Function does not return a value"
  | .invalidReturnTypeForYield => "Iterator function return type expected for yield"
  | .invalidExceptionType => "Invalid exception type"
  | .iterableExpected => "Iterable expected"
  | .cannotInferItemType => "Cannot infer iterable item type"
  | .valueCountMismatch => "Wrong number of values to unpack"
  | .needsType => "Need type annotation for variable"
  | .initReturnType => "Cannot define return type for __init__"
  | .inconsistentAbstractOverload => "Overloaded method has both abstract and non-abstract variants"
  | .signatureIncompatibleWithSupertype => "Signature incompatible with supertype"
  | .argumentIncompatibleWithSupertype => "Argument incompatible with supertype"
  | .returnIncompatibleWithSupertype => "Return type incompatible with supertype"
  | .baseClassDefinitionsIncompatible => "Base classes define incompatible members"
  | .incompatibleConditionalFunctionDef =>
    "Conditional function variants must have identical signatures"
  | .incompatibleOperatorAssignment => "Result type of operator assignment is incompatible"
  | .incompatibleTypesInFor => "Incompatible types in for statement"
  | .hasNoAttribute => "Attribute not found"
  | .notCallable => "Value is not callable"
  | .argCount => "Wrong number of arguments"
  | .incompatibleArgument => "Incompatible argument type"
  | .unsupportedOperand => "Unsupported operand types"
  | .noMatchingOverload => "No overload variant matches the arguments"
  | .invalidTupleIndex => "Invalid tuple index"
  | .cannotInferTypeArgument => "Cannot infer type argument"
  | .unsupportedException => "Unsupported exception expression"
  | .cannotDetermineType => "Cannot determine type"
  | .superOutsideClass => "super() used outside a class"
  | .invalidTypeApplication => "Invalid type application"
  | .invalidSliceIndex => "Slice index must be an integer or None"
  | .missingBuiltin => "Builtin definition not available"

/-- Advice on what to do about a problem of the kind. -/
def help? : Code → Option String
  | .incompatibleAssignment =>
    some "The assigned value must be a subtype of the target's declared type."
  | .incompatibleReturnValue => some "Return a value compatible with the declared return type."
  | .noReturnValueExpected =>
    some "The function is declared to return None; remove the returned value."
  | .doesNotReturnValue =>
    some "A call to a function declared to return None cannot be used as a value."
  | .invalidReturnTypeForYield => some "Declare the generator's return type as Iterator[T]."
  | .invalidExceptionType => some "Only BaseException subclasses can be raised or caught."
  | .needsType =>
    some "The initializer does not determine a precise type; annotate the variable."
  | .argumentIncompatibleWithSupertype =>
    some "Overriding methods must accept exactly the argument types of the base method."
  | .baseClassDefinitionsIncompatible =>
    some "Override the member in the derived class or make the base definitions agree."
  | .argCount => some "Check the function signature for the accepted arguments."
  | .invalidTupleIndex => some "Tuples can only be indexed with integer literals within range."
  | .missingBuiltin =>
    some "The builtins module is incomplete; this is a setup problem, not a user error."
  | _ => none

/-- The kind that is printed that way. -/
def ofText? (text : String) : Option Code := all.find? (·.text == text)

theorem mem_all (c : Code) : c ∈ all := by
  cases c <;> decide

end Code
end Gradual
