import Gradual.Checker.Assignment

/-!
Iteration: the type of the items that a value gives one by one.
-/

namespace Gradual.Check

/-- The type of the items of a value; the items of a tuple are joined. -/
def itemType (sequence : Operand) (span : Span) : Check Ty := do
  let iterable ← sequence.accept none
  checkHasValue iterable sequence.call span
  match iterable with
  | .void => return .any
  | .tuple items =>
    let joined ← joinAll items
    if joined.isError then
      report .noItemType span
      return .any
    return joined
  | iterable =>
    let expected ← named "builtins.Iterable" [.any]
    if !(← isSubtype iterable expected) then
      report .iterableExpected span
      return .any
    let iterator ← checkMethodCall "__iter__" iterable [] span
    checkMethodCall (← read).options.nextMethod iterator [] span

end Gradual.Check
