import Gradual.Checker.Call

/-!
Displays of lists, sets and dictionaries: their items are compared with the item type that is
expected, or else joined.
-/

namespace Gradual

/-- The class of what a display creates. -/
def Display.className : Display → String
  | .list => "builtins.list"
  | .set => "builtins.set"
  | .dict => "builtins.dict"

namespace Check

/-- The type arguments of the expected type, if it is an instance of a class with so many. -/
def expectedArgs? (fullName : String) (count : Nat) : Check (Option (List Ty)) := do
  match ← expectedType with
  | some (.inst _ name args) =>
    return if name = fullName ∧ args.length = count then some args else none
  | _ => return none

/-- The only type argument of the expected type, if it is an instance of the class. -/
def expectedItem? (fullName : String) : Check (Option Ty) :=
  return (← expectedArgs? fullName 1).bind List.head?

/-- Compares items, from the position `i` on, with the expected item type. -/
def checkItems (display : Display) (item : Ty) : (i : Nat) → List (Operand × Span) → Check Unit
  | _, [] => return ()
  | i, (operand, span) :: rest => do
    let type ← operand.accept (some item)
    if !(← isSubtype type item) then report (.displayItem display i type) span
    checkItems display item (i + 1) rest

/-- Joins the types of items. -/
def joinItems (items : List (Operand × Span)) : Check Ty := do
  joinAll (← items.mapM fun (operand, _) => operand.accept none)

/-- The type of a list or set that is written out. -/
def sequenceDisplay (display : Display) (items : List (Operand × Span)) : Check Ty := do
  match ← expectedItem? display.className with
  | some item =>
    checkItems display item 1 items
    named display.className [item]
  | none =>
    let joined ← joinItems items
    if joined.isError then
      if let some (_, span) := items.head? then report (.noDisplayItemType display) span
      named display.className [.any]
    else named display.className [joined]

/-- A key and a value of a dictionary that is written out. -/
structure DictEntry where
  key : Operand
  value : Operand
  span : Span

/-- Compares entries, from the position `i` on, with the expected types. -/
def checkEntries (key value : Ty) : (i : Nat) → List DictEntry → Check Unit
  | _, [] => return ()
  | i, e :: rest => do
    let k ← e.key.accept (some key)
    let v ← e.value.accept (some value)
    if !(← isSubtype k key) || !(← isSubtype v value) then
      report (.displayItem .dict i (.tuple [k, v])) e.span
    checkEntries key value (i + 1) rest

/-- The type of a dictionary that is written out. -/
def dictDisplay (entries : List DictEntry) (span : Span) : Check Ty := do
  match ← expectedArgs? "builtins.dict" 2 with
  | some [key, value] =>
    checkEntries key value 1 entries
    named "builtins.dict" [key, value]
  | _ =>
    let types ← entries.mapM fun e => return (← e.key.accept none, ← e.value.accept none)
    let keys ← joinAll (types.map (·.1))
    let values ← joinAll (types.map (·.2))
    if keys.isError || values.isError then
      report (.noDisplayItemType .dict) span
      named "builtins.dict" [.any, .any]
    else named "builtins.dict" [keys, values]

/-- The type of a tuple that is written out. -/
def tupleDisplay (items : List Operand) : Check Ty := do
  let expected ← match ← expectedType with
    | some (.tuple types) =>
      pure (if types.length = items.length then types.map some else items.map fun _ => none)
    | _ => pure (items.map fun _ => none)
  return .tuple (← (items.zip expected).mapM fun (item, type) => item.accept type)

end Check
end Gradual
