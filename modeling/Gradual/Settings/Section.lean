import Gradual.Json.Value
import Gradual.Settings.OutputFormat
import Gradual.Toml.Value

/-!
Settings in TOML values: sections with named fields, and the values of the fields.
-/

namespace Gradual.Toml.Value

/-- The values of the fields of a section that are given by the items of an array, in order from its
start. None may be left out. -/
def fieldsInOrder? (names : List String) (items : List Value) : Option (List (Option Value)) :=
  if names.length ≤ items.length then some ((items.take names.length).map some) else none

/-- The values of the fields of a section. A table has no other entries. -/
def fields? (names : List String) : Value → Option (List (Option Value))
  | .table _ entries =>
    if entries.all (fun (name, _) => names.contains name) then
      some (names.map (Table.get? entries))
    else none
  | .array items => fieldsInOrder? names items
  | .tables earlier last => fieldsInOrder? names ((earlier ++ [last]).map (.table .listed))
  | .text _ | .integer _ | .other => none

/-- A version is a number that fits into 32 bits. -/
def version? : Value → Option Nat
  | .integer n => if 0 ≤ n ∧ n.toNat < UInt32.size then some n.toNat else none
  | _ => none

/-- A format is its word, or an empty table or array under its word. -/
def format? : Value → Option OutputFormat
  | .text word => OutputFormat.ofWord? word
  | .table _ [(word, .table _ [])] => OutputFormat.ofWord? word
  | .table _ [(word, .array [])] => OutputFormat.ofWord? word
  | _ => none

/-- Reads the value of a field, if there is one. -/
def read? {α : Type} (read : Value → Option α) : Option Value → Option (Option α)
  | none => some none
  | some v => (read v).map some

end Gradual.Toml.Value

namespace Gradual

/-- A member for a field that is left out when it is not set. -/
def settingMember {α : Type} (name : String) (write : α → Json) : Option α → List (String × Json)
  | some a => [(name, write a)]
  | none => []

def OutputFormat.toJson (f : OutputFormat) : Json := .str f.word

end Gradual
