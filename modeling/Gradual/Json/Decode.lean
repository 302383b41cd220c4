import Gradual.Json.Document

/-!
Decoding of JSON documents into records, alternatives and lists. Every rule here is one of the
format: a record may be written as an object or as an array of its fields in order, members that are
not fields are passed over, a field may not be given twice, an alternative is an object with one
member, or only the name where it holds nothing, and no value may lie too deep.
-/

namespace Gradual

/-- Decodes a document that may open so many more arrays and objects. -/
abbrev Decoder (α : Type) := (levels : Nat) → JsonDoc → Option α

namespace Decoder

/-- How many arrays and objects may be open at once. -/
def maxLevels : Nat := 127

/-- Reads and decodes a text. -/
def run {α : Type} (d : Decoder α) (text : String) : Option α :=
  (JsonDoc.ofText? text).bind (d maxLevels)

def text : Decoder String := fun _ doc => doc.text?

def bool : Decoder Bool
  | _, .bool b => some b
  | _, _ => none

/-- An integer from `low` to `high`. -/
def intIn (low high : Int) : Decoder Int := fun _ doc => do
  let n ← doc.int?
  if low ≤ n ∧ n ≤ high then some n else none

/-- A natural number of so many bits. -/
def natOfBits (bits : Nat) : Decoder Nat := fun levels doc =>
  (intIn 0 (Int.ofNat (Nat.pow 2 bits) - 1) levels doc).map Int.toNat

/-- Opens an array. -/
def list {α : Type} (d : Decoder α) : Decoder (List α)
  | levels + 1, .array items => items.mapM (d levels)
  | _, _ => none

/-- Nothing is written as a null value. -/
def optional {α : Type} (d : Decoder α) : Decoder (Option α)
  | _, .null => some none
  | levels, doc => (d levels doc).map some

/-- The value of a field, if the object has it; it may have it only once. -/
def member? (members : List (String × JsonDoc)) (name : String) : Option (Option JsonDoc) :=
  match members.filter (·.1 == name) with
  | [] => some none
  | [(_, doc)] => some (some doc)
  | _ => none

/-- Opens a record with fields of these names and gives the value of each that is there. -/
def fields (names : List String) : Decoder (Nat × List (Option JsonDoc))
  | levels + 1, .object members => do
    let members ← members.mapM fun (key, doc) =>
      return (String.ofList (← JsonDoc.unescape key), doc)
    return (levels, ← names.mapM (member? members))
  | levels + 1, .array items =>
    if items.length ≤ names.length then
      some (levels, names.mapIdx fun i _ => items[i]?)
    else none
  | _, _ => none

/-- A field that has to be there. -/
def required {α : Type} (d : Decoder α) (levels : Nat) (field : Option JsonDoc) : Option α :=
  field.bind (d levels)

/-- A field that has a value when it is not there. -/
def withDefault {α : Type} (d : Decoder α) (default : α) (levels : Nat)
    (field : Option JsonDoc) : Option α :=
  match field with
  | none => some default
  | some doc => d levels doc

/-- One of several alternatives: those that hold nothing, by name, and those that hold a value. -/
def variant {α : Type} (units : List (String × α)) (holders : List (String × Decoder α)) :
    Decoder α
  | _, .string body => do
    let name ← JsonDoc.unescape body
    units.lookup (String.ofList name)
  | levels + 1, .object [(key, doc)] => do
    let name := String.ofList (← JsonDoc.unescape key)
    match units.lookup name, doc with
    | some a, .null => return a
    | some _, _ => none
    | none, doc => (← holders.lookup name) levels doc
  | _, _ => none

end Decoder
end Gradual
