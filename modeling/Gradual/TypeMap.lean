import Gradual.Json.Decode
import Gradual.Json.Value
import Gradual.Syntax.Expr
import Gradual.Ty.Display
import Gradual.Version
import Std.Data.TreeSet

/-!
The types of the expressions of a module, and the report of them for other programs.
-/

namespace Gradual

/-- The type recorded last for each expression. -/
abbrev TypeMap := Std.TreeMap NodeId Ty

/-- The type of an expression, in words. -/
structure TypeEntry where
  node : Nat
  type : String
  kind : String
  deriving DecidableEq, Repr

structure TypeReport where
  version : Nat
  module : String
  /-- One entry for each expression, in the order of the ids. -/
  entries : List TypeEntry
  /-- The types that occur, each once, in alphabetical order. -/
  types : List String
  deriving DecidableEq, Repr

namespace TypeReport

def ofTypeMap (module : String) (types : TypeMap) : TypeReport :=
  let entries := types.toList.map fun (node, type) => ⟨node, type.display, type.kindName⟩
  { version := typeReportVersion, module, entries
    types := (Std.TreeSet.ofList (entries.map (·.type))).toList }

def entryFields : List String := ["node", "type", "kind"]

def entryToJson (e : TypeEntry) : Json :=
  .obj (entryFields.zip [.nat e.node, .str e.type, .str e.kind])

def fields : List String := ["typemap_version", "module", "entries", "types"]

def toJson (r : TypeReport) : Json :=
  .obj (fields.zip
    [.nat r.version, .str r.module, Json.list entryToJson r.entries, Json.list .str r.types])

open Decoder in
def decodeEntry : Decoder TypeEntry := fun levels doc => do
  match ← Decoder.fields entryFields levels doc with
  | (levels, [node, type, kind]) =>
    return ⟨← required (natOfBits 32) levels node, ← required text levels type,
      ← required text levels kind⟩
  | _ => none

open Decoder in
def decode : Decoder TypeReport := fun levels doc => do
  match ← Decoder.fields fields levels doc with
  | (levels, [version, module, entries, types]) =>
    return ⟨← required (natOfBits 32) levels version, ← required text levels module,
      ← required (list decodeEntry) levels entries, ← required (list text) levels types⟩
  | _ => none

def ofJsonText? (text : String) : Option TypeReport := decode.run text

end TypeReport
end Gradual
