import Gradual.Json.Decode
import Gradual.Json.Value
import Gradual.Ty.Basic

/-!
Types as JSON values, written and read. Each form of a type is an object with one member that names
the form; forms that hold nothing are their names.
-/

namespace Gradual

def ArgKind.word : ArgKind → String
  | .pos => "pos"
  | .opt => "opt"
  | .star => "star"
  | .named => "named"
  | .star2 => "star2"

def ArgKind.words : List (String × ArgKind) :=
  [.pos, .opt, .star, .named, .star2].map fun kind => (kind.word, kind)

/-- The fields of an instance, in order. -/
def instanceFields : List String := ["class", "name", "args"]

def typeVarFields : List String := ["name", "id", "values", "upper_bound"]

def signatureFields : List String :=
  ["arg_types", "arg_kinds", "arg_names", "ret_type", "variables", "is_type_obj", "name",
    "implicit"]

mutual

def Ty.toJson : Ty → Json
  | .any => .str "Any"
  | .void => .str "Void"
  | .noneType => .str "NoneTyp"
  | .inst cls name args =>
    .obj [("Instance", .obj (instanceFields.zip [.nat cls, .str name, .arr (tysToJson args)]))]
  | .callable sig => .obj [("Callable", sig.toJson)]
  | .overloaded items => .obj [("Overloaded", .arr (signaturesToJson items))]
  | .tuple items => .obj [("Tuple", .arr (tysToJson items))]
  | .typeVar v => .obj [("TypeVar", v.toJson)]
  | .unbound name => .obj [("Unbound", .str name)]
  | .error => .str "Error"

def TypeVar.toJson : TypeVar → Json
  | ⟨name, id, values, upperBound⟩ =>
    .obj (typeVarFields.zip [.str name, .int id, .arr (tysToJson values), upperBound.toJson])

def Signature.toJson : Signature → Json
  | ⟨argTypes, argKinds, argNames, ret, quantified, isTypeObject, name, isImplicit⟩ =>
    .obj (signatureFields.zip
      [.arr (tysToJson argTypes), Json.list (fun kind => .str kind.word) argKinds,
        Json.list (Json.option .str) argNames, ret.toJson, .arr (typeVarsToJson quantified),
        .bool isTypeObject, Json.option .str name, .bool isImplicit])

def tysToJson : List Ty → List Json
  | [] => []
  | t :: ts => t.toJson :: tysToJson ts

def typeVarsToJson : List TypeVar → List Json
  | [] => []
  | v :: vs => v.toJson :: typeVarsToJson vs

def signaturesToJson : List Signature → List Json
  | [] => []
  | s :: ss => s.toJson :: signaturesToJson ss

end

open Decoder in
/-- Decodes an instance, given how its type arguments are decoded. -/
def decodeInstance (ty : Decoder Ty) : Decoder Ty := fun levels doc => do
  match ← fields instanceFields levels doc with
  | (levels, [cls, name, args]) =>
    return .inst (← required (natOfBits 32) levels cls) (← required text levels name)
      (← required (list ty) levels args)
  | _ => none

open Decoder in
def decodeTypeVar (ty : Decoder Ty) : Decoder TypeVar := fun levels doc => do
  match ← fields typeVarFields levels doc with
  | (levels, [name, id, values, upperBound]) =>
    return ⟨← required text levels name,
      ← required (intIn Int32.minValue.toInt Int32.maxValue.toInt) levels id,
      ← required (list ty) levels values, ← required ty levels upperBound⟩
  | _ => none

open Decoder in
/-- In an object the name of the function may be left out. -/
def decodeSignature (ty : Decoder Ty) : Decoder Signature := fun levels doc => do
  match ← fields signatureFields levels doc with
  | (levels, [argTypes, argKinds, argNames, ret, quantified, isTypeObject, name, isImplicit]) =>
    return ⟨← required (list ty) levels argTypes,
      ← required (list (variant ArgKind.words [])) levels argKinds,
      ← required (list (optional text)) levels argNames, ← required ty levels ret,
      ← required (list (decodeTypeVar ty)) levels quantified,
      ← required bool levels isTypeObject, ← withDefault (optional text) none levels name,
      ← required bool levels isImplicit⟩
  | _ => none

open Decoder in
/-- Decodes a type that is nested at most so many steps deep. -/
def decodeTyWithin : (steps : Nat) → Decoder Ty
  | 0 => fun _ _ => none
  | steps + 1 =>
    let ty := decodeTyWithin steps
    variant
      [("Any", .any), ("Void", .void), ("NoneTyp", .noneType), ("Error", .error)]
      [("Instance", decodeInstance ty),
        ("Callable", fun levels doc => (decodeSignature ty levels doc).map .callable),
        ("Overloaded", fun levels doc => (list (decodeSignature ty) levels doc).map .overloaded),
        ("Tuple", fun levels doc => (list ty levels doc).map .tuple),
        ("TypeVar", fun levels doc => (decodeTypeVar ty levels doc).map .typeVar),
        ("Unbound", fun levels doc => (text levels doc).map .unbound)]

/-- Every step opens an object, so the levels of the format bound the steps. -/
def decodeTy : Decoder Ty := decodeTyWithin (Decoder.maxLevels + 1)

def Ty.ofJsonText? (text : String) : Option Ty := decodeTy.run text

end Gradual
