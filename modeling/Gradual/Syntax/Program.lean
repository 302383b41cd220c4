import Gradual.ClassTable.Basic
import Gradual.Syntax.Stmt

/-!
Programs: the modules, the classes and the types of variables, and how dotted names are looked up.
-/

namespace Gradual

/-- A source file. -/
structure Module where
  name : String
  path : String
  body : Block
  names : SymbolTable

structure Program where
  modules : Std.TreeMap String Module
  classes : ClassTable
  /-- The first id that no expression of the program has. -/
  nextNode : NodeId
  vars : VarTypes

/-- Why a name could not be looked up. -/
inductive LookupError where
  | unknownModule (name : String)
  | unknownName (module name : String)
  | notAClass (name : String)
  deriving DecidableEq, Repr

def LookupError.message : LookupError → String
  | .unknownModule name => "unknown module '" ++ name ++ "'"
  | .unknownName module name => "name '" ++ name ++ "' is not defined in module '" ++ module ++ "'"
  | .notAClass name => "'" ++ name ++ "' does not refer to a class"

/-- The ways to cut a list into two parts that are not empty, the longest first part first. -/
def properSplits {α : Type} : List α → List (List α × List α)
  | [] => []
  | [_] => []
  | x :: rest => (properSplits rest).map (fun (a, b) => (x :: a, b)) ++ [([x], rest)]

namespace Program

def module? (p : Program) (name : String) : Except LookupError Module :=
  match p.modules[name]? with
  | some m => .ok m
  | none => .error (.unknownModule name)

/-- Follows names from a module through the modules that they are bound to; `seen` is the dotted
name up to here. -/
def follow (p : Program) (m : Module) (seen : List String) : List String → Except LookupError Symbol
  | [] => .error (.unknownModule (".".intercalate seen))
  | name :: rest => do
    let entry ← match m.names[name]? with
      | some entry => pure entry
      | none => throw (.unknownName m.name name)
    let seen := seen ++ [name]
    match rest, entry.symbol with
    | [], symbol => return symbol
    | _, .module next => p.follow (← p.module? next) seen rest
    | _, _ => throw (.unknownModule (".".intercalate seen))

/-- Resolves a dotted name. The longest proper part of it that is the name of a module is where the
search starts. -/
def lookup (p : Program) (name : String) : Except LookupError Symbol :=
  let parts := name.splitOn "."
  let start? := (properSplits parts).findSome? fun (modulePart, rest) =>
    p.modules[".".intercalate modulePart]?.map fun m => (m, modulePart, rest)
  match start? with
  | some (m, modulePart, rest) => p.follow m modulePart rest
  | none => .error (.unknownModule (parts.headD ""))

/-- Resolves a dotted name that has to be a class. -/
def lookupClass (p : Program) (name : String) : Except LookupError ClassId := do
  match ← p.lookup name with
  | .cls c => return c
  | _ => throw (.notAClass name)

end Program
end Gradual
