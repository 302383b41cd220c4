import Gradual.Checker.Stmt

/-!
Checking of modules and programs. Modules are checked one after the other in one state, in which the
types that one module gives to variables are there for the next.
-/

namespace Gradual

/-- What is found out about a module. -/
structure Report where
  module : String
  types : TypeMap
  diagnostics : List Diagnostic

namespace Report

def hasErrors (r : Report) : Bool := !r.diagnostics.isEmpty

def render (r : Report) (format : OutputFormat) : String := Diagnostic.render r.diagnostics format

def typeReport (r : Report) : TypeReport := .ofTypeMap r.module r.types

end Report

/-- The state before the first module is checked. -/
def State.initial (p : Program) : State :=
  { file := "", globals := ∅, scope := .outermost, types := ∅, diagnostics := [], missing := ∅
    nextNode := p.nextNode, vars := p.vars }

namespace Check

/-- Prepares for a module: nothing is recorded, reported or narrowed yet. -/
def enterModule (m : Module) : Check Unit :=
  modify fun s =>
    { s with
      file := m.path, globals := m.names, types := ∅, diagnostics := [], missing := ∅
      scope := { s.scope with locals := none, binder := .empty } }

/-- The reports of the classes that the language should provide but does not. -/
def missingReports (file : String) (missing : Std.TreeSet String) : List Diagnostic :=
  missing.toList.map fun fullName =>
    let p := Problem.missingBuiltin fullName
    { Diagnostic.error p.code.text p.text (.atLine 1) with file }

/-- Checks a module. -/
def checkModule (m : Module) : Check Report := do
  enterModule m
  Block.check m.body
  let s ← get
  return ⟨m.name, s.types, s.diagnostics ++ missingReports s.file s.missing⟩

/-- Checks the module of a name, if there is one. -/
def checkModuleNamed (name : String) : Check (Except LookupError Report) := do
  match (← read).program.module? name with
  | .ok m => return .ok (← checkModule m)
  | .error e => return .error e

end Check

/-- Runs an action of the checker on a program. -/
def Program.run {α : Type} (p : Program) (options : Options) (x : Check α) : α × State :=
  (x.run (.ofProgram p options)).run (.initial p)

/-- Checks all modules but the one that the language provides, in the order of their names. -/
def Program.check (p : Program) (options : Options) : List Report × State :=
  p.run options ((p.modules.values.filter (·.name != "builtins")).mapM Check.checkModule)

end Gradual
