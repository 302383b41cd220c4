import Gradual.Settings.Error
import Gradual.Settings.Section
import Gradual.Toml.Reader

/-!
The settings of a project.
-/

namespace Gradual

structure CheckerSection where
  version : Option Nat
  deriving DecidableEq, Repr

structure OutputSection where
  format : Option OutputFormat
  deriving DecidableEq, Repr

/-- The settings of a project. A section may be there without setting anything. -/
structure ProjectSettings where
  checker : Option CheckerSection
  output : Option OutputSection
  deriving DecidableEq, Repr

def CheckerSection.ofValue? (v : Toml.Value) : Option CheckerSection := do
  match ← v.fields? ["python_version"] with
  | [version] => return ⟨← Toml.Value.read? Toml.Value.version? version⟩
  | _ => none

def OutputSection.ofValue? (v : Toml.Value) : Option OutputSection := do
  match ← v.fields? ["format"] with
  | [format] => return ⟨← Toml.Value.read? Toml.Value.format? format⟩
  | _ => none

def CheckerSection.toJson (s : CheckerSection) : Json :=
  .obj (settingMember "python_version" .nat s.version)

def OutputSection.toJson (s : OutputSection) : Json :=
  .obj (settingMember "format" OutputFormat.toJson s.format)

namespace ProjectSettings

/-- Nothing is set. -/
def empty : ProjectSettings := ⟨none, none⟩

instance : Inhabited ProjectSettings := ⟨empty⟩

def version? (s : ProjectSettings) : Option Nat := s.checker.bind (·.version)

def format? (s : ProjectSettings) : Option OutputFormat := s.output.bind (·.format)

def setVersion (s : ProjectSettings) (version : Nat) : ProjectSettings :=
  { s with checker := some ⟨some version⟩ }

def setFormat (s : ProjectSettings) (format : OutputFormat) : ProjectSettings :=
  { s with output := some ⟨some format⟩ }

/-- Puts what is set in other settings in place of what is set here. -/
def merge (s other : ProjectSettings) : ProjectSettings :=
  let s := match other.version? with
    | some version => s.setVersion version
    | none => s
  match other.format? with
  | some format => s.setFormat format
  | none => s

/-- Refuses a version that the checker does not know. -/
def validate (s : ProjectSettings) : Except SettingsError Unit := checkVersion? s.version?

def ofText? (text : String) : Option ProjectSettings := do
  match ← (Toml.Value.table .header (← Toml.Table.ofText? text)).fields? ["checker", "output"] with
  | [checker, output] =>
    return ⟨← Toml.Value.read? CheckerSection.ofValue? checker,
      ← Toml.Value.read? OutputSection.ofValue? output⟩
  | _ => none

def toJson (s : ProjectSettings) : Json :=
  .obj (settingMember "checker" CheckerSection.toJson s.checker
    ++ settingMember "output" OutputSection.toJson s.output)

/-- Loads the settings in a file. -/
def load (t : FileTree) (p : Path) : Except SettingsError ProjectSettings := do
  match ofText? (← t.readSettings p) with
  | some s =>
    s.validate
    return s
  | none => throw (.malformed (t.pathText p))

@[simp] theorem version?_setVersion (s : ProjectSettings) (version : Nat) :
    (s.setVersion version).version? = some version := rfl

@[simp] theorem format?_setVersion (s : ProjectSettings) (version : Nat) :
    (s.setVersion version).format? = s.format? := rfl

@[simp] theorem version?_setFormat (s : ProjectSettings) (format : OutputFormat) :
    (s.setFormat format).version? = s.version? := rfl

@[simp] theorem format?_setFormat (s : ProjectSettings) (format : OutputFormat) :
    (s.setFormat format).format? = some format := rfl

end ProjectSettings
end Gradual
