import Gradual.Settings.Error
import Gradual.Settings.Section
import Gradual.Toml.Reader

/-!
The settings of a user, which count where a project sets nothing.
-/

namespace Gradual

structure DefaultsSection where
  version : Option Nat
  format : Option OutputFormat
  deriving DecidableEq, Repr

structure GlobalSettings where
  defaults : Option DefaultsSection
  deriving DecidableEq, Repr

def DefaultsSection.ofValue? (v : Toml.Value) : Option DefaultsSection := do
  match ← v.fields? ["python_version", "output_format"] with
  | [version, format] =>
    return ⟨← Toml.Value.read? Toml.Value.version? version,
      ← Toml.Value.read? Toml.Value.format? format⟩
  | _ => none

def DefaultsSection.toJson (s : DefaultsSection) : Json :=
  .obj (settingMember "python_version" .nat s.version
    ++ settingMember "output_format" OutputFormat.toJson s.format)

namespace GlobalSettings

/-- Nothing is set. -/
def empty : GlobalSettings := ⟨none⟩

instance : Inhabited GlobalSettings := ⟨empty⟩

def version? (s : GlobalSettings) : Option Nat := s.defaults.bind (·.version)

def format? (s : GlobalSettings) : Option OutputFormat := s.defaults.bind (·.format)

/-- Refuses a version that the checker does not know. -/
def validate (s : GlobalSettings) : Except SettingsError Unit := checkVersion? s.version?

def ofText? (text : String) : Option GlobalSettings := do
  match ← (Toml.Value.table .header (← Toml.Table.ofText? text)).fields? ["defaults"] with
  | [defaults] => return ⟨← Toml.Value.read? DefaultsSection.ofValue? defaults⟩
  | _ => none

def toJson (s : GlobalSettings) : Json :=
  .obj (settingMember "defaults" DefaultsSection.toJson s.defaults)

/-- Loads the settings in a file. -/
def load (t : FileTree) (p : Path) : Except SettingsError GlobalSettings := do
  match ofText? (← t.readSettings p) with
  | some s =>
    s.validate
    return s
  | none => throw (.malformed (t.pathText p))

end GlobalSettings
end Gradual
