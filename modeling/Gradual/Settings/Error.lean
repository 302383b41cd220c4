import Gradual.Settings.FileTree

/-!
What can be wrong with settings.
-/

namespace Gradual

inductive SettingsError where
  | notFound (file : String)
  | unreadable (reason : ReadError)
  /-- A file that does not hold settings. -/
  | malformed (file : String)
  /-- An environment variable that does not hold a version. -/
  | unknownVersion (text : String)
  | unknownFormat (text : String)
  | unsupportedVersion (version : Nat)
  deriving DecidableEq, Repr

namespace SettingsError

/-- The environment variable that sets the version. -/
def versionVariable : String := "PYRITE_PYTHON_VERSION"

def message : SettingsError → String
  | notFound file => "Configuration file not found: " ++ file
  | unreadable reason => "Failed to read configuration file: " ++ reason.message
  | malformed file => "Invalid TOML syntax in " ++ file
  | unknownVersion text =>
    "Invalid value for '" ++ versionVariable ++ "': expected 2 or 3, got '" ++ text ++ "'"
  | unknownFormat text =>
    "Invalid value for 'output.format': unknown format '" ++ text ++ "'"
  | unsupportedVersion version => "Unsupported python version: " ++ toString version

end SettingsError

/-- The versions of the language that the checker knows. -/
def supportedVersions : List Nat := [2, 3]

/-- Refuses a version that the checker does not know. -/
def checkVersion (version : Nat) : Except SettingsError Unit :=
  if supportedVersions.contains version then .ok () else .error (.unsupportedVersion version)

/-- Refuses a version, if there is one, that the checker does not know. -/
def checkVersion? : Option Nat → Except SettingsError Unit
  | some version => checkVersion version
  | none => .ok ()

/-- Reads a settings file. -/
def FileTree.readSettings (t : FileTree) (p : Path) : Except SettingsError String :=
  match t.read p with
  | .ok text => .ok text
  | .error .notFound => .error (.notFound (t.pathText p))
  | .error reason => .error (.unreadable reason)

end Gradual
