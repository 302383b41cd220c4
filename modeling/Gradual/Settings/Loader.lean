import Gradual.Settings.Environment
import Gradual.Settings.Global
import Gradual.Settings.Options
import Gradual.Settings.Project

/-!
The settings in force. Each is taken from the environment, else from the nearest project file, else
from the global file, else it is the built-in one.
-/

namespace Gradual

/-- The settings that were found. -/
structure Settings where
  /-- The settings of the project, with those of the environment in their place. -/
  project : ProjectSettings
  global : GlobalSettings
  /-- The directory of the project file. -/
  root : Option Path

namespace Settings

def version (s : Settings) : Nat := (s.project.version?.or s.global.version?).getD defaultVersion

def format (s : Settings) : OutputFormat := (s.project.format?.or s.global.format?).getD default

def isProject (s : Settings) : Bool := s.root.isSome

def toOptions (s : Settings) : Options := ⟨s.version, s.format⟩

end Settings

/-- The name of a project file. -/
def projectFile : String := "pyrite.toml"

/-- The global file of a user, from the home directory down. -/
def globalFile : Path := [".pyrite", "config.toml"]

/-- Where settings are looked for. -/
structure Loader where
  tree : FileTree
  /-- The global file, which need not be there. -/
  globalPath : Path
  environment : Environment

namespace Loader

/-- A loader that looks for the global file in a home directory. -/
def withHome (tree : FileTree) (home : Path) (environment : Environment) : Loader :=
  ⟨tree, home ++ globalFile, environment⟩

/-- Finds the nearest project file, upwards from a directory. -/
def projectRoot? (l : Loader) (start : Path) : Option Path :=
  (Path.upwards start).find? fun dir => l.tree.contains (dir ++ [projectFile])

/-- Loads the global settings. Nothing is set if the file is not there. -/
def loadGlobal (l : Loader) : Except SettingsError GlobalSettings :=
  if l.tree.contains l.globalPath then GlobalSettings.load l.tree l.globalPath else .ok .empty

/-- Puts the version of the environment in place. -/
def overrideVersion (l : Loader) (s : ProjectSettings) : Except SettingsError ProjectSettings :=
  match l.environment.version with
  | some text => return s.setVersion (← versionOfText text)
  | none => return s

/-- Puts the format of the environment in place. -/
def overrideFormat (l : Loader) (s : ProjectSettings) : Except SettingsError ProjectSettings :=
  match l.environment.format with
  | some text => return s.setFormat (← OutputFormat.ofText text)
  | none => return s

/-- Completes the settings of a project. -/
def complete (l : Loader) (root : Option Path) (project : ProjectSettings) :
    Except SettingsError Settings := do
  let global ← l.loadGlobal
  let project ← l.overrideFormat (← l.overrideVersion project)
  return ⟨project, global, root⟩

/-- Loads the settings for a directory. -/
def loadFromDirectory (l : Loader) (start : Path) : Except SettingsError Settings := do
  match l.projectRoot? start with
  | some root => l.complete root (← ProjectSettings.load l.tree (root ++ [projectFile]))
  | none => l.complete none .empty

/-- Loads the settings with a given project file. -/
def loadFromFile (l : Loader) (file : Path) : Except SettingsError Settings := do
  l.complete (some file.dropLast) (← ProjectSettings.load l.tree file)

end Loader
end Gradual
