import Gradual.Diagnostic.Code
import Gradual.Json.Decode
import Gradual.Json.Value
import Gradual.Settings.OutputFormat
import Gradual.Span
import Gradual.Version

/-!
Reports of problems: where and in which function or class a problem is, and how a report is
written for people and for programs.
-/

namespace Gradual

/-- How bad a problem is. -/
inductive Severity where
  | error
  deriving DecidableEq, Repr

def Severity.word : Severity → String
  | .error => "error"

structure Diagnostic where
  version : Nat
  severity : Severity
  code : String
  message : String
  file : String
  line : Nat
  /-- Counted from one. -/
  column : Nat
  length : Nat
  notes : List String
  help : Option String
  /-- The innermost named function around the problem. -/
  function : Option String
  /-- The innermost class around the problem. -/
  cls : Option String
  deriving DecidableEq, Repr

namespace Diagnostic

/-- The report of an error at a place, in a file that is not known yet. -/
def error (code message : String) (span : Span) : Diagnostic :=
  { version := diagnosticVersion, severity := .error, code, message, file := "<unknown>"
    line := span.line, column := span.start + 1, length := span.length, notes := []
    help := none, function := none, cls := none }

def withNote (d : Diagnostic) (note : String) : Diagnostic := { d with notes := d.notes ++ [note] }

/-- Where the problem is, in words. -/
def contextText? (d : Diagnostic) : Option String :=
  match d.function, d.cls with
  | some f, some c => some ("In member \"" ++ f ++ "\" of class \"" ++ c ++ "\"")
  | some f, none => some ("In function \"" ++ f ++ "\"")
  | none, some c => some ("In class \"" ++ c ++ "\"")
  | none, none => none

/-- The report for people, a few lines of text. -/
def humanText (d : Diagnostic) : String :=
  let context := match d.contextText? with
    | some context => d.file ++ ": " ++ context ++ "\n"
    | none => ""
  let notes := d.notes.map fun note => "   = note: " ++ note ++ "\n"
  let help := match d.help with
    | some help => "   = help: " ++ help ++ "\n"
    | none => ""
  context ++ d.severity.word ++ "[" ++ d.code ++ "]: " ++ d.message ++ "\n"
    ++ "  --> " ++ d.file ++ ":" ++ toString d.line ++ ":" ++ toString d.column ++ "\n"
    ++ String.join notes ++ help

/-- A member for a field that is left out when there is nothing to say. -/
def optionalMember (name : String) : Option String → List (String × Json)
  | some text => [(name, .str text)]
  | none => []

/-- The report for programs. -/
def toJson (d : Diagnostic) : Json :=
  .obj <|
    [("diag_version", .nat d.version), ("level", .str d.severity.word), ("code", .str d.code),
      ("message", .str d.message), ("file", .str d.file), ("line", .nat d.line),
      ("column", .nat d.column), ("length", .nat d.length)]
    ++ (if d.notes.isEmpty then [] else [("notes", Json.list .str d.notes)])
    ++ optionalMember "help" d.help ++ optionalMember "function" d.function
    ++ optionalMember "class" d.cls

def fields : List String :=
  ["diag_version", "level", "code", "message", "file", "line", "column", "length", "notes", "help",
    "function", "class"]

open Decoder in
/-- Reads a report back. The fields that may be left out on writing may be missing. -/
def decode : Decoder Diagnostic := fun levels doc => do
  match ← Decoder.fields fields levels doc with
  | (levels, [version, severity, code, message, file, line, column, length, notes, help, function,
      cls]) =>
    return {
      version := ← required (natOfBits 32) levels version
      severity := ← required (variant [(Severity.error.word, .error)] []) levels severity
      code := ← required text levels code
      message := ← required text levels message
      file := ← required text levels file
      line := ← required (natOfBits 64) levels line
      column := ← required (natOfBits 64) levels column
      length := ← required (natOfBits 64) levels length
      notes := ← withDefault (list text) [] levels notes
      help := ← withDefault (optional text) none levels help
      function := ← withDefault (optional text) none levels function
      cls := ← withDefault (optional text) none levels cls }
  | _ => none

def ofJsonText? (text : String) : Option Diagnostic := decode.run text

/-- Writes reports in a format: the texts with a line between them, or one array. -/
def render (ds : List Diagnostic) : OutputFormat → String
  | .human => "\n".intercalate (ds.map humanText)
  | .json => (Json.list toJson ds).pretty

end Diagnostic

namespace Span

def toJson (s : Span) : Json :=
  .obj [("start", .nat s.start), ("end", .nat s.stop), ("line", .nat s.line)]

open Decoder in
def decode : Decoder Span := fun levels doc => do
  match ← fields ["start", "end", "line"] levels doc with
  | (levels, [start, stop, line]) =>
    return ⟨← required (natOfBits 64) levels start, ← required (natOfBits 64) levels stop,
      ← required (natOfBits 64) levels line⟩
  | _ => none

def ofJsonText? (text : String) : Option Span := decode.run text

end Span
end Gradual
