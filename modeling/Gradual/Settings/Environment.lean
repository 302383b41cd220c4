import Gradual.Settings.Error
import Gradual.Settings.OutputFormat
import Gradual.Text.Blank
import Gradual.Text.Lowercase

/-!
Settings in environment variables, which people type: blanks around a version and the case of a
format do not matter.
-/

namespace Gradual

/-- The value of decimal digits. -/
def decimalValue (ds : List Char) : Nat := ds.foldl (fun n c => 10 * n + (c.toNat - '0'.toNat)) 0

/-- The number, of at most 32 bits, that a text without blanks stands for. -/
def numberOf? (cs : List Char) : Option Nat :=
  let ds := match cs with
    | '+' :: rest => rest
    | cs => cs
  if !ds.isEmpty && ds.all Char.isDigit && decimalValue ds < UInt32.size then
    some (decimalValue ds)
  else none

/-- The version that a text sets. -/
def versionOfText (text : String) : Except SettingsError Nat := do
  match numberOf? (Text.trim text.toList) with
  | some version =>
    checkVersion version
    return version
  | none => throw (.unknownVersion text)

namespace OutputFormat

/-- The format that a text sets; `text` is another word for the one for people. -/
def ofText (text : String) : Except SettingsError OutputFormat :=
  let word := Text.lowercase text
  if word = "text" then .ok .human
  else
    match ofWord? word with
    | some format => .ok format
    | none => .error (.unknownFormat word)

end OutputFormat

/-- The environment variables for settings, as far as they are set. -/
structure Environment where
  version : Option String
  format : Option String
  deriving DecidableEq, Repr

end Gradual
