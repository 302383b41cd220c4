import Gradual.Settings.OutputFormat

/-!
What influences a run of the checker.
-/

namespace Gradual

/-- The version of the language that counts where none is set. -/
def defaultVersion : Nat := 3

structure Options where
  /-- The version of the language, 2 or 3. -/
  version : Nat
  format : OutputFormat
  deriving DecidableEq, Repr

namespace Options

instance : Inhabited Options := ⟨defaultVersion, default⟩

/-- The method that gives the next item of an iterator. -/
def nextMethod (o : Options) : String := if 3 ≤ o.version then "__next__" else "next"

end Options
end Gradual
