/-!
The versions of the checker and of the forms in which it reports to other programs.
-/

namespace Gradual

def version : String := "0.1.0"

/-- The version of the form of diagnostics. -/
def diagnosticVersion : Nat := 1

/-- The version of the form of type reports. -/
def typeReportVersion : Nat := 1

end Gradual
