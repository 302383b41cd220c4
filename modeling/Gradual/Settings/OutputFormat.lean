/-!
The two ways to write reports.
-/

namespace Gradual

inductive OutputFormat where
  | human
  | json
  deriving DecidableEq, Repr

namespace OutputFormat

instance : Inhabited OutputFormat := ⟨human⟩

/-- The word for the format in settings. -/
def word : OutputFormat → String
  | .human => "human"
  | .json => "json"

def ofWord? : String → Option OutputFormat
  | "human" => some .human
  | "json" => some .json
  | _ => none

@[simp] theorem ofWord?_word (f : OutputFormat) : ofWord? f.word = some f := by
  cases f <;> rfl

end OutputFormat
end Gradual
