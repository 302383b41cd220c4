import Gradual.Ty.Basic

/-!
The text of a type in messages and reports. A class shows by its short name, a type variable and an
unresolved name by their names.
-/

namespace Gradual

/-- One formal argument, given the text of its type. -/
def formalText (kind : ArgKind) (name : Option String) (type : String) : String :=
  match kind with
  | .pos => type
  | .opt => type ++ " ="
  | .star => "*" ++ type
  | .named => name.getD "" ++ ": " ++ type
  | .star2 => "**" ++ type

/-- Puts the type arguments, if there are any, in brackets behind the name of a class. -/
def instanceText (name : String) : List String → String
  | [] => lastPart name
  | args => lastPart name ++ "[" ++ ", ".intercalate args ++ "]"

/-- Puts the names of quantified type variables in front of a list of arguments. -/
def quantifierText : List String → String
  | [] => ""
  | names => "[" ++ ", ".intercalate names ++ "] "

mutual

def Ty.display : Ty → String
  | .any => "Any"
  | .void | .noneType => "None"
  | .inst _ name args => instanceText name (displayEach args)
  | .callable sig => sig.display
  | .overloaded items => "Overload(" ++ ", ".intercalate (displaySignatures items) ++ ")"
  | .tuple items => "Tuple[" ++ ", ".intercalate (displayEach items) ++ "]"
  | .typeVar v => v.name
  | .unbound name => name ++ "?"
  | .error => "<error>"

def Signature.display : Signature → String
  | ⟨argTypes, argKinds, argNames, ret, quantified, _, _, _⟩ =>
    "def " ++ quantifierText (quantified.map (·.name))
      ++ "(" ++ ", ".intercalate (displayFormals argTypes argKinds argNames) ++ ") -> "
      ++ ret.display

def displayEach : List Ty → List String
  | [] => []
  | t :: ts => t.display :: displayEach ts

def displaySignatures : List Signature → List String
  | [] => []
  | s :: ss => s.display :: displaySignatures ss

/-- A formal without a kind of its own counts as a positional one. -/
def displayFormals : List Ty → List ArgKind → List (Option String) → List String
  | [], _, _ => []
  | t :: ts, kinds, names =>
    formalText (kinds.headD .pos) (names.headD none) t.display
      :: displayFormals ts kinds.tail names.tail

end

theorem displayEach_eq_map (ts : List Ty) : displayEach ts = ts.map Ty.display := by
  induction ts with
  | nil => rfl
  | cons t ts ih => simp [displayEach, ih]

theorem displaySignatures_eq_map (ss : List Signature) :
    displaySignatures ss = ss.map Signature.display := by
  induction ss with
  | nil => rfl
  | cons s ss ih => simp [displaySignatures, ih]

end Gradual
