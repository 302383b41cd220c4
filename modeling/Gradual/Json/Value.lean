/-!
JSON values and their text, on one line or indented. Members keep their order.
-/

namespace Gradual

inductive Json where
  | null
  | bool (b : Bool)
  | int (n : Int)
  | str (s : String)
  | arr (items : List Json)
  | obj (members : List (String × Json))

namespace Json

instance : Inhabited Json := ⟨.null⟩

def nat (n : Nat) : Json := .int n

/-- A value that may be missing. -/
def option {α : Type} (f : α → Json) : Option α → Json
  | none => .null
  | some a => f a

def list {α : Type} (f : α → Json) (items : List α) : Json := .arr (items.map f)

/-- A digit of a hexadecimal number, in lower case. -/
def hexDigit (n : Nat) : Char :=
  if n < 10 then Char.ofNat ('0'.toNat + n) else Char.ofNat ('a'.toNat + (n - 10))

/-- A character of a text. Only quotes, backslashes and control characters are escaped. -/
def escapeChar (c : Char) : List Char :=
  if c = '"' then ['\\', '"']
  else if c = '\\' then ['\\', '\\']
  else if c = '\x08' then ['\\', 'b']
  else if c = '\x0c' then ['\\', 'f']
  else if c = '\n' then ['\\', 'n']
  else if c = '\r' then ['\\', 'r']
  else if c = '\t' then ['\\', 't']
  else if c.toNat < 0x20 then
    ['\\', 'u', '0', '0', hexDigit (c.toNat / 16), hexDigit (c.toNat % 16)]
  else [c]

def escape (cs : List Char) : List Char := cs.flatMap escapeChar

def quoted (s : String) : List Char := '"' :: escape s.toList ++ ['"']

/-- The text of a value without parts. -/
def digits (n : Int) : List Char := (toString n).toList

mutual

/-- The text of a value without any spaces. -/
def compactChars : Json → List Char
  | .null => "null".toList
  | .bool true => "true".toList
  | .bool false => "false".toList
  | .int n => digits n
  | .str s => quoted s
  | .arr items => '[' :: compactItems items
  | .obj members => '\x7b' :: compactMembers members

/-- The items of an array up to its end. -/
def compactItems : List Json → List Char
  | [] => [']']
  | [v] => compactChars v ++ [']']
  | v :: rest => compactChars v ++ ',' :: compactItems rest

/-- The members of an object up to its end. -/
def compactMembers : List (String × Json) → List Char
  | [] => ['\x7d']
  | [(k, v)] => quoted k ++ ':' :: compactChars v ++ ['\x7d']
  | (k, v) :: rest => quoted k ++ ':' :: compactChars v ++ ',' :: compactMembers rest

end

def compact (v : Json) : String := String.ofList v.compactChars

/-- A new line with two spaces for each level. -/
def newLine (level : Nat) : List Char := '\n' :: List.replicate (2 * level) ' '

mutual

/-- The text of a value with each part on a line of its own. -/
def prettyChars (level : Nat) : Json → List Char
  | .null => "null".toList
  | .bool true => "true".toList
  | .bool false => "false".toList
  | .int n => digits n
  | .str s => quoted s
  | .arr [] => ['[', ']']
  | .arr (v :: rest) =>
    '[' :: newLine (level + 1) ++ prettyChars (level + 1) v ++ prettyItems level rest
  | .obj [] => ['\x7b', '\x7d']
  | .obj ((k, v) :: rest) =>
    '\x7b' :: newLine (level + 1) ++ quoted k ++ ':' :: ' ' :: prettyChars (level + 1) v
      ++ prettyMembers level rest

/-- The items behind the first, up to the end of the array. -/
def prettyItems (level : Nat) : List Json → List Char
  | [] => newLine level ++ [']']
  | v :: rest => ',' :: newLine (level + 1) ++ prettyChars (level + 1) v ++ prettyItems level rest

/-- The members behind the first, up to the end of the object. -/
def prettyMembers (level : Nat) : List (String × Json) → List Char
  | [] => newLine level ++ ['\x7d']
  | (k, v) :: rest =>
    ',' :: newLine (level + 1) ++ quoted k ++ ':' :: ' ' :: prettyChars (level + 1) v
      ++ prettyMembers level rest

end

def pretty (v : Json) : String := String.ofList (v.prettyChars 0)

end Json
end Gradual
