/-!
The text of JSON documents, read into a tree that keeps numbers and strings as they are written.
What they stand for is decided where they are used, so a string that stands for no text does no
harm in a part that nobody looks at.
-/

namespace Gradual

inductive JsonDoc where
  | null
  | bool (b : Bool)
  | number (text : List Char)
  /-- What stands between the quotes. -/
  | string (body : List Char)
  | array (items : List JsonDoc)
  | object (members : List (List Char × JsonDoc))

namespace JsonDoc

instance : Inhabited JsonDoc := ⟨.null⟩

def isBlank (c : Char) : Bool := c == ' ' || c == '\n' || c == '\t' || c == '\r'

def skipBlank (cs : List Char) : List Char := cs.dropWhile isBlank

/-- The value of a hexadecimal digit. -/
def hexValue? (c : Char) : Option Nat :=
  if '0' ≤ c ∧ c ≤ '9' then some (c.toNat - '0'.toNat)
  else if 'a' ≤ c ∧ c ≤ 'f' then some (c.toNat - 'a'.toNat + 10)
  else if 'A' ≤ c ∧ c ≤ 'F' then some (c.toNat - 'A'.toNat + 10)
  else none

/-- The value of four hexadecimal digits. -/
def hex4? (a b c d : Char) : Option Nat := do
  return (← hexValue? a) * 4096 + (← hexValue? b) * 256 + (← hexValue? c) * 16 + (← hexValue? d)

/-- Splits a string behind its opening quote into its body and what follows the closing quote. The
body has no control characters and only escapes of the right form. -/
def readBody : List Char → Option (List Char × List Char)
  | [] => none
  | '"' :: rest => some ([], rest)
  | '\\' :: 'u' :: a :: b :: c :: d :: rest =>
    match hex4? a b c d, readBody rest with
    | some _, some (body, rest) => some ('\\' :: 'u' :: a :: b :: c :: d :: body, rest)
    | _, _ => none
  | '\\' :: e :: rest =>
    if e ∈ ['"', '\\', '/', 'b', 'f', 'n', 'r', 't'] then
      (readBody rest).map fun (body, rest) => ('\\' :: e :: body, rest)
    else none
  | c :: rest =>
    if c.toNat < 0x20 ∨ c = '\\' then none
    else (readBody rest).map fun (body, rest) => (c :: body, rest)

/-- The character of a simple escape. -/
def simpleEscape (e : Char) : Char :=
  if e = 'b' then '\x08'
  else if e = 'f' then '\x0c'
  else if e = 'n' then '\n'
  else if e = 'r' then '\r'
  else if e = 't' then '\t'
  else e

/-- The text that the body of a string stands for. Two escapes may make up one character; half of
such a pair stands for nothing. -/
def unescape : List Char → Option (List Char)
  | [] => some []
  | '\\' :: 'u' :: a :: b :: c :: d :: '\\' :: 'u' :: a' :: b' :: c' :: d' :: rest =>
    match hex4? a b c d, hex4? a' b' c' d' with
    | some hi, some lo =>
      if 0xd800 ≤ hi ∧ hi < 0xdc00 then
        if 0xdc00 ≤ lo ∧ lo < 0xe000 then
          (unescape rest).map
            (Char.ofNat (0x10000 + (hi - 0xd800) * 0x400 + (lo - 0xdc00)) :: ·)
        else none
      else if 0xdc00 ≤ hi ∧ hi < 0xe000 then none
      else (unescape ('\\' :: 'u' :: a' :: b' :: c' :: d' :: rest)).map (Char.ofNat hi :: ·)
    | _, _ => none
  | '\\' :: 'u' :: a :: b :: c :: d :: rest =>
    match hex4? a b c d with
    | some n =>
      if 0xd800 ≤ n ∧ n < 0xe000 then none else (unescape rest).map (Char.ofNat n :: ·)
    | none => none
  | '\\' :: e :: rest => (unescape rest).map (simpleEscape e :: ·)
  | c :: rest => (unescape rest).map (c :: ·)

def isDigit (c : Char) : Bool := '0' ≤ c && c ≤ '9'

/-- Splits the digits off the front of a text; there has to be one. -/
def readDigits (cs : List Char) : Option (List Char × List Char) :=
  match cs.takeWhile isDigit with
  | [] => none
  | ds => some (ds, cs.dropWhile isDigit)

/-- The digits of a whole number, which has no zero in front. -/
def readWhole : List Char → Option (List Char × List Char)
  | '0' :: rest => some (['0'], rest)
  | cs => readDigits cs

def readFraction : List Char → Option (List Char × List Char)
  | '.' :: rest => (readDigits rest).map fun (ds, rest) => ('.' :: ds, rest)
  | cs => some ([], cs)

def readExponent : List Char → Option (List Char × List Char)
  | 'e' :: rest => signed 'e' rest
  | 'E' :: rest => signed 'E' rest
  | cs => some ([], cs)
where
  signed (e : Char) : List Char → Option (List Char × List Char)
    | '+' :: rest => (readDigits rest).map fun (ds, rest) => (e :: '+' :: ds, rest)
    | '-' :: rest => (readDigits rest).map fun (ds, rest) => (e :: '-' :: ds, rest)
    | rest => (readDigits rest).map fun (ds, rest) => (e :: ds, rest)

/-- Splits a number off the front of a text. -/
def readNumber (cs : List Char) : Option (List Char × List Char) := do
  let (sign, cs) := match cs with
    | '-' :: rest => (['-'], rest)
    | cs => ([], cs)
  let (whole, cs) ← readWhole cs
  let (fraction, cs) ← readFraction cs
  let (exponent, cs) ← readExponent cs
  return (sign ++ whole ++ fraction ++ exponent, cs)

mutual

/-- Splits a value off the front of a text. Each step consumes a character, so the number of
characters is enough for `steps`. -/
def readValue : (steps : Nat) → List Char → Option (JsonDoc × List Char)
  | 0, _ => none
  | steps + 1, cs =>
    match skipBlank cs with
    | 'n' :: 'u' :: 'l' :: 'l' :: rest => some (.null, rest)
    | 't' :: 'r' :: 'u' :: 'e' :: rest => some (.bool true, rest)
    | 'f' :: 'a' :: 'l' :: 's' :: 'e' :: rest => some (.bool false, rest)
    | '"' :: rest => (readBody rest).map fun (body, rest) => (.string body, rest)
    | '[' :: rest =>
      match skipBlank rest with
      | ']' :: rest => some (.array [], rest)
      | rest => (readItems steps rest).map fun (items, rest) => (.array items, rest)
    | '\x7b' :: rest =>
      match skipBlank rest with
      | '\x7d' :: rest => some (.object [], rest)
      | rest => (readMembers steps rest).map fun (members, rest) => (.object members, rest)
    | cs => (readNumber cs).map fun (text, rest) => (.number text, rest)

/-- Splits the items of an array, up to its end, off the front of a text. -/
def readItems : (steps : Nat) → List Char → Option (List JsonDoc × List Char)
  | 0, _ => none
  | steps + 1, cs => do
    let (item, cs) ← readValue steps cs
    match skipBlank cs with
    | ']' :: rest => return ([item], rest)
    | ',' :: rest =>
      let (items, rest) ← readItems steps rest
      return (item :: items, rest)
    | _ => none

/-- Splits the members of an object, up to its end, off the front of a text. -/
def readMembers : (steps : Nat) → List Char → Option (List (List Char × JsonDoc) × List Char)
  | 0, _ => none
  | steps + 1, cs =>
    match skipBlank cs with
    | '"' :: cs => do
      let (key, cs) ← readBody cs
      match skipBlank cs with
      | ':' :: cs =>
        let (value, cs) ← readValue steps cs
        match skipBlank cs with
        | '\x7d' :: rest => return ([(key, value)], rest)
        | ',' :: rest =>
          let (members, rest) ← readMembers steps rest
          return ((key, value) :: members, rest)
        | _ => none
      | _ => none
    | _ => none

end

/-- Reads a document: one value with nothing but blanks around it. -/
def ofChars? (cs : List Char) : Option JsonDoc :=
  match readValue (cs.length + 1) cs with
  | some (doc, rest) => if (skipBlank rest).isEmpty then some doc else none
  | none => none

def ofText? (text : String) : Option JsonDoc := ofChars? text.toList

/-- The text that a string stands for. -/
def text? : JsonDoc → Option String
  | .string body => (unescape body).map String.ofList
  | _ => none

/-- The value of digits. -/
def digitsValue (ds : List Char) : Nat := ds.foldl (fun n c => 10 * n + (c.toNat - '0'.toNat)) 0

/-- A number that is written as an integer; a zero with a sign is not. -/
def int? : JsonDoc → Option Int
  | .number ('-' :: ds) =>
    if ds.all isDigit && ds != ['0'] then some (-(digitsValue ds : Int)) else none
  | .number ds => if ds.all isDigit then some (digitsValue ds) else none
  | _ => none

end JsonDoc
end Gradual
