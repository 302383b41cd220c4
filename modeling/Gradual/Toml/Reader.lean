import Gradual.Toml.Moment
import Gradual.Toml.Number
import Gradual.Toml.Value

/-!
Reading of TOML documents. A document is refused if it is malformed, if it names something twice, or
if it nests values or the parts of a key too deeply.
-/

namespace Gradual.Toml

/-! ### Characters and lines -/

/-- May the character stand in a comment or a text? All but control characters may. -/
def isPlain (c : Char) : Bool := c == '\t' || (0x20 ≤ c.toNat && c.toNat != 0x7f)

def isSpace (c : Char) : Bool := c == ' ' || c == '\t'

def skipSpaces (cs : List Char) : List Char := cs.dropWhile isSpace

/-- What follows the end of a line, if a text starts with one. -/
def lineEnd? : List Char → Option (List Char)
  | '\n' :: rest => some rest
  | '\r' :: '\n' :: rest => some rest
  | _ => none

/-- Skips spaces and a comment. -/
def skipComment (cs : List Char) : List Char :=
  match skipSpaces cs with
  | '#' :: rest => rest.dropWhile isPlain
  | cs => cs

/-- What follows the rest of a line that says nothing more. -/
def finishLine? (cs : List Char) : Option (List Char) :=
  match skipComment cs with
  | [] => some []
  | cs => lineEnd? cs

/-- Skips spaces, ends of lines and comments, of which one is open if `inComment` is set. -/
def skipLines : (inComment : Bool) → List Char → List Char
  | _, [] => []
  | _, '\n' :: rest => skipLines false rest
  | _, '\r' :: '\n' :: rest => skipLines false rest
  | true, c :: rest => if isPlain c then skipLines true rest else c :: rest
  | false, '#' :: rest => skipLines true rest
  | false, c :: rest => if isSpace c then skipLines false rest else c :: rest

/-! ### Texts -/

/-- The character of a code point that is given by hexadecimal digits. -/
def codePoint? (cs : List Char) : Option Char := do
  let n ← digits? 16 cs
  if n.isValidChar then return Char.ofNat n else none

/-- The character of an escape that takes no digits. -/
def simpleEscape? : Char → Option Char
  | 'b' => some '\x08'
  | 't' => some '\t'
  | 'n' => some '\n'
  | 'f' => some '\x0c'
  | 'r' => some '\r'
  | '"' => some '"'
  | '\\' => some '\\'
  | _ => none

/-- Puts a character in front of a text that was read. -/
def andThen (c : Option Char) (read : Option (List Char × List Char)) :
    Option (List Char × List Char) := do
  let (body, rest) ← read
  return ((← c) :: body, rest)

/-- Splits a text in double quotes behind its first quote into what it stands for and what follows
it. -/
def readQuoted : List Char → Option (List Char × List Char)
  | [] => none
  | '"' :: rest => some ([], rest)
  | '\\' :: 'u' :: a :: b :: c :: d :: rest => andThen (codePoint? [a, b, c, d]) (readQuoted rest)
  | '\\' :: 'U' :: a :: b :: c :: d :: e :: f :: g :: h :: rest =>
    andThen (codePoint? [a, b, c, d, e, f, g, h]) (readQuoted rest)
  | '\\' :: e :: rest => andThen (simpleEscape? e) (readQuoted rest)
  | c :: rest => if isPlain c && c != '\\' then andThen (some c) (readQuoted rest) else none

/-- The same of a text in single quotes, which has no escapes. -/
def readLiteral : List Char → Option (List Char × List Char)
  | [] => none
  | '\'' :: rest => some ([], rest)
  | c :: rest => if isPlain c then andThen (some c) (readLiteral rest) else none

/-- The end of a text of several lines: three quotes, and up to two more that belong to the text. -/
def closing? (quote : Char) (cs : List Char) : Option (List Char × List Char) :=
  let quotes := (cs.takeWhile (· == quote)).length
  if quotes < 3 then none
  else
    let extra := min (quotes - 3) 2
    some (List.replicate extra quote, cs.drop (3 + extra))

/-- Does a line end with a character, given what follows it? -/
def isLineEnd (c : Char) (rest : List Char) : Bool :=
  c == '\n' || (c == '\r' && rest.head? == some '\n')

/-- Does only space separate a text from the end of its line? -/
def endsLine (cs : List Char) : Bool := (lineEnd? (skipSpaces cs)).isSome

/-- Splits a text of several lines in double quotes. Every line ends in one character, however it
ends in the document. A backslash at the end of a line, after which
`joining` is set, joins the line with the next that is not blank. -/
def readQuotedLines (joining : Bool) : List Char → Option (List Char × List Char)
  | [] => none
  | c :: rest =>
    if joining && (isSpace c || isLineEnd c rest) then readQuotedLines true rest
    else
      match closing? '"' (c :: rest) with
      | some ending => some ending
      | none =>
        match c, rest with
        | '\\', 'u' :: a :: b :: c :: d :: rest =>
          andThen (codePoint? [a, b, c, d]) (readQuotedLines false rest)
        | '\\', 'U' :: a :: b :: c :: d :: e :: f :: g :: h :: rest =>
          andThen (codePoint? [a, b, c, d, e, f, g, h]) (readQuotedLines false rest)
        | '\\', e :: rest =>
          if isSpace e || isLineEnd e rest then
            if endsLine (e :: rest) then readQuotedLines true rest else none
          else andThen (simpleEscape? e) (readQuotedLines false rest)
        | c, rest =>
          if c == '\n' || (c != '\\' && isPlain c) then
            andThen (some c) (readQuotedLines false rest)
          else if isLineEnd c rest then readQuotedLines false rest
          else none

/-- The same of a text of several lines in single quotes. -/
def readLiteralLines : List Char → Option (List Char × List Char)
  | [] => none
  | c :: rest =>
    match closing? '\'' (c :: rest) with
    | some ending => some ending
    | none =>
      if c == '\n' || isPlain c then andThen (some c) (readLiteralLines rest)
      else if isLineEnd c rest then readLiteralLines rest
      else none

/-- The end of a line right behind the opening quotes does not belong to the text. -/
def skipFirstEnd (cs : List Char) : List Char := (lineEnd? cs).getD cs

/-- Splits a text on one line, with its quotes, off the front. -/
def readLineText : List Char → Option (List Char × List Char)
  | '"' :: rest => readQuoted rest
  | '\'' :: rest => readLiteral rest
  | _ => none

/-- Splits any text, with its quotes, off the front. -/
def readText : List Char → Option (List Char × List Char)
  | '"' :: '"' :: '"' :: rest => readQuotedLines false (skipFirstEnd rest)
  | '\'' :: '\'' :: '\'' :: rest => readLiteralLines (skipFirstEnd rest)
  | cs => readLineText cs

/-! ### Keys -/

def isBare (c : Char) : Bool := c.isAlphanum || c == '_' || c == '-'

/-- Splits the part of a key up to a dot off the front. -/
def readKeyPart (cs : List Char) : Option (String × List Char) :=
  match cs.takeWhile isBare with
  | [] => (readLineText cs).map fun (part, rest) => (String.ofList part, rest)
  | part => some (String.ofList part, cs.dropWhile isBare)

/-- How many parts a key may have. -/
def maxKeyParts : Nat := 79

/-- Splits a key, with the spaces around it, off the front. -/
def readKeyWithin : (parts : Nat) → List Char → Option (Key × List Char)
  | 0, _ => none
  | parts + 1, cs => do
    let (part, cs) ← readKeyPart (skipSpaces cs)
    match skipSpaces cs with
    | '.' :: rest =>
      let (key, rest) ← readKeyWithin parts rest
      return (part :: key, rest)
    | rest => return ([part], rest)

def readKey (cs : List Char) : Option (Key × List Char) := readKeyWithin maxKeyParts cs

/-! ### Words -/

/-- May the character stand in a value without quotes and brackets? -/
def isWordChar (c : Char) : Bool := isBare c || c == '+' || c == '.' || c == ':'

/-- The value that a word stands for. -/
def wordValue? (word : List Char) : Option Value :=
  match integer? word with
  | some n => some (.integer n)
  | none =>
    if isOtherNumber word || isMoment word || word == ['t', 'r', 'u', 'e'] ||
        word == ['f', 'a', 'l', 's', 'e'] then
      some .other
    else none

/-- Splits a value without quotes and brackets off the front. It is one word, or a date and a time
with a space between them. -/
def readWord (cs : List Char) : Option (Value × List Char) := do
  let word := cs.takeWhile isWordChar
  let rest := cs.dropWhile isWordChar
  let v ← wordValue? word
  if isDate word then
    if let ' ' :: time := rest then
      if isTimeOfDate (time.takeWhile isWordChar) then return (v, time.dropWhile isWordChar)
  return (v, rest)

/-! ### Values -/

/-- How many arrays and tables in braces may be open at once. -/
def maxLevels : Nat := 79

mutual

/-- Splits a value, in which so many more arrays and tables may be opened, off the front. Each step
consumes a character, so the number of characters is enough for `steps`. -/
def readValue : (steps levels : Nat) → List Char → Option (Value × List Char)
  | steps + 1, levels + 1, '[' :: rest =>
    (readItems steps levels rest).map fun (items, rest) => (.array items, rest)
  | steps + 1, levels + 1, '\x7b' :: rest =>
    match skipSpaces rest with
    | '\x7d' :: rest => some (.table .braces [], rest)
    | rest => do
      let (entries, rest) ← readEntries steps levels rest
      return (.table .braces (← Table.ofEntries? entries), rest)
  | _, _, '"' :: rest =>
    (readText ('"' :: rest)).map fun (text, rest) => (.text (String.ofList text), rest)
  | _, _, '\'' :: rest =>
    (readText ('\'' :: rest)).map fun (text, rest) => (.text (String.ofList text), rest)
  | _, _, cs => readWord cs

/-- Splits the items of an array, up to its end, off the front. The last may be followed by a
comma. -/
def readItems : (steps levels : Nat) → List Char → Option (List Value × List Char)
  | 0, _, _ => none
  | steps + 1, levels, cs =>
    match skipLines false cs with
    | ']' :: rest => some ([], rest)
    | cs => do
      let (item, cs) ← readValue steps levels cs
      match skipLines false cs with
      | ']' :: rest => return ([item], rest)
      | ',' :: rest =>
        let (items, rest) ← readItems steps levels rest
        return (item :: items, rest)
      | _ => none

/-- Splits the entries of a table in braces, up to its end, off the front. -/
def readEntries : (steps levels : Nat) → List Char → Option (List (Key × Value) × List Char)
  | 0, _, _ => none
  | steps + 1, levels, cs => do
    let (key, cs) ← readKey cs
    match cs with
    | '=' :: cs =>
      let (v, cs) ← readValue steps levels (skipSpaces cs)
      match skipSpaces cs with
      | '\x7d' :: rest => return ([(key, v)], rest)
      | ',' :: rest =>
        let (entries, rest) ← readEntries steps levels rest
        return ((key, v) :: entries, rest)
      | _ => none
    | _ => none

end

/-! ### Documents -/

/-- Splits a statement off the front of a line. Its value is shorter than `steps`. -/
def readStatement (steps : Nat) : List Char → Option (Statement × List Char)
  | '[' :: '[' :: cs => do
    match ← readKey cs with
    | (key, ']' :: ']' :: rest) => return (.listedHeader key, rest)
    | _ => none
  | '[' :: cs => do
    match ← readKey cs with
    | (key, ']' :: rest) => return (.header key, rest)
    | _ => none
  | cs => do
    match ← readKey cs with
    | (key, '=' :: rest) =>
      let (v, rest) ← readValue steps maxLevels (skipSpaces rest)
      return (.entry key v, rest)
    | _ => none

/-- Reads the statements of a document, each on a line of its own. Each step consumes a character, so
one more than the number of characters is enough for `steps`. -/
def readStatements : (steps : Nat) → List Char → Option (List Statement)
  | 0, _ => none
  | steps + 1, cs =>
    match finishLine? cs with
    | some [] => some []
    | some rest => readStatements steps rest
    | none => do
      let (statement, cs) ← readStatement steps (skipSpaces cs)
      match ← finishLine? cs with
      | [] => return [statement]
      | rest => return statement :: (← readStatements steps rest)

/-- Drops a byte order mark. -/
def dropMark : List Char → List Char
  | '\ufeff' :: rest => rest
  | cs => cs

/-- The table that the text of a document describes. -/
def Table.ofText? (text : String) : Option Table := do
  let cs := dropMark text.toList
  Table.ofStatements? (← readStatements (cs.length + 1) cs)

end Gradual.Toml
