/-!
The numbers of TOML documents: integers, in four bases, and numbers with a fraction or an exponent.
Underscores may stand between digits. An integer fits into 64 bits, and no other number is so great
that it would round to infinity; only a negative one may be.
-/

namespace Gradual.Toml

/-- The value of a digit, in whatever base. -/
def digitValue? (c : Char) : Option Nat :=
  if '0' ≤ c ∧ c ≤ '9' then some (c.toNat - '0'.toNat)
  else if 'a' ≤ c ∧ c ≤ 'f' then some (c.toNat - 'a'.toNat + 10)
  else if 'A' ≤ c ∧ c ≤ 'F' then some (c.toNat - 'A'.toNat + 10)
  else none

/-- The number that digits stand for. -/
def digits? (base : Nat) (cs : List Char) : Option Nat :=
  cs.foldlM (fun n c => do
    let d ← digitValue? c
    if d < base then return n * base + d else none) 0

/-- Digits without the underscores between them; an underscore must have digits at both sides. -/
def joinDigits? : List Char → Option (List Char)
  | [] => none
  | [c] => if c == '_' then none else some [c]
  | '_' :: _ => none
  | c :: '_' :: rest => (joinDigits? rest).map (c :: ·)
  | c :: rest => (joinDigits? rest).map (c :: ·)

/-- The digits of a decimal number, of which the first is a zero only if it stands alone. -/
def decimalDigits? : List Char → Option (List Char)
  | ['0'] => some ['0']
  | '0' :: _ => none
  | cs => (joinDigits? cs).filter (·.all Char.isDigit)

/-! ### Integers -/

def based? (base : Nat) (cs : List Char) : Option Int := do
  return Int.ofNat (← digits? base (← joinDigits? cs))

def decimal? (cs : List Char) : Option Int := do
  return Int.ofNat (← digits? 10 (← decimalDigits? cs))

/-- The integer of any size that a word stands for. -/
def anyInteger? : List Char → Option Int
  | '0' :: 'x' :: cs => based? 16 cs
  | '0' :: 'o' :: cs => based? 8 cs
  | '0' :: 'b' :: cs => based? 2 cs
  | '+' :: cs => decimal? cs
  | '-' :: cs => (decimal? cs).map (-·)
  | cs => decimal? cs

/-- The integer that a word stands for. -/
def integer? (word : List Char) : Option Int :=
  (anyInteger? word).filter fun n => Int64.minValue.toInt ≤ n ∧ n ≤ Int64.maxValue.toInt

/-! ### Other numbers -/

/-- A decimal number, `digits · 10 ^ exponent`. -/
structure Decimal where
  digits : List Char
  exponent : Int

namespace Decimal

/-- The least number that rounds to infinity: half a step above the greatest double. -/
def roundsToInfinity : Nat := Nat.pow 2 1024 - Nat.pow 2 970

/-- Does the number round to a finite double? Its number of digits settles this for all but those
near the greatest double. -/
def isFinite (d : Decimal) : Bool :=
  let significant := d.digits.dropWhile (· == '0')
  let magnitude := Int.ofNat significant.length + d.exponent
  match digits? 10 significant with
  | none | some 0 => true
  | some n =>
    if magnitude < 300 then true
    else if 310 < magnitude then false
    else if 0 ≤ d.exponent then n * Nat.pow 10 d.exponent.toNat < roundsToInfinity
    else n < roundsToInfinity * Nat.pow 10 (-d.exponent).toNat

end Decimal

/-- The digits of a fraction or an exponent, which may start with zeros. -/
def fractionDigits? (cs : List Char) : Option (List Char) :=
  (joinDigits? cs).filter (·.all Char.isDigit)

/-- The exponent that a word ends in, from its letter on. -/
def exponent? : List Char → Option Int
  | [] => some 0
  | e :: cs => do
    if e != 'e' && e != 'E' then none
    let magnitude (cs : List Char) : Option Int := do
      return Int.ofNat (← digits? 10 (← fractionDigits? cs))
    match cs with
    | '+' :: cs => magnitude cs
    | '-' :: cs => (magnitude cs).map (-·)
    | cs => magnitude cs

def isDigitOrJoint (c : Char) : Bool := c.isDigit || c == '_'

/-- The number with a fraction or an exponent that a word without a sign stands for. -/
def fractional? (word : List Char) : Option Decimal := do
  let whole ← decimalDigits? (word.takeWhile isDigitOrJoint)
  match word.dropWhile isDigitOrJoint with
  | [] => none
  | '.' :: rest =>
    let fraction ← fractionDigits? (rest.takeWhile isDigitOrJoint)
    let exponent ← exponent? (rest.dropWhile isDigitOrJoint)
    return ⟨whole ++ fraction, exponent - Int.ofNat fraction.length⟩
  | rest => return ⟨whole, ← exponent? rest⟩

/-- Is the word without a sign infinity or no number? -/
def isSpecial (word : List Char) : Bool :=
  word == ['i', 'n', 'f'] || word == ['n', 'a', 'n']

/-- Does a word stand for a number that is no integer? -/
def isOtherNumber : List Char → Bool
  | '-' :: cs => isSpecial cs || (fractional? cs).isSome
  | '+' :: cs => isSpecial cs || (fractional? cs).any (·.isFinite)
  | cs => isSpecial cs || (fractional? cs).any (·.isFinite)

end Gradual.Toml
