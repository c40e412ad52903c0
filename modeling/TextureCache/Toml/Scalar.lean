import TextureCache.Toml.Reader

/-! Strings, numbers, dates and times of TOML. -/
namespace TextureCache.Toml

/-- The value of a digit in a base of up to sixteen. -/
def digitValue? (base : Nat) (char : Char) : Option Nat :=
  let value :=
    if '0' ≤ char && char ≤ '9' then char.toNat - 48
    else if 'a' ≤ char && char ≤ 'f' then char.toNat - 87
    else if 'A' ≤ char && char ≤ 'F' then char.toNat - 55
    else base
  if value < base then some value else none

def isDigit (base : Nat) (char : Char) : Bool := (digitValue? base char).isSome

/-- The number that digits spell in a base. -/
def digitsValue (base : Nat) (digits : List Char) : Nat :=
  digits.foldl (fun value digit => value * base + (digitValue? base digit).getD 0) 0

def fixedDigits (base : Nat) : (count : Nat) → Reader (List Char)
  | 0 => return []
  | count + 1 => return (← satisfy (isDigit base)) :: (← fixedDigits base count)

/-- Digits, with a single underscore between any two of them or none. -/
def digits (base : Nat) : Reader (List Char) := do
  let run ← takeWhile fun char => isDigit base char || char = '_'
  guard ((Text.splitOn '_' run).all (· ≠ []))
  return run.filter (· ≠ '_')

/-! Strings -/

/-- The character with a number, unless the number belongs to none. -/
def scalar? (number : Nat) : Option Char :=
  if number.isValidChar then some (Char.ofNat number) else none

/-- The character that an escape stands for, after its backslash. -/
def escaped : Reader Char := do
  match ← next with
  | 'b' => return '\x08'
  | 't' => return '\t'
  | 'n' => return '\n'
  | 'f' => return '\x0c'
  | 'r' => return '\r'
  | '"' => return '"'
  | '\\' => return '\\'
  | 'u' => scalar? (digitsValue 16 (← fixedDigits 16 4))
  | 'U' => scalar? (digitsValue 16 (← fixedDigits 16 8))
  | _ => failure

/-- The rest of a string on one line after its opening quote. -/
def lineString (quote : Char) (escapes : Bool) : (fuel : Nat) → Reader (List Char)
  | 0 => failure
  | fuel + 1 => do
    let char ← next
    if char = quote then return []
    else
      let char ← if escapes ∧ char = '\\' then escaped else do
        guard (isPrintable char)
        pure char
      return char :: (← lineString quote escapes fuel)

/-- Skip blanks up to the end of a line and all space after it. -/
def skipLineEnd : Reader Unit := do
  skipBlanks
  word "\n"
  let _ ← takeWhile fun char => isBlank char || char = '\n'

/-- The rest of a string over several lines after its opening quotes. Up to two quotes may stand
within it and right before its end. -/
def blockString (quote : Char) (escapes : Bool) : (fuel : Nat) → Reader (List Char)
  | 0 => failure
  | fuel + 1 => do
    let quotes ← takeWhile (· = quote)
    if 5 < quotes.length then failure
    else if 3 ≤ quotes.length then return quotes.drop 3
    else
      let char ← next
      if escapes ∧ char = '\\' then
        match ← attempt skipLineEnd with
        | some () => return quotes ++ (← blockString quote escapes fuel)
        | none =>
          let char ← escaped
          return quotes ++ char :: (← blockString quote escapes fuel)
      else
        guard (isPrintable char || char = '\n')
        return quotes ++ char :: (← blockString quote escapes fuel)

def singleLine : Reader String := do
  let quote ← satisfy fun char => char = '"' || char = '\''
  return String.ofList (← lineString quote (quote = '"') (← stepBound))

/-- A string over several lines; a line end right after its opening quotes is dropped. -/
def multiLine : Reader String := do
  let quote ← satisfy fun char => char = '"' || char = '\''
  let _ ← satisfy (· = quote)
  let _ ← satisfy (· = quote)
  let _ ← attempt (word "\n")
  return String.ofList (← blockString quote (quote = '"') (← stepBound))

def string : Reader String := do
  let text ← get
  let opening := text.take 3
  if opening = ['"', '"', '"'] ∨ opening = ['\'', '\'', '\''] then multiLine else singleLine

/-! Dates and times -/

/-- A number of exactly `count` digits within bounds. -/
def bounded (count least most : Nat) : Reader Nat := do
  let value := digitsValue 10 (← fixedDigits 10 count)
  guard (least ≤ value ∧ value ≤ most)
  return value

def daysOf (year month : Nat) : Nat :=
  if month = 2 then
    if year % 4 = 0 ∧ (year % 100 ≠ 0 ∨ year % 400 = 0) then 29 else 28
  else if month ∈ [4, 6, 9, 11] then 30
  else 31

def date : Reader Unit := do
  let year ← bounded 4 0 9999
  word "-"
  let month ← bounded 2 1 12
  word "-"
  let _ ← bounded 2 1 (daysOf year month)

/-- A time of day; a minute may have a leap second. -/
def timeOfDay : Reader Unit := do
  let _ ← bounded 2 0 23
  word ":"
  let _ ← bounded 2 0 59
  word ":"
  let _ ← bounded 2 0 60
  if (← peek?) = some '.' then
    let _ ← next
    guard ((← takeWhile (isDigit 10)) ≠ [])

/-- The distance of a local time from universal time. -/
def timeOffset : Reader Unit := do
  let sign ← satisfy fun char => char = 'Z' || char = 'z' || char = '+' || char = '-'
  if sign = '+' ∨ sign = '-' then
    let _ ← bounded 2 0 23
    word ":"
    let _ ← bounded 2 0 59

def timeAfterDate : Reader Unit := do
  let _ ← satisfy fun char => char = 'T' || char = 't' || char = ' '
  timeOfDay
  let _ ← attempt timeOffset

/-- A date with or without a time, or a time alone. -/
def moment : Reader Unit :=
  (do
    date
    let _ ← attempt timeAfterDate) <|>
  timeOfDay

/-! Numbers -/

def sign : Reader Bool := do
  match ← attempt (satisfy fun char => char = '+' || char = '-') with
  | some char => return char = '-'
  | none => return false

/-- Decimal digits without a leading zero. -/
def decimal : Reader (List Char) := do
  if (← peek?) = some '0' then
    let _ ← next
    return ['0']
  else digits 10

def fraction : Reader (List Char) := do
  word "."
  digits 10

/-- The power of ten. -/
def exponent : Reader Int := do
  let _ ← satisfy fun char => char = 'e' || char = 'E'
  let negative ← sign
  let value : Int := digitsValue 10 (← digits 10)
  return if negative then -value else value

/-- A number with the given digits and power of ten rounds to a finite one in double precision. -/
def isFinite (digits : List Char) (power : Int) : Bool :=
  let significant := digits.dropWhile (· = '0')
  let magnitude := significant.length + power
  if significant = [] ∨ magnitude < 300 then true
  else if 310 < magnitude then false
  else
    digitsValue 10 significant * Nat.pow 10 power.toNat <
      ((1 <<< 1024) - (1 <<< 970)) * Nat.pow 10 (-power).toNat

/-- A number with a fraction or a power of ten. Positive ones may not be too large. -/
def float : Reader Unit := do
  let negative ← sign
  let whole ← decimal
  let fraction ← attempt fraction
  let power ← attempt exponent
  guard (fraction.isSome ∨ power.isSome)
  let fraction := fraction.getD []
  guard (negative ∨ isFinite (whole ++ fraction) (power.getD 0 - fraction.length))

/-- Infinity or no number, with a sign or without. -/
def special : Reader Unit := do
  let _ ← sign
  word "inf" <|> word "nan"

/-- A whole number of 64 bits, in decimal or after a mark of its base. -/
def integer : Reader Int := do
  let text ← get
  let based (base : Nat) : Reader Int := do
    set (text.drop 2)
    return digitsValue base (← digits base)
  let value ← match text.take 2 with
    | ['0', 'x'] => based 16
    | ['0', 'o'] => based 8
    | ['0', 'b'] => based 2
    | _ => do
      let negative ← sign
      let value : Int := digitsValue 10 (← decimal)
      pure (if negative then -value else value)
  guard (Int64.minValue.toInt ≤ value ∧ value ≤ Int64.maxValue.toInt)
  return value

def boolean : Reader Bool :=
  (do
    word "true"
    return true) <|>
  (do
    word "false"
    return false)

end TextureCache.Toml
