import TextureCache.Text

/-! Reading a TOML text character by character. A reader either fails or gives a value and what is
left of the text; failures are not told apart. -/
namespace TextureCache.Toml

abbrev Reader := StateT (List Char) Option

/-- The next character, which is not consumed. -/
def peek? : Reader (Option Char) := return (← get).head?

def next : Reader Char := do
  match ← get with
  | [] => failure
  | char :: rest =>
    set rest
    return char

def satisfy (test : Char → Bool) : Reader Char := do
  let char ← next
  guard (test char)
  return char

def takeWhile (test : Char → Bool) : Reader (List Char) := do
  let text ← get
  set (text.dropWhile test)
  return text.takeWhile test

def word (expected : String) : Reader Unit := do
  let text ← get
  guard (expected.toList.isPrefixOf text)
  set (text.drop expected.length)

/-- The value of a reader, or nothing where it fails. -/
def attempt (reader : Reader α) : Reader (Option α) := (some <$> reader) <|> pure none

def isBlank (char : Char) : Bool := char = ' ' || char = '\t'

def skipBlanks : Reader Unit := do
  let _ ← takeWhile isBlank

/-- Control characters but the tab may not occur in comments and strings. -/
def isPrintable (char : Char) : Bool := char = '\t' || (' ' ≤ char && char ≠ '\x7f')

def skipComment : Reader Unit := do
  word "#"
  let _ ← takeWhile isPrintable

/-- Skip what may follow a value on its line, and the end of the line. -/
def endLine : Reader Unit := do
  skipBlanks
  let _ ← attempt skipComment
  match ← peek? with
  | none => return
  | some _ => word "\n"

/-- Skip blanks, line ends and comments. Each of them takes a character at least. -/
def skipSpace : (fuel : Nat) → Reader Unit
  | 0 => return
  | fuel + 1 => do
    match ← peek? with
    | some '#' =>
      skipComment
      skipSpace fuel
    | some char =>
      if isBlank char ∨ char = '\n' then
        let _ ← next
        skipSpace fuel
      else return
    | none => return

/-- A bound on the steps of a reader that consumes a character in every step. -/
def stepBound : Reader Nat := return (← get).length + 1

/-- Line ends of two characters become one; a lone carriage return is not allowed. -/
def normalize : List Char → Option (List Char)
  | [] => some []
  | '\r' :: '\n' :: rest => ('\n' :: ·) <$> normalize rest
  | '\r' :: _ => none
  | char :: rest => (char :: ·) <$> normalize rest

end TextureCache.Toml
