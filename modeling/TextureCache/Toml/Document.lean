import TextureCache.Toml.Scalar

/-! TOML documents: values, and the tables that keys and headers build. No key may be set twice, and
a table may be opened only once, by a header or by dotted keys. -/
namespace TextureCache.Toml

/-- How a table came to be, which decides what may still be added to it. -/
inductive Origin where
  /-- A header opened it. -/
  | opened
  /-- A header named it on the way to another table. -/
  | implied
  /-- Dotted keys set values in it. -/
  | dotted
  /-- It was written as a value. -/
  | inline
  deriving DecidableEq, Repr

/-- A value of a document. -/
inductive Item where
  | text (value : String)
  | integer (value : Int)
  | boolean (value : Bool)
  /-- A number that is not whole, a date or a time. -/
  | other
  | list (items : List Item)
  | table (origin : Origin) (entries : List (String × Item))
  /-- Tables under a header that may occur many times. -/
  | tables (elements : List (List (String × Item)))

/-- Keys with their values, in order. -/
abbrev Entries := List (String × Item)

namespace Entries

/-- Set a new key. -/
def add? (entries : Entries) (key : String) (item : Item) : Option Entries :=
  if (entries.lookup key).isSome then none else some (entries ++ [(key, item)])

def replace (entries : Entries) (key : String) (item : Item) : Entries :=
  entries.map fun entry => if entry.1 = key then (key, item) else entry

/-- Change the table at the end of a path of keys; missing tables on the way are made. Dotted keys
may not enter a table that a header opened, and nothing may enter a value. The change is told
whether dotted keys made the table. -/
def change? (byKeys : Bool) (change : (dotted : Bool) → Entries → Option Entries) :
    List String → (dotted : Bool) → Entries → Option Entries
  | [], dotted, entries => change dotted entries
  | key :: path, _, entries =>
    match entries.lookup key with
    | none => do
      let table ← change? byKeys change path byKeys []
      some (entries ++ [(key, .table (if byKeys then .dotted else .implied) table)])
    | some (.table origin table) => do
      guard (origin ≠ .inline ∧ ¬ (byKeys ∧ origin = .opened))
      let table ← change? byKeys change path (origin = .dotted) table
      some (replace entries key (.table origin table))
    | some (.tables elements) => do
      let last ← elements.getLast?
      let last ← change? byKeys change path false last
      some (replace entries key (.tables (elements.dropLast ++ [last])))
    | some _ => none

/-- Set a value under dotted keys. Only tables that dotted keys made can get it. -/
def set? (entries : Entries) (path : List String) (key : String) (item : Item) : Option Entries :=
  change? true (fun dotted table =>
    if dotted = path.isEmpty then none else add? table key item) path false entries

/-- Open a table under a header. It may be there already only because it was implied. -/
def openTable? (entries : Entries) (path : List String) (key : String) : Option Entries :=
  change? false (fun _ parent =>
    match parent.lookup key with
    | none => some (parent ++ [(key, .table .opened [])])
    | some (.table .implied table) => some (replace parent key (.table .opened table))
    | some _ => none) path false entries

/-- Add a table under a header that may occur many times. -/
def addTable? (entries : Entries) (path : List String) (key : String) : Option Entries :=
  change? false (fun _ parent =>
    match parent.lookup key with
    | none => some (parent ++ [(key, .tables [[]])])
    | some (.tables elements) => some (replace parent key (.tables (elements ++ [[]])))
    | some _ => none) path false entries

end Entries

/-- The first number of keys or of nested values that is too many. -/
def depthLimit : Nat := 80

def simpleKey : Reader String := do
  match ← peek? with
  | some '"' | some '\'' => singleLine
  | _ => do
    let bare ← takeWhile fun char => char.isAlphanum || char = '_' || char = '-'
    guard (bare ≠ [])
    return String.ofList bare

def keys : (fuel : Nat) → Reader (List String)
  | 0 => failure
  | fuel + 1 => do
    skipBlanks
    let key ← simpleKey
    skipBlanks
    if (← peek?) = some '.' then
      let _ ← next
      return key :: (← keys fuel)
    else return [key]

/-- A key with those before it that lead to its table. -/
def dottedKey : Reader (List String × String) := do
  let path ← keys (← stepBound)
  guard (path.length < depthLimit)
  match path.getLast? with
  | none => failure
  | some key => return (path.dropLast, key)

def keyValue (value : Reader Item) : Reader (List String × String × Item) := do
  let (path, key) ← dottedKey
  word "="
  skipBlanks
  return (path, key, ← value)

/-- The rest of a list after its bracket or after a comma. -/
def listItems (value : Reader Item) : (fuel : Nat) → Reader (List Item)
  | 0 => failure
  | fuel + 1 => do
    skipSpace (← stepBound)
    if (← peek?) = some ']' then
      let _ ← next
      return []
    else
      let item ← value
      skipSpace (← stepBound)
      match ← next with
      | ',' => return item :: (← listItems value fuel)
      | ']' => return [item]
      | _ => failure

/-- The rest of an inline table that has a key to come. -/
def inlineEntries (value : Reader Item) : (fuel : Nat) → Entries → Reader Entries
  | 0, _ => failure
  | fuel + 1, entries => do
    let (path, key, item) ← keyValue value
    let entries ← entries.set? path key item
    skipBlanks
    match ← next with
    | ',' => inlineEntries value fuel entries
    | '}' => return entries
    | _ => failure

def inlineTable (value : Reader Item) : Reader Item := do
  skipBlanks
  if (← peek?) = some '}' then
    let _ ← next
    return .table .inline []
  else return .table .inline (← inlineEntries value (← stepBound) [])

def scalar : Reader Item := do
  match ← peek? with
  | some '"' | some '\'' => return .text (← string)
  | some 't' | some 'f' => return .boolean (← boolean)
  | _ =>
    (do
      moment <|> float <|> special
      return .other) <|>
    (do return .integer (← integer))

/-- A value with at most `depth` values around each other. -/
def value : (depth : Nat) → Reader Item
  | 0 => scalar
  | depth + 1 => do
    match ← peek? with
    | some '[' =>
      let _ ← next
      return .list (← listItems (value depth) (← stepBound))
    | some '{' =>
      let _ ← next
      inlineTable (value depth)
    | _ => scalar

/-- A document so far: its entries and the table that keys are set in. -/
structure Draft where
  entries : Entries
  current : List String

/-- A header; keys that follow it are set in its table. -/
def header (draft : Draft) : Reader Draft := do
  word "["
  let many ← attempt (word "[")
  let (path, key) ← dottedKey
  word (if many.isSome then "]]" else "]")
  endLine
  let entries ←
    if many.isSome then draft.entries.addTable? path key else draft.entries.openTable? path key
  return ⟨entries, path ++ [key]⟩

def setting (draft : Draft) : Reader Draft := do
  let (path, key, item) ← keyValue (value (depthLimit - 1))
  endLine
  let entries ← Entries.change? false (fun _ table => Entries.set? table path key item)
    draft.current false draft.entries
  return { draft with entries }

def lines : (fuel : Nat) → Draft → Reader Draft
  | 0, _ => failure
  | fuel + 1, draft => do
    skipBlanks
    match ← peek? with
    | none => return draft
    | some '\n' =>
      let _ ← next
      lines fuel draft
    | some '#' =>
      endLine
      lines fuel draft
    | some '[' => lines fuel (← header draft)
    | some _ => lines fuel (← setting draft)

/-- The entries of a document, which may start with a byte order mark. -/
def parse? (text : String) : Option Entries := do
  let text ← normalize text.toList
  let text := if text.head? = some '\ufeff' then text.drop 1 else text
  let (draft, rest) ← (lines (text.length + 2) ⟨[], []⟩).run text
  guard (rest = [])
  some draft.entries

end TextureCache.Toml
