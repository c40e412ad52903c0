import TextureCache.Text

/-! Paths. A path keeps the form in which it was written, because messages show it; two paths mean
the same entry of the registry when their components agree. -/
namespace TextureCache

/-- A path as it is written: the texts between its slashes. -/
structure Path where
  segments : List String
  deriving DecidableEq, Repr

inductive Component where
  | root
  | current
  | parent
  | name (name : String)
  deriving DecidableEq, Repr

namespace Path

def ofText (text : String) : Path := ⟨(Text.splitOn '/' text.toList).map String.ofList⟩

def text (path : Path) : String := "/".intercalate path.segments

/-- The path that leads from the root through the given names. -/
def ofNames (names : List String) : Path :=
  match names with
  | [] => ⟨["", ""]⟩
  | names => ⟨"" :: names⟩

/-- A path starts at the root when it starts with a slash. -/
def isAbsolute (path : Path) : Bool :=
  match path.segments with
  | "" :: _ :: _ => true
  | _ => false

/-- The step that a segment stands for; empty segments and dots stand for none. -/
def componentOf : String → Option Component
  | "" | "." => none
  | ".." => some .parent
  | name => some (.name name)

/-- The steps of a path. Only a leading dot counts, and a parent is never resolved. -/
def components (path : Path) : List Component :=
  match path.segments with
  | "" :: second :: rest => .root :: (second :: rest).filterMap componentOf
  | "." :: rest => .current :: rest.filterMap componentOf
  | segments => segments.filterMap componentOf

/-- The last step, if it is a name. -/
def fileName? (path : Path) : Option String :=
  match path.components.getLast? with
  | some (.name name) => some name
  | _ => none

/-- How messages name a file: its name, or the path if it has none. -/
def displayName (path : Path) : String := path.fileName?.getD path.text

def join (directory : Path) (name : String) : Path :=
  match directory.segments.getLast? with
  | some "" => ⟨directory.segments.dropLast ++ [name]⟩
  | _ => ⟨directory.segments ++ [name]⟩

/-- A path lies under a directory when its first steps are those of the directory. -/
def startsWith (path directory : Path) : Bool := directory.components.isPrefixOf path.components

/-- The path without its last step; the root and the empty path have none. -/
def parent? (path : Path) : Option Path :=
  match path.components.getLast? with
  | none | some .root => none
  | some _ =>
    let shown := path.components.dropLast.map fun component => match component with
      | .root => ""
      | .current => "."
      | .parent => ".."
      | .name name => name
    some ⟨match shown with
      | [] => [""]
      | [""] => ["", ""]
      | segments => segments⟩

/-- The path and up to `count` paths above it, the path first. -/
def ancestorsUpTo : (count : Nat) → Path → List Path
  | 0, path => [path]
  | count + 1, path =>
    path :: match path.parent? with
      | none => []
      | some parent => ancestorsUpTo count parent

/-- The path and everything above it, the path first. -/
def ancestors (path : Path) : List Path := ancestorsUpTo path.components.length path

end Path
end TextureCache
