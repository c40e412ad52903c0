/-! Cutting texts at a separator. -/
namespace TextureCache.Text

/-- The pieces of a text between the occurrences of a separator; never empty. -/
def splitOn (separator : Char) : List Char → List (List Char)
  | [] => [[]]
  | char :: rest =>
    if char = separator then [] :: splitOn separator rest
    else match splitOn separator rest with
      | [] => [[char]]
      | first :: others => (char :: first) :: others

/-- The text before and after the last occurrence of a separator. -/
def splitLast? (separator : Char) : List Char → Option (List Char × List Char)
  | [] => none
  | char :: rest =>
    match splitLast? separator rest with
    | some (before, after) => some (char :: before, after)
    | none => if char = separator then some ([], rest) else none

theorem splitOn_ne_nil (separator : Char) (text : List Char) : splitOn separator text ≠ [] := by
  cases text with
  | nil => simp [splitOn]
  | cons char rest =>
    simp only [splitOn]
    split
    · simp
    · split <;> simp

end TextureCache.Text
