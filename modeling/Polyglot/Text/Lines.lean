/-!
Cutting a text at a separator, joining pieces again, and the lines of a text.
-/

namespace Polyglot.Text

/-- The pieces between the separators: one more than there are separators. -/
def splitOn (sep : Char) : List Char → List (List Char)
  | [] => [[]]
  | c :: rest =>
    if c = sep then [] :: splitOn sep rest
    else match splitOn sep rest with
      | piece :: pieces => (c :: piece) :: pieces
      | [] => [[c]]

def join (sep : List Char) : List (List Char) → List Char
  | [] => []
  | [piece] => piece
  | piece :: pieces => piece ++ sep ++ join sep pieces

/-- Drops one carriage return at the end. -/
def stripReturn (s : List Char) : List Char :=
  if s.getLast? = some '\r' then s.dropLast else s

/-- The lines, without their ends `\n` or `\r\n`. No line follows the last line end, and a carriage
return that no line feed follows stays. -/
def lines (s : List Char) : List (List Char) :=
  let pieces := splitOn '\n' s
  let last := pieces.getLast?.getD []
  pieces.dropLast.map stripReturn ++ (if last.isEmpty then [] else [last])

theorem splitOn_ne_nil (sep : Char) (s : List Char) : splitOn sep s ≠ [] := by
  induction s with
  | nil => simp [splitOn]
  | cons c rest ih =>
    simp only [splitOn]
    split
    · simp
    · split <;> simp

/-- Joining the pieces with the separator gives the text back. -/
theorem join_splitOn (sep : Char) (s : List Char) : join [sep] (splitOn sep s) = s := by
  induction s with
  | nil => rfl
  | cons c rest ih =>
    simp only [splitOn]
    split
    · next h =>
      subst h
      cases hp : splitOn c rest with
      | nil => exact absurd hp (splitOn_ne_nil c rest)
      | cons piece pieces =>
        rw [hp] at ih
        simp [join, ih]
    · split
      · next piece pieces hp =>
        rw [hp] at ih
        cases pieces with
        | nil => simpa [join] using ih
        | cons next more => simpa [join] using ih
      · next hp => exact absurd hp (splitOn_ne_nil sep rest)

end Polyglot.Text
