import Observatory.Text.Blank

/-! Comma lists.

A list parameter is a text whose pieces stand between commas. The items are the
trimmed pieces that are not empty, in order: `" a,,b "` holds `a` and `b`. -/
namespace Observatory.Text

/-- The pieces of a text between the occurrences of a separator, one more than
there are separators. -/
def pieces (separator : Char) : List Char → List (List Char)
  | [] => [[]]
  | c :: rest =>
    match pieces separator rest with
    | [] => [[c]]
    | piece :: others => if c = separator then [] :: piece :: others else (c :: piece) :: others

/-- The characters before the first separator and those after it, if there is one. -/
def cut (separator : Char) : List Char → List Char × Option (List Char)
  | [] => ([], none)
  | c :: rest =>
    if c = separator then ([], some rest)
    else
      let (before, after) := cut separator rest
      (c :: before, after)

/-- The trimmed pieces between commas, empty ones included. -/
def commaPieces (s : String) : List String :=
  (pieces ',' s.toList).map fun piece => String.ofList (trimChars piece)

/-- The items of a comma list: its trimmed pieces without the empty ones. -/
def items (s : String) : List String := (commaPieces s).filter (· ≠ "")

theorem pieces_ne_nil (separator : Char) (cs : List Char) : pieces separator cs ≠ [] := by
  cases cs with
  | nil => simp [pieces]
  | cons c rest =>
    simp only [pieces]
    split
    · simp
    · split <;> simp

/-- A separator ends a piece. -/
theorem pieces_cons_separator (separator : Char) (cs : List Char) :
    pieces separator (separator :: cs) = [] :: pieces separator cs := by
  simp only [pieces]
  split
  · next h => exact absurd h (pieces_ne_nil separator cs)
  · next h => simp [h]

end Observatory.Text
