/-! ASCII letter case.

Kinds and truth values are compared without regard to the case of the letters
`A` to `Z`; every other character stands for itself. -/
namespace Observatory.Text

/-- The text with the letters `A` to `Z` in lower case. -/
def lower (s : String) : String := String.ofList (s.toList.map Char.toLower)

/-- Whether two texts differ at most in the case of ASCII letters. -/
def sameLetters (s t : String) : Bool := lower s == lower t

end Observatory.Text
