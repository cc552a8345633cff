import Observatory.Query.Predicate

/-! Predicates as text, in the manner of a query language. -/
namespace Observatory.Predicate

/-- Texts in parentheses with a word between them. -/
def joined (word : String) (texts : List String) : String := "(" ++ word.intercalate texts ++ ")"

mutual

def display : Predicate → String
  | always => "TRUE"
  | never => "FALSE"
  | and parts => joined " AND " (displayAll parts)
  | or parts => joined " OR " (displayAll parts)
  | not p => "NOT (" ++ display p ++ ")"
  | isNotNull column => column.name ++ " IS NOT NULL"
  | flag column value => column.name ++ " = " ++ (if value then "true" else "false")
  | isIn column values => column.name ++ " IN " ++ values.display
  | intersects column envelope =>
    "ST_Intersects(" ++ column.name ++ ", ST_MakeEnvelope(" ++ envelope.display ++ "))"
  | within column interval => column.name ++ " WITHIN '" ++ interval.display ++ "'"
  | inSubquery column projection filter =>
    column.name ++ " IN (SELECT " ++ projection.name ++ "_id FROM datasets WHERE " ++ display filter ++
      ")"

def displayAll : List Predicate → List String
  | [] => []
  | p :: rest => display p :: displayAll rest

end

end Observatory.Predicate
