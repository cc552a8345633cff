import Observatory.Document.Yaml.Scalar

/-! YAML text.

Block lists and records are told by the column at which their parts start; inside
brackets lines and columns do not matter. The items of a list may stand at the column
of the key they belong to. Whatever is left behind a document is refused. -/
namespace Observatory.Document.Yaml

/-! ### Inside brackets -/

/-- What is left after blanks, line breaks and comments. Each line takes one unit of
fuel. -/
def skipLines : Nat → List Char → List Char
  | 0, cs => cs
  | fuel + 1, cs =>
    match afterBreak (skipRest cs) with
    | some more => skipLines fuel more
    | none => skipRest cs

/-- What is left after blanks, line breaks and comments. -/
def skipSpace (cs : List Char) : List Char := skipLines cs.length cs

/-- Whether a colon separates a key from its value here. After a quoted key it need not
have a blank behind it. -/
def colon? : List Char → Option (List Char)
  | ':' :: rest => some rest
  | _ => none

mutual

/-- Reads a value inside brackets, or a bracketed value. -/
def flowNode? : Nat → List Char → Option (Document × List Char)
  | 0, _ => none
  | fuel + 1, '[' :: rest => (flowItems? fuel (skipSpace rest)).map fun (items, more) => (.sequence items, more)
  | fuel + 1, '\x7b' :: rest =>
    (flowFields? fuel (skipSpace rest)).map fun (fields, more) => (.record fields, more)
  | _, cs => readScalar? true cs

/-- Reads the items of a list up to its closing bracket. A key with a value among them
is a record of its own. -/
def flowItems? : Nat → List Char → Option (List Document × List Char)
  | 0, _ => none
  | _, ']' :: rest => some ([], rest)
  | fuel + 1, cs => do
    let (item, rest) ← flowNode? fuel cs
    let (item, rest) ← match colon? (skipSpace rest) with
      | none => some (item, rest)
      | some rest => do
        let (value, rest) ← flowValue? fuel rest
        some (.record [(← keyText? item, value)], rest)
    match skipSpace rest with
    | ',' :: more =>
      let (items, tail) ← flowItems? fuel (skipSpace more)
      return (item :: items, tail)
    | ']' :: more => return ([item], more)
    | _ => none

/-- Reads the fields of a record up to its closing brace. A key alone has no value. -/
def flowFields? : Nat → List Char → Option (List (String × Document) × List Char)
  | 0, _ => none
  | _, '\x7d' :: rest => some ([], rest)
  | fuel + 1, cs => do
    let (key, rest) ← readScalar? true cs
    let name ← keyText? key
    let (value, rest) ← match colon? (skipSpace rest) with
      | none => some (.plain "", rest)
      | some rest => flowValue? fuel rest
    match skipSpace rest with
    | ',' :: more =>
      let (fields, tail) ← flowFields? fuel (skipSpace more)
      return ((name, value) :: fields, tail)
    | '\x7d' :: more => return ([(name, value)], more)
    | _ => none

/-- Reads the value behind a colon inside brackets; there may be none. -/
def flowValue? : Nat → List Char → Option (Document × List Char)
  | 0, _ => none
  | fuel + 1, cs =>
    match skipSpace cs with
    | [] => none
    | c :: rest =>
      if c = ',' || c = ']' || c = '\x7d' then some (.plain "", c :: rest)
      else flowNode? fuel (c :: rest)

end

/-! ### Blocks -/

/-- Whether a line starts or ends a document. -/
def isMarker (mark : String) (cs : List Char) : Bool :=
  cs.take 3 == mark.toList && atBlank (cs.drop 3)

/-- The next line with content: its column and what it holds from there. Each line
takes one unit of fuel. -/
def nextLine? : Nat → List Char → Option (Nat × List Char)
  | 0, _ => none
  | fuel + 1, cs =>
    let column := (cs.takeWhile (· = ' ')).length
    let rest := cs.drop column
    match afterBreak (skipRest rest) with
    | some more => nextLine? fuel more
    | none => if (skipRest rest).isEmpty || isMarker "..." cs then none else some (column, rest)

/-- The next line with content, from the start of a line. -/
def nextContent? (cs : List Char) : Option (Nat × List Char) := nextLine? (cs.length + 1) cs

/-- What follows a line that has nothing left but blanks and a comment. -/
def endLine? (cs : List Char) : Option (List Char) :=
  match skipRest cs with
  | [] => some []
  | rest => afterBreak rest

/-- Whether an item of a list starts here. -/
def startsItem : List Char → Bool
  | '-' :: rest => atBlank rest
  | _ => false

/-- The key that starts here, and what is left after its colon. -/
def key? (cs : List Char) : Option (String × List Char) := do
  let (key, rest) ← readScalar? false cs
  match rest.dropWhile isBlank with
  | ':' :: more => if atBlank more then return (← keyText? key, more) else none
  | _ => none

/-- Reads a value that ends on its line, or in brackets over several lines. -/
def lineValue? (cs : List Char) : Option (Document × List Char) := do
  let (value, rest) ← match cs with
    | '[' :: _ => flowNode? (2 * cs.length + 2) cs
    | '\x7b' :: _ => flowNode? (2 * cs.length + 2) cs
    | _ => readScalar? false cs
  return (value, ← endLine? rest)

mutual

/-- Reads what starts at a column: a list, a record, or a value on one line. What is
left starts a line. -/
def blockNode? : Nat → Nat → List Char → Option (Document × List Char)
  | 0, _, _ => none
  | fuel + 1, column, cs =>
    if startsItem cs then (blockItems? fuel column cs).map fun (items, rest) => (.sequence items, rest)
    else match key? cs with
      | some _ => (blockFields? fuel column cs).map fun (fields, rest) => (.record fields, rest)
      | none => lineValue? cs

/-- Reads the items of a list at a column. -/
def blockItems? : Nat → Nat → List Char → Option (List Document × List Char)
  | 0, _, _ => none
  | fuel + 1, column, cs => do
    let blanks := ((cs.drop 1).takeWhile (· = ' ')).length
    let (item, rest) ← match endLine? (cs.drop 1) with
      | some rest => nested? fuel (column + 1) rest
      | none => blockNode? fuel (column + 1 + blanks) (cs.drop (1 + blanks))
    match nextContent? rest with
    | none => return ([item], rest)
    | some (next, line) =>
      if next = column ∧ startsItem line then
        let (items, rest) ← blockItems? fuel column line
        return (item :: items, rest)
      else if next ≤ column then return ([item], rest)
      else none

/-- Reads the fields of a record at a column. -/
def blockFields? : Nat → Nat → List Char → Option (List (String × Document) × List Char)
  | 0, _, _ => none
  | fuel + 1, column, cs => do
    let (name, rest) ← key? cs
    let (value, rest) ← match endLine? rest with
      | some rest => fieldBlock? fuel column rest
      | none => lineValue? (rest.dropWhile isBlank)
    match nextContent? rest with
    | none => return ([(name, value)], rest)
    | some (next, line) =>
      if next = column then
        if startsItem line then none
        else
          let (fields, rest) ← blockFields? fuel column line
          return ((name, value) :: fields, rest)
      else if next < column then return ([(name, value)], rest)
      else none

/-- Reads what stands on the lines below at that column or deeper; there may be
nothing. -/
def nested? : Nat → Nat → List Char → Option (Document × List Char)
  | 0, _, _ => none
  | fuel + 1, least, cs =>
    match nextContent? cs with
    | none => some (.plain "", cs)
    | some (column, line) => if least ≤ column then blockNode? fuel column line else some (.plain "", cs)

/-- Reads the lines below a key: something deeper, or items at the column of the
key. -/
def fieldBlock? : Nat → Nat → List Char → Option (Document × List Char)
  | 0, _, _ => none
  | fuel + 1, column, cs =>
    match nextContent? cs with
    | none => some (.plain "", cs)
    | some (next, line) =>
      if next = column ∧ startsItem line then
        (blockItems? fuel column line).map fun (items, rest) => (.sequence items, rest)
      else nested? fuel (column + 1) cs

end

/-- What follows the mark that may start a document. -/
def afterStart (cs : List Char) : List Char :=
  match nextContent? cs with
  | some (0, line) => if isMarker "---" line then ((endLine? (line.drop 3)).getD line) else cs
  | _ => cs

/-- Reads a YAML text with one document; an empty one is a scalar without text. -/
def read? (s : String) : Option Document :=
  let cs := afterStart s.toList
  match nextContent? cs with
  | none => some (.plain "")
  | some (column, line) => do
    let (d, rest) ← blockNode? (4 * line.length + 4) column line
    if (nextContent? rest).isNone then return d else none

end Observatory.Document.Yaml
