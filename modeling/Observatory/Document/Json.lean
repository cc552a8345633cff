import Observatory.Document.Basic
import Observatory.Text.CodePoint

/-! JSON text.

Writing puts a document on one line or, with two blanks per level, on many; fields
keep their order, doubles always have a fraction or an exponent, and only quotes,
backslashes and control characters are escaped. Reading takes one value with
nothing but blanks around it; a number with a fraction or an exponent is a double,
and so is one too large for sixty-four bits. -/
namespace Observatory.Document.Json

/-! ### Writing -/

/-- The lower-case hexadecimal digit of a number below sixteen. -/
def hexDigit (n : Nat) : Char := Nat.digitChar n

/-- A character as it stands inside quotes. -/
def escapeChar (c : Char) : List Char :=
  if c = '"' then ['\\', '"']
  else if c = '\\' then ['\\', '\\']
  else if c = '\n' then ['\\', 'n']
  else if c = '\r' then ['\\', 'r']
  else if c = '\t' then ['\\', 't']
  else if c.toNat = 8 then ['\\', 'b']
  else if c.toNat = 12 then ['\\', 'f']
  else if c.toNat < 32 then ['\\', 'u', '0', '0', hexDigit (c.toNat / 16), hexDigit (c.toNat % 16)]
  else [c]

def quote (s : String) : String := "\"" ++ String.ofList (s.toList.flatMap escapeChar) ++ "\""

/-- The text of a value without parts. -/
def scalarText : Document → String
  | .null => "null"
  | .boolean true => "true"
  | .boolean false => "false"
  | .integer n => toString n
  | .real x => if Number.isFinite x then Number.Layout.document.text x else "null"
  | .text s => quote s
  | .plain s => quote s
  | .list _ => "[]"
  | .sequence _ => "[]"
  | .record _ => "\x7b\x7d"

/-- Joins texts with a separator between them. -/
def join (separator : String) (texts : List String) : String := separator.intercalate texts

mutual

/-- The document on one line. -/
def compact : Document → String
  | .list items => "[" ++ join "," (compactItems items) ++ "]"
  | .sequence items => "[" ++ join "," (compactItems items) ++ "]"
  | .record fields => "\x7b" ++ join "," (compactFields fields) ++ "\x7d"
  | .null => "null"
  | .boolean b => scalarText (.boolean b)
  | .integer n => scalarText (.integer n)
  | .real x => scalarText (.real x)
  | .text s => quote s
  | .plain s => quote s

def compactItems : List Document → List String
  | [] => []
  | item :: rest => compact item :: compactItems rest

def compactFields : List (String × Document) → List String
  | [] => []
  | (name, value) :: rest => (quote name ++ ":" ++ compact value) :: compactFields rest

end

/-- The start of a line at a level of nesting. -/
def newline (level : Nat) : String := "\n" ++ String.ofList (List.replicate (2 * level) ' ')

/-- Parts on lines of their own between brackets; brackets alone if there are none. -/
def bracket (level : Nat) (first last : String) (parts : List String) : String :=
  if parts.isEmpty then first ++ last
  else first ++ newline (level + 1) ++ join ("," ++ newline (level + 1)) parts ++ newline level ++ last

mutual

/-- The document on many lines, its first line at the level given. -/
def indented (level : Nat) : Document → String
  | .list items => bracket level "[" "]" (indentedItems (level + 1) items)
  | .sequence items => bracket level "[" "]" (indentedItems (level + 1) items)
  | .record fields => bracket level "\x7b" "\x7d" (indentedFields (level + 1) fields)
  | .null => "null"
  | .boolean b => scalarText (.boolean b)
  | .integer n => scalarText (.integer n)
  | .real x => scalarText (.real x)
  | .text s => quote s
  | .plain s => quote s

def indentedItems (level : Nat) : List Document → List String
  | [] => []
  | item :: rest => indented level item :: indentedItems level rest

def indentedFields (level : Nat) : List (String × Document) → List String
  | [] => []
  | (name, value) :: rest =>
    (quote name ++ ": " ++ indented level value) :: indentedFields level rest

end

def pretty (d : Document) : String := indented 0 d

/-! ### Reading -/

/-- Whether a character may stand between the parts of a JSON text. -/
def isSpace (c : Char) : Bool := c = ' ' || c = '\t' || c = '\n' || c = '\r'

/-- What is left after the blanks in front. -/
def skipSpace (cs : List Char) : List Char := cs.dropWhile isSpace

/-- The value of four hexadecimal digits. -/
def hexFour? (a b c d : Char) : Option Nat := Text.digits? 16 [a, b, c, d]

/-- The character that stands for itself after a backslash, or a named one. -/
def escaped? (c : Char) : Option Char :=
  if c = '"' ∨ c = '\\' ∨ c = '/' then some c
  else if c = 'n' then some '\n'
  else if c = 'r' then some '\r'
  else if c = 't' then some '\t'
  else if c = 'b' then some '\x08'
  else if c = 'f' then some '\x0c'
  else none

/-- Reads the rest of a quoted text up to its closing quote, putting the characters
in front of those given, in reverse. Control characters have to be escaped. -/
def readQuoted? : List Char → List Char → Option (String × List Char)
  | read, '"' :: rest => some (String.ofList read.reverse, rest)
  | read, '\\' :: 'u' :: a :: b :: c :: d :: '\\' :: 'u' :: e :: f :: g :: h :: rest => do
    let unit ← hexFour? a b c d
    if Text.isHighSurrogate unit then
      readQuoted? ((← Text.ofSurrogates? unit (← hexFour? e f g h)) :: read) rest
    else readQuoted? ((← Text.charOf? unit) :: read) ('\\' :: 'u' :: e :: f :: g :: h :: rest)
  | read, '\\' :: 'u' :: a :: b :: c :: d :: rest => do
    readQuoted? ((← Text.charOf? (← hexFour? a b c d)) :: read) rest
  | read, '\\' :: c :: rest => do readQuoted? ((← escaped? c) :: read) rest
  | read, c :: rest => if c = '\\' || c.toNat < 32 then none else readQuoted? (c :: read) rest
  | _, [] => none
termination_by _ cs => cs.length

/-- Whether a character may be part of a number. -/
def isNumberChar (c : Char) : Bool :=
  Text.isDigit c || c = '-' || c = '+' || c = '.' || c = 'e' || c = 'E'

/-- Whether nothing follows an exponent's digits, of which there is at least one. -/
def endsExponent (cs : List Char) : Bool := !cs.isEmpty && cs.all Text.isDigit

/-- Whether nothing or an exponent comes next. -/
def endsFraction : List Char → Bool
  | [] => true
  | c :: rest =>
    (c = 'e' || c = 'E') &&
      match rest with
      | '+' :: digits => endsExponent digits
      | '-' :: digits => endsExponent digits
      | digits => endsExponent digits

/-- Whether the characters are a number without its sign: digits without a needless
zero in front, then a fraction and an exponent or neither. -/
def isUnsignedNumber (cs : List Char) : Bool :=
  let whole := cs.takeWhile Text.isDigit
  !whole.isEmpty && (whole.head? != some '0' || whole.length = 1) &&
    match cs.dropWhile Text.isDigit with
    | '.' :: rest => rest.head?.any Text.isDigit && endsFraction (rest.dropWhile Text.isDigit)
    | rest => endsFraction rest

def isNumber : List Char → Bool
  | '-' :: cs => isUnsignedNumber cs
  | cs => isUnsignedNumber cs

def readNumber? (cs : List Char) : Option Document :=
  let asReal := ((Number.readFloat? (String.ofList cs)).filter Number.isFinite).map Document.real
  if !isNumber cs then none
  else match Text.signedDigits? 10 cs with
    | none => asReal
    | some n =>
      if n = 0 ∧ cs.head? = some '-' then asReal
      else if fitsWord n then some (.integer n)
      else asReal

/-- Reads a word that stands for a value, or a number. -/
def readScalar? (cs : List Char) : Option (Document × List Char) :=
  match cs with
  | 'n' :: 'u' :: 'l' :: 'l' :: rest => some (.null, rest)
  | 't' :: 'r' :: 'u' :: 'e' :: rest => some (.boolean true, rest)
  | 'f' :: 'a' :: 'l' :: 's' :: 'e' :: rest => some (.boolean false, rest)
  | _ =>
    match cs.takeWhile isNumberChar with
    | [] => none
    | number => (readNumber? number).map fun d => (d, cs.dropWhile isNumberChar)

mutual

/-- Reads a value. Each nested value takes one unit of fuel. -/
def readValue? : Nat → List Char → Option (Document × List Char)
  | 0, _ => none
  | fuel + 1, cs =>
    match skipSpace cs with
    | '"' :: rest => (readQuoted? [] rest).map fun (s, more) => (.text s, more)
    | '[' :: rest =>
      match skipSpace rest with
      | ']' :: more => some (.list [], more)
      | more => (readItems? fuel more).map fun (items, tail) => (.list items, tail)
    | '\x7b' :: rest =>
      match skipSpace rest with
      | '\x7d' :: more => some (.record [], more)
      | more => (readFields? fuel more).map fun (fields, tail) => (.record fields, tail)
    | more => readScalar? more

/-- Reads the items of a list up to its closing bracket. -/
def readItems? : Nat → List Char → Option (List Document × List Char)
  | 0, _ => none
  | fuel + 1, cs => do
    let (item, rest) ← readValue? fuel cs
    match skipSpace rest with
    | ',' :: more =>
      let (items, tail) ← readItems? fuel more
      return (item :: items, tail)
    | ']' :: more => return ([item], more)
    | _ => none

/-- Reads the fields of a record up to its closing brace. -/
def readFields? : Nat → List Char → Option (List (String × Document) × List Char)
  | 0, _ => none
  | fuel + 1, cs =>
    match skipSpace cs with
    | '"' :: start => do
      let (name, rest) ← readQuoted? [] start
      match skipSpace rest with
      | ':' :: rest =>
        let (value, rest) ← readValue? fuel rest
        match skipSpace rest with
        | ',' :: more =>
          let (fields, tail) ← readFields? fuel more
          return ((name, value) :: fields, tail)
        | '\x7d' :: more => return ([(name, value)], more)
        | _ => none
      | _ => none
    | _ => none

end

def read? (s : String) : Option Document :=
  let cs := s.toList
  match readValue? (cs.length + 1) cs with
  | some (d, rest) => if (skipSpace rest).isEmpty then some d else none
  | none => none

end Observatory.Document.Json
