import Observatory.Document.Basic
import Observatory.Text.CodePoint

/-! Scalars of YAML text.

A scalar is quoted singly, with a quote inside written twice; or doubly, with escapes
after a backslash; or plain, up to where the line, a comment, a colon with a blank after
it or, inside brackets, a separator ends it. Every scalar ends on its line. -/
namespace Observatory.Document.Yaml

def isBlank (c : Char) : Bool := c = ' ' || c = '\t'

def isBreak (c : Char) : Bool := c = '\n' || c = '\r'

/-- Whether nothing or a blank comes next. -/
def atBlank : List Char → Bool
  | [] => true
  | c :: _ => isBlank c || isBreak c

/-- What is left of a line after its blanks and its comment. -/
def skipRest (cs : List Char) : List Char :=
  match cs.dropWhile isBlank with
  | '#' :: rest => rest.dropWhile (!isBreak ·)
  | rest => rest

/-- What follows the break of a line. -/
def afterBreak : List Char → Option (List Char)
  | '\r' :: '\n' :: rest => some rest
  | '\r' :: rest => some rest
  | '\n' :: rest => some rest
  | _ => none

/-! ### Quoted scalars -/

/-- Reads the rest of a singly quoted scalar, putting the characters in front of those
given, in reverse. -/
def readSingle? : List Char → List Char → Option (String × List Char)
  | read, '\x27' :: '\x27' :: rest => readSingle? ('\x27' :: read) rest
  | read, '\x27' :: rest => some (String.ofList read.reverse, rest)
  | read, c :: rest => if isBreak c then none else readSingle? (c :: read) rest
  | _, [] => none

/-- The character that a letter after a backslash names. -/
def escaped? (c : Char) : Option Char :=
  [('0', '\x00'), ('a', '\x07'), ('b', '\x08'), ('t', '\t'), ('\t', '\t'), ('n', '\n'), ('v', '\x0b'),
    ('f', '\x0c'), ('r', '\r'), ('e', '\x1b'), (' ', ' '), ('"', '"'), ('/', '/'), ('\\', '\\'),
    ('N', '\u0085'), ('_', '\u00a0'), ('L', '\u2028'), ('P', '\u2029')].lookup c

/-- The number of hexadecimal digits that a letter after a backslash announces. -/
def escapeWidth? (c : Char) : Option Nat := [('x', 2), ('u', 4), ('U', 8)].lookup c

/-- Reads the rest of a doubly quoted scalar, putting the characters in front of those
given, in reverse. Each character takes one unit of fuel. -/
def readDouble? : Nat → List Char → List Char → Option (String × List Char)
  | 0, _, _ => none
  | _, read, '"' :: rest => some (String.ofList read.reverse, rest)
  | fuel + 1, read, '\\' :: c :: rest =>
    match escapeWidth? c with
    | some width => do
      let digits := rest.take width
      if digits.length < width then none
      else
        let char ← Text.charOf? (← Text.digits? 16 digits)
        readDouble? fuel (char :: read) (rest.drop width)
    | none => do readDouble? fuel ((← escaped? c) :: read) rest
  | fuel + 1, read, c :: rest =>
    if c = '\\' || isBreak c then none else readDouble? fuel (c :: read) rest
  | _, _, [] => none

/-! ### Plain scalars -/

/-- Whether a character separates or closes inside brackets. -/
def isFlowMark (c : Char) : Bool := c = ',' || c = '[' || c = ']' || c = '\x7b' || c = '\x7d'

/-- Whether a plain scalar may start here. -/
def startsPlain (inFlow : Bool) : List Char → Bool
  | [] => false
  | c :: rest =>
    if c = '-' then !atBlank rest
    else if c = '?' || c = ':' then !inFlow && !atBlank rest
    else !(isFlowMark c || isBlank c || isBreak c || "#&*!|>\x27\"%@\x60".toList.contains c)

/-- The characters of a plain scalar and what is left after them. -/
def plainChars (inFlow : Bool) (afterBlank : Bool) : List Char → List Char × List Char
  | [] => ([], [])
  | c :: rest =>
    if isBreak c || (c = '#' && afterBlank) || (c = ':' && atBlank rest) || (inFlow && isFlowMark c) then
      ([], c :: rest)
    else
      let (more, left) := plainChars inFlow (isBlank c) rest
      (c :: more, left)

/-- Whether a plain scalar inside brackets ends in a colon without a blank behind it. It
could be a key or not, so it is refused. -/
def endsInColon (inFlow : Bool) (chars rest : List Char) : Bool :=
  inFlow && chars.getLast? == some ':' && rest.head?.any isFlowMark

/-- Reads a plain scalar, without the blanks behind it. -/
def readPlain? (inFlow : Bool) (cs : List Char) : Option (String × List Char) :=
  if startsPlain inFlow cs then
    let (chars, rest) := plainChars inFlow false cs
    let kept := (chars.reverse.dropWhile isBlank).reverse
    if endsInColon inFlow chars rest then none
    else some (String.ofList kept, (chars.drop kept.length) ++ rest)
  else none

/-- Reads a scalar of any style. -/
def readScalar? (inFlow : Bool) (cs : List Char) : Option (Document × List Char) :=
  match cs with
  | '\x27' :: rest => (readSingle? [] rest).map fun (s, more) => (.text s, more)
  | '"' :: rest => (readDouble? (rest.length + 1) [] rest).map fun (s, more) => (.text s, more)
  | _ => (readPlain? inFlow cs).map fun (s, more) => (.plain s, more)

/-- The name that a scalar is as a key. -/
def keyText? : Document → Option String
  | .text s => some s
  | .plain s => some s
  | _ => none

end Observatory.Document.Yaml
