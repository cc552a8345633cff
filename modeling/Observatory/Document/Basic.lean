import Observatory.Text.Numeral
import Observatory.Number.Text

/-! Structured documents.

A document is a tree of records and lists over scalar values: what a JSON or YAML
text denotes. In YAML an unquoted scalar has no type of its own; it is kept as a
`plain` text until the place it is read into says what it should be, or until
`resolve?` gives it the type it looks like. A list may stand for the record whose values
it holds, but for a `sequence`, a list of YAML text, this is so only once it is
resolved. -/
namespace Observatory

/-- A tree of records, lists and scalars. -/
inductive Document where
  | null
  | boolean (value : Bool)
  | integer (value : Int)
  | real (value : Float)
  | text (value : String)
  /-- An unquoted scalar whose type depends on where it is read. -/
  | plain (value : String)
  | list (items : List Document)
  /-- A list that stands for nothing but itself. -/
  | sequence (items : List Document)
  | record (fields : List (String × Document))
deriving Inhabited

namespace Document

/-! ### Plain scalars -/

/-- Whether a plain scalar is a spelling of null. -/
def isNullWord (s : String) : Bool := s == "" || s == "~" || s == "null" || s == "Null" || s == "NULL"

/-- The truth value that a plain scalar spells. -/
def boolWord? (s : String) : Option Bool :=
  if s == "true" || s == "True" || s == "TRUE" then some true
  else if s == "false" || s == "False" || s == "FALSE" then some false
  else none

/-- Digits after a leading zero, with a sign or without: such a scalar is no
number. -/
def hasLeadingZero (cs : List Char) : Bool :=
  match cs with
  | '-' :: '0' :: c :: rest => (c :: rest).all Text.isDigit
  | '+' :: '0' :: c :: rest => (c :: rest).all Text.isDigit
  | '0' :: c :: rest => (c :: rest).all Text.isDigit
  | _ => false

/-- Digits in the radix that a mark such as `0x` announces. -/
def markedDigits? : List Char → Option Nat
  | '0' :: 'x' :: rest => Text.digits? 16 rest
  | '0' :: 'o' :: rest => Text.digits? 8 rest
  | '0' :: 'b' :: rest => Text.digits? 2 rest
  | cs => if hasLeadingZero cs then none else Text.digits? 10 cs

/-- The whole number that a plain scalar spells. -/
def integerWord? (s : String) : Option Int :=
  match s.toList with
  | '-' :: rest => (markedDigits? rest).map fun n => -(n : Int)
  | '+' :: rest => (markedDigits? rest).map fun n => (n : Int)
  | cs => (markedDigits? cs).map fun n => (n : Int)

/-- The double that a plain scalar spells; a decimal number has to be in range. -/
def realWord? (s : String) : Option Float :=
  let unsigned := match s.toList with
    | '+' :: rest => String.ofList rest
    | _ => s
  if s.startsWith "++" || s.startsWith "+-" then none
  else if unsigned == ".inf" || unsigned == ".Inf" || unsigned == ".INF" then some (1 / 0)
  else if s == "-.inf" || s == "-.Inf" || s == "-.INF" then some (-(1 / 0))
  else if s == ".nan" || s == ".NaN" || s == ".NAN" then some (0 / 0)
  else (Number.readFloat? unsigned).filter Number.isFinite

/-- Whether a whole number fits sixty-four bits, with a sign or without. -/
def fitsWord (n : Int) : Bool := Int64.minValue.toInt ≤ n && n < UInt64.size

/-- Whether a whole number fits twice as many bits. -/
def fitsDoubleWord (n : Int) : Bool := -(Nat.pow 2 127 : Int) ≤ n && n < (Nat.pow 2 128 : Int)

/-- A plain scalar that is no whole number: a double or else text. -/
def realOrText (s : String) : Document :=
  if hasLeadingZero s.toList then .text s
  else match realWord? s with
    | some x => .real x
    | none => .text s

/-- A plain scalar as the value that it looks like: null, a truth value, a whole
number, a double or else text. A whole number that takes more than sixty-four bits is
refused; past twice as many it is read as a double. -/
def resolveWord? (s : String) : Option Document :=
  if isNullWord s then some .null
  else match boolWord? s with
    | some b => some (.boolean b)
    | none => match integerWord? s with
      | some n =>
        if fitsWord n then some (.integer n)
        else if fitsDoubleWord n then none
        else some (realOrText s)
      | none => some (realOrText s)

mutual

/-- The document with every plain scalar given the type it looks like. -/
def resolve? : Document → Option Document
  | .plain s => resolveWord? s
  | .list items => (resolveItems? items).map .list
  | .sequence items => (resolveItems? items).map .list
  | .record fields => (resolveFields? fields).map .record
  | .null => some .null
  | .boolean b => some (.boolean b)
  | .integer n => some (.integer n)
  | .real x => some (.real x)
  | .text s => some (.text s)

/-- The items with every plain scalar given the type it looks like. -/
def resolveItems? : List Document → Option (List Document)
  | [] => some []
  | item :: rest => do return (← resolve? item) :: (← resolveItems? rest)

/-- The fields with every plain scalar given the type it looks like. -/
def resolveFields? : List (String × Document) → Option (List (String × Document))
  | [] => some []
  | (name, value) :: rest => do return (name, ← resolve? value) :: (← resolveFields? rest)

end

/-! ### Reading scalars, lists and records -/

/-- Whether the document is null, in any spelling. -/
def isNull : Document → Bool
  | .null => true
  | .plain s => isNullWord s
  | _ => false

def text? : Document → Option String
  | .text s => some s
  | .plain s => some s
  | _ => none

def boolean? : Document → Option Bool
  | .boolean b => some b
  | .plain s => boolWord? s
  | _ => none

def integer? : Document → Option Int
  | .integer n => some n
  | .plain s => integerWord? s
  | _ => none

def int64? (d : Document) : Option Int64 := d.integer?.bind Text.int64OfInt?

def int32? (d : Document) : Option Int32 := d.integer?.bind Text.int32OfInt?

def uint64? (d : Document) : Option UInt64 := d.integer?.bind Text.uint64OfInt?

/-- Reads a double; a whole number of sixty-four bits stands for the nearest one. -/
def real? : Document → Option Float
  | .real x => some x
  | .integer n => if fitsWord n then some (Number.nearestFloat (n < 0) n.natAbs 0) else none
  | .plain s => realWord? s
  | _ => none

/-- The items of a list. An empty plain scalar is an empty list. -/
def items? : Document → Option (List Document)
  | .list items => some items
  | .sequence items => some items
  | .plain s => if s == "" then some [] else none
  | _ => none

def listOf? {α : Type} (read? : Document → Option α) (d : Document) : Option (List α) :=
  d.items?.bind fun items => items.mapM read?

abbrev Fields := List (String × Document)

/-- The fields of a record. An empty plain scalar is an empty record. -/
def fields? : Document → Option Fields
  | .record fields => some fields
  | .plain s => if s == "" then some [] else none
  | _ => none

/-- The fields of a list that stands for a record: its items are the values of the
fields with those names, in order, and only so many of them have to be there. -/
def positional? (names : List String) (least : Nat) (items : List Document) : Option Fields :=
  if least ≤ items.length && items.length ≤ names.length then some (names.zip items) else none

namespace Fields

/-- Whether no field of those names is given twice. Of others no notice is taken. -/
def givenOnce (names : List String) (fields : Fields) : Bool :=
  names.all fun name => (fields.filter fun f => f.1 == name).length ≤ 1

end Fields

/-- The fields of a structure with fields of those names, from a record or from a list
that stands for one; in a list only so many of them have to be there. -/
def structure? (names : List String) (least : Nat) : Document → Option Fields
  | .list items => positional? names least items
  | d => d.fields?.filter (Fields.givenOnce names)

namespace Fields

/-- Reads a field that has to be there. -/
def required {α : Type} (fields : Fields) (name : String) (read? : Document → Option α) :
    Option α := (fields.lookup name).bind read?

/-- Reads a field that may be left out. -/
def orElse {α : Type} (fields : Fields) (name : String) (default : α)
    (read? : Document → Option α) : Option α :=
  match fields.lookup name with
  | none => some default
  | some d => read? d

/-- Reads a field that may be left out or null. -/
def optional {α : Type} (fields : Fields) (name : String) (read? : Document → Option α) :
    Option (Option α) :=
  match fields.lookup name with
  | none => some none
  | some d => if d.isNull then some none else (read? d).map some

end Fields

/-! ### Writing -/

/-- A double. One that is no real number is null. -/
def ofFloat (x : Float) : Document := if Number.isFinite x then .real x else .null

/-- A value that may be missing; null if it is. -/
def ofOption {α : Type} (write : α → Document) : Option α → Document
  | none => .null
  | some a => write a

/-- A list, each item by the same rule. -/
def ofList {α : Type} (write : α → Document) (xs : List α) : Document := .list (xs.map write)

def field (name : String) (d : Document) : Fields := [(name, d)]

/-- A field that is left out when there is no value. -/
def fieldIfSome {α : Type} (name : String) (write : α → Document) : Option α → Fields
  | none => []
  | some a => [(name, write a)]

/-- A list field that is left out when it is empty. -/
def fieldIfAny {α : Type} (name : String) (write : α → Document) (xs : List α) : Fields :=
  if xs.isEmpty then [] else [(name, ofList write xs)]

end Document
end Observatory
