import CanonicalSql.Json.Value
import CanonicalSql.Text.CharClass

/-! The compact text of JSON values, and its reader. -/

namespace CanonicalSql

namespace Json

/-! ### Writing -/

/-- The character `c` inside a string.  Quotes, backslashes and controls are escaped, the common
controls by a letter and the others by four hexadecimal digits. -/
def escapeChar (c : Char) : List Char :=
  if c = '"' then ['\\', '"']
  else if c = '\\' then ['\\', '\\']
  else if c = '\n' then ['\\', 'n']
  else if c = '\t' then ['\\', 't']
  else if c = '\r' then ['\\', 'r']
  else if c = '\x08' then ['\\', 'b']
  else if c = '\x0c' then ['\\', 'f']
  else if c.toNat < 32 then
    ['\\', 'u', '0', '0', Nat.digitChar (c.toNat / 16), Nat.digitChar (c.toNat % 16)]
  else [c]

/-- A string between its quotes. -/
def stringChars (value : String) : List Char :=
  '"' :: value.toList.flatMap escapeChar ++ ['"']

mutual

/-- The characters of a value, without blanks. -/
def chars : Json → List Char
  | .null => "null".toList
  | .bool true => "true".toList
  | .bool false => "false".toList
  | .natural n => Nat.toDigits 10 n
  | .number t => t.toList
  | .string value => stringChars value
  | .array items => '[' :: charsOfItems items ++ [']']
  | .object fields => '\x7b' :: charsOfFields fields ++ ['\x7d']

/-- The characters of items, with commas between them. -/
def charsOfItems : List Json → List Char
  | [] => []
  | [item] => item.chars
  | item :: items => item.chars ++ ',' :: charsOfItems items

/-- The characters of fields, with commas between them. -/
def charsOfFields : List (String × Json) → List Char
  | [] => []
  | [(key, value)] => stringChars key ++ ':' :: value.chars
  | (key, value) :: fields => stringChars key ++ ':' :: value.chars ++ ',' :: charsOfFields fields

end

/-- The compact text of a value, the fields of objects in their order. -/
def text (j : Json) : String := String.ofList j.chars

mutual

/-- The value with the fields of every object in the order of their names. -/
def sorted : Json → Json
  | .array items => .array (sortedItems items)
  | .object fields => .object ((sortedFields fields).mergeSort fun a b => decide (a.1 ≤ b.1))
  | j => j

/-- The items, with the fields of every object in them in the order of their names. -/
def sortedItems : List Json → List Json
  | [] => []
  | item :: items => item.sorted :: sortedItems items

/-- The fields, with the fields of every object in their values in the order of their names. -/
def sortedFields : List (String × Json) → List (String × Json)
  | [] => []
  | (key, value) :: fields => (key, value.sorted) :: sortedFields fields

end

/-- The compact text of a value, the fields of objects in the order of their names. -/
def render (j : Json) : String := j.sorted.text

/-! ### Reading

The reader takes the texts that are written above, without blanks and with the escapes that are needed. -/

/-- The value of a hexadecimal digit in small letters. -/
def hexValue (digit : Char) : Nat := "0123456789abcdef".toList.idxOf digit

/-- The character that stands for `c` behind a backslash. -/
def unescape (c : Char) : Char :=
  if c = 'n' then '\n'
  else if c = 't' then '\t'
  else if c = 'r' then '\r'
  else if c = 'b' then '\x08'
  else if c = 'f' then '\x0c'
  else c

/-- Reads a string up to the quote at its end, and returns what stands behind the quote as well. -/
def readBody? : List Char → Option (List Char × List Char)
  | [] => none
  | '\\' :: 'u' :: '0' :: '0' :: high :: low :: cs =>
    (readBody? cs).map fun (body, cs) => (Char.ofNat (16 * hexValue high + hexValue low) :: body, cs)
  | '\\' :: c :: cs => (readBody? cs).map fun (body, cs) => (unescape c :: body, cs)
  | c :: cs => if c = '"' then some ([], cs) else (readBody? cs).map fun (body, cs) => (c :: body, cs)

/-- Reads a string between its quotes. -/
def readString? : List Char → Option (String × List Char)
  | '"' :: cs => (readBody? cs).map fun (body, cs) => (String.ofList body, cs)
  | _ => none

/-- Reads a natural number of 64 bits. -/
def readNatural? (cs : List Char) : Option (Json × List Char) :=
  let digits := cs.takeWhile Char.isDigit
  let n := decimalValue digits
  if digits = [] ∨ UInt64.size ≤ n then none else some (.natural n, cs.dropWhile Char.isDigit)

/-- Reads a value that is neither an array nor an object. -/
def readScalar? : List Char → Option (Json × List Char)
  | 'n' :: 'u' :: 'l' :: 'l' :: cs => some (.null, cs)
  | 't' :: 'r' :: 'u' :: 'e' :: cs => some (.bool true, cs)
  | 'f' :: 'a' :: 'l' :: 's' :: 'e' :: cs => some (.bool false, cs)
  | '"' :: cs => (readString? ('"' :: cs)).map fun (value, cs) => (.string value, cs)
  | cs => readNatural? cs

mutual

/-- Reads a value in which at most `room` arrays and objects stand inside one another.  A text of fewer than
`fuel` characters holds no more values. -/
def readValue? : (fuel room : Nat) → List Char → Option (Json × List Char)
  | 0, _, _ => none
  | fuel + 1, room, '[' :: cs =>
    if room = 0 then none
    else if cs.head? = some ']' then some (.array [], cs.tail)
    else (readItems? fuel (room - 1) cs).map fun (items, cs) => (.array items, cs)
  | fuel + 1, room, '\x7b' :: cs =>
    if room = 0 then none
    else if cs.head? = some '\x7d' then some (.object [], cs.tail)
    else (readFields? fuel (room - 1) cs).map fun (fields, cs) => (.object fields, cs)
  | _ + 1, _, cs => readScalar? cs

/-- Reads the items of an array up to its end. -/
def readItems? : (fuel room : Nat) → List Char → Option (List Json × List Char)
  | 0, _, _ => none
  | fuel + 1, room, cs => do
    match ← readValue? fuel room cs with
    | (item, ']' :: cs) => return ([item], cs)
    | (item, ',' :: cs) =>
      let (items, cs) ← readItems? fuel room cs
      return (item :: items, cs)
    | _ => none

/-- Reads the fields of an object up to its end. -/
def readFields? : (fuel room : Nat) → List Char → Option (List (String × Json) × List Char)
  | 0, _, _ => none
  | fuel + 1, room, cs => do
    match ← readString? cs with
    | (key, ':' :: cs) =>
      match ← readValue? fuel room cs with
      | (value, '\x7d' :: cs) => return ([(key, value)], cs)
      | (value, ',' :: cs) =>
        let (fields, cs) ← readFields? fuel room cs
        return ((key, value) :: fields, cs)
      | _ => none
    | _ => none

end

/-- Reads the value that a whole text writes, in which at most `room` arrays and objects stand inside one
another. -/
def ofText? (room : Nat) (text : String) : Option Json :=
  match readValue? (text.length + 1) room text.toList with
  | some (j, []) => some j
  | _ => none

end Json

end CanonicalSql
