import CanonicalSql.Json.Form

/-! A library that writes trees to JSON text and reads them back.  It is not part of this development: a
`JsonLibrary` is whatever stands in its place, and `Lawful` is what is relied on. -/

namespace CanonicalSql

/-- A reader of text gives up where so many arrays and objects have been opened inside one another. -/
def Json.recursionLimit : Nat := 128

/-- What a library makes of the trees of a type.  On the way to the text, and back from it, a tree is a value. -/
structure JsonLibrary (α : Type) where
  serialize : α → Json
  deserialize : Json → Option α
  write : Json → String
  read : String → Option Json

namespace JsonLibrary

section

variable {α : Type} (lib : JsonLibrary α)

/-- The text that a tree is written to. -/
def toText (a : α) : String := lib.write (lib.serialize a)

/-- The tree that is read from a text. -/
def fromText (text : String) : Option α := do lib.deserialize (← lib.read text)

/-- Whether a library does what it says about itself. -/
structure Lawful [JsonForm α] : Prop where
  /-- A tree is written as its type is declared: a record with its fields in the order of the declaration, a
  choice with its name outside. -/
  serialize : ∀ a, lib.serialize a = JsonForm.encode a
  /-- A value that has the form of a tree is read as this tree.  Fields may stand in any order, those of absent
  parts may be missing, and those that the record does not have are passed over. -/
  deserialize : ∀ j a, j.plain = true → decode? j = some a → lib.deserialize j = some a
  /-- Values are written without blanks, and with no more escapes than needed. -/
  write : ∀ j, j.plain = true → lib.write j = j.text
  /-- What is written is read, unless it is nested too deeply. -/
  read : ∀ j, j.plain = true → lib.read j.text = if j.nesting < Json.recursionLimit then some j else none

end

end JsonLibrary

end CanonicalSql
