/-! JSON values: how deep they are, when they are the same, and which of them a text brings back. -/

namespace CanonicalSql

inductive Json where
  | null
  | bool (value : Bool)
  | natural (value : Nat)
  /-- A number that is not written as a natural number. -/
  | number (text : String)
  | string (value : String)
  | array (items : List Json)
  | object (fields : List (String × Json))

instance : Inhabited Json := ⟨.null⟩

/-- A word of 32 bits is written as the number that it holds. -/
instance coeWord32 : Coe UInt32 Nat := ⟨UInt32.toNat⟩

namespace Json

mutual

/-- How many values stand inside one another at most, the outermost one included. -/
def depth : Json → Nat
  | .array items => depthOfItems items + 1
  | .object fields => depthOfFields fields + 1
  | _ => 1

/-- The greatest depth of the items. -/
def depthOfItems : List Json → Nat
  | [] => 0
  | item :: items => max item.depth (depthOfItems items)

/-- The greatest depth of the fields' values. -/
def depthOfFields : List (String × Json) → Nat
  | [] => 0
  | (_, value) :: fields => max value.depth (depthOfFields fields)

end

mutual

/-- How many arrays and objects stand inside one another at most. -/
def nesting : Json → Nat
  | .array items => nestingOfItems items + 1
  | .object fields => nestingOfFields fields + 1
  | _ => 0

/-- The greatest nesting of the items. -/
def nestingOfItems : List Json → Nat
  | [] => 0
  | item :: items => max item.nesting (nestingOfItems items)

/-- The greatest nesting of the fields' values. -/
def nestingOfFields : List (String × Json) → Nat
  | [] => 0
  | (_, value) :: fields => max value.nesting (nestingOfFields fields)

end

mutual

/-- Whether the value is known from its text: the fields of every object have different names, and every
number is a natural one of 64 bits. -/
def plain : Json → Bool
  | .natural n => n < UInt64.size
  | .number _ => false
  | .array items => plainItems items
  | .object fields => decide (fields.map Prod.fst).Nodup && plainFields fields
  | _ => true

/-- Whether this is so of every item. -/
def plainItems : List Json → Bool
  | [] => true
  | item :: items => item.plain && plainItems items

/-- Whether this is so of the value of every field. -/
def plainFields : List (String × Json) → Bool
  | [] => true
  | (_, value) :: fields => value.plain && plainFields fields

end

mutual

/-- Whether two values are the same, the fields of objects in the same order. -/
def same : Json → Json → Bool
  | .null, .null => true
  | .bool a, .bool b => a == b
  | .natural a, .natural b => a == b
  | .number a, .number b => a == b
  | .string a, .string b => a == b
  | .array a, .array b => sameItems a b
  | .object a, .object b => sameFields a b
  | _, _ => false

/-- Whether two lists of items are the same. -/
def sameItems : List Json → List Json → Bool
  | [], [] => true
  | a :: as, b :: bs => a.same b && sameItems as bs
  | _, _ => false

/-- Whether two lists of fields are the same. -/
def sameFields : List (String × Json) → List (String × Json) → Bool
  | [], [] => true
  | (k, a) :: as, (l, b) :: bs => k == l && a.same b && sameFields as bs
  | _, _ => false

end

end Json

end CanonicalSql
