import CanonicalSql.Json.Text
import CanonicalSql.Proofs.Lexing.Piece
import Mathlib.Tactic.SplitIfs

/-! The text of a JSON value is read back.  A reader stops where the value at the front of a text ends, and
it needs as much room as the value has arrays and objects inside one another. -/

namespace CanonicalSql

namespace Json

variable {rest : List Char}

/-! ### Strings -/

theorem readBody?_escapeChar (c : Char) (cs : List Char) :
    readBody? (escapeChar c ++ cs) = (readBody? cs).map fun (body, cs) => (c :: body, cs) := by
  unfold escapeChar
  split_ifs with h1 h2 h3 h4 h5 h6 h7 control
  · subst h1; rfl
  · subst h2; rfl
  · subst h3; rfl
  · subst h4; rfl
  · subst h5; rfl
  · subst h6; rfl
  · subst h7; rfl
  · have values : ∀ n < 32,
        16 * hexValue (Nat.digitChar (n / 16)) + hexValue (Nat.digitChar (n % 16)) = n := by decide
    simp only [List.cons_append, List.nil_append, readBody?, values _ control, Char.ofNat_toNat]
  · simp only [List.cons_append, List.nil_append]
    rw [readBody?.eq_def]
    split <;> simp_all

/-- A string is read up to its quote. -/
theorem readString?_stringChars (value : String) (rest : List Char) :
    readString? (stringChars value ++ rest) = some (value, rest) := by
  have body : ∀ cs : List Char, readBody? (cs.flatMap escapeChar ++ '"' :: rest) = some (cs, rest) := by
    intro cs
    induction cs with
    | nil => rfl
    | cons c cs ih => rw [List.flatMap_cons, List.append_assoc, readBody?_escapeChar, ih, Option.map_some]
  simp [stringChars, readString?, body]

/-! ### Values -/

/-- Whether a value can end in front of a text: at its end, or where an item, an array or an object ends. -/
def Ends (rest : List Char) : Prop := rest.head?.all [',', ']', '\x7d'].contains = true

theorem noDigit_of_ends (h : Ends rest) : rest.head?.all (!Char.isDigit ·) = true := by
  cases rest with
  | nil => rfl
  | cons c rest =>
    have mark : c = ',' ∨ c = ']' ∨ c = '\x7d' := by simpa [Ends] using h
    rcases mark with rfl | rfl | rfl <;> rfl

/-- Numbers end in front of a text that does not go on with a digit. -/
theorem readNatural?_toDigits {n : Nat} (fits : n < UInt64.size) (h : Ends rest) :
    readNatural? (Nat.toDigits 10 n ++ rest) = some (.natural n, rest) := by
  have digits : (Nat.toDigits 10 n).all Char.isDigit = true :=
    List.all_eq_true.2 fun c hc => Nat.isDigit_of_mem_toDigits (by omega) (by omega) hc
  have stops := noDigit_of_ends h
  simp [readNatural?, takeWhile_append_of_all digits stops, dropWhile_append_of_all digits stops,
    Nat.toDigits_ne_nil, decimalValue_toDigits, fits]

/-- The digits of a number start no other value. -/
theorem readScalar?_digit {c : Char} (digit : c.isDigit = true) (cs : List Char) :
    readScalar? (c :: cs) = readNatural? (c :: cs) := by
  unfold readScalar?
  split <;> simp_all

/-- Without a bracket at its front, a text starts with a value that is neither an array nor an object. -/
theorem readValue?_scalar {c : Char} (array : c ≠ '[') (object : c ≠ '\x7b') (fuel room : Nat)
    (cs : List Char) : readValue? (fuel + 1) room (c :: cs) = readScalar? (c :: cs) := by
  rw [readValue?.eq_def]
  split <;> simp_all

/-- A number starts with a digit. -/
theorem toDigits_eq_cons (n : Nat) : ∃ c cs, Nat.toDigits 10 n = c :: cs ∧ c.isDigit = true := by
  obtain ⟨c, cs, digits⟩ := List.exists_cons_of_ne_nil (Nat.toDigits_ne_nil (b := 10) (n := n))
  have decimal : c.isDigit :=
    Nat.isDigit_of_mem_toDigits (b := 10) (n := n) (by omega) (by omega) (by simp [digits])
  exact ⟨c, cs, digits, decimal⟩

theorem readValue?_natural {n : Nat} (fits : n < UInt64.size) (ends : Ends rest) (fuel room : Nat) :
    readValue? (fuel + 1) room (Nat.toDigits 10 n ++ rest) = some (.natural n, rest) := by
  have read := readNatural?_toDigits fits ends
  obtain ⟨c, cs, digits, digit⟩ := toDigits_eq_cons n
  have array : c ≠ '[' := by rintro rfl; cases digit
  have object : c ≠ '\x7b' := by rintro rfl; cases digit
  rw [digits] at read ⊢
  exact (readValue?_scalar array object fuel room _).trans ((readScalar?_digit digit _).trans read)

theorem readValue?_string (value : String) (fuel room : Nat) (rest : List Char) :
    readValue? (fuel + 1) room (stringChars value ++ rest) = some (.string value, rest) := by
  have quote : stringChars value ++ rest = '"' :: (value.toList.flatMap escapeChar ++ '"' :: rest) := by
    simp [stringChars]
  rw [quote, readValue?_scalar (by decide) (by decide), readScalar?, ← quote, readString?_stringChars]
  rfl

/-- No item starts like the end of the array. -/
theorem head_chars {j : Json} (h : j.plain = true) : ∃ c cs, j.chars = c :: cs ∧ c ≠ ']' := by
  cases j with
  | null | array | object => exact ⟨_, _, rfl, by decide⟩
  | bool value => cases value <;> exact ⟨_, _, rfl, by decide⟩
  | string value => exact ⟨_, _, rfl, by decide⟩
  | number => simp [plain] at h
  | natural n =>
    obtain ⟨c, cs, digits, digit⟩ := toDigits_eq_cons n
    refine ⟨c, cs, digits, ?_⟩
    rintro rfl
    cases digit

theorem head_charsOfItems {items : List Json} (h : plainItems items = true) (some : items ≠ []) :
    ∃ c cs, charsOfItems items = c :: cs ∧ c ≠ ']' := by
  obtain ⟨item, others, rfl⟩ := List.exists_cons_of_ne_nil some
  rw [plainItems, Bool.and_eq_true] at h
  obtain ⟨c, cs, front, other⟩ := head_chars h.1
  cases others <;> simp [charsOfItems, front, other]

theorem head_charsOfFields {fields : List (String × Json)} (some : fields ≠ []) :
    ∃ cs, charsOfFields fields = '"' :: cs := by
  obtain ⟨⟨key, value⟩, others, rfl⟩ := List.exists_cons_of_ne_nil some
  cases others <;> simp [charsOfFields, stringChars]

theorem chars_array_append (items : List Json) (rest : List Char) :
    (array items).chars ++ rest = '[' :: (charsOfItems items ++ ']' :: rest) := by
  simp [chars]

theorem chars_object_append (fields : List (String × Json)) (rest : List Char) :
    (object fields).chars ++ rest = '\x7b' :: (charsOfFields fields ++ '\x7d' :: rest) := by
  simp [chars]

mutual

/-- A value is read in front of a text before which values end, if there is room for what stands inside one
another in it. -/
theorem readValue?_chars : (j : Json) → j.plain = true → ∀ (fuel room : Nat) (rest : List Char),
    Ends rest → j.chars.length < fuel →
    readValue? fuel room (j.chars ++ rest) = if j.nesting ≤ room then some (j, rest) else none
  | .null, _, fuel + 1, room, rest, _, _ => by
    simp [chars, readValue?, readScalar?, nesting]
  | .bool value, _, fuel + 1, room, rest, _, _ => by
    cases value <;> simp [chars, readValue?, readScalar?, nesting]
  | .natural n, h, fuel + 1, room, rest, ends, _ => by
    have fits : n < UInt64.size := by simpa [plain] using h
    simp [chars, readValue?_natural fits ends, nesting]
  | .number t, h, _, _, _, _, _ => by simp [plain] at h
  | .string value, _, fuel + 1, room, rest, _, _ => by simp [chars, readValue?_string, nesting]
  | .array items, h, fuel + 1, 0, rest, _, _ => by simp [chars, readValue?, nesting]
  | .array [], _, fuel + 1, room + 1, rest, _, _ => by
    simp [chars, charsOfItems, readValue?, nesting, nestingOfItems]
  | .array (item :: others), h, fuel + 1, room + 1, rest, _, enough => by
    have items : plainItems (item :: others) = true := by simpa [plain] using h
    have read := readItems?_chars (item :: others) (by simp) items fuel room rest
      (by simpa [chars] using enough)
    obtain ⟨c, cs, front, other⟩ := head_charsOfItems items (by simp)
    rw [chars_array_append, readValue?, Nat.add_sub_cancel, read, front]
    by_cases fits : nestingOfItems (item :: others) ≤ room <;> simp [other, nesting, fits]
  | .object fields, h, fuel + 1, 0, rest, _, _ => by simp [chars, readValue?, nesting]
  | .object [], _, fuel + 1, room + 1, rest, _, _ => by
    simp [chars, charsOfFields, readValue?, nesting, nestingOfFields]
  | .object (field :: others), h, fuel + 1, room + 1, rest, _, enough => by
    rw [plain, Bool.and_eq_true] at h
    have read := readFields?_chars (field :: others) (by simp) h.2 fuel room rest
      (by simpa [chars] using enough)
    obtain ⟨cs, front⟩ := head_charsOfFields (List.cons_ne_nil field others)
    rw [chars_object_append, readValue?, Nat.add_sub_cancel, read, front]
    by_cases fits : nestingOfFields (field :: others) ≤ room <;> simp [nesting, fits]

/-- Items up to the end of their array. -/
theorem readItems?_chars : (items : List Json) → items ≠ [] → plainItems items = true →
    ∀ (fuel room : Nat) (rest : List Char), (charsOfItems items).length + 1 < fuel →
    readItems? fuel room (charsOfItems items ++ ']' :: rest) =
      if nestingOfItems items ≤ room then some (items, rest) else none
  | [], absent, _, _, _, _, _ => absurd rfl absent
  | [item], _, h, fuel + 1, room, rest, enough => by
    have plain : item.plain = true := by simpa [plainItems] using h
    have here := readValue?_chars item plain fuel room (']' :: rest) rfl
      (by simp only [charsOfItems] at enough; omega)
    by_cases fits : item.nesting ≤ room <;>
      simp [charsOfItems, readItems?, here, nestingOfItems, fits]
  | item :: other :: others, _, h, fuel + 1, room, rest, enough => by
    rw [plainItems, Bool.and_eq_true] at h
    simp only [charsOfItems, List.length_append, List.length_cons] at enough
    have here := readValue?_chars item h.1 fuel room
      (',' :: (charsOfItems (other :: others) ++ ']' :: rest)) rfl (by omega)
    have behind := readItems?_chars (other :: others) (by simp) h.2 fuel room rest (by omega)
    have text : charsOfItems (item :: other :: others) ++ ']' :: rest =
        item.chars ++ ',' :: (charsOfItems (other :: others) ++ ']' :: rest) := by simp [charsOfItems]
    rw [text, readItems?, here, nestingOfItems]
    simp only [Nat.max_le]
    by_cases fits : item.nesting ≤ room
    · by_cases fit : nestingOfItems (other :: others) ≤ room <;> simp [behind, fits, fit]
    · simp [fits]

/-- Fields up to the end of their object. -/
theorem readFields?_chars : (fields : List (String × Json)) → fields ≠ [] → plainFields fields = true →
    ∀ (fuel room : Nat) (rest : List Char), (charsOfFields fields).length + 1 < fuel →
    readFields? fuel room (charsOfFields fields ++ '\x7d' :: rest) =
      if nestingOfFields fields ≤ room then some (fields, rest) else none
  | [], absent, _, _, _, _, _ => absurd rfl absent
  | [(key, value)], _, h, fuel + 1, room, rest, enough => by
    have plain : value.plain = true := by simpa [plainFields] using h
    simp only [charsOfFields, List.length_append, List.length_cons] at enough
    have here := readValue?_chars value plain fuel room ('\x7d' :: rest) rfl (by omega)
    have text : charsOfFields [(key, value)] ++ '\x7d' :: rest =
        stringChars key ++ ':' :: (value.chars ++ '\x7d' :: rest) := by simp [charsOfFields]
    rw [text, readFields?, readString?_stringChars]
    by_cases fits : value.nesting ≤ room <;> simp [here, nestingOfFields, fits]
  | (key, value) :: other :: others, _, h, fuel + 1, room, rest, enough => by
    rw [plainFields, Bool.and_eq_true] at h
    simp only [charsOfFields, List.length_append, List.length_cons] at enough
    have here := readValue?_chars value h.1 fuel room
      (',' :: (charsOfFields (other :: others) ++ '\x7d' :: rest)) rfl (by omega)
    have behind := readFields?_chars (other :: others) (by simp) h.2 fuel room rest (by omega)
    have text : charsOfFields ((key, value) :: other :: others) ++ '\x7d' :: rest =
        stringChars key ++ ':' ::
          (value.chars ++ ',' :: (charsOfFields (other :: others) ++ '\x7d' :: rest)) := by
      simp [charsOfFields]
    rw [text, readFields?, readString?_stringChars, nestingOfFields]
    simp only [Nat.max_le]
    by_cases fits : value.nesting ≤ room
    · by_cases fit : nestingOfFields (other :: others) ≤ room <;> simp [here, behind, fits, fit]
    · simp [here, fits]

end

/-- A value is read back from its text just if there is room for what stands inside one another in it. -/
theorem ofText?_text {j : Json} (h : j.plain = true) (room : Nat) :
    ofText? room j.text = if j.nesting ≤ room then some j else none := by
  have read := readValue?_chars j h (j.chars.length + 1) room [] rfl (Nat.lt_succ_self _)
  rw [List.append_nil] at read
  rw [ofText?, text, String.length_ofList, String.toList_ofList, read]
  by_cases fits : j.nesting ≤ room <;> simp [fits]

/-- Different values have different texts. -/
theorem text_inj {a b : Json} (ha : a.plain = true) (hb : b.plain = true) (h : a.text = b.text) : a = b := by
  have first := ofText?_text ha (max a.nesting b.nesting)
  have second := ofText?_text hb (max a.nesting b.nesting)
  rw [if_pos (Nat.le_max_left _ _), h] at first
  rw [if_pos (Nat.le_max_right _ _)] at second
  exact Option.some.inj (first.symm.trans second)

end Json

end CanonicalSql
