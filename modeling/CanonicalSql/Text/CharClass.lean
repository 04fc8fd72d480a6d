import CanonicalSql.Text.Alphabetic
import CanonicalSql.Text.Numeric

/-! The classes of characters that tokens are made of, and the folding of letter case.  Names use
the Unicode classes; blanks, digits and letter case are those of ASCII. -/

namespace CanonicalSql

/-! The ASCII classes by the numbers of their characters. -/

theorem isDigit_iff {c : Char} : c.isDigit = true ↔ 48 ≤ c.toNat ∧ c.toNat ≤ 57 := by
  refine (Bool.and_eq_true _ _).to_iff.trans (and_congr ?_ ?_) <;> exact decide_eq_true_iff

theorem isUpper_iff {c : Char} : c.isUpper = true ↔ 65 ≤ c.toNat ∧ c.toNat ≤ 90 :=
  decide_eq_true_iff

theorem isLower_iff {c : Char} : c.isLower = true ↔ 97 ≤ c.toNat ∧ c.toNat ≤ 122 := by
  refine (Bool.and_eq_true _ _).to_iff.trans (and_congr ?_ ?_) <;> exact decide_eq_true_iff

theorem isAlpha_iff {c : Char} : c.isAlpha = true ↔ c.isUpper = true ∨ c.isLower = true :=
  (Bool.or_eq_true _ _).to_iff

/-- Whether `c` separates tokens and is nothing else: space, tab, line feed, form feed or carriage
return. -/
def isBlank (c : Char) : Bool :=
  c = ' ' || c = '\t' || c = '\n' || c = '\x0c' || c = '\r'

/-- Whether `c` is a digit of a hexadecimal number. -/
def isHexDigit (c : Char) : Bool :=
  c.isDigit || ('a' ≤ c && c ≤ 'f') || ('A' ≤ c && c ≤ 'F')

/-- Whether a word can start with `c`. -/
def isNameStart (c : Char) : Bool := c = '_' || isAlphabetic c

/-- Whether a word can go on with `c`. -/
def isNamePart (c : Char) : Bool := c = '_' || isAlphabetic c || isNumeric c

/-- A character that starts a word also continues one. -/
theorem isNamePart_of_isNameStart {c : Char} (h : isNameStart c = true) : isNamePart c = true := by
  simp only [isNameStart, isNamePart, Bool.or_eq_true] at h ⊢
  exact .inl h

/-- Whether `c` starts a word of ASCII characters. -/
def isAsciiNameStart (c : Char) : Bool := c = '_' || c.isAlpha

/-- Whether `c` continues a word of ASCII characters. -/
def isAsciiNamePart (c : Char) : Bool := c = '_' || c.isAlphanum

/-- The spelling of `word` in capitals.  Only ASCII letters have capitals here. -/
def capitals (word : String) : String := String.ofList (word.toList.map Char.toUpper)

/-- The number that a run of decimal digits writes. -/
def decimalValue (digits : List Char) : Nat :=
  digits.foldl (fun n d => 10 * n + (d.toNat - '0'.toNat)) 0

end CanonicalSql
