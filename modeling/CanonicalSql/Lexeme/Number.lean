import CanonicalSql.Text.CharClass

/-! Numbers.  A number is hexadecimal digits behind `0x`, or decimal digits with an optional
fraction and an optional exponent.  Each reader splits a text into the part that it recognises at
the front and the rest. -/

namespace CanonicalSql

namespace Number

/-- Splits off the longest run of characters of the class `p`. -/
def run (p : Char → Bool) (cs : List Char) : List Char × List Char :=
  (cs.takeWhile p, cs.dropWhile p)

/-- Whether the dot in front of `cs` belongs to a name or a path and not to the number before it. -/
def dotStartsName (cs : List Char) : Bool :=
  match cs with
  | [] => false
  | c :: _ => c = '.' || c = '_' || c.isAlpha

/-- A dot and the digits behind it, unless the dot belongs to what follows. -/
def fraction : List Char → List Char × List Char
  | [] => ([], [])
  | c :: cs =>
    if c = '.' && !dotStartsName cs then
      let (digits, rest) := run Char.isDigit cs
      ('.' :: digits, rest)
    else ([], c :: cs)

/-- A sign, if the text starts with one. -/
def sign : List Char → List Char × List Char
  | [] => ([], [])
  | c :: cs => if c = '+' || c = '-' then ([c], cs) else ([], c :: cs)

/-- The mark of an exponent, its sign and its digits; nothing where there are no digits. -/
def exponent : List Char → List Char × List Char
  | [] => ([], [])
  | c :: cs =>
    if c = 'e' || c = 'E' then
      let (plusMinus, behind) := sign cs
      let (digits, rest) := run Char.isDigit behind
      if digits.isEmpty then ([], c :: cs) else (c :: plusMinus ++ digits, rest)
    else ([], c :: cs)

/-- Decimal digits, a fraction and an exponent, each of which may be absent. -/
def decimal (cs : List Char) : List Char × List Char :=
  let (whole, rest) := run Char.isDigit cs
  let (part, rest) := fraction rest
  let (power, rest) := exponent rest
  (whole ++ part ++ power, rest)

/-- A hexadecimal number, if the text starts with one. -/
def hexadecimal? : List Char → Option (List Char × List Char)
  | zero :: mark :: cs =>
    if zero = '0' && (mark = 'x' || mark = 'X') then
      let (digits, rest) := run isHexDigit cs
      if digits.isEmpty then none else some (zero :: mark :: digits, rest)
    else none
  | _ => none

/-- Whether a number starts at the front: a digit does, or a dot in front of a digit. -/
def startsAt : List Char → Bool
  | [] => false
  | c :: cs => c.isDigit || (c = '.' && cs.head?.any Char.isDigit)

/-- The number at the front, and the rest. -/
def split (cs : List Char) : List Char × List Char :=
  (hexadecimal? cs).getD (decimal cs)

/-! No reader loses a character or adds one. -/

theorem append_run (p : Char → Bool) (cs : List Char) : (run p cs).1 ++ (run p cs).2 = cs :=
  List.takeWhile_append_dropWhile

theorem append_fraction (cs : List Char) : (fraction cs).1 ++ (fraction cs).2 = cs := by
  cases cs with
  | nil => rfl
  | cons c cs =>
    rw [fraction]
    split
    · next h =>
      rw [Bool.and_eq_true, decide_eq_true_eq] at h
      simp [h.1, append_run]
    · rfl

theorem append_sign (cs : List Char) : (sign cs).1 ++ (sign cs).2 = cs := by
  cases cs with
  | nil => rfl
  | cons c cs =>
    rw [sign]
    split <;> rfl

theorem append_exponent (cs : List Char) : (exponent cs).1 ++ (exponent cs).2 = cs := by
  cases cs with
  | nil => rfl
  | cons c cs =>
    rw [exponent]
    split
    · dsimp only
      split
      · rfl
      · simp [append_run, append_sign]
    · rfl

theorem append_decimal (cs : List Char) : (decimal cs).1 ++ (decimal cs).2 = cs := by
  simp [decimal, append_run, append_fraction, append_exponent]

theorem append_of_hexadecimal? {cs : List Char} {split : List Char × List Char}
    (h : hexadecimal? cs = some split) : split.1 ++ split.2 = cs := by
  unfold hexadecimal? at h
  split at h
  · split at h
    · dsimp only at h
      split at h
      · cases h
      · cases h
        simp [append_run]
    · cases h
  · cases h

theorem append_split (cs : List Char) : (split cs).1 ++ (split cs).2 = cs := by
  unfold split
  cases h : hexadecimal? cs with
  | none => exact append_decimal cs
  | some s => exact append_of_hexadecimal? h

/-- A digit is no part of a name: the dot in front of it belongs to the number. -/
theorem dotStartsName_of_isDigit {c : Char} {cs : List Char} (h : c.isDigit = true) :
    dotStartsName (c :: cs) = false := by
  rw [isDigit_iff] at h
  have behind (d : Char) (hd : d.toNat < 48 ∨ 57 < d.toNat) : c ≠ d := by
    rintro rfl
    omega
  have letter : ¬ c.isAlpha = true := by
    rw [isAlpha_iff, isUpper_iff, isLower_iff]
    omega
  simp [dotStartsName, behind '.' (by decide), behind '_' (by decide), letter]

/-- Where a number starts, it has characters. -/
theorem split_ne_nil {cs : List Char} (h : startsAt cs = true) : (split cs).1 ≠ [] := by
  unfold split
  cases hex : hexadecimal? cs with
  | some s =>
    unfold hexadecimal? at hex
    split at hex
    · split at hex
      · dsimp only at hex
        split at hex
        · cases hex
        · cases hex; simp
      · cases hex
    · cases hex
  | none =>
    cases cs with
    | nil => cases h
    | cons c cs =>
      simp only [startsAt, Bool.or_eq_true, Bool.and_eq_true, decide_eq_true_eq] at h
      rcases h with h | ⟨rfl, h⟩
      · simp [decimal, run, h]
      · cases cs with
        | nil => cases h
        | cons d cs =>
          have hd : d.isDigit = true := by simpa using h
          simp [decimal, run, fraction, dotStartsName_of_isDigit hd]

end Number

end CanonicalSql
