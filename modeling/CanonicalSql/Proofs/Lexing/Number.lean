import CanonicalSql.Proofs.Lexing.Word

/-! Numbers as lexemes.  A number ends before every character that separates the pieces of printed
text, and the text of a number that was found in a source is the same number when it stands alone. -/

namespace CanonicalSql

/-- The characters that separate the pieces of printed text. -/
def separators : List Char :=
  [' ', '\t', '\n', '\x0c', '\r', '(', ')', '[', ']', ',', ';']

/-- Whether `c` separates the pieces of printed text: no lexeme that has begun goes on with it, and
none that it is goes on behind it. -/
def isBreak (c : Char) : Bool := separators.contains c

/-- A property of all separating characters holds of each. -/
theorem of_isBreak {p : Char → Bool} {c : Char} (h : isBreak c = true)
    (hp : separators.all p = true) : p c = true :=
  List.all_eq_true.1 hp c (List.contains_iff_mem.1 h)

/-- Whether a text is at its end or starts with a separating character. -/
def breaks (cs : List Char) : Bool := cs.head?.all isBreak

/-- A property of all separating characters holds of the first character of a text that breaks. -/
theorem of_breaks {p : Char → Bool} {cs : List Char} (h : breaks cs = true)
    (hp : separators.all p = true) : cs.head?.all p = true := by
  cases cs with
  | nil => rfl
  | cons c cs => exact of_isBreak (p := p) (by simpa [breaks] using h) hp

namespace Number

theorem run_append {p : Char → Bool} (cs : List Char) {rest : List Char}
    (h : rest.head?.all (!p ·) = true) : run p (cs ++ rest) = ((run p cs).1, (run p cs).2 ++ rest) := by
  induction cs with
  | nil =>
    cases rest with
    | nil => rfl
    | cons c rest => simp_all [run]
  | cons c cs ih =>
    by_cases hc : p c = true
    · simp_all [run]
    · simp [run, hc]

theorem fraction_append (cs : List Char) {rest : List Char} (h : breaks rest = true) :
    fraction (cs ++ rest) = ((fraction cs).1, (fraction cs).2 ++ rest) := by
  cases cs with
  | nil =>
    cases rest with
    | nil => rfl
    | cons c rest =>
      have dot : decide (c ≠ '.') = true :=
        of_isBreak (p := (decide <| · ≠ '.')) (by simpa [breaks] using h) (by decide)
      simp_all [fraction]
  | cons c cs =>
    have same : dotStartsName (cs ++ rest) = dotStartsName cs := by
      cases cs with
      | nil =>
        cases rest with
        | nil => rfl
        | cons d rest =>
          exact of_isBreak (p := fun d => dotStartsName [d] == dotStartsName [])
            (by simpa [breaks] using h) (by decide) |> beq_iff_eq.1
      | cons d cs => rfl
    simp only [List.cons_append, fraction, same]
    split
    · simp only [run_append cs (of_breaks (p := (!Char.isDigit ·)) h (by decide))]
    · rfl

theorem exponent_append (cs : List Char) {rest : List Char} (h : breaks rest = true) :
    exponent (cs ++ rest) = ((exponent cs).1, (exponent cs).2 ++ rest) := by
  have digits := of_breaks (p := (!Char.isDigit ·)) h (by decide)
  cases cs with
  | nil =>
    cases rest with
    | nil => rfl
    | cons c rest =>
      have mark : (decide (c ≠ 'e') && decide (c ≠ 'E')) = true :=
        of_isBreak (p := fun c => decide (c ≠ 'e') && decide (c ≠ 'E'))
          (by simpa [breaks] using h) (by decide)
      simp_all [exponent]
  | cons c cs =>
    have signs : sign (cs ++ rest) = ((sign cs).1, (sign cs).2 ++ rest) := by
      cases cs with
      | nil =>
        cases rest with
        | nil => rfl
        | cons d rest =>
          have mark : (decide (d ≠ '+') && decide (d ≠ '-')) = true :=
            of_isBreak (p := fun d => decide (d ≠ '+') && decide (d ≠ '-'))
              (by simpa [breaks] using h) (by decide)
          simp_all [sign]
      | cons d cs =>
        simp only [List.cons_append, sign]
        split <;> rfl
    simp only [List.cons_append, exponent, signs, run_append _ digits]
    split
    · split <;> rfl
    · rfl

theorem decimal_append (cs : List Char) {rest : List Char} (h : breaks rest = true) :
    decimal (cs ++ rest) = ((decimal cs).1, (decimal cs).2 ++ rest) := by
  have digits := of_breaks (p := (!Char.isDigit ·)) h (by decide)
  simp only [decimal, run_append _ digits, fraction_append _ h, exponent_append _ h]

theorem hexadecimal?_append (cs : List Char) {rest : List Char} (h : breaks rest = true) :
    hexadecimal? (cs ++ rest) = (hexadecimal? cs).map fun s => (s.1, s.2 ++ rest) := by
  have digits := of_breaks (p := (!isHexDigit ·)) h (by decide)
  match cs, rest with
  | [], [] => rfl
  | [], [c] => rfl
  | [], c :: d :: rest =>
    have zero : decide (c ≠ '0') = true :=
      of_isBreak (p := (decide <| · ≠ '0')) (by simpa [breaks] using h) (by decide)
    simp_all [hexadecimal?]
  | [c], [] => rfl
  | [c], d :: rest =>
    have mark : (decide (d ≠ 'x') && decide (d ≠ 'X')) = true :=
      of_isBreak (p := fun d => decide (d ≠ 'x') && decide (d ≠ 'X'))
        (by simpa [breaks] using h) (by decide)
    simp_all [hexadecimal?]
  | zero :: mark :: cs, rest =>
    simp only [List.cons_append, hexadecimal?, run_append _ digits]
    split
    · split <;> rfl
    · rfl

/-- What a text that breaks follows is read as if it stood alone. -/
theorem split_append (cs : List Char) {rest : List Char} (h : breaks rest = true) :
    split (cs ++ rest) = ((split cs).1, (split cs).2 ++ rest) := by
  simp only [split, hexadecimal?_append _ h, decimal_append _ h]
  cases hexadecimal? cs <;> rfl

/-! ### The text of a number that was read -/

theorem run_of_all {p : Char → Bool} {cs rest : List Char} (h : cs.all p = true)
    (hr : rest.head?.all (!p ·) = true) : run p (cs ++ rest) = (cs, rest) := by
  rw [run, takeWhile_append_of_all h hr, dropWhile_append_of_all h hr]

theorem all_run (p : Char → Bool) (cs : List Char) : (run p cs).1.all p = true :=
  List.all_takeWhile

/-- The forms of a sign. -/
def IsSign (cs : List Char) : Prop := cs = [] ∨ cs = ['+'] ∨ cs = ['-']

/-- The forms of an exponent: a mark, a sign and digits, or nothing. -/
def IsExponent (cs : List Char) : Prop :=
  cs = [] ∨ ∃ c plusMinus ds, cs = c :: plusMinus ++ ds ∧ (c = 'e' ∨ c = 'E') ∧ IsSign plusMinus ∧
    ds ≠ [] ∧ ds.all Char.isDigit = true

/-- The forms of a fraction: a dot and digits, or nothing. -/
def IsFraction (cs : List Char) : Prop :=
  cs = [] ∨ ∃ ds, cs = '.' :: ds ∧ ds.all Char.isDigit = true

theorem isSign_sign (cs : List Char) : IsSign (sign cs).1 := by
  cases cs with
  | nil => exact .inl rfl
  | cons c cs =>
    rw [sign]
    split
    · next h =>
      rw [Bool.or_eq_true, decide_eq_true_eq, decide_eq_true_eq] at h
      rcases h with rfl | rfl
      · exact .inr (.inl rfl)
      · exact .inr (.inr rfl)
    · exact .inl rfl

/-- An exponent at the front of a text starts with the first character of the text. -/
theorem isExponent_exponent (cs : List Char) :
    IsExponent (exponent cs).1 ∧
      ((exponent cs).1 ≠ [] → ∃ c ds, cs = c :: ds ∧ c.isAlpha = true) := by
  cases cs with
  | nil => exact ⟨.inl rfl, fun h => absurd rfl h⟩
  | cons c cs =>
    rw [exponent]
    split
    · next h =>
      rw [Bool.or_eq_true, decide_eq_true_eq, decide_eq_true_eq] at h
      dsimp only
      split
      · exact ⟨.inl rfl, fun h => absurd rfl h⟩
      · next digits =>
        rw [List.isEmpty_iff] at digits
        refine ⟨.inr ⟨c, _, _, rfl, h, isSign_sign cs, digits, all_run _ _⟩, fun _ => ?_⟩
        exact ⟨c, cs, rfl, by rcases h with rfl | rfl <;> rfl⟩
    · exact ⟨.inl rfl, fun h => absurd rfl h⟩

/-- A dot without digits is a fraction only where no letter follows it. -/
theorem isFraction_fraction (cs : List Char) :
    IsFraction (fraction cs).1 ∧
      ((fraction cs).1 = ['.'] → dotStartsName (fraction cs).2 = false) := by
  cases cs with
  | nil => exact ⟨.inl rfl, fun h => by cases h⟩
  | cons c cs =>
    rw [fraction]
    split
    · next h =>
      rw [Bool.and_eq_true, Bool.not_eq_true', decide_eq_true_eq] at h
      obtain ⟨rfl, name⟩ := h
      refine ⟨.inr ⟨_, rfl, all_run _ _⟩, fun alone => ?_⟩
      have none : (run Char.isDigit cs).1 = [] := by simpa using alone
      have whole := append_run Char.isDigit cs
      rw [none, List.nil_append] at whole
      rw [← whole] at name
      exact name
    · exact ⟨.inl rfl, fun h => by cases h⟩

/-- In front of a digit a sign is read alone. -/
theorem sign_append {plusMinus cs : List Char} (h : IsSign plusMinus)
    (digit : cs.head?.any Char.isDigit = true) : sign (plusMinus ++ cs) = (plusMinus, cs) := by
  rcases h with rfl | rfl | rfl
  · cases cs with
    | nil => cases digit
    | cons d cs =>
      have differs : ¬ (d = '+' ∨ d = '-') := by
        rintro (rfl | rfl) <;> cases digit
      simp [sign, differs]
  · rfl
  · rfl

/-- Digits start with one. -/
theorem head_of_digits {ds : List Char} (some : ds ≠ []) (digits : ds.all Char.isDigit = true)
    (rest : List Char) : (ds ++ rest).head?.any Char.isDigit = true := by
  cases ds <;> simp_all

theorem exponent_of_isExponent {cs : List Char} (h : IsExponent cs) : exponent cs = (cs, []) := by
  rcases h with rfl | ⟨c, plusMinus, ds, rfl, hc, hs, hd, digits⟩
  · rfl
  · have all := @run_of_all _ _ [] digits rfl
    rw [List.append_nil] at all
    have head := head_of_digits hd digits []
    rw [List.append_nil] at head
    simp [exponent, hc, sign_append hs head, all, hd]

/-- An exponent starts with no digit and with no dot. -/
theorem head_of_isExponent {cs : List Char} (h : IsExponent cs) :
    cs.head?.all (fun c => !c.isDigit && decide (c ≠ '.')) = true := by
  rcases h with rfl | ⟨c, _, _, rfl, rfl | rfl, -⟩ <;> rfl

theorem fraction_of_isFraction {cs rest : List Char} (h : IsFraction cs) (hr : IsExponent rest)
    (alone : cs = ['.'] → rest = []) : fraction (cs ++ rest) = (cs, rest) := by
  have head := head_of_isExponent hr
  rcases h with rfl | ⟨ds, rfl, digits⟩
  · cases rest with
    | nil => rfl
    | cons c rest => simp_all [fraction]
  · have noDigit : rest.head?.all (!Char.isDigit ·) = true := by
      cases rest <;> simp_all
    have plain : dotStartsName (ds ++ rest) = false := by
      cases ds with
      | nil => simp [alone rfl, dotStartsName]
      | cons d ds => exact dotStartsName_of_isDigit (by simp_all)
    simp [fraction, plain, run_of_all digits noDigit]

/-- The parts of a decimal number at the front of a text. -/
theorem decimal_parts (cs : List Char) : ∃ whole part power,
    (decimal cs).1 = whole ++ part ++ power ∧ whole.all Char.isDigit = true ∧ IsFraction part ∧
      IsExponent power ∧ (part = ['.'] → power = []) := by
  let whole := run Char.isDigit cs
  let part := fraction whole.2
  have power := isExponent_exponent part.2
  refine ⟨whole.1, part.1, (exponent part.2).1, rfl, all_run _ _, (isFraction_fraction _).1,
    power.1, fun alone => ?_⟩
  have name := (isFraction_fraction whole.2).2 alone
  by_cases none : (exponent part.2).1 = []
  · exact none
  · obtain ⟨c, ds, hcs, alpha⟩ := power.2 none
    rw [show (fraction whole.2).2 = c :: ds from hcs] at name
    simp [dotStartsName, alpha] at name

/-- The text of a decimal number is read whole. -/
theorem decimal_decimal (cs : List Char) : decimal (decimal cs).1 = ((decimal cs).1, []) := by
  obtain ⟨whole, part, power, h, digits, hp, he, alone⟩ := decimal_parts cs
  have noDigit : (part ++ power).head?.all (!Char.isDigit ·) = true := by
    rcases hp with rfl | ⟨ds, rfl, -⟩
    · have head := head_of_isExponent he
      cases power <;> simp_all
    · rfl
  rw [h, List.append_assoc]
  simp [decimal, run_of_all digits noDigit, fraction_of_isFraction hp he alone,
    exponent_of_isExponent he]

/-- The parts of a hexadecimal number at the front of a text. -/
theorem parts_of_hexadecimal? {cs : List Char} {s : List Char × List Char}
    (h : hexadecimal? cs = some s) : ∃ mark behind, cs = '0' :: mark :: behind ∧
      (mark = 'x' ∨ mark = 'X') ∧ (run isHexDigit behind).1 ≠ [] ∧
      s = ('0' :: mark :: (run isHexDigit behind).1, (run isHexDigit behind).2) := by
  unfold hexadecimal? at h
  split at h
  · next zero mark cs =>
    split at h
    · next marks =>
      dsimp only at h
      split at h
      · cases h
      · next digits =>
        cases h
        rw [Bool.and_eq_true, Bool.or_eq_true, decide_eq_true_eq, decide_eq_true_eq,
          decide_eq_true_eq] at marks
        obtain ⟨rfl, hm⟩ := marks
        exact ⟨mark, cs, rfl, hm, by simpa using digits, rfl⟩
    · cases h
  · cases h

/-- The text of a hexadecimal number is read whole. -/
theorem hexadecimal?_of_hexadecimal? {cs : List Char} {s : List Char × List Char}
    (h : hexadecimal? cs = some s) : hexadecimal? s.1 = some (s.1, []) := by
  obtain ⟨mark, behind, -, hm, digits, rfl⟩ := parts_of_hexadecimal? h
  have all := run_of_all (all_run isHexDigit behind)
    (show ([] : List Char).head?.all (!isHexDigit ·) = true from rfl)
  rw [List.append_nil] at all
  simp [hexadecimal?, hm, all, digits]

/-- A digit, a dot, a sign and the mark of an exponent are no marks of a hexadecimal number. -/
theorem hexadecimal?_decimal (cs : List Char) : hexadecimal? (decimal cs).1 = none := by
  obtain ⟨whole, part, power, h, digits, hp, he, -⟩ := decimal_parts cs
  have marks : ∀ c ∈ (decimal cs).1, c ≠ 'x' ∧ c ≠ 'X' := by
    have digit : ∀ ds : List Char, ds.all Char.isDigit = true → ∀ c ∈ ds, c ≠ 'x' ∧ c ≠ 'X' := by
      intro ds hds c hc
      have hd := List.all_eq_true.1 hds c hc
      constructor <;> rintro rfl <;> cases hd
    intro c hc
    rw [h, List.mem_append, List.mem_append] at hc
    rcases hc with (hc | hc) | hc
    · exact digit whole digits c hc
    · rcases hp with rfl | ⟨ds, rfl, hds⟩
      · cases hc
      · rcases List.mem_cons.1 hc with rfl | hc
        · decide
        · exact digit ds hds c hc
    · rcases he with rfl | ⟨m, plusMinus, ds, rfl, hm, hs, -, hds⟩
      · cases hc
      · rcases List.mem_append.1 hc with hc | hc
        · rcases List.mem_cons.1 hc with rfl | hc
          · rcases hm with rfl | rfl <;> decide
          · rcases hs with rfl | rfl | rfl <;> simp_all
        · exact digit ds hds c hc
  unfold hexadecimal?
  split
  · next zero mark ds hd =>
    have noMark := marks mark (by simp [hd])
    simp [noMark]
  · rfl

/-- The text of a number that was read is the same number when it stands alone. -/
theorem split_split (cs : List Char) : split (split cs).1 = ((split cs).1, []) := by
  cases h : hexadecimal? cs with
  | some s => simp [split, h, hexadecimal?_of_hexadecimal? h]
  | none => simp [split, h, hexadecimal?_decimal, decimal_decimal]

/-- Where a number starts, its text starts one too. -/
theorem startsAt_split {cs : List Char} (h : startsAt cs = true) :
    startsAt (split cs).1 = true := by
  have front := append_split cs
  have behind := split_ne_nil h
  generalize hs : split cs = s at front behind
  obtain ⟨text, rest⟩ := s
  dsimp only at front behind ⊢
  match text, behind with
  | [c], _ =>
    rw [← front] at h
    by_cases hc : c.isDigit = true
    · simp [startsAt, hc]
    · obtain ⟨rfl, hr⟩ : c = '.' ∧ rest.head?.any Char.isDigit = true := by
        simpa [startsAt, hc] using h
      cases rest with
      | nil => cases hr
      | cons d rest =>
        have hd : d.isDigit = true := by simpa using hr
        have two := hs
        rw [← front] at two
        simp [split, hexadecimal?, decimal, run, fraction, dotStartsName_of_isDigit hd, hd] at two
  | c :: d :: text, _ =>
    rw [← front] at h
    simpa [startsAt] using h

end Number

/-- Whether `cs` is the text of a number. -/
def NumberChars (cs : List Char) : Prop :=
  Number.startsAt cs = true ∧ Number.split cs = (cs, [])

theorem numberChars_split {cs : List Char} (h : Number.startsAt cs = true) :
    NumberChars (Number.split cs).1 :=
  ⟨Number.startsAt_split h, Number.split_split cs⟩

/-- Where a number starts, it is the piece at the front. -/
theorem scan_of_startsAt {cs : List Char} (h : Number.startsAt cs = true) :
    Lexeme.scan cs = Lexeme.number cs := by
  cases cs with
  | nil => cases h
  | cons c cs =>
    have differs : ∀ d : Char, d.isDigit = false → d ≠ '.' → c ≠ d := by
      rintro d hd dot rfl
      simp [Number.startsAt, hd, dot] at h
    rw [Lexeme.scan.eq_def]
    split
    · next h => cases h
    · next h => exact absurd (List.cons.inj h).1 (differs '-' (by decide) (by decide))
    · next h => exact absurd (List.cons.inj h).1 (differs '/' (by decide) (by decide))
    · next h =>
      cases h
      have blank : isBlank c = false := by
        simp only [isBlank, Bool.or_eq_false_iff, decide_eq_false_iff_not]
        exact ⟨⟨⟨⟨differs ' ' (by decide) (by decide), differs '\t' (by decide) (by decide)⟩,
          differs '\n' (by decide) (by decide)⟩, differs '\x0c' (by decide) (by decide)⟩,
          differs '\r' (by decide) (by decide)⟩
      simp [blank, differs '\'' (by decide) (by decide), differs '"' (by decide) (by decide),
        differs '\x60' (by decide) (by decide), h]

/-- A number that starts a text starts a longer one too. -/
theorem Number.startsAt_append {cs : List Char} (h : startsAt cs = true) (rest : List Char) :
    startsAt (cs ++ rest) = true := by
  match cs, h with
  | [c], h =>
    simp only [startsAt, List.head?_nil, Option.any_none, Bool.and_false, Bool.or_false] at h
    simp [startsAt, h]
  | c :: d :: cs, h => simpa [startsAt] using h

/-- A number is read whole where a separating character follows it. -/
theorem scan_number {cs rest : List Char} (h : NumberChars cs) (hr : breaks rest = true) :
    Lexeme.scan (cs ++ rest) = ⟨.token (.number (String.ofList cs)), cs, rest⟩ := by
  obtain ⟨starts, whole⟩ := h
  have all := Number.split_append cs hr
  rw [whole] at all
  rw [scan_of_startsAt (Number.startsAt_append starts rest), Lexeme.number, all]
  rfl

end CanonicalSql
