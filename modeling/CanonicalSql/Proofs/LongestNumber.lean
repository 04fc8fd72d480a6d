import CanonicalSql.Proofs.Quoting

/-! Where numbers end.  A number is the longest text at its place that is written as one.  A dot belongs to it
unless another dot or a name follows; which characters start that name is a matter of its own, and the lexer
looks for those of ASCII only.  With the characters that start a word elsewhere the same text is the longest
one, except where the number ends with a dot and such a character follows. -/

namespace CanonicalSql

namespace Number

/-! ### What is written as a number -/

/-- Whether a dot in front of `cs` belongs to the number before it: neither another dot nor a name follows. -/
def KeepsDot (startsName : Char → Bool) (cs : List Char) : Prop :=
  ∀ c ∈ cs.head?, c ≠ '.' ∧ startsName c = false

/-- Whether `text`, in front of `rest`, is written as a number, if names start with the characters of the
class `startsName`: hexadecimal digits behind `0x`, or decimal digits, a fraction and an exponent.  A fraction
without digits in front of it has digits behind its dot. -/
inductive Written (startsName : Char → Bool) : (text rest : List Char) → Prop
  | hexadecimal {mark : Char} {digits rest : List Char} : mark = 'x' ∨ mark = 'X' → digits ≠ [] →
      digits.all isHexDigit = true → Written startsName ('0' :: mark :: digits) rest
  | decimal {whole part power rest : List Char} : whole.all Char.isDigit = true → IsFraction part →
      IsExponent power → (whole = [] → 1 < part.length) →
      (∀ digits, part = '.' :: digits → KeepsDot startsName (digits ++ power ++ rest)) →
      Written startsName (whole ++ part ++ power) rest

/-- Whether `text` is written as a number in front of `rest`, and no longer text at its place is. -/
structure Longest (startsName : Char → Bool) (text rest : List Char) : Prop where
  written : Written startsName text rest
  longest : ∀ text' rest', text' ++ rest' = text ++ rest → Written startsName text' rest' →
    text'.length ≤ text.length

theorem dotStartsName_eq_false_iff {cs : List Char} :
    dotStartsName cs = false ↔ KeepsDot isAsciiNameStart cs := by
  cases cs with
  | nil => simp [dotStartsName, KeepsDot]
  | cons c cs => simp [dotStartsName, KeepsDot, isAsciiNameStart, and_assoc]

/-! ### The readers take all they can -/

section

variable {cs rest whole part power : List Char}

theorem run_append_all {p : Char → Bool} {ds : List Char} (h : ds.all p = true) (cs : List Char) :
    run p (ds ++ cs) = (ds ++ (run p cs).1, (run p cs).2) := by
  induction ds with
  | nil => rfl
  | cons d ds ih =>
    rw [List.all_cons, Bool.and_eq_true] at h
    have more := ih h.2
    simp_all [run]

theorem run_of_head {p : Char → Bool} (h : cs.head?.all (!p ·) = true) : run p cs = ([], cs) := by
  cases cs with
  | nil => rfl
  | cons c cs => simp_all [run]

/-- Behind a mark and a sign the exponent is all digits there are, and those of the given one are among them. -/
theorem length_exponent (h : IsExponent power) (rest : List Char) :
    power.length ≤ (exponent (power ++ rest)).1.length := by
  rcases h with rfl | ⟨c, plusMinus, ds, rfl, mark, hs, some, digits⟩
  · exact Nat.zero_le _
  · have behind := sign_append hs (head_of_digits some digits rest)
    have more := run_append_all digits rest
    simp [exponent, mark, behind, more, some, Nat.add_assoc]

/-- No digit stands where the parts of a decimal number behind its first digits start. -/
theorem noDigit_of_parts (hp : IsFraction part) (he : IsExponent power) (some : part ++ power ≠ [])
    (rest : List Char) : (part ++ (power ++ rest)).head?.all (!Char.isDigit ·) = true := by
  have head := head_of_isExponent he
  rcases hp with rfl | ⟨ds, rfl, -⟩
  · cases power <;> simp_all
  · rfl

/-- A fraction and an exponent are no longer than those that are read. -/
theorem length_fraction (hp : IsFraction part) (he : IsExponent power) (rest : List Char)
    (dot : ∀ ds, part = '.' :: ds → KeepsDot isAsciiNameStart (ds ++ (power ++ rest))) :
    part.length + power.length ≤ (fraction (part ++ (power ++ rest))).1.length +
      (exponent (fraction (part ++ (power ++ rest))).2).1.length := by
  have longer := length_exponent he rest
  rcases hp with rfl | ⟨ds, rfl, digits⟩
  · rcases he with rfl | ⟨c, _, _, rfl, rfl | rfl, -⟩
    · exact Nat.zero_le _
    all_goals simpa [fraction] using longer
  · have keeps := dotStartsName_eq_false_iff.2 (dot ds rfl)
    have more := run_append_all digits (power ++ rest)
    rw [List.cons_append, fraction, keeps, more]
    by_cases none : power = []
    · simp [none]
      omega
    · have stop : run Char.isDigit (power ++ rest) = ([], power ++ rest) :=
        run_of_head (noDigit_of_parts (.inl rfl) he (by simpa using none) rest)
      simp [stop]
      omega

/-- No text that is written as a decimal number is longer than the one that is read. -/
theorem length_decimal (hw : whole.all Char.isDigit = true) (hp : IsFraction part)
    (he : IsExponent power) (rest : List Char)
    (dot : ∀ ds, part = '.' :: ds → KeepsDot isAsciiNameStart (ds ++ (power ++ rest))) :
    whole.length + (part.length + power.length) ≤
      (decimal (whole ++ (part ++ (power ++ rest)))).1.length := by
  have longer := length_fraction hp he rest dot
  rw [decimal, run_append_all hw]
  by_cases none : part ++ power = []
  · obtain ⟨rfl, rfl⟩ := List.append_eq_nil_iff.1 none
    simp
  · rw [run_of_head (noDigit_of_parts hp he none rest)]
    simp
    omega

/-- Where a hexadecimal number is read, no decimal one is longer than its first character. -/
theorem length_decimal_of_hexadecimal? {s : List Char × List Char} (h : hexadecimal? cs = some s) :
    (decimal cs).1.length ≤ s.1.length := by
  obtain ⟨mark, behind, rfl, rfl | rfl, -, rfl⟩ := parts_of_hexadecimal? h <;>
    simp [decimal, run, fraction, exponent]

/-- What is written as a hexadecimal number is read as one. -/
theorem hexadecimal?_append_all {mark : Char} {digits : List Char} (hm : mark = 'x' ∨ mark = 'X')
    (some : digits ≠ []) (hd : digits.all isHexDigit = true) (rest : List Char) :
    ∃ more rest', hexadecimal? ('0' :: mark :: (digits ++ rest)) =
      Option.some ('0' :: mark :: (digits ++ more), rest') := by
  refine ⟨(run isHexDigit rest).1, (run isHexDigit rest).2, ?_⟩
  simp [hexadecimal?, hm, run_append_all hd, some]

/-- No text that is written as a number is longer than the one that is read. -/
theorem length_split {text : List Char} (h : Written isAsciiNameStart text rest) :
    text.length ≤ (split (text ++ rest)).1.length := by
  unfold split
  cases h with
  | hexadecimal hm some digits =>
    obtain ⟨more, rest', read⟩ := hexadecimal?_append_all hm some digits rest
    rw [List.cons_append, List.cons_append, read]
    simp
  | decimal hw hp he _ dot =>
    simp only [List.append_assoc] at dot ⊢
    have longer := length_decimal hw hp he rest dot
    simp only [List.length_append]
    cases hex : hexadecimal? _ with
    | none => exact longer
    | some s => exact longer.trans (length_decimal_of_hexadecimal? hex)

/-! ### What is read is written as a number -/

theorem written_hexadecimal {startsName : Char → Bool} {s : List Char × List Char}
    (h : hexadecimal? cs = some s) : Written startsName s.1 s.2 := by
  obtain ⟨mark, behind, -, hm, digits, rfl⟩ := parts_of_hexadecimal? h
  exact .hexadecimal hm digits (all_run _ _)

/-- A dot that is read as part of a number is in front of what keeps it. -/
theorem keepsDot_fraction (cs : List Char) {ds : List Char} (h : (fraction cs).1 = '.' :: ds) :
    KeepsDot isAsciiNameStart (ds ++ (fraction cs).2) := by
  cases cs with
  | nil => cases h
  | cons c cs =>
    rw [fraction] at h ⊢
    split at h
    · next keeps =>
      rw [Bool.and_eq_true, Bool.not_eq_true'] at keeps
      obtain rfl := (List.cons.inj h).2
      rw [if_pos (by simpa using keeps)]
      dsimp only
      rw [append_run]
      exact dotStartsName_eq_false_iff.1 keeps.2
    · cases h

/-- A number that starts with its dot has digits behind it. -/
theorem length_fraction_of_startsAt (h : startsAt cs = true) (none : (run Char.isDigit cs).1 = []) :
    1 < (fraction (run Char.isDigit cs).2).1.length := by
  match cs, h with
  | c :: cs, h =>
    have digit : c.isDigit = false := by
      by_contra digit
      simp_all [run]
    rw [startsAt, digit, Bool.false_or, Bool.and_eq_true, decide_eq_true_eq] at h
    obtain ⟨rfl, next⟩ := h
    cases cs with
    | nil => cases next
    | cons d cs =>
      have next : d.isDigit = true := next
      simp [run, fraction, dotStartsName_of_isDigit next, next]

theorem written_decimal (h : startsAt cs = true) :
    Written isAsciiNameStart (decimal cs).1 (decimal cs).2 := by
  refine .decimal (all_run _ _) (isFraction_fraction _).1 (isExponent_exponent _).1
    (length_fraction_of_startsAt h) fun ds dot => ?_
  have keeps := keepsDot_fraction _ dot
  rw [List.append_assoc]
  rwa [← append_exponent (fraction _).2] at keeps

/-- What is read where a number starts is the longest text that is written as one. -/
theorem longest_split (h : startsAt cs = true) :
    Longest isAsciiNameStart (split cs).1 (split cs).2 where
  written := by
    unfold split
    cases hex : hexadecimal? cs with
    | none => exact written_decimal h
    | some s => exact written_hexadecimal hex
  longest text' rest' same written := by
    have longer := length_split written
    rwa [same, append_split] at longer

/-! ### Names of other characters -/

/-- With fewer characters that start a name, more dots belong to numbers. -/
theorem Written.mono {startsName startsName' : Char → Bool} {text : List Char}
    (less : ∀ c, startsName c = true → startsName' c = true) (h : Written startsName' text rest) :
    Written startsName text rest := by
  cases h with
  | hexadecimal hm some digits => exact .hexadecimal hm some digits
  | decimal hw hp he start dot =>
    refine .decimal hw hp he start fun ds hds c hc => ?_
    obtain ⟨other, noName⟩ := dot ds hds c hc
    exact ⟨other, Bool.eq_false_iff.2 fun name => Bool.false_ne_true (noName.symm.trans (less c name))⟩

theorem getLast?_ne_dot {p : Char → Bool} (dot : p '.' = false) {ds : List Char} (some : ds ≠ [])
    (h : ds.all p = true) (front : List Char) : (front ++ ds).getLast? ≠ Option.some '.' := by
  intro last
  rw [List.getLast?_append_of_ne_nil _ some] at last
  have inside := List.all_eq_true.1 h _ (List.mem_of_getLast? last)
  exact Bool.false_ne_true (dot.symm.trans inside)

/-- A number that ends with its dot is in front of what keeps the dot. -/
theorem Written.keepsDot {startsName : Char → Bool} {text : List Char} (h : Written startsName text rest)
    (last : text.getLast? = some '.') : KeepsDot startsName rest := by
  cases h with
  | @hexadecimal mark digits _ hm some hd =>
    exact absurd last (getLast?_ne_dot (p := isHexDigit) (by decide) some hd ['0', mark])
  | @decimal whole part power _ hw hp he start dot =>
    have noDigits : ∀ ds front, ds.all Char.isDigit = true → whole ++ part ++ power = front ++ ds → ds = [] :=
      fun ds front digits same => by
        by_contra some
        exact getLast?_ne_dot (by decide) some digits front (same ▸ last)
    have noPower : power = [] := by
      rcases he with rfl | ⟨c, plusMinus, ds, rfl, -, -, some, digits⟩
      · rfl
      · exact absurd (noDigits ds (whole ++ part ++ c :: plusMinus) digits (by simp)) some
    subst noPower
    rcases hp with rfl | ⟨ds, rfl, digits⟩
    · obtain rfl := noDigits whole [] hw (by simp)
      cases last
    · obtain rfl := noDigits ds (whole ++ ['.']) digits (by simp)
      exact dot [] rfl

/-- If names start with other characters than those of ASCII too, the text that is read is the longest one
unless it ends with a dot and one of these characters follows. -/
theorem longest_isNameStart_iff {text : List Char} (h : Longest isAsciiNameStart text rest) :
    Longest isNameStart text rest ↔
      ¬ (text.getLast? = some '.' ∧ ∃ c ∈ rest.head?, isNameStart c = true) := by
  constructor
  · rintro ⟨written, -⟩ ⟨last, c, hc, name⟩
    exact Bool.false_ne_true ((written.keepsDot last c hc).2.symm.trans name)
  intro noName
  refine ⟨?_, fun text' rest' same written => ?_⟩
  · obtain ⟨hm, some, digits⟩ | ⟨hw, hp, he, start, dot⟩ := h.written
    · exact .hexadecimal hm some digits
    refine .decimal hw hp he start fun ds hds c hc => ?_
    subst hds
    obtain ⟨other, ascii⟩ := dot ds rfl c hc
    refine ⟨other, Bool.eq_false_iff.2 fun name => ?_⟩
    -- Behind the dot there is a digit, the mark of an exponent, which starts a name of ASCII, or `rest`.
    cases ds with
    | cons d ds =>
      obtain rfl : d = c := by simpa using hc
      have digits : d.isDigit = true ∧ ds.all Char.isDigit = true := by simpa [IsFraction] using hp
      exact Bool.false_ne_true ((isDigit_eq_false_of_isNameStart name).symm.trans digits.1)
    | nil =>
      rcases he with rfl | ⟨m, _, _, rfl, mark, -⟩
      · exact noName ⟨by simp, c, by simpa using hc, name⟩
      · obtain rfl : m = c := by simpa using hc
        rcases mark with rfl | rfl <;> cases ascii
  · exact h.longest text' rest' same (written.mono fun _ => isNameStart_of_isAsciiNameStart)

end

end Number

/-! ### Number tokens -/

/-- Where the lexer finds a number token, a number starts at its front. -/
theorem Lexeme.startsAt_of_scan {cs : List Char} {t : String}
    (h : (Lexeme.scan cs).content = .token (.number t)) : Number.startsAt cs = true := by
  have read := Lexeme.front cs
  generalize Lexeme.scan cs = piece at read h
  cases read with
  | number start => exact start
  | finish | line | blank => cases h
  | block | string | quotedName | symbol =>
    simp only [Lexeme.blockComment, Lexeme.string, Lexeme.quotedName, Lexeme.symbol] at h
    split at h <;> cases h
  | word =>
    simp only [Lexeme.word, Lexeme.wordKind] at h
    split at h <;> cases h
  | question =>
    simp only [Lexeme.question, Lexeme.questionContent] at h
    repeat' split at h
    all_goals cases h
  | colonParameter | dollarParameter =>
    simp only [Lexeme.namedParameter] at h
    split at h <;> cases h

/-- The lexer finds a number where one starts. -/
theorem Lexer.reads_number {lexer : Lexer} (h : Number.startsAt lexer.rest = true) :
    lexer.Reads ⟨.number (String.ofList (Number.split lexer.rest).1),
      String.ofList (Number.split lexer.rest).1, lexer.position⟩ (Number.split lexer.rest).2 :=
  reads_of_scan lexer.position (scan_of_startsAt h)

/-- The text of a number is that number when it stands alone. -/
theorem tokenize_number {cs : List Char} (h : Number.startsAt cs = true) :
    tokenize (String.ofList (Number.split cs).1) =
      .ok [⟨.number (String.ofList (Number.split cs).1), String.ofList (Number.split cs).1, .start⟩,
        .endMark (Token.mk (.number (String.ofList (Number.split cs).1))
          (String.ofList (Number.split cs).1) .start).behind] := by
  have alone : Lexeme.scan ((Number.split cs).1 ++ []) = _ := scan_number (numberChars_split h) rfl
  rw [List.append_nil] at alone
  rw [tokenize, Lexer.ofText, String.toList_ofList]
  exact Lexer.tokens_of_scan .start alone Token.Kind.noConfusion

/-- Numbers end where they have to.  Wherever a number starts, a number token is found, and wherever a number
token is found, a number starts behind some layout.  Its text is the longest one there that is written as a
number, if names start with the characters of ASCII that start a word.  It is the longest one as well if names
start with any character that starts a word, unless it ends with a dot and such a character follows.  Alone it
is one number token with the same text. -/
theorem number_ends (lexer : Lexer) :
    (Number.startsAt lexer.rest = true → ∃ t lexer',
      lexer.next = (.ok ⟨.number t, t, lexer.position⟩, lexer')) ∧
    ∀ token lexer' t, lexer.next = (.ok token, lexer') → token.kind = .number t →
      ∃ gap, lexer.rest = gap ++ (t.toList ++ lexer'.rest) ∧
        Gap (CommentBody 1) gap (t.toList ++ lexer'.rest) ∧
        Number.startsAt (t.toList ++ lexer'.rest) = true ∧
        token = ⟨.number t, t, token.position⟩ ∧ lexer.position.Reaches gap token.position ∧
        Number.Longest isAsciiNameStart t.toList lexer'.rest ∧
        (Number.Longest isNameStart t.toList lexer'.rest ↔
          ¬ (t.toList.getLast? = some '.' ∧ ∃ c ∈ lexer'.rest.head?, isNameStart c = true)) ∧
        tokenize t = .ok [⟨.number t, t, .start⟩,
          .endMark (Token.mk (.number t) t .start).behind] := by
  refine ⟨fun start => ⟨_, _, Lexer.reads_number start⟩, fun token lexer' t next number => ?_⟩
  obtain ⟨gap, here, rest, layout, place, read, found, behind⟩ :=
    Lexer.gap_of_nextWithin next (by rw [number]; exact nofun)
  rw [number] at read found
  have start := Lexeme.startsAt_of_scan read
  have piece := scan_of_startsAt start
  have text : t = String.ofList (Number.split here.rest).1 := by
    rw [piece] at read
    cases read
    rfl
  have chars : t.toList = (Number.split here.rest).1 := by rw [text, String.toList_ofList]
  have left : lexer'.rest = (Number.split here.rest).2 := by
    rw [behind, Lexer.step, Lexer.behind, piece]
    rfl
  have all : t.toList ++ lexer'.rest = here.rest := by rw [chars, left, Number.append_split]
  have longest := Number.longest_split start
  rw [← chars, ← left] at longest
  have alone := tokenize_number start
  rw [← chars, String.ofList_toList] at alone
  have position : token.position = here.position := by rw [found, Lexer.tokenHere]
  refine ⟨gap, by rw [all, rest], by rwa [all], by rwa [all], ?_, position ▸ place, longest,
    Number.longest_isNameStart_iff longest, alone⟩
  rw [position, found, Lexer.tokenHere, piece]
  exact congrArg (Token.mk _ · _) text.symm

/-- A dot in front of a name that does not start with a character of ASCII belongs to the number before it,
though a name follows. -/
theorem number_ends_before_name :
    (Lexer.ofText "1.é").next = (.ok ⟨.number "1.", "1.", .start⟩, ⟨['é'], ⟨1, 3, 2⟩⟩) ∧
      ¬ Number.Longest isNameStart ['1', '.'] ['é'] := by
  have next : (Lexer.ofText "1.é").next =
      (.ok ⟨.number "1.", "1.", .start⟩, ⟨['é'], ⟨1, 3, 2⟩⟩) := by cbv
  obtain ⟨gap, -, -, -, -, -, -, ends, -⟩ := (number_ends _).2 _ _ _ next rfl
  refine ⟨next, fun longest => ends.1 longest ⟨by decide, 'é', rfl, ?_⟩⟩
  cbv

end CanonicalSql
