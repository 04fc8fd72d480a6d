import CanonicalSql.Printed.Piece

/-! Bare words.  A run of word characters is one lexeme, whatever its letters; in capitals it is still
a word; and the printer's table of reserved words agrees with the lexer's keywords. -/

namespace CanonicalSql

/-! ### Classes of characters -/

/-- A code point of the first range is found. -/
theorem inRanges_first {low high n : Nat} {ranges : List (Nat × Nat)} (h1 : low ≤ n)
    (h2 : n ≤ high) : inRanges ((low, high) :: ranges) n = true := by
  simp [inRanges, Nat.not_lt.mpr h1, h2]

/-- A code point behind the first range is looked for in the others. -/
theorem inRanges_behind {low high n : Nat} {ranges : List (Nat × Nat)} (h1 : low ≤ n)
    (h2 : high < n) : inRanges ((low, high) :: ranges) n = inRanges ranges n := by
  simp [inRanges, Nat.not_lt.mpr h1, Nat.not_le.mpr h2]

theorem isAlphabetic_of_isAlpha {c : Char} (h : c.isAlpha = true) : isAlphabetic c = true := by
  rw [isAlpha_iff, isUpper_iff, isLower_iff] at h
  unfold isAlphabetic alphabeticRanges
  rcases h with ⟨low, high⟩ | ⟨low, high⟩
  · exact inRanges_first low high
  · rw [inRanges_behind (by omega) (by omega)]
    exact inRanges_first low high

theorem isNumeric_of_isDigit {c : Char} (h : c.isDigit = true) : isNumeric c = true := by
  rw [isDigit_iff] at h
  unfold isNumeric numericRanges
  exact inRanges_first h.1 h.2

theorem isNameStart_of_isAsciiNameStart {c : Char} (h : isAsciiNameStart c = true) :
    isNameStart c = true := by
  simp only [isAsciiNameStart, isNameStart, Bool.or_eq_true] at h ⊢
  exact h.imp_right isAlphabetic_of_isAlpha

theorem isNamePart_of_isAsciiNamePart {c : Char} (h : isAsciiNamePart c = true) :
    isNamePart c = true := by
  simp only [isAsciiNamePart, isNamePart, Char.isAlphanum, Bool.or_eq_true] at h ⊢
  rcases h with h | h | h
  · exact .inl (.inl h)
  · exact .inl (.inr (isAlphabetic_of_isAlpha h))
  · exact .inr (isNumeric_of_isDigit h)

/-- The characters before the capital letters start no word. -/
theorem le_toNat_of_isNameStart {c : Char} (h : isNameStart c = true) : 65 ≤ c.toNat := by
  rw [isNameStart, Bool.or_eq_true, decide_eq_true_eq] at h
  rcases h with rfl | h
  · decide
  · refine Nat.le_of_not_lt fun low => ?_
    rw [isAlphabetic, alphabeticRanges, inRanges_below low] at h
    cases h

theorem isDigit_eq_false_of_isNameStart {c : Char} (h : isNameStart c = true) :
    c.isDigit = false := by
  have low := le_toNat_of_isNameStart h
  rw [← Bool.not_eq_true, isDigit_iff]
  omega

/-! ### Words as lexemes -/

/-- The characters of a word: one that starts a word, and others that continue it. -/
def WordChars (cs : List Char) : Prop :=
  ∃ c ds, cs = c :: ds ∧ isNameStart c = true ∧ ds.all isNamePart = true

theorem WordChars.all {cs : List Char} (h : WordChars cs) : cs.all isNamePart = true := by
  obtain ⟨c, ds, rfl, hc, hds⟩ := h
  simp [isNamePart_of_isNameStart hc, hds]

theorem takeWhile_append_of_all {p : Char → Bool} {cs rest : List Char} (h : cs.all p = true)
    (hr : rest.head?.all (!p ·) = true) : (cs ++ rest).takeWhile p = cs := by
  rw [List.all_eq_true] at h
  rw [List.takeWhile_append_of_pos h]
  cases rest with
  | nil => simp
  | cons c rest => simp_all

theorem dropWhile_append_of_all {p : Char → Bool} {cs rest : List Char} (h : cs.all p = true)
    (hr : rest.head?.all (!p ·) = true) : (cs ++ rest).dropWhile p = rest := by
  rw [List.all_eq_true] at h
  rw [List.dropWhile_append_of_pos h]
  cases rest with
  | nil => simp
  | cons c rest => simp_all

/-- A word is read whole where no word character follows it. -/
theorem scan_word {cs rest : List Char} (h : WordChars cs)
    (hr : rest.head?.all (!isNamePart ·) = true) :
    Lexeme.scan (cs ++ rest) = ⟨.token (Lexeme.wordKind (String.ofList cs)), cs, rest⟩ := by
  have taken := takeWhile_append_of_all h.all hr
  have left := dropWhile_append_of_all h.all hr
  obtain ⟨c, ds, rfl, hc, -⟩ := h
  have low := le_toNat_of_isNameStart hc
  have digit := isDigit_eq_false_of_isNameStart hc
  have differs : ∀ d : Char, isNameStart d = false → c ≠ d := by
    rintro d hd rfl
    simp [hc] at hd
  rw [List.cons_append] at taken left ⊢
  rw [Lexeme.scan.eq_def]
  split
  · next h => cases h
  · next h => exact absurd (List.cons.inj h).1 (differs '-' (by decide))
  · next h => exact absurd (List.cons.inj h).1 (differs '/' (by decide))
  · next h =>
    cases h
    have blank : isBlank c = false := by
      simp only [isBlank, Bool.or_eq_false_iff, decide_eq_false_iff_not]
      exact ⟨⟨⟨⟨differs ' ' (by decide), differs '\t' (by decide)⟩, differs '\n' (by decide)⟩,
        differs '\x0c' (by decide)⟩, differs '\r' (by decide)⟩
    have number : Number.startsAt (c :: (ds ++ rest)) = false := by
      simp [Number.startsAt, digit, differs '.' (by decide)]
    simp [blank, differs '\'' (by decide), differs '"' (by decide), differs '\x60' (by decide),
      number, hc, Lexeme.word, taken, left]

theorem wordChars_of_isPlainName {name : String} (h : isPlainName name = true) :
    WordChars name.toList := by
  unfold isPlainName at h
  split at h
  · cases h
  · next c cs hn =>
    simp only [Bool.and_eq_true] at h
    refine ⟨c, cs, hn, isNameStart_of_isAsciiNameStart h.1.1, ?_⟩
    rw [List.all_eq_true] at h ⊢
    exact fun d hd => isNamePart_of_isAsciiNamePart (h.1.2 d hd)

theorem wordChars_of_isWord {name : String} (h : isWord name = true) : WordChars name.toList := by
  unfold isWord at h
  split at h
  · cases h
  · next c cs hn =>
    rw [Bool.and_eq_true] at h
    exact ⟨c, cs, hn, h⟩

/-! ### Letters in capitals -/

theorem toNat_toUpper_of_small {c : Char} (h1 : 97 ≤ c.toNat) (h2 : c.toNat ≤ 122) :
    c.toUpper.toNat = c.toNat - 32 := by
  have range : 'a'.val ≤ c.val ∧ c.val ≤ 'z'.val := ⟨h1, h2⟩
  have upper : c.toUpper = _ := dif_pos range
  rw [upper]
  refine (UInt32.toNat_add _ _).trans ?_
  change (c.toNat + 4294967264) % 4294967296 = c.toNat - 32
  omega

theorem toUpper_of_not_small {c : Char} (h : ¬ (97 ≤ c.toNat ∧ c.toNat ≤ 122)) :
    c.toUpper = c := by
  have range : ¬ (c.val ≥ 'a'.val ∧ c.val ≤ 'z'.val) := h
  exact dif_neg range

theorem toUpper_toUpper (c : Char) : c.toUpper.toUpper = c.toUpper := by
  by_cases h : 97 ≤ c.toNat ∧ c.toNat ≤ 122
  · have upper := toNat_toUpper_of_small h.1 h.2
    exact toUpper_of_not_small (by omega)
  · rw [toUpper_of_not_small h, toUpper_of_not_small h]

theorem capitals_capitals (word : String) : capitals (capitals word) = capitals word := by
  have twice : Char.toUpper ∘ Char.toUpper = Char.toUpper := funext toUpper_toUpper
  rw [capitals, capitals, String.toList_ofList, List.map_map, twice]

/-- Taking the capital of a character changes nothing about the words it can stand in. -/
theorem isAlphabetic_toUpper {c : Char} (h : 97 ≤ c.toNat ∧ c.toNat ≤ 122) :
    isAlphabetic c.toUpper = true := by
  have upper := toNat_toUpper_of_small h.1 h.2
  exact inRanges_first (by omega) (by omega)

theorem isNameStart_toUpper {c : Char} (h : isNameStart c = true) :
    isNameStart c.toUpper = true := by
  by_cases small : 97 ≤ c.toNat ∧ c.toNat ≤ 122
  · simp [isNameStart, isAlphabetic_toUpper small]
  · rwa [toUpper_of_not_small small]

theorem isNamePart_toUpper {c : Char} (h : isNamePart c = true) : isNamePart c.toUpper = true := by
  by_cases small : 97 ≤ c.toNat ∧ c.toNat ≤ 122
  · simp [isNamePart, isAlphabetic_toUpper small]
  · rwa [toUpper_of_not_small small]

theorem WordChars.capitals {word : String} (h : WordChars word.toList) :
    WordChars (capitals word).toList := by
  obtain ⟨c, ds, hw, hc, hds⟩ := h
  refine ⟨c.toUpper, ds.map Char.toUpper, by simp [CanonicalSql.capitals, hw],
    isNameStart_toUpper hc, ?_⟩
  rw [List.all_eq_true] at hds ⊢
  intro d hd
  obtain ⟨b, hb, rfl⟩ := List.mem_map.1 hd
  exact isNamePart_toUpper (hds b hb)

/-- A word whose capitals are ASCII letters has letters only. -/
theorem isAlpha_of_isUpper_toUpper {c : Char} (h : c.toUpper.isUpper = true) :
    c.isAlpha = true := by
  by_cases small : 97 ≤ c.toNat ∧ c.toNat ≤ 122
  · exact isAlpha_iff.2 (.inr (isLower_iff.2 small))
  · rw [toUpper_of_not_small small] at h
    exact isAlpha_iff.2 (.inl h)

/-! ### Reserved and contextual words -/

namespace Keyword

/-- What the list of all keywords passes holds of each. -/
theorem of_all {P : Keyword → Prop} (h : ∀ k ∈ all, P k) (k : Keyword) : P k := h k (mem_all k)

/-- A keyword is spelled as a word in capitals, which is its own and stands in the printer's table. -/
theorem spelling (k : Keyword) : ofWord? k.text = some k ∧
    k.text.toList.all Char.isUpper = true ∧ isWord k.text = true ∧
    bisect reservedWords k.text (reservedWords.size + 1) 0 reservedWords.size = true := by
  revert k
  refine of_all ?_
  decide +kernel

theorem ofWord?_text (k : Keyword) : ofWord? k.text = some k := k.spelling.1

theorem isUpper_text (k : Keyword) : k.text.toList.all Char.isUpper = true := k.spelling.2.1

theorem wordChars_text (k : Keyword) : WordChars k.text.toList :=
  wordChars_of_isWord k.spelling.2.2.1

/-- The printer's table holds the spelling of every keyword. -/
theorem bisect_text (k : Keyword) :
    bisect reservedWords k.text (reservedWords.size + 1) 0 reservedWords.size = true :=
  k.spelling.2.2.2

/-- A word that spells a keyword has its spelling in capitals. -/
theorem capitals_of_ofWord? {word : String} {k : Keyword} (h : ofWord? word = some k) :
    capitals word = k.text := by
  have found := List.find?_some h
  exact (beq_iff_eq.1 found).symm

/-- A word that spells a keyword has letters only, so it is read as one word. -/
theorem wordChars_of_ofWord? {word : String} {k : Keyword} (h : ofWord? word = some k) :
    WordChars word.toList := by
  have spelling : word.toList.map Char.toUpper = k.text.toList := by
    rw [← capitals_of_ofWord? h, capitals, String.toList_ofList]
  have letters : ∀ c ∈ word.toList, c.isAlpha = true := by
    intro c hc
    apply isAlpha_of_isUpper_toUpper
    exact List.all_eq_true.1 k.isUpper_text _ (spelling ▸ List.mem_map_of_mem hc)
  cases hw : word.toList with
  | nil =>
    rw [hw] at spelling
    obtain ⟨_, _, hk, -⟩ := k.wordChars_text
    rw [← spelling] at hk
    cases hk
  | cons c cs =>
    rw [hw] at letters
    have start : ∀ d ∈ c :: cs, isNameStart d = true := fun d hd => by
      simp [isNameStart, isAlphabetic_of_isAlpha (letters d hd)]
    refine ⟨c, cs, rfl, start c (by simp), ?_⟩
    rw [List.all_eq_true]
    exact fun d hd => isNamePart_of_isNameStart (start d (by simp [hd]))

theorem isReserved_of_ofWord? {word : String} {k : Keyword} (h : ofWord? word = some k) :
    isReserved word = true := by
  rw [isReserved, capitals_of_ofWord? h, bisect_text]

end Keyword

theorem ofWord?_of_isPlainName {name : String} (h : isPlainName name = true) :
    Keyword.ofWord? name = none := by
  cases hk : Keyword.ofWord? name with
  | none => rfl
  | some k =>
    have reserved := Keyword.isReserved_of_ofWord? hk
    unfold isPlainName at h
    split at h <;> simp_all

/-- A name that is printed bare is a word and no keyword. -/
theorem wordKind_of_isPlainName {name : String} (h : isPlainName name = true) :
    Lexeme.wordKind name = .ident name := by
  rw [Lexeme.wordKind, ofWord?_of_isPlainName h]

theorem wordKind_keyword (k : Keyword) : Lexeme.wordKind k.text = .keyword k := by
  rw [Lexeme.wordKind, Keyword.ofWord?_text]

namespace Word

/-- Every contextual word once. -/
def all : List Word :=
  [.ADD, .AFTER, .AST, .BEGIN, .CLUSTER, .COLUMN, .COMMIT, .DATABASE, .DATABASES, .DESCRIBE,
    .ENGINE, .EXPLAIN, .FINAL, .FIRST, .FOLLOWING, .IF, .INDEX, .KEY, .LAST, .MODIFY, .NULLS,
    .OFFSET, .OPTIMIZE, .OVER, .PARTITION, .PIPELINE, .PLAN, .PRECEDING, .RANGE, .RENAME,
    .REPLACE, .ROLLBACK, .ROW, .ROWS, .SHOW, .SYNTAX, .TABLES, .TEMPORARY, .TO, .TRANSACTION,
    .TRUNCATE, .USE, .VIEW]

theorem mem_all (w : Word) : w ∈ all := by
  cases w <;> decide

/-- What the list of all contextual words passes holds of each. -/
theorem of_all {P : Word → Prop} (h : ∀ w ∈ all, P w) (w : Word) : P w := h w (mem_all w)

/-- A contextual word is spelled as a word in capitals, which is its own and no keyword's. -/
theorem spelling (w : Word) : all.find? (·.text == w.text) = some w ∧ capitals w.text = w.text ∧
    isWord w.text = true ∧ Lexeme.wordKind w.text = .ident w.text := by
  revert w
  refine of_all ?_
  decide +kernel

theorem find?_text (w : Word) : all.find? (·.text == w.text) = some w := w.spelling.1

theorem text_injective {w w' : Word} (h : w.text = w'.text) : w = w' := by
  have found := find?_text w
  rw [h, find?_text w'] at found
  exact (Option.some.inj found).symm

theorem capitals_text (w : Word) : capitals w.text = w.text := w.spelling.2.1

theorem wordChars_text (w : Word) : WordChars w.text.toList :=
  wordChars_of_isWord w.spelling.2.2.1

theorem wordKind_text (w : Word) : Lexeme.wordKind w.text = .ident w.text := w.spelling.2.2.2

/-- A contextual word is spelled by no other contextual word. -/
theorem spelledBy_text (w w' : Word) : w.spelledBy w'.text = decide (w = w') := by
  rw [spelledBy, capitals_text]
  by_cases h : w = w'
  · simp [h]
  · have differs : w'.text ≠ w.text := fun ht => h (text_injective ht).symm
    simp [h, differs]

end Word

end CanonicalSql
