import CanonicalSql.Proofs.Lexing.Tiling

/-! Texts whose layout is another one.  The text of a token is read as the token again wherever a blank or
the end follows, and trivia are passed over wherever they stand; so tokens can be spaced out in any way. -/

namespace CanonicalSql

variable {cs rest : List Char} {kind : Token.Kind}

/-! ### Tokens in front of blanks -/

/-- What is read of a literal is read again wherever no further quote follows. -/
theorem StringLiteral.read?_read {e : Enclosed} (h : read? cs = some e) (hr : rest.head? ≠ some '\'') :
    read? (e.read ++ rest) = some ⟨e.value, e.read, rest⟩ := by
  fun_induction read? cs generalizing e with
  | case1 => cases h
  | case2 cs ih =>
    obtain ⟨e', h', rfl⟩ := Option.map_eq_some_iff.1 h
    simp [read?, ih h', Enclosed.prepend]
  | case3 cs =>
    cases h
    cases rest with
    | nil => rfl
    | cons c rest => simp_all [read?]
  | case4 => cases h
  | case5 c cs ih =>
    obtain ⟨e', h', rfl⟩ := Option.map_eq_some_iff.1 h
    simp [read?, ih h', Enclosed.prepend]
  | case6 c cs _ closing last escape ih =>
    obtain ⟨e', h', rfl⟩ := Option.map_eq_some_iff.1 h
    have other : c ≠ '\\' := by
      rintro rfl
      cases cs with
      | nil => exact last rfl rfl
      | cons d cs => exact escape d cs rfl rfl
    have single : c ≠ '\'' := closing
    simp [read?, single, other, ih h', Enclosed.prepend]

/-- What is read of a quoted name is read again wherever no further quote follows. -/
theorem QuotedName.read?_read {quote : Char} {e : Enclosed} (h : read? quote cs = some e)
    (hr : rest.head? ≠ some quote) : read? quote (e.read ++ rest) = some ⟨e.value, e.read, rest⟩ := by
  have closing : read? quote (quote :: rest) = some ⟨[], [quote], rest⟩ := by
    cases rest with
    | nil => simp [read?]
    | cons c rest => simp_all [read?]
  fun_induction read? quote cs generalizing e with
  | case1 => cases h
  | case2 | case4 =>
    cases h
    exact closing
  | case3 cs ih =>
    obtain ⟨e', h', rfl⟩ := Option.map_eq_some_iff.1 h
    simp [read?, ih h', Enclosed.prepend]
  | case5 c cs other ih =>
    obtain ⟨e', h', rfl⟩ := Option.map_eq_some_iff.1 h
    simp only [Enclosed.prepend, List.cons_append, List.nil_append]
    rw [read?.eq_def]
    simp [other, ih h', Enclosed.prepend]

/-- Whether a text is read as a token wherever a separating character or the end follows. -/
def Spelled.Stands (s : Spelled) : Prop := ∀ rest : List Char, breaks rest = true →
  Lexeme.scan (s.text.toList ++ rest) = ⟨.token s.kind, s.text.toList, rest⟩

/-- A token stands for itself: what was read behind its text has no part in it. -/
theorem stands_of_scan (h : (Lexeme.scan cs).content = .token kind) :
    Spelled.Stands ⟨kind, String.ofList (Lexeme.scan cs).text⟩ := by
  intro rest hr
  have noQuote := noQuote_of_breaks hr
  have noName := noNamePart_of_breaks hr
  have noDigit : rest.head?.all (!Char.isDigit ·) = true := of_breaks hr (by decide)
  rw [String.toList_ofList]
  have parameter : ∀ {sigil : Char} {named : String → Token.Kind} {cs : List Char},
      (sigil = ':' ∧ named = .colonParam ∨ sigil = '$' ∧ named = .dollarParam) →
      (Lexeme.namedParameter sigil named cs).content = .token kind →
      Lexeme.scan ((Lexeme.namedParameter sigil named cs).text ++ rest) =
        ⟨.token kind, (Lexeme.namedParameter sigil named cs).text, rest⟩ := by
    intro sigil named cs which h
    simp only [Lexeme.namedParameter] at h ⊢
    split at h
    · cases h
    next some =>
    cases h
    have name : IsParameterName (String.ofList (cs.takeWhile isNamePart)) :=
      ⟨by simpa using some, by simp⟩
    have read := scan_parameter which name noName
    rw [String.toList_ofList] at read
    rwa [if_neg some]
  have read := Lexeme.front cs
  generalize Lexeme.scan cs = piece at read h
  cases read with
  | finish | line | blank => cases h
  | block =>
    simp only [Lexeme.blockComment] at h
    split at h <;> cases h
  | string cs =>
    unfold Lexeme.string at h ⊢
    split at h <;> cases h
    next e found =>
    simp only [List.cons_append]
    rw [scan_cons (by simp) (by simp)]
    simp [isBlank, Lexeme.string, StringLiteral.read?_read found noQuote.1]
  | @quotedName quote cs marks =>
    unfold Lexeme.quotedName at h ⊢
    split at h <;> cases h
    next e found =>
    have single : rest.head? ≠ some quote := by
      rcases marks with rfl | rfl
      · exact noQuote.2
      · cases rest with
        | nil => simp
        | cons c rest => simpa using of_isBreak (p := (decide <| · ≠ '\x60')) hr (by decide)
    simp only [List.cons_append]
    rcases marks with rfl | rfl
    · rw [scan_cons (by simp) (by simp)]
      simp [isBlank, Lexeme.quotedName, QuotedName.read?_read found single]
    · rw [scan_cons (by simp) (by simp)]
      simp [isBlank, Lexeme.quotedName, QuotedName.read?_read found single]
  | number starts =>
    cases h
    exact scan_number (numberChars_split starts) hr
  | @word c cs start =>
    simp only [Lexeme.word] at h ⊢
    rw [← h]
    have chars : WordChars ((c :: cs).takeWhile isNamePart) :=
      ⟨c, cs.takeWhile isNamePart, by simp [isNamePart_of_isNameStart start], start,
        List.all_takeWhile⟩
    exact scan_word chars noName
  | question cs =>
    simp only [Lexeme.question] at h ⊢
    have digits : (cs.takeWhile Char.isDigit).all Char.isDigit = true := List.all_takeWhile
    have read := scan_question _ digits noDigit
    rwa [h] at read
  | colonParameter cs => exact parameter (.inl ⟨rfl, rfl⟩) h
  | dollarParameter cs => exact parameter (.inr ⟨rfl, rfl⟩) h
  | symbol cs =>
    unfold Lexeme.symbol at h ⊢
    split at h <;> cases h
    next s _ => exact scan_symbol ((Piece.symbol s).endsBefore_of_breaks hr)

/-- The tokens of a text stand for themselves. -/
theorem Lexer.Passes.stands {lexer lexer' : Lexer} {ts : List Token} (h : Passes lexer ts lexer') :
    ∀ t ∈ ts, t.spelled.Stands := by
  induction h with
  | here => simp
  | layout _ _ ih => exact ih
  | token read _ ih => exact List.forall_mem_cons.2 ⟨stands_of_scan read, ih⟩

/-! ### Trivia -/

/-- Whether `cs` is trivia: blanks, line comments up to the end of their line, and block comments that are
complete for a reader that counts the open ones in a word of 32 bits. -/
inductive Trivia : List Char → Prop
  | nil : Trivia []
  | blank {c : Char} {cs : List Char} : isBlank c = true → Trivia cs → Trivia (c :: cs)
  | line (body : List Char) {cs : List Char} :
      '\n' ∉ body → Trivia cs → Trivia ('-' :: '-' :: (body ++ '\n' :: cs))
  | block (body : List Char) {cs : List Char} :
      CommentBody 1 body → Trivia cs → Trivia ('/' :: '*' :: (body ++ cs))

theorem Lexeme.scan_blank {c : Char} (h : isBlank c = true) (cs : List Char) :
    scan (c :: cs) = ⟨.layout, [c], cs⟩ := by
  rw [scan_cons (by rintro ds ⟨⟩; cases h) (by rintro ds ⟨⟩; cases h), if_pos h]

namespace Lexer

/-- Trivia are passed over without a token, whatever stands behind them. -/
theorem passes_of_trivia (h : Trivia cs) (rest : List Char) (p : Position) :
    ∃ q, Passes ⟨cs ++ rest, p⟩ [] ⟨rest, q⟩ := by
  -- One piece of layout in front of the others.
  have piece : ∀ (text : List Char) {behind : List Char} (p : Position),
      Lexeme.scan (text ++ behind) = ⟨.layout, text, behind⟩ →
      (∀ p, ∃ q, Passes ⟨behind, p⟩ [] ⟨rest, q⟩) →
      ∃ q, Passes ⟨text ++ behind, p⟩ [] ⟨rest, q⟩ := by
    intro text behind p read others
    obtain ⟨q, passes⟩ := others (p.across (Lexeme.strides ⟨.layout, text, behind⟩))
    refine ⟨q, .layout (by rw [read]) ?_⟩
    simpa only [step, Lexer.behind, read] using passes
  induction h generalizing p with
  | nil => exact ⟨p, .here⟩
  | @blank c cs blank _ ih => exact piece [c] p (Lexeme.scan_blank blank _) ih
  | @line body cs inside _ ih =>
    have all : body.all (· != '\n') = true := by
      simpa using fun c hc (feed : c = '\n') => inside (feed ▸ hc)
    have stops : ('\n' :: (cs ++ rest)).head?.all (!(· != '\n') ·) = true := rfl
    have comment : ∃ q, Passes ⟨'-' :: '-' :: body ++ '\n' :: (cs ++ rest), p⟩ [] ⟨rest, q⟩ := by
      refine piece _ p ?_ fun p => piece ['\n'] p (Lexeme.scan_blank rfl _) ih
      simp only [List.cons_append, Lexeme.scan, Lexeme.lineComment,
        takeWhile_append_of_all all stops, dropWhile_append_of_all all stops]
    simpa using comment
  | @block body cs closed _ ih =>
    have comment := piece ('/' :: '*' :: body) p ?_ ih
    · simpa using comment
    · simp [Lexeme.scan, Lexeme.blockComment, closed.scan]

end Lexer

/-! ### Tokens with trivia between them -/

/-- Whether `cs` consists of the texts with trivia behind each of them.  Trivia behind a text start with a
blank, and none are missing but those behind the last text. -/
inductive Spaced : List String → List Char → Prop
  | nil : Spaced [] []
  | cons {text : String} {texts : List String} (gap : List Char) {cs : List Char} :
      Trivia gap → (gap ≠ [] → gap.head?.any isBlank = true) → (texts ≠ [] → gap ≠ []) →
      Spaced texts cs → Spaced (text :: texts) (text.toList ++ (gap ++ cs))

/-- Whatever stands behind a text that is spaced out separates it from what follows. -/
theorem breaks_of_gap {texts : List String} {gap : List Char}
    (blank : gap ≠ [] → gap.head?.any isBlank = true) (apart : texts ≠ [] → gap ≠ [])
    (h : Spaced texts cs) : breaks (gap ++ cs) = true := by
  cases gap with
  | nil =>
    cases h with
    | nil => rfl
    | cons => exact absurd rfl (apart (by simp))
  | cons c gap =>
    have first : isBlank c = true := by simpa using blank (by simp)
    simp only [isBlank, Bool.or_eq_true, decide_eq_true_eq] at first
    rcases first with (((rfl | rfl) | rfl) | rfl) | rfl <;> rfl

/-- Texts that stand for themselves are read as their tokens when they are spaced out. -/
theorem Lexer.passes_of_spaced {ss : List Spelled} (stands : ∀ s ∈ ss, s.Stands)
    (h : Spaced (ss.map Spelled.text) cs) (p : Position) :
    ∃ ts p', Passes ⟨cs, p⟩ ts ⟨[], p'⟩ ∧ ts.map Token.spelled = ss := by
  induction ss generalizing cs p with
  | nil =>
    cases h
    exact ⟨[], p, .here, rfl⟩
  | cons s ss ih =>
    rw [List.forall_mem_cons] at stands
    obtain _ | @⟨_, _, gap, cs, trivia, blank, apart, others⟩ := h
    have read := stands.1 _ (breaks_of_gap blank apart others)
    obtain ⟨p', behind⟩ :
        ∃ p', step ⟨s.text.toList ++ (gap ++ cs), p⟩ = ⟨gap ++ cs, p'⟩ := by
      simp only [step, Lexer.behind, read]
      exact ⟨_, rfl⟩
    obtain ⟨q, between⟩ := passes_of_trivia trivia cs p'
    obtain ⟨ts, q', passes, spelled⟩ := ih stands.2 others q
    have first : Passes ⟨s.text.toList ++ (gap ++ cs), p⟩
        [tokenHere ⟨s.text.toList ++ (gap ++ cs), p⟩ s.kind] ⟨cs, q⟩ :=
      .token (by rw [read]) (behind ▸ between)
    refine ⟨_, q', first.trans passes, ?_⟩
    simp [spelled, tokenHere, Token.spelled, read]

/-- Texts that stand for themselves are read as their tokens, whatever trivia stand in front of them and
between them. -/
theorem tokenize_of_spaced {ss : List Spelled} {gap : List Char} (stands : ∀ s ∈ ss, s.Stands)
    (front : Trivia gap) (h : Spaced (ss.map Spelled.text) cs) :
    ∃ ts p, tokenize (String.ofList (gap ++ cs)) = .ok (ts ++ [.endMark p]) ∧
      ts.map Token.spelled = ss := by
  obtain ⟨q, first⟩ := Lexer.passes_of_trivia front cs .start
  obtain ⟨ts, p, passes, spelled⟩ := Lexer.passes_of_spaced stands h q
  have whole := first.trans passes
  refine ⟨ts, p, ?_, spelled⟩
  have text : Lexer.ofText (String.ofList (gap ++ cs)) = ⟨gap ++ cs, .start⟩ := by
    rw [Lexer.ofText, String.toList_ofList]
  rw [tokenize, text, whole.tokens, Lexer.tokens_of_finish (show (Lexeme.scan []).content = _ from rfl)]
  rfl

end CanonicalSql
