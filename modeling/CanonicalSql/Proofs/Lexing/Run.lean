import CanonicalSql.Proofs.Lexing.Text

/-! The lexer piece by piece.  `Lexer.Passes` says which tokens the lexer finds on its way from one
place of a text to another; the tokens of a text are those found on the way to its end, and a lexical
error is the first fault on that way. -/

namespace CanonicalSql

namespace Lexeme

/-- The ways in which the piece at the front of a text is read. -/
inductive Front : List Char → Lexeme → Prop
  | finish : Front [] ⟨.finish, [], []⟩
  | line (cs : List Char) : Front ('-' :: '-' :: cs) (lineComment cs)
  | block (cs : List Char) : Front ('/' :: '*' :: cs) (blockComment cs)
  | blank {c : Char} (cs : List Char) : isBlank c = true → Front (c :: cs) ⟨.layout, [c], cs⟩
  | string (cs : List Char) : Front ('\'' :: cs) (string cs)
  | quotedName {quote : Char} (cs : List Char) :
      quote = '"' ∨ quote = '\x60' → Front (quote :: cs) (quotedName quote cs)
  | number {cs : List Char} : Number.startsAt cs = true → Front cs (number cs)
  | word {c : Char} (cs : List Char) : isNameStart c = true → Front (c :: cs) (word (c :: cs))
  | question (cs : List Char) : Front ('?' :: cs) (question cs)
  | colonParameter (cs : List Char) : Front (':' :: cs) (namedParameter ':' .colonParam cs)
  | dollarParameter (cs : List Char) : Front ('$' :: cs) (namedParameter '$' .dollarParam cs)
  | symbol {c : Char} (cs : List Char) : Front (c :: cs) (symbol c cs)

/-- The piece at the front of a text is read in one of these ways. -/
theorem front (cs : List Char) : Front cs (scan cs) := by
  unfold scan
  split
  · exact .finish
  · exact .line _
  · exact .block _
  · next c cs _ _ =>
    split
    · next h => exact .blank cs h
    split
    · next h => exact h ▸ .string cs
    split
    · next h => exact .quotedName cs (by simpa using h)
    split
    · next h => exact .number h
    split
    · next h => exact .word cs h
    split
    · next h => exact h ▸ .question cs
    split
    · next h => exact h ▸ .colonParameter cs
    split
    · next h => exact h ▸ .dollarParameter cs
    · exact .symbol cs

variable {cs : List Char} {kind : Token.Kind}

/-- No piece of a text is a mark of the end, and only a text without characters has no piece. -/
theorem content_front (cs : List Char) :
    (scan cs).content ≠ .token .eof ∧ ((scan cs).content = .finish → cs = []) := by
  have read := front cs
  generalize scan cs = piece at read
  cases read with
  | finish | line | blank | number => simp [lineComment, number]
  | block | string | quotedName | symbol =>
    simp only [blockComment, string, quotedName, symbol]
    split <;> simp [unexpected]
  | word c cs =>
    simp only [word, wordKind]
    split <;> simp
  | question =>
    simp only [question, questionContent]
    repeat' split
    all_goals simp
  | colonParameter | dollarParameter =>
    simp only [namedParameter]
    split <;> simp [unexpected]

theorem kind_ne_eof (h : (scan cs).content = .token kind) : kind ≠ .eof := by
  rintro rfl
  exact (content_front cs).1 h

end Lexeme

namespace Lexer

variable {lexer lexer' lexer'' : Lexer} {ts us : List Token} {kind : Token.Kind}

/-- The lexer behind the piece that it stands in front of. -/
def step (lexer : Lexer) : Lexer := lexer.behind (Lexeme.scan lexer.rest)

/-- The token of the kind `kind` that the lexer stands in front of. -/
def tokenHere (lexer : Lexer) (kind : Token.Kind) : Token :=
  ⟨kind, String.ofList (Lexeme.scan lexer.rest).text, lexer.position⟩

/-- Whether the lexer passes from the one place to the other over pieces without faults, and finds the
tokens on its way. -/
inductive Passes : Lexer → List Token → Lexer → Prop
  | here {lexer : Lexer} : Passes lexer [] lexer
  | layout {lexer lexer' : Lexer} {ts : List Token} :
      (Lexeme.scan lexer.rest).content = .layout → Passes lexer.step ts lexer' →
      Passes lexer ts lexer'
  | token {lexer lexer' : Lexer} {kind : Token.Kind} {ts : List Token} :
      (Lexeme.scan lexer.rest).content = .token kind → Passes lexer.step ts lexer' →
      Passes lexer (lexer.tokenHere kind :: ts) lexer'

theorem Passes.trans (h : Passes lexer ts lexer') (h' : Passes lexer' us lexer'') :
    Passes lexer (ts ++ us) lexer'' := by
  induction h with
  | here => exact h'
  | layout read _ ih => exact .layout read (ih h')
  | token read _ ih => exact .token read (ih h')

/-! ### Fuel -/

/-- The first token is found within any number of pieces that the text can have. -/
theorem nextWithin_eq {pieces pieces' : Nat} (enough : lexer.rest.length < pieces)
    (enough' : lexer.rest.length < pieces') : nextWithin pieces lexer = nextWithin pieces' lexer := by
  induction pieces generalizing lexer pieces' with
  | zero => exact absurd enough (Nat.not_lt_zero _)
  | succ pieces ih =>
    obtain ⟨pieces', rfl⟩ : ∃ n, pieces' = n + 1 := ⟨pieces' - 1, by omega⟩
    simp only [nextWithin]
    split
    · next layout =>
      have shorter : lexer.step.rest.length < lexer.rest.length := rest_lt (by rw [layout]; rfl)
      exact ih (show lexer.step.rest.length < pieces by omega)
        (show lexer.step.rest.length < pieces' by omega)
    · rfl
    · rfl
    · rfl

/-- All tokens are found within any number of tokens that the text can have. -/
theorem tokensWithin_eq {count count' : Nat} (enough : lexer.rest.length < count)
    (enough' : lexer.rest.length < count') :
    tokensWithin count lexer = tokensWithin count' lexer := by
  induction count generalizing lexer count' with
  | zero => exact absurd enough (Nat.not_lt_zero _)
  | succ count ih =>
    obtain ⟨count', rfl⟩ : ∃ n, count' = n + 1 := ⟨count' - 1, by omega⟩
    rw [tokensWithin_succ, tokensWithin_succ, nextWithin_eq enough enough']
    cases found : nextWithin (count' + 1) lexer with
    | mk result behind =>
      cases result with
      | error e => rfl
      | ok token =>
        by_cases mark : token.kind = .eof
        · rw [continued, continued, if_pos mark, if_pos mark]
        · have shorter := rest_of_nextWithin found mark
          rw [continued, continued, if_neg mark, if_neg mark,
            ih (by omega) (show behind.rest.length < count' by omega)]

/-! ### One piece -/

theorem tokens_eq_continued (lexer : Lexer) :
    lexer.tokens = continued lexer.rest.length (nextWithin (lexer.rest.length + 1) lexer) := rfl

/-- Layout makes no difference to the tokens. -/
theorem tokens_of_layout (h : (Lexeme.scan lexer.rest).content = .layout) :
    lexer.tokens = lexer.step.tokens := by
  have inside : lexer.step.rest.length < lexer.rest.length := rest_lt (by rw [h]; rfl)
  have first : nextWithin (lexer.rest.length + 1) lexer =
      nextWithin lexer.rest.length lexer.step := by
    simp only [nextWithin, h]
    rfl
  obtain ⟨count, hc⟩ : ∃ n, lexer.rest.length = n + 1 := ⟨lexer.rest.length - 1, by omega⟩
  have whole : lexer.step.tokens = tokensWithin (lexer.rest.length + 1) lexer.step :=
    tokensWithin_eq (Nat.lt_succ_self _) (by omega)
  rw [whole, tokensWithin_succ, tokens_eq_continued, first,
    nextWithin_eq inside (Nat.lt_succ_of_lt inside)]

/-- A token comes before the tokens behind it. -/
theorem tokens_of_token (h : (Lexeme.scan lexer.rest).content = .token kind) (mark : kind ≠ .eof) :
    lexer.tokens = lexer.step.tokens.map (lexer.tokenHere kind :: ·) := by
  have inside : lexer.step.rest.length < lexer.rest.length := rest_lt (by rw [h]; rfl)
  have first : nextWithin (lexer.rest.length + 1) lexer =
      (.ok (lexer.tokenHere kind), lexer.step) := by
    simp only [nextWithin, h]
    rfl
  have differs : (lexer.tokenHere kind).kind ≠ .eof := mark
  rw [tokens_eq_continued, first, continued, if_neg differs,
    show lexer.step.tokens = tokensWithin lexer.rest.length lexer.step from
      tokensWithin_eq (Nat.lt_succ_self _) inside]

/-- Behind the last piece there is nothing but the mark of the end. -/
theorem tokens_of_finish (h : (Lexeme.scan lexer.rest).content = .finish) :
    lexer.tokens = .ok [.endMark lexer.position] := by
  rw [tokens_eq_continued]
  simp only [nextWithin, h]
  rfl

/-- A fault is an error at its place. -/
theorem tokens_of_fault {fault : LexFault} (h : (Lexeme.scan lexer.rest).content = .fault fault) :
    lexer.tokens = .error ⟨fault, lexer.position⟩ := by
  rw [tokens_eq_continued]
  simp only [nextWithin, h]
  rfl

/-! ### The whole way -/

/-- The tokens found on the way to a place come before those that are found from there on. -/
theorem Passes.tokens (h : Passes lexer ts lexer') :
    lexer.tokens = lexer'.tokens.map (ts ++ ·) := by
  induction h with
  | @here lexer => cases lexer.tokens <;> rfl
  | layout read _ ih => rw [tokens_of_layout read, ih]
  | @token lexer lexer' kind ts read _ ih =>
    rw [tokens_of_token read (Lexeme.kind_ne_eof read), ih]
    cases lexer'.tokens <;> rfl

/-- Every text has a way to its end or to a fault. -/
theorem exists_passes (lexer : Lexer) : ∃ ts lexer', Passes lexer ts lexer' ∧
    ((Lexeme.scan lexer'.rest).content = .finish ∨
      ∃ fault, (Lexeme.scan lexer'.rest).content = .fault fault) := by
  generalize hn : lexer.rest.length = n
  induction n using Nat.strong_induction_on generalizing lexer with
  | _ n ih =>
    subst hn
    cases read : (Lexeme.scan lexer.rest).content with
    | layout =>
      obtain ⟨ts, lexer', passes, ended⟩ := ih _ (rest_lt (by rw [read]; rfl)) lexer.step rfl
      exact ⟨ts, lexer', .layout read passes, ended⟩
    | token kind =>
      obtain ⟨ts, lexer', passes, ended⟩ := ih _ (rest_lt (by rw [read]; rfl)) lexer.step rfl
      exact ⟨_, lexer', .token read passes, ended⟩
    | fault fault => exact ⟨[], lexer, .here, .inr ⟨fault, read⟩⟩
    | finish => exact ⟨[], lexer, .here, .inl read⟩

/-- The tokens of a text are found on the way to its end. -/
theorem passes_of_tokens {tokens : List Token} (h : lexer.tokens = .ok tokens) :
    ∃ ts lexer', Passes lexer ts lexer' ∧ lexer'.rest = [] ∧
      tokens = ts ++ [.endMark lexer'.position] := by
  obtain ⟨ts, lexer', passes, ended | ⟨fault, read⟩⟩ := exists_passes lexer
  · rw [passes.tokens, tokens_of_finish ended] at h
    cases h
    exact ⟨ts, lexer', passes, (Lexeme.content_front _).2 ended, rfl⟩
  · rw [passes.tokens, tokens_of_fault read] at h
    cases h

/-- A lexical error is the fault at the end of the way. -/
theorem passes_of_error {e : LexError} (h : lexer.tokens = .error e) :
    ∃ ts lexer', Passes lexer ts lexer' ∧ (Lexeme.scan lexer'.rest).content = .fault e.fault ∧
      e.position = lexer'.position := by
  obtain ⟨ts, lexer', passes, ended | ⟨fault, read⟩⟩ := exists_passes lexer
  · rw [passes.tokens, tokens_of_finish ended] at h
    cases h
  · rw [passes.tokens, tokens_of_fault read] at h
    cases h
    exact ⟨ts, lexer', passes, read, rfl⟩

end Lexer

end CanonicalSql
