import CanonicalSql.Proofs.Lexing.Joined

/-! Texts inside others.  Where printed pieces stand in front of a text, and others behind it on a line of
their own, its tokens stand between the tokens of these pieces: they differ in nothing but their places. -/

namespace CanonicalSql

variable {ps : List Piece} {cs : List Char}

theorem Piece.endsBefore_of_isBreak {p : Piece} (h : p.isBreak = true) (rest : List Char) :
    p.endsBefore rest := by
  unfold isBreak at h
  split at h
  · trivial
  · trivial
  · next s => cases s <;> trivial
  · cases h

namespace Lexer

variable {lexer lexer' : Lexer} {ts : List Token}

/-- What is passed over depends on no place. -/
theorem Passes.elsewhere (h : Passes lexer ts lexer') (p : Position) :
    ∃ us p', Passes ⟨lexer.rest, p⟩ us ⟨lexer'.rest, p'⟩ ∧
      us.map Token.spelled = ts.map Token.spelled := by
  induction h generalizing p with
  | here => exact ⟨[], p, .here, rfl⟩
  | @layout lexer lexer' ts read _ ih =>
    obtain ⟨us, p', passes, same⟩ := ih (p.across (Lexeme.scan lexer.rest).strides)
    exact ⟨us, p', .layout read passes, same⟩
  | @token lexer lexer' kind ts read _ ih =>
    obtain ⟨us, p', passes, same⟩ := ih (p.across (Lexeme.scan lexer.rest).strides)
    refine ⟨_, p', .token read passes, ?_⟩
    rw [List.map_cons, List.map_cons, same]
    rfl

/-- A legible piece that nothing continues is passed over as the token that it stands for, if it is one. -/
theorem passes_piece {p : Piece} {rest : List Char} (legible : p.Legible) (ends : p.endsBefore rest)
    (position : Position) :
    ∃ ts position', Passes ⟨p.chars ++ rest, position⟩ ts ⟨rest, position'⟩ ∧
      ts.map Token.spelled = tokensOf [p] := by
  have read := scan_piece legible ends
  obtain ⟨position', behind⟩ :
      ∃ position', step ⟨p.chars ++ rest, position⟩ = ⟨rest, position'⟩ := by
    simp only [step, Lexer.behind, read]
    exact ⟨_, rfl⟩
  cases hk : p.kind? with
  | none =>
    refine ⟨[], position', .layout ?_ ?_, by simp [tokensOf, Piece.token?, hk]⟩
    · simp only [read, Piece.content, hk]
    · rw [behind]
      exact .here
  | some kind =>
    have content : (Lexeme.scan (mk (p.chars ++ rest) position).rest).content = .token kind := by
      simp only [read, Piece.content, hk]
    refine ⟨[_], position', .token content ?_, ?_⟩
    · rw [behind]
      exact .here
    · simp [tokensOf, Piece.token?, hk, tokenHere, Token.spelled, read]

/-- Printable pieces are passed over, whatever stands behind them that does not continue the last one. -/
theorem passes_of_printable (h : Printable ps) (rest : List Char)
    (ends : ∀ p ∈ ps.getLast?, p.endsBefore rest) (position : Position) :
    ∃ ts position', Passes ⟨ps.flatMap Piece.chars ++ rest, position⟩ ts ⟨rest, position'⟩ ∧
      ts.map Token.spelled = tokensOf ps := by
  induction ps generalizing position with
  | nil => exact ⟨[], position, .here, rfl⟩
  | cons p ps ih =>
    obtain ⟨legible, chain⟩ := h
    have others : Printable ps := ⟨fun q hq => legible q (List.mem_cons_of_mem p hq), chain.tail⟩
    have apart : p.endsBefore (ps.flatMap Piece.chars ++ rest) := by
      cases ps with
      | nil => exact ends p rfl
      | cons q ps =>
        rw [List.flatMap_cons, List.append_assoc]
        exact Piece.endsBefore_of_meets (List.isChain_cons_cons.1 chain).1 (legible q (by simp)) _
    have last : ∀ q ∈ ps.getLast?, q.endsBefore rest := by
      intro q hq
      refine ends q ?_
      cases ps with
      | nil => cases hq
      | cons r ps => simpa using hq
    obtain ⟨ts, between, first, spelled⟩ := passes_piece (legible p (by simp)) apart position
    obtain ⟨us, position', passes, spelled'⟩ := ih others last between
    refine ⟨ts ++ us, position', ?_, ?_⟩
    · rw [List.flatMap_cons, List.append_assoc]
      exact first.trans passes
    · rw [List.map_append, spelled, spelled']
      exact (List.filterMap_append (l := [p])).symm

end Lexer

/-! ### Whole texts -/

variable {text : String} {ts : List Token} {mark : Token} {front back : List Piece}

/-- The tokens of a text with printed pieces in front of it. -/
theorem tokenize_behind (h : tokenize text = .ok (ts ++ [mark])) (printable : Printable front)
    (separate : ∀ p ∈ front.getLast?, p.isBreak = true) :
    ∃ us, tokenize (Piece.text front ++ text) = .ok us ∧
      us.map Token.spelled = tokensOf front ++ ts.map Token.spelled ++ [.endMark] := by
  obtain ⟨ts', lexer, passes, ended, all⟩ := Lexer.passes_of_tokens h
  obtain ⟨rfl, -⟩ := List.append_inj' all rfl
  obtain ⟨us, start, first, spelled⟩ := Lexer.passes_of_printable printable text.toList
    (fun p hp => Piece.endsBefore_of_isBreak (separate p hp) _) .start
  obtain ⟨vs, p, behind, same⟩ := passes.elsewhere start
  have finish : (Lexeme.scan (Lexer.mk lexer.rest p).rest).content = .finish := by rw [ended]; rfl
  have whole := (first.trans behind).tokens
  rw [Lexer.tokens_of_finish finish] at whole
  refine ⟨us ++ vs ++ [.endMark p], ?_, ?_⟩
  · rw [tokenize, Lexer.ofText, String.toList_append, Piece.text, String.toList_ofList]
    exact whole
  · simp only [List.map_append, spelled, same]
    rfl

/-- The tokens of a text with printed pieces in front of it and others behind it, which stand on a line of
their own. -/
theorem tokenize_between (h : tokenize text = .ok (ts ++ [mark])) (printable : Printable front)
    (separate : ∀ p ∈ front.getLast?, p.isBreak = true) (printable' : Printable back) :
    ∃ us, tokenize (Piece.text front ++ text ++ Piece.text (.lineEnd :: back)) = .ok us ∧
      us.map Token.spelled =
        tokensOf front ++ ts.map Token.spelled ++ tokensOf back ++ [.endMark] := by
  obtain ⟨ts', lexer, passes, ended, all⟩ := Lexer.passes_of_tokens h
  obtain ⟨rfl, -⟩ := List.append_inj' all rfl
  let rest := back.flatMap Piece.chars
  obtain ⟨us, start, first, spelled⟩ := Lexer.passes_of_printable printable (text.toList ++ '\n' :: rest)
    (fun p hp => Piece.endsBefore_of_isBreak (separate p hp) _) .start
  obtain ⟨vs, p, inside, same⟩ := (passes.inFront rest).elsewhere start
  have feed : Lexer.Passes ⟨lexer.rest ++ '\n' :: rest, p⟩ [] ⟨rest, p.advance '\n'⟩ := by
    rw [ended]
    exact .layout rfl .here
  obtain ⟨ws, final, last, spelled'⟩ := Lexer.passes_of_printable printable' []
    (fun p _ => p.endsBefore_of_breaks rfl) (p.advance '\n')
  rw [List.append_nil] at last
  have finish : (Lexeme.scan (Lexer.mk [] final).rest).content = .finish := rfl
  have whole := (((first.trans inside).trans feed).trans last).tokens
  rw [Lexer.tokens_of_finish finish] at whole
  refine ⟨us ++ vs ++ [] ++ ws ++ [.endMark final], ?_, ?_⟩
  · have chars : (Piece.text front ++ text ++ Piece.text (.lineEnd :: back)).toList =
        front.flatMap Piece.chars ++ (text.toList ++ '\n' :: rest) := by
      simp [Piece.text, Piece.chars, rest]
    rw [tokenize, Lexer.ofText, chars]
    exact whole
  · simp only [List.map_append, spelled, same, spelled']
    simp [Token.endMark, Token.spelled, Spelled.endMark]

end CanonicalSql
