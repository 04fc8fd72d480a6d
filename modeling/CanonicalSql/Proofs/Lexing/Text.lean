import CanonicalSql.Document
import CanonicalSql.Proofs.Lexing.Piece
import Mathlib.Data.List.Chain

/-! Printed text as tokens.  The text of legible pieces falls into the tokens that the pieces stand
for, if each piece can stand right behind the one before it. -/

namespace CanonicalSql

/-- The tokens that pieces stand for. -/
def tokensOf (ps : List Piece) : List Spelled := ps.filterMap Piece.token?

/-- Whether no piece runs into the next one. -/
def Apart (ps : List Piece) : Prop := ps.IsChain fun p q => p.meets q = true

/-- Whether printed pieces can be read back: each is legible, and none runs into the next. -/
def Printable (ps : List Piece) : Prop := (∀ p ∈ ps, p.Legible) ∧ Apart ps

namespace Piece

theorem endsBefore_of_breaks (p : Piece) {rest : List Char} (h : breaks rest = true) :
    p.endsBefore rest := by
  unfold endsBefore
  split
  case h_10 =>
    have minus := of_breaks (p := (decide <| · ≠ '-')) h (by decide)
    cases rest <;> simp_all
  case h_11 => exact of_breaks (p := (!Char.isDigit ·)) h (by decide)
  case h_12 => exact .inl h
  all_goals trivial

theorem breaks_of_isBreak {q : Piece} (h : q.isBreak = true) (rest : List Char) :
    breaks (q.chars ++ rest) = true := by
  unfold isBreak at h
  split at h
  · rfl
  · rfl
  · next s =>
    cases s <;> first | rfl | cases h
  · cases h

/-- A name starts with no digit. -/
theorem isDigit_head_name (name : String) (rest : List Char) :
    ((Piece.name name).chars ++ rest).head?.all (!Char.isDigit ·) = true := by
  rw [chars, nameChars]
  split
  · next plain =>
    obtain ⟨c, cs, hn, hc, -⟩ := wordChars_of_isPlainName plain
    simp [hn, isDigit_eq_false_of_isNameStart hc]
  · rfl

theorem head_ne_minus_of_wordChars {cs : List Char} (h : WordChars cs) (rest : List Char) :
    (cs ++ rest).head? ≠ some '-' := by
  obtain ⟨c, ds, rfl, hc, -⟩ := h
  rintro ⟨⟩
  exact absurd hc (by decide)

theorem head_nameChars_ne_minus {plain : Bool} {name : String} (rest : List Char)
    (word : plain = true → WordChars name.toList) :
    (nameChars plain name ++ rest).head? ≠ some '-' := by
  cases plain with
  | true => exact head_ne_minus_of_wordChars (word rfl) rest
  | false => simp [nameChars, QuotedName.encode]

/-- No legible piece but a symbol starts with the sign that would open a comment behind another. -/
theorem head_ne_minus {q : Piece} (legible : q.Legible) (other : ∀ s, q ≠ .symbol s)
    (rest : List Char) : (q.chars ++ rest).head? ≠ some '-' := by
  cases q with
  | space | lineEnd => simp [chars]
  | keyword k => exact head_ne_minus_of_wordChars k.wordChars_text rest
  | word w => exact head_ne_minus_of_wordChars w.wordChars_text rest
  | symbol s => exact absurd rfl (other s)
  | name n => exact head_nameChars_ne_minus rest wordChars_of_isPlainName
  | typeName n =>
    refine head_nameChars_ne_minus rest fun h => ?_
    rw [Bool.and_eq_true] at h
    exact wordChars_of_isPlainName h.1
  | functionName n =>
    refine head_nameChars_ne_minus rest fun h => ?_
    rw [Bool.or_eq_true] at h
    exact h.elim wordChars_of_isPlainName wordChars_of_isFunctionKeyword
  | label n =>
    refine head_nameChars_ne_minus rest fun h => ?_
    rw [Bool.or_eq_true] at h
    exact h.elim wordChars_of_isPlainName wordChars_of_isWord
  | unit u => exact head_ne_minus_of_wordChars (lexesAs_ident.1 legible).1 rest
  | number t =>
    have starts := (lexesAs_number.1 legible).1
    cases ht : t.toList with
    | nil => simp [ht, Number.startsAt] at starts
    | cons c cs =>
      rw [chars, ht]
      rintro ⟨⟩
      simp [ht, Number.startsAt] at starts
  | string v => simp [chars, StringLiteral.encode]
  | placeholder p => cases p <;> simp [chars, placeholderChars]

/-- Where a piece can stand right behind another, it does not continue it. -/
theorem endsBefore_of_meets {p q : Piece} (h : p.meets q = true) (legible : q.Legible)
    (rest : List Char) : p.endsBefore (q.chars ++ rest) := by
  unfold meets at h
  rw [Bool.or_eq_true, Bool.or_eq_true] at h
  rcases h with (hp | hq) | h
  · unfold isBreak at hp
    split at hp
    · trivial
    · trivial
    · next s => cases s <;> trivial
    · cases hp
  · exact p.endsBefore_of_breaks (breaks_of_isBreak hq rest)
  · split at h
    · next s =>
      obtain rfl : s = .dot := of_decide_eq_true h
      exact .inr rfl
    · exact isDigit_head_name _ rest
    · next s =>
      obtain rfl : s = .star := of_decide_eq_true h
      exact rfl
    · cases h
    · cases h
    · next other => exact head_ne_minus legible (fun s hs => other s hs) rest
    · trivial
    · cases h

theorem chars_ne_nil {p : Piece} (legible : p.Legible) : p.chars ≠ [] := by
  have read := scan_piece legible (p.endsBefore_of_breaks (show breaks [] = true from rfl))
  have nonempty := Lexeme.text_ne_nil (p.chars ++ [])
  rw [read] at nonempty
  refine nonempty ?_
  unfold content
  split <;> rfl

/-- What is no token is a single blank. -/
theorem chars_of_kind?_none {p : Piece} (h : p.kind? = none) :
    ∃ c, p.chars = [c] ∧ isBlank c = true := by
  cases p with
  | space => exact ⟨' ', rfl, rfl⟩
  | lineEnd => exact ⟨'\n', rfl, rfl⟩
  | _ => cases h

theorem kind?_ne_eof (p : Piece) : p.kind? ≠ some .eof := by
  have name : ∀ plain n, nameKind plain n ≠ .eof := by
    intro plain n
    cases plain with
    | true =>
      simp only [nameKind, Lexeme.wordKind, if_true]
      split <;> simp
    | false => simp [nameKind]
  cases p with
  | placeholder p => cases p <;> simp [kind?, placeholderKind]
  | _ => simp [kind?, name]

end Piece

/-- A blank is passed over by itself. -/
theorem layoutStrides_of_isBlank {c : Char} (h : isBlank c = true) : layoutStrides [c] = [.alone c] := by
  unfold layoutStrides
  split
  · next eq => cases eq; cases h
  · next eq => cases eq; cases h
  · rfl

/-- Whether the text `cs` that starts at `p` consists of the tokens, each at its own place and as it is
written, and of nothing else but blanks. -/
inductive Spread : (p : Position) → (cs : List Char) → List Token → Prop
  | done {p : Position} : Spread p [] [.endMark p]
  | blank {p : Position} {c : Char} {cs : List Char} {ts : List Token} :
      isBlank c = true → Spread (p.advance c) cs ts → Spread p (c :: cs) ts
  | token {p : Position} {t : Token} {cs : List Char} {ts : List Token} :
      t.position = p → Spread t.behind cs ts →
      Spread p (t.text.toList ++ cs) (t :: ts)

namespace Lexer

/-- The tokens from the next one on, as the reading of the next one tells. -/
def continued (count : Nat) : Except LexError Token × Lexer → Except LexError (List Token)
  | (.error e, _) => .error e
  | (.ok token, lexer) =>
    if token.kind = .eof then .ok [token] else (tokensWithin count lexer).map (token :: ·)

theorem tokensWithin_succ (count : Nat) (lexer : Lexer) :
    tokensWithin (count + 1) lexer = continued count (lexer.nextWithin (count + 1)) := rfl

/-- The tokens of the text of printable pieces: those that the pieces stand for, and between them no
more than blanks. -/
theorem tokens_of_printable {ps : List Piece} (h : Printable ps) (pieces count : Nat)
    (position : Position) (enough : (ps.flatMap Piece.chars).length < pieces)
    (room : (ps.flatMap Piece.chars).length ≤ count) :
    ∃ tokens,
      continued count (nextWithin pieces ⟨ps.flatMap Piece.chars, position⟩) = .ok tokens ∧
        tokens.map Token.spelled = tokensOf ps ++ [.endMark] ∧
        Spread position (ps.flatMap Piece.chars) tokens := by
  induction ps generalizing pieces count position with
  | nil =>
    obtain ⟨pieces, rfl⟩ : ∃ n, pieces = n + 1 := ⟨pieces - 1, by simp at enough; omega⟩
    exact ⟨[.endMark position], rfl, rfl, .done⟩
  | cons p ps ih =>
    obtain ⟨legible, chain⟩ := h
    have rest : Printable ps := ⟨fun q hq => legible q (by simp [hq]), chain.tail⟩
    have ends : p.endsBefore (ps.flatMap Piece.chars) := by
      cases ps with
      | nil => exact p.endsBefore_of_breaks rfl
      | cons q ps =>
        exact Piece.endsBefore_of_meets (List.isChain_cons_cons.1 chain).1 (legible q (by simp)) _
    have read := scan_piece (legible p (by simp)) ends
    have some : 0 < p.chars.length :=
      List.length_pos_iff.2 (Piece.chars_ne_nil (legible p (by simp)))
    rw [List.flatMap_cons, List.length_append] at enough room
    obtain ⟨pieces, rfl⟩ : ∃ n, pieces = n + 1 := ⟨pieces - 1, by omega⟩
    rw [List.flatMap_cons]
    simp only [nextWithin, read, behind, Lexeme.strides, Piece.content]
    have noEnd := p.kind?_ne_eof
    cases hk : p.kind? with
    | none =>
      obtain ⟨tokens, found, spelled, spread⟩ :=
        ih rest pieces count (position.across (layoutStrides p.chars)) (by omega) (by omega)
      obtain ⟨c, single, blank⟩ := Piece.chars_of_kind?_none hk
      refine ⟨tokens, found, ?_, ?_⟩
      · simp [spelled, tokensOf, Piece.token?, hk]
      · rw [single, layoutStrides_of_isBlank blank] at spread
        rw [single]
        exact .blank blank spread
    | some k =>
      rw [hk] at noEnd
      obtain ⟨count, rfl⟩ : ∃ n, count = n + 1 := ⟨count - 1, by omega⟩
      obtain ⟨tokens, found, spelled, spread⟩ :=
        ih rest (count + 1) count (position.across (k.strides p.chars)) (by omega) (by omega)
      have noMark : k ≠ .eof := fun he => noEnd (by rw [he])
      refine ⟨⟨k, String.ofList p.chars, position⟩ :: tokens, ?_, ?_, ?_⟩
      · simp only [continued, noMark, ↓reduceIte]
        rw [tokensWithin_succ, found]
        rfl
      · simp [spelled, tokensOf, Piece.token?, hk, Token.spelled]
      · rw [← String.toList_ofList (l := p.chars)] at spread
        have first := Spread.token (p := position) (t := ⟨k, String.ofList p.chars, position⟩) rfl spread
        rwa [String.toList_ofList] at first

end Lexer

/-- The text of printable pieces falls into the tokens that the pieces stand for and blanks. -/
theorem tokenize_text {ps : List Piece} (h : Printable ps) :
    ∃ tokens, tokenize (Piece.text ps) = .ok tokens ∧
      tokens.map Token.spelled = tokensOf ps ++ [.endMark] ∧
      Spread .start (Piece.text ps).toList tokens := by
  rw [tokenize, Lexer.ofText, Lexer.tokens, Piece.text, String.toList_ofList,
    Lexer.tokensWithin_succ]
  exact Lexer.tokens_of_printable h _ _ _ (Nat.lt_succ_self _) le_rfl

/-! ### The tokens of any text -/

namespace Lexer

theorem genuine_of_nextWithin {pieces : Nat} {lexer lexer' : Lexer} {token : Token}
    (h : nextWithin pieces lexer = (.ok token, lexer')) : token.kind.Genuine := by
  induction pieces generalizing lexer with
  | zero =>
    cases h
    trivial
  | succ pieces ih =>
    simp only [nextWithin] at h
    split at h
    · exact ih h
    · next kind read =>
      cases h
      exact genuine_of_scan read
    · cases h
    · cases h
      trivial

theorem genuine_of_tokensWithin {count : Nat} {lexer : Lexer} {tokens : List Token}
    (h : tokensWithin count lexer = .ok tokens) : ∀ t ∈ tokens, t.kind.Genuine := by
  induction count generalizing lexer tokens with
  | zero =>
    cases h
    simp
  | succ count ih =>
    rw [tokensWithin] at h
    split at h
    · cases h
    · next token lexer' read =>
      have first := genuine_of_nextWithin read
      split at h
      · cases h
        simpa using first
      · cases others : tokensWithin count lexer' with
        | error e => simp [others, Except.map] at h
        | ok ts =>
          rw [others] at h
          cases h
          simpa using ⟨first, ih others⟩

end Lexer

/-- The tokens of a text are genuine. -/
theorem genuine_of_tokenize {text : String} {tokens : List Token}
    (h : tokenize text = .ok tokens) : ∀ t ∈ tokens, t.kind.Genuine :=
  Lexer.genuine_of_tokensWithin h

namespace Lexer

/-- A piece of a text takes a character at least. -/
theorem rest_lt {cs : List Char} (h : (Lexeme.scan cs).content.isPiece = true) :
    (Lexeme.scan cs).rest.length < cs.length := by
  have some := List.length_pos_iff.2 (Lexeme.text_ne_nil cs h)
  have all := congrArg List.length (Lexeme.all_scan cs)
  rw [Lexeme.all, List.length_append] at all
  omega

/-- Whatever is read in front of the end takes a character at least. -/
theorem rest_of_nextWithin {pieces : Nat} {lexer lexer' : Lexer} {token : Token}
    (h : nextWithin pieces lexer = (.ok token, lexer')) (noEnd : token.kind ≠ .eof) :
    lexer'.rest.length < lexer.rest.length := by
  induction pieces generalizing lexer with
  | zero =>
    cases h
    exact absurd rfl noEnd
  | succ pieces ih =>
    simp only [nextWithin] at h
    split at h
    · next layout =>
      have first := rest_lt (by rw [layout]; rfl)
      exact (ih h).trans first
    · next kind read =>
      cases h
      exact rest_lt (by rw [read]; rfl)
    · cases h
    · cases h
      exact absurd rfl noEnd

/-- The last token is the only mark of the end. -/
theorem ended_of_tokensWithin {count : Nat} {lexer : Lexer} {tokens : List Token}
    (h : tokensWithin count lexer = .ok tokens) (enough : lexer.rest.length < count) :
    ∃ ts mark, tokens = ts ++ [mark] ∧ mark.kind = .eof ∧ ∀ t ∈ ts, t.kind ≠ .eof := by
  induction count generalizing lexer tokens with
  | zero => exact absurd enough (Nat.not_lt_zero _)
  | succ count ih =>
    rw [tokensWithin] at h
    split at h
    · cases h
    · next token lexer' read =>
      split at h
      · next mark =>
        cases h
        exact ⟨[], token, rfl, mark, by simp⟩
      · next noEnd =>
        have moved := rest_of_nextWithin read noEnd
        cases others : tokensWithin count lexer' with
        | error e => simp [others, Except.map] at h
        | ok us =>
          rw [others] at h
          cases h
          obtain ⟨ts, mark, rfl, ended, rest⟩ := ih others (by omega)
          exact ⟨token :: ts, mark, rfl, ended, List.forall_mem_cons.2 ⟨noEnd, rest⟩⟩

end Lexer

/-- The tokens of a text end with the only mark of the end among them. -/
theorem ended_of_tokenize {text : String} {tokens : List Token} (h : tokenize text = .ok tokens) :
    ∃ ts mark, tokens = ts ++ [mark] ∧ mark.kind = .eof ∧ ∀ t ∈ ts, t.kind ≠ .eof :=
  Lexer.ended_of_tokensWithin h (Nat.lt_succ_self _)

end CanonicalSql
