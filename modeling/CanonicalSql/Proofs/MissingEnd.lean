import CanonicalSql.Proofs.Alike.Document
import CanonicalSql.Proofs.Hosting.Run
import CanonicalSql.Proofs.Lexing.Place

/-! A token vector that has lost its mark of the end.  A cursor gives it a new one, which it puts beside the
last token, on the line where that token starts.  If the text ends with the last token, the new mark has the
offset of the one that the lexer has found; it has the same line and column as well exactly if the last token
is on one line.  Nothing else of what a cursor answers, or of what is read, tells the two vectors apart. -/

namespace CanonicalSql

/-! ### The place of the new mark -/

namespace Position

/-- The place `finish` for the place at its offset, and every other place as it is. -/
def withEnd (finish p : Position) : Position := if p.offset = finish.offset then finish else p

variable {p q : Position} {before : List Char} {text : String}

/-- A place is moved beside a text on one line as words can count its characters. -/
theorem Behind.besideText (h : p.Behind before) (single : '\n' ∉ text.toList)
    (short : before.length + text.length + 1 < UInt32.size) :
    (p.besideText text).Behind (before ++ text.toList) := by
  have columns := length_lastLine_le before
  have size : UInt32.size = 2 ^ 32 := rfl
  refine ⟨?_, ?_, ?_⟩
  · rw [List.count_append, List.count_eq_zero_of_not_mem single]
    exact h.line
  · rw [lastLine_append_of_not_mem before single, List.length_append, String.length_toList,
      Position.besideText, if_pos (by omega), UInt32.toNat_add,
      UInt32.toNat_ofNat_of_lt' (by omega), h.column, Nat.add_assoc]
    exact Nat.mod_eq_of_lt (by omega)
  · rw [String.ofList_append, String.utf8ByteSize_append, String.ofList_toList, ← h.offset]
    rfl

/-- The place beside a text is the one behind it exactly if the text is on one line. -/
theorem Behind.besideText_eq_iff (h : p.Behind before) (h' : q.Behind (before ++ text.toList))
    (short : before.length + text.length + 1 < UInt32.size) :
    p.besideText text = q ↔ '\n' ∉ text.toList := by
  refine ⟨fun same feed => ?_, fun single => (h.besideText single short).unique h'⟩
  have line : p.line = q.line := (congrArg Position.line same :)
  have lines := h'.line
  rw [← line, h.line, List.count_append] at lines
  have some := List.count_pos_iff.2 feed
  omega

end Position

/-- A token, with `finish` for the place at its offset. -/
def Token.withEnd (finish : Position) (t : Token) : Token :=
  { t with position := finish.withEnd t.position }

/-- An error of a parse, with `finish` for the place at its offset. -/
def ParseError.withEnd (finish : Position) : ParseError → ParseError
  | .lexical e => .lexical { e with position := finish.withEnd e.position }
  | .unexpected found expected => .unexpected (found.withEnd finish) expected
  | .tooDeep p limit => .tooDeep (finish.withEnd p) limit

/-! ### What a cursor answers -/

namespace Cursor

/-- A cursor over tokens with `finish` for the place at its offset. -/
def withEnd (finish : Position) (c : Cursor) : Cursor :=
  ⟨c.passed, c.current.withEnd finish, c.ahead.map (Token.withEnd finish)⟩

/-- What a cursor is asked for: the token some places ahead, or the current one, which it then leaves. -/
inductive Request where
  | peekAt (n : Nat)
  | advance

/-- What a cursor answers to some requests, one after another. -/
def answers : List Request → Cursor → List Token
  | [], _ => []
  | .peekAt n :: requests, c => c.peekAt n :: answers requests c
  | .advance :: requests, c => c.current :: answers requests c.advance

variable (finish : Position) (c : Cursor)

theorem upcoming_withEnd : (c.withEnd finish).upcoming = c.upcoming.map (Token.withEnd finish) := rfl

theorem peekAt_withEnd (n : Nat) : (c.withEnd finish).peekAt n = (c.peekAt n).withEnd finish := by
  have last : (c.withEnd finish).last = c.last.withEnd finish :=
    List.getLast_map (f := Token.withEnd finish) (l := c.upcoming) _
  rw [peekAt, peekAt, upcoming_withEnd, List.getElem?_map, last]
  cases c.upcoming[n]? <;> rfl

theorem advance_withEnd : (c.withEnd finish).advance = c.advance.withEnd finish := by
  obtain ⟨passed, current, ahead⟩ := c
  by_cases ended : current.kind = .eof
  · simp [advance, withEnd, Token.withEnd, ended]
  · cases ahead <;> simp [advance, withEnd, Token.withEnd, ended]

/-- The answers differ in the place at one offset, whatever the requests. -/
theorem answers_withEnd (requests : List Request) :
    (c.withEnd finish).answers requests = (c.answers requests).map (Token.withEnd finish) := by
  induction requests generalizing c with
  | nil => rfl
  | cons request requests ih =>
    cases request with
    | peekAt n => rw [answers, answers, List.map_cons, ih, peekAt_withEnd]
    | advance =>
      rw [answers, answers, List.map_cons, advance_withEnd, ih]
      rfl

/-- Cursors that have passed as much and have the same tokens ahead are the same. -/
theorem eq_of_upcoming {c d : Cursor} (passed : c.passed = d.passed) (h : c.upcoming = d.upcoming) :
    c = d := by
  obtain ⟨current, ahead⟩ := List.cons.inj h
  cases c
  cases d
  simp_all

end Cursor

/-! ### What is read -/

namespace Likeness

/-- The tokens of one vector beside themselves with `finish` for the place at its offset. -/
def withEnd (finish : Position) : Likeness where
  like t t' := t' = t.withEnd finish
  kind_eq h := by rw [h]; rfl
  text_eq h := by rw [h]; rfl
  beyond := []

variable {finish : Position}

theorem withEnd_of_errors {e e' : ParseError} (h : (withEnd finish).Errors e e') :
    e' = e.withEnd finish := by
  cases h with
  | unexpected _ alike => rw [alike]; rfl
  | tooDeep _ alike => rw [alike]; rfl

/-- A cursor over tokens up to a mark of the end goes with itself. -/
theorem beside_withEnd {c : Cursor} {ts : List Token} {mark : Token} (h : c.upcoming = ts ++ [mark])
    (inside : ∀ t ∈ ts, t.kind ≠ .eof) (ended : mark.kind = .eof) :
    (withEnd finish).Beside c (c.withEnd finish) := by
  unfold Beside
  rw [Cursor.upcoming_withEnd, h, List.map_append]
  exact .append (fun t ht => ⟨inside t ht, rfl⟩) (.mark ended rfl rfl)

/-- A step that ends alike over such cursors has the same outcome over both, but for the place at one
offset. -/
theorem Alike.outcome_withEnd {α : Type} {x : Parse α} (alike : (withEnd finish).Alike x x) {c : Cursor}
    (beside : (withEnd finish).Beside c (c.withEnd finish)) (limit : Nat) :
    (x.outcome ⟨c.withEnd finish, 0, limit⟩).1 =
      (x.outcome ⟨c, 0, limit⟩).1.mapError (.withEnd finish) :=
  outcome_of_ends rfl withEnd_of_errors (alike c (c.withEnd finish) beside 0 limit)

end Likeness

/-! ### Vectors of a text -/

variable {text : String} {ts : List Token} {last mark : Token}

/-- Each token of a text starts in front of the end, and the mark stands behind all characters. -/
theorem places_of_tokenize (lexed : tokenize text = .ok (ts ++ [mark])) :
    (mark = .endMark mark.position ∧ Position.start.Reaches text.toList mark.position) ∧
    ∀ t ∈ ts, t.kind ≠ .eof ∧ t.position.offset < text.utf8ByteSize ∧ ∃ before behind,
      text.toList = before ++ (t.text.toList ++ behind) ∧
        Position.start.Reaches before t.position := by
  obtain ⟨ts', lexer, passes, ended, all⟩ := Lexer.passes_of_tokens lexed
  obtain ⟨rfl, same⟩ := List.append_inj' all rfl
  obtain ⟨cs, whole, place, tiles⟩ := passes.tiles
  rw [ended, List.append_nil] at whole
  obtain rfl : text.toList = cs := whole
  obtain rfl : mark = .endMark lexer.position := List.singleton_inj.1 same
  refine ⟨⟨rfl, place⟩, fun t ht => ?_⟩
  obtain ⟨inside, some, before, behind, split, at_⟩ := tiles.place t ht
  refine ⟨inside, ?_, before, behind, split, at_⟩
  have size := congrArg String.utf8ByteSize (congrArg String.ofList split)
  have chars : t.text.utf8ByteSize ≠ 0 := by simpa using some
  rw [String.ofList_toList, String.ofList_append, String.ofList_append, String.utf8ByteSize_append,
    String.utf8ByteSize_append, String.ofList_toList] at size
  rw [at_.offset]
  change 0 + _ < _
  omega

theorem tokenize_append_mark (lexed : tokenize text = .ok (ts ++ [last, mark])) :
    tokenize text = .ok ((ts ++ [last]) ++ [mark]) :=
  lexed.trans (congrArg Except.ok (List.append_cons ts last [mark]))

/-- Behind the last token of a text that ends with it there is nothing more. -/
theorem last_of_touching (lexed : tokenize text = .ok (ts ++ [last, mark]))
    (touches : last.position.offset + last.text.utf8ByteSize = text.utf8ByteSize) :
    ∃ before, text.toList = before ++ last.text.toList ∧ Position.start.Reaches before last.position := by
  obtain ⟨-, tokens⟩ := places_of_tokenize (tokenize_append_mark lexed)
  obtain ⟨-, -, before, behind, split, at_⟩ := tokens last (by simp)
  have size := congrArg String.utf8ByteSize (congrArg String.ofList split)
  rw [String.ofList_toList, String.ofList_append, String.ofList_append, String.utf8ByteSize_append,
    String.utf8ByteSize_append, String.ofList_toList, ← touches, at_.offset] at size
  have nothing : behind = [] := by
    have none : (String.ofList behind).utf8ByteSize = 0 := by
      change 0 + _ + _ = _ at size
      omega
    simpa using none
  exact ⟨before, by rw [split, nothing, List.append_nil], at_⟩

/-- The mark of a text stands at the offset behind its last token if the text ends with it. -/
theorem offset_mark (lexed : tokenize text = .ok (ts ++ [last, mark]))
    (touches : last.position.offset + last.text.utf8ByteSize = text.utf8ByteSize) :
    (last.position.besideText last.text).offset = mark.position.offset := by
  obtain ⟨⟨-, place⟩, -⟩ := places_of_tokenize (tokenize_append_mark lexed)
  rw [place.offset, String.ofList_toList, ← touches]
  exact (Nat.zero_add _).symm

/-- Tokens of a text in front of its end stay as they are. -/
theorem Token.withEnd_of_lt {finish : Position} {t : Token} (h : t.position.offset < finish.offset) :
    t.withEnd finish = t := by
  unfold withEnd Position.withEnd
  rw [if_neg h.ne]

/-- The vector without its mark is given one beside its last token. -/
theorem upcoming_cut (lexed : tokenize text = .ok (ts ++ [last, mark])) :
    (Cursor.ofTokens (ts ++ [last])).upcoming =
      (ts ++ [last]) ++ [.endMark (last.position.besideText last.text)] := by
  obtain ⟨-, tokens⟩ := places_of_tokenize (tokenize_append_mark lexed)
  have inside := (tokens last (by simp)).1
  rw [Cursor.upcoming_ofTokens]
  simp [Cursor.missingEnd, inside]

/-- Only the mark of a text stands at the offset of its end. -/
theorem map_withEnd (lexed : tokenize text = .ok (ts ++ [last, mark]))
    (touches : last.position.offset + last.text.utf8ByteSize = text.utf8ByteSize) :
    (ts ++ [last, mark]).map (Token.withEnd (last.position.besideText last.text)) =
      (ts ++ [last]) ++ [.endMark (last.position.besideText last.text)] := by
  have whole := List.append_cons ts last [mark]
  obtain ⟨⟨ended, -⟩, tokens⟩ := places_of_tokenize (tokenize_append_mark lexed)
  have others : ∀ t ∈ ts ++ [last], t.withEnd (last.position.besideText last.text) = t := fun t ht =>
    Token.withEnd_of_lt ((tokens t ht).2.1.trans_eq touches.symm)
  rw [whole, List.map_append, List.map_congr_left others, List.map_id', List.map_singleton, ended]
  exact congrArg (fun p => ts ++ [last] ++ [.endMark p]) (if_pos (offset_mark lexed touches).symm)

/-- The cursor that is given a new mark differs from the one over all tokens in the place of the mark. -/
theorem ofTokens_cut (lexed : tokenize text = .ok (ts ++ [last, mark]))
    (touches : last.position.offset + last.text.utf8ByteSize = text.utf8ByteSize) (limit : Nat) :
    Parser.ofTokens (ts ++ [last]) limit = ⟨(Parser.ofTokens (ts ++ [last, mark]) limit).cursor.withEnd
      (last.position.besideText last.text), 0, limit⟩ := by
  refine congrArg (Parser.mk · 0 limit) (Cursor.eq_of_upcoming ?_ ?_)
  · exact (Cursor.passed_ofTokens _).trans (Cursor.passed_ofTokens _).symm
  · rw [upcoming_cut lexed, Cursor.upcoming_withEnd, upcoming_ofTokens lexed, map_withEnd lexed touches]

/-- The cursors are the same if the new mark stands where the one of the text does. -/
theorem ofTokens_cut_eq_iff (lexed : tokenize text = .ok (ts ++ [last, mark])) :
    Cursor.ofTokens (ts ++ [last]) = Cursor.ofTokens (ts ++ [last, mark]) ↔
      last.position.besideText last.text = mark.position := by
  obtain ⟨⟨ended, -⟩, -⟩ := places_of_tokenize (tokenize_append_mark lexed)
  have whole : (Cursor.ofTokens (ts ++ [last, mark])).upcoming = (ts ++ [last]) ++ [mark] := by
    have all := upcoming_ofTokens lexed 0
    rwa [List.append_cons] at all ⊢
  constructor
  · intro same
    have marks := congrArg Cursor.upcoming same
    rw [whole, upcoming_cut lexed] at marks
    exact congrArg Token.position (List.singleton_inj.1 (List.append_cancel_left marks))
  · intro place
    refine Cursor.eq_of_upcoming ?_ ?_
    · exact (Cursor.passed_ofTokens _).trans (Cursor.passed_ofTokens _).symm
    · rw [whole, upcoming_cut lexed, place, ← ended]

/-- The new mark of a short text stands where the old one does exactly if the last token is on one line. -/
theorem besideText_eq_mark_iff (lexed : tokenize text = .ok (ts ++ [last, mark]))
    (touches : last.position.offset + last.text.utf8ByteSize = text.utf8ByteSize)
    (short : text.length < UInt32.size - 1) :
    last.position.besideText last.text = mark.position ↔ '\n' ∉ last.text.toList := by
  obtain ⟨⟨-, place⟩, -⟩ := places_of_tokenize (tokenize_append_mark lexed)
  obtain ⟨before, split, start⟩ := last_of_touching lexed touches
  have length : before.length + last.text.length = text.length := by
    rw [← String.length_toList, ← String.length_toList, split, List.length_append]
  rw [split] at place
  refine (start.behind (by omega)).besideText_eq_iff (place.behind ?_) (by omega)
  rw [List.length_append, String.length_toList]
  omega

/-- Tokens of a text go with themselves, if the place of the mark is another one. -/
theorem beside_whole {tokens : List Token} (lexed : tokenize text = .ok tokens) (finish : Position)
    (limit : Nat) : (Likeness.withEnd finish).Beside (Parser.ofTokens tokens limit).cursor
      ((Parser.ofTokens tokens limit).cursor.withEnd finish) := by
  obtain ⟨ts, mark, rfl, ended, inside⟩ := ended_of_tokenize lexed
  exact Likeness.beside_withEnd (upcoming_ofTokens lexed limit) inside ended

/-- A cursor over the tokens of a text without their mark of the end is given a new one, if the text ends with
its last token.  The new mark stands on the line where that token starts.  So the cursor is the one over all
tokens exactly if the two marks stand at one place, and as long as words can count the lines and columns of the
text, exactly if the last token is on one line.  However long the text is, the answers of the cursor to any
requests, and what a parser over it reads or refuses, are those of the one over all tokens, but for the line
and the column of the mark. -/
theorem ofTokens_without_mark {text : String} {ts : List Token} {last mark : Token}
    (lexed : tokenize text = .ok (ts ++ [last, mark]))
    (touches : last.position.offset + last.text.utf8ByteSize = text.utf8ByteSize) :
    let whole := ts ++ [last, mark]
    let cut := ts ++ [last]
    let finish := last.position.besideText last.text
    (Cursor.ofTokens cut = Cursor.ofTokens whole ↔ finish = mark.position) ∧
    (text.length < UInt32.size - 1 →
      (Cursor.ofTokens cut = Cursor.ofTokens whole ↔ '\n' ∉ last.text.toList)) ∧
    finish.offset = mark.position.offset ∧
    (∀ requests, (Cursor.ofTokens cut).answers requests =
      ((Cursor.ofTokens whole).answers requests).map (Token.withEnd finish)) ∧
    ∀ limit,
      (Parse.statements.outcome (.ofTokens cut limit)).1 =
        (Parse.statements.outcome (.ofTokens whole limit)).1.mapError (.withEnd finish) ∧
      (Parse.statement.outcome (.ofTokens cut limit)).1 =
        (Parse.statement.outcome (.ofTokens whole limit)).1.mapError (.withEnd finish) ∧
      (Parse.expr.outcome (.ofTokens cut limit)).1 =
        (Parse.expr.outcome (.ofTokens whole limit)).1.mapError (.withEnd finish) := by
  intro whole cut finish
  have same := ofTokens_cut lexed touches
  have places := ofTokens_cut_eq_iff lexed
  refine ⟨places, fun short => places.trans (besideText_eq_mark_iff lexed touches short),
    offset_mark lexed touches, fun requests => ?_, fun limit => ?_⟩
  · have cursors : Cursor.ofTokens cut = (Cursor.ofTokens whole).withEnd finish :=
      congrArg Parser.cursor (same 0)
    rw [cursors, Cursor.answers_withEnd]
  · have beside := beside_whole lexed finish limit
    rw [same limit]
    exact ⟨(Likeness.alike_statements rfl).outcome_withEnd beside limit,
      Likeness.alike_statement.outcome_withEnd beside limit,
      (Likeness.alike_rule fun _ _ h => h.anyExpr).outcome_withEnd beside limit⟩

/-- A string on two lines: the new mark is on the first of them, and the mark of the text on the second. -/
theorem ofTokens_without_mark_lines :
    tokenize "'a\nb'" = .ok ([] ++ [⟨.string "a\nb", "'a\nb'", ⟨1, 1, 0⟩⟩, .endMark ⟨2, 3, 5⟩]) ∧
    (Cursor.ofTokens [⟨.string "a\nb", "'a\nb'", ⟨1, 1, 0⟩⟩]).peekAt 1 = .endMark ⟨1, 6, 5⟩ ∧
    Cursor.ofTokens [⟨.string "a\nb", "'a\nb'", ⟨1, 1, 0⟩⟩] ≠
      Cursor.ofTokens [⟨.string "a\nb", "'a\nb'", ⟨1, 1, 0⟩⟩, .endMark ⟨2, 3, 5⟩] := by
  have lexed : tokenize "'a\nb'" =
      .ok ([] ++ [⟨.string "a\nb", "'a\nb'", ⟨1, 1, 0⟩⟩, .endMark ⟨2, 3, 5⟩]) := by cbv
  have lines := (ofTokens_without_mark lexed (by decide)).2.1 (by decide)
  exact ⟨lexed, by decide, fun same => lines.1 same (by decide)⟩

end CanonicalSql
