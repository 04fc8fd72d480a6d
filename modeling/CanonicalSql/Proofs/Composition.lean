import Mathlib
import CanonicalSql.Proofs.Lexing.Joined
import CanonicalSql.Proofs.Places

/-! Documents compose.  A document that is read leaves no level open and no piece unfinished, so what
stands behind it and a semicolon is read as if it stood alone: the statements come behind those of the
first document, and an error is about a place that is moved behind it. -/

namespace CanonicalSql

/-- An error of a parse, if its text stands behind another. -/
def ParseError.moved (lines bytes : Nat) : ParseError → ParseError
  | .lexical e => .lexical (e.moved lines bytes)
  | .unexpected found expected => .unexpected (found.moved lines bytes) expected
  | .tooDeep p limit => .tooDeep (p.moved lines bytes) limit

namespace Likeness

/-- The tokens of one vector, each beside itself, where the second vector goes on. -/
def before (rest : List Token) : Likeness where
  like t t' := t' = t
  kind_eq h := by rw [h]
  text_eq h := by rw [h]
  beyond := rest

/-- The tokens of a text beside those that they are behind another text. -/
def moved (lines bytes : Nat) : Likeness where
  like t t' := t' = t.moved lines bytes
  kind_eq h := by rw [h]; rfl
  text_eq h := by rw [h]; rfl
  beyond := []

variable {ts rest : List Token} {mark s : Token} {lines bytes : Nat}

theorem tokens_before (inside : ∀ t ∈ ts, t.kind ≠ .eof) (ended : mark.kind = .eof)
    (semicolon : s.kind = .symbol .semicolon) :
    (before (s :: rest)).Tokens (ts ++ [mark]) (ts ++ s :: rest) := by
  have front := Tokens.append (L := before (s :: rest)) (f := id)
    (fun t ht => ⟨inside t ht, rfl⟩) (.beyond ended (.inl semicolon) rfl)
  rwa [List.map_id] at front

theorem tokens_moved (inside : ∀ t ∈ ts, t.kind ≠ .eof) (ended : mark.kind = .eof) :
    (moved lines bytes).Tokens (ts ++ [mark]) ((ts ++ [mark]).map (Token.moved lines bytes)) := by
  rw [List.map_append]
  exact .append (fun t ht => ⟨inside t ht, rfl⟩) (.mark ended rfl rfl)

/-- Errors about tokens that go together are about places moved. -/
theorem eq_of_errors {e e' : ParseError} (h : (moved lines bytes).Errors e e') :
    e' = e.moved lines bytes := by
  cases h with
  | unexpected _ alike => rw [alike]; rfl
  | tooDeep _ alike => rw [alike]; rfl

end Likeness

namespace Parse

variable {first : List Token} {s mark : Token} {rest : List Token} {limit : Nat} {as : List Statement}
  {p q : Parser}

theorem outcome_congr {α : Type} {x y : Parse α} (h : x p = y q) :
    (x.outcome p).1 = (y.outcome q).1 := by
  rw [outcome, outcome, h]

theorem outcome_map {α β : Type} {x : Parse α} (f : α → β) :
    ((f <$> x).outcome p).1 = (x.outcome p).1.map f := by
  have run : (f <$> x) p = EStateM.map f x p := rfl
  rw [outcome, outcome, run, EStateM.map]
  cases x p <;> rfl

/-- Behind a vector that is read as a document, and a semicolon, statements are read with no level open. -/
theorem statements_before {c d : Cursor} (beside : (Likeness.before (s :: rest)).Beside c d)
    (semicolon : s.kind = .symbol .semicolon) (some : rest ≠ [])
    (h : statements ⟨c, 0, limit⟩ = .ok as q) :
    ∃ e k, e.upcoming = rest ∧ e.remaining ≤ k ∧
      statements ⟨d, 0, limit⟩ = ((as ++ ·) <$> statementsWithin k) ⟨e, 0, limit⟩ := by
  obtain ⟨e, k, place, near, run⟩ := Likeness.statementsWithin_beyond rfl semicolon some beside
    (Nat.le_succ _) (Nat.le_succ _) h
  rcases place with front | behind
  · obtain ⟨here, ahead⟩ : e.current = s ∧ e.ahead = rest := List.cons.inj front
    obtain ⟨next, others, cons⟩ := List.exists_cons_of_ne_nil some
    have moved : e.advance.upcoming = rest := by
      simp [Cursor.advance, Cursor.upcoming, here, semicolon, ahead, cons]
    have shorter := Cursor.remaining_cons (front.trans (congrArg (s :: ·) moved.symm))
    obtain ⟨k, rfl⟩ : ∃ k', k = k' + 1 := ⟨k - 1, by omega⟩
    refine ⟨e.advance, k + 1, moved, by omega, run.trans (map_congr _ ?_)⟩
    exact statementsWithin_of_semicolon (by rw [here, semicolon])
  · exact ⟨e, k, behind, near, run⟩

/-- Statements that are read behind others are those that are read at the start of a text. -/
theorem outcome_moved {lines bytes n : Nat} {c e : Cursor}
    (beside : (Likeness.moved lines bytes).Beside c e) (near : e.remaining ≤ n) :
    ((statementsWithin n).outcome ⟨e, 0, limit⟩).1 =
      (statements.outcome ⟨c, 0, limit⟩).1.mapError (ParseError.moved lines bytes) :=
  Likeness.outcome_of_ends (x := statements) rfl Likeness.eq_of_errors <|
    Likeness.alike_statementsWithin rfl (Nat.le_succ _) (beside.remaining_le.trans near) beside 0 limit

end Parse

/-- What is read of the tokens of a document, a semicolon, and the tokens of another text. -/
theorem outcome_append {first second text : String} {ts us : List Token} {mark s : Token}
    {limit lines bytes : Nat} {as : List Statement} (lexed : tokenize first = .ok (ts ++ [mark]))
    (lexed' : tokenize second = .ok us)
    (all : tokenize text = .ok (ts ++ s :: us.map (Token.moved lines bytes)))
    (semicolon : s.kind = .symbol .semicolon)
    (h : (Parse.statements.outcome (.ofTokens (ts ++ [mark]) limit)).1 = .ok as) :
    (Parse.statements.outcome (.ofTokens (ts ++ s :: us.map (Token.moved lines bytes)) limit)).1 =
      ((Parse.statements.outcome (.ofTokens us limit)).1.mapError (.moved lines bytes)).map (as ++ ·) := by
  obtain ⟨ts', mark', same, ended, inside⟩ := ended_of_tokenize lexed
  obtain ⟨rfl, last⟩ := List.append_inj' same rfl
  obtain rfl : mark = mark' := List.singleton_inj.1 last
  obtain ⟨us, mark', rfl, ended', inside'⟩ := ended_of_tokenize lexed'
  have beside : (Likeness.before (s :: (us ++ [mark']).map (Token.moved lines bytes))).Beside
      (Parser.ofTokens (ts ++ [mark]) limit).cursor
      (Parser.ofTokens (ts ++ s :: (us ++ [mark']).map (Token.moved lines bytes)) limit).cursor := by
    unfold Likeness.Beside
    rw [upcoming_ofTokens lexed, upcoming_ofTokens all]
    exact Likeness.tokens_before inside ended semicolon
  obtain ⟨q, read⟩ := Parse.exists_of_outcome h
  obtain ⟨e, k, place, near, run⟩ := Parse.statements_before beside semicolon (by simp) read
  have beside' : (Likeness.moved lines bytes).Beside (Parser.ofTokens (us ++ [mark']) limit).cursor e := by
    unfold Likeness.Beside
    rw [upcoming_ofTokens lexed', place]
    exact Likeness.tokens_moved inside' ended'
  calc (Parse.statements.outcome _).1
    _ = (((as ++ ·) <$> Parse.statementsWithin k).outcome ⟨e, 0, limit⟩).1 := Parse.outcome_congr run
    _ = ((Parse.statementsWithin k).outcome ⟨e, 0, limit⟩).1.map (as ++ ·) := Parse.outcome_map _
    _ = _ := congrArg _ (Parse.outcome_moved beside' near)

/-- The line of an error of a short text is moved as a number, and not only as a word of 32 bits. -/
theorem ParseError.line_moved {first second : String} {limit : Nat} {e : ParseError}
    (h : parseDocument second limit = .error e)
    (short : (first ++ "\n;\n" ++ second).length < UInt32.size - 1) :
    (e.moved (first.toList.count '\n' + 2) (first.utf8ByteSize + 3)).position.line.toNat =
      e.position.line.toNat + (first.toList.count '\n' + 2) := by
  rw [String.length_append, String.length_append, show "\n;\n".length = 3 from rfl] at short
  obtain ⟨before, behind, split, place⟩ := in_of_parseDocument (by omega) h
  have lines := List.count_le_length (a := '\n') (l := first.toList)
  have fewer := List.count_le_length (a := '\n') (l := before)
  have length : before.length ≤ second.length := by
    rw [← String.length_toList, split, List.length_append]
    exact Nat.le_add_right _ _
  have moved : (e.moved (first.toList.count '\n' + 2) (first.utf8ByteSize + 3)).position.line =
      e.position.line + .ofNat (first.toList.count '\n' + 2) := by
    cases e <;> rfl
  have size : UInt32.size = 2 ^ 32 := rfl
  rw [String.length_toList] at lines
  rw [moved, UInt32.toNat_add, UInt32.toNat_ofNat_of_lt' (by omega), place.line]
  exact Nat.mod_eq_of_lt (by omega)

/-- Documents compose.  If a document is read, then with a semicolon on a line of its own and a second text
behind it the statements of the second one come behind its own.  If the second one is refused, so are both
together, with the same error: its line is moved by the line feeds in front of the second text, its offset
by the bytes in front of it, and its column is the same.  Lines are words of 32 bits; those of a text with
fewer characters than a word can count are moved as numbers. -/
theorem parseDocument_append {first second : String} {limit : Nat} {as : List Statement}
    (h : parseDocument first limit = .ok as) :
    (parseDocument (first ++ "\n;\n" ++ second) limit =
      match parseDocument second limit with
      | .ok bs => .ok (as ++ bs)
      | .error e => .error (e.moved (first.toList.count '\n' + 2) (first.utf8ByteSize + 3))) ∧
    ∀ e, parseDocument second limit = .error e →
      (first ++ "\n;\n" ++ second).length < UInt32.size - 1 →
      (e.moved (first.toList.count '\n' + 2) (first.utf8ByteSize + 3)).position.line.toNat =
        e.position.line.toNat + (first.toList.count '\n' + 2) := by
  refine ⟨?_, fun e refused short => ParseError.line_moved refused short⟩
  cases lexed : tokenize first with
  | error e => simp [parseDocument, Parse.ofText, lexed] at h
  | ok tokens =>
    obtain ⟨ts, mark, rfl, -⟩ := ended_of_tokenize lexed
    obtain ⟨s, semicolon, all⟩ := tokenize_append second lexed
    cases lexed' : tokenize second with
    | error e =>
      rw [lexed'] at all
      simp only [parseDocument, Parse.ofText, all, lexed', ParseError.moved]
    | ok us =>
      rw [lexed'] at all
      simp only [parseDocument, Parse.ofText, lexed, lexed', all] at h ⊢
      rw [outcome_append lexed lexed' all semicolon h]
      cases (Parse.statements.outcome (.ofTokens us limit)).1 <;> rfl

set_option maxRecDepth 2000 in
/-- Behind a document on two lines, the last of which ends with a comment, an error is on the fourth. -/
theorem parseDocument_append_refused :
    ∃ statement, parseDocument "SELECT\n1 -- one" 3 = .ok [statement] ∧
      parseDocument ("SELECT\n1 -- one" ++ "\n;\n" ++ "SELECT +") 3 =
        .error (.unexpected (.endMark ⟨4, 9, 26⟩) .expression) := by
  have refused : parseDocument "SELECT +" 3 =
      .error (.unexpected (.endMark ⟨1, 9, 8⟩) .expression) := by cbv
  let statement := Statement.select (.ofBody (.block
    ⟨false, [.expr (.number "1") none], none, none, [], none⟩))
  have read : parseDocument "SELECT\n1 -- one" 3 = .ok [statement] := by cbv
  refine ⟨statement, read, ?_⟩
  rw [(parseDocument_append read).1, refused]
  rfl

end CanonicalSql
