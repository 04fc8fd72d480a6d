import Mathlib
import CanonicalSql.Proofs.Lexing.Tiling
import CanonicalSql.Proofs.Shown

/-! Strings and names between other text.  A printed string is read as the string that it holds, a
printed name as the name, and where the printer leaves out the quotes of a name the lexer finds no
keyword: its table and the printer's hold the same words. -/

namespace CanonicalSql

/-! ### The first token of a text -/

namespace Lexer

variable {lexer lexer' : Lexer} {token : Token} {kind : Token.Kind} {cs text rest : List Char}

/-- Whether the next token is `token`, and `rest` is left behind it. -/
def Reads (lexer : Lexer) (token : Token) (rest : List Char) : Prop :=
  lexer.next = (.ok token, ⟨rest, token.behind⟩)

theorem step_of_scan (position : Position) (h : Lexeme.scan cs = ⟨.token kind, text, rest⟩) :
    step ⟨cs, position⟩ = ⟨rest, (Token.mk kind (String.ofList text) position).behind⟩ := by
  simp only [step, behind, h, Lexeme.strides, Token.behind, Token.strides, String.toList_ofList]

/-- Where a token is at the front, it is the next one. -/
theorem reads_of_scan (position : Position) (h : Lexeme.scan cs = ⟨.token kind, text, rest⟩) :
    Reads ⟨cs, position⟩ ⟨kind, String.ofList text, position⟩ rest := by
  have passed := step_of_scan position h
  unfold step at passed
  simp only [h] at passed
  simp only [Reads, next, nextWithin, h, passed]

/-- A text that is a single token. -/
theorem tokens_of_scan (position : Position) (h : Lexeme.scan cs = ⟨.token kind, cs, []⟩)
    (noEnd : kind ≠ .eof) :
    tokens ⟨cs, position⟩ = .ok [⟨kind, String.ofList cs, position⟩,
      .endMark (Token.mk kind (String.ofList cs) position).behind] := by
  have content : (Lexeme.scan (mk cs position).rest).content = .token kind :=
    congrArg Lexeme.content h
  rw [tokens_of_token content noEnd, step_of_scan position h, tokens_of_finish rfl]
  simp only [tokenHere, h]
  rfl

/-- The next token is the piece at the front of what is left behind some layout. -/
theorem scan_of_nextWithin {pieces : Nat} (h : nextWithin pieces lexer = (.ok token, lexer'))
    (noEnd : token.kind ≠ .eof) :
    ∃ here : Lexer, (Lexeme.scan here.rest).content = .token token.kind ∧
      token = here.tokenHere token.kind ∧ lexer' = here.step := by
  obtain ⟨gap, here, -, -, -, found⟩ := gap_of_nextWithin h noEnd
  exact ⟨here, found⟩

end Lexer

/-! ### Strings -/

/-- A literal is read to the end: no quote follows the one that closes it. -/
theorem StringLiteral.rest_of_read? {cs : List Char} {e : Enclosed} (h : read? cs = some e) :
    e.rest.head? ≠ some '\'' := by
  fun_induction read? cs generalizing e with
  | case1 => cases h
  | case2 cs ih | case5 c cs ih =>
    obtain ⟨e', h', rfl⟩ := Option.map_eq_some_iff.1 h
    exact (ih h' :)
  | case3 cs closing =>
    cases h
    cases cs with
    | nil => simp
    | cons c cs => exact fun quote => closing cs (by simp_all)
  | case4 => cases h
  | case6 c cs _ _ _ _ ih =>
    obtain ⟨e', h', rfl⟩ := Option.map_eq_some_iff.1 h
    exact (ih h' :)

/-- Only a literal between quotes is read as a string. -/
theorem Lexeme.rest_of_string {cs : List Char} {value : String}
    (h : (scan cs).content = .token (.string value)) : (scan cs).rest.head? ≠ some '\'' := by
  have read := front cs
  generalize scan cs = piece at read h
  cases read with
  | finish | line | blank => cases h
  | number => cases h
  | block cs | quotedName cs | symbol cs =>
    simp only [blockComment, quotedName, symbol] at h
    split at h <;> cases h
  | string cs =>
    simp only [string] at h ⊢
    split at h
    · next e read => exact StringLiteral.rest_of_read? read
    · cases h
  | word c cs =>
    simp only [word, wordKind] at h
    split at h <;> cases h
  | question =>
    simp only [question, questionContent] at h
    repeat' split at h
    all_goals cases h
  | colonParameter | dollarParameter =>
    simp only [namedParameter] at h
    split at h <;> cases h

/-- The characters behind a string that was read do not continue it. -/
theorem Lexer.rest_of_string {lexer lexer' : Lexer} {value raw : String} {position : Position}
    (h : lexer.next = (.ok ⟨.string value, raw, position⟩, lexer')) :
    lexer'.rest.head? ≠ some '\'' := by
  obtain ⟨here, read, -, rfl⟩ := scan_of_nextWithin h (by simp)
  exact Lexeme.rest_of_string read

theorem scan_text_string (value : String) {rest : List Char} (h : rest.head? ≠ some '\'') :
    Lexeme.scan ((Piece.text [.string value]).toList ++ rest) =
      ⟨.token (.string value), (Piece.text [.string value]).toList, rest⟩ := by
  simpa [Piece.text, Piece.chars] using scan_string value.toList h

/-- The next token where a printed string comes first. -/
theorem Lexer.reads_string (value : String) {rest : List Char} (position : Position)
    (h : rest.head? ≠ some '\'') :
    Reads ⟨(Piece.text [.string value]).toList ++ rest, position⟩
      ⟨.string value, Piece.text [.string value], position⟩ rest := by
  simpa only [String.ofList_toList] using reads_of_scan position (scan_text_string value h)

/-- Between the ends of a text, a printed string is all there is. -/
theorem tokenize_string (value : String) :
    tokenize (Piece.text [.string value]) =
      .ok [⟨.string value, Piece.text [.string value], .start⟩,
        .endMark (Token.mk (.string value) (Piece.text [.string value]) .start).behind] := by
  have noQuote : ([] : List Char).head? ≠ some '\'' := by simp
  have read := scan_text_string value noQuote
  rw [List.append_nil] at read
  have found := Lexer.tokens_of_scan .start read (by simp)
  rwa [String.ofList_toList] at found

/-! ### Strings of a statement -/

/-- The string that a datum is. -/
def Datum.string? : Datum → Option String
  | .string value => some value
  | _ => none

/-- Whether a token is a string. -/
def Token.Kind.isString : Token.Kind → Bool
  | .string _ => true
  | _ => false

/-- The token of a string as it is printed. -/
def Spelled.string (value : String) : Spelled := ⟨.string value, Piece.text [.string value]⟩

theorem isString_nameKind (plain : Bool) (name : String) :
    (Piece.nameKind plain name).isString = false := by
  unfold Piece.nameKind Lexeme.wordKind
  split
  · split <;> rfl
  · rfl

/-- Pieces are read as the strings that they print and no others. -/
theorem strings_tokensOf (ps : List Piece) :
    (tokensOf ps).filter (·.kind.isString) =
      ((Piece.data ps).filterMap Datum.string?).map .string := by
  induction ps with
  | nil => rfl
  | cons p ps ih =>
    have other : (p.kind?.all fun k => !k.isString) = true →
        (Piece.data [p]).filterMap Datum.string? = [] →
        (tokensOf (p :: ps)).filter (·.kind.isString) =
          ((Piece.data (p :: ps)).filterMap Datum.string?).map .string := by
      intro noString noDatum
      rw [Piece.data_cons, List.filterMap_append, noDatum, List.nil_append, ← ih]
      cases hk : p.kind? with
      | none => simp [tokensOf, Piece.token?, hk]
      | some k =>
        rw [hk, Option.all_some, Bool.not_eq_true'] at noString
        simp [tokensOf, Piece.token?, hk, noString]
    cases p with
    | string value =>
      have first : tokensOf (.string value :: ps) = .string value :: tokensOf ps := by
        simp [tokensOf, Piece.token?, Piece.kind?, Spelled.string, Piece.text]
      rw [first, Piece.data_string, List.filter_cons_of_pos rfl, ih]
      rfl
    | name | typeName | functionName | label =>
      exact other (by simp [Piece.kind?, isString_nameKind]) rfl
    | placeholder p => cases p <;> exact other rfl rfl
    | _ => exact other rfl rfl

/-- Strings lose nothing.  Where no quote follows, a printed string is read as the string that it holds,
in exactly the characters printed; a string that was read from any literal is read again where it is
printed in the literal's place; and the strings of a statement, be they literals, patterns, comments or
arguments of types, are the strings read from its text, all in order and printed alike. -/
theorem strings_kept :
    (∀ (value rest : String) (position : Position), rest.toList.head? ≠ some '\'' →
      Lexer.Reads ⟨(Piece.text [.string value] ++ rest).toList, position⟩
        ⟨.string value, Piece.text [.string value], position⟩ rest.toList) ∧
    (∀ (lexer lexer' : Lexer) (value raw : String) (position : Position),
      lexer.next = (.ok ⟨.string value, raw, position⟩, lexer') →
      tokenize (Piece.text [.string value]) =
        .ok [⟨.string value, Piece.text [.string value], .start⟩,
          .endMark (Token.mk (.string value) (Piece.text [.string value]) .start).behind] ∧
      Lexer.Reads ⟨(Piece.text [.string value]).toList ++ lexer'.rest, position⟩
        ⟨.string value, Piece.text [.string value], position⟩ lexer'.rest) ∧
    ∀ statement : Statement, (∀ d ∈ statement.data, d.Legible) →
      ∃ tokens, tokenize (sql statement) = .ok tokens ∧
        (tokens.map Token.spelled).filter (·.kind.isString) =
          (statement.data.filterMap Datum.string?).map .string := by
  refine ⟨fun value rest position noQuote => ?_, fun lexer lexer' value raw position read => ?_,
    fun statement legible => ?_⟩
  · rw [String.toList_append]
    exact Lexer.reads_string value position noQuote
  · exact ⟨tokenize_string value, Lexer.reads_string value position (Lexer.rest_of_string read)⟩
  · obtain ⟨tokens, lexed, spelled, -⟩ := tokenize_text (Statement.printable legible)
    refine ⟨tokens, lexed, ?_⟩
    rw [spelled, List.filter_append, strings_tokensOf, statement.data_pieces]
    exact List.append_nil _

/-- A string in front of other text; a literal with escapes, which is printed with doubled signs; and a
pattern. -/
theorem strings_kept_escapes :
    Lexer.Reads ⟨(Piece.text [.string "\\'"] ++ "x'").toList, .start⟩
      ⟨.string "\\'", "'\\\\'''", .start⟩ "x'".toList ∧
    (Lexer.ofText "'it\\'s \\%' x").Reads ⟨.string "it's \\%", "'it\\'s \\%'", .start⟩ [' ', 'x'] ∧
    Lexer.Reads ⟨"'it''s \\\\%'".toList ++ [' ', 'x'], .start⟩
      ⟨.string "it's \\%", "'it''s \\\\%'", .start⟩ [' ', 'x'] ∧
    ∃ tokens, tokenize (sql (Statement.listing (.tables none (some "it's \\%")))) = .ok tokens ∧
      (tokens.map Token.spelled).filter (·.kind.isString) =
        [⟨.string "it's \\%", "'it''s \\\\%'"⟩] := by
  have written : Piece.text [.string "\\'"] = "'\\\\'''" := by decide +kernel
  have canonical : Piece.text [.string "it's \\%"] = "'it''s \\\\%'" := by decide +kernel
  have read : (Lexer.ofText "'it\\'s \\%' x").Reads
      ⟨.string "it's \\%", "'it\\'s \\%'", .start⟩ [' ', 'x'] := by
    unfold Lexer.Reads
    cbv
  obtain ⟨first, again, statements⟩ := strings_kept
  refine ⟨?_, read, ?_, ?_⟩
  · simpa only [written] using first "\\'" "x'" .start (by decide)
  · simpa only [canonical] using (again _ _ _ _ _ read).2
  · have legible :
        ∀ d ∈ (Statement.listing (.tables none (some "it's \\%"))).data, d.Legible := by
      change ∀ d ∈ [Datum.string _], d.Legible
      simp [Datum.Legible]
    obtain ⟨tokens, lexed, strings⟩ := statements _ legible
    refine ⟨tokens, lexed, strings.trans ?_⟩
    rw [← canonical]
    rfl

/-! ### Names -/

/-- Whether `name` is a word of ASCII letters, digits and underscores, no digit first, that the lexer
takes for no keyword. -/
def IsUnreservedWord (name : String) : Prop :=
  (∃ c cs, name.toList = c :: cs ∧ isAsciiNameStart c = true ∧ cs.all isAsciiNamePart = true) ∧
    Keyword.ofWord? name = none

/-- What bisection finds is in the table, whatever the order of its elements. -/
theorem mem_of_bisect {table : Array String} {word : String} {steps low high : Nat}
    (h : bisect table word steps low high = true) : word ∈ table := by
  fun_induction bisect table word steps low high with
  | case1 | case2 | case6 => cases h
  | case3 steps low high inside middle found => exact Array.mem_of_getElem? found
  | case4 _ _ _ _ _ _ _ _ _ ih | case5 _ _ _ _ _ _ _ _ _ ih => exact ih h

/-- The printer's table and the lexer's keywords are the same words, in whichever letters they are
written. -/
theorem isReserved_eq (word : String) : isReserved word = (Keyword.ofWord? word).isSome := by
  have spells : ∀ found ∈ reservedWords, (Keyword.ofText? found).isSome = true := by decide +kernel
  rw [Bool.eq_iff_iff]
  constructor
  · exact fun h => spells _ (mem_of_bisect h)
  · intro h
    obtain ⟨k, spelled⟩ := Option.isSome_iff_exists.1 h
    exact Keyword.isReserved_of_ofWord? spelled

theorem isPlainName_iff {name : String} : isPlainName name = true ↔ IsUnreservedWord name := by
  unfold isPlainName IsUnreservedWord
  cases name.toList with
  | nil => simp
  | cons c cs => simp [isReserved_eq, and_assoc]

instance (name : String) : Decidable (IsUnreservedWord name) :=
  decidable_of_iff _ isPlainName_iff

theorem nameKind_isPlainName (name : String) :
    Piece.nameKind (isPlainName name) name =
      if isPlainName name then .ident name else .quotedIdent name := by
  cases plain : isPlainName name with
  | true => exact wordKind_of_isPlainName plain
  | false => rfl

/-- Names lose nothing and are never taken for keywords.  Where neither a word nor a quote goes on
behind it, a printed name is read as that name in exactly the characters printed, as a bare name if it
is an unreserved word and as a quoted one otherwise; and a word is reserved for the printer just where
the lexer takes it for a keyword. -/
theorem names_kept :
    (∀ (name rest : String) (position : Position),
      rest.toList.head?.all (!isNamePart ·) = true → rest.toList.head? ≠ some '"' →
      Lexer.Reads ⟨(Piece.text [.name name] ++ rest).toList, position⟩
        ⟨if IsUnreservedWord name then .ident name else .quotedIdent name,
          Piece.text [.name name], position⟩ rest.toList) ∧
    ∀ word, isReserved word = (Keyword.ofWord? word).isSome := by
  refine ⟨fun name rest position noPart noQuote => ?_, isReserved_eq⟩
  have chars : (Piece.text [.name name]).toList = Piece.nameChars (isPlainName name) name := by
    simp [Piece.text, Piece.chars]
  have word : isPlainName name = true → WordChars name.toList := wordChars_of_isPlainName
  have read := scan_name word noPart noQuote
  rw [← chars, nameKind_isPlainName] at read
  rw [String.toList_append]
  simpa only [String.ofList_toList, isPlainName_iff] using Lexer.reads_of_scan position read

/-- A word and a reserved word in mixed letters, each in front of other text. -/
theorem names_kept_mixed :
    Lexer.Reads ⟨(Piece.text [.name "total"] ++ ".x").toList, .start⟩
      ⟨.ident "total", "total", .start⟩ ".x".toList ∧
    Lexer.Reads ⟨(Piece.text [.name "oRder"] ++ ".x").toList, .start⟩
      ⟨.quotedIdent "oRder", "\"oRder\"", .start⟩ ".x".toList ∧
    isReserved "oRder" = (Keyword.ofWord? "oRder").isSome := by
  have bare : Piece.text [.name "total"] = "total" := by decide +kernel
  have quoted : Piece.text [.name "oRder"] = "\"oRder\"" := by decide +kernel
  have unreserved : IsUnreservedWord "total" := by decide +kernel
  have reserved : ¬ IsUnreservedWord "oRder" := by decide +kernel
  obtain ⟨first, same⟩ := names_kept
  have read := first "total" ".x" .start (by decide +kernel) (by decide)
  have read' := first "oRder" ".x" .start (by decide +kernel) (by decide)
  rw [bare, if_pos unreserved] at read
  rw [quoted, if_neg reserved] at read'
  exact ⟨read, read', same "oRder"⟩

end CanonicalSql
