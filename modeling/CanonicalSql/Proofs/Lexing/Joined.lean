import CanonicalSql.Proofs.Lexing.Place

/-! Texts joined by a line feed.  No piece of a text that ends before the line feed looks behind it, so the
tokens of the first text are found in front of those of the second, which are moved behind the first. -/

namespace CanonicalSql

variable {cs rest : List Char}

/-- What is read in front of a line feed. -/
theorem breaks_lineFeed (rest : List Char) : breaks ('\n' :: rest) = true := rfl

/-- A character in front of the line feed is one of the first text. -/
theorem exists_cons_of_append {d : Char} {ds : List Char} (hd : d ≠ '\n')
    (h : cs ++ '\n' :: rest = d :: ds) : ∃ ds', cs = d :: ds' ∧ ds = ds' ++ '\n' :: rest := by
  cases cs with
  | nil => exact absurd (List.cons.inj h).1.symm hd
  | cons c cs =>
    obtain ⟨rfl, rfl⟩ := List.cons.inj h
    exact ⟨cs, rfl, rfl⟩

namespace StringLiteral

/-- A literal that is closed is read the same in front of a line feed. -/
theorem read?_append {e : Enclosed} (h : read? cs = some e) (rest : List Char) :
    read? (cs ++ '\n' :: rest) = some ⟨e.value, e.read, e.rest ++ '\n' :: rest⟩ := by
  fun_induction read? cs generalizing e with
  | case1 => cases h
  | case2 cs ih =>
    obtain ⟨e', h', rfl⟩ := Option.map_eq_some_iff.1 h
    simp [read?, ih h', Enclosed.prepend]
  | case3 cs single =>
    cases h
    cases cs with
    | nil => rfl
    | cons c cs =>
      have other : c ≠ '\'' := fun hc => single cs (hc ▸ rfl)
      simp_all [read?]
  | case4 => cases h
  | case5 c cs ih =>
    obtain ⟨e', h', rfl⟩ := Option.map_eq_some_iff.1 h
    simp [read?, ih h', Enclosed.prepend]
  | case6 c cs plain closing last escape ih =>
    obtain ⟨e', h', rfl⟩ := Option.map_eq_some_iff.1 h
    have other : c ≠ '\\' := by
      rintro rfl
      cases cs with
      | nil => exact last rfl rfl
      | cons d cs => exact escape d cs rfl rfl
    have single : c ≠ '\'' := closing
    simp [read?, single, other, ih h', Enclosed.prepend]

end StringLiteral

namespace QuotedName

theorem read?_append {quote : Char} (hq : quote ≠ '\n') {e : Enclosed} (h : read? quote cs = some e)
    (rest : List Char) :
    read? quote (cs ++ '\n' :: rest) = some ⟨e.value, e.read, e.rest ++ '\n' :: rest⟩ := by
  fun_induction read? quote cs generalizing e with
  | case1 => cases h
  | case2 =>
    cases h
    simp [read?, hq.symm]
  | case3 cs ih =>
    obtain ⟨e', h', rfl⟩ := Option.map_eq_some_iff.1 h
    simp [read?, ih h', Enclosed.prepend]
  | case4 d cs other =>
    cases h
    simp [read?, other]
  | case5 c cs other ih =>
    obtain ⟨e', h', rfl⟩ := Option.map_eq_some_iff.1 h
    rw [List.cons_append, read?.eq_def]
    simp [other, ih h', Enclosed.prepend]

end QuotedName

/-- A comment that is closed is read the same in front of more characters. -/
theorem BlockComment.scan_append {count : UInt32} (h : (scan count cs).closed = true) (rest : List Char) :
    scan count (cs ++ rest) = ⟨true, (scan count cs).read, (scan count cs).rest ++ rest⟩ := by
  have all : (scan count cs).read ++ (scan count cs).rest = cs := all_scan count cs
  conv_lhs => rw [← all, List.append_assoc]
  exact (commentBody_of_closed h).scan _

namespace Lexeme

/-- The piece in front of a line feed with more behind it. -/
def inFront (piece : Lexeme) (rest : List Char) : Lexeme :=
  ⟨piece.content, piece.text, piece.rest ++ '\n' :: rest⟩

/-- A class without the line feed takes the same characters in front of one. -/
theorem run_lineFeed {p : Char → Bool} (hp : p '\n' = false) (cs rest : List Char) :
    (cs ++ '\n' :: rest).takeWhile p = cs.takeWhile p ∧
      (cs ++ '\n' :: rest).dropWhile p = cs.dropWhile p ++ '\n' :: rest := by
  have stops : ('\n' :: rest).head?.all (!p ·) = true := by simp [hp]
  exact Prod.mk.inj (Number.run_append cs stops)

/-- No symbol has a line feed. -/
theorem atFront?_append (cs rest : List Char) :
    Symbol.atFront? (cs ++ '\n' :: rest) = Symbol.atFront? cs := by
  have without : ∀ (xs cs : List Char), '\n' ∉ xs →
      xs.isPrefixOf (cs ++ '\n' :: rest) = xs.isPrefixOf cs := by
    intro xs
    induction xs with
    | nil => simp
    | cons x xs ih =>
      intro cs hx
      rw [List.mem_cons, not_or] at hx
      cases cs with
      | nil => simp [List.isPrefixOf, Ne.symm hx.1]
      | cons c cs => simp [List.isPrefixOf, ih cs hx.2]
  have none : ∀ s : Symbol, '\n' ∉ s.chars := by
    rintro (_ | _) <;> decide
  unfold Symbol.atFront?
  congr 1
  funext s
  exact without s.chars cs (none s)

theorem startsAt_append (c : Char) (cs rest : List Char) :
    Number.startsAt (c :: (cs ++ '\n' :: rest)) = Number.startsAt (c :: cs) := by
  cases cs with
  | nil => simp [Number.startsAt]
  | cons d cs => rfl

/-! Each kind of piece is read the same in front of a line feed, unless it is a fault. -/

theorem lineComment_append (cs rest : List Char) :
    lineComment (cs ++ '\n' :: rest) = (lineComment cs).inFront rest := by
  obtain ⟨taken, left⟩ := run_lineFeed (p := (· != '\n')) rfl cs rest
  simp only [lineComment, inFront, taken, left]

theorem blockComment_append (h : (blockComment cs).content.isPiece = true) (rest : List Char) :
    blockComment (cs ++ '\n' :: rest) = (blockComment cs).inFront rest := by
  have closed : (BlockComment.scan 1 cs).closed = true := by
    simp only [blockComment] at h
    split at h
    · next closed => exact closed
    · cases h
  simp only [blockComment, inFront, BlockComment.scan_append closed, closed]

theorem string_append (h : (string cs).content.isPiece = true) (rest : List Char) :
    string (cs ++ '\n' :: rest) = (string cs).inFront rest := by
  unfold string at h
  split at h
  · next e found => simp only [string, StringLiteral.read?_append found, found, inFront]
  · cases h

theorem quotedName_append {quote : Char} (hq : quote ≠ '\n')
    (h : (quotedName quote cs).content.isPiece = true) (rest : List Char) :
    quotedName quote (cs ++ '\n' :: rest) = (quotedName quote cs).inFront rest := by
  unfold quotedName at h
  split at h
  · next e found => simp only [quotedName, QuotedName.read?_append hq found, found, inFront]
  · cases h

theorem number_append (cs rest : List Char) :
    number (cs ++ '\n' :: rest) = (number cs).inFront rest := by
  simp only [number, Number.split_append cs (breaks_lineFeed rest), inFront]

theorem word_append (cs rest : List Char) : word (cs ++ '\n' :: rest) = (word cs).inFront rest := by
  obtain ⟨taken, left⟩ := run_lineFeed (p := isNamePart) rfl cs rest
  simp only [word, inFront, taken, left]

theorem question_append (cs rest : List Char) :
    question (cs ++ '\n' :: rest) = (question cs).inFront rest := by
  obtain ⟨taken, left⟩ := run_lineFeed (p := Char.isDigit) rfl cs rest
  simp only [question, inFront, taken, left]

theorem namedParameter_append {sigil : Char} {kind : String → Token.Kind} (cs rest : List Char) :
    namedParameter sigil kind (cs ++ '\n' :: rest) = (namedParameter sigil kind cs).inFront rest := by
  obtain ⟨taken, left⟩ := run_lineFeed (p := isNamePart) rfl cs rest
  simp only [namedParameter, taken, left]
  split <;> rfl

theorem symbol_append (c : Char) (cs rest : List Char) :
    symbol c (cs ++ '\n' :: rest) = (symbol c cs).inFront rest := by
  have front := atFront?_append (c :: cs) rest
  rw [List.cons_append] at front
  simp only [symbol, front]
  split
  · next s found =>
    have whole := congrArg List.length (Symbol.append_of_atFront? found)
    rw [List.length_append] at whole
    have inside : s.chars.length ≤ (c :: cs).length := by omega
    rw [← List.cons_append, List.drop_append_of_le_length inside]
    rfl
  · rfl

/-- A piece that is no fault is read the same in front of a line feed. -/
theorem scan_append (h : (scan cs).content.isPiece = true) (rest : List Char) :
    scan (cs ++ '\n' :: rest) = (scan cs).inFront rest := by
  cases cs with
  | nil => cases h
  | cons c cs =>
    by_cases line : ∃ ds, c :: cs = '-' :: '-' :: ds
    · obtain ⟨ds, hd⟩ := line
      cases hd
      exact lineComment_append ds rest
    by_cases block : ∃ ds, c :: cs = '/' :: '*' :: ds
    · obtain ⟨ds, hd⟩ := block
      cases hd
      exact blockComment_append h rest
    have line' : ∀ ds, c :: (cs ++ '\n' :: rest) ≠ '-' :: '-' :: ds := fun ds hd => by
      obtain ⟨rfl, behind⟩ := List.cons.inj hd
      obtain ⟨ds', rfl, -⟩ := exists_cons_of_append (by decide) behind
      exact line ⟨ds', rfl⟩
    have block' : ∀ ds, c :: (cs ++ '\n' :: rest) ≠ '/' :: '*' :: ds := fun ds hd => by
      obtain ⟨rfl, behind⟩ := List.cons.inj hd
      obtain ⟨ds', rfl, -⟩ := exists_cons_of_append (by decide) behind
      exact block ⟨ds', rfl⟩
    rw [scan_cons (fun ds hd => line ⟨ds, hd⟩) fun ds hd => block ⟨ds, hd⟩] at h ⊢
    rw [List.cons_append, scan_cons line' block', startsAt_append]
    split_ifs at h ⊢ with blank quote name number start question colon dollar
    · rfl
    · exact string_append h rest
    · refine quotedName_append ?_ h rest
      rintro rfl
      exact blank rfl
    · exact number_append (c :: cs) rest
    · exact word_append (c :: cs) rest
    · exact question_append cs rest
    · exact namedParameter_append cs rest
    · exact namedParameter_append cs rest
    · exact symbol_append c cs rest

end Lexeme

/-! ### Texts behind others -/

/-- A place, if its text stands behind one of so many lines and bytes that ends with a line feed. -/
def Position.moved (lines bytes : Nat) (p : Position) : Position :=
  ⟨p.line + .ofNat lines, p.column, p.offset + bytes⟩

/-- A token, if its text stands behind another. -/
def Token.moved (lines bytes : Nat) (t : Token) : Token :=
  { t with position := t.position.moved lines bytes }

/-- A lexical error, if its text stands behind another. -/
def LexError.moved (lines bytes : Nat) (e : LexError) : LexError :=
  { e with position := e.position.moved lines bytes }

/-- A lexer, if its text stands behind another. -/
def Lexer.moved (lines bytes : Nat) (lexer : Lexer) : Lexer :=
  ⟨lexer.rest, lexer.position.moved lines bytes⟩

section

variable {lines bytes : Nat}

theorem Position.stride_moved (p : Position) (s : Stride) :
    (p.moved lines bytes).stride s = (p.stride s).moved lines bytes := by
  have line : p.line + UInt32.ofNat lines + 1 = p.line + 1 + UInt32.ofNat lines := by
    rw [UInt32.add_assoc, UInt32.add_comm (UInt32.ofNat lines), ← UInt32.add_assoc]
  cases s with
  | alone c => by_cases feed : c = '\n' <;> simp [stride, advance, moved, feed, line, Nat.add_right_comm]
  | within c =>
    by_cases feed : c = '\n'
    · simp [stride, leap, moved, feed, line, Nat.add_right_comm]
    · by_cases last : p.column = lastNumber <;>
        simp [stride, leap, moved, feed, last, Nat.add_right_comm]

theorem Position.across_moved (p : Position) (ss : List Stride) :
    (p.moved lines bytes).across ss = (p.across ss).moved lines bytes := by
  induction ss generalizing p with
  | nil => rfl
  | cons s ss ih => rw [across_cons, stride_moved, ih, across_cons]

/-- Each line feed that is passed over starts a line. -/
theorem Position.line_across (p : Position) (ss : List Stride) :
    (p.across ss).line = p.line + .ofNat ((ss.map Stride.char).count '\n') := by
  induction ss generalizing p with
  | nil => simp
  | cons s ss ih =>
    rw [across_cons, ih, List.map_cons, List.count_cons, UInt32.ofNat_add, UInt32.add_comm (.ofNat _),
      ← UInt32.add_assoc]
    congr 1
    cases s <;> simp only [stride, advance, leap, Stride.char] <;> split
    all_goals simp_all

namespace Lexer

variable {lexer lexer' : Lexer} {ts : List Token}

theorem Passes.moved (h : Passes lexer ts lexer') :
    Passes (lexer.moved lines bytes) (ts.map (Token.moved lines bytes)) (lexer'.moved lines bytes) := by
  have step : ∀ lexer : Lexer, (lexer.moved lines bytes).step = lexer.step.moved lines bytes :=
    fun lexer => congrArg (Lexer.mk _) (Position.across_moved _ _)
  induction h with
  | here => exact .here
  | layout read _ ih => exact .layout read (step _ ▸ ih)
  | token read _ ih => exact .token read (step _ ▸ ih)

/-- The tokens of a text that stands behind another are those of the text alone, moved. -/
theorem tokens_moved (lexer : Lexer) : (lexer.moved lines bytes).tokens =
    match lexer.tokens with
    | .ok tokens => .ok (tokens.map (Token.moved lines bytes))
    | .error e => .error (e.moved lines bytes) := by
  obtain ⟨ts, lexer', passes, ended | ⟨fault, read⟩⟩ := exists_passes lexer
  · have ended' : (Lexeme.scan (lexer'.moved lines bytes).rest).content = .finish := ended
    rw [passes.tokens, passes.moved.tokens, tokens_of_finish ended, tokens_of_finish ended']
    simp [Except.map, Token.moved, Token.endMark, Lexer.moved]
  · have read' : (Lexeme.scan (lexer'.moved lines bytes).rest).content = .fault fault := read
    rw [passes.tokens, passes.moved.tokens, tokens_of_fault read, tokens_of_fault read']
    rfl

/-- The tokens in front of a line feed are found as if the text ended there. -/
theorem Passes.inFront (h : Passes lexer ts lexer') (rest : List Char) :
    Passes ⟨lexer.rest ++ '\n' :: rest, lexer.position⟩ ts
      ⟨lexer'.rest ++ '\n' :: rest, lexer'.position⟩ := by
  have piece : ∀ lexer : Lexer, (Lexeme.scan lexer.rest).content.isPiece = true →
      Lexeme.scan (lexer.rest ++ '\n' :: rest) = (Lexeme.scan lexer.rest).inFront rest :=
    fun _ read => Lexeme.scan_append read rest
  have step : ∀ lexer : Lexer, (Lexeme.scan lexer.rest).content.isPiece = true →
      step ⟨lexer.rest ++ '\n' :: rest, lexer.position⟩ =
        ⟨lexer.step.rest ++ '\n' :: rest, lexer.step.position⟩ := fun lexer read => by
    simp only [Lexer.step, behind, piece lexer read]
    rfl
  induction h with
  | here => exact .here
  | @layout lexer lexer' ts read _ ih =>
    have piece' : (Lexeme.scan lexer.rest).content.isPiece = true := by rw [read]; rfl
    refine .layout (by simp [piece lexer piece', Lexeme.inFront, read]) ?_
    rw [step lexer piece']
    exact ih
  | @token lexer lexer' kind ts read _ ih =>
    have piece' : (Lexeme.scan lexer.rest).content.isPiece = true := by rw [read]; rfl
    have same := piece lexer piece'
    have first : lexer.tokenHere kind =
        tokenHere ⟨lexer.rest ++ '\n' :: rest, lexer.position⟩ kind := by
      simp only [tokenHere, same, Lexeme.inFront]
    rw [first]
    refine .token (by simp [same, Lexeme.inFront, read]) ?_
    rw [step lexer piece']
    exact ih

/-- What stands between two texts is a semicolon on a line of its own. -/
theorem passes_separator (cs : List Char) (p : Position) :
    Passes ⟨'\n' :: ';' :: '\n' :: cs, p⟩ [⟨.symbol .semicolon, ";", p.advance '\n'⟩]
      ⟨cs, ⟨p.line + 2, 1, p.offset + 3⟩⟩ := by
  have feed : ∀ cs p, step ⟨'\n' :: cs, p⟩ = ⟨cs, p.advance '\n'⟩ := fun _ _ => rfl
  have semicolon : ∀ cs, Lexeme.scan (';' :: cs) = ⟨.token (.symbol .semicolon), [';'], cs⟩ :=
    fun cs => scan_symbol (show (Piece.symbol .semicolon).endsBefore cs from trivial)
  have passed : ∀ p, step ⟨';' :: '\n' :: cs, p⟩ = ⟨'\n' :: cs, p.advance ';'⟩ := fun p => by
    simp only [step, behind, semicolon]
    rfl
  have here : tokenHere ⟨';' :: '\n' :: cs, p.advance '\n'⟩ (.symbol .semicolon) =
      ⟨.symbol .semicolon, ";", p.advance '\n'⟩ := by
    simp only [tokenHere, semicolon]
  refine .layout rfl ?_
  rw [feed, ← here]
  refine .token (by rw [semicolon]) ?_
  rw [passed]
  refine .layout rfl ?_
  rw [feed]
  have behind : ((p.advance '\n').advance ';').advance '\n' = ⟨p.line + 2, 1, p.offset + 3⟩ := by
    simp only [Position.advance, reduceIte, Char.reduceEq, UInt32.add_assoc]
    rfl
  exact behind ▸ .here

end Lexer

variable {first : String} {ts : List Token} {mark : Token}

/-- The tokens of two texts with a semicolon on a line of its own between them: those of the first one up
to its end, the semicolon, and those of the second one behind it. -/
theorem tokenize_append (second : String) (h : tokenize first = .ok (ts ++ [mark])) :
    ∃ semicolon : Token, semicolon.kind = .symbol .semicolon ∧
      tokenize (first ++ "\n;\n" ++ second) =
        match tokenize second with
        | .ok us => .ok (ts ++ semicolon :: us.map
            (Token.moved (first.toList.count '\n' + 2) (first.utf8ByteSize + 3)))
        | .error e =>
            .error (e.moved (first.toList.count '\n' + 2) (first.utf8ByteSize + 3)) := by
  obtain ⟨ts', lexer, passes, ended, all⟩ := Lexer.passes_of_tokens h
  obtain ⟨rfl, -⟩ := List.append_inj' all rfl
  obtain ⟨cs, whole, place, -⟩ := passes.tiles
  rw [ended, List.append_nil] at whole
  obtain rfl : first.toList = cs := whole
  have front := passes.inFront (';' :: '\n' :: second.toList)
  obtain ⟨ss, chars, behind⟩ := place
  have start : ⟨lexer.position.line + 2, 1, lexer.position.offset + 3⟩ =
      Position.start.moved (first.toList.count '\n' + 2) (first.utf8ByteSize + 3) := by
    have line := Position.line_across .start ss
    have offset := Position.offset_across .start ss
    rw [chars] at line offset
    change lexer.position = Position.start.across ss at behind
    rw [behind, line, offset, String.ofList_toList, Position.moved, UInt32.ofNat_add, UInt32.add_assoc]
    simp [Position.start]
  have between : Lexer.Passes ⟨lexer.rest ++ '\n' :: ';' :: '\n' :: second.toList, lexer.position⟩
      [⟨.symbol .semicolon, ";", lexer.position.advance '\n'⟩]
      ((Lexer.ofText second).moved (first.toList.count '\n' + 2) (first.utf8ByteSize + 3)) := by
    rw [ended, List.nil_append, Lexer.moved, Lexer.ofText, ← start]
    exact Lexer.passes_separator second.toList lexer.position
  have text : Lexer.ofText (first ++ "\n;\n" ++ second) =
      ⟨first.toList ++ '\n' :: ';' :: '\n' :: second.toList, .start⟩ := by
    simp [Lexer.ofText]
  refine ⟨⟨.symbol .semicolon, ";", lexer.position.advance '\n'⟩, rfl, ?_⟩
  rw [tokenize, text]
  refine (front.trans between).tokens.trans ?_
  rw [Lexer.tokens_moved, tokenize]
  cases (Lexer.ofText second).tokens <;> simp [Except.map]

end

end CanonicalSql
