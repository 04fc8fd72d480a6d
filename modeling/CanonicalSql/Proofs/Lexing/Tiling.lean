import CanonicalSql.Proofs.Lexing.Run

/-! Lexing tiles a text.  Tokens lie behind one another, each where its own characters stand, and between
them there is nothing but blanks and complete comments.  Where a lexical error ends the reading, the
text before it is tiled in the same way. -/

namespace CanonicalSql

/-! ### Comments -/

/-- The rest of a block comment for a reader that has counted `count` open comments in a word of 32 bits, up
to the delimiter that brings the count to zero. -/
inductive CommentBody : (count : UInt32) → List Char → Prop
  | close {count : UInt32} : count - 1 = 0 → CommentBody count ['*', '/']
  /-- Behind the last number that a word can hold comes zero. -/
  | wrap {count : UInt32} : count + 1 = 0 → CommentBody count ['/', '*']
  | opening {count : UInt32} {cs : List Char} :
      count + 1 ≠ 0 → CommentBody (count + 1) cs → CommentBody count ('/' :: '*' :: cs)
  | closing {count : UInt32} {cs : List Char} :
      count - 1 ≠ 0 → CommentBody (count - 1) cs → CommentBody count ('*' :: '/' :: cs)
  | other {count : UInt32} {c : Char} {cs : List Char} :
      (∀ ds, c :: cs ≠ '/' :: '*' :: ds) → (∀ ds, c :: cs ≠ '*' :: '/' :: ds) →
      CommentBody count cs → CommentBody count (c :: cs)

variable {comment : List Char → Prop}

/-- Whether `cs` is a blank or a complete comment in front of `rest`.  A line comment is complete where
its line or the text ends, and a block comment where its body behind the first delimiter is a `comment`. -/
inductive IsLayout (comment : List Char → Prop) : (cs rest : List Char) → Prop
  | blank {c : Char} {rest : List Char} : isBlank c = true → IsLayout comment [c] rest
  | line {body rest : List Char} :
      '\n' ∉ body → rest = [] ∨ rest.head? = some '\n' → IsLayout comment ('-' :: '-' :: body) rest
  | block {body rest : List Char} : comment body → IsLayout comment ('/' :: '*' :: body) rest

/-- Whether `cs` consists of blanks and complete comments in front of `rest`. -/
inductive Gap (comment : List Char → Prop) : (cs rest : List Char) → Prop
  | nil {rest : List Char} : Gap comment [] rest
  | layout {cs ds rest : List Char} :
      IsLayout comment cs (ds ++ rest) → Gap comment ds rest → Gap comment (cs ++ ds) rest

theorem Gap.mono {other : List Char → Prop} {cs rest : List Char} (h : Gap comment cs rest)
    (weaker : ∀ body, body.length + 2 ≤ cs.length → comment body → other body) : Gap other cs rest := by
  induction h with
  | nil => exact .nil
  | @layout cs ds rest first _ ih =>
    rw [List.length_append] at weaker
    refine .layout ?_ (ih fun body short => weaker body (short.trans (Nat.le_add_left ..)))
    cases first with
    | blank blank => exact .blank blank
    | line inside ends => exact .line inside ends
    | @block body _ complete =>
      exact .block (weaker body (Nat.le_add_right ..) complete)

/-- What is read of a block comment that is closed is the rest of a comment. -/
theorem commentBody_of_closed {count : UInt32} {cs : List Char}
    (h : (BlockComment.scan count cs).closed = true) :
    CommentBody count (BlockComment.scan count cs).read := by
  -- A character in front of which no pair starts starts no pair with what is read behind it.
  have single : ∀ {count : UInt32} {c : Char} {cs : List Char},
      (∀ ds, c = '/' → cs = '*' :: ds → False) → (∀ ds, c = '*' → cs = '/' :: ds → False) →
      CommentBody count (BlockComment.scan count cs).read →
      CommentBody count (c :: (BlockComment.scan count cs).read) := by
    intro count c cs opens closes body
    have all := BlockComment.all_scan count cs
    refine .other (fun ds hd => ?_) (fun ds hd => ?_) body
    · obtain ⟨rfl, read⟩ := List.cons.inj hd
      exact opens _ rfl (by rw [← all, BlockComment.all, read, List.cons_append])
    · obtain ⟨rfl, read⟩ := List.cons.inj hd
      exact closes _ rfl (by rw [← all, BlockComment.all, read, List.cons_append])
  fun_induction BlockComment.scan count cs with
  | case1 => cases h
  | case2 count cs full => exact .wrap full
  | case3 count cs more ih => exact .opening more (ih h)
  | case4 count cs last => exact .close last
  | case5 count cs more ih => exact .closing more (ih h)
  | case6 count c cs opens closes _ ih => exact single opens closes (ih h)
  | case7 count c cs opens closes _ ih =>
    have closed : (BlockComment.scan count cs).closed = true := by
      unfold BlockComment.skip at h
      split at h
      · exact h
      · cases h
    have read : (BlockComment.skip c (BlockComment.scan count cs)).read =
        c :: (BlockComment.scan count cs).read := by
      simp [BlockComment.skip, closed, BlockComment.prepend]
    rw [read]
    exact single opens closes (ih closed)

/-- A block comment is read up to the delimiter that closes it, whatever stands behind it. -/
theorem CommentBody.scan {count : UInt32} {body : List Char} (h : CommentBody count body)
    (rest : List Char) : BlockComment.scan count (body ++ rest) = ⟨true, body, rest⟩ := by
  induction h with
  | close last => simp [BlockComment.scan, last]
  | wrap full => simp [BlockComment.scan, full]
  | opening more _ ih => simp [BlockComment.scan, more, ih, BlockComment.prepend]
  | closing more _ ih => simp [BlockComment.scan, more, ih, BlockComment.prepend]
  | @other count c cs opens closes body ih =>
    obtain ⟨d, ds, rfl⟩ : ∃ d ds, cs = d :: ds := by cases body <;> exact ⟨_, _, rfl⟩
    have opens' : ∀ es, c = '/' → (d :: ds) ++ rest = '*' :: es → False := by
      rintro es rfl he
      exact opens ds (by rw [(List.cons.inj he).1])
    have closes' : ∀ es, c = '*' → (d :: ds) ++ rest = '/' :: es → False := by
      rintro es rfl he
      exact closes ds (by rw [(List.cons.inj he).1])
    rw [List.cons_append, BlockComment.scan.eq_4 _ _ _ opens' closes', ih]
    split
    · rfl
    · simp [BlockComment.skip, BlockComment.prepend]

/-- The layout at the front of a text is a blank or a complete comment. -/
theorem isLayout_of_scan {cs : List Char} (h : (Lexeme.scan cs).content = .layout) :
    IsLayout (CommentBody 1) (Lexeme.scan cs).text (Lexeme.scan cs).rest := by
  have read := Lexeme.front cs
  generalize Lexeme.scan cs = piece at read h
  cases read with
  | finish | number | word => cases h
  | line cs =>
    refine .line (fun line => ?_) ?_
    · simpa using List.all_eq_true.1 List.all_takeWhile _ line
    · have ends := List.head?_dropWhile_not (· != '\n') cs
      cases hr : cs.dropWhile (· != '\n') with
      | nil => exact .inl hr
      | cons c rest =>
        rw [hr] at ends
        exact .inr (by simpa [Lexeme.lineComment, hr] using ends)
  | block cs =>
    simp only [Lexeme.blockComment] at h
    split at h
    · next closed => exact .block (commentBody_of_closed closed)
    · cases h
  | blank cs blank => exact .blank blank
  | string | quotedName | symbol =>
    simp only [Lexeme.string, Lexeme.quotedName, Lexeme.symbol] at h
    split at h <;> cases h
  | question =>
    simp only [Lexeme.question, Lexeme.questionContent] at h
    repeat' split at h
    all_goals cases h
  | colonParameter | dollarParameter =>
    simp only [Lexeme.namedParameter] at h
    split at h <;> cases h

/-! ### Places -/

/-- Whether passing over `cs` leads from `p` to `q`, each character by itself or within a stretch. -/
def Position.Reaches (p : Position) (cs : List Char) (q : Position) : Prop :=
  ∃ ss : List Stride, ss.map Stride.char = cs ∧ q = p.across ss

namespace Position.Reaches

variable {p q r : Position} {cs ds : List Char}

theorem refl (p : Position) : p.Reaches [] p := ⟨[], rfl, rfl⟩

theorem trans (h : p.Reaches cs q) (h' : q.Reaches ds r) : p.Reaches (cs ++ ds) r := by
  obtain ⟨ss, rfl, rfl⟩ := h
  obtain ⟨ts, rfl, rfl⟩ := h'
  exact ⟨ss ++ ts, List.map_append, (across_append p ss ts).symm⟩

theorem offset (h : p.Reaches cs q) : q.offset = p.offset + (String.ofList cs).utf8ByteSize := by
  obtain ⟨ss, rfl, rfl⟩ := h
  exact offset_across p ss

end Position.Reaches

theorem Lexeme.reaches (piece : Lexeme) (p : Position) : p.Reaches piece.text (p.across piece.strides) :=
  ⟨piece.strides, piece.chars_strides, rfl⟩

theorem Token.reaches (t : Token) : t.position.Reaches t.text.toList t.behind :=
  ⟨t.strides, t.kind.chars_strides _, rfl⟩

/-! ### Tiles -/

/-- Whether the text `cs` that starts at `p`, in front of `rest`, consists of the tokens and of gaps
between them, around them and nothing else.  Each token has characters, and its place is where they stand. -/
inductive Tiles (comment : List Char → Prop) :
    (p : Position) → (cs : List Char) → List Token → (rest : List Char) → Prop
  | gap {p : Position} {cs rest : List Char} : Gap comment cs rest → Tiles comment p cs [] rest
  | token {p : Position} {gap cs rest : List Char} {t : Token} {ts : List Token} :
      Gap comment gap (t.text.toList ++ cs ++ rest) → t.kind ≠ .eof → t.text ≠ "" →
      p.Reaches gap t.position → Tiles comment t.behind cs ts rest →
      Tiles comment p (gap ++ (t.text.toList ++ cs)) (t :: ts) rest

namespace Tiles

variable {p q : Position} {cs ds rest : List Char} {ts : List Token}

/-- Layout in front of tiles belongs to their first gap. -/
theorem layout (hl : IsLayout comment cs (ds ++ rest)) (hp : p.Reaches cs q)
    (h : Tiles comment q ds ts rest) : Tiles comment p (cs ++ ds) ts rest := by
  cases h with
  | gap hg => exact .gap (.layout hl hg)
  | @token _ gap cs' _ t ts hg hk ht place h =>
    rw [← List.append_assoc]
    exact .token (.layout (by simpa using hl) hg) hk ht (hp.trans place) h

/-- A token in front of tiles has no gap before it. -/
theorem first {t : Token} (hk : t.kind ≠ .eof) (ht : t.text ≠ "")
    (h : Tiles comment t.behind ds ts rest) :
    Tiles comment t.position (t.text.toList ++ ds) (t :: ts) rest :=
  show Tiles comment t.position ([] ++ (t.text.toList ++ ds)) (t :: ts) rest from
    .token .nil hk ht (.refl _) h

theorem mono {other : List Char → Prop} (h : Tiles comment p cs ts rest)
    (weaker : ∀ body, body.length + 2 ≤ cs.length → comment body → other body) :
    Tiles other p cs ts rest := by
  induction h with
  | gap layout => exact .gap (layout.mono weaker)
  | @token p gap cs rest t ts layout hk ht place _ ih =>
    rw [List.length_append, List.length_append] at weaker
    refine .token (layout.mono fun body short => weaker body (by omega)) hk ht place ?_
    exact ih fun body short => weaker body (by omega)

/-- Each token stands where its characters do. -/
theorem place (h : Tiles comment p cs ts rest) : ∀ t ∈ ts, t.kind ≠ .eof ∧ t.text ≠ "" ∧
    ∃ before behind, cs = before ++ (t.text.toList ++ behind) ∧ p.Reaches before t.position := by
  induction h with
  | gap => simp
  | @token p gap cs rest t ts _ hk ht at_ _ ih =>
    rw [List.forall_mem_cons]
    refine ⟨⟨hk, ht, gap, cs, rfl, at_⟩, fun u hu => ?_⟩
    obtain ⟨mark, some, before, behind, rfl, place⟩ := ih u hu
    exact ⟨mark, some, gap ++ (t.text.toList ++ before), behind, by simp,
      at_.trans (t.reaches.trans place)⟩

/-- Each token starts behind those before it. -/
theorem apart (h : Tiles comment p cs ts rest) : ts.Pairwise fun t u =>
    t.position.offset < u.position.offset ∧
      t.position.offset + t.text.utf8ByteSize ≤ u.position.offset := by
  induction h with
  | gap => exact .nil
  | @token p gap cs rest t ts _ _ ht _ h ih =>
    refine .cons (fun u hu => ?_) ih
    obtain ⟨-, -, before, -, -, place⟩ := h.place u hu
    have some : t.text.utf8ByteSize ≠ 0 := by simpa using ht
    have behind := t.reaches.offset
    rw [String.ofList_toList] at behind
    rw [place.offset, behind]
    omega

end Tiles

namespace Lexer

variable {lexer lexer' : Lexer} {ts : List Token}

/-- The lexer behind a token stands at the place behind it. -/
theorem behind_tokenHere {kind : Token.Kind} (h : (Lexeme.scan lexer.rest).content = .token kind) :
    (lexer.tokenHere kind).behind = lexer.step.position := by
  have strides : (Lexeme.scan lexer.rest).strides = kind.strides (Lexeme.scan lexer.rest).text := by
    unfold Lexeme.strides
    rw [h]
  rw [Token.behind, Token.strides, tokenHere, String.toList_ofList, step, Lexer.behind, strides]

/-- What the lexer passes over is tiled by the tokens that it finds. -/
theorem Passes.tiles (h : Passes lexer ts lexer') : ∃ cs, lexer.rest = cs ++ lexer'.rest ∧
    lexer.position.Reaches cs lexer'.position ∧
      Tiles (CommentBody 1) lexer.position cs ts lexer'.rest := by
  induction h with
  | here => exact ⟨[], rfl, .refl _, .gap .nil⟩
  | @layout lexer lexer' ts read _ ih =>
    obtain ⟨cs, rest, place, tiles⟩ := ih
    have all := Lexeme.all_scan lexer.rest
    have layout := isLayout_of_scan read
    have moved := (Lexeme.scan lexer.rest).reaches lexer.position
    refine ⟨(Lexeme.scan lexer.rest).text ++ cs, ?_, moved.trans place, .layout ?_ moved tiles⟩
    · rw [List.append_assoc, ← rest]
      exact all.symm
    · rw [← rest]
      exact layout
  | @token lexer lexer' kind ts read _ ih =>
    obtain ⟨cs, rest, place, tiles⟩ := ih
    have all := Lexeme.all_scan lexer.rest
    have some := Lexeme.text_ne_nil lexer.rest (by rw [read]; rfl)
    have chars : (lexer.tokenHere kind).text.toList = (Lexeme.scan lexer.rest).text :=
      String.toList_ofList
    have moved := (Lexeme.scan lexer.rest).reaches lexer.position
    refine ⟨(Lexeme.scan lexer.rest).text ++ cs, ?_, moved.trans place, ?_⟩
    · rw [List.append_assoc, ← rest]
      exact all.symm
    · rw [← chars]
      refine .first (t := lexer.tokenHere kind) (Lexeme.kind_ne_eof read) (fun he => some ?_) ?_
      · rw [← chars, he]
        rfl
      · rw [behind_tokenHere read]
        exact tiles

/-- The next token is the piece at the front of what is left behind a gap. -/
theorem gap_of_nextWithin {token : Token} {pieces : Nat}
    (h : nextWithin pieces lexer = (.ok token, lexer')) (noEnd : token.kind ≠ .eof) :
    ∃ (gap : List Char) (here : Lexer), lexer.rest = gap ++ here.rest ∧
      Gap (CommentBody 1) gap here.rest ∧ lexer.position.Reaches gap here.position ∧
      (Lexeme.scan here.rest).content = .token token.kind ∧
      token = here.tokenHere token.kind ∧ lexer' = here.step := by
  induction pieces generalizing lexer with
  | zero =>
    cases h
    exact absurd rfl noEnd
  | succ pieces ih =>
    simp only [nextWithin] at h
    split at h
    · next read =>
      obtain ⟨gap, here, rest, layout, place, found⟩ := ih h
      have all : _ ++ (Lexeme.scan lexer.rest).rest = _ := Lexeme.all_scan lexer.rest
      have rest : (Lexeme.scan lexer.rest).rest = gap ++ here.rest := rest
      refine ⟨(Lexeme.scan lexer.rest).text ++ gap, here, ?_, .layout ?_ layout,
        ((Lexeme.scan lexer.rest).reaches _).trans place, found⟩
      · rw [List.append_assoc, ← rest, all]
      · rw [← rest]
        exact isLayout_of_scan read
    · next kind read =>
      cases h
      exact ⟨[], lexer, rfl, .nil, .refl _, read, rfl, rfl⟩
    · cases h
    · cases h
      exact absurd rfl noEnd

end Lexer

end CanonicalSql
