import CanonicalSql.Proofs.Reading.Token

/-! Reading back names, lists with commas, and short phrases. -/

namespace CanonicalSql

/-! ### Names as tokens -/

theorem kind_writtenName {plain : Bool} {name : String} (h : plain = true → isPlainName name = true) :
    (writtenName plain name).kind = .ident name ∨
      (writtenName plain name).kind = .quotedIdent name := by
  cases plain with
  | true => exact .inl (wordKind_of_isPlainName (h rfl))
  | false => exact .inr rfl

theorem name?_writtenName {plain : Bool} {name : String}
    (h : plain = true → isPlainName name = true) :
    (writtenName plain name).kind.name? = some name := by
  rcases kind_writtenName h with hk | hk <;> rw [hk] <;> rfl

@[simp] theorem name?_nameToken (name : String) : (nameToken name).kind.name? = some name :=
  name?_writtenName id

@[simp] theorem name?_typeNameToken (name : String) :
    (typeNameToken name).kind.name? = some name :=
  name?_writtenName fun h => (Bool.and_eq_true _ _ ▸ h).1

/-- No keyword and no symbol admits a name. -/
theorem admits_of_name? {t : Terminal} {k : Token.Kind} {name : String} (h : k.name? = some name)
    (ht : t.isWord = false) : t.admits k = false := by
  cases t with
  | word w => cases ht
  | keyword _ | symbol _ => cases k <;> first | rfl | cases h

/-- A name of a function is read as a name, or as a keyword that names functions and is written as
the name is. -/
theorem kind_functionNameToken (name : String) :
    (functionNameToken name).kind.name? = some name ∨
      ∃ k, k.namesFunction = true ∧ functionNameToken name = ⟨.keyword k, name⟩ := by
  by_cases plain : isPlainName name = true
  · left
    exact name?_writtenName fun _ => plain
  by_cases word : isFunctionKeyword name = true
  · right
    unfold isFunctionKeyword at word
    cases hk : Keyword.ofWord? name with
    | none => simp [hk] at word
    | some k =>
      rw [hk] at word
      refine ⟨k, word, ?_⟩
      have function : isFunctionKeyword name = true := by rw [isFunctionKeyword, hk]; exact word
      simp [functionNameToken, writtenName, function, Piece.nameKind, Piece.nameChars,
        Lexeme.wordKind, hk]
  · left
    exact name?_writtenName fun h => by simp_all

/-- A label is read as a name, or as a keyword that is written as the label is. -/
theorem kind_labelToken (name : String) :
    (labelToken name).kind = .ident name ∨ (labelToken name).kind = .quotedIdent name ∨
      ∃ k, labelToken name = ⟨.keyword k, name⟩ := by
  cases word : isPlainName name || isWord name with
  | false => exact .inr (.inl (by simp [labelToken, writtenName, word, Piece.nameKind]))
  | true =>
    cases hk : Keyword.ofWord? name with
    | none =>
      exact .inl (by simp [labelToken, writtenName, word, Piece.nameKind, Lexeme.wordKind, hk])
    | some k =>
      refine .inr (.inr ⟨k, ?_⟩)
      simp [labelToken, writtenName, word, Piece.nameKind, Piece.nameChars, Lexeme.wordKind, hk]

namespace Parse

open Keyword Word CanonicalSql.Symbol

variable {α : Type} {n : ℕ∞} {s r : List Spelled}

/-! ### Lists -/

/-- What can follow an item of a list with commas in front of `r`. -/
def AfterItem (r r' : List Spelled) : Prop :=
  r' = r ∨ ∃ s, r' = (Terminal.symbol .comma).spelled :: s

theorem length_le_flatMap_cons {α : Type} (as : List α) (t : Spelled) (tok : α → List Spelled) :
    as.length ≤ (as.flatMap fun a => t :: tok a).length := by
  induction as with
  | nil => simp
  | cons a as ih =>
    simp only [List.flatMap_cons, List.length_append, List.length_cons]
    omega

/-- The levels of a list are those of its items. -/
theorem Reads.commaItems {item : Parse α} {tok : α → List Spelled} {levels : α → ℕ∞}
    {as : List α} (count : Nat) (enough : as.length ≤ count)
    (h : ∀ a ∈ as, ∀ r', AfterItem r r' → item.Reads (levels a) (tok a ++ r') a r')
    (hr : (Terminal.symbol .comma).admits (kindAt r 0) = false) :
    (commaItems item count).Reads (greatest levels as)
      (as.flatMap (fun a => (Terminal.symbol .comma).spelled :: tok a) ++ r) as r := by
  induction as generalizing count with
  | nil =>
    cases count with
    | zero => exact .pure [] r
    | succ count => exact .rejected hr (.pure [] r)
  | cons a as ih =>
    obtain ⟨count, rfl⟩ : ∃ m, count = m + 1 := ⟨count - 1, by simp at enough; omega⟩
    have others := ih count (by simpa using enough) fun b hb => h b (by simp [hb])
    have after : AfterItem r
        (as.flatMap (fun a => (Terminal.symbol .comma).spelled :: tok a) ++ r) := by
      cases as with
      | nil => exact .inl rfl
      | cons b as => exact .inr ⟨_, rfl⟩
    have first := h a (by simp) _ after
    simp only [List.flatMap_cons, List.cons_append, List.append_assoc]
    refine .accepted (by simp) ?_
    exact first.bind (others.last (.pure _ r))

/-- A list with commas between its items is read item by item. -/
theorem Reads.commaList {item : Parse α} {pieces : α → List Piece} {levels : α → ℕ∞}
    {as : List α} (some : as ≠ [])
    (h : ∀ a ∈ as, ∀ r', AfterItem r r' →
      item.Reads (levels a) (tokensOf (pieces a) ++ r') a r')
    (hr : (Terminal.symbol .comma).admits (kindAt r 0) = false) :
    (commaList item).Reads (greatest levels as)
      (tokensOf (Piece.commas (as.map pieces)) ++ r) as r := by
  obtain ⟨a, as, rfl⟩ := List.exists_cons_of_ne_nil some
  have after : AfterItem r (as.flatMap (fun a =>
      (Terminal.symbol .comma).spelled :: tokensOf (pieces a)) ++ r) := by
    cases as with
    | nil => exact .inl rfl
    | cons b as => exact .inr ⟨_, rfl⟩
  have first := h a (by simp) _ after
  rw [List.map_cons, tokensOf_commas, List.append_assoc, List.flatMap_map]
  refine first.bind (.next (reads_remaining _) (.last (.commaItems _ ?_ ?_ hr) (.pure _ r)))
  · rw [List.length_append]
    have commas := length_le_flatMap_cons as (Terminal.symbol .comma).spelled
      fun a => tokensOf (pieces a)
    omega
  · exact fun b hb => h b (by simp [hb])

theorem Reads.commaListUpTo {c : Symbol} {item : Parse α} {pieces : α → List Piece}
    {levels : α → ℕ∞} {as : List α}
    (h : ∀ a ∈ as, ∀ r', AfterItem r r' →
      item.Reads (levels a) (tokensOf (pieces a) ++ r') a r')
    (hr : (Terminal.symbol .comma).admits (kindAt r 0) = false)
    (hc : (Terminal.symbol c).admits (kindAt r 0) = true)
    (ha : ∀ a ∈ as, ∀ s, (Terminal.symbol c).admits (kindAt (tokensOf (pieces a) ++ s) 0) =
      false) :
    (commaListUpTo c item).Reads (greatest levels as)
      (tokensOf (Piece.commas (as.map pieces)) ++ r) as r := by
  cases as with
  | nil => exact .seen hc (.pure [] r)
  | cons a as =>
    refine .unseen ?_ (.commaList (by simp) h hr)
    rw [List.map_cons, tokensOf_commas, List.append_assoc]
    exact ha a (by simp) _

/-! ### Names -/

theorem reads_identifier {t : Spelled} {name : String} (h : t.kind.name? = some name)
    (s : List Spelled) : identifier.Reads 0 (t :: s) name s := by
  unfold identifier
  refine (reads_peek (t :: s)).next ?_
  rw [kindAt_cons_zero, h]
  exact (reads_discard_advance t s).next (.pure name s)

/-- A name with or without a database. -/
theorem reads_qualifiedName (n : QualifiedName) {r : List Spelled}
    (hr : (Terminal.symbol dot).admits (kindAt r 0) = false) :
    qualifiedName.Reads 0 (tokensOf n.pieces ++ r) n r := by
  obtain ⟨database, name⟩ := n
  unfold qualifiedName
  cases database with
  | none =>
    simp only [QualifiedName.pieces, tokensOf_name, tokensOf_nil, List.cons_append, List.nil_append]
    refine (reads_identifier (name?_nameToken name) r).next ?_
    exact .rejected hr (.pure _ r)
  | some database =>
    simp only [QualifiedName.pieces, tokensOf_name, tokensOf_symbol, tokensOf_nil,
      List.cons_append, List.nil_append]
    refine (reads_identifier (name?_nameToken database) _).next ?_
    refine .accepted (Terminal.admits_self _) ?_
    exact (reads_identifier (name?_nameToken name) r).next (.pure _ r)

theorem reads_label (name : String) (expected : Expectation) (s : List Spelled) :
    (label expected).Reads 0 (labelToken name :: s) name s := by
  unfold label
  refine .current fun token ht => ?_
  rcases kind_labelToken name with hk | hk | ⟨k, hk⟩
  · have kind : token.kind = .ident name := by rw [← hk, ← ht]; rfl
    rw [kind]
    exact (reads_discard_advance _ s).next (.pure name s)
  · have kind : token.kind = .quotedIdent name := by rw [← hk, ← ht]; rfl
    rw [kind]
    exact (reads_discard_advance _ s).next (.pure name s)
  · obtain ⟨kind, text⟩ : token.kind = .keyword k ∧ token.text = name := by
      rw [hk] at ht
      exact ⟨congrArg Spelled.kind ht, congrArg Spelled.text ht⟩
    rw [kind, text]
    exact (reads_discard_advance _ s).next (.pure name s)

theorem reads_stringLiteral (v : String) (expected : Expectation) (s : List Spelled) :
    (stringLiteral expected).Reads 0 (stringToken v :: s) v s := by
  unfold stringLiteral
  refine (reads_peek _).next ?_
  exact (reads_discard_advance _ s).next (.pure v s)

/-- A printed alias always has its `AS`; without one, no name may follow. -/
theorem reads_aliasName (a : Option String) {r : List Spelled}
    (hr : a = none → (Terminal.keyword AS).admits (kindAt r 0) = false ∧
      (kindAt r 0).name? = none) :
    aliasName.Reads 0 (tokensOf (Piece.aliasClause a) ++ r) a r := by
  unfold aliasName
  cases a with
  | none =>
    obtain ⟨word, name⟩ := hr rfl
    refine .rejected word ((reads_peek r).next ?_)
    rw [name]
    exact .pure none r
  | some a =>
    simp only [Piece.aliasClause, tokensOf_clause, tokensOf_keyword, tokensOf_name, tokensOf_nil,
      List.cons_append, List.nil_append]
    refine .accepted (Terminal.admits_self _) ?_
    exact (reads_identifier (name?_nameToken a) r).next (.pure _ r)

/-- Names between parentheses. -/
theorem reads_nameList {ns : List String} (some : ns ≠ []) (r : List Spelled) :
    nameList.Reads 0 (tokensOf (Piece.parens (Piece.names ns)) ++ r) ns r := by
  rw [tokensOf_parens, List.cons_append, List.append_assoc]
  refine .between (Terminal.admits_self _) (Terminal.admits_self _) ?_
  refine .cast (.commaList some (fun n _ r' _ => ?_) (by simp)) (greatest_zero ns)
  exact reads_identifier (name?_nameToken n) r'

/-- Names between parentheses, if there are any. -/
theorem reads_optionalNameList (ns : List String) {r : List Spelled}
    (hr : ns = [] → (Terminal.symbol leftParen).admits (kindAt r 0) = false) :
    optionalNameList.Reads 0 (tokensOf (Piece.nameList ns) ++ r) ns r := by
  unfold optionalNameList
  cases ns with
  | nil => exact .unseen (hr rfl) (.pure [] r)
  | cons n ns =>
    have printed : Piece.nameList (n :: ns) = .space :: Piece.parens (Piece.names (n :: ns)) := rfl
    rw [printed, tokensOf_space]
    exact .seen (by simp) (reads_nameList (by simp) r)

/-! ### Phrases -/

/-- Whether the terminals follow one another among the tokens, from place `n` on. -/
def admitsAll (s : List Spelled) : (ts : List Terminal) → (n : Nat) → Bool
  | [], _ => true
  | t :: ts, n => t.admits (kindAt s n) && admitsAll s ts (n + 1)

theorem reads_seesAllAt (ts : List Terminal) (n : Nat) (s : List Spelled) :
    (seesAllAt n ts).Reads 0 s (admitsAll s ts n) s := by
  induction ts generalizing n with
  | nil => exact .pure true s
  | cons t ts ih =>
    unfold seesAllAt admitsAll
    refine (reads_seesAt n t s).next ?_
    cases t.admits (kindAt s n) with
    | true => simpa using ih (n + 1)
    | false => exact .pure false s

theorem admitsAll_spelled (ts : List Terminal) (us s : List Spelled) :
    admitsAll (us ++ (ts.map Terminal.spelled ++ s)) ts us.length = true := by
  induction ts generalizing us with
  | nil => rfl
  | cons t ts ih =>
    have first : kindAt (us ++ (t.spelled :: (ts.map Terminal.spelled ++ s))) us.length =
        t.spelled.kind := by
      simp [kindAt]
    have others := ih (us ++ [t.spelled])
    rw [List.append_assoc, List.length_append] at others
    simpa [admitsAll, first] using others

theorem reads_acceptAll (ts : List Terminal) (s : List Spelled) :
    (acceptAll ts).Reads 0 (ts.map Terminal.spelled ++ s) true s := by
  have all := admitsAll_spelled ts [] s
  refine .next (reads_seesAllAt ts 0 _) ?_
  rw [List.nil_append] at all
  rw [show admitsAll (ts.map Terminal.spelled ++ s) ts 0 = true from all, if_pos rfl]
  have skipped := reads_skip (ts.map Terminal.spelled) s
  rw [List.length_map] at skipped
  exact skipped.next (.pure true s)

theorem reads_acceptAll_none {ts : List Terminal} {s : List Spelled}
    (h : admitsAll s ts 0 = false) : (acceptAll ts).Reads 0 s false s := by
  refine .next (reads_seesAllAt ts 0 s) ?_
  rw [h]
  exact .pure false s

end Parse

end CanonicalSql
