import CanonicalSql.Proofs.Reading.Definition

/-! Reading back the statements that alter, remove and rename objects. -/

namespace CanonicalSql

open Keyword Word CanonicalSql.Symbol

namespace Grammar

open Parse

variable {g : Grammar} {size : Nat} {r s : List Spelled} {ts : List Terminal}

/-! ### Actions on tables -/

/-- What can follow an action on a table. -/
def actionEnds : List Terminal := [comma, semicolon]

theorem begins_columnPlace (hr : Begins actionEnds r) (place : Option ColumnPlace) :
    Begins (columnEnds true) (tokensOf (ColumnPlace.clause place) ++ r) := by
  rcases place with _ | _ | column
  · exact hr.mono (by decide)
  · simp only [ColumnPlace.clause, tokensOf_behind, tokensOf_word]
    exact .cons (by decide) _
  · simp only [ColumnPlace.clause, tokensOf_behind, tokensOf_word]
    exact .cons (by decide) _

theorem reads_columnPlace (place : Option ColumnPlace) (hr : Begins actionEnds r) :
    columnPlace.Reads 0 (tokensOf (ColumnPlace.clause place) ++ r) place r := by
  unfold Grammar.columnPlace
  rcases place with _ | _ | column
  · exact .rejected (hr.admits (by decide)) (.rejected (hr.admits (by decide)) (.pure _ r))
  · simp only [ColumnPlace.clause, tokensOf_behind, tokensOf_word, tokensOf_nil, List.cons_append,
      List.nil_append]
    exact .accepted (Terminal.admits_self FIRST) (.pure _ r)
  · simp only [ColumnPlace.clause, tokensOf_behind, tokensOf_word, tokensOf_name, tokensOf_nil,
      List.cons_append, List.nil_append]
    refine .rejected (by simp) (.accepted (Terminal.admits_self AFTER) ?_)
    exact (reads_identifier (name?_nameToken column) r).next (.pure _ r)

/-- A column that is named `IF` is not taken for the phrase `IF NOT EXISTS`: behind its name there
is no `NOT` but in `NOT NULL`. -/
theorem admitsAll_ifNotExists {beforePlace : Bool} (c : ColumnDefinition)
    (hr : Begins (columnEnds beforePlace) r) :
    admitsAll (tokensOf c.pieces ++ r) [.word IF, .keyword NOT, .keyword EXISTS] 0 = false := by
  obtain ⟨name, type, options⟩ := c
  rw [tokensOf_columnDefinition, List.cons_append, List.append_assoc]
  have after := afterOptions options hr
  cases type with
  | some type =>
    obtain ⟨type, args⟩ := type
    refine admitsAll_second ?_
    rw [typeTokens, DataType.pieces, tokensOf_typeName]
    exact admits_of_name? (name?_typeNameToken type) rfl
  | none =>
    rcases after with after | ⟨s, after⟩
    · exact admitsAll_second (after.admits (by decide))
    · rw [typeTokens, List.nil_append, after]
      simp [admitsAll]

theorem admitsAll_ifExists {beforePlace : Bool} (c : ColumnDefinition)
    (hr : Begins (columnEnds beforePlace) r) :
    admitsAll (tokensOf c.pieces ++ r) [.word IF, .keyword EXISTS] 0 = false := by
  obtain ⟨name, type, options⟩ := c
  rw [tokensOf_columnDefinition, List.cons_append, List.append_assoc]
  have after := afterOptions options hr
  refine admitsAll_second ?_
  cases type with
  | some type =>
    obtain ⟨type, args⟩ := type
    rw [typeTokens, DataType.pieces, tokensOf_typeName]
    exact admits_of_name? (name?_typeNameToken type) rfl
  | none => exact after.admits (by decide) (by decide)

theorem Reads.alterAction (hg : g.Reads size) {action : AlterAction} (hw : action.WellFormed)
    (hs : (tokensOf action.pieces).length ≤ size) (hr : Begins actionEnds r) :
    g.alterAction.Reads action.levels (tokensOf action.pieces ++ r) action r := by
  have ends : Ends 0 false r := .of_begins hr (by decide)
  have noExists : (Terminal.keyword EXISTS).admits (kindAt r 0) = false := hr.admits (by decide)
  unfold Grammar.alterAction
  cases action with
  | addColumn ifNotExists column place =>
    simp only [AlterAction.pieces, tokensOf_append, tokensOf_ahead, tokensOf_word, tokensOf_nil,
      List.cons_append, List.nil_append, List.append_assoc, List.length_cons,
      List.length_append] at hs ⊢
    have after := begins_columnPlace hr place
    refine .accepted (Terminal.admits_self ADD) ?_
    unfold Grammar.addition
    refine .accepted (Terminal.admits_self COLUMN) ?_
    refine (reads_ifNotExists ifNotExists fun _ => admitsAll_ifNotExists column after).next ?_
    refine .last (hg.columnDefinition hw (by omega) after) ?_
    exact (reads_columnPlace place hr).next (.pure _ r)
  | addConstraint ifNotExists name check =>
    simp only [AlterAction.pieces, checkPieces, tokensOf_append, tokensOf_ahead, tokensOf_word,
      tokensOf_keyword, tokensOf_name, tokensOf_space, tokensOf_nil, List.cons_append,
      List.nil_append, List.append_assoc, List.length_cons, List.length_append] at hs ⊢
    refine .accepted (Terminal.admits_self ADD) ?_
    unfold Grammar.addition
    refine .rejected (by simp) (.accepted (Terminal.admits_self CONSTRAINT) ?_)
    refine (reads_ifNotExists ifNotExists fun _ => admitsAll_second (by simp)).next ?_
    refine (reads_identifier (name?_nameToken name) _).next ?_
    refine (reads_expect (Terminal.admits_self CHECK) _).next ?_
    exact (hg.checked hw (by omega) ends).last (.pure _ r)
  | dropColumn ifExists name =>
    simp only [AlterAction.pieces, tokensOf_append, tokensOf_ahead, tokensOf_word,
      tokensOf_keyword, tokensOf_name, tokensOf_nil, List.cons_append, List.nil_append,
      List.append_assoc]
    refine .rejected (by simp) (.accepted (Terminal.admits_self DROP) ?_)
    unfold Grammar.removal
    refine .accepted (Terminal.admits_self COLUMN) ?_
    refine (reads_ifExists ifExists fun _ => admitsAll_second noExists).next ?_
    exact (reads_identifier (name?_nameToken name) r).next (.pure _ r)
  | dropConstraint ifExists name =>
    simp only [AlterAction.pieces, tokensOf_append, tokensOf_ahead,
      tokensOf_keyword, tokensOf_name, tokensOf_nil, List.cons_append, List.nil_append,
      List.append_assoc]
    refine .rejected (by simp) (.accepted (Terminal.admits_self DROP) ?_)
    unfold Grammar.removal
    refine .rejected (by simp) (.accepted (Terminal.admits_self CONSTRAINT) ?_)
    refine (reads_ifExists ifExists fun _ => admitsAll_second noExists).next ?_
    exact (reads_identifier (name?_nameToken name) r).next (.pure _ r)
  | modifyColumn ifExists column =>
    simp only [AlterAction.pieces, tokensOf_append, tokensOf_ahead, tokensOf_word, tokensOf_nil,
      List.cons_append, List.nil_append, List.append_assoc, List.length_cons,
      List.length_append] at hs ⊢
    have after : Begins (columnEnds false) r := hr.mono (by decide)
    refine .rejected (by simp) (.rejected (by simp) (.accepted (Terminal.admits_self MODIFY) ?_))
    refine (reads_expect (Terminal.admits_self COLUMN) _).next ?_
    refine (reads_ifExists ifExists fun _ => admitsAll_ifExists column after).next ?_
    exact (hg.columnDefinition hw (by omega) after).last (.pure _ r)
  | renameColumn ifExists source target =>
    simp only [AlterAction.pieces, tokensOf_append, tokensOf_ahead, tokensOf_phrase,
      tokensOf_word, tokensOf_name, tokensOf_nil, List.cons_append, List.nil_append,
      List.append_assoc]
    refine .rejected (by simp) (.rejected (by simp) (.rejected (by simp)
      (.accepted (Terminal.admits_self RENAME) ?_)))
    unfold Grammar.renamedPart
    refine .rejected (by simp) ?_
    refine (reads_expect (Terminal.admits_self COLUMN) _).next ?_
    refine (reads_ifExists ifExists fun _ => admitsAll_second (by simp)).next ?_
    refine (reads_identifier (name?_nameToken source) _).next ?_
    refine (reads_expect (Terminal.admits_self TO) _).next ?_
    exact (reads_identifier (name?_nameToken target) r).next (.pure _ r)
  | renameTable name =>
    simp only [AlterAction.pieces, tokensOf_append, tokensOf_ahead, tokensOf_word, tokensOf_nil,
      List.cons_append, List.nil_append]
    refine .rejected (by simp) (.rejected (by simp) (.rejected (by simp)
      (.accepted (Terminal.admits_self RENAME) ?_)))
    unfold Grammar.renamedPart
    refine .accepted (Terminal.admits_self TO) ?_
    exact (reads_qualifiedName name ends.noDot).next (.pure _ r)
  | commentColumn ifExists name comment =>
    simp only [AlterAction.pieces, tokensOf_append, tokensOf_ahead, tokensOf_phrase,
      tokensOf_keyword, tokensOf_word, tokensOf_name, tokensOf_string, tokensOf_nil,
      List.cons_append, List.nil_append, List.append_assoc]
    refine .rejected rfl (.rejected (by simp) (.rejected rfl (.rejected rfl
      (.accepted (Terminal.admits_self COMMENT) ?_))))
    refine (reads_expect (Terminal.admits_self COLUMN) _).next ?_
    refine (reads_ifExists ifExists fun _ => admitsAll_second rfl).next ?_
    refine (reads_identifier (name?_nameToken name) _).next ?_
    exact (reads_stringLiteral comment .comment r).next (.pure _ r)
  | delete selection =>
    simp only [AlterAction.pieces, tokensOf_append, tokensOf_ahead, tokensOf_keyword,
      tokensOf_nil, List.cons_append, List.nil_append, List.length_cons] at hs ⊢
    refine .rejected rfl (.rejected (by simp) (.rejected rfl (.rejected rfl
      (.rejected (by simp) (.accepted (Terminal.admits_self DELETE) ?_)))))
    refine (reads_expect (Terminal.admits_self WHERE) _).next ?_
    exact (hg.anyExpr hw (by omega) ends).last (.pure _ r)
  | update assignments selection =>
    obtain ⟨some, wellFormed, condition⟩ := hw
    simp only [AlterAction.pieces, tokensOf_append, tokensOf_ahead, tokensOf_clause,
      tokensOf_keyword, tokensOf_nil, List.cons_append, List.nil_append, List.append_assoc,
      List.length_cons, List.length_append] at hs ⊢
    refine .rejected rfl (.rejected (by simp) (.rejected rfl (.rejected rfl
      (.rejected (by simp) (.rejected (by simp) (.accepted (Terminal.admits_self UPDATE) ?_))))))
    refine .bind (hg.assignments some wellFormed (by omega) (.first WHERE [] _) (by decide)
      (by decide)) ?_
    refine (reads_expect (Terminal.admits_self WHERE) _).next ?_
    exact (hg.anyExpr condition (by omega) ends).last (.pure _ r)

theorem Reads.alterTable (hg : g.Reads size) {a : AlterTable} (some : a.actions ≠ [])
    (hw : ∀ action ∈ a.actions, action.WellFormed) (hs : (tokensOf a.pieces).length ≤ size)
    (hr : Begins statementEnds r) :
    g.alterTable.Reads (greatest AlterAction.levels a.actions) (tokensOf a.pieces ++ r) a r := by
  obtain ⟨name, cluster, actions⟩ := a
  dsimp only at some hw ⊢
  simp only [AlterTable.pieces, tokensOf_append, tokensOf_ahead, tokensOf_keyword, tokensOf_space,
    tokensOf_nil, List.cons_append, List.nil_append, List.append_assoc, List.length_cons,
    List.length_append] at hs ⊢
  have start : ∀ t : Terminal, t = dot ∨ t = ON → t.admits (kindAt (tokensOf (Piece.commas
      (actions.map AlterAction.pieces)) ++ r) 0) = false := by
    intro t ht
    obtain ⟨action, actions, rfl⟩ := List.exists_cons_of_ne_nil some
    rw [List.map_cons, tokensOf_commas]
    rcases ht with rfl | rfl <;> cases action <;> simp [AlterAction.pieces]
  unfold Grammar.alterTable
  refine (reads_expect (Terminal.admits_self ALTER) _).next ?_
  refine (reads_expect (Terminal.admits_self TABLE) _).next ?_
  refine (reads_qualifiedName name ?_).next ?_
  · cases cluster with
    | none => exact start dot (.inl rfl)
    | some cluster => simp [clusterClause]
  refine (reads_onCluster cluster fun _ => start ON (.inr rfl)).next ?_
  refine .last (.commaList some (fun action hm r' after => ?_) (hr.admits (by decide))) (.pure _ r)
  have shorter := length_le_commas AlterAction.pieces hm
  refine hg.alterAction (hw action hm) (by omega) ?_
  rcases after with rfl | ⟨s, rfl⟩
  · exact hr.mono (by decide)
  · exact .cons (by decide) s

/-! ### Removals and new names -/

theorem reads_droppedKind (object : ObjectKind) (s : List Spelled) :
    droppedKind.Reads 0 (tokensOf [object.piece] ++ s) object s := by
  unfold Grammar.droppedKind
  cases object with
  | table =>
    simp only [ObjectKind.piece, tokensOf_keyword, tokensOf_nil, List.cons_append, List.nil_append]
    exact .accepted (Terminal.admits_self TABLE) (.pure _ s)
  | view =>
    simp only [ObjectKind.piece, tokensOf_word, tokensOf_nil, List.cons_append, List.nil_append]
    exact .rejected rfl (.accepted (Terminal.admits_self VIEW) (.pure _ s))
  | database =>
    simp only [ObjectKind.piece, tokensOf_word, tokensOf_nil, List.cons_append, List.nil_append]
    exact .rejected rfl (.rejected (by simp) (.accepted (Terminal.admits_self DATABASE) (.pure _ s)))
  | index =>
    simp only [ObjectKind.piece, tokensOf_word, tokensOf_nil, List.cons_append, List.nil_append]
    exact .rejected rfl (.rejected (by simp) (.rejected (by simp)
      (.accepted (Terminal.admits_self INDEX) (.pure _ s))))

/-- What can follow a name in a list of names. -/
theorem admits_afterName {t : Terminal} {r' : List Spelled} (after : AfterItem r r')
    (hr : Begins ts r) (ht : t ∉ ts) (hc : t ≠ comma) : t.admits (kindAt r' 0) = false := by
  rcases after with rfl | ⟨s, rfl⟩
  · exact hr.admits ht
  · simp [hc]

theorem reads_names {names : List QualifiedName} (some : names ≠ []) (hr : Begins ts r)
    (hd : .symbol dot ∉ ts) (hc : .symbol comma ∉ ts) :
    (commaList qualifiedName).Reads 0
      (tokensOf (Piece.commas (names.map QualifiedName.pieces)) ++ r) names r := by
  refine .cast (.commaList some (fun name _ r' after => ?_) (hr.admits hc)) (greatest_zero names)
  exact reads_qualifiedName name (admits_afterName after hr hd (by decide))

theorem reads_drop {d : Drop} (some : d.names ≠ []) (hr : Begins statementEnds r) :
    drop.Reads 0 (tokensOf d.pieces ++ r) d r := by
  obtain ⟨object, ifExists, names, cluster⟩ := d
  dsimp only at some
  have after := begins_clusterClause hr cluster
  have noPhrase : admitsAll (tokensOf (Piece.commas (names.map QualifiedName.pieces)) ++
      (tokensOf (clusterClause cluster) ++ r)) [.word IF, .keyword EXISTS] 0 = false := by
    obtain ⟨name, names, rfl⟩ := List.exists_cons_of_ne_nil some
    rw [List.map_cons, tokensOf_commas, List.append_assoc]
    refine admitsAll_second (admits_second name (by decide) ?_)
    cases names with
    | nil => exact after.admits (by decide)
    | cons other names => rfl
  have printed : tokensOf (Drop.pieces ⟨object, ifExists, names, cluster⟩) =
      (Terminal.keyword DROP).spelled :: (tokensOf [object.piece] ++
        (tokensOf (ifExistsPieces ifExists) ++
          (tokensOf (Piece.commas (names.map QualifiedName.pieces)) ++
            tokensOf (clusterClause cluster)))) := by
    simp only [Drop.pieces, tokensOf_append, tokensOf_ahead, tokensOf_keyword, List.cons_append,
      List.append_assoc]
  rw [printed]
  simp only [List.cons_append, List.append_assoc]
  unfold Grammar.drop
  refine (reads_expect (Terminal.admits_self DROP) _).next ?_
  refine (reads_droppedKind object _).next ?_
  refine (reads_ifExists ifExists fun _ => noPhrase).next ?_
  refine (reads_names some after (by decide) (by decide)).next ?_
  exact (reads_onCluster cluster fun _ => hr.admits (by decide)).next (.pure _ r)

theorem reads_truncate (t : Truncate) (hr : Begins statementEnds r) :
    truncate.Reads 0 (tokensOf t.pieces ++ r) t r := by
  obtain ⟨ifExists, name, cluster⟩ := t
  simp only [Truncate.pieces, tokensOf_append, tokensOf_ahead, tokensOf_word, tokensOf_keyword,
    tokensOf_nil, List.cons_append, List.nil_append, List.append_assoc]
  have after := begins_clusterClause hr cluster
  unfold Grammar.truncate
  refine (reads_expect (Terminal.admits_self TRUNCATE) _).next ?_
  refine (reads_accept (Terminal.admits_self TABLE) _).discard.next ?_
  refine (reads_ifExists ifExists fun _ => admitsAll_second
    (admits_second name (by decide) (after.admits (by decide)))).next ?_
  refine (reads_qualifiedName name (after.admits (by decide))).next ?_
  exact (reads_onCluster cluster fun _ => hr.admits (by decide)).next (.pure _ r)

theorem reads_rename {n : Rename} (some : n.pairs ≠ []) (hr : Begins statementEnds r) :
    rename.Reads 0 (tokensOf n.pieces ++ r) n r := by
  obtain ⟨pairs, cluster⟩ := n
  dsimp only at some
  simp only [Rename.pieces, tokensOf_append, tokensOf_ahead, tokensOf_word, tokensOf_keyword,
    tokensOf_nil, List.cons_append, List.nil_append, List.append_assoc]
  have after := begins_clusterClause hr cluster
  unfold Grammar.rename
  refine (reads_expect (Terminal.admits_self RENAME) _).next ?_
  refine (reads_expect (Terminal.admits_self TABLE) _).next ?_
  refine .next (.cast (.commaList some (fun pair _ r' item => ?_) (after.admits (by decide)))
    (greatest_zero pairs)) ?_
  · obtain ⟨source, target⟩ := pair
    simp only [Renaming.pieces, tokensOf_append, tokensOf_clause, tokensOf_word, tokensOf_nil,
      List.cons_append, List.nil_append, List.append_assoc]
    unfold Grammar.newName
    refine (reads_qualifiedName source (by simp)).next ?_
    refine (reads_expect (Terminal.admits_self TO) _).next ?_
    exact (reads_qualifiedName target (admits_afterName item after (by decide) (by decide))).next
      (.pure _ r')
  · exact (reads_onCluster cluster fun _ => hr.admits (by decide)).next (.pure _ r)

end Grammar

end CanonicalSql
