import CanonicalSql.Proofs.Course.Definition

/-! What the rules for statements give, and with them the grammar of constructs that hold at most so
many others inside one another. -/

namespace CanonicalSql

open Keyword Word CanonicalSql.Symbol

instance : Construct ExplainStage := .silent _
instance : Construct Listing := .ofPieces (fun _ => True) (fun _ => 0) Listing.pieces
instance : Construct Optimize := .ofPieces (fun _ => True) (fun _ => 0) Optimize.pieces

namespace Grammar

open Parse

variable {plain : Prop} {g : Grammar}

/-! ### Sessions -/

theorem sound_useDatabase : useDatabase.Sound plain := by
  refine .expect (.last (sound_identifier.mono fun _ _ name h => ?_))
  refine h.into (fun _ => trivial) (Nat.zero_le _) ?_
  simp [Construct.literals, Statement.pieces]

theorem Sound.changeSettings (hg : g.Sound plain) : g.changeSettings.Sound plain := by
  refine .expect (.last (hg.setting.commaList.mono fun _ _ settings h => ?_))
  refine h.2.into (fun w => ⟨h.1, fun setting hs => Setting.wellFormed_iff.1 (w setting hs)⟩) le_rfl ?_
  simp [Construct.literals, Statement.pieces]

theorem sound_listing : listing.Sound plain := by
  refine .expect (.accept (.pure (holds_silent trivial rfl rfl)) (.accept ?_ (.accept (.expect ?_)
    (.fail _))))
  · refine .bind (Parse.Sound.optional _ sound_identifier) fun _ _ database h1 => ?_
    refine .last ((yields_optionalString _ _).mono fun _ _ pattern h2 => ?_)
    subst h2
    refine ⟨trivial, Nat.zero_le _, fun hp => ?_⟩
    rw [h1.literals hp]
    cases database <;> cases pattern <;> simp [Construct.literals, Listing.pieces]
  · refine .last (sound_qualifiedName.mono fun _ _ name h => ?_)
    refine h.into (fun _ => trivial) (Nat.zero_le _) ?_
    simp [Construct.literals, Listing.pieces]

theorem sound_describe : describe.Sound plain := by
  have table : (do
      discard (accept TABLE)
      return .describe (← qualifiedName) : Parse Statement).Sound plain := by
    refine .discard_accept (.last (sound_qualifiedName.mono fun _ _ name h => ?_))
    refine h.into (fun _ => trivial) (Nat.zero_le _) ?_
    simp [Construct.literals, Statement.pieces]
  exact .accept table (.expect table)

theorem sound_explainStage : explainStage.Sound plain := by
  have stage : ∀ s : Option ExplainStage, (Pure.pure s : Parse (Option ExplainStage)).Sound plain :=
    fun s => .pure (by cases s <;> exact holds_silent trivial rfl rfl)
  exact .accept (stage _) (.accept (stage _) (.accept (stage _) (.accept (stage _) (stage _))))

theorem Sound.explain (hg : g.Sound plain) : g.explain.Sound plain := by
  refine .expect (.bind sound_explainStage fun n _ stage h1 => ?_)
  refine .last (.descend (hg.statement.mono fun m _ statement h2 => ?_))
  refine ⟨h2.wellFormed, ?_, fun hp => ?_⟩
  · have inner : statement.depth ≤ triangle m := h2.shallow
    change 1 + statement.depth ≤ _
    rw [triangle_max, triangle]
    omega
  · rw [h1.literals hp, h2.literals hp]
    cases stage <;> simp [Construct.literals, Statement.pieces]

theorem sound_optimize : optimize.Sound plain := by
  refine .expect (.expect (.bind sound_qualifiedName fun _ _ table h1 => ?_))
  refine .bind sound_onCluster fun _ _ cluster h2 => .last ((sound_accept _).mono fun _ _ final h3 => ?_)
  refine (h1.and (h2.and h3)).into (fun _ => trivial) (Nat.zero_le _) ?_
  cases final <;> simp [Construct.literals, Optimize.pieces]

/-- A statement about transactions, from its first word on. -/
theorem soundAt_transaction {c : Cursor} {name : String} (hc : c.current.kind = .ident name)
    {statement : Statement} (wellFormed : statement.WellFormed) (depth : statement.depth = 0)
    (literals : Piece.literals statement.pieces = []) :
    (transaction statement).GivesAt plain c fun n ts s _ =>
      Holds plain (triangle n) (literalsOf ts) s :=
  GivesAt.silent (by rw [hc]; rfl) (by rw [hc]; simp)
    (.discard_accept (.pure (holds_silent wellFormed depth literals)))

/-! ### Statements of every kind -/

theorem Sound.wordStatement (hg : g.Sound plain) {c : Cursor} {name : String}
    (hc : c.current.kind = .ident name) (w : Word) :
    (g.wordStatement w).GivesAt plain c fun n ts s _ =>
      Holds plain (triangle n) (literalsOf ts) s := by
  unfold Grammar.wordStatement
  split
  · exact Yields.here (.last (sound_truncate.mono fun _ _ _ h => h.into id le_rfl rfl))
  · exact Yields.here (.last (sound_rename.mono fun _ _ _ h => h.into id le_rfl rfl))
  · exact sound_useDatabase c
  · exact Yields.here (.last (sound_listing.mono fun _ _ _ h => h.into id le_rfl rfl))
  · exact sound_describe c
  · exact hg.explain c
  · exact Yields.here (.last (sound_optimize.mono fun _ _ _ h => h.into id le_rfl rfl))
  · exact soundAt_transaction hc trivial rfl rfl
  · exact soundAt_transaction hc trivial rfl rfl
  · exact soundAt_transaction hc trivial rfl rfl
  · exact .fail _

theorem Sound.statementRule (hg : g.Sound plain) : g.statementRule.Sound plain := by
  have query : g.queryRule.Sound plain := Gives.mono hg.queryRule fun _ _ _ h => h.1
  refine .peek fun c => ?_
  split
  iterate 3 exact Yields.here (.last (query.mono fun _ _ _ h => h.into id le_rfl rfl))
  · exact Yields.here (.last (hg.insert.mono fun _ _ _ h => h.into id le_rfl rfl))
  · exact Yields.here (.last (hg.update.mono fun _ _ _ h => h.into id le_rfl rfl))
  · exact Yields.here (.last (hg.delete.mono fun _ _ _ h => h.into id le_rfl rfl))
  · exact hg.create c
  · exact Yields.here (.last (hg.alterTable.mono fun _ _ _ h => h.into id le_rfl rfl))
  · exact Yields.here (.last (sound_drop.mono fun _ _ _ h => h.into id le_rfl rfl))
  · exact hg.changeSettings c
  · exact sound_describe c
  · next name hc =>
    split
    · exact hg.wordStatement hc _
    · exact .fail _
  · exact .fail _

/-! ### The grammar -/

theorem sound_upTo (count : ℕ) : (upTo count).Sound plain := by
  induction count with
  | zero =>
    exact {
      expr := fun _ => .fail _
      reading := fun h => ⟨0, h⟩
      query := .fail _
      body := fun _ _ _ => .fail _
      dataType := .fail _
      statement := .fail _ }
  | succ count ih =>
    exact {
      expr := ih.exprRule
      reading := fun h => ⟨count + 1, h⟩
      query := ih.queryRule
      body := fun _ hlevel => ih.bodyRule hlevel
      dataType := ih.dataTypeRule
      statement := ih.statementRule }

end Grammar

end CanonicalSql
