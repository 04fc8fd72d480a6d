import Mathlib
import CanonicalSql.Proofs.Completion.Alteration

/-! The rules for the statements of a session are viable if the grammar for what stands inside is, and so is
the rule for statements of every kind. -/

namespace CanonicalSql

open Keyword Word CanonicalSql.Symbol

namespace Completion

open Parse Grammar

variable {K : Completion} {α : Type} {I S F G : Rests} {near : Prop} {X : Scheme α}

/-! ### Statements of a session -/

theorem viable_useDatabase : K.Viable Nothing Anything F near (fun _ _ => useDatabase) :=
  .expect (viable_identifier.made Statement.useDatabase) (by decide)

theorem viable_listing : K.Viable Nothing Anything Semicolon near (fun _ _ => listing) := by
  have tables : K.Viable Semicolon Semicolon Semicolon near fun _ _ => optional FROM identifier >>= fun database =>
      optional LIKE (stringLiteral .pattern) >>= fun pattern => pure (Listing.tables database pattern) :=
    .bind (.clause viable_identifier (by decide)) fun database =>
      (Viable.clause (viable_stringLiteral _) (by decide)).made (Listing.tables database)
  have definition : K.Viable Nothing (Starts [TABLE]) Semicolon near fun _ _ => expect TABLE >>= fun _ =>
      qualifiedName >>= fun name => pure (Listing.createTable name) :=
    .starting ((viable_qualifiedName fun _ h => h.admits (by decide)).made Listing.createTable) (by decide)
  refine .expect (Viable.choose (S := Anything) (.result _) ?_ (by decide) fun _ => trivial) (by decide)
  exact .choose tables (.choose definition (.fail _))

theorem viable_describe : K.Viable Nothing Anything Semicolon near (fun _ _ => describe) := by
  have name : K.Viable Nothing (StartsWith someName) Semicolon near fun _ _ => qualifiedName >>= fun name =>
      pure (Statement.describe name) :=
    (viable_qualifiedName fun _ h => h.admits (by decide)).made Statement.describe
  have behind : K.Viable Nothing (StartsWith someName) Semicolon near fun _ _ => discard (accept TABLE) >>= fun _ =>
      qualifiedName >>= fun name => pure (Statement.describe name) :=
    .discard_accept name (fun _ h => h.elim) (by rintro r ⟨s, rfl⟩; rfl)
  have split : describe = accept DESC >>= fun b => if b = true then discard (accept TABLE) >>= fun _ =>
      qualifiedName >>= fun name => pure (Statement.describe name) else expect DESCRIBE >>= fun _ =>
        discard (accept TABLE) >>= fun _ => qualifiedName >>= fun name => pure (Statement.describe name) := by
    refine congrArg _ (funext fun b => ?_)
    cases b <;> rfl
  simp only [split]
  exact .choose behind (Viable.expect behind (by decide)).course (by decide) fun _ => trivial

theorem viable_explainStage (stops : ∀ r, F r → Starts [SELECT] r) :
    K.Viable F F F near (fun _ _ => explainStage) := by
  refine .reject (.result _) (.reject (.result _) (.reject (.result _) (.reject (.result _)
    (.pure none fun r h => ?_))))
  have other : ∀ t : Terminal, t ∉ [Terminal.keyword SELECT] → t.admits (kindAt r 0) = false :=
    fun t ht => (stops r h.1).admits ht
  exact ⟨⟨⟨⟨h.1, other _ (by decide)⟩, other _ (by decide)⟩, other _ (by decide)⟩, other _ (by decide)⟩

theorem viable_optimize : K.Viable Nothing Anything Semicolon near (fun _ _ => optimize) := by
  refine .expect (.expect (.bind (G := Semicolon) (viable_qualifiedName fun _ h => h.admits (by decide))
    fun table => ?_) (by decide)) (by decide)
  exact .bind viable_onCluster fun cluster => (Viable.accepted fun _ h => h.admits (by decide)).made
    (Optimize.mk table cluster)

theorem goes_transaction (statement : Statement) {n : ℕ} {first : Spelled} {s : List Spelled}
    (less : (first :: s).length ≤ n) :
    K.Goes I Semicolon near (fun _ _ => transaction statement) n (first :: s) := by
  have behind : K.Viable Semicolon Semicolon Semicolon near fun _ _ => discard (accept TRANSACTION) >>= fun _ =>
      pure statement :=
    .discard_accept (.idle statement) (fun _ h => h.admits (by decide)) fun _ h => h.admits (by decide)
  exact .discard_advance (behind.anywhere.course n s (Nat.le_of_succ_le less)) behind.anywhere.fill

namespace Inside

theorem changeSettings (h : K.Inside) :
    K.Viable Nothing Anything Semicolon near (fun g _ => g.changeSettings) :=
  .expect ((Viable.list (h.setting (by decide)) (by decide)).made Statement.changeSettings) (by decide)

theorem explain (h : K.Inside) : K.Viable Nothing Anything Semicolon False (fun g _ => g.explain) :=
  .expect (.bind (viable_explainStage fun _ h => h) fun stage =>
    (h.statement.descend.made (Statement.explain stage)).here) (by decide)

/-- What becomes of a statement that a contextual word starts. -/
theorem wordStatement (h : K.Inside) (w : Word) {n : ℕ} {s : List Spelled} (less : s.length ≤ n)
    (some : s ≠ []) : K.Goes Nothing Semicolon False (fun g _ => g.wordStatement w) n s := by
  obtain ⟨first, s, rfl⟩ := List.exists_cons_of_ne_nil some
  cases w with
  | TRUNCATE => exact (viable_truncate.made Statement.truncate).course n _ less
  | RENAME => exact (viable_rename.made Statement.rename).course n _ less
  | USE => exact viable_useDatabase.course n _ less
  | SHOW => exact (viable_listing.made Statement.listing).course n _ less
  | DESCRIBE => exact viable_describe.course n _ less
  | EXPLAIN => exact h.explain.course n _ less
  | OPTIMIZE => exact (viable_optimize.made Statement.optimize).course n _ less
  | BEGIN => exact goes_transaction .begin less
  | COMMIT => exact goes_transaction .commit less
  | ROLLBACK => exact goes_transaction .rollback less
  | _ => exact .fail _

theorem statementRule (h : K.Inside) :
    K.Viable Nothing (Starts [SELECT]) Semicolon False (fun g _ => g.statementRule) := by
  have select : K.Viable Nothing (Starts [SELECT]) Semicolon False fun g _ => g.queryRule >>= fun query =>
      pure (Statement.select query) :=
    ((h.queryRule).before fun _ h => h.mono (by decide)).made Statement.select
  refine .peek (fun k => k) (.keyword SELECT) (fun n s less => ?_)
    (select.fill.mono (fun r hr => ⟨hr, ?_⟩) fun _ h => h)
  · refine Goes.mono (I := Nothing) ?_ (fun _ _ h => h.elim) (fun _ h => h) id
    split
    · exact select.course n s less
    · exact select.course n s less
    · exact select.course n s less
    · exact (h.insert.made Statement.insert).course n s less
    · exact (h.update.made Statement.update).course n s less
    · exact (h.delete.made Statement.delete).course n s less
    · exact h.create.course n s less
    · exact (h.alterTable.made Statement.alterTable).course n s less
    · exact (viable_drop.made Statement.drop).course n s less
    · exact h.changeSettings.course n s less
    · exact viable_describe.course n s less
    · rename_i name hk
      split
      · exact h.wordStatement _ less (ne_nil_of_kindAt hk (by simp))
      · exact .fail _
    · exact .fail _
  · obtain ⟨t, ht, s, rfl⟩ := hr
    rw [List.mem_singleton.1 ht]
    rfl

end Inside

end Completion

end CanonicalSql
