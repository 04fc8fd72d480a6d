import Mathlib
import CanonicalSql.Proofs.Completion.Create

/-! The rules for the statements that alter, drop and rename objects are viable if the grammar for what
stands inside is. -/

namespace CanonicalSql

open Keyword Word CanonicalSql.Symbol

namespace Completion

open Parse Grammar

variable {K : Completion} {α : Type} {I S F G : Rests} {near : Prop} {X : Scheme α}

/-! ### Alterations -/

theorem viable_columnPlace (stops : ∀ r, F r → Starts [semicolon] r) :
    K.Viable F F F near (fun _ _ => columnPlace) :=
  .reject (.result _) (.reject (viable_identifier.made _) (.pure none fun r h =>
    ⟨⟨h.1, (stops r h.1).admits (by decide)⟩, (stops r h.1).admits (by decide)⟩))

theorem viable_removal : K.Viable Nothing Anything F near (fun _ _ => removal) := by
  refine .choose (.ifExists fun ifExists => viable_identifier.made (AlterAction.dropColumn ifExists)) ?_
    (by decide) fun _ => trivial
  exact .choose (.ifExists fun ifExists => viable_identifier.made (AlterAction.dropConstraint ifExists))
    (.fail _)

theorem viable_renamedPart : K.Viable Nothing Anything Semicolon near (fun _ _ => renamedPart) := by
  refine .choose ((viable_qualifiedName fun _ h => h.admits (by decide)).made AlterAction.renameTable) ?_
    (by decide) fun _ => trivial
  refine (Viable.expect (.ifExists fun ifExists => .bind (G := Starts [TO]) viable_identifier fun source => ?_)
    (by decide)).course
  exact .closing (viable_identifier.made (AlterAction.renameColumn ifExists source)) (by decide)

namespace Inside

theorem addition (h : K.Inside) : K.Viable Nothing Anything Semicolon near (fun g _ => g.addition) := by
  have column : K.Viable Nothing Anything Semicolon near fun g _ => Parse.ifNotExists >>= fun ifNotExists =>
      g.columnDefinition true >>= fun column => columnPlace >>= fun place =>
        pure (AlterAction.addColumn ifNotExists column place) :=
    .ifNotExists fun ifNotExists => .bind
      (h.columnDefinition true (by decide) (by decide) (by decide)) fun column =>
        (viable_columnPlace fun _ h => h).made (AlterAction.addColumn ifNotExists column)
  refine .choose column (Course.choose (.ifNotExists fun ifNotExists => .bind (G := Starts [CHECK])
    viable_identifier fun name => ?_) (.fail _)) (by decide) fun _ => trivial
  exact .closing ((h.anyExpr (by decide)).made (AlterAction.addConstraint ifNotExists name)) (by decide)

theorem alterAction (h : K.Inside) : K.Viable Nothing Anything Semicolon near (fun g _ => g.alterAction) := by
  refine .choose h.addition ?_ (by decide) fun _ => trivial
  refine .choose viable_removal ?_
  refine .choose (.expect (.ifExists fun ifExists =>
    (h.columnDefinition false (by decide) (by decide) (by decide)).made
      (AlterAction.modifyColumn ifExists)) (by decide)) ?_
  refine .choose viable_renamedPart ?_
  refine .choose (.expect (.ifExists fun ifExists => .bind (G := Anything) viable_identifier fun name =>
    ((viable_stringLiteral _).made (AlterAction.commentColumn ifExists name)).here) (by decide)) ?_
  refine .choose (.expect ((h.anyExpr (by decide)).made AlterAction.delete) (by decide)) ?_
  refine .choose (.bind (G := Starts [WHERE]) (.list (h.assignment (by decide)) (by decide))
    fun assignments => ?_) (.fail _)
  exact .closing ((h.anyExpr (by decide)).made (AlterAction.update assignments)) (by decide)

theorem alterTable (h : K.Inside) :
    K.Viable Nothing (Starts [ALTER]) Semicolon near (fun g _ => g.alterTable) := by
  refine .starting (.expect (.bind (G := Starts [ADD])
    (viable_qualifiedName fun _ h => h.admits (by decide)) fun name => ?_) (by decide)) (by decide)
  refine .bind viable_onCluster fun cluster => ?_
  have addition : K.Viable Nothing Anything Semicolon True fun g _ => g.addition := h.addition
  have action : K.Viable Nothing (Starts [ADD]) Semicolon True fun g _ => g.alterAction :=
    ⟨h.alterAction.course, .accept (Y := fun b g _ => if b = true then g.addition else _) addition.fill
      (by decide) fun s => .first _ _ s⟩
  exact ((Viable.list action (by decide)).made (AlterTable.mk name cluster)).here

end Inside

/-! ### Removals and new names -/

theorem viable_droppedKind : K.Viable Nothing (Starts [TABLE]) F near (fun _ _ => droppedKind) := by
  refine .choose (.result _) ?_ (by decide) fun s => .first _ _ s
  exact .choose (.result _) (.choose (.result _) (.choose (.result _) (.fail _)))

theorem viable_drop : K.Viable Nothing (Starts [DROP]) Semicolon near (fun _ _ => drop) := by
  have names : K.Viable Nothing (StartsWith someName) Semicolon True fun _ _ => commaList qualifiedName :=
    .list (viable_qualifiedName fun _ h => h.admits (by decide)) (by decide)
  refine .starting (.bind (G := Anything) (viable_droppedKind.mono (fun _ _ h => h) (fun _ _ => trivial)
    (fun _ h => h) id) fun object => ?_) (by decide)
  refine (Viable.ifExists fun ifExists => ?_).here
  exact .bind names fun names => viable_onCluster.made (Drop.mk object ifExists names)

theorem viable_truncate : K.Viable Nothing (Starts [TRUNCATE]) Semicolon near (fun _ _ => truncate) := by
  have name : K.Viable Nothing (StartsWith someName) Semicolon near fun _ _ => Parse.ifExists >>= fun ifExists =>
      qualifiedName >>= fun name => onCluster >>= fun cluster => pure (⟨ifExists, name, cluster⟩ : Truncate) :=
    .bind_solid viable_ifExists fun ifExists => .bind
      (viable_qualifiedName fun _ h => h.admits (by decide)) fun name =>
        viable_onCluster.made (Truncate.mk ifExists name)
  refine .starting (.discard_accept name (fun _ h => h.elim) ?_) (by decide)
  rintro r ⟨s, rfl⟩
  rfl

theorem viable_newName : K.Viable Nothing (StartsWith someName) Semicolon near (fun _ _ => newName) :=
  .bind (G := Starts [TO]) (viable_qualifiedName fun _ h => h.admits (by decide)) fun source =>
    .closing ((viable_qualifiedName fun _ h => h.admits (by decide)).made (Renaming.mk source)) (by decide)

theorem viable_rename : K.Viable Nothing (Starts [RENAME]) Semicolon near (fun _ _ => rename) := by
  refine .starting (.expect (.bind (.list viable_newName (by decide)) fun pairs => ?_) (by decide)) (by decide)
  exact viable_onCluster.made (Rename.mk pairs)

end Completion

end CanonicalSql
