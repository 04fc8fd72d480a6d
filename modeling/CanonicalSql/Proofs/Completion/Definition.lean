import Mathlib
import CanonicalSql.Proofs.Completion.Change

/-! The rules for the statements that define objects are viable if the grammar for what stands inside is. -/

namespace CanonicalSql

open Keyword Word CanonicalSql.Symbol

namespace Completion

open Parse Grammar

variable {K : Completion} {α : Type} {I S F : Rests} {near : Prop} {us : List Terminal} {level n : ℕ}
  {s : List Spelled} {first : Spelled}

/-! ### Columns -/

/-- A foreign key's table, from behind its first word. -/
def referenceBehind : Parse ForeignReference := do
  let table ← qualifiedName
  return ⟨table, ← optionalNameList⟩

theorem viable_referenceBehind (apart : Absent [dot, leftParen] us) :
    K.Viable Nothing (StartsWith someName) (Starts us) near (fun _ _ => referenceBehind) :=
  .bind (G := Starts us) (viable_qualifiedName fun _ h => h.admits (apart _ (by simp))) fun table =>
    (viable_optionalNameList fun _ h => h.admits (apart _ (by simp))).made (ForeignReference.mk table)

/-- The words that start the options of a column. -/
def optionStarts : List Terminal :=
  [NULL, NOT, DEFAULT, MATERIALIZED, ALIAS, PRIMARY, UNIQUE, CHECK, COMMENT, REFERENCES]

namespace Inside

theorem tries_columnOption (h : K.Inside) (ends : us.all Terminal.endsExpr = true)
    (apart : Absent (dot :: leftParen :: optionStarts) us) :
    K.Tries (Starts us) fun g => g.columnOption := by
  have other : ∀ t ∈ optionStarts, ∀ r, Starts us r → t.admits (kindAt r 0) = false := fun t ht r hr =>
    hr.admits (apart t (by simp [ht]))
  have references : K.Tries (Starts us) fun _ => sees REFERENCES >>= fun b => if b = true then
      foreignReference >>= fun reference => pure (some
        (ColumnOption.references reference)) else pure none := by
    have split : foreignReference = expect REFERENCES >>= fun _ => referenceBehind := rfl
    simp only [split, bind_assoc, sees_expect]
    exact .accept ColumnOption.references (viable_referenceBehind (apart.mono (by decide))) (.none _)
      (other _ (by decide))
  refine .accept (x := fun _ => pure ()) (fun _ => ColumnOption.null) (.result ()) ?_ (other _ (by decide))
  refine .accept (x := fun _ => expect NULL) (fun _ => ColumnOption.notNull)
    (.expected (by decide)) ?_ (other _ (by decide))
  refine .accept ColumnOption.default (h.anyExpr ends) ?_ (other _ (by decide))
  refine .accept ColumnOption.materialized (h.anyExpr ends) ?_ (other _ (by decide))
  refine .accept ColumnOption.computed (h.anyExpr ends) ?_ (other _ (by decide))
  refine .accept (x := fun _ => expect KEY) (fun _ => ColumnOption.primaryKey)
    (.expected (by decide)) ?_ (other _ (by decide))
  refine .accept (x := fun _ => pure ()) (fun _ => ColumnOption.unique) (.result ()) ?_ (other _ (by decide))
  refine .accept ColumnOption.check (h.anyExpr ends) ?_ (other _ (by decide))
  exact .accept ColumnOption.comment (viable_stringLiteral _) references (other _ (by decide))

theorem columnOptions (h : K.Inside) (ends : us.all Terminal.endsExpr = true)
    (apart : Absent (dot :: leftParen :: optionStarts) us) :
    K.Viable (Starts us) (Starts us) (Starts us) near (fun g n => g.columnOptions n) := by
  refine .repeated (h.tries_columnOption ends apart) (fun _ => rfl) fun g n => ?_
  rw [Grammar.columnOptions]
  refine congrArg _ (funext fun option => ?_)
  cases option <;> rfl

/-- The type of a column, if it has one. -/
theorem columnType (h : K.Inside) (beforePlace : Bool)
    (untyped : us.all (fun t => !startsColumnType beforePlace t.spelled.kind) = true)
    (apart : Terminal.symbol leftParen ∉ us) :
    K.Viable (Starts us) (Starts us) (Starts us) near (fun g _ => peek >>= fun k =>
      if startsColumnType beforePlace k = true then some <$> g.dataType else pure none) := by
  have none : ∀ r, Fits (Starts us) r → Starts us r ∧ startsColumnType beforePlace (kindAt r 0) = false := by
    rintro r ⟨⟨t, ht, s, rfl⟩, -⟩
    exact ⟨⟨t, ht, s, rfl⟩, by simpa using List.all_eq_true.1 untyped t ht⟩
  have type : K.Viable Nothing Anything (Starts us) near fun g _ => some <$> g.dataType :=
    .map some (h.dataType.mono (fun _ _ h => h) (fun _ h => h) (fun _ h => h.admits apart) fun _ => trivial)
  refine .peek (Y := fun b g _ => if b = true then some <$> g.dataType else pure Option.none)
    (startsColumnType beforePlace) false (fun n s less => ?_) (.pure Option.none none)
  cases startsColumnType beforePlace (kindAt s 0) with
  | true => exact (type.course n s less).mono (fun _ _ h => h.elim) (fun _ h => h) id
  | false => exact .pure Option.none none

theorem columnDefinition (h : K.Inside) (beforePlace : Bool) (ends : us.all Terminal.endsExpr = true)
    (untyped : us.all (fun t => !startsColumnType beforePlace t.spelled.kind) = true)
    (apart : Absent (dot :: leftParen :: optionStarts) us) :
    K.Viable Nothing (StartsWith someName) (Starts us) near (fun g _ => g.columnDefinition beforePlace) := by
  have split : ∀ g : Grammar, g.columnDefinition beforePlace = identifier >>= fun name =>
      (peek >>= fun k => if startsColumnType beforePlace k = true then some <$> g.dataType else pure none) >>= fun type =>
        remaining >>= fun n => g.columnOptions n >>= fun options => pure ⟨name, type, options⟩ := fun g => by
    refine congrArg _ (funext fun name => ?_)
    rw [bind_assoc]
    refine congrArg _ (funext fun k => ?_)
    cases startsColumnType beforePlace k <;> rfl
  simp only [split]
  refine .bind viable_identifier fun name => .bind
    (h.columnType beforePlace untyped (apart _ (by simp))) fun type => ?_
  exact .remaining ((h.columnOptions ends apart).made (ColumnDefinition.mk name type))

/-! ### Constraints -/

theorem constraintKind (h : K.Inside) (ends : us.all Terminal.endsExpr = true)
    (apart : Absent [dot, leftParen] us) :
    K.Viable Nothing (Starts [PRIMARY]) (Starts us) near (fun g _ => g.constraintKind) := by
  have reference : K.Viable Nothing (Starts [REFERENCES]) (Starts us) near fun _ _ => foreignReference :=
    .starting (viable_referenceBehind apart) (by decide)
  refine .choose (.expect (viable_nameList.made ConstraintKind.primaryKey) (by decide)) ?_
    (by decide) fun s => .first _ _ s
  refine .choose (viable_nameList.made ConstraintKind.unique) ?_
  refine .choose ((h.anyExpr ends).made ConstraintKind.check) ?_
  refine .choose (.expect (.bind (G := Starts [REFERENCES]) viable_nameList fun columns => ?_)
    (by decide)) (.fail _)
  exact (reference.made (ConstraintKind.foreignKey columns)).here

theorem tableConstraint (h : K.Inside) (ends : us.all Terminal.endsExpr = true)
    (apart : Absent [dot, leftParen] us) :
    K.Viable Nothing (Starts [PRIMARY]) (Starts us) near (fun g _ => g.tableConstraint) :=
  .bind_solid (.clause viable_identifier (by decide)) fun name =>
    (h.constraintKind ends apart).made (TableConstraint.mk name)

theorem tableElement (h : K.Inside) :
    K.Viable Nothing (StartsWith someName) (Starts [rightParen]) near (fun g _ => g.tableElement) := by
  have constraint : K.Viable Nothing (Starts [PRIMARY]) (Starts [rightParen]) near fun g _ =>
      g.tableConstraint >>= fun constraint => pure (TableElement.constraint constraint) :=
    (h.tableConstraint (by decide) (by decide)).made TableElement.constraint
  have column : K.Viable Nothing (StartsWith someName) (Starts [rightParen]) near fun g _ =>
      g.columnDefinition false >>= fun column => pure (TableElement.column column) :=
    (h.columnDefinition false (by decide) (by decide) (by decide)).made TableElement.column
  refine .peek (Y := fun b g _ => if b = true then g.tableConstraint >>= fun constraint =>
    pure (TableElement.constraint constraint) else g.columnDefinition false >>= fun column =>
      pure (TableElement.column column)) startsConstraint false (fun n s less => ?_)
    (column.fill.mono (fun r hr => ⟨hr, ?_⟩) fun _ h => h)
  · cases startsConstraint (kindAt s 0) with
    | true => exact (constraint.course n s less).mono (fun _ _ h => h.elim) (fun _ h => h) id
    | false => exact (column.course n s less).mono (fun _ _ h => h.elim) (fun _ h => h) id
  · obtain ⟨s, rfl⟩ := hr
    rfl

theorem tableElements (h : K.Inside) (apart : Terminal.symbol leftParen ∉ us) :
    K.Viable (Starts us) (Starts us) (Starts us) near (fun g _ => g.tableElements) :=
  .listClause (.bind (.list h.tableElement (by decide)) fun elements =>
    .closing (.result elements) (by decide)) apart

/-! ### Tables -/

theorem engine (h : K.Inside) (apart : Terminal.symbol leftParen ∉ us) :
    K.Viable Nothing (StartsWith someName) (Starts us) near (fun g _ => g.engine) := by
  refine .discard_accept (.bind (viable_label _) fun name => .made (Engine.mk name) (.clause
    (.bind (.commaListUpTo (by decide) (h.anyExpr (by decide))) fun args =>
      .closing (.result args) (by decide)) apart))
    (fun _ h => h.elim) ?_
  rintro r ⟨s, rfl⟩
  rfl

end Inside

end Completion

end CanonicalSql
