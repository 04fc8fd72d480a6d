import Mathlib
import CanonicalSql.Proofs.Completion.Name

/-! The rules for types and expressions are viable if those of the grammar for what stands inside are. -/

namespace CanonicalSql

open Keyword Word CanonicalSql.Symbol

namespace Completion

open Parse Grammar

variable {K : Completion} {α : Type} {I S F : Rests} {near : Prop} {us : List Terminal} {level : ℕ}

/-! ### Grammars -/

/-- What cannot follow the name of a type. -/
abbrev NoParen : Rests := fun r => (Terminal.symbol leftParen).admits (kindAt r 0) = false

/-- What can follow an expression that is read at a level.  A negation in it goes as far as one that is
read at the level of negations. -/
abbrev ExprEnds (level : ℕ) : Rests := Ends (min level Precedence.negation) false

/-- Whether the rules of the grammars for what stands inside are viable. -/
structure Inside (K : Completion) : Prop where
  expr : ∀ level, K.Viable Nothing (StartsWith someNumber) (ExprEnds level) True (fun g _ => g.expr level)
  query : K.Viable Nothing (Starts [SELECT]) (Starts queryEnds) True (fun g _ => g.query)
  body : ∀ level, K.Viable Nothing (Starts [SELECT]) (BodyEnds level) True (fun g _ => g.body level)
  /-- A parenthesis alone is no query. -/
  nested : ∀ (m : ℕ) (p : Parser) (paren : Spelled) (r : List Spelled), paren.kind = .symbol leftParen →
    Starts queryEnds r → p.cursor.Shows (paren :: r) → ∀ q p', (K.again m).query p ≠ .ok q p'
  dataType : K.Viable Nothing Anything NoParen True (fun g _ => g.dataType)
  statement : K.Viable Nothing (Starts [SELECT]) (Starts [semicolon]) False (fun g _ => g.statement)

namespace Inside

/-- An expression in front of what ends every expression. -/
theorem anyExpr (h : K.Inside) (ends : us.all Terminal.endsExpr = true) :
    K.Viable Nothing (StartsWith someNumber) (Starts us) near (fun g _ => g.anyExpr) :=
  (h.expr 0).mono (fun _ _ h => h) (fun _ h => h) (fun _ h => h.ends ends) fun _ => trivial

/-! ### Types -/

theorem typeArgument (h : K.Inside) (apart : Terminal.symbol leftParen ∉ us) :
    K.Viable Nothing Anything (Starts us) True (fun g _ => g.typeArgument) := by
  have type : K.Viable Nothing Anything (Starts us) True fun g _ => g.dataType >>= fun type =>
      pure (DataTypeArg.type type) := (h.dataType.before fun _ h => h.admits apart).made DataTypeArg.type
  refine .peek (fun k => k) (.number "1") (fun n s less => ?_) ?fill
  case fill => exact .taken _ filling_someNumber fun s => ⟨trivial, rfl⟩
  have nested : ∀ {I}, K.Goes I (Starts us) True _ n s :=
    (type.course n s less).mono (fun _ _ h => h.elim) (fun _ h => h) id
  cases hk : kindAt s 0 with
  | number | string => exact .taken _ (ne_nil_of_kindAt hk (by simp))
  | ident | quotedIdent => exact nested
  | _ => exact .fail _

theorem dataTypeRule (h : K.Inside) : K.Course Nothing NoParen True (fun g _ => g.dataTypeRule) := by
  intro n s less
  have args : K.Viable NoParen NoParen NoParen True fun g _ => optionalList leftParen do
      let args ← commaListUpTo rightParen g.typeArgument
      expect rightParen
      return args :=
    .optionalList (.bind (.commaListUpTo (by decide) (h.typeArgument (by decide))) fun _ =>
      .closing (.result _) (by decide))
      fun _ h => h
  refine .peek (fun k => k) ?_
  cases named : (kindAt s 0).name? with
  | none => exact .fail _
  | some name =>
    obtain ⟨first, s', rfl⟩ : ∃ first s', s = first :: s' := by
      refine List.exists_cons_of_ne_nil ?_
      rintro rfl
      cases named
    have behind := (args.made (DataType.mk name)).anywhere
    exact .discard_advance (behind.course n s' (by simp at less; omega)) behind.fill

/-! ### Windows -/

theorem sortDirection (apart : Absent [ASC, DESC] us) :
    K.Viable (Starts us) (Starts us) (Starts us) near (fun _ _ => sortDirection) :=
  .reject (.result _) (.reject (.result _) (.pure none fun r h =>
    ⟨⟨h.1, h.1.admits (apart _ (by simp))⟩, h.1.admits (apart _ (by simp))⟩))

theorem orderItem (h : K.Inside) (ends : us.all Terminal.endsExpr = true)
    (apart : Absent [ASC, DESC, NULLS] us) :
    K.Viable Nothing (StartsWith someNumber) (Starts us) near (fun g _ => g.orderItem) :=
  .bind (h.anyExpr ends) fun _ => .bind (sortDirection (apart.mono (by decide))) fun _ =>
    .made _ (.clause (.choose (S := Anything) (.result _) (.choose (.result _) (.fail _)) (by decide)
      fun _ => trivial) (apart _ (by simp)))

theorem orderItems (h : K.Inside) (ends : us.all Terminal.endsExpr = true)
    (apart : Absent [ASC, DESC, NULLS, comma] us) :
    K.Viable Nothing Anything (Starts us) near (fun g _ => g.orderItems) :=
  .expect (.list (h.orderItem ends (apart.mono (by decide))) (apart _ (by simp))) (by decide)

/-- An expression that is read as an operand. -/
theorem operandExpr (h : K.Inside) (ends : us.all Terminal.endsExpr = true) :
    K.Viable Nothing (StartsWith someNumber) (Starts us) near (fun g _ => g.expr Precedence.operand) :=
  (h.expr Precedence.operand).mono (fun _ _ h => h) (fun _ h => h) (fun _ h => h.ends ends) fun _ => trivial

theorem frameBound (h : K.Inside) (hS : ∀ s, S ((Terminal.keyword UNBOUNDED).spelled :: s)) :
    K.Viable Nothing S F near (fun g _ => g.frameBound) := by
  refine .choose (.choose (S := Anything) (.result _) (Viable.expect (.result _) (by decide)).course
    (by decide) fun _ => trivial) ?_ (by decide) hS
  refine .choose (.expect (.result _) (by decide)) (Viable.bind (S := StartsWith someNumber)
    (G := Starts [PRECEDING, FOLLOWING]) (h.operandExpr (by decide)) fun _ => ?_).course
  exact (Viable.choose (.result _) (.choose (.result _) (.fail _)) (by decide) fun _ => .first _ _ _).here

theorem frame (h : K.Inside) (unit : FrameUnit) :
    K.Viable Nothing (Starts [UNBOUNDED]) F near (fun g _ => g.frame unit) := by
  have bounds : K.Viable Nothing Anything F near fun g _ => g.frameBound >>= fun start =>
      expect AND >>= fun _ => g.frameBound >>= fun finish =>
        pure (⟨unit, start, some finish⟩ : Frame) :=
    .bind (G := Starts [AND]) (h.frameBound fun _ => trivial) fun start =>
      .closing ((h.frameBound (S := Anything) fun _ => trivial).made fun finish =>
        (⟨unit, start, some finish⟩ : Frame)) (by decide)
  have bound : K.Viable Nothing (fun r => Starts [UNBOUNDED] r ∧
      (Terminal.keyword BETWEEN).admits (kindAt r 0) = false) F near fun g _ => g.frameBound >>= fun start =>
        pure (⟨unit, start, none⟩ : Frame) :=
    (h.frameBound fun s => ⟨.first _ _ s, rfl⟩).made fun start => (⟨unit, start, none⟩ : Frame)
  exact .reject bounds (bound.mono (fun _ _ h => h.elim) (fun _ h => h) (fun _ h => h) id)

theorem viable_frameUnit (apart : Absent [ROWS, RANGE] us) :
    K.Viable (Starts us) (Starts us) (Starts us) near (fun _ _ => frameUnit) :=
  .reject (.result _) (.reject (.result _) (.pure none fun r h =>
    ⟨⟨h.1, h.1.admits (apart _ (by simp))⟩, h.1.admits (apart _ (by simp))⟩))

theorem windowParts (h : K.Inside) :
    K.Viable Anything Anything (Starts [rightParen]) True (fun g _ => g.windowParts) := by
  have parts : K.Viable (Starts [UNBOUNDED, rightParen]) (Starts [UNBOUNDED, rightParen])
      (Starts [rightParen]) True (fun g _ => g.windowParts) := by
    refine .bind (.listClause (.expect (.list (h.anyExpr (by decide)) (by decide)) (by decide))
      (by decide)) fun partitionBy => ?_
    refine .bind (.listClause (h.orderItems (by decide) (by decide)) (by decide)) fun orderBy =>
      .bind (viable_frameUnit (by decide)) fun unit? => ?_
    cases unit? with
    | none => exact .pure _ fun r fits => fits.1.mono (by decide)
    | some unit =>
      exact ((h.frame unit).made fun frame => (⟨partitionBy, orderBy, some frame⟩ : Window)).mono
        (fun _ _ h => h.elim) (fun _ h => h.mono (by decide)) (fun _ h => h) id
  exact parts.anywhere

theorem window (h : K.Inside) : K.Viable Nothing Anything F near (fun g _ => g.window) :=
  .between h.windowParts (by decide) (by decide)

/-! ### Names and calls -/

theorem callArgs (h : K.Inside) :
    K.Viable Anything Anything (Starts [rightParen]) True (fun g _ => g.callArgs) := by
  have list : K.Viable Nothing Anything (Starts [rightParen]) True fun g _ =>
      accept DISTINCT >>= fun distinct =>
      commaList g.anyExpr >>= fun items => pure (CallArgs.list items, distinct) := by
    have distinct : K.Viable (StartsWith someNumber) (StartsWith someNumber) (StartsWith someNumber) True
        fun _ _ => accept DISTINCT := .accepted (by rintro r ⟨s, rfl⟩; rfl)
    refine (Viable.bind_solid distinct fun distinct => ?_).mono (fun _ _ h => h) (fun _ _ => trivial)
      (fun _ h => h) id
    exact .made (fun items => (CallArgs.list items, distinct)) (.list (h.anyExpr (by decide)) (by decide))
  exact .reject (.result _) (.empty (fun r h => ⟨⟨trivial, h.admits (by decide)⟩, h.sees⟩) list)

/-- A call from behind the parenthesis that opens its arguments. -/
theorem opened (h : K.Inside) (name : String) :
    K.Viable Anything Anything (Ends level false) near (fun g _ => g.callArgs >>= fun args =>
      expect rightParen >>= fun _ => optional OVER g.window >>= fun window =>
        pure (Expr.call ⟨name, args.1, args.2, window⟩)) :=
  .bind h.callArgs fun args => .closing (.made (fun window => Expr.call ⟨name, args.1, args.2, window⟩)
    (.optional h.window fun _ h => h.opensWindow)) (by decide)

theorem call_eq (g : Grammar) (name : String) : g.call name = expect leftParen >>= fun _ =>
    g.callArgs >>= fun args => expect rightParen >>= fun _ => optional OVER g.window >>= fun window =>
      pure (Expr.call ⟨name, args.1, args.2, window⟩) := by
  simp only [Grammar.call, Parse.between, bind_assoc, pure_bind]

theorem call (h : K.Inside) (name : String) :
    K.Viable Nothing Anything (Ends level false) near (fun g _ => g.call name) := by
  simp only [call_eq]
  exact .expect (h.opened name) (by decide)

theorem named (h : K.Inside) (first : String) :
    K.Viable (Ends level false) (Ends level false) (Ends level false) near (fun g _ => g.named first) := by
  refine .seen (h.call first) (.reject (.bind (G := Ends level false) viable_identifier fun second => ?_)
    (.pure _ fun r h => ?_))
  · exact .reject (viable_identifier.made _) (.pure _ fun r h => ⟨h.1, h.1.noDot⟩)
  · exact ⟨⟨h.1, h.1.noCall⟩, h.1.noDot⟩

end Inside

end Completion

end CanonicalSql
