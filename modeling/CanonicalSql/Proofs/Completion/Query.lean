import Mathlib
import CanonicalSql.Proofs.Completion.Select

/-! Set operations and what surrounds the body of a query: the rules for queries are viable if the grammar
for what stands inside is. -/

namespace CanonicalSql

open Keyword Word CanonicalSql.Symbol

/-- Whether no set operation of the level is ahead. -/
def StopsBody (level : ℕ) (s : List Spelled) : Prop :=
  ∀ op, Grammar.setOp? (kindAt s 0) = some op → op.precedence < level

namespace Completion

open Parse Grammar

variable {K : Completion} {α : Type} {I S F : Rests} {near : Prop} {us : List Terminal} {level n : ℕ}
  {s : List Spelled} {first : Spelled}

/-! ### Set operations -/

theorem viable_setQuantifier (apart : Absent [ALL, DISTINCT] us) :
    K.Viable (Starts us) (Starts us) (Starts us) near (fun _ _ => setQuantifier) :=
  .reject (.result _) (.reject (.result _) (.pure SetQuantifier.unstated fun r h =>
    ⟨⟨h.1, h.1.admits (apart _ (by simp))⟩, h.1.admits (apart _ (by simp))⟩))

theorem setOperations_of_stops {g : Grammar} {left : QueryBody} {p : Parser} (hp : p.cursor.Shows s)
    (stops : StopsBody level s) : g.setOperations level n left p = .ok left p := by
  cases n with
  | zero => rfl
  | succ n =>
    rw [Grammar.setOperations, peek_bind, hp.kind]
    cases announced : setOp? (kindAt s 0) with
    | none => rfl
    | some op =>
      simp only [stops op announced, ↓reduceIte]
      rfl

theorem setOperations_of_announced {g : Grammar} {left : QueryBody} {p : Parser} {op : SetOp}
    (hp : p.cursor.Shows s) (announced : setOp? (kindAt s 0) = some op) (tight : level ≤ op.precedence) :
    g.setOperations level (n + 1) left p = descend (skip 1 >>= fun _ => setQuantifier >>= fun quantifier =>
      g.body (op.precedence + 1) >>= fun right =>
        g.setOperations level n (.compound op quantifier left right)) p := by
  rw [Grammar.setOperations, peek_bind, hp.kind, announced]
  simp only [Nat.not_lt.2 tight, ↓reduceIte]
  rfl

namespace Inside

theorem setOperations (h : K.Inside) (left : QueryBody) :
    K.Viable (BodyEnds level) (BodyEnds level) (BodyEnds level) near
      fun g n => g.setOperations level n left := by
  refine .loop (X := fun left g n => g.setOperations level n left) (e := id) ?_ ?_ left
  · rintro left g n r (rfl | ends) p hp
    · exact setOperations_of_stops hp fun op hop => by cases hop
    · exact setOperations_of_stops hp ends.2
  · intro fill left n s less others
    by_cases stops : StopsBody level s
    · have here : ∀ r, Fits (BodyEnds level) r → BodyEnds level r ∧ StopsBody level r := fun r fits =>
        ⟨fits.1, fits.1.2⟩
      refine (Goes.pure left here).told stops (fun s' near op hop => stops op (near.kindAt ▸ hop))
        fun s g n p stops hp => ?_
      rw [setOperations_of_stops hp stops]
      rfl
    · obtain ⟨op, announced, tight⟩ : ∃ op, setOp? (kindAt s 0) = some op ∧ level ≤ op.precedence := by
        simpa [StopsBody] using stops
      cases s with
      | nil => cases announced
      | cons first s =>
        have operand : K.Viable (Starts [SELECT]) (Starts [SELECT]) (BodyEnds level) True fun g _ =>
            setQuantifier >>= fun quantifier => g.body (op.precedence + 1) >>= fun right =>
              pure (QueryBody.compound op quantifier left right) :=
          .bind (viable_setQuantifier (by decide)) fun quantifier =>
            .made (QueryBody.compound op quantifier left)
            ((h.body _).before fun r ends => ends.mono (by omega)).here
        have goes : K.Goes Anything (BodyEnds level) near (fun g n => setQuantifier >>= fun quantifier =>
            g.body (op.precedence + 1) >>= fun right =>
              g.setOperations level n (.compound op quantifier left right)) n s := by
          have node := (operand.course n s (Nat.le_of_succ_le_succ less)).bind (fun a u r whole _ =>
              others a r (by
            rw [whole, List.length_cons, List.length_append]
            omega)) fill fun _ h => h
          simp only [bind_assoc, pure_bind] at node
          exact node.mono (fun _ _ _ => trivial) (fun _ h => h) id
        have filled := operand.anywhere.fill.bind fill
        simp only [bind_assoc, pure_bind] at filled
        refine goes.descend.deeper (w := [first]) filled.descend (by simp) trivial (fun _ _ => trivial)
          fun s g n p _ hp => ?_
        rw [setOperations_of_announced hp announced tight]
        exact descend_skip (w := [first]) _ hp

theorem setOperand (h : K.Inside) :
    K.Viable Nothing (Starts [SELECT]) (BodyEnds level) near (fun g _ => g.setOperand) := by
  have nested : K.Viable Nothing Anything (BodyEnds level) near fun g _ =>
      between leftParen rightParen g.query >>= fun query => pure (QueryBody.nested query) :=
    (Viable.between (h.queryBefore (by decide)) (by decide) (by decide)).made QueryBody.nested
  refine .ahead ((h.selectBlock fun r ends => ends.1).made QueryBody.block) ?_ fun r hr => hr.sees
  refine .sees (Y := fun b g _ => if b = true then between leftParen rightParen g.query >>= fun query =>
    pure (QueryBody.nested query) else fail .queryBody) fun b => ?_
  cases b with
  | true => exact nested.course.mono (fun _ _ h => h.elim) (fun _ h => h) id
  | false => exact .fail _

theorem bodyRule (h : K.Inside) (level : ℕ) :
    K.Viable Nothing (Starts [SELECT]) (BodyEnds level) near (fun g _ => g.bodyRule level) := by
  simp only [bodyRule_eq_setOperations]
  exact .bind h.setOperand fun left => (h.setOperations left).remaining

/-! ### Around the body -/

theorem commonTable (h : K.Inside) : K.Viable Nothing (StartsWith someName) F near
    (fun g _ => g.commonTable) :=
  .bind viable_identifier fun name => .bind (G := Starts [AS]) (viable_optionalNameList fun _ h =>
    h.admits (by decide))
    fun columns => .closing ((Viable.between (h.queryBefore (by decide)) (by decide) (by decide)).made
      (CommonTable.mk name columns)) (by decide)

theorem withClause (h : K.Inside) (apart : Terminal.symbol comma ∉ us) :
    K.Viable Anything Anything (Starts us) near (fun g _ => g.withClause) := by
  have word : K.Viable (StartsWith someName) (StartsWith someName)
      (StartsWith someName) True fun _ _ => accept RECURSIVE :=
    .accepted (by rintro r ⟨s, rfl⟩; rfl)
  exact (Viable.bind word fun recursive => ((Viable.list h.commonTable apart).made
    (WithClause.mk recursive)).here).anywhere

theorem setting (h : K.Inside) (ends : us.all Terminal.endsExpr = true) :
    K.Viable Nothing (StartsWith someName) (Starts us) near (fun g _ => g.setting) :=
  .bind viable_identifier fun name => .closing ((h.anyExpr ends).made (Setting.mk name)) (by decide)

theorem limit (h : K.Inside) (ends : us.all Terminal.endsExpr = true)
    (apart : Absent [comma, OFFSET] us) :
    K.Viable Nothing (StartsWith someNumber) (Starts us) near (fun g _ => g.limit) := by
  refine .bind (G := Starts us) (h.anyExpr ends) fun first => ?_
  have offset : K.Viable (Starts us) (Starts us) (Starts us) near fun g _ =>
      optional OFFSET g.anyExpr >>= fun offset => pure (⟨first, offset⟩ : Limit) :=
    (Viable.clause (h.anyExpr ends) (apart _ (by simp))).made (Limit.mk first)
  have noComma : ∀ r, Starts us r → Starts us r ∧ (Terminal.symbol comma).admits (kindAt r 0) = false :=
    fun r h => ⟨h, h.admits (apart _ (by simp))⟩
  exact .reject ((h.anyExpr ends).made fun limit => (⟨limit, some first⟩ : Limit))
    (offset.mono (fun r _ => noComma r) noComma (fun _ h => h) id)

theorem queryRule (h : K.Inside) :
    K.Viable Nothing (Starts [SELECT]) (Starts queryEnds) near (fun g _ => g.queryRule) := by
  have bare : ∀ r, Starts queryEnds r → BodyEnds 0 r := fun r h =>
    .of_begins h.begins (by decide) (by decide)
  refine .descend (.bind_solid (.clause (h.withClause (by decide)) (by decide)) fun tables => ?_)
  refine .bind ((h.bodyRule 0).before bare) fun body => ?_
  refine .bind (.listClause (h.orderItems (by decide) (by decide)) (by decide)) fun orderBy =>
    .bind (.clause (h.limit (by decide) (by decide)) (by decide)) fun limit => ?_
  refine .bind (.listClause (.list (h.setting (by decide)) (by decide)) (by decide)) fun settings => ?_
  exact .made (Query.mk tables body orderBy limit settings) (.clause (viable_label _) (by decide))

end Inside

end Completion

end CanonicalSql
