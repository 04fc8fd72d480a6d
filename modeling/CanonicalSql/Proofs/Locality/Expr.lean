import CanonicalSql.Proofs.Locality.Step

/-! The rules for names, types and expressions over tokens up to a mark of the end and over the same tokens
with others behind them.  Windows, arguments and types are inside what closes them.  What an expression can end
with stops in front of other tokens unless they continue it. -/

namespace CanonicalSql

open Keyword Word CanonicalSql.Symbol

/-- Only behind `NOT` does the next token tell which operator is announced. -/
theorem Continuation.ofKinds?_of_ne {first : Token.Kind} (h : first ≠ .keyword NOT) (next next' : Token.Kind) :
    ofKinds? first next = ofKinds? first next' := by
  cases first with
  | keyword k => cases k <;> first | rfl | exact absurd rfl h
  | _ => rfl

/-- Both cursors are in front of the same operator, unless nothing but `NOT` is left. -/
theorem Cursor.Before.ofKinds? {tail c d : Cursor} (h : c.Before tail d) (stops : tail.Stops) :
    c.Stuck ∨ Continuation.ofKinds? d.current.kind (d.peekAt 1).kind =
      Continuation.ofKinds? c.current.kind (c.peekAt 1).kind := by
  by_cases ended : c.current.kind = .eof
  · have there := h.ended ended
    have silent := mt .inl stops.silent
    rw [Bool.not_eq_true, Option.isSome_eq_false_iff, Option.isNone_iff_eq_none] at silent
    rw [current_of_upcoming there, peekAt_of_upcoming there, silent, ended]
    exact .inr rfl
  rw [(h.advance ended).1]
  rcases Nat.lt_or_ge 1 c.remaining with more | last
  · exact .inr (by rw [h.peekAt more])
  by_cases negation : c.current.kind = .keyword NOT
  · exact .inl ⟨h.lost_of_loose last (.inr (.inl negation)), ended⟩
  · exact .inr (Continuation.ofKinds?_of_ne negation _ _)

namespace Parse

/-- Both runs pass over the tokens that announce an operator. -/
theorem NearAt.skip {α : Type} {tail d : Cursor} {givenUp : Cursor → Prop} {p : Parser} {c : Continuation}
    {x : Parse α} (before : p.cursor.Before tail d)
    (announced : Continuation.ofKinds? p.cursor.current.kind (p.cursor.peekAt 1).kind = some c)
    (hx : Near tail givenUp x) : NearAt tail givenUp (Parse.skip c.width >>= fun _ => x) p d := by
  obtain ⟨-, inside, second, width⟩ := Continuation.silent_of_ofKinds? announced
  have behind := (before.advance inside).2
  rcases width with one | two
  · rw [one]
    exact .advance (f := fun _ => x) before inside (hx { p with cursor := p.cursor.advance } _ behind)
  · have inside' : p.cursor.advance.current.kind ≠ .eof := by
      rw [before.current_advance inside]
      exact (second two).2
    rw [two]
    refine .advance (f := fun _ => Parse.advance >>= fun _ => x) before inside ?_
    refine .advance (f := fun _ => x) (p := { p with cursor := p.cursor.advance }) behind inside' ?_
    exact hx { p with cursor := p.cursor.advance.advance } _ (behind.advance inside').2

variable {tail : Cursor}

/-! ### Names -/

theorem inner_identifier : Inner tail identifier := by
  apply Inner.peek
  intro k
  cases k.name? with
  | none => exact .fail _
  | some name => exact .discard_advance (.pure name)

theorem inner_qualifiedName : Inner tail qualifiedName :=
  .bind inner_identifier fun _ => .accept (.bind inner_identifier fun _ => .pure _) (.pure _)

theorem inner_label (expected : Expectation) : Inner tail (label expected) := by
  apply Inner.current
  intro token
  cases token.kind with
  | ident name | quotedIdent name => exact .discard_advance (.pure name)
  | keyword k => exact .discard_advance (.pure token.text)
  | _ => exact .fail _

theorem inner_aliasName : Inner tail aliasName :=
  .accept (.map some inner_identifier) (.peek fun _ => .ite (.map some inner_identifier) (.pure none))

theorem inner_nameList (stops : tail.Stops) : Inner tail nameList :=
  .between (inner_identifier.commaList stops)

theorem inner_optionalNameList (stops : tail.Stops) : Inner tail optionalNameList :=
  .sees fun _ => .ite (inner_nameList stops) (.pure [])

/-- No loose token is a name. -/
theorem solid_identifier : Solid tail identifier := by
  refine .peek (fun k => ?_) (fun k loose p a q run => ?_) fun p d inside before => ?_
  · cases k.name? with
    | none => exact .of_together (.fail _)
    | some name => exact .of_together (.discard_advance (.pure name))
  · rcases loose with rfl | rfl | rfl <;> cases run
  · cases p.cursor.current.kind.name? with
    | none => exact fun _ _ run => by cases run
    | some name => exact .advance (f := fun _ => pure name) before inside (.pure (before.advance inside).2 name)

end Parse

namespace Grammar

open Parse

variable {tail : Cursor} {g : Grammar}

/-- Whether the rules of a grammar are inside, and those for expressions take more than loose tokens. -/
structure Local (tail : Cursor) (g : Grammar) : Prop where
  stops : tail.Stops
  planned : g.Planned
  expr : ∀ level, Solid tail (g.expr level)
  advances : Parse.Advances g.anyExpr fun _ => True
  query : Inner tail g.query
  body : ∀ level, Inner tail (g.body level)
  dataType : Inner tail g.dataType

theorem inner_sortDirection : Inner tail sortDirection := .accept (.pure _) (.accept (.pure _) (.pure _))

theorem inner_frameUnit : Inner tail frameUnit := .accept (.pure _) (.accept (.pure _) (.pure _))

namespace Local

variable (h : g.Local tail)
include h

theorem anyExpr : Solid tail g.anyExpr := h.expr 0

theorem inner : Inner tail g.anyExpr := h.anyExpr.inner

theorem list : Inner tail (commaList g.anyExpr) := h.inner.commaList h.stops

/-! ### Types -/

theorem typeArgument : Inner tail g.typeArgument := by
  apply Inner.peek
  intro k
  cases k with
  | number t => exact .discard_advance (.pure _)
  | string value => exact .discard_advance (.pure _)
  | ident | quotedIdent => exact .map _ h.dataType
  | _ => exact .fail _

theorem dataTypeRule : Inner tail g.dataTypeRule := by
  apply Inner.peek
  intro k
  cases k.name? with
  | none => exact .fail _
  | some name =>
    refine .discard_advance (.bind (.optionalList ?_) fun _ => .pure _)
    exact .bind (h.typeArgument.commaListUpTo h.stops) fun args => .expect (.pure args)

/-! ### Windows and calls -/

theorem orderItem : Inner tail g.orderItem :=
  .bind h.inner fun _ => .bind inner_sortDirection fun _ =>
    .bind (.optional (.accept (.pure _) (.accept (.pure _) (.fail _)))) fun _ => .pure _

theorem orderItems : Inner tail g.orderItems := .expect (h.orderItem.commaList h.stops)

theorem frameBound : Inner tail g.frameBound := by
  refine .accept (.accept (.pure _) (.expect (.pure _))) (.accept (.expect (.pure _)) ?_)
  exact .bind (h.expr _).inner fun _ => .accept (.pure _) (.accept (.pure _) (.fail _))

theorem frame (unit : FrameUnit) : Inner tail (g.frame unit) :=
  .accept (.bind h.frameBound fun _ => .expect (.bind h.frameBound fun _ => .pure _))
    (.bind h.frameBound fun _ => .pure _)

theorem windowParts : Inner tail g.windowParts := by
  refine .bind (.optionalList (.expect h.list)) fun _ =>
    .bind (.optionalList h.orderItems) fun _ => .bind inner_frameUnit fun unit => ?_
  cases unit with
  | none => exact .pure _
  | some unit => exact .bind (h.frame unit) fun _ => .pure _

theorem window : Solid tail g.window := .between (by decide) (by decide) h.windowParts

theorem callArgs : Inner tail g.callArgs := by
  refine .accept (.pure _) (.sees fun _ => .ite (.pure _) ?_)
  exact .bind (.accepted _) fun _ => .bind h.list fun _ => .pure _

/-- Behind the arguments a call ends, unless a window follows. -/
theorem call (name : String) : Solid tail (g.call name) :=
  .bind (.between (by decide) (by decide) h.callArgs) fun _ =>
    .bind (.optional (h.stops.quiet (by simp)) h.window) fun _ => .pure _

/-- What a name starts ends behind the arguments of a call or behind a part of a column path. -/
theorem named (first : String) : Edge tail (g.named first) := by
  refine .sees (h.stops.quiet (by simp)) fun _ => .ite (h.call first).edge ?_
  refine .accept (h.stops.quiet (by simp)) (.bind solid_identifier fun _ => ?_) (.pure _)
  exact .accept (h.stops.quiet (by simp)) (.bind solid_identifier fun _ => .pure _) (.pure _)

/-! ### Operands -/

theorem caseArms (count : ℕ) : Inner tail (g.caseArms count) := by
  induction count with
  | zero => exact .pure []
  | succ count ih =>
    refine .accept (.bind h.inner fun _ => .expect ?_) (.pure [])
    exact .bind h.inner fun _ => .bind ih fun _ => .pure _

theorem cases : Solid tail g.cases := by
  have behind : ∀ (arms : List CaseArm) (operand : Option Expr), Solid tail
      (do
        let otherwise ← Parse.optional ELSE g.anyExpr
        expect END
        return Expr.cases operand arms otherwise) :=
    fun _ _ => .behind h.inner.optional fun _ => .expect (by decide) (.pure _)
  have arms : Inner tail (Parse.remaining >>= g.caseArms) :=
    .loop h.planned.loops.arms.unbounded h.stops () h.caseArms
  refine .behind (.seen WHEN) fun plain =>
    .ite (.behind (.pure none) fun operand => ?_) (.behind (.map some h.inner) fun operand => ?_)
  all_goals
    beta_reduce
    rw [← bind_assoc]
    refine .behind arms fun arms => .ite (.behind (.fail _) fun _ => ?_) ?_ <;>
      exact behind arms operand

theorem cast : Solid tail g.cast :=
  .between (by decide) (by decide) (.bind h.inner fun _ => .expect (.bind h.dataType fun _ => .pure _))

/-- The unit of an interval is a bare word. -/
theorem interval : Solid tail g.interval := by
  refine .behind (h.expr _).inner fun value =>
    .peek (fun k => ?_) (fun k loose p a q run => ?_) fun p d inside before => ?_
  · cases k with
    | ident unit => exact .of_together (.discard_advance (.pure _))
    | _ => exact .of_together (.fail _)
  · rcases loose with rfl | rfl | rfl <;> cases run
  · cases p.cursor.current.kind with
    | ident unit => exact .advance (f := fun _ => pure _) before inside (.pure (before.advance inside).2 _)
    | _ => exact fun _ _ run => by cases run

theorem parenthesized : Inner tail g.parenthesized := by
  refine .peek fun _ => .ite (.map _ h.query) (.bind h.list fun items => ?_)
  rcases items with _ | ⟨item, _ | ⟨next, items⟩⟩
  · exact .pure _
  · exact .pure item
  · exact .pure _

theorem keywordOperand (token : Token) (k : Keyword) : Edge tail (g.keywordOperand token k) := by
  have other : ∀ functional : Bool, Edge tail
      (do if functional && (← sees leftParen) then g.call token.text else failAt token .expression) := by
    intro functional
    refine .sees (h.stops.quiet (by simp)) fun _ => .ite (h.call _).edge (Solid.failAt _ _).edge
  unfold Grammar.keywordOperand
  split
  · exact .pure _
  · exact .pure _
  · exact .pure _
  · exact h.cases.edge
  · exact h.cast.edge
  · exact (Solid.map _ (.between (by decide) (by decide) h.query)).edge
  · exact h.interval.edge
  · exact other _

theorem symbolOperand (token : Token) (s : Symbol) : Solid tail (g.symbolOperand token s) := by
  unfold Grammar.symbolOperand
  split
  · exact .behind (h.inner.commaListUpTo h.stops) fun _ => .expect (by decide) (.pure _)
  · exact .behind h.parenthesized fun _ => .expect (by decide) (.pure _)
  · exact .failAt _ _

theorem operand : Solid tail g.operand := by
  refine .advance (fun token => ?_) (fun token loose p a q run => ?_) fun token inside => ?_
  · cases token.kind with
    | keyword k => exact (h.keywordOperand token k).planned
    | symbol s => exact (h.symbolOperand token s).planned
    | ident name | quotedIdent name => exact (h.named name).planned
    | eof => exact .of_together (.failAt _ _)
    | _ => exact .pure _
  · rcases loose with hk | hk | hk <;> rw [hk] at run <;> cases run
  · cases hk : token.kind with
    | eof => exact absurd hk inside
    | keyword k => exact h.keywordOperand token k
    | symbol s => exact (h.symbolOperand token s).edge
    | ident name | quotedIdent name => exact h.named name
    | _ => exact .pure _

theorem signedOperand : Solid tail g.signedOperand := by
  have signed : ∀ (op : UnaryOp) (level : ℕ), Solid tail (do return Expr.unary op (← g.expr level)) :=
    fun _ level => .bind (h.expr level) fun _ => .pure _
  exact .accept (signed _ _) (.accept (signed _ _) (.accept (signed _ _) h.operand))

/-! ### Operators -/

theorem memberSet : Inner tail g.memberSet := .peek fun _ => .ite (.map _ h.query) (.map _ h.list)

theorem continued (left : Expr) (c : Continuation) : Solid tail (g.continued left c) := by
  cases c with
  | subscript => exact .behind h.inner fun _ => .expect (by decide) (.pure _)
  | binary op => exact .map _ (h.expr _)
  | nullTest => exact .behind (.accepted _) fun _ => .expect (by decide) (.pure _)
  | between negated =>
    exact .behind (h.expr _).inner fun _ => .expect (by decide) (Solid.map _ (h.expr _)).edge
  | member negated => exact .bind (.between (by decide) (by decide) h.memberSet) fun _ => .pure _
  | like op negated => exact .map _ (h.expr _)

theorem operators (level count : ℕ) (left : Expr) : Edge tail (g.operators level count left) := by
  induction count generalizing left with
  | zero => exact .pure left
  | succ count ih =>
    refine ⟨h.planned.operators level (count + 1) left, fun p a q stuck run => ?_, fun p d before => ?_⟩
    · rw [Grammar.operators, peek_bind, peekAt_bind, stuck.1.ofKinds?] at run
      cases run
      exact stuck
    · rcases before.ofKinds? h.stops with stuck | same
      -- Nothing but `NOT` is left in front of the mark: the shorter run ends there, whatever the longer one does.
      · intro a q run
        rw [Grammar.operators, peek_bind, peekAt_bind, stuck.1.ofKinds?] at run
        cases run
        exact .inl stuck
      · unfold NearAt
        rw [Grammar.operators, peek_bind, peekAt_bind, peek_bind, peekAt_bind]
        dsimp only
        rw [same]
        cases announced : Continuation.ofKinds? p.cursor.current.kind (p.cursor.peekAt 1).kind with
        | none => exact Near.pure left p d before
        | some c =>
          dsimp only
          split
          · exact Near.pure left p d before
          · exact NearAt.descend (.skip (p := { p with depth := p.depth + 1 }) before announced
              ((h.continued left c).bind ih).near)

theorem exprRule (level : ℕ) : Solid tail (g.exprRule level) := by
  rw [exprRule_eq_operators]
  exact .descend (.bind h.signedOperand fun left =>
    .loop (h.planned.unbounded_operators level) h.stops left fun count => h.operators level count left)

end Local

end Grammar

end CanonicalSql
