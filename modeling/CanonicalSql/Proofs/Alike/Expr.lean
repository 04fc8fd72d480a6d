import CanonicalSql.Parser.Expr
import CanonicalSql.Proofs.Alike.Step
import CanonicalSql.Proofs.Course.Operator

/-! The rules for names, types and expressions over token vectors that go together: they end alike if those
of the grammar for what stands inside do. -/

namespace CanonicalSql

open Keyword Word CanonicalSql.Symbol

namespace Parse.Idle

/-! ### Loops that stop -/

theorem caseArms (g : Grammar) (count : ℕ) : (g.caseArms count).Idle [] := by
  cases count with
  | zero => exact .pure []
  | succ count => exact .bind (.accept _) (.pure [])

theorem operators (g : Grammar) (level count : ℕ) (left : Expr) :
    (g.operators level count left).Idle left := by
  cases count with
  | zero => exact .pure left
  | succ count =>
    exact .peek (.peekAt fun _ => .pure left) (.peekAt fun _ => .pure left) (.peekAt fun _ => .pure left)

end Parse.Idle

namespace Likeness

open Parse Grammar

variable {L : Likeness} {g g' : Grammar}

/-! ### Names -/

/-- Where the first vector ends no name is written on either side. -/
theorem Beside.name? {c d : Cursor} (h : L.Beside c d) :
    d.current.kind.name? = c.current.kind.name? :=
  h.told Token.Kind.name? (by rintro k (rfl | rfl) <;> rfl)

theorem alike_identifier : L.Alike identifier identifier := by
  intro c d
  refine .peek ⟨rfl, rfl⟩ ?_
  cases hn : c.current.kind.name? with
  | none => exact .fail _
  | some name => exact .discard_advance (Token.Kind.of_name? hn).2 fun _ _ _ => .pure rfl

theorem alike_qualifiedName : L.Alike qualifiedName qualifiedName :=
  .bind alike_identifier fun _ => .accept (.bind alike_identifier fun _ => .pure _) (.pure _)

theorem alike_label (expected : Expectation) : L.Alike (label expected) (label expected) := by
  intro c d
  refine .of_beside fun beside => .current ?_
  by_cases ended : c.current.kind = .eof
  · rcases beside.ended ended with ⟨-, hd⟩ | ⟨-, hd | hd⟩ <;> rw [ended, hd] <;> exact .fail expected
  · have alike := beside.like ended
    rw [L.kind_eq alike, L.text_eq alike]
    split
    · exact .discard_advance ended fun _ _ _ => .pure rfl
    · exact .discard_advance ended fun _ _ _ => .pure rfl
    · exact .discard_advance ended fun _ _ _ => .pure rfl
    · exact .fail expected

theorem alike_stringLiteral (expected : Expectation) :
    L.Alike (stringLiteral expected) (stringLiteral expected) := by
  intro c d
  refine .peek ⟨rfl, rfl⟩ ?_
  cases hk : c.current.kind with
  | string value => exact .discard_advance (by simp [hk]) fun _ _ _ => .pure rfl
  | _ => exact .fail expected

theorem alike_aliasName : L.Alike aliasName aliasName :=
  .accept (.map some alike_identifier)
    (.peek ⟨rfl, rfl⟩ fun _ => .ite (.map some alike_identifier) (.pure _))

theorem alike_nameList : L.Alike nameList nameList :=
  .between _ _ (.commaList alike_identifier)

theorem alike_optionalNameList : L.Alike optionalNameList optionalNameList :=
  .seen alike_nameList (.pure _)

theorem alike_ifNotExists : L.Alike ifNotExists ifNotExists := .acceptAll (by decide)

theorem alike_ifExists : L.Alike ifExists ifExists := .acceptAll (by decide)

theorem alike_onCluster : L.Alike onCluster onCluster :=
  .bind (.acceptAll (by decide)) fun _ => .ite (.map some alike_identifier) (.pure _)

/-! ### Grammars -/

/-- Whether the rules of two grammars end alike over vectors that go together.  No expression is read at the
end. -/
structure Grammars (L : Likeness) (g g' : Grammar) : Prop where
  refuses : ∀ level, (g.expr level).Refuses
  expr : ∀ level, L.Alike (g.expr level) (g'.expr level)
  query : L.Alike g.query g'.query
  body : ∀ level, L.Alike (g.body level) (g'.body level)
  dataType : L.Alike g.dataType g'.dataType
  statement : L.Alike g.statement g'.statement

namespace Grammars

theorem anyExpr (h : L.Grammars g g') : L.Alike g.anyExpr g'.anyExpr := h.expr 0

/-! ### Types -/

theorem typeArgument (h : L.Grammars g g') : L.Alike g.typeArgument g'.typeArgument := by
  intro c d
  refine .peek ⟨rfl, rfl⟩ ?_
  cases hk : c.current.kind with
  | number | string => exact .discard_advance (by simp [hk]) fun _ _ _ => .pure rfl
  | ident | quotedIdent => exact (Alike.map _ h.dataType) c d
  | _ => exact .fail _

theorem dataTypeRule (h : L.Grammars g g') : L.Alike g.dataTypeRule g'.dataTypeRule := by
  intro c d
  refine .peek ⟨rfl, rfl⟩ ?_
  cases hn : c.current.kind.name? with
  | none => exact .fail _
  | some name =>
    refine .discard_advance (Token.Kind.of_name? hn).2 fun c' d' _ => ?_
    exact Alike.bind (.optionalList _ (.bind (.commaListUpTo _ (.peek (.fail _)) h.typeArgument) fun _ =>
      .expect (.pure _))) (fun _ => .pure _) c' d'

/-! ### Windows -/

theorem sortDirection : L.Alike sortDirection sortDirection :=
  .accept (.pure _) (.accept (.pure _) (.pure _))

theorem orderItem (h : L.Grammars g g') : L.Alike g.orderItem g'.orderItem :=
  .bind h.anyExpr fun _ => .bind sortDirection fun _ =>
    .bind (.optional _ (.accept (.pure _) (.accept (.pure _) (.fail _)))) fun _ => .pure _

theorem orderItems (h : L.Grammars g g') : L.Alike g.orderItems g'.orderItems :=
  .expect (.commaList h.orderItem)

theorem frameBound (h : L.Grammars g g') : L.Alike g.frameBound g'.frameBound :=
  .accept (.accept (.pure _) (.expect (.pure _)))
    (.accept (.expect (.pure _))
      (.bind (h.expr _) fun _ => .accept (.pure _) (.accept (.pure _) (.fail _))))

theorem frame (h : L.Grammars g g') (unit : FrameUnit) : L.Alike (g.frame unit) (g'.frame unit) :=
  .accept (.bind h.frameBound fun _ => .expect (.bind h.frameBound fun _ => .pure _))
    (.bind h.frameBound fun _ => .pure _)

theorem frameUnit : L.Alike frameUnit frameUnit :=
  .accept (.pure _) (.accept (.pure _) (.pure _))

theorem windowParts (h : L.Grammars g g') : L.Alike g.windowParts g'.windowParts := by
  refine .bind (.optionalList _ (.expect (.commaList h.anyExpr))) fun _ =>
    .bind (.optionalList _ h.orderItems) fun _ => .bind frameUnit fun unit => ?_
  cases unit with
  | none => exact .pure _
  | some unit => exact .bind (h.frame unit) fun _ => .pure _

theorem window (h : L.Grammars g g') : L.Alike g.window g'.window := .between _ _ h.windowParts

/-! ### Operands -/

theorem callArgs (h : L.Grammars g g') : L.Alike g.callArgs g'.callArgs :=
  .accept (.pure _) (.seen_of_refused (.accept (h.refuses 0).bind.bind) (.pure _)
    (.bind (.accepted _) fun _ => .bind (.commaList h.anyExpr) fun _ => .pure _))

theorem call (h : L.Grammars g g') (name : String) : L.Alike (g.call name) (g'.call name) :=
  .bind (.between _ _ h.callArgs) fun _ => .bind (.optional _ h.window) fun _ => .pure _

theorem named (h : L.Grammars g g') (first : String) : L.Alike (g.named first) (g'.named first) :=
  .seen (h.call first) (.accept
    (.bind alike_identifier fun _ => .accept (.bind alike_identifier fun _ => .pure _) (.pure _))
    (.pure _))

theorem caseArms (h : L.Grammars g g') :
    L.Alike (remaining >>= g.caseArms) (remaining >>= g'.caseArms) := by
  refine .loop (σ := Unit) (e := fun _ => []) (x := fun n _ => g.caseArms n)
    (y := fun n _ => g'.caseArms n) (fun n _ => .caseArms g n) (fun n _ => .caseArms g' n) ?_ ()
  intro n m _ c d others
  refine .accept (fun _ c1 d1 first => (h.anyExpr c1 d1).bind ?_) fun _ => .pure rfl
  rintro condition _ c2 d2 rfl less2
  refine .expect fun c3 d3 second => (h.anyExpr c3 d3).bind ?_
  rintro result _ c4 d4 rfl less4
  refine (others () c4 d4 (by omega)).bind ?_
  rintro arms _ c5 d5 rfl -
  exact .pure rfl

/-- A case distinction from behind what it is about. -/
theorem casesBehind (h : L.Grammars g g') (operand : Option Expr) : L.Alike
    (do
      let arms ← g.caseArms (← remaining)
      if arms.isEmpty then Parse.fail .caseArm
      let otherwise ← Parse.optional ELSE g.anyExpr
      expect END
      return Expr.cases operand arms otherwise)
    (do
      let arms ← g'.caseArms (← remaining)
      if arms.isEmpty then Parse.fail .caseArm
      let otherwise ← Parse.optional ELSE g'.anyExpr
      expect END
      return Expr.cases operand arms otherwise) := by
  refine .behind h.caseArms fun arms => ?_
  have others : ∀ arms, L.Alike
      (do
        let otherwise ← Parse.optional ELSE g.anyExpr
        expect END
        return Expr.cases operand arms otherwise)
      (do
        let otherwise ← Parse.optional ELSE g'.anyExpr
        expect END
        return Expr.cases operand arms otherwise) := fun _ =>
    .bind (.optional _ h.anyExpr) fun _ => .expect (.pure _)
  exact .ite (.bind (.fail _) fun _ => others arms) (others arms)

theorem cases (h : L.Grammars g g') : L.Alike g.cases g'.cases := by
  refine .sees fun found => ?_
  cases found with
  | true => exact .bind (.pure none) h.casesBehind
  | false => exact .bind (.map some h.anyExpr) h.casesBehind

theorem cast (h : L.Grammars g g') : L.Alike g.cast g'.cast :=
  .between _ _ (.bind h.anyExpr fun _ => .expect (.bind h.dataType fun _ => .pure _))

theorem interval (h : L.Grammars g g') : L.Alike g.interval g'.interval := by
  refine .bind (h.expr _) fun value c d => .peek ⟨rfl, rfl⟩ ?_
  cases hk : c.current.kind with
  | ident unit => exact .discard_advance (by simp [hk]) fun _ _ _ => .pure rfl
  | _ => exact .fail _

theorem parenthesized (h : L.Grammars g g') : L.Alike g.parenthesized g'.parenthesized := by
  refine .peek ⟨rfl, rfl⟩ fun k => .ite (.bind h.query fun _ => .pure _)
    (.bind (.commaList h.anyExpr) fun items => ?_)
  rcases items with _ | ⟨first, _ | ⟨second, others⟩⟩ <;> exact .pure _

/-- The operand that a keyword starts, which is asked for its text and its place only. -/
theorem keywordOperand (h : L.Grammars g g') {t t' : Token} (alike : L.like t t') (k : Keyword) :
    L.Alike (g.keywordOperand t k) (g'.keywordOperand t' k) := by
  unfold Grammar.keywordOperand
  split
  · exact .pure _
  · exact .pure _
  · exact .pure _
  · exact h.cases
  · exact h.cast
  · exact .bind (.between _ _ h.query) fun _ => .pure _
  · exact h.interval
  · exact .sees fun _ => .ite (L.text_eq alike ▸ h.call t.text) (.failAt _ alike)

theorem symbolOperand (h : L.Grammars g g') {t t' : Token} (alike : L.like t t') (s : Symbol) :
    L.Alike (g.symbolOperand t s) (g'.symbolOperand t' s) := by
  unfold Grammar.symbolOperand
  split
  · exact .bind (.commaListUpTo _ (h.refuses 0) h.anyExpr) fun _ => .expect (.pure _)
  · exact .bind h.parenthesized fun _ => .expect (.pure _)
  · exact .failAt _ alike

/-- No operand starts at the end. -/
theorem operand_of_ended (g : Grammar) {p : Parser} (h : p.cursor.current.kind = .eof) :
    g.operand p = .error (.unexpected p.cursor.current .expression) p := by
  have stays : p.cursor.advance = p.cursor := by rw [Cursor.advance, if_pos h]
  have first : Parse.advance p = .ok p.cursor.current p := by rw [Parse.advance, stays]
  unfold Grammar.operand
  change EStateM.bind Parse.advance _ p = _
  rw [EStateM.bind, first]
  dsimp only
  rw [h]
  rfl

theorem operand (h : L.Grammars g g') : L.Alike g.operand g'.operand := by
  intro c d
  by_cases ended : c.current.kind = .eof
  · intro beside depth limit
    rw [operand_of_ended g ended]
    rcases beside.ended ended with ⟨closed, hd⟩ | ⟨more, -⟩
    · rw [operand_of_ended g' hd]
      exact .refusal closed (.unexpected _ (beside.like_of_closed closed))
    · exact .cut (more ▸ d.upcoming_ne_nil)
  · refine .advance ended fun c' d' alike _ => ?_
    rw [L.kind_eq alike]
    cases hk : c.current.kind with
    | number | string | question | questionNumber | colonParam | dollarParam => exact .pure rfl
    | ident name | quotedIdent name => exact h.named name c' d'
    | keyword k => exact h.keywordOperand alike k c' d'
    | symbol s => exact h.symbolOperand alike s c' d'
    | eof => exact absurd hk ended

theorem signedOperand (h : L.Grammars g g') : L.Alike g.signedOperand g'.signedOperand :=
  .accept (.bind (h.expr _) fun _ => .pure _) (.accept (.bind (h.expr _) fun _ => .pure _)
    (.accept (.bind (h.expr _) fun _ => .pure _) h.operand))

/-! ### Operators -/

theorem memberSet (h : L.Grammars g g') : L.Alike g.memberSet g'.memberSet :=
  .peek ⟨rfl, rfl⟩ fun _ => .ite (.bind h.query fun _ => .pure _)
    (.bind (.commaList h.anyExpr) fun _ => .pure _)

theorem continued (h : L.Grammars g g') (left : Expr) (op : Continuation) :
    L.Alike (g.continued left op) (g'.continued left op) := by
  cases op with
  | subscript => exact .bind h.anyExpr fun _ => .expect (.pure _)
  | binary => exact .bind (h.expr _) fun _ => .pure _
  | nullTest => exact .bind (.accepted _) fun _ => .expect (.pure _)
  | between => exact .bind (h.expr _) fun _ => .expect (.bind (h.expr _) fun _ => .pure _)
  | member => exact .bind (.between _ _ h.memberSet) fun _ => .pure _
  | like => exact .bind (h.expr _) fun _ => .pure _

/-- The operator ahead is the same on both sides, and it ends before the tokens do. -/
theorem ofKinds?_ahead {c d : Cursor} (h : L.Beside c d) :
    Continuation.ofKinds? d.current.kind (d.peekAt 1).kind =
        Continuation.ofKinds? c.current.kind (c.peekAt 1).kind ∧
      ∀ op, Continuation.ofKinds? c.current.kind (c.peekAt 1).kind = some op →
        op.width ≤ c.remaining := by
  by_cases ended : c.current.kind = .eof
  · rw [ended]
    refine ⟨?_, fun op no => by cases no⟩
    rcases h.ended ended with ⟨-, hd⟩ | ⟨-, hd | hd⟩ <;> rw [hd] <;> rfl
  have some : c.remaining ≠ 0 := mt h.atEnd_iff.2 ended
  obtain ⟨c', d', beside, hc, hd, moved⟩ := h.ahead (n := 1) (by omega)
  rw [← hc, ← hd, L.kind_eq (h.like ended)]
  constructor
  · refine beside.told (Continuation.ofKinds? c.current.kind) ?_
    rintro k (rfl | rfl)
    all_goals
      generalize c.current.kind = first
      rcases first with _ | _ | _ | _ | _ | _ | _ | _ | _ | k | _
      case keyword => cases k <;> rfl
      all_goals rfl
  · intro op announced
    obtain ⟨-, -, second, width⟩ := Continuation.silent_of_ofKinds? announced
    rcases width with one | two
    · omega
    · have more := mt beside.atEnd_iff.2 (second two).2
      omega

theorem operators (h : L.Grammars g g') (level : Nat) (left : Expr) :
    L.Alike (remaining >>= fun n => g.operators level n left)
      (remaining >>= fun n => g'.operators level n left) := by
  refine .loop (e := fun left => left) (fun n left => .operators g level n left)
    (fun n left => .operators g' level n left) ?_ left
  intro n m left c d others
  refine .of_beside fun beside => ?_
  obtain ⟨same, width⟩ := ofKinds?_ahead beside
  refine .look (a := c.current.kind) (b := d.current.kind) (fun p hp => by rw [peek, hp])
    (fun p hp => by rw [peek, hp]) (.look (a := (c.peekAt 1).kind) (b := (d.peekAt 1).kind)
      (fun p hp => by rw [peekAt, hp]) (fun p hp => by rw [peekAt, hp]) ?_)
  rw [same]
  cases announced : Continuation.ofKinds? c.current.kind (c.peekAt 1).kind with
  | none => exact .pure rfl
  | some op =>
    dsimp only
    split
    · exact .pure rfl
    · refine .descend (.skip (width op announced) fun c1 d1 moved => (h.continued left op c1 d1).bind ?_)
      rintro left' _ c2 d2 rfl less
      have some : 0 < op.width := by
        rcases (Continuation.silent_of_ofKinds? announced).2.2.2 with hw | hw <;> omega
      exact others left' c2 d2 (by omega)

/-- No expression is read at the end. -/
theorem refuses_exprRule (g : Grammar) (level : Nat) : (g.exprRule level).Refuses :=
  .descend (.bind (.accept (.accept (.accept fun p ended => ⟨_, p, operand_of_ended g ended⟩))))

theorem exprRule (h : L.Grammars g g') (level : Nat) :
    L.Alike (g.exprRule level) (g'.exprRule level) := by
  rw [exprRule_eq_operators, exprRule_eq_operators]
  exact .descend (.bind h.signedOperand fun left => h.operators level left)

end Grammars

end Likeness

end CanonicalSql
