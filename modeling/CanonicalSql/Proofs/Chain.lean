import CanonicalSql.Parser.Query

/-! Chains as steps inside steps.  A chain counts its links and closes their levels all at once.  It does what
is done if each link runs the rest of the chain one level deeper and closes that level by itself, since the
links that are there already play no part in what a chain does. -/

namespace CanonicalSql

namespace Chain

variable {α β : Type}

theorem bind_of_ok {x : Chain α} {f : α → Chain β} {s s' : Linked} {a : α} (h : x s = .ok a s') :
    (x >>= f) s = f a s' := by
  change EStateM.bind x f s = _
  rw [EStateM.bind, h]

theorem bind_of_error {x : Chain α} {f : α → Chain β} {s s' : Linked} {e : ParseError}
    (h : x s = .error e s') : (x >>= f) s = .error e s' := by
  change EStateM.bind x f s = _
  rw [EStateM.bind, h]

/-- Whether the chain does the same whatever links are there already. -/
def Shifts (x : Chain α) : Prop := ∀ (p : Parser) (links more : Nat),
  x ⟨p, links + more⟩ = match x ⟨p, links⟩ with
    | .ok a s => .ok a ⟨s.parser, s.links + more⟩
    | .error e s => .error e ⟨s.parser, s.links + more⟩

namespace Shifts

theorem pure (a : α) : Shifts (Pure.pure a) := fun _ _ _ => rfl

theorem lift (x : Parse α) : Shifts (Chain.lift x) := by
  intro p links more
  unfold Chain.lift
  cases x p <;> rfl

theorem addLink : Shifts addLink := by
  intro p links more
  unfold Chain.addLink
  by_cases room : p.depth < p.limit
  · simp [room, Nat.add_right_comm]
  · simp [room]

theorem bind {x : Chain α} {f : α → Chain β} (hx : Shifts x) (hf : ∀ a, Shifts (f a)) :
    Shifts (x >>= f) := by
  intro p links more
  have first := hx p links more
  cases run : x ⟨p, links⟩ with
  | error e s =>
    rw [run] at first
    rw [bind_of_error run, bind_of_error first]
  | ok a s =>
    rw [run] at first
    rw [bind_of_ok run, bind_of_ok first]
    exact hf a s.parser s.links more

end Shifts

end Chain

namespace Parse

variable {α β : Type}

/-- A step in front of a chain can be made before it. -/
theorem leftChain_lift (x : Parse α) (f : α → Chain β) :
    leftChain (Chain.lift x >>= f) = x >>= fun a => leftChain (f a) := by
  funext p
  change (match EStateM.bind (Chain.lift x) f ⟨p, 0⟩ with | .ok _ _ => _ | .error _ _ => _) =
    EStateM.bind x (fun a => leftChain (f a)) p
  unfold EStateM.bind Chain.lift
  cases x p <;> rfl

/-- The chain behind a link can be run one level deeper. -/
theorem leftChain_addLink {f : Unit → Chain α} (h : (f ()).Shifts) :
    leftChain (Chain.addLink >>= f) = descend (leftChain (f ())) := by
  funext p
  change (match EStateM.bind Chain.addLink f ⟨p, 0⟩ with | .ok _ _ => _ | .error _ _ => _) = _
  unfold EStateM.bind Chain.addLink descend leftChain
  by_cases room : p.depth < p.limit
  · simp only [if_pos room]
    rw [h { p with depth := p.depth + 1 } 0 1]
    cases f () ⟨{ p with depth := p.depth + 1 }, 0⟩ <;> simp [Nat.sub_sub]
  · simp only [if_neg room]
    rfl

end Parse

namespace Grammar

open Parse

variable (g : Grammar) (level : Nat)

/-! ### Operators -/

/-- The expression that at most `count` operators of at least `level` make of `left`, each of which runs
those behind it one level deeper. -/
def operators (g : Grammar) (level : Nat) : (count : Nat) → (left : Expr) → Parse Expr
  | 0, left => return left
  | count + 1, left => do
    match Continuation.ofKinds? (← peek) (← peekAt 1) with
    | none => return left
    | some c =>
      if c.precedence < level then return left
      else
        descend do
          skip c.width
          let left ← g.continued left c
          g.operators level count left

theorem shifts_operatorChain (count : Nat) (left : Expr) : (g.operatorChain level count left).Shifts := by
  induction count generalizing left with
  | zero => exact .pure left
  | succ count ih =>
    refine .bind (.lift _) fun k => .bind (.lift _) fun next => ?_
    cases Continuation.ofKinds? k next with
    | none => exact .pure left
    | some c =>
      dsimp only
      split
      · exact .pure left
      · exact .bind .addLink fun _ => .bind (.lift _) fun _ => .bind (.lift _) fun left => ih left

theorem leftChain_operatorChain (count : Nat) (left : Expr) :
    leftChain (g.operatorChain level count left) = g.operators level count left := by
  induction count generalizing left with
  | zero => rfl
  | succ count ih =>
    rw [operatorChain, operators, leftChain_lift]
    refine congrArg _ (funext fun k => ?_)
    rw [leftChain_lift]
    refine congrArg _ (funext fun next => ?_)
    cases Continuation.ofKinds? k next with
    | none => rfl
    | some c =>
      dsimp only
      split
      · rfl
      · rw [leftChain_addLink, leftChain_lift]
        · refine congrArg (fun x => descend (_ >>= x)) (funext fun _ => ?_)
          rw [leftChain_lift]
          exact congrArg _ (funext ih)
        · exact .bind (.lift _) fun _ => .bind (.lift _) fun left => g.shifts_operatorChain level count left

/-- The levels of an expression are those of steps inside steps. -/
theorem exprRule_eq_operators : g.exprRule level = descend (do
    let left ← g.signedOperand
    g.operators level (← remaining) left) := by
  simp only [exprRule, leftChain_operatorChain]

/-! ### Set operations -/

/-- The body that at most `count` set operations of at least `level` make of `left`, each of which runs those
behind it one level deeper. -/
def setOperations (g : Grammar) (level : Nat) : (count : Nat) → (left : QueryBody) → Parse QueryBody
  | 0, left => return left
  | count + 1, left => do
    match setOp? (← peek) with
    | none => return left
    | some op =>
      if op.precedence < level then return left
      else
        descend do
          discard advance
          let quantifier ← setQuantifier
          let right ← g.body (op.precedence + 1)
          g.setOperations level count (.compound op quantifier left right)

theorem shifts_setOperationChain (count : Nat) (left : QueryBody) :
    (g.setOperationChain level count left).Shifts := by
  induction count generalizing left with
  | zero => exact .pure left
  | succ count ih =>
    refine .bind (.lift _) fun k => ?_
    cases setOp? k with
    | none => exact .pure left
    | some op =>
      dsimp only
      split
      · exact .pure left
      · exact .bind .addLink fun _ => .bind (.lift _) fun _ => .bind (.lift _) fun _ =>
          .bind (.lift _) fun _ => ih _

theorem leftChain_setOperationChain (count : Nat) (left : QueryBody) :
    leftChain (g.setOperationChain level count left) = g.setOperations level count left := by
  induction count generalizing left with
  | zero => rfl
  | succ count ih =>
    rw [setOperationChain, setOperations, leftChain_lift]
    refine congrArg _ (funext fun k => ?_)
    cases setOp? k with
    | none => rfl
    | some op =>
      dsimp only
      split
      · rfl
      · rw [leftChain_addLink, leftChain_lift]
        · refine congrArg (fun x => descend (_ >>= x)) (funext fun _ => ?_)
          rw [leftChain_lift]
          refine congrArg _ (funext fun quantifier => ?_)
          rw [leftChain_lift]
          exact congrArg _ (funext fun right => ih _)
        · exact .bind (.lift _) fun _ => .bind (.lift _) fun _ => .bind (.lift _) fun _ =>
            g.shifts_setOperationChain level count _

/-- The levels of a body are those of steps inside steps. -/
theorem bodyRule_eq_setOperations : g.bodyRule level = (do
    let left ← g.setOperand
    g.setOperations level (← remaining) left) := by
  simp only [bodyRule, leftChain_setOperationChain]

end Grammar

end CanonicalSql
